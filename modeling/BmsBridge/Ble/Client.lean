/-! The management thread of `BleClient`, statement by statement, with what other threads can do to
it between two statements: the BLE stack's callbacks, the timer, the scan coordinator's grant, `send`
and `stop`. -/

namespace BmsBridge

namespace BleClient

inductive State where
  | waitAdapter
  | waitSlot
  | scan
  | connect
  | online
  | backoff
  | stopping
  deriving DecidableEq, Repr

inductive BmsEvent where
  | connected
  | disconnected
  | notifyFrame (payload : List UInt8)
  deriving DecidableEq, Repr

inductive Delay where
  | adapterPoll
  | scanTimeout
  | reconnectBackoff
  deriving DecidableEq, Repr

inductive Timer where
  | idle
  | armed (delay : Delay)
  | expired
  deriving DecidableEq, Repr

structure Peripheral where
  /-- The callback that signals `work_event_` is set. -/
  onDisconnected : Bool := false
  connected : Bool := false
  notifying : Bool := false
  deriving DecidableEq, Repr

inductive Fd where
  | stop
  | work
  | slot
  | timer
  deriving DecidableEq, Repr

/-- A statement of the handlers.  A call that can fail takes its failure exit then (`exit`); the calls
that the source does not guard by `try` are taken not to fail. -/
inductive Op where
  | enter (s : State)
  | setState (s : State)
  | probeAdapter
  | armTimer (delay : Delay)
  | disarmTimer
  | requestSlot
  | releaseSlot
  | consumeWork
  | needAdapter
  | resetMatch
  | watchScan
  | scanStart
  | unwatchScan
  | scanStop
  | resetAdapter
  | takeMatch
  | adoptMatch
  | needPeripheral
  | setCallbackOnDisconnected
  | connect
  | checkConnected
  | notify
  | disconnect
  | resetPeripheral
  | push (ev : BmsEvent)
  deriving DecidableEq, Repr

/-- `enter`, behind `state_ = s`.  Every call of `enter` is the last statement of its block. -/
def enterBody : State → List Op
  | .waitAdapter => [.probeAdapter, .enter .waitSlot]
  | .waitSlot => [.requestSlot]
  | .scan => [.consumeWork, .needAdapter, .resetMatch, .watchScan, .scanStart, .armTimer .scanTimeout]
  | .connect => [.disarmTimer, .needPeripheral, .setCallbackOnDisconnected, .connect, .checkConnected,
      .notify, .push .connected, .enter .online]
  | .online => [.releaseSlot, .consumeWork]
  | .backoff => [.releaseSlot, .armTimer .reconnectBackoff]
  | .stopping => [.disarmTimer]

structure Client where
  state : State := .waitAdapter
  /-- The statements left of the running handler. -/
  code : List Op := [.enter .waitAdapter]
  /-- The ready descriptors of the last `epoll_wait` that are left to look at. -/
  batch : List Fd := []
  exited : Bool := false
  workEvent : Bool := false
  slotEvent : Bool := false
  stopEvent : Bool := false
  timer : Timer := .idle
  adapter : Bool := false
  scanning : Bool := false
  /-- The callback for discovered peripherals is set. -/
  watching : Bool := false
  scanMatch : Bool := false
  /-- That callback has stored a match and is about to signal `work_event_`. -/
  matched : Bool := false
  peripheral : Option Peripheral := none
  /-- What has been pushed to the queue, in order. -/
  queue : List BmsEvent := []
  deriving DecidableEq, Repr

def Client.linkUp (c : Client) : Bool := c.peripheral.any Peripheral.connected

/-- Where a statement goes other than to the next one.  `ok` is the outcome of a call out of the
program. -/
def exit (c : Client) (ok : Bool) : Op → Option (List Op)
  | .enter s => some (enterBody s)
  | .probeAdapter => if ok then none else some [.armTimer .adapterPoll]
  | .needAdapter => if c.adapter then none else some [.enter .backoff]
  | .scanStart => if ok then none else some [.unwatchScan, .resetAdapter, .enter .backoff]
  | .takeMatch => if c.scanMatch then none else some []
  | .needPeripheral => if c.peripheral.isSome then none else some [.enter .backoff]
  | .connect => if ok then none else some [.resetPeripheral, .enter .backoff]
  | .checkConnected => if c.linkUp then none else some [.resetPeripheral, .enter .backoff]
  | .notify => if ok then none else some [.disconnect, .resetPeripheral, .enter .backoff]
  | _ => none

/-- What a statement does to the client's data. -/
def effect (c : Client) (ok : Bool) : Op → Client
  | .enter s | .setState s => { c with state := s }
  | .probeAdapter => { c with adapter := c.adapter || ok }
  | .armTimer delay => { c with timer := .armed delay }
  | .disarmTimer => { c with timer := .idle }
  -- The coordinator belongs to all clients: its grant is an event of its own.
  | .requestSlot | .releaseSlot => c
  | .consumeWork => { c with workEvent := false }
  | .needAdapter | .needPeripheral | .checkConnected => c
  | .resetMatch => { c with scanMatch := false }
  | .watchScan => { c with watching := true }
  | .scanStart => { c with scanning := c.scanning || ok }
  | .unwatchScan => { c with watching := c.watching && !c.adapter }
  | .scanStop => { c with scanning := c.scanning && !c.adapter }
  | .resetAdapter => { c with adapter := false }
  | .takeMatch => { c with scanMatch := false }
  | .adoptMatch => { c with peripheral := some {} }
  | .setCallbackOnDisconnected =>
    { c with peripheral := c.peripheral.map fun p => { p with onDisconnected := true } }
  | .connect => { c with peripheral := c.peripheral.map fun p => { p with connected := ok } }
  | .notify => { c with peripheral := c.peripheral.map fun p => { p with notifying := ok } }
  -- `ok`: the stack runs the callback also for a link that the client closes itself.
  | .disconnect => { c with
      peripheral := c.peripheral.map fun p => { p with connected := false }
      workEvent := c.workEvent || (ok && c.linkUp && c.peripheral.any Peripheral.onDisconnected) }
  | .resetPeripheral => { c with peripheral := none }
  | .push ev => { c with queue := c.queue ++ [ev] }

def exec (c : Client) (ok : Bool) (op : Op) (rest : List Op) : Client :=
  { effect c ok op with code := (exit c ok op).getD rest }

/-- `on_stop_event`, `on_work_event`, `on_slot_event` and `on_timer_expired`. -/
def handler (state : State) (adapter : Bool) : Fd → List Op
  | .stop => [.disconnect, .resetPeripheral, .releaseSlot, .setState .stopping]
  | .work => match state with
    | .scan => [.takeMatch, .disarmTimer, .scanStop, .unwatchScan, .adoptMatch, .enter .connect]
    | .online => [.push .disconnected, .disconnect, .resetPeripheral, .enter .backoff]
    | _ => []
  | .slot => match state with
    | .waitSlot => [.enter .scan]
    | _ => []
  | .timer => match state with
    | .waitAdapter => [.enter .waitAdapter]
    | .scan => [.scanStop, .unwatchScan, .enter .backoff]
    | .backoff => [.enter (if adapter then .waitSlot else .waitAdapter)]
    | _ => []

def consume (c : Client) : Fd → Client
  | .stop => { c with stopEvent := false }
  | .work => { c with workEvent := false }
  | .slot => { c with slotEvent := false }
  | .timer => { c with timer := if c.timer = .expired then .idle else c.timer }

def ready (c : Client) : Fd → Bool
  | .stop => c.stopEvent
  | .work => c.workEvent
  | .slot => c.slotEvent
  | .timer => c.timer = .expired

/-- The thread is in `epoll_wait`. -/
def Client.waiting (c : Client) : Bool :=
  c.code = [] ∧ c.batch = [] ∧ c.state ≠ .stopping ∧ !c.exited

/-- The thread runs to its next statement that other threads can see: a statement of the handler,
or the loop's step to the next descriptor.  `state_` is the thread's own, so the handler that a
descriptor leads to is chosen with the `consume`. -/
def next (c : Client) (ok : Bool) : Option Client :=
  match c.code with
  | op :: rest => some (exec c ok op rest)
  | [] =>
    if c.state = .stopping then
      if c.exited then none else some { c with batch := [], exited := true }
    else match c.batch with
      | fd :: batch => some { consume c fd with batch, code := handler c.state c.adapter fd }
      | [] => none

inductive Label where
  | thread (ok : Bool)
  /-- `epoll_wait` returns these descriptors; none of them if a signal interrupts it. -/
  | poll (fds : List Fd)
  | pollFailed
  /-- The scan callback stores a match. -/
  | found
  /-- It signals `work_event_`, some time later. -/
  | foundSignal
  /-- The link drops, and the stack runs the callback. -/
  | drop
  | notified (payload : List UInt8)
  | expire
  | grant
  /-- `send` has failed to write.  Its look at the link may be long past. -/
  | sendFailed
  | stop
  deriving DecidableEq, Repr

def step (c : Client) : Label → Option Client
  | .thread ok => next c ok
  | .poll fds =>
    if c.waiting ∧ fds.Nodup ∧ ∀ fd ∈ fds, ready c fd then some { c with batch := fds } else none
  | .pollFailed => if c.waiting then some { c with exited := true } else none
  | .found =>
    if c.watching ∧ !c.scanMatch then some { c with scanMatch := true, matched := true } else none
  | .foundSignal =>
    if c.matched then some { c with matched := false, workEvent := true } else none
  | .drop => match c.peripheral with
    | some p =>
      if p.connected then
        some { c with
          peripheral := some { p with connected := false }
          workEvent := c.workEvent || p.onDisconnected }
      else none
    | none => none
  | .notified payload =>
    if c.peripheral.any Peripheral.notifying then
      some { c with queue := c.queue ++ [.notifyFrame payload] }
    else none
  | .expire => match c.timer with
    | .armed _ => some { c with timer := .expired }
    | _ => none
  | .grant => some { c with slotEvent := true }
  | .sendFailed => some { c with workEvent := true }
  | .stop => some { c with stopEvent := true }

end BleClient

end BmsBridge
