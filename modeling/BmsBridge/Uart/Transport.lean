import BmsBridge.Uart.Dispatcher

/-! The dispatcher's thread with any number of serial lines (`UartTransport`), over the table of the
process's descriptors.  The rest of the program, on any thread, opens and closes descriptors of its
own meanwhile; a number that has been closed can be given out again at once. -/

namespace BmsBridge

/-- What a sink (`TransportEvents`) is told. -/
inductive SinkCall where
  | connected
  | disconnected
  | bytes (data : List UInt8)
  deriving DecidableEq, Repr

structure UartTransport where
  reconnectMs : Int
  /-- The descriptor of `reopen_timer_`. -/
  timerFd : Nat
  reopenTimer : TimerFd := .disarmed
  /-- `dispatcher_` is set. -/
  attached : Bool := false
  /-- The open port; the source has -1 for none. -/
  fd : Option Nat := none
  /-- How many ports have been opened. -/
  session : Nat := 0
  /-- All that the sink has been told, in order. -/
  calls : List SinkCall := []
  deriving DecidableEq, Repr

namespace UartTransport

/-- How the reads of `on_readable` end: with 0 or `EAGAIN`, or with another error. -/
inductive LastRead where
  | noData
  | failed
  deriving DecidableEq, Repr

/-- What the reads of one call of `on_readable` return. -/
structure Reads where
  chunks : List (List UInt8) := []
  last : LastRead := .noData

/-- The buffer of the reads has 512 bytes. -/
def Reads.fit (reads : Reads) : Bool := reads.chunks.all fun chunk => 0 < chunk.length ∧ chunk.length ≤ 512

def tell (line : UartTransport) (calls : List SinkCall) : UartTransport :=
  { line with calls := line.calls ++ calls }

def armReopen (line : UartTransport) : UartTransport :=
  { line with reopenTimer := line.reopenTimer.arm line.reconnectMs }

end UartTransport

open UartTransport (Reads LastRead)

/-- What a descriptor of the process is. -/
inductive Device (ι : Type) where
  | signals
  | wakeEvent
  | reopenTimer (line : ι)
  /-- The port that a line has opened as its `session`-th one. -/
  | port (line : ι) (session : Nat)
  /-- A battery's event queue, or a timer that `add_timer` has made. -/
  | other (k : Nat)
  | foreign
  deriving DecidableEq, Repr

inductive Handler (ι : Type) where
  | reopenTick (line : ι)
  | readable (line : ι)
  | other (k : Nat)
  deriving DecidableEq, Repr

/-- The handler that belongs to a descriptor. -/
def Device.handler? {ι : Type} : Device ι → Option (Handler ι)
  | .reopenTimer i => some (.reopenTick i)
  | .port i _ => some (.readable i)
  | .other k => some (.other k)
  | _ => none

/-- Where `Dispatcher::run` is. -/
inductive Loop (ι : Type) where
  | before
  /-- In front of the loop's condition. -/
  | testing
  /-- In `epoll_wait`. -/
  | waiting
  /-- With the events of a batch that are left, and what their descriptors were when `epoll_wait`
  returned them. -/
  | handling (events : List (Nat × Device ι))
  | returned
  deriving DecidableEq, Repr

structure Process (ι : Type) where
  table : Nat → Option (Device ι)
  dispatcher : Dispatcher (Handler ι)
  lines : ι → UartTransport
  loop : Loop ι := .before
  /-- The signals that have not been read. -/
  signals : Nat := 0
  /-- The threads between the two statements of `Dispatcher::stop`. -/
  stoppers : Nat := 0

namespace Process

variable {ι : Type} [DecidableEq ι]

section Transport

variable (p : Process ι) (i : ι)

def onLine (f : UartTransport → UartTransport) : Process ι :=
  { p with lines := Function.update p.lines i (f (p.lines i)) }

def watch (fd : Nat) (onReadable : Handler ι) : Process ι :=
  { p with dispatcher := p.dispatcher.watch fd onReadable }

def unwatch (fd : Nat) : Process ι := { p with dispatcher := p.dispatcher.unwatch fd }

/-- The kernel gives out a number. -/
def openAs (fd : Nat) (device : Device ι) : Process ι :=
  { p with table := Function.update p.table fd (some device) }

/-- The kernel takes a descriptor that is closed out of the epoll set. -/
def close (fd : Nat) : Process ι :=
  { p with
    table := Function.update p.table fd none
    dispatcher := { p.dispatcher with interest := Function.update p.dispatcher.interest fd false } }

/-- `opened` is what `serial_open` returns: a number that is not in use, or none. -/
def tryOpen (opened : Option Nat) : Process ι :=
  match opened with
  | none => p.onLine i UartTransport.armReopen
  | some fd =>
    let session := (p.lines i).session + 1
    let p := p.openAs fd (.port i session)
    let p := p.onLine i fun line => { line with fd := some fd, session }
    (p.watch fd (.readable i)).onLine i fun line => line.tell [.connected]

def closeFd : Process ι :=
  match (p.lines i).fd with
  | none => p
  | some fd =>
    let p := if (p.lines i).attached then p.unwatch fd else p
    (p.close fd).onLine i fun line => { line with fd := none }

def start (opened : Option Nat) : Process ι :=
  let p := p.onLine i fun line => { line with attached := true }
  (p.watch (p.lines i).timerFd (.reopenTick i)).tryOpen i opened

def stop : Process ι :=
  let p := if (p.lines i).attached then p.unwatch (p.lines i).timerFd else p
  (p.closeFd i).onLine i fun line => { line with attached := false }

def onReadable (reads : Reads) : Process ι :=
  let p := p.onLine i fun line => line.tell (reads.chunks.map .bytes)
  match reads.last with
  | .noData => p
  | .failed => (p.closeFd i).onLine i fun line => (line.tell [.disconnected]).armReopen

def onReopenTick (opened : Option Nat) : Process ι :=
  match (p.lines i).fd with
  | some _ => p
  | none => p.tryOpen i opened

end Transport

/-! ### The loop -/

/-- What the kernel answers while a handler runs. -/
structure Answers where
  opened : Option Nat := none
  reads : Reads := {}

inductive Label (ι : Type) where
  /-- `UartTransport::start`. -/
  | start (line : ι) (opened : Option Nat)
  /-- `watch` of another descriptor. -/
  | watchOther (fd k : Nat)
  | foreignOpen (fd : Nat)
  | foreignClose (fd : Nat)
  | expire (line : ι)
  | signal
  /-- The two statements of `Dispatcher::stop`, on any thread. -/
  | stopStore
  | stopWake
  | run
  | test
  /-- `epoll_wait` fails with `EINTR`. -/
  | interrupted
  | wait (fds : List Nat)
  | handle (answers : Answers)
  | done
  /-- `UartTransport::stop`. -/
  | stop (line : ι)

/-- A number that the kernel can give out. -/
def isFree (p : Process ι) (fd : Nat) : Bool := p.table fd = none

/-- Whether `epoll_wait` may report a descriptor.  It always may for ports and other descriptors, as
bytes, hangups and expirations come at any time. -/
def ready (p : Process ι) (fd : Nat) : Bool :=
  p.dispatcher.interest fd && match p.table fd with
    | some .signals => 0 < p.signals
    | some .wakeEvent => p.dispatcher.wakeEvent.readable
    | some (.reopenTimer i) => (p.lines i).reopenTimer = .expired
    | some (.port _ _) | some (.other _) => true
    | _ => false

/-- The events of a batch. -/
def reported (p : Process ι) (fds : List Nat) : List (Nat × Device ι) :=
  fds.filterMap fun fd => (p.table fd).map fun device => (fd, device)

/-- `kMaxEvents`. -/
def kMaxEvents : Nat := 16

/-- The call of a handler.  The other handlers watch and unwatch nothing while the loop runs. -/
def call (p : Process ι) (answers : Answers) : Handler ι → Process ι
  | .reopenTick i =>
    (p.onLine i fun line => { line with reopenTimer := line.reopenTimer.consume }).onReopenTick i
      answers.opened
  | .readable i => p.onReadable i answers.reads
  | .other _ => p

/-- One event of a batch. -/
def handle (p : Process ι) (answers : Answers) (fd : Nat) : Process ι :=
  if fd = p.dispatcher.signalfd then
    { p with
      signals := 0
      dispatcher := { p.dispatcher with stopping := p.dispatcher.stopping || 0 < p.signals } }
  else if fd = p.dispatcher.wakefd then
    { p with dispatcher := { p.dispatcher with
        wakeEvent := p.dispatcher.wakeEvent.read.getD p.dispatcher.wakeEvent } }
  else match p.dispatcher.handlers fd with
    | some handler => p.call answers handler
    | none => p

def Answers.valid (p : Process ι) (answers : Answers) : Bool :=
  answers.opened.all p.isFree && answers.reads.fit

def step (p : Process ι) : Label ι → Option (Process ι)
  | .start i opened =>
    if p.loop = .before ∧ !(p.lines i).attached ∧ opened.all p.isFree then some (p.start i opened)
    else none
  | .watchOther fd k =>
    if p.loop = .before ∧ p.isFree fd then
      some ((p.openAs fd (.other k)).watch fd (.other k))
    else none
  | .foreignOpen fd => if p.isFree fd then some (p.openAs fd .foreign) else none
  | .foreignClose fd => if p.table fd = some .foreign then some (p.close fd) else none
  | .expire i =>
    if (p.lines i).reopenTimer = .armed then
      some (p.onLine i fun line => { line with reopenTimer := .expired })
    else none
  | .signal => some { p with signals := p.signals + 1 }
  | .stopStore => some { p with
      dispatcher := { p.dispatcher with stopping := true }
      stoppers := p.stoppers + 1 }
  | .stopWake =>
    if 0 < p.stoppers then some { p with
      dispatcher := { p.dispatcher with wakeEvent := p.dispatcher.wakeEvent.write }
      stoppers := p.stoppers - 1 }
    else none
  | .run => if p.loop = .before then some { p with loop := .testing } else none
  | .test =>
    if p.loop = .testing then
      some { p with loop := if p.dispatcher.stopping then .returned else .waiting }
    else none
  | .interrupted => if p.loop = .waiting then some { p with loop := .testing } else none
  | .wait fds =>
    if p.loop = .waiting ∧ fds ≠ [] ∧ fds.Nodup ∧ fds.length ≤ kMaxEvents ∧ fds.all p.ready then
      some { p with loop := .handling (p.reported fds) }
    else none
  | .handle answers => match p.loop with
    | .handling ((fd, _) :: events) =>
      if answers.valid p then some { p.handle answers fd with loop := .handling events } else none
    | _ => none
  | .done => if p.loop = .handling [] then some { p with loop := .testing } else none
  | .stop i => if p.loop = .returned then some (p.stop i) else none

end Process

end BmsBridge
