import BmsBridge.Ble.Client
import BmsBridge.Ble.EventQueue
import BmsBridge.Bridge.Handler

/-! A battery behind `BleTransport`: the client's threads push events into the queue, and `pump` hands
them to the battery's handler on the dispatcher's thread. -/

namespace BmsBridge

open BleClient

inductive Producer where
  | management
  /-- A thread of the BLE stack that runs callbacks. -/
  | stack (thread : Nat)
  deriving DecidableEq, Repr

structure BleTransport where
  ble : Client := {}
  queue : BmsEventQueue Producer BmsEvent := {}
  sink : BmsHandler := {}

namespace BleTransport

/-- What a step of the client puts into the queue, and who does it. -/
def pushed (c : Client) (thread : Nat) : BleClient.Label → Option (Producer × BmsEvent)
  | .thread _ => match c.code with
    | .push ev :: _ => some (.management, ev)
    | _ => none
  | .notified payload => some (.stack thread, .notifyFrame payload)
  | _ => none

/-- The management thread has enqueued an event and is about to signal. -/
def busy (t : BleTransport) : BleClient.Label → Bool
  | .thread _ => t.queue.unsignalled .management
  | _ => false

/-- The sink's call for one event.  `parsed` is what the battery's protocol makes of the bytes. -/
def handle (interval now : Int) (parsed : Parsed) (sink : BmsHandler) : BmsEvent → BmsHandler
  | .connected => sink.onConnected
  | .disconnected => sink.onDisconnected
  | .notifyFrame _ => sink.onParsed interval now parsed

inductive Label where
  /-- `thread` is the stack's thread, where the step is a callback of its. -/
  | client (thread : Nat) (l : BleClient.Label)
  /-- A notify callback that runs before `notify` has returned or after the link has gone. -/
  | stray (thread : Nat) (payload : List UInt8)
  | signal (p : Producer)
  | wake
  | drain
  | tryPop
  | deliver (now : Int) (parsed : Parsed)

def step (interval : Int) (t : BleTransport) : Label → Option BleTransport
  | .client thread l =>
    if t.busy l then none
    else do
      let ble ← BleClient.step t.ble l
      match pushed t.ble thread l with
      | none => return { t with ble }
      | some (p, ev) =>
        let queue ← t.queue.step (.enqueue p ev)
        return { t with ble, queue }
  | .stray thread payload => do
    let ev : BmsEvent := .notifyFrame payload
    let queue ← t.queue.step (.enqueue (.stack thread) ev)
    return { t with queue, ble := { t.ble with queue := t.ble.queue ++ [ev] } }
  | .signal p => do return { t with queue := ← t.queue.step (.signal p) }
  | .wake => do return { t with queue := ← t.queue.step .wake }
  | .drain => do return { t with queue := ← t.queue.step .drain }
  | .tryPop => do return { t with queue := ← t.queue.step .tryPop }
  | .deliver now parsed => match t.queue.pump with
    | .handing ev => do
      let queue ← t.queue.step .deliver
      return { t with queue, sink := handle interval now parsed t.sink ev }
    | _ => none

end BleTransport

end BmsBridge
