import BmsBridge.Bridge.Inverter

/-! The dispatcher's thread: the inverter's bytes and the batteries' events, one call after the
other, with time passing in between. -/

namespace BmsBridge

open Words

inductive Event where
  /-- Nanoseconds pass. -/
  | elapse (ns : Nat)
  /-- `Inverter::on_bytes`. -/
  | rx (data : List UInt8)
  /-- `on_connected` of a battery's handler. -/
  | connected (battery : Nat)
  | disconnected (battery : Nat)
  /-- `on_bytes` of a battery's handler, with what its protocol reports. -/
  | parsed (battery : Nat) (parsed : Parsed)

structure Bridge where
  now : Int
  handlers : Nat → BmsHandler := fun _ => {}
  rxBuf : List UInt8 := []

namespace Bridge

def onHandler (s : Bridge) (battery : Nat) (f : BmsHandler → BmsHandler) : Bridge :=
  { s with handlers := fun i => if i = battery then f (s.handlers i) else s.handlers i }

@[simp] theorem onHandler_same (s : Bridge) (i : Nat) (f : BmsHandler → BmsHandler) :
    (s.onHandler i f).handlers i = f (s.handlers i) := if_pos rfl

theorem onHandler_other (s : Bridge) {i j : Nat} (f : BmsHandler → BmsHandler) (h : i ≠ j) :
    (s.onHandler j f).handlers i = s.handlers i := if_neg h

def batteries (s : Bridge) (configs : List BatteryConfig) : Batteries where
  configs
  states := fun i => (s.handlers i).state

end Bridge

/-- `state_update_interval_` of a battery's handler, in nanoseconds. -/
def stateUpdateInterval (configs : List BatteryConfig) (battery : Nat) : Int :=
  ((configs[battery]?.map BatteryConfig.bmsStateUpdateIntervalMs).getD 0).toInt * 1000000

/-- One call, with the responses handed to `send_response`. -/
def step (configs : List BatteryConfig) (s : Bridge) : Event →
    Except Fault (Bridge × List (List UInt8))
  | .elapse ns => return ({ s with now := s.now + ns }, [])
  | .rx data => do
    let (sent, rxBuf) := onBytes (buildAddressMap configs) (s.batteries configs) s.now s.rxBuf data
    return ({ s with rxBuf }, ← sent)
  | .connected i => return (s.onHandler i BmsHandler.onConnected, [])
  | .disconnected i => return (s.onHandler i BmsHandler.onDisconnected, [])
  | .parsed i p =>
    return (s.onHandler i fun h => h.onParsed (stateUpdateInterval configs i) s.now p, [])

/-- The run of `past`, newest event first, from the clock value `start`: the state reached and all
responses sent. -/
def run (configs : List BatteryConfig) (start : Int) :
    List Event → Except Fault (Bridge × List (List UInt8))
  | [] => return ({ now := start }, [])
  | e :: past => do
    let (s, sent) ← run configs start past
    let (s, new) ← step configs s e
    return (s, sent ++ new)

end BmsBridge
