import BmsBridge.Jk.Driver

/-! The state that one battery's driver keeps of its BMS.  Times are nanoseconds of the steady clock;
all of this runs on the dispatcher's thread, so one clock value holds through a call. -/

namespace BmsBridge

structure SharedState where
  connected : Bool := false
  cells : Option JkCellInfo := none
  pack : Option JkPackInfo := none
  settings : Option JkSettings := none
  updatedAt : Int := 0

namespace SharedState

def setConnected (s : SharedState) (v : Bool) : SharedState := { s with connected := v }

def applyTelemetry (s : SharedState) (now : Int) (c : JkCellInfo) (p : JkPackInfo) : SharedState :=
  { s with cells := some c, pack := some p, updatedAt := now }

def applySettings (s : SharedState) (js : JkSettings) : SharedState := { s with settings := some js }

def isFresh (s : SharedState) (now maxAge : Int) : Bool :=
  s.connected ∧ s.cells.isSome ∧ s.pack.isSome ∧ now - s.updatedAt ≤ maxAge

end SharedState

structure BmsHandler where
  state : SharedState := {}
  lastStateUpdate : Int := 0

namespace BmsHandler

def onConnected (h : BmsHandler) : BmsHandler := { h with state := h.state.setConnected true }

def onDisconnected (h : BmsHandler) : BmsHandler := { h with state := h.state.setConnected false }

def onTelemetry (h : BmsHandler) (stateUpdateInterval now : Int) (t : Telemetry) : BmsHandler :=
  if stateUpdateInterval ≤ now - h.lastStateUpdate then
    { state := h.state.applyTelemetry now t.cells t.pack, lastStateUpdate := now }
  else h

/-- `on_bytes`, behind the protocol's `feed`. -/
def onParsed (h : BmsHandler) (stateUpdateInterval now : Int) (parsed : Parsed) : BmsHandler :=
  let h := match parsed.telemetry with
    | some t => h.onTelemetry stateUpdateInterval now t
    | none => h
  match parsed.settings with
  | some s => { h with state := h.state.applySettings s }
  | none => h

end BmsHandler

end BmsBridge
