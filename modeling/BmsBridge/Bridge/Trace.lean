import BmsBridge.Bridge.Dispatch

/-! What a run owes the inverter, read off its events alone, newest first: which frames have been
decoded, what each battery has reported and when, and which of the frames get an answer. -/

namespace BmsBridge

def clock (start : Int) : List Event → Int
  | [] => start
  | .elapse ns :: past => clock start past + ns
  | _ :: past => clock start past

def connectedIn (battery : Nat) : List Event → Bool
  | [] => false
  | .connected i :: past => i = battery ∨ connectedIn battery past
  | .disconnected i :: past => i ≠ battery ∧ connectedIn battery past
  | _ :: past => connectedIn battery past

/-- When telemetry of a battery was last applied.  The handler applies it at most once in an
interval, and counts the first interval from the clock's epoch. -/
def lastApply (configs : List BatteryConfig) (start : Int) (battery : Nat) :
    List Event → Option Int
  | [] => none
  | .parsed i p :: past =>
    if i = battery ∧ p.telemetry.isSome ∧ stateUpdateInterval configs battery ≤
        clock start past - (lastApply configs start battery past).getD 0 then
      some (clock start past)
    else lastApply configs start battery past
  | _ :: past => lastApply configs start battery past

def hasSettings (battery : Nat) : List Event → Bool
  | [] => false
  | .parsed i p :: past => (i = battery ∧ p.settings.isSome) ∨ hasSettings battery past
  | _ :: past => hasSettings battery past

/-- The inverter's bytes that no decoded frame has used up. -/
def rxAfter : List Event → List UInt8
  | [] => []
  | .rx data :: past => Drain.rest (tryParsePylontech ·) (appendRx (rxAfter past) data)
  | _ :: past => rxAfter past

/-- The decoded frames in order, each with the events before it. -/
def decodedIn : List Event → List (List Event × PylontechFrame)
  | [] => []
  | .rx data :: past => decodedIn past ++
      (Drain.frames (tryParsePylontech ·) (appendRx (rxAfter past) data)).map fun f => (past, f)
  | _ :: past => decodedIn past

/-- The battery whose data a slot shows: its owner, or the one that a reserve mirrors. -/
def shownBattery (configs : List BatteryConfig) (slot : Slot) : Option Nat := do
  let b ← configs[slot.battery]?
  if b.monitored then return slot.battery
  configs.findIdx? fun o => o.name = b.mirror

/-- The data of a battery can be shown: it is connected, complete, and at most five seconds old. -/
def live (configs : List BatteryConfig) (start : Int) (past : List Event) (battery : Nat) : Bool :=
  connectedIn battery past ∧ hasSettings battery past ∧
    (lastApply configs start battery past).any fun t => clock start past - t ≤ kFreshFor

def answerable (configs : List BatteryConfig) (start : Int) (past : List Event)
    (f : PylontechFrame) : Bool :=
  kBaseAddress ≤ f.adr ∧ f.cid2 ∈ [0x42, 0x44, 0x47, 0x92] ∧
    (((buildAddressMap configs)[(f.adr - kBaseAddress).toNat]?).bind (shownBattery configs)).any
      (live configs start past)

end BmsBridge
