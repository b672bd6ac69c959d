import BmsBridge.Bridge.Handler
import BmsBridge.Pylontech.Master

/-! A battery that the bridge polls over UART: the handler over the master protocol, and what its
events, newest first, say of the cells it has reported. -/

namespace BmsBridge

structure PolledBattery where
  protocol : PylontechMasterProtocol
  handler : BmsHandler := {}

inductive PolledEvent where
  | connected
  | disconnected
  /-- `on_bytes` at a time, with the bytes of these frames. -/
  | received (now : Int) (frames : List PylontechFrame)

namespace PolledBattery

def onBytes (b : PolledBattery) (stateUpdateInterval now : Int) (data : List UInt8) :
    PolledBattery :=
  let (parsed, protocol) := b.protocol.feed data
  { protocol, handler := b.handler.onParsed stateUpdateInterval now parsed }

def step (stateUpdateInterval : Int) (b : PolledBattery) : PolledEvent → PolledBattery
  | .connected => { protocol := b.protocol.reset, handler := b.handler.onConnected }
  | .disconnected => { protocol := b.protocol.reset, handler := b.handler.onDisconnected }
  | .received now frames => b.onBytes stateUpdateInterval now (frames.flatMap buildPylontech)

def run (wireAdr : UInt8) (stateUpdateInterval : Int) : List PolledEvent → PolledBattery
  | [] => { protocol := { wireAdr } }
  | e :: past => (run wireAdr stateUpdateInterval past).step stateUpdateInterval e

end PolledBattery

/-! ### The cells that a run has reported -/

/-- The number of cells in a valid analog frame of the battery. -/
def analogCells (wireAdr : UInt8) (f : PylontechFrame) : Option Nat :=
  if f.adr = wireAdr ∧ f.cid2 = 0x42 then
    match AnalogResponse.deserialize f.info with
    | (true, a) => some a.cellVoltagesMv.length
    | (false, _) => none
  else none

/-- The limits in a valid system-parameter frame of the battery. -/
def systemParam (wireAdr : UInt8) (f : PylontechFrame) : Option SystemParameterResponse :=
  if f.adr = wireAdr ∧ f.cid2 = 0x47 then
    match SystemParameterResponse.deserialize f.info with
    | (true, sp) => some sp
    | (false, _) => none
  else none

/-- All frames received, newest first. -/
def receivedFrames : List PolledEvent → List PylontechFrame
  | [] => []
  | .received _ frames :: past => frames.reverse ++ receivedFrames past
  | _ :: past => receivedFrames past

/-- The cells of the newest analog frame; none has been received at first. -/
def newestCells (wireAdr : UInt8) : List PylontechFrame → Nat
  | [] => 0
  | f :: older => (analogCells wireAdr f).getD (newestCells wireAdr older)

/-- The newest limits, with the cells of the newest analog frame before them. -/
def newestLimits (wireAdr : UInt8) : List PylontechFrame → Option (SystemParameterResponse × Nat)
  | [] => none
  | f :: older =>
    match systemParam wireAdr f with
    | some sp => some (sp, newestCells wireAdr older)
    | none => newestLimits wireAdr older

/-- When telemetry was last applied, and the number of its cells.  Of the analog frames in one chunk
only the last one counts, and that one not within an interval of the last application. -/
def shownCells (wireAdr : UInt8) (stateUpdateInterval : Int) :
    List PolledEvent → Option (Int × Nat)
  | [] => none
  | .received now frames :: past =>
    let shown := shownCells wireAdr stateUpdateInterval past
    match (frames.filterMap (analogCells wireAdr)).getLast? with
    | some cells =>
      if stateUpdateInterval ≤ now - (shown.map Prod.fst).getD 0 then some (now, cells) else shown
    | none => shown
  | _ :: past => shownCells wireAdr stateUpdateInterval past

end BmsBridge
