import BmsBridge.Pylontech.Frame

/-! The INFO payloads of the Pylontech responses, as records and as bytes. -/

namespace BmsBridge

open Words

/-! ### Big-endian writer and reader -/

namespace BeWriter

def u8 (out : List UInt8) (v : UInt8) : List UInt8 := out ++ [v]

def u16 (out : List UInt8) (v : UInt16) : List UInt8 :=
  out ++ [(v >>> 8).toUInt8, (v &&& 0xFF).toUInt8]

def i16 (out : List UInt8) (v : Int16) : List UInt8 := u16 out v.toUInt16

end BeWriter

/-- The unread bytes, and whether every read so far found its bytes. -/
structure BeReader where
  rest : List UInt8
  ok : Bool := true

namespace BeReader

def u8 : StateM BeReader UInt8 := fun r =>
  match r.rest with
  | b :: rest => (b, { r with rest })
  | [] => (0, { r with ok := false })

def u16 : StateM BeReader UInt16 := fun r =>
  match r.rest with
  | hi :: lo :: rest => (ofBytes hi lo, { r with rest })
  | _ => (0, { r with ok := false })

def i16 : StateM BeReader Int16 := do return (← u16).toInt16

def u16s : Nat → StateM BeReader (List UInt16)
  | 0 => return []
  | n + 1 => do
    let v ← u16
    let vs ← u16s n
    return v :: vs

end BeReader

/-! ### Responses -/

/-- CID2 = 0x42: analog data. -/
structure AnalogResponse where
  infoflag : UInt8 := 0
  command : UInt8 := 0
  cellVoltagesMv : List UInt16 := []
  temperaturesK10 : List UInt16 := []
  current01a : Int16 := 0
  moduleVoltageMv : UInt16 := 0
  remainCapacityMah : UInt16 := 0
  userDefinedCount : UInt8 := 2
  totalCapacityMah : UInt16 := 0
  cycleCount : UInt16 := 0
  deriving DecidableEq, Repr

/-- CID2 = 0x44: alarm and status flags. -/
structure AlarmResponse where
  dataflag : UInt8 := 0
  command : UInt8 := 0
  cellVoltageStates : List UInt8 := []
  temperatureStates : List UInt8 := []
  chargeCurrentState : UInt8 := 0
  moduleVoltageState : UInt8 := 0
  dischargeCurrentState : UInt8 := 0
  statusByte1 : UInt8 := 0
  statusByte2 : UInt8 := 0
  statusByte3 : UInt8 := 0
  cellErrorStates1To8 : UInt8 := 0
  cellErrorStates9To16 : UInt8 := 0
  deriving DecidableEq, Repr

/-- CID2 = 0x47: system limits. -/
structure SystemParameterResponse where
  infoflag : UInt8 := 0
  cellHighVoltageLimitMv : UInt16 := 0
  cellLowVoltageLimitMv : UInt16 := 0
  cellUnderVoltageLimitMv : UInt16 := 0
  chargeHighTempK10 : UInt16 := 0
  chargeLowTempK10 : UInt16 := 0
  chargeCurrentLimit01a : Int16 := 0
  moduleHighVoltageLimitMv : UInt16 := 0
  moduleLowVoltageLimitMv : UInt16 := 0
  moduleUnderVoltageLimitMv : UInt16 := 0
  dischargeHighTempK10 : UInt16 := 0
  dischargeLowTempK10 : UInt16 := 0
  dischargeCurrentLimit01a : Int16 := 0
  deriving DecidableEq, Repr

/-- CID2 = 0x92: charge and discharge directives. -/
structure ChargeManagementResponse where
  command : UInt8 := 0
  chargeVoltageLimitMv : UInt16 := 0
  dischargeVoltageLimitMv : UInt16 := 0
  chargeCurrentLimit01a : Int16 := 0
  dischargeCurrentLimit01a : Int16 := 0
  chargeEnabled : Bool := false
  dischargeEnabled : Bool := false
  requestChargeImmediately : Bool := false
  requestChargeImmediatelyLow : Bool := false
  requestFullCharge : Bool := false
  deriving DecidableEq, Repr

namespace AnalogResponse

open BeWriter in
def serialize (r : AnalogResponse) (info : List UInt8 := []) : List UInt8 :=
  let w := u8 info r.infoflag
  let w := u8 w r.command
  let w := u8 w (UInt8.ofNat r.cellVoltagesMv.length)
  let w := r.cellVoltagesMv.foldl u16 w
  let w := u8 w (UInt8.ofNat r.temperaturesK10.length)
  let w := r.temperaturesK10.foldl u16 w
  let w := i16 w r.current01a
  let w := u16 w r.moduleVoltageMv
  let w := u16 w r.remainCapacityMah
  let w := u8 w r.userDefinedCount
  let w := u16 w r.totalCapacityMah
  u16 w r.cycleCount

open BeReader in
def read : StateM BeReader AnalogResponse := do
  let infoflag ← u8
  let command ← u8
  let nCells ← u8
  let cellVoltagesMv ← u16s nCells.toNat
  let nTemps ← u8
  let temperaturesK10 ← u16s nTemps.toNat
  let current01a ← i16
  let moduleVoltageMv ← u16
  let remainCapacityMah ← u16
  let userDefinedCount ← u8
  let totalCapacityMah ← u16
  let cycleCount ← u16
  return {
    infoflag, command, cellVoltagesMv, temperaturesK10, current01a, moduleVoltageMv
    remainCapacityMah, userDefinedCount, totalCapacityMah, cycleCount }

/-- The `bool` result with the object that the reads fill. -/
def deserialize (info : List UInt8) : Bool × AnalogResponse :=
  let (a, r) := read.run { rest := info }
  (r.ok, a)

end AnalogResponse

namespace AlarmResponse

open BeWriter in
def serialize (r : AlarmResponse) (info : List UInt8 := []) : List UInt8 :=
  let w := u8 info r.dataflag
  let w := u8 w r.command
  let w := u8 w (UInt8.ofNat r.cellVoltageStates.length)
  let w := r.cellVoltageStates.foldl u8 w
  let w := u8 w (UInt8.ofNat r.temperatureStates.length)
  let w := r.temperatureStates.foldl u8 w
  let w := u8 w r.chargeCurrentState
  let w := u8 w r.moduleVoltageState
  let w := u8 w r.dischargeCurrentState
  let w := u8 w r.statusByte1
  let w := u8 w r.statusByte2
  let w := u8 w r.statusByte3
  let w := u8 w r.cellErrorStates1To8
  u8 w r.cellErrorStates9To16

end AlarmResponse

namespace SystemParameterResponse

open BeWriter in
def serialize (r : SystemParameterResponse) (info : List UInt8 := []) : List UInt8 :=
  let w := u8 info r.infoflag
  let w := u16 w r.cellHighVoltageLimitMv
  let w := u16 w r.cellLowVoltageLimitMv
  let w := u16 w r.cellUnderVoltageLimitMv
  let w := u16 w r.chargeHighTempK10
  let w := u16 w r.chargeLowTempK10
  let w := i16 w r.chargeCurrentLimit01a
  let w := u16 w r.moduleHighVoltageLimitMv
  let w := u16 w r.moduleLowVoltageLimitMv
  let w := u16 w r.moduleUnderVoltageLimitMv
  let w := u16 w r.dischargeHighTempK10
  let w := u16 w r.dischargeLowTempK10
  i16 w r.dischargeCurrentLimit01a

open BeReader in
def read : StateM BeReader SystemParameterResponse := do
  let infoflag ← u8
  let cellHighVoltageLimitMv ← u16
  let cellLowVoltageLimitMv ← u16
  let cellUnderVoltageLimitMv ← u16
  let chargeHighTempK10 ← u16
  let chargeLowTempK10 ← u16
  let chargeCurrentLimit01a ← i16
  let moduleHighVoltageLimitMv ← u16
  let moduleLowVoltageLimitMv ← u16
  let moduleUnderVoltageLimitMv ← u16
  let dischargeHighTempK10 ← u16
  let dischargeLowTempK10 ← u16
  let dischargeCurrentLimit01a ← i16
  return {
    infoflag, cellHighVoltageLimitMv, cellLowVoltageLimitMv, cellUnderVoltageLimitMv
    chargeHighTempK10, chargeLowTempK10, chargeCurrentLimit01a, moduleHighVoltageLimitMv
    moduleLowVoltageLimitMv, moduleUnderVoltageLimitMv, dischargeHighTempK10, dischargeLowTempK10
    dischargeCurrentLimit01a }

def deserialize (info : List UInt8) : Bool × SystemParameterResponse :=
  let (sp, r) := read.run { rest := info }
  (r.ok, sp)

end SystemParameterResponse

namespace ChargeManagementResponse

/-- The status byte: one bit for each flag, from the top bit down. -/
def status (r : ChargeManagementResponse) : UInt8 :=
  (if r.chargeEnabled then 0x80 else 0) ||| (if r.dischargeEnabled then 0x40 else 0) |||
    (if r.requestChargeImmediately then 0x20 else 0) |||
    (if r.requestChargeImmediatelyLow then 0x10 else 0) |||
    (if r.requestFullCharge then 0x08 else 0)

open BeWriter in
def serialize (r : ChargeManagementResponse) (info : List UInt8 := []) : List UInt8 :=
  let w := u8 info r.command
  let w := u16 w r.chargeVoltageLimitMv
  let w := u16 w r.dischargeVoltageLimitMv
  let w := i16 w r.chargeCurrentLimit01a
  let w := i16 w r.dischargeCurrentLimit01a
  u8 w r.status

end ChargeManagementResponse

end BmsBridge
