import BmsBridge.Jk.Protocol
import BmsBridge.Pylontech.Payload

/-! The slave side of the Pylontech protocol: requests as a master sends them, and the responses
that the bridge builds from what a BMS has reported. -/

namespace BmsBridge

open Words

/-! ### Requests -/

def buildAnalogRequest (adr : UInt8) : List UInt8 :=
  buildPylontech { adr, cid2 := 0x42, info := [adr] }

def buildSystemParamRequest (adr : UInt8) : List UInt8 :=
  buildPylontech { adr, cid2 := 0x47 }

/-! ### Unit conversions -/

def kUserDefinedUS2000B : UInt8 := 2

def kAlarmStatusByte1Normal : UInt8 := 0x00
def kAlarmStatusByte2Normal : UInt8 := 0x0E
def kAlarmStatusByte3Normal : UInt8 := 0x00

def echoedCmdValue (req : PylontechFrame) : UInt8 :=
  match req.info with
  | [] => req.adr
  | b :: _ => b

def okResponse (req : PylontechFrame) : PylontechFrame :=
  { ver := req.ver, adr := req.adr, cid1 := 0x46, cid2 := 0x00 }

/-- 0.1 °C to Kelvin × 10. -/
def dCToK10 (dC : Int16) : UInt16 := (dC.toInt32 + 2731).toInt16.toUInt16

def clampU16 (v : UInt32) : UInt16 := (min v 0xFFFF).toUInt16

def clampI16 (v : Int32) : Int16 :=
  if 32767 < v then 32767 else if v < -32768 then -32768 else v.toInt16

structure ScaledCapacity where
  totalMah : UInt16
  remainMah : UInt16
  deriving DecidableEq, Repr

def kCapU16Max : UInt32 := 65000

/-- The scale wraps to zero at the very top of the range, where the divisions fault. -/
def scaleCapacityToU16 (totalMah remainMah : UInt32) : Except Fault ScaledCapacity :=
  if totalMah ≤ kCapU16Max then
    .ok { totalMah := totalMah.toUInt16, remainMah := remainMah.toUInt16 }
  else do
    let scale := (totalMah + kCapU16Max - 1) / kCapU16Max
    return { totalMah := (← udiv totalMah scale).toUInt16
             remainMah := (← udiv remainMah scale).toUInt16 }

def moduleCountForCapacity (totalCapacityMah : UInt32) : UInt8 :=
  if totalCapacityMah ≤ kCapU16Max then 1
  else
    let n := (totalCapacityMah + kCapU16Max - 1) / kCapU16Max
    (min n 0xFF).toUInt8

def moduleVoltageFromCell (cellMv : UInt16) (cellCount : UInt8) : UInt16 :=
  clampU16 (cellMv.toUInt32 * cellCount.toUInt32)

/-! ### Responders -/

/-- The record that `build_analog_response` serializes. -/
def analogResponse (req : PylontechFrame) (cells : JkCellInfo) (pack : JkPackInfo)
    (cap : ScaledCapacity) : AnalogResponse where
  command := echoedCmdValue req
  userDefinedCount := kUserDefinedUS2000B
  cellVoltagesMv := cells.voltagesMv
  temperaturesK10 :=
    [dCToK10 pack.batteryTemp1DC, dCToK10 pack.batteryTemp2DC, dCToK10 pack.powerTubeTempDC]
  current01a := clampI16 (pack.currentMa / 100)
  moduleVoltageMv := clampU16 (max pack.voltageMv 0).toUInt32
  remainCapacityMah := cap.remainMah
  totalCapacityMah := cap.totalMah
  cycleCount := clampU16 pack.cycleCount

def buildAnalogResponse (req : PylontechFrame) (cells : JkCellInfo) (pack : JkPackInfo) :
    Except Fault (List UInt8) := do
  let cap ← scaleCapacityToU16 pack.totalCapacityMah pack.remainingCapacityMah
  return buildPylontech
    { okResponse req with info := (analogResponse req cells pack cap).serialize }

def alarmResponse (req : PylontechFrame) (cells : JkCellInfo) : AlarmResponse where
  command := echoedCmdValue req
  statusByte1 := kAlarmStatusByte1Normal
  statusByte2 := kAlarmStatusByte2Normal
  statusByte3 := kAlarmStatusByte3Normal
  cellVoltageStates := List.replicate cells.voltagesMv.length 0
  temperatureStates := List.replicate 3 0

def buildAlarmResponse (req : PylontechFrame) (cells : JkCellInfo) : List UInt8 :=
  buildPylontech { okResponse req with info := (alarmResponse req cells).serialize }

def systemParameterResponse (limits : JkSettings) : SystemParameterResponse where
  cellHighVoltageLimitMv := limits.cellOvpMv
  cellLowVoltageLimitMv := limits.cellUvprMv
  cellUnderVoltageLimitMv := limits.cellUvpMv
  chargeHighTempK10 := dCToK10 limits.chargeOtpDC
  chargeLowTempK10 := dCToK10 limits.chargeUtpDC
  chargeCurrentLimit01a := clampI16 (limits.maxChargeCurrentMa / 100).toInt32
  moduleHighVoltageLimitMv := moduleVoltageFromCell limits.cellOvpMv limits.cellCount
  moduleLowVoltageLimitMv := moduleVoltageFromCell limits.cellUvprMv limits.cellCount
  moduleUnderVoltageLimitMv := moduleVoltageFromCell limits.cellUvpMv limits.cellCount
  dischargeHighTempK10 := dCToK10 limits.dischargeOtpDC
  -- JK has no discharge low-temperature protection of its own.
  dischargeLowTempK10 := dCToK10 limits.chargeUtpDC
  dischargeCurrentLimit01a := clampI16 (-(limits.maxDischargeCurrentMa / 100).toInt32)

def buildSystemParamResponse (req : PylontechFrame) (limits : JkSettings) : List UInt8 :=
  buildPylontech { okResponse req with info := (systemParameterResponse limits).serialize }

def chargeManagementResponse (req : PylontechFrame) (pack : JkPackInfo) (limits : JkSettings) :
    ChargeManagementResponse where
  command := echoedCmdValue req
  chargeVoltageLimitMv := moduleVoltageFromCell limits.cellOvpMv limits.cellCount
  dischargeVoltageLimitMv := moduleVoltageFromCell limits.cellUvprMv limits.cellCount
  chargeCurrentLimit01a := clampI16 (limits.maxChargeCurrentMa / 100).toInt32
  dischargeCurrentLimit01a := clampI16 (-(limits.maxDischargeCurrentMa / 100).toInt32)
  chargeEnabled := pack.chargingEnabled
  dischargeEnabled := pack.dischargingEnabled

def buildChgmgmtResponse (req : PylontechFrame) (pack : JkPackInfo) (limits : JkSettings) :
    List UInt8 :=
  buildPylontech { okResponse req with info := (chargeManagementResponse req pack limits).serialize }

end BmsBridge
