import BmsBridge.Jk.Driver
import BmsBridge.Lib.Drain
import BmsBridge.Pylontech.Responders

/-! The master side of the Pylontech protocol: the bridge polls a battery over UART and decodes
what the battery sends. -/

namespace BmsBridge

def kKelvinOffsetDK : Int32 := 2731

/-- Kelvin × 10 to 0.1 °C. -/
def k10ToDC (k10 : UInt16) : Int16 := (k10.toUInt32.toInt32 - kKelvinOffsetDK).toInt16

/-- The loop of `fill_cell_stats`: the running sum, the lowest and the highest voltage, each with
its index. -/
structure CellScan where
  sum : UInt32 := 0
  lo : UInt16
  hi : UInt16
  loIdx : UInt8 := 0
  hiIdx : UInt8 := 0

def CellScan.step (s : CellScan) (v : UInt16) (i : Nat) : CellScan where
  sum := s.sum + v.toUInt32
  lo := if v < s.lo then v else s.lo
  hi := if s.hi < v then v else s.hi
  loIdx := if v < s.lo then UInt8.ofNat i else s.loIdx
  hiIdx := if s.hi < v then UInt8.ofNat i else s.hiIdx

def fillCellStats (c : JkCellInfo) : JkCellInfo :=
  match c.voltagesMv with
  | [] => c
  | first :: _ =>
    let s := c.voltagesMv.zipIdx.foldl (fun (s : CellScan) (v, i) => s.step v i)
      { lo := first, hi := first }
    { c with
      averageVoltageMv := UInt16.ofNat (s.sum.toNat / c.voltagesMv.length)
      voltageDiffMv := s.hi - s.lo
      maxVoltageCellIdx := s.hiIdx
      minVoltageCellIdx := s.loIdx }

structure PylontechMasterProtocol where
  wireAdr : UInt8
  rx : List UInt8 := []
  lastCellCount : UInt8 := 0

namespace PylontechMasterProtocol

def reset (p : PylontechMasterProtocol) : PylontechMasterProtocol := { p with rx := [] }

def pollRequest (p : PylontechMasterProtocol) : List UInt8 := buildAnalogRequest p.wireAdr

def settingsRequest (p : PylontechMasterProtocol) : List UInt8 := buildSystemParamRequest p.wireAdr

/-- The telemetry of an analog response.  Charge and discharge flags stay at their defaults. -/
def telemetryOfAnalog (a : AnalogResponse) : Telemetry where
  cells := fillCellStats { voltagesMv := a.cellVoltagesMv }
  pack := {
    voltageMv := a.moduleVoltageMv.toUInt32.toInt32
    currentMa := a.current01a.toInt32 * 100
    batteryTemp1DC := (a.temperaturesK10[0]?.map k10ToDC).getD 0
    batteryTemp2DC := (a.temperaturesK10[1]?.map k10ToDC).getD 0
    powerTubeTempDC := (a.temperaturesK10[2]?.map k10ToDC).getD 0
    remainingCapacityMah := a.remainCapacityMah.toUInt32
    totalCapacityMah := a.totalCapacityMah.toUInt32
    cycleCount := a.cycleCount.toUInt32
    stateOfChargePct :=
      if a.totalCapacityMah ≠ 0 then
        (min 100 (a.remainCapacityMah.toUInt32 * 100 / a.totalCapacityMah.toUInt32)).toUInt8
      else 0 }

/-- The settings of a system-parameter response, with the cell count of the last telemetry. -/
def settingsOfSystemParam (sp : SystemParameterResponse) (lastCellCount : UInt8) : JkSettings where
  cellOvpMv := sp.cellHighVoltageLimitMv
  cellUvprMv := sp.cellLowVoltageLimitMv
  cellUvpMv := sp.cellUnderVoltageLimitMv
  chargeOtpDC := k10ToDC sp.chargeHighTempK10
  chargeUtpDC := k10ToDC sp.chargeLowTempK10
  dischargeOtpDC := k10ToDC sp.dischargeHighTempK10
  maxChargeCurrentMa := sp.chargeCurrentLimit01a.toInt32.toUInt32 * 100
  maxDischargeCurrentMa :=
    (if sp.dischargeCurrentLimit01a < 0 then -sp.dischargeCurrentLimit01a.toInt32
      else sp.dischargeCurrentLimit01a.toInt32).toUInt32 * 100
  cellCount := lastCellCount

/-- What one decoded frame adds to the report and to `last_cell_count_`. -/
def onFrame (wireAdr : UInt8) : Parsed × UInt8 → PylontechFrame → Parsed × UInt8 :=
  fun (out, lastCellCount) f =>
    if f.adr ≠ wireAdr then (out, lastCellCount)
    else if f.cid2 = 0x42 then
      match AnalogResponse.deserialize f.info with
      | (false, _) => (out, lastCellCount)
      | (true, a) =>
        ({ out with telemetry := some (telemetryOfAnalog a) },
          UInt8.ofNat a.cellVoltagesMv.length)
    else if f.cid2 = 0x47 then
      match SystemParameterResponse.deserialize f.info with
      | (false, _) => (out, lastCellCount)
      | (true, sp) =>
        ({ out with settings := some (settingsOfSystemParam sp lastCellCount) }, lastCellCount)
    else (out, lastCellCount)

def feed (p : PylontechMasterProtocol) (data : List UInt8) : Parsed × PylontechMasterProtocol :=
  let ((out, lastCellCount), rx) := Drain.drain (tryParsePylontech ·) (onFrame p.wireAdr)
    ({}, p.lastCellCount) (p.rx ++ data)
  (out, { p with rx, lastCellCount })

end PylontechMasterProtocol

end BmsBridge
