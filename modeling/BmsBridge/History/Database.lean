import BmsBridge.Jk.Protocol
import BmsBridge.Lib.Table
import Mathlib.Data.List.Sort
import Mathlib.Data.Rat.Defs

/-! The tables of the history, and the conversions between telemetry and rows.  Time points count
nanoseconds from 1970. -/

namespace BmsBridge

structure SampleRow where
  batteryId : Int
  tsMs : Int
  voltageMv : Int
  currentMa : Int
  socPct : Int
  remainingMah : Int
  totalMah : Int
  cycleCount : Int
  temp1Dc : Int
  temp2Dc : Int
  mosTempDc : Int
  flags : Int
  errorsBitmask : Int
  avgCellMv : Int
  diffCellMv : Int
  maxCellIdx : Int
  minCellIdx : Int
  balanceCurrentMa : Int
  deriving DecidableEq, Repr

structure CellRow where
  sampleId : Int
  cellIdx : Int
  voltageMv : Int
  resistanceUohm : Int
  deriving DecidableEq, Repr

structure DailyRow where
  batteryId : Int
  /-- `YYYY-MM-DD`, in UTC. -/
  date : String
  chargedWh : Rat
  dischargedWh : Rat
  deriving DecidableEq, Repr

structure Database where
  /-- The batteries by name. -/
  batteries : Table String := ∅
  samples : Table SampleRow := ∅
  dailyEnergy : Table DailyRow := ∅
  sampleCells : List CellRow := []

structure TelemetrySample where
  batteryId : String
  ts : Int
  cells : JkCellInfo
  pack : JkPackInfo
  deriving DecidableEq, Repr

def toMs (ts : Int) : Int := ts.tdiv 1000000

def ofMs (tsMs : Int) : Int := tsMs * 1000000

def packFlags (p : JkPackInfo) : UInt32 :=
  (if p.chargingEnabled then 0x1 else 0) ||| (if p.dischargingEnabled then 0x2 else 0) |||
    (if p.balancerEnabled then 0x4 else 0)

def SampleRow.ofSample (batteryId tsMs : Int) (cells : JkCellInfo) (pack : JkPackInfo) :
    SampleRow where
  batteryId
  tsMs
  voltageMv := pack.voltageMv.toInt
  currentMa := pack.currentMa.toInt
  socPct := pack.stateOfChargePct.toNat
  remainingMah := pack.remainingCapacityMah.toNat
  totalMah := pack.totalCapacityMah.toNat
  cycleCount := pack.cycleCount.toNat
  temp1Dc := pack.batteryTemp1DC.toInt
  temp2Dc := pack.batteryTemp2DC.toInt
  mosTempDc := pack.powerTubeTempDC.toInt
  flags := (packFlags pack).toInt32.toInt
  errorsBitmask := pack.errorsBitmask.toNat
  avgCellMv := cells.averageVoltageMv.toNat
  diffCellMv := cells.voltageDiffMv.toNat
  maxCellIdx := cells.maxVoltageCellIdx.toNat
  minCellIdx := cells.minVoltageCellIdx.toNat
  balanceCurrentMa := pack.balanceCurrentMa.toInt

/-- `sqlite3_column_int`: the lower 32 bits of an integer. -/
def columnInt (value : Int) : Int32 := Int32.ofInt value

def SampleRow.pack (s : SampleRow) : JkPackInfo :=
  let flags := (columnInt s.flags).toUInt32
  { voltageMv := Int32.ofInt s.voltageMv
    currentMa := Int32.ofInt s.currentMa
    stateOfChargePct := (columnInt s.socPct).toUInt32.toUInt8
    remainingCapacityMah := UInt32.ofInt s.remainingMah
    totalCapacityMah := UInt32.ofInt s.totalMah
    cycleCount := UInt32.ofInt s.cycleCount
    batteryTemp1DC := (columnInt s.temp1Dc).toInt16
    batteryTemp2DC := (columnInt s.temp2Dc).toInt16
    powerTubeTempDC := (columnInt s.mosTempDc).toInt16
    chargingEnabled := flags &&& 0x1 ≠ 0
    dischargingEnabled := flags &&& 0x2 ≠ 0
    balancerEnabled := flags &&& 0x4 ≠ 0
    balanceCurrentMa := (columnInt s.balanceCurrentMa).toInt16
    errorsBitmask := (columnInt s.errorsBitmask).toUInt32.toUInt16 }

/-- The cells come in the order of their indices. -/
def SampleRow.cells (s : SampleRow) (cells : List CellRow) : JkCellInfo where
  voltagesMv := cells.map fun c => (columnInt c.voltageMv).toUInt32.toUInt16
  resistanceUohm := cells.map fun c => (columnInt c.resistanceUohm).toUInt32.toUInt16
  averageVoltageMv := (columnInt s.avgCellMv).toUInt32.toUInt16
  voltageDiffMv := (columnInt s.diffCellMv).toUInt32.toUInt16
  maxVoltageCellIdx := (columnInt s.maxCellIdx).toUInt32.toUInt8
  minVoltageCellIdx := (columnInt s.minCellIdx).toUInt32.toUInt8

/-- The rows that `append` inserts for the cells of a sample. -/
def cellRows (sampleId : Int) (cells : JkCellInfo) : List CellRow :=
  cells.voltagesMv.mapIdx fun k voltage => {
    sampleId
    cellIdx := k
    voltageMv := voltage.toNat
    resistanceUohm := (cells.resistanceUohm.getD k 0).toNat }

namespace Database

/-- The cells of a sample, `ORDER BY cell_idx`; no two of them have one index. -/
def cellsOf (db : Database) (sampleId : Int) : List CellRow :=
  (db.sampleCells.filter fun c => c.sampleId = sampleId).insertionSort fun a b => a.cellIdx ≤ b.cellIdx

def telemetrySample (db : Database) (name : String) (row : Int × SampleRow) : TelemetrySample where
  batteryId := name
  ts := ofMs row.2.tsMs
  cells := row.2.cells (db.cellsOf row.1)
  pack := row.2.pack

/-- `DELETE FROM samples`, which takes the cells along. -/
def deleteSamples (db : Database) (p : SampleRow → Bool) : Database :=
  { db with
    samples := db.samples.keep fun row => !p row.2
    sampleCells := db.sampleCells.filter fun c =>
      !db.samples.rows.any fun row => row.1 = c.sampleId && p row.2 }

end Database

end BmsBridge
