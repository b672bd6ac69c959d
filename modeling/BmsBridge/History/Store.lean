import BmsBridge.History.Samples
import BmsBridge.Lib.Paging
import Mathlib.Data.Finset.Insert

/-! What the history is for: a list of samples that appends make longer, one sample or none at a time,
and that the range queries read. -/

namespace BmsBridge

/-- A call of `append`, with the calls of SQLite that fail in it. -/
structure AppendArgs where
  fails : AppendCall → Bool
  batteryId : String
  ts : Int
  now : Int
  cells : JkCellInfo
  pack : JkPackInfo

def AppendArgs.sample (a : AppendArgs) : TelemetrySample where
  batteryId := a.batteryId
  ts := a.ts
  cells := a.cells
  pack := a.pack

def History.appendCall (h : History) (a : AppendArgs) : History :=
  h.append a.fails a.batteryId a.ts a.now a.cells a.pack

/-- Whether a transaction for a sample of `n` cells is rolled back. -/
def aborts (fails : AppendCall → Bool) (n : Nat) : Bool :=
  fails .begin || fails .insertSample || (List.range n).any (fun k => fails (.insertCell k)) ||
    fails .commit

namespace TelemetrySample

def tsMs (x : TelemetrySample) : Int := toMs x.ts

/-- What is read back of a sample: its time in whole milliseconds, and a resistance for each
voltage. -/
def stored (x : TelemetrySample) : TelemetrySample :=
  { x with
    ts := ofMs x.tsMs
    cells := { x.cells with
      resistanceUohm := x.cells.resistanceUohm.takeD x.cells.voltagesMv.length 0 } }

end TelemetrySample

structure Store where
  /-- The batteries that have been resolved. -/
  known : Finset String := ∅
  /-- The samples of the committed appends, in the order of these. -/
  samples : List TelemetrySample := []

namespace Store

def append (s : Store) (a : AppendArgs) : Store :=
  if a.batteryId ∉ s.known ∧ a.fails .insertBattery then s
  else {
    known := insert a.batteryId s.known
    samples :=
      if aborts a.fails a.cells.voltagesMv.length then s.samples else s.samples ++ [a.sample] }

def samplesOf (s : Store) (name : String) : List TelemetrySample :=
  s.samples.filter fun x => x.batteryId = name

/-- The samples of a battery between two milliseconds, or the newest one of each `stepMs`, newest
first. -/
def range (s : Store) (name : String) (fromMs stopMs lim stepMs : Int) : List TelemetrySample :=
  let found := Paging.window TelemetrySample.tsMs fromMs stopMs (s.samplesOf name)
  let chosen :=
    if 0 < stepMs then
      Paging.newest TelemetrySample.tsMs (fun x => (x.tsMs - fromMs) / stepMs) found
    else found
  let sorted := chosen.insertionSort fun a b => b.tsMs ≤ a.tsMs
  (if 0 < lim then sorted.take lim.toNat else sorted).map TelemetrySample.stored

end Store

end BmsBridge
