import BmsBridge.History.Samples
import BmsBridge.Lib.Calendar
import Mathlib.Data.List.Dedup
import Mathlib.Data.Rat.Cast.Defs

/-! `History::aggregate_pending`: the days that have no daily row yet, their energy, and the purge of
old samples.  Doubles are rationals here. -/

namespace BmsBridge

open Calendar

/-- SQLite's `date(seconds, 'unixepoch')`, which is NULL outside of the years 0000 to 9999. -/
def sqliteDate (seconds : Int) : Option String :=
  if -62167219200 ≤ seconds ∧ seconds ≤ 253402300799 then some (ofDays (seconds / 86400)).text
  else none

/-- A day of a battery that is to be aggregated. -/
abbrev PendingDay := Int × String

/-- The calls of `aggregate_pending` that can fail.  Those in the loop belong to a day.  A query that
has been prepared gives all of its rows: the step that fails in the middle of them is not a call. -/
inductive AggregateCall where
  | prepareFind
  | prepareSamples (day : PendingDay)
  | begin (day : PendingDay)
  | prepareInsert (day : PendingDay)
  | insert (day : PendingDay)
  | commit (day : PendingDay)
  | prepareDelete
  | delete
  deriving DecidableEq, Repr

/-- The loop over a day's samples: the sample before, and the sums. -/
structure Integration where
  prev : Option (Int × Rat) := none
  charged : Rat := 0
  discharged : Rat := 0
  deriving DecidableEq, Repr

/-- The energy between two samples, in Wh. -/
def segmentWh (prev sample : Int × Rat) : Rat :=
  (prev.2 + sample.2) / 2 * ((sample.1 - prev.1) / 3600000)

def Integration.add (e : Integration) (sample : Int × Rat) : Integration :=
  match e.prev with
  | none => { e with prev := some sample }
  | some prev =>
    let dwh := segmentWh prev sample
    if 0 < dwh then { e with prev := some sample, charged := e.charged + dwh }
    else { e with prev := some sample, discharged := e.discharged - dwh }

/-- Time stamp and power, in W. -/
def SampleRow.power (s : SampleRow) : Int × Rat :=
  (s.tsMs, (columnInt s.voltageMv).toInt * (columnInt s.currentMa).toInt / 1000000)

/-- Midnight of the current day in UTC: `gmtime_r`, the time of day cleared, and `timegm`. -/
def todayMs (now : Int) : Int := toDays (ofDays (now.tdiv 1000000000 / 86400)) * 86400 * 1000

def purgeMs (now : Int) : Int := todayMs now - 8 * 86400000

namespace History

/-- A row's day, unless it is not over yet or has its daily row already. -/
def pendingDay (h : History) (today : Int) (s : SampleRow) : Option PendingDay :=
  if s.tsMs < today then
    (sqliteDate (s.tsMs.tdiv 1000)).bind fun date =>
      if h.db.dailyEnergy.rows.any fun row => row.2.batteryId = s.batteryId ∧ row.2.date = date then
        none
      else some (s.batteryId, date)
  else none

def findPending (h : History) (today : Int) : List PendingDay :=
  (h.db.samples.rows.filterMap fun row => h.pendingDay today row.2).dedup.insertionSort fun a b =>
    a.1 < b.1 ∨ (a.1 = b.1 ∧ a.2 ≤ b.2)

def dayStart (date : String) : Int := toDays (Date.ofText date) * 86400 * 1000

/-- The energy of a day, from its samples in the order of their time stamps. -/
def integrate (h : History) (sql : OrderBy (Int × SampleRow)) (day : PendingDay) : Integration :=
  let rows := h.db.samples.rows.filter fun row =>
    row.2.batteryId = day.1 ∧ dayStart day.2 ≤ row.2.tsMs ∧ row.2.tsMs < dayStart day.2 + 86400000
  (sql.sort (fun row => row.2.tsMs) rows).foldl (fun e row => e.add row.2.power) {}

/-- `INSERT OR REPLACE` of a daily row. -/
def insertDaily (h : History) (day : PendingDay) (e : Integration) : History :=
  { h with db := { h.db with
    dailyEnergy :=
      (h.db.dailyEnergy.keep fun row => !(row.2.batteryId = day.1 ∧ row.2.date = day.2)).insert {
        batteryId := day.1
        date := day.2
        chargedWh := e.charged
        dischargedWh := e.discharged } } }

/-- One round of the loop.  A call that fails leaves the day to a later time. -/
def aggregateDay (sql : OrderBy (Int × SampleRow)) (fails : AggregateCall → Bool) (h : History)
    (day : PendingDay) : History :=
  if fails (.prepareSamples day) then h
  else
    let e := h.integrate sql day
    if fails (.begin day) then h
    else if fails (.prepareInsert day) ∨ fails (.insert day) ∨ fails (.commit day) then h
    else h.insertDaily day e

def purge (h : History) (fails : AggregateCall → Bool) (before : Int) : History :=
  if fails .prepareDelete ∨ fails .delete then h
  else { h with db := h.db.deleteSamples fun s => s.tsMs < before }

def aggregatePending (h : History) (sql : OrderBy (Int × SampleRow)) (fails : AggregateCall → Bool)
    (now : Int) : History :=
  if fails .prepareFind then h
  else
    let pending := h.findPending (todayMs now)
    if pending = [] then h
    else (pending.foldl (aggregateDay sql fails) h).purge fails (purgeMs now)

end History

end BmsBridge
