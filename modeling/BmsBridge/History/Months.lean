import BmsBridge.History.Aggregation
import BmsBridge.Lib.Decimal
import Mathlib.Data.String.Basic

/-! `History::get_daily_energy`: the daily rows of a month, which are found by comparing texts. -/

namespace BmsBridge

open Decimal

structure DailyEnergy where
  batteryId : Int
  batteryName : String
  date : String
  chargedWh : Rat
  dischargedWh : Rat
  deriving DecidableEq, Repr

/-- `n + 1` of an `int`, which the largest one does not have. -/
def nextInt (n : Int) : Option Int := if n < 2147483647 then some (n + 1) else none

/-- `%04d-%02d-01`, as far as a buffer of 11 bytes holds it. -/
def firstOfMonth (year month : Int) : String :=
  String.ofList ((printed 4 year ++ '-' :: (printed 2 month ++ ['-', '0', '1'])).take 10)

/-- The year and the month that come next. -/
def nextMonth (year month : Int) : Option (Int × Int) :=
  (nextInt month).bind fun nm =>
    if 12 < nm then (nextInt year).map fun ny => (ny, 1) else some (year, nm)

namespace History

def dailyEnergy (h : History) (row : DailyRow) : DailyEnergy where
  batteryId := row.batteryId
  batteryName := h.batteryName row.batteryId
  date := row.date
  chargedWh := row.chargedWh
  dischargedWh := row.dischargedWh

/-- A battery has one row for a date. -/
def getDailyEnergy (h : History) (batteryId year month : Int) : Option (List DailyEnergy) :=
  let monthStart := firstOfMonth year month
  (nextMonth year month).map fun next =>
    let monthEnd := firstOfMonth next.1 next.2
    let rows := (h.db.dailyEnergy.rows.map Prod.snd).filter fun row =>
      row.batteryId = batteryId ∧ monthStart ≤ row.date ∧ row.date < monthEnd
    (rows.insertionSort fun a b => a.date ≤ b.date).map h.dailyEnergy

end History

end BmsBridge
