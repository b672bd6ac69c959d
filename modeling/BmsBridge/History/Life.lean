import BmsBridge.History.Aggregation
import BmsBridge.History.Store

/-! What the program does with its history in the course of time: `History::ensure_battery_id` and
`History::battery_list`, and the database opened again after the process has ended at any moment. -/

namespace BmsBridge

structure BatteryRef where
  id : Int
  name : String
  deriving DecidableEq, Repr

namespace History

variable (h : History)

def ensureBatteryId (fails : AppendCall → Bool) (name : String) : Int × History :=
  h.batteryRowId fails name true

/-- `load_battery_cache`, of which `count` rows come through before a call of SQLite fails. -/
def loadBatteryCache (count : Nat) : History :=
  { h with batteryIdCache :=
    ((h.db.batteries.rows.take count).map fun row => (row.2, row.1)) ++ h.batteryIdCache }

/-- The constructor on what an earlier process has left.  SQLite has rolled back what was not
committed. -/
def reopen (count : Nat) (ramWindow : Int) : History :=
  ({ db := h.db, ramWindow } : History).loadBatteryCache count

def batteryList : List BatteryRef :=
  (h.batteryIdCache.map fun entry => ({ id := entry.2, name := entry.1 } : BatteryRef)).insertionSort
    fun a b => a.id ≤ b.id

/-- The calls of the history, over the lives of any number of processes. -/
inductive Call where
  | append (args : AppendArgs)
  | ensureBatteryId (fails : AppendCall → Bool) (name : String)
  /-- The lookup with which `range` begins. -/
  | lookUp (fails : AppendCall → Bool) (name : String)
  | aggregatePending (fails : AggregateCall → Bool) (now : Int)
  | reopen (count : Nat) (ramWindow : Int)

def call (sql : OrderBy (Int × SampleRow)) : Call → History
  | .append args => h.appendCall args
  | .ensureBatteryId fails name => (h.ensureBatteryId fails name).2
  | .lookUp fails name => (h.batteryRowId fails name false).2
  | .aggregatePending fails now => h.aggregatePending sql fails now
  | .reopen count ramWindow => h.reopen count ramWindow

def calls (sql : OrderBy (Int × SampleRow)) (cs : List Call) : History :=
  cs.foldl (fun h c => h.call sql c) h

end History

end BmsBridge
