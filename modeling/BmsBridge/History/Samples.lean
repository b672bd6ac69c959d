import BmsBridge.History.Database
import BmsBridge.Lib.OrderBy

/-! `History`: appending telemetry, and the range queries.  A call of SQLite that fails is left to a
parameter; a failed transaction is rolled back.  The connections are open, and the battery ids, which
count batteries, stay in the range of an `int`. -/

namespace BmsBridge

/-- The calls of `append` that can fail. -/
inductive AppendCall where
  | selectBattery
  | insertBattery
  | begin
  | insertSample
  | insertCell (k : Nat)
  | commit
  deriving DecidableEq, Repr

structure History where
  db : Database := {}
  batteryIdCache : List (String × Int) := []
  /-- The samples of the last while, oldest first. -/
  ram : List TelemetrySample := []
  ramWindow : Int := 0

/-- The row id of a battery, or -1. -/
def Database.findBattery (db : Database) (fails : AppendCall → Bool) (name : String) (create : Bool) :
    Int × Database :=
  let row := db.batteries.rows.find? fun row => row.2 = name
  let id := if fails .selectBattery then -1 else (row.map Prod.fst).getD (-1)
  if id < 0 ∧ create then
    -- The name is unique in its table.
    if fails .insertBattery ∨ row.isSome then (id, db)
    else (db.batteries.seq + 1, { db with batteries := db.batteries.insert name })
  else (id, db)

namespace History

def batteryRowId (h : History) (fails : AppendCall → Bool) (name : String) (create : Bool) :
    Int × History :=
  match h.batteryIdCache.lookup name with
  | some id => (id, h)
  | none =>
    let (id, db) := h.db.findBattery fails name create
    let h := { h with db }
    (id, if 0 ≤ id then { h with batteryIdCache := (name, id) :: h.batteryIdCache } else h)

/-- Keep a sample in RAM, and drop those that have become too old. -/
def remember (h : History) (now : Int) (s : TelemetrySample) : History :=
  { h with ram := (h.ram ++ [s]).dropWhile fun s => s.ts < now - h.ramWindow }

def insertSample (h : History) (fails : AppendCall → Bool) (batId tsMs : Int) (cells : JkCellInfo)
    (pack : JkPackInfo) : History :=
  if fails .begin then h
  else if fails .insertSample then h
  else
    let sampleId := h.db.samples.seq + 1
    if (List.range cells.voltagesMv.length).any fun k => fails (.insertCell k) then h
    else if fails .commit then h
    else { h with db := { h.db with
      samples := h.db.samples.insert (.ofSample batId tsMs cells pack)
      sampleCells := h.db.sampleCells ++ cellRows sampleId cells } }

/-- `now` is the clock when the RAM is looked through. -/
def append (h : History) (fails : AppendCall → Bool) (batteryId : String) (ts now : Int)
    (cells : JkCellInfo) (pack : JkPackInfo) : History :=
  let h := h.remember now { batteryId, ts, cells, pack }
  let (batId, h) := h.batteryRowId fails batteryId true
  if batId < 0 then h else h.insertSample fails batId (toMs ts) cells pack

def recent (h : History) (batteryId : String) : List TelemetrySample :=
  h.ram.filter fun s => s.batteryId = batteryId

def batteryName (h : History) (batteryId : Int) : String :=
  ((h.batteryIdCache.find? fun entry => entry.2 = batteryId).map Prod.fst).getD ""

/-- The rows of the plain query, or of the decimated one with the newest row of each bucket. -/
def selectSamples (h : History) (sql : OrderBy (Int × SampleRow)) (batId fromMs toMs lim stepMs : Int) :
    List (Int × SampleRow) :=
  let rows := h.db.samples.rows.filter fun row =>
    row.2.batteryId = batId ∧ fromMs ≤ row.2.tsMs ∧ row.2.tsMs < toMs
  let rows :=
    if 0 < stepMs then
      sql.firsts (fun row => (row.2.tsMs - fromMs).tdiv stepMs) (fun row => -row.2.tsMs) rows
    else rows
  OrderBy.limit (if 0 < lim then lim else -1) (sql.sort (fun row => -row.2.tsMs) rows)

def rangeCore (h : History) (sql : OrderBy (Int × SampleRow)) (batId : Int) (nameForResult : String)
    (start stop lim stepMs : Int) : List TelemetrySample :=
  (h.selectSamples sql batId (toMs start) (toMs stop) lim stepMs).map
    (h.db.telemetrySample nameForResult)

def range (h : History) (sql : OrderBy (Int × SampleRow)) (batteryId : String)
    (start stop lim stepMs : Int) : List TelemetrySample × History :=
  let (batId, h) := h.batteryRowId (fun _ => false) batteryId false
  if batId < 0 then ([], h) else (h.rangeCore sql batId batteryId start stop lim stepMs, h)

def rangeById (h : History) (sql : OrderBy (Int × SampleRow)) (batteryId start stop lim stepMs : Int) :
    List TelemetrySample :=
  if batteryId ≤ 0 then []
  else h.rangeCore sql batteryId (h.batteryName batteryId) start stop lim stepMs

end History

end BmsBridge
