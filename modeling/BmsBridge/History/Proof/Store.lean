import BmsBridge.History.Proof.Range
import BmsBridge.History.Proof.Rows

/-! The tables hold the list of the samples that were appended, and the range queries read that
list, whatever calls of SQLite have failed. -/

namespace BmsBridge

open Paging

namespace History

/-- A row, with its cells, is that of a sample. -/
def Holds (h : History) (row : Int × SampleRow) (x : TelemetrySample) : Prop :=
  ∃ id, h.batteryIdCache.lookup x.batteryId = some id ∧
    row.2 = .ofSample id x.tsMs x.cells x.pack ∧ h.db.cellsOf row.1 = cellRows row.1 x.cells

/-- The history holds what a store does. -/
structure Refines (h : History) (s : Store) : Prop where
  registered : h.Registered
  positive : ∀ name id, h.batteryIdCache.lookup name = some id → 0 < id
  entries : ∀ entry ∈ h.batteryIdCache, h.batteryIdCache.lookup entry.1 = some entry.2
  known : ∀ name, name ∈ s.known ↔ h.batteryIdCache.lookup name ≠ none
  cells : ∀ c ∈ h.db.sampleCells, c.sampleId ≤ h.db.samples.seq
  samples : List.Forall₂ h.Holds h.db.samples.rows s.samples

variable {h : History} {s : Store} {name : String}

theorem refines_empty (ramWindow : Int) : Refines { ramWindow } {} where
  registered := registered_initial ramWindow
  positive := by simp
  entries := by simp
  known := by simp
  cells := by simp
  samples := .nil

/-! ### Appends -/

theorem Refines.remember (hRefines : h.Refines s) (now : Int) (x : TelemetrySample) :
    (h.remember now x).Refines s where
  registered := hRefines.registered.congr rfl rfl
  positive := hRefines.positive
  entries := hRefines.entries
  known := hRefines.known
  cells := hRefines.cells
  samples := hRefines.samples

theorem Refines.withBattery (hRefines : h.Refines s) (hNew : h.batteryIdCache.lookup name = none) :
    (h.withBattery name).Refines { s with known := insert name s.known } := by
  have hResolved := hRefines.registered.insert hNew
  have hSeq := hRefines.registered.seq
  constructor
  · exact hResolved.registered
  · intro name' id hId
    rw [lookup_withBattery] at hId
    split at hId
    · cases hId
      omega
    · exact hRefines.positive name' id hId
  · intro entry hEntry
    rcases List.mem_cons.mp hEntry with rfl | hEntry
    · exact hResolved.self
    · exact hResolved.keeps (hRefines.entries entry hEntry)
  · intro name'
    rw [lookup_withBattery, Finset.mem_insert, hRefines.known]
    split <;> simp_all
  · exact hRefines.cells
  · exact hRefines.samples.imp fun row x ⟨id, hLookup, hRow⟩ => ⟨id, hResolved.keeps hLookup, hRow⟩

/-- The cells of a new sample are its own ones only. -/
theorem Refines.cellsOf_new (hRefines : h.Refines s) (batId tsMs : Int) (cells : JkCellInfo)
    (pack : JkPackInfo) :
    (h.withSample batId tsMs cells pack).db.cellsOf (h.db.samples.seq + 1) =
      cellRows (h.db.samples.seq + 1) cells := by
  have hOld : h.db.sampleCells.filter (fun c => c.sampleId = h.db.samples.seq + 1) = [] := by
    rw [List.filter_eq_nil_iff]
    intro c hc
    have hBound := hRefines.cells c hc
    rw [decide_eq_true_eq]
    omega
  have hOwn : (cellRows (h.db.samples.seq + 1) cells).filter
      (fun c => c.sampleId = h.db.samples.seq + 1) = cellRows (h.db.samples.seq + 1) cells := by
    rw [List.filter_eq_self]
    exact fun c hc => decide_eq_true (mem_cellRows hc)
  rw [withSample, Database.cellsOf, List.filter_append, hOld, hOwn, List.nil_append]
  exact (cellRows_ascending _ cells).insertionSort_eq

theorem Refines.withSample (hRefines : h.Refines s) (x : TelemetrySample) {id : Int}
    (hLookup : h.batteryIdCache.lookup x.batteryId = some id) :
    (h.withSample id x.tsMs x.cells x.pack).Refines { s with samples := s.samples ++ [x] } where
  registered := hRefines.registered.congr rfl rfl
  positive := hRefines.positive
  entries := hRefines.entries
  known := hRefines.known
  cells := by
    intro c hc
    have hNext : (h.withSample id x.tsMs x.cells x.pack).db.samples.seq = h.db.samples.seq + 1 := rfl
    rcases List.mem_append.mp hc with hc | hc
    · have hBound := hRefines.cells c hc
      omega
    · have hSample := mem_cellRows hc
      omega
  samples := by
    have hOld := Paired.with_mem hRefines.samples
    refine List.rel_append (hOld.imp ?_) (.cons ?_ .nil)
    · rintro row y ⟨⟨id', hLookup', hRow, hCells⟩, hMem, -⟩
      refine ⟨id', hLookup', hRow, ?_⟩
      rw [h.withSample_cellsOf id x.tsMs x.cells x.pack hMem, hCells]
    · exact ⟨id, hLookup, rfl, hRefines.cellsOf_new id x.tsMs x.cells x.pack⟩

/-- A sample of a battery whose id is resolved. -/
theorem Refines.insertSample (hRefines : h.Refines s) (a : AppendArgs) {id : Int}
    (hLookup : h.batteryIdCache.lookup a.batteryId = some id) :
    (h.insertSample a.fails id (toMs a.ts) a.cells a.pack).Refines { s with
      samples :=
        if aborts a.fails a.cells.voltagesMv.length then s.samples else s.samples ++ [a.sample] } := by
  rw [insertSample_eq]
  split
  · exact hRefines
  · exact hRefines.withSample a.sample hLookup

theorem appendCall_eq (h : History) (a : AppendArgs) : h.appendCall a =
    if ((h.remember a.now a.sample).batteryRowId a.fails a.batteryId true).1 < 0 then
      ((h.remember a.now a.sample).batteryRowId a.fails a.batteryId true).2
    else
      ((h.remember a.now a.sample).batteryRowId a.fails a.batteryId true).2.insertSample a.fails
        ((h.remember a.now a.sample).batteryRowId a.fails a.batteryId true).1 (toMs a.ts) a.cells
        a.pack := rfl

theorem Refines.step (hRefines : h.Refines s) (a : AppendArgs) :
    (h.appendCall a).Refines (s.append a) := by
  have hRemembered := hRefines.remember a.now a.sample
  rw [appendCall_eq, Store.append]
  generalize h.remember a.now a.sample = h' at hRemembered ⊢
  cases hLookup : h'.batteryIdCache.lookup a.batteryId with
  | some id =>
    have hKnown : a.batteryId ∈ s.known := by
      rw [hRemembered.known, hLookup]
      simp
    have hPositive := hRemembered.positive a.batteryId id hLookup
    rw [batteryRowId_known _ _ hLookup, if_neg (by omega), if_neg fun h => h.1 hKnown,
      Finset.insert_eq_of_mem hKnown]
    exact hRemembered.insertSample a hLookup
  | none =>
    have hUnknown : a.batteryId ∉ s.known := by
      rw [hRemembered.known, hLookup]
      simp
    rw [batteryRowId_new _ _ hRemembered.registered hLookup]
    cases hFails : a.fails .insertBattery with
    | true =>
      rw [if_pos (Eq.refl true), if_pos (by simp), if_pos ⟨hUnknown, rfl⟩]
      exact hRemembered
    | false =>
      have hSeq := hRemembered.registered.seq
      rw [if_neg Bool.false_ne_true, if_neg (by omega), if_neg fun h => Bool.false_ne_true h.2]
      exact (hRemembered.withBattery hLookup).insertSample a
        (hRemembered.registered.insert hLookup).self

theorem Refines.run (hRefines : h.Refines s) (calls : List AppendArgs) :
    (calls.foldl appendCall h).Refines (calls.foldl Store.append s) := by
  induction calls generalizing h s with
  | nil => exact hRefines
  | cons a calls ih => exact ih (hRefines.step a)

/-! ### Reading -/

theorem Holds.telemetrySample {row : Int × SampleRow} {x : TelemetrySample} (hHolds : h.Holds row x) :
    h.db.telemetrySample x.batteryId row = x.stored := by
  obtain ⟨id, -, hRow, hCells⟩ := hHolds
  unfold Database.telemetrySample TelemetrySample.stored
  rw [hRow, hCells, pack_ofSample, cells_ofSample]
  rfl

theorem Holds.tsMs {row : Int × SampleRow} {x : TelemetrySample} (hHolds : h.Holds row x) :
    row.2.tsMs = x.tsMs := by
  obtain ⟨id, -, hRow, -⟩ := hHolds
  rw [hRow]
  rfl

theorem tsMs_stored (x : TelemetrySample) : x.stored.tsMs = x.tsMs := toMs_ofMs _

/-- The rows of a battery are those of its samples. -/
theorem Refines.samplesOf (hRefines : h.Refines s) {id : Int}
    (hLookup : h.batteryIdCache.lookup name = some id) :
    List.Forall₂ h.Holds (h.samplesOf id) (s.samplesOf name) := by
  refine List.rel_filter (fun row x ⟨id', hLookup', hRow, hCells⟩ => ?_) hRefines.samples
  have hId : row.2.batteryId = id' := by
    rw [hRow]
    rfl
  simp only [decide_eq_true_eq, hId]
  constructor
  · rintro rfl
    exact hRefines.registered.distinct _ _ _ hLookup' hLookup
  · intro hName
    rw [hName, hLookup] at hLookup'
    exact (Option.some.inj hLookup').symm

theorem Refines.samplesOf_unknown (hRefines : h.Refines s)
    (hLookup : h.batteryIdCache.lookup name = none) : s.samplesOf name = [] := by
  rw [Store.samplesOf, List.filter_eq_nil_iff]
  intro x hx hName
  obtain ⟨row, -, id, hFound, -⟩ := Paired.exists_left hRefines.samples hx
  rw [of_decide_eq_true hName, hLookup] at hFound
  cases hFound

/-- The id of a battery leads back to its name. -/
theorem Refines.batteryName (hRefines : h.Refines s) {id : Int}
    (hLookup : h.batteryIdCache.lookup name = some id) : h.batteryName id = name := by
  obtain ⟨front, back, hCache, -⟩ := List.lookup_eq_some_iff.mp hLookup
  have hEntry : (name, id) ∈ h.batteryIdCache := by
    rw [hCache]
    exact List.mem_append_right _ List.mem_cons_self
  rw [History.batteryName]
  cases hFind : h.batteryIdCache.find? fun entry => entry.2 = id with
  | none => exact absurd (decide_eq_true rfl) (List.find?_eq_none.mp hFind _ hEntry)
  | some entry =>
    have hId := List.find?_some hFind
    have hFound := hRefines.entries entry (List.mem_of_find?_eq_some hFind)
    rw [of_decide_eq_true hId] at hFound
    exact hRefines.registered.distinct _ _ _ hFound hLookup

/-- The samples of each battery differ in their milliseconds. -/
def DistinctMs (samples : List TelemetrySample) : Prop :=
  samples.Pairwise fun a b => a.batteryId = b.batteryId → a.tsMs ≠ b.tsMs

theorem DistinctMs.samplesOf (hDistinct : DistinctMs s.samples) (name : String) :
    (s.samplesOf name).Pairwise fun a b => a.tsMs ≠ b.tsMs := by
  refine (List.Pairwise.filter _ hDistinct).imp_of_mem fun {a b} ha hb h => h ?_
  exact (of_decide_eq_true (List.mem_filter.mp ha).2).trans
    (of_decide_eq_true (List.mem_filter.mp hb).2).symm

/-- Newest first, the rows of samples of a battery and these samples are in one order. -/
theorem sort_related (sql : OrderBy (Int × SampleRow)) {rows : List (Int × SampleRow)}
    {samples : List TelemetrySample}
    (hRows : List.Forall₂ (fun row x => h.Holds row x ∧ x.batteryId = name) rows samples)
    (hDistinct : samples.Pairwise fun a b => a.tsMs ≠ b.tsMs) :
    (sql.sort (fun row => -row.2.tsMs) rows).map (h.db.telemetrySample name) =
      (samples.insertionSort fun a b => b.tsMs ≤ a.tsMs).map TelemetrySample.stored := by
  have hRead : rows.map (h.db.telemetrySample name) = samples.map TelemetrySample.stored := by
    refine Paired.map_eq hRows fun row x ⟨hHolds, hName⟩ => ?_
    rw [← hName]
    exact hHolds.telemetrySample
  have hTotal : Std.Total fun a b : TelemetrySample => b.tsMs ≤ a.tsMs :=
    ⟨fun a b => Int.le_total b.tsMs a.tsMs⟩
  have hTrans : IsTrans TelemetrySample fun a b => b.tsMs ≤ a.tsMs :=
    ⟨fun a b c hab hbc => Int.le_trans hbc hab⟩
  have hPerm := samples.perm_insertionSort fun a b => b.tsMs ≤ a.tsMs
  have hNe := (hPerm.pairwise_iff fun h => h.symm).mpr hDistinct
  have hKey : ∀ row ∈ rows, -(h.db.telemetrySample name row).tsMs = -row.2.tsMs :=
    fun row _ => congrArg _ (toMs_ofMs row.2.tsMs)
  refine sql.map_sort_eq (fun x => -x.tsMs) hKey (by rw [hRead]; exact hPerm.map _) ?_
  rw [List.pairwise_map]
  refine ((samples.pairwise_insertionSort fun a b => b.tsMs ≤ a.tsMs).and hNe).imp ?_
  intro a b hOrder
  rw [tsMs_stored, tsMs_stored]
  omega

/-- The rows of a window are those of the samples in it. -/
theorem Refines.windowed (hRefines : h.Refines s) {id : Int}
    (hLookup : h.batteryIdCache.lookup name = some id) (fromMs stopMs : Int) :
    List.Forall₂ (fun row x => (h.Holds row x ∧ x.batteryId = name) ∧ fromMs ≤ x.tsMs)
      (window (fun row => row.2.tsMs) fromMs stopMs (h.samplesOf id))
      (window TelemetrySample.tsMs fromMs stopMs (s.samplesOf name)) := by
  have hWindow := window_related (hRefines.samplesOf hLookup) (fun _ _ hHolds => hHolds.tsMs) fromMs
    stopMs
  refine (Paired.with_mem hWindow).imp fun row x ⟨hHolds, _, hMem⟩ => ?_
  obtain ⟨hSample, hLow, -⟩ := mem_window.mp hMem
  exact ⟨⟨hHolds, of_decide_eq_true (List.mem_filter.mp hSample).2⟩, hLow⟩

/-- The newest rows of the buckets are those of the newest samples. -/
theorem newest_of_window (sql : OrderBy (Int × SampleRow)) (stepMs : Int)
    {rows : List (Int × SampleRow)} {samples : List TelemetrySample} {fromMs : Int}
    (hRows : List.Forall₂ (fun row x => (h.Holds row x ∧ x.batteryId = name) ∧ fromMs ≤ x.tsMs)
      rows samples)
    (hDistinct : samples.Pairwise fun a b => a.tsMs ≠ b.tsMs) :
    List.Forall₂ (fun row x => (h.Holds row x ∧ x.batteryId = name) ∧ fromMs ≤ x.tsMs)
      (sql.firsts (fun row => (row.2.tsMs - fromMs).tdiv stepMs) (fun row => -row.2.tsMs) rows)
      (newest TelemetrySample.tsMs (fun x => (x.tsMs - fromMs) / stepMs) samples) := by
  have hTs : ∀ row x, (h.Holds row x ∧ x.batteryId = name) ∧ fromMs ≤ x.tsMs → row.2.tsMs = x.tsMs :=
    fun _ _ hRow => hRow.1.1.tsMs
  have hDistinctRows : rows.Pairwise fun a b => a.2.tsMs ≠ b.2.tsMs := by
    refine List.pairwise_map.mp ?_
    rw [Paired.map_eq hRows hTs, List.pairwise_map]
    exact hDistinct
  rw [firsts_eq_newest sql hDistinctRows]
  refine newest_related hRows hTs fun row x hRow => ?_
  -- In the window no time is before its start, so SQLite's division rounds down.
  rw [hTs row x hRow, Int.tdiv_eq_ediv_of_nonneg]
  exact Int.sub_nonneg.mpr hRow.2

theorem Refines.rangeCore (sql : OrderBy (Int × SampleRow)) (hRefines : h.Refines s)
    (hDistinct : DistinctMs s.samples) {id : Int} (hLookup : h.batteryIdCache.lookup name = some id)
    (start stop lim stepMs : Int) : h.rangeCore sql id name start stop lim stepMs =
      s.range name (toMs start) (toMs stop) lim stepMs := by
  have hFound := hRefines.windowed hLookup (toMs start) (toMs stop)
  have hNe : (window TelemetrySample.tsMs (toMs start) (toMs stop) (s.samplesOf name)).Pairwise
      fun a b => a.tsMs ≠ b.tsMs := (hDistinct.samplesOf name).filter _
  rw [History.rangeCore, selectSamples_eq, OrderBy.map_limit, Store.range, ← OrderBy.limit_of_pos,
    OrderBy.map_limit]
  refine congrArg _ ?_
  by_cases hStep : 0 < stepMs
  · simp only [if_pos hStep]
    have hNewest := newest_of_window sql stepMs hFound hNe
    exact sort_related sql (hNewest.imp fun _ _ h => h.1) (hNe.filter _)
  · simp only [if_neg hStep]
    exact sort_related sql (hFound.imp fun _ _ h => h.1) hNe

/-! ### The queries -/

/-- A row that a query reads is that of a sample of the battery. -/
theorem Refines.mem_rangeCore (hRefines : h.Refines s) {sql : OrderBy (Int × SampleRow)} {id : Int}
    (hLookup : h.batteryIdCache.lookup name = some id) {start stop lim stepMs : Int} {y : TelemetrySample}
    (hy : y ∈ h.rangeCore sql id name start stop lim stepMs) : ∃ x ∈ s.samplesOf name, y = x.stored := by
  obtain ⟨row, hRow, rfl⟩ := List.mem_map.mp hy
  obtain ⟨x, hx, hHolds⟩ := Paired.exists_right (hRefines.samplesOf hLookup) (mem_selectSamples sql hRow).1
  refine ⟨x, hx, ?_⟩
  rw [← of_decide_eq_true (List.mem_filter.mp hx).2]
  exact hHolds.telemetrySample

theorem Refines.mem_range (hRefines : h.Refines s) {sql : OrderBy (Int × SampleRow)}
    {start stop lim stepMs : Int} {y : TelemetrySample}
    (hy : y ∈ (h.range sql name start stop lim stepMs).1) : ∃ x ∈ s.samplesOf name, y = x.stored := by
  rw [History.range] at hy
  cases hLookup : h.batteryIdCache.lookup name with
  | some id =>
    have hPositive := hRefines.positive name id hLookup
    rw [batteryRowId_known _ _ hLookup] at hy
    simp only at hy
    rw [if_neg (by omega)] at hy
    exact hRefines.mem_rangeCore hLookup hy
  | none =>
    have hId := batteryRowId_unknown (fun _ => false) name hRefines.registered hLookup
    simp only [hId] at hy
    cases hy

theorem Refines.mem_rangeById (hRefines : h.Refines s) {sql : OrderBy (Int × SampleRow)} {id : Int}
    (hBattery : (id, name) ∈ h.db.batteries.rows) {start stop lim stepMs : Int} {y : TelemetrySample}
    (hy : y ∈ h.rangeById sql id start stop lim stepMs) : ∃ x ∈ s.samplesOf name, y = x.stored := by
  have hLookup := hRefines.registered.cached _ hBattery
  have hPositive := hRefines.positive name id hLookup
  rw [History.rangeById, if_neg (by omega), hRefines.batteryName hLookup] at hy
  exact hRefines.mem_rangeCore hLookup hy

theorem Refines.range (sql : OrderBy (Int × SampleRow)) (hRefines : h.Refines s)
    (hDistinct : DistinctMs s.samples) (name : String) (start stop lim stepMs : Int) :
    (h.range sql name start stop lim stepMs).1 =
      s.range name (toMs start) (toMs stop) lim stepMs := by
  rw [History.range]
  cases hLookup : h.batteryIdCache.lookup name with
  | some id =>
    have hPositive := hRefines.positive name id hLookup
    rw [batteryRowId_known _ _ hLookup]
    simp only
    rw [if_neg (by omega)]
    exact hRefines.rangeCore sql hDistinct hLookup start stop lim stepMs
  | none =>
    have hId := batteryRowId_unknown (fun _ => false) name hRefines.registered hLookup
    have hNone : s.range name (toMs start) (toMs stop) lim stepMs = [] := by
      simp [Store.range, hRefines.samplesOf_unknown hLookup, Paging.window, newest]
    rw [hNone]
    simp only [hId]
    rfl

theorem Refines.rangeById (sql : OrderBy (Int × SampleRow)) (hRefines : h.Refines s)
    (hDistinct : DistinctMs s.samples) {id : Int} (hBattery : (id, name) ∈ h.db.batteries.rows)
    (start stop lim stepMs : Int) : h.rangeById sql id start stop lim stepMs =
      s.range name (toMs start) (toMs stop) lim stepMs := by
  have hLookup := hRefines.registered.cached _ hBattery
  have hPositive := hRefines.positive name id hLookup
  rw [History.rangeById, if_neg (by omega), hRefines.batteryName hLookup]
  exact hRefines.rangeCore sql hDistinct hLookup start stop lim stepMs

end History

/-- The samples of a store are those of some of the calls, in their order. -/
theorem Store.samples_append (calls : List AppendArgs) (s : Store) :
    ∃ committed, (calls.foldl Store.append s).samples = s.samples ++ committed ∧
      committed.Sublist (calls.map AppendArgs.sample) := by
  induction calls generalizing s with
  | nil => exact ⟨[], (List.append_nil _).symm, .slnil⟩
  | cons a calls ih =>
    obtain ⟨committed, hSamples, hSublist⟩ := ih (s.append a)
    have hStep : (s.append a).samples = s.samples ∨
        (s.append a).samples = s.samples ++ [a.sample] := by
      rw [Store.append]
      split
      · exact .inl rfl
      · simp only
        split
        · exact .inl rfl
        · exact .inr rfl
    rcases hStep with hNone | hOne
    · exact ⟨committed, by rw [List.foldl_cons, hSamples, hNone], hSublist.cons _⟩
    · refine ⟨a.sample :: committed, ?_, hSublist.cons_cons _⟩
      rw [List.foldl_cons, hSamples, hOne, List.append_assoc, List.singleton_append]

namespace History

/-- After any appends, and whatever has failed in them, the range queries answer what the list of the
committed samples holds. -/
theorem range_of_appends (sql : OrderBy (Int × SampleRow)) (ramWindow : Int)
    (calls : List AppendArgs)
    (hDistinct : calls.Pairwise fun a b => a.batteryId = b.batteryId → toMs a.ts ≠ toMs b.ts)
    (name : String) (start stop lim stepMs : Int) :
    ((calls.foldl appendCall { ramWindow }).range sql name start stop lim stepMs).1 =
        (calls.foldl Store.append {}).range name (toMs start) (toMs stop) lim stepMs ∧
      ∀ id, (id, name) ∈ (calls.foldl appendCall { ramWindow }).db.batteries.rows →
        (calls.foldl appendCall { ramWindow }).rangeById sql id start stop lim stepMs =
          (calls.foldl Store.append {}).range name (toMs start) (toMs stop) lim stepMs := by
  have hRefines := (refines_empty ramWindow).run calls
  obtain ⟨committed, hSamples, hSublist⟩ := Store.samples_append calls {}
  have hMs : DistinctMs (calls.foldl Store.append {}).samples := by
    rw [hSamples]
    exact List.Pairwise.sublist hSublist (List.pairwise_map.mpr hDistinct)
  exact ⟨hRefines.range sql hMs name start stop lim stepMs,
    fun id hBattery => hRefines.rangeById sql hMs hBattery start stop lim stepMs⟩

/-- Three appends of which the second one fails to commit. -/
def threeAppends : List AppendArgs := [
  { fails := fun _ => false, batteryId := "jk", ts := 1000000, now := 0
    cells := { voltagesMv := [3300, 3310], resistanceUohm := [90] }, pack := {} },
  { fails := fun call => call = .commit, batteryId := "jk", ts := 2000000, now := 0
    cells := {}, pack := {} },
  { fails := fun _ => false, batteryId := "jk", ts := 3000000, now := 0, cells := {}, pack := {} }]

theorem range_of_threeAppends :
    (((threeAppends.foldl appendCall {}).range .stable "jk" 0 9000000 0 0).1.map fun x =>
      (x.ts, x.cells.resistanceUohm)) = [(3000000, []), (1000000, [90, 0])] := by
  have hRange := (range_of_appends .stable 0 threeAppends (by decide) "jk" 0 9000000 0 0).1
  rw [hRange]
  decide

/-- A sample of 1.5 ms is in the range from 1.6 ms to 3 ms. -/
theorem early_sample_in_range : ¬∀ (sql : OrderBy (Int × SampleRow)) (ramWindow : Int)
    (calls : List AppendArgs) (name : String) (start stop : Int),
    (calls.Pairwise fun a b => a.batteryId = b.batteryId → toMs a.ts ≠ toMs b.ts) →
    ∀ y ∈ ((calls.foldl appendCall { ramWindow }).range sql name start stop 0 0).1,
      ∃ x ∈ (calls.foldl Store.append {}).samples,
        x.batteryId = name ∧ start ≤ x.ts ∧ x.ts < stop ∧ y = x.stored := by
  intro h
  have hFound := h .stable 0
    [{ fails := fun _ => false, batteryId := "jk", ts := 1500000, now := 0, cells := {}, pack := {} }]
    "jk" 1600000 3000000 (List.pairwise_singleton ..)
    { batteryId := "jk", ts := 1000000, cells := {}, pack := {} } (by decide)
  obtain ⟨x, hx, -, hLow, -⟩ := hFound
  rw [show x.ts = 1500000 from congrArg TelemetrySample.ts (List.mem_singleton.mp hx)] at hLow
  exact absurd hLow (by decide)

end History

end BmsBridge
