import BmsBridge.History.Aggregation
import BmsBridge.History.Proof.Append

/-! The daily rows: which days an aggregation takes up, and what it leaves of the rows. -/

namespace BmsBridge

open Calendar

/-! ### Days -/

def utcDate (day : Int) : String := (ofDays day).text

/-- A time stamp that `date` has room for, from 1970 on. -/
structure Dated (tsMs : Int) : Prop where
  low : 0 ≤ tsMs
  high : tsMs < 253402300800000

theorem Dated.sqliteDate {tsMs : Int} (h : Dated tsMs) :
    sqliteDate (tsMs.tdiv 1000) = some (utcDate (tsMs / 86400000)) := by
  obtain ⟨hLow, hHigh⟩ := h
  have hDay : tsMs / 1000 / 86400 = tsMs / 86400000 := by omega
  rw [BmsBridge.sqliteDate, Int.tdiv_eq_ediv_of_nonneg hLow, if_pos (by omega), utcDate, hDay]

theorem dayStart_utcDate {day : Int} (hLow : 0 ≤ day) (hHigh : day < 2786860) :
    History.dayStart (utcDate day) = day * 86400000 := by
  rw [History.dayStart, utcDate, ofText_text (ofDays_printable (by omega) (by omega)),
    toDays_ofDays]
  omega

theorem utcDate_injective {day day' : Int} (hLow : 0 ≤ day) (hHigh : day < 2786860) (hLow' : 0 ≤ day')
    (hHigh' : day' < 2786860) (h : utcDate day = utcDate day') : day = day' := by
  have hStart := congrArg History.dayStart h
  rw [dayStart_utcDate hLow hHigh, dayStart_utcDate hLow' hHigh'] at hStart
  omega

theorem todayMs_eq (now : Int) : todayMs now = now.tdiv 1000000000 / 86400 * 86400000 := by
  rw [todayMs, toDays_ofDays]
  omega

/-- Midnight is not later than the one that the code works with; before 1970 a part of a second makes
a difference. -/
theorem midnight_le_todayMs (now : Int) : now / 86400000000000 * 86400000 ≤ todayMs now := by
  rw [todayMs_eq]
  rcases Int.le_total 0 now with h | h
  · rw [Int.tdiv_eq_ediv_of_nonneg h]
    omega
  · have hTrunc : now / 1000000000 ≤ now.tdiv 1000000000 := by
      rw [Int.tdiv_eq_ediv]
      split
      · omega
      · have hSign : (1000000000 : Int).sign = 1 := rfl
        omega
    have hDay : now / 86400000000000 = now / 1000000000 / 86400 := by omega
    have hMono := Int.ediv_le_ediv (c := 86400) (by decide) hTrunc
    omega

theorem todayMs_of_nonneg {now : Int} (h : 0 ≤ now) :
    todayMs now = now / 86400000000000 * 86400000 := by
  rw [todayMs_eq, Int.tdiv_eq_ediv_of_nonneg h]
  omega

namespace History

/-! ### The daily rows of a day -/

def dailyOf (h : History) (day : PendingDay) : List DailyRow :=
  (h.db.dailyEnergy.rows.map Prod.snd).filter fun row => row.batteryId = day.1 ∧ row.date = day.2

def dailyRow (day : PendingDay) (e : Integration) : DailyRow where
  batteryId := day.1
  date := day.2
  chargedWh := e.charged
  dischargedWh := e.discharged

variable {h : History} {sql : OrderBy (Int × SampleRow)} {fails : AggregateCall → Bool}
  {day other : PendingDay} {today : Int}

theorem mem_dailyOf {row : DailyRow} : row ∈ h.dailyOf day ↔
    (∃ id, (id, row) ∈ h.db.dailyEnergy.rows) ∧ row.batteryId = day.1 ∧ row.date = day.2 := by
  simp [dailyOf]

theorem dailyOf_insertDaily (e : Integration) : (h.insertDaily day e).dailyOf other =
    if other = day then [dailyRow day e] else h.dailyOf other := by
  simp only [insertDaily, dailyOf, Table.rows_insert, Table.rows_keep, List.map_append,
    List.filter_append, List.map_cons, List.map_nil]
  have hKept : ((h.db.dailyEnergy.rows.filter fun row =>
      !(row.2.batteryId = day.1 ∧ row.2.date = day.2)).map Prod.snd).filter
        (fun row => row.batteryId = other.1 ∧ row.date = other.2) =
      if other = day then [] else h.dailyOf other := by
    rw [dailyOf, List.filter_map, List.filter_map, List.filter_filter]
    split
    · rename_i hSame
      rw [hSame, List.map_eq_nil_iff, List.filter_eq_nil_iff]
      simp
    · rename_i hOther
      refine congrArg (List.map Prod.snd) (List.filter_congr fun row _ => ?_)
      simp only [Function.comp_apply, Bool.and_eq_left_iff_imp, decide_eq_true_eq, Bool.not_eq_true',
        decide_eq_false_iff_not]
      rintro ⟨hBattery, hDate⟩ ⟨hBattery', hDate'⟩
      exact hOther (Prod.ext (hBattery.symm.trans hBattery') (hDate.symm.trans hDate'))
  rw [hKept]
  split
  · rename_i hSame
    simp [hSame, dailyRow]
  · rename_i hOther
    have hNew : ¬(day.1 = other.1 ∧ day.2 = other.2) :=
      fun h => hOther (Prod.ext h.1.symm h.2.symm)
    rw [List.filter_cons_of_neg (by simpa using hNew), List.filter_nil, List.append_nil, dailyOf]

/-! ### One round, and the loop -/

/-- The calls for a day all succeed. -/
def Succeeds (fails : AggregateCall → Bool) (day : PendingDay) : Prop :=
  fails (.prepareSamples day) = false ∧ fails (.begin day) = false ∧
    fails (.prepareInsert day) = false ∧ fails (.insert day) = false ∧ fails (.commit day) = false

instance : Decidable (Succeeds fails day) := inferInstanceAs (Decidable (_ ∧ _))

theorem aggregateDay_eq : aggregateDay sql fails h day =
    if Succeeds fails day then h.insertDaily day (h.integrate sql day) else h := by
  by_cases hSucceeds : Succeeds fails day
  · obtain ⟨hSamples, hBegin, hPrepare, hInsert, hCommit⟩ := hSucceeds
    simp [aggregateDay, Succeeds, hSamples, hBegin, hPrepare, hInsert, hCommit]
  · rw [if_neg hSucceeds, aggregateDay]
    split_ifs with hSamples hBegin hWrite
    · rfl
    · rfl
    · rfl
    · simp only [not_or, Bool.not_eq_true] at hSamples hBegin hWrite
      exact absurd ⟨hSamples, hBegin, hWrite⟩ hSucceeds

theorem aggregateDay_samples : (aggregateDay sql fails h day).db.samples = h.db.samples := by
  rw [aggregateDay_eq]
  split <;> rfl

theorem integrate_congr {h' : History} (hSamples : h'.db.samples = h.db.samples) :
    h'.integrate sql day = h.integrate sql day := by
  rw [integrate, integrate, hSamples]

theorem loop_samples {days : List PendingDay} :
    (days.foldl (aggregateDay sql fails) h).db.samples = h.db.samples := by
  induction days generalizing h with
  | nil => rfl
  | cons day days ih => exact ih.trans aggregateDay_samples

/-- A day of the list whose calls succeed gets the row of its samples; the others keep theirs. -/
theorem dailyOf_loop {days : List PendingDay} :
    (days.foldl (aggregateDay sql fails) h).dailyOf other =
      if other ∈ days ∧ Succeeds fails other then [dailyRow other (h.integrate sql other)]
      else h.dailyOf other := by
  induction days generalizing h with
  | nil => rfl
  | cons day days ih =>
    rw [List.foldl_cons, ih, integrate_congr aggregateDay_samples, aggregateDay_eq]
    by_cases hLater : other ∈ days ∧ Succeeds fails other
    · rw [if_pos hLater, if_pos ⟨List.mem_cons_of_mem _ hLater.1, hLater.2⟩]
    · rw [if_neg hLater]
      by_cases hHere : other = day ∧ Succeeds fails day
      · obtain ⟨rfl, hSucceeds⟩ := hHere
        rw [if_pos hSucceeds, dailyOf_insertDaily, if_pos rfl,
          if_pos ⟨List.mem_cons_self .., hSucceeds⟩]
      · have hNot : ¬(other ∈ day :: days ∧ Succeeds fails other) := by
          rintro ⟨hMem, hSucceeds⟩
          rcases List.mem_cons.mp hMem with rfl | hMem
          · exact hHere ⟨rfl, hSucceeds⟩
          · exact hLater ⟨hMem, hSucceeds⟩
        rw [if_neg hNot]
        split
        · rename_i hSucceeds
          rw [dailyOf_insertDaily, if_neg fun h => hHere ⟨h, hSucceeds⟩]
        · rfl

/-! ### The days that are pending -/

theorem dailyOf_eq_nil : h.dailyOf day = [] ↔
    ¬h.db.dailyEnergy.rows.any fun row => row.2.batteryId = day.1 ∧ row.2.date = day.2 := by
  simp only [dailyOf, List.filter_eq_nil_iff, List.forall_mem_map, List.any_eq_true, not_exists, not_and]

theorem pendingDay_eq_some {s : SampleRow} : h.pendingDay today s = some day ↔
    s.tsMs < today ∧ s.batteryId = day.1 ∧ sqliteDate (s.tsMs.tdiv 1000) = some day.2 ∧
      h.dailyOf day = [] := by
  rw [pendingDay, dailyOf_eq_nil]
  obtain ⟨batteryId, date⟩ := day
  by_cases hPast : s.tsMs < today
  · rw [if_pos hPast, Option.bind_eq_some_iff]
    constructor
    · rintro ⟨found, hFound, hDay⟩
      split at hDay
      · cases hDay
      · rename_i hNone
        cases hDay
        exact ⟨hPast, rfl, hFound, hNone⟩
    · rintro ⟨-, rfl, hFound, hNone⟩
      exact ⟨date, hFound, if_neg hNone⟩
  · rw [if_neg hPast]
    exact ⟨nofun, fun h => absurd h.1 hPast⟩

theorem mem_findPending : day ∈ h.findPending today ↔
    ∃ row ∈ h.db.samples.rows, row.2.tsMs < today ∧ row.2.batteryId = day.1 ∧
      sqliteDate (row.2.tsMs.tdiv 1000) = some day.2 ∧ h.dailyOf day = [] := by
  rw [findPending, (List.perm_insertionSort _ _).mem_iff, List.mem_dedup, List.mem_filterMap]
  simp only [pendingDay_eq_some]

/-! ### The whole call -/

variable {now : Int}

theorem aggregatePending_eq (hFind : fails .prepareFind = false) :
    h.aggregatePending sql fails now = if h.findPending (todayMs now) = [] then h
      else ((h.findPending (todayMs now)).foldl (aggregateDay sql fails) h).purge fails (purgeMs now) := by
  rw [aggregatePending, hFind]
  rfl

theorem loop_batteries {days : List PendingDay} :
    (days.foldl (aggregateDay sql fails) h).db.batteries = h.db.batteries ∧
      (days.foldl (aggregateDay sql fails) h).batteryIdCache = h.batteryIdCache := by
  induction days generalizing h with
  | nil => exact ⟨rfl, rfl⟩
  | cons day days ih =>
    rw [List.foldl_cons, ih.1, ih.2, aggregateDay_eq]
    split <;> exact ⟨rfl, rfl⟩

theorem aggregatePending_batteries :
    (h.aggregatePending sql fails now).db.batteries = h.db.batteries ∧
      (h.aggregatePending sql fails now).batteryIdCache = h.batteryIdCache := by
  rw [aggregatePending]
  split
  · exact ⟨rfl, rfl⟩
  · simp only
    split
    · exact ⟨rfl, rfl⟩
    · rw [purge]
      split <;> exact loop_batteries

/-- The purge takes the rows that are older than the bound, or none. -/
theorem aggregatePending_rows :
    (h.aggregatePending sql fails now).db.samples.rows = h.db.samples.rows ∨
      fails .prepareFind = false ∧ (h.aggregatePending sql fails now).db.samples.rows =
        h.db.samples.rows.filter fun row => !(row.2.tsMs < purgeMs now) := by
  by_cases hFind : fails .prepareFind
  · rw [aggregatePending, if_pos hFind]
    exact .inl rfl
  · rw [Bool.not_eq_true] at hFind
    rw [aggregatePending_eq hFind]
    split
    · exact .inl rfl
    · rw [purge]
      split
      · rw [loop_samples]
        exact .inl rfl
      · refine .inr ⟨hFind, ?_⟩
        simp only [Database.deleteSamples, Table.rows_keep, loop_samples]

theorem dailyOf_purge {before : Int} : (h.purge fails before).dailyOf day = h.dailyOf day := by
  rw [purge]
  split <;> rfl

theorem dailyOf_aggregatePending (hFind : fails .prepareFind = false) :
    (h.aggregatePending sql fails now).dailyOf day =
      if day ∈ h.findPending (todayMs now) ∧ Succeeds fails day then
        [dailyRow day (h.integrate sql day)]
      else h.dailyOf day := by
  rw [aggregatePending_eq hFind]
  by_cases hNone : h.findPending (todayMs now) = []
  · rw [if_pos hNone, hNone, if_neg fun h => nomatch h.1]
  · rw [if_neg hNone, dailyOf_purge, dailyOf_loop]

theorem mem_of_mem_aggregatePending {row : Int × SampleRow}
    (hRow : row ∈ (h.aggregatePending sql fails now).db.samples.rows) : row ∈ h.db.samples.rows := by
  rcases aggregatePending_rows (h := h) with hAll | ⟨-, hPurged⟩
  · rwa [hAll] at hRow
  · rw [hPurged] at hRow
    exact (List.mem_filter.mp hRow).1

end History

end BmsBridge
