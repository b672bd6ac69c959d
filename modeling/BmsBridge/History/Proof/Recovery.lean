import BmsBridge.History.Proof.Energy
import BmsBridge.History.Proof.Life

/-! The daily energy over any number of process lives, with any of the modelled calls of SQLite failing:
what an aggregation cannot do is left to the next one, until the samples are purged. -/

namespace BmsBridge

namespace Store

/-- Time stamps and powers of a battery's samples on a day. -/
def readings (s : Store) (name : String) (day : Int) : List (Int × Rat) :=
  ((s.samplesOf name).filter fun x => x.tsMs / 86400000 = day).map fun x => History.reading x.ts x.pack

variable {s s' : Store}

theorem readings_congr (hSamples : s'.samples = s.samples) (name : String) (day : Int) :
    s'.readings name day = s.readings name day := by
  rw [readings, readings, samplesOf, samplesOf, hSamples]

theorem exists_of_readings {name : String} {day : Int} (hSome : s.readings name day ≠ []) :
    ∃ x ∈ s.samplesOf name, x.tsMs / 86400000 = day := by
  obtain ⟨r, hr⟩ := List.exists_mem_of_ne_nil _ hSome
  obtain ⟨x, hx, -⟩ := List.mem_map.mp hr
  obtain ⟨hx, hDay⟩ := List.mem_filter.mp hx
  exact ⟨x, hx, of_decide_eq_true hDay⟩

/-- Two stores that know the same batteries take in the same. -/
theorem readings_append (hKnown : s'.known = s.known) (a : AppendArgs) (hNow : 0 ≤ a.ts) (name : String)
    (day : Int) : ∃ more, (s.append a).readings name day = s.readings name day ++ more ∧
      (s'.append a).readings name day = s'.readings name day ++ more ∧
      (day < History.dayOf a.ts → more = []) := by
  rw [append, append, hKnown]
  split
  · exact ⟨[], (List.append_nil _).symm, (List.append_nil _).symm, fun _ => rfl⟩
  · by_cases hAborts : aborts a.fails a.cells.voltagesMv.length
    · refine ⟨[], ?_, ?_, fun _ => rfl⟩ <;> rw [List.append_nil] <;> simp only [if_pos hAborts] <;> rfl
    · have hReadings (u : Store) (known : Finset String) :
          ({ known, samples := u.samples ++ [a.sample] } : Store).readings name day =
            u.readings name day ++ ({ samples := [a.sample] } : Store).readings name day := by
        simp only [readings, samplesOf, List.filter_append, List.map_append]
      refine ⟨({ samples := [a.sample] } : Store).readings name day, ?_, ?_, fun hPast => ?_⟩
      · simp only [if_neg hAborts]
        exact hReadings s _
      · simp only [if_neg hAborts]
        exact hReadings s' _
      · by_contra hSome
        obtain ⟨x, hx, hDay⟩ := exists_of_readings hSome
        obtain rfl := List.mem_singleton.mp (List.mem_filter.mp hx).1
        rw [show a.sample.tsMs = toMs a.ts from rfl, History.dayOf_eq hNow] at hDay
        omega

/-- A purge at midnight takes whole days. -/
theorem readings_purge (s : Store) (bound : Int) (name : String) (day : Int) :
    (s.purge (bound * 86400000)).readings name day = if day < bound then [] else s.readings name day := by
  have hFilter : ((s.purge (bound * 86400000)).samplesOf name).filter (fun x => x.tsMs / 86400000 = day) =
      ((s.samplesOf name).filter fun x => x.tsMs / 86400000 = day).filter fun _ => ¬day < bound := by
    rw [samplesOf, purge, samplesOf, List.filter_filter, List.filter_filter, List.filter_filter,
      List.filter_filter]
    refine List.filter_congr fun x _ => ?_
    by_cases hDay : x.tsMs / 86400000 = day
    · have hSame : x.tsMs < bound * 86400000 ↔ day < bound := by omega
      rcases Int.lt_or_le day bound with hOld | hNew
      · simp [hSame.mpr hOld, hOld]
      · simp [hSame, hDay, Int.not_lt.mpr hNew]
    · simp [hDay]
  rw [readings, hFilter]
  split
  · rename_i hPurged
    simp [hPurged]
  · rename_i hStays
    simp [hStays, readings]

end Store

namespace History

variable {h h' : History} {s t s' t' : Store} {sql : OrderBy (Int × SampleRow)} {name : String}
  {id day clock : Int}

/-! ### The samples of a day -/

theorem Refines.dayReadings (hRefines : h.Refines t) (hRow : (id, name) ∈ h.db.batteries.rows) (day : Int) :
    h.dayReadings id day = t.readings name day := by
  have hRows : (h.db.samples.rows.filter fun row => row.2.batteryId = id ∧ row.2.tsMs / 86400000 = day) =
      (h.samplesOf id).filter fun row => row.2.tsMs / 86400000 = day := by
    rw [History.samplesOf, List.filter_filter]
    exact List.filter_congr fun row _ => by simp [Bool.and_comm]
  rw [History.dayReadings, hRows, Store.readings]
  refine Paired.map_eq (List.rel_filter (fun row x hHolds => ?_)
    (hRefines.samplesOf (hRefines.registered.cached _ hRow))) fun row x hHolds => ?_
  · show decide _ = true ↔ decide _ = true
    rw [hHolds.tsMs]
  · obtain ⟨id', -, hSample, -⟩ := hHolds
    rw [hSample]
    exact power_ofSample id' x.cells x.pack

/-! ### What is accounted for -/

/-- At a time: what the tables hold, with the samples `s` that were ever committed and those `t` that are
left of them.  A day is lost if `lost` says so. -/
structure Accounts (s t : Store) (clock : Int) (lost : Int → Int → Prop) (h : History) : Prop where
  registry : h.Registry
  refines : h.Refines t
  known : t.known = s.known
  sublist : t.samples.Sublist s.samples
  dated : ∀ x ∈ s.samples, 0 ≤ x.tsMs ∧ x.tsMs ≤ toMs clock
  /-- Each daily row has the sums over all samples of its day. -/
  daily : ∀ day, h.dailyOf day = [] ∨ ∃ name n row, (day.1, name) ∈ h.db.batteries.rows ∧
    day.2 = utcDate n ∧ 0 ≤ n ∧ n < dayOf clock ∧ h.dailyOf day = [row] ∧
      HasEnergy (s.readings name n) row
  /-- The samples of a day are there as long as they are needed. -/
  kept : ∀ name n, t.readings name n = s.readings name n ∨ t.readings name n = [] ∧ n < dayOf clock ∧
    ∃ id, (id, name) ∈ h.db.batteries.rows ∧ (h.dailyOf (id, utcDate n) ≠ [] ∨ lost id n)

variable {lost lost' : Int → Int → Prop}

theorem dayOf_le {now : Int} (hClock : clock ≤ now) : dayOf clock ≤ dayOf now :=
  Int.ediv_le_ediv (by decide) hClock

theorem toMs_le {now : Int} (hStart : 0 ≤ clock) (hClock : clock ≤ now) : toMs clock ≤ toMs now := by
  rw [toMs_of_nonneg hStart, toMs_of_nonneg (Int.le_trans hStart hClock)]
  exact Int.ediv_le_ediv (by decide) hClock

theorem Accounts.initial (ramWindow : Int) (lost : Int → Int → Prop) :
    Accounts {} {} 0 lost { ramWindow } where
  registry := .initial ramWindow
  refines := refines_empty ramWindow
  known := rfl
  sublist := .slnil
  dated := fun _ hx => absurd hx List.not_mem_nil
  daily := fun _ => .inl rfl
  kept := fun _ _ => .inl rfl

/-- Calls that change nothing about samples and daily rows. -/
theorem Accounts.congr (hAccounts : Accounts s t clock lost h) (hExtends : h.Extends h')
    (hRefines : h'.Refines t') (hKnown : t'.known = s'.known) (hOld : s'.samples = s.samples)
    (hLeft : t'.samples = t.samples) (hDaily : h'.db.dailyEnergy = h.db.dailyEnergy) :
    Accounts s' t' clock lost h' where
  registry := hExtends.registry
  refines := hRefines
  known := hKnown
  sublist := by rw [hOld, hLeft]; exact hAccounts.sublist
  dated := by rw [hOld]; exact hAccounts.dated
  daily := fun day => by
    rw [dailyOf_congr hDaily]
    rcases hAccounts.daily day with hNone | ⟨name, n, row, hRow, hDate, hLow, hPast, hOne, hEnergy⟩
    · exact .inl hNone
    · rw [← Store.readings_congr hOld] at hEnergy
      exact .inr ⟨name, n, row, hExtends.rows.subset hRow, hDate, hLow, hPast, hOne, hEnergy⟩
  kept := fun name n => by
    rw [Store.readings_congr hOld, Store.readings_congr hLeft]
    rcases hAccounts.kept name n with hSame | ⟨hGone, hPast, id, hRow, hWhy⟩
    · exact .inl hSame
    · exact .inr ⟨hGone, hPast, id, hExtends.rows.subset hRow, by rwa [dailyOf_congr hDaily]⟩

theorem Accounts.append (hAccounts : Accounts s t clock lost h) (a : AppendArgs) (hStart : 0 ≤ clock)
    (hClock : clock ≤ a.ts) : Accounts (s.append a) (t.append a) a.ts lost (h.appendCall a) := by
  have hNow := Int.le_trans hStart hClock
  have hExtends := hAccounts.registry.extends_append a
  have hDaily : (h.appendCall a).db.dailyEnergy = h.db.dailyEnergy := h.append_daily ..
  have hMore := Store.readings_append hAccounts.known a hNow
  have hKeeps : Keeps (toMs a.ts + 1) (s.append a) (t.append a) := by
    refine Keeps.append ⟨hAccounts.known, hAccounts.sublist, ?_⟩ a
    have hNone {u : List TelemetrySample} (hu : ∀ x ∈ u, x.tsMs ≤ toMs clock) :
        (u.filter fun x => toMs a.ts + 1 ≤ x.tsMs) = [] := by
      rw [List.filter_eq_nil_iff]
      intro x hx
      have hOld := hu x hx
      have hLater := toMs_le hStart hClock
      simp only [decide_eq_true_eq]
      omega
    rw [hNone fun x hx => (hAccounts.dated x hx).2,
      hNone fun x hx => (hAccounts.dated x (hAccounts.sublist.subset hx)).2]
  refine ⟨hExtends.registry, hAccounts.refines.step a, hKeeps.known, hKeeps.sublist, ?dated, ?daily, ?kept⟩
  case dated =>
    intro x hx
    rcases List.mem_append.mp ((samples_append s a).subset hx) with hx | hx
    · obtain ⟨hLow, hHigh⟩ := hAccounts.dated x hx
      exact ⟨hLow, Int.le_trans hHigh (toMs_le hStart hClock)⟩
    · rw [List.mem_singleton.mp hx]
      exact ⟨Int.tdiv_nonneg hNow (by decide), Int.le_refl _⟩
  case daily =>
    intro day
    rw [dailyOf_congr hDaily]
    rcases hAccounts.daily day with hNone | ⟨name, n, row, hRow, hDate, hLow, hPast, hOne, hEnergy⟩
    · exact .inl hNone
    · have hLater := Int.lt_of_lt_of_le hPast (dayOf_le hClock)
      obtain ⟨more, hAll, -, hNothing⟩ := hMore name n
      refine .inr ⟨name, n, row, hExtends.rows.subset hRow, hDate, hLow, hLater, hOne, ?_⟩
      rwa [hAll, hNothing hLater, List.append_nil]
  case kept =>
    intro name n
    obtain ⟨more, hAll, hLeft, hNothing⟩ := hMore name n
    rw [hAll, hLeft]
    rcases hAccounts.kept name n with hSame | ⟨hGone, hPast, id, hRow, hWhy⟩
    · exact .inl (by rw [hSame])
    · have hLater := Int.lt_of_lt_of_le hPast (dayOf_le hClock)
      rw [hNothing hLater, List.append_nil]
      exact .inr ⟨hGone, hLater, id, hExtends.rows.subset hRow, by rwa [dailyOf_congr hDaily]⟩

/-! ### Aggregations -/

section Aggregate

variable {fails : AggregateCall → Bool} {now : Int}

theorem Accounts.weaken (hAccounts : Accounts s t clock lost h) (hStart : 0 ≤ clock) (hClock : clock ≤ now)
    (hLost : ∀ id n, lost id n → lost' id n) : Accounts s t now lost' h where
  registry := hAccounts.registry
  refines := hAccounts.refines
  known := hAccounts.known
  sublist := hAccounts.sublist
  dated := fun x hx => by
    obtain ⟨hLow, hHigh⟩ := hAccounts.dated x hx
    exact ⟨hLow, Int.le_trans hHigh (toMs_le hStart hClock)⟩
  daily := fun day => by
    rcases hAccounts.daily day with hNone | ⟨name, n, row, hRow, hDate, hLow, hPast, hDay⟩
    · exact .inl hNone
    · exact .inr ⟨name, n, row, hRow, hDate, hLow, Int.lt_of_lt_of_le hPast (dayOf_le hClock), hDay⟩
  kept := fun name n => by
    rcases hAccounts.kept name n with hSame | ⟨hGone, hPast, id, hRow, hWhy⟩
    · exact .inl hSame
    · exact .inr ⟨hGone, Int.lt_of_lt_of_le hPast (dayOf_le hClock), id, hRow, hWhy.imp_right (hLost id n)⟩

/-- The samples that are left of a day have a row each. -/
theorem Accounts.row_of_reading (hAccounts : Accounts s t clock lost h) (hStart : 0 ≤ clock)
    (hEnd : clock < 9223372036854775808) {n : Int} (hSome : t.readings name n ≠ []) :
    ∃ id, (id, name) ∈ h.db.batteries.rows ∧ ∃ row ∈ h.db.samples.rows, row.2.batteryId = id ∧
      row.2.tsMs / 86400000 = n ∧ sqliteDate (row.2.tsMs.tdiv 1000) = some (utcDate n) := by
  obtain ⟨x, hx, hDay⟩ := Store.exists_of_readings hSome
  obtain ⟨hx, hName⟩ := List.mem_filter.mp hx
  obtain ⟨row, hRow, hHolds⟩ := Paired.exists_left hAccounts.refines.samples hx
  obtain ⟨hLow, hHigh⟩ := hAccounts.dated x (hAccounts.sublist.subset hx)
  rw [toMs_of_nonneg hStart] at hHigh
  have hDated : Dated x.tsMs := ⟨hLow, by omega⟩
  have hTs := hHolds.tsMs
  obtain ⟨id, hLookup, hSample, -⟩ := hHolds
  rw [of_decide_eq_true hName] at hLookup
  refine ⟨id, hAccounts.refines.registered.stored name id hLookup, row, hRow, ?_, ?_, ?_⟩
  · rw [hSample]
    rfl
  · rw [hTs, hDay]
  · rw [hTs, hDated.sqliteDate, hDay]

/-- A pending day gets the sums over all its samples. -/
theorem Accounts.pending (hAccounts : Accounts s t clock lost h) (hStart : 0 ≤ clock) (hClock : clock ≤ now)
    (hEnd : now < 9223372036854775808) {day : PendingDay} (hPending : day ∈ h.findPending (todayMs now)) :
    ∃ name n, (day.1, name) ∈ h.db.batteries.rows ∧ day.2 = utcDate n ∧ 0 ≤ n ∧ n < dayOf now ∧
      HasEnergy (s.readings name n) (dailyRow day (h.integrate sql day)) := by
  obtain ⟨row, hRow, hOver, hId, hDate, hNone⟩ := mem_findPending.mp hPending
  obtain ⟨x, hx, hHolds⟩ := Paired.exists_right hAccounts.refines.samples hRow
  obtain ⟨hLow, hHigh⟩ := hAccounts.dated x (hAccounts.sublist.subset hx)
  have hTs := hHolds.tsMs
  rw [toMs_of_nonneg hStart] at hHigh
  rw [hTs, todayMs_of_nonneg (Int.le_trans hStart hClock)] at hOver
  have hDated : Dated x.tsMs := ⟨hLow, by omega⟩
  rw [hTs, hDated.sqliteDate, Option.some.injEq] at hDate
  obtain ⟨id, hLookup, hSample, -⟩ := hHolds
  have hOwn : row.2.batteryId = id := by
    rw [hSample]
    rfl
  obtain rfl : day = (id, utcDate (x.tsMs / 86400000)) := Prod.ext (hId.symm.trans hOwn) hDate.symm
  have hBattery := hAccounts.refines.registered.stored _ id hLookup
  refine ⟨x.batteryId, x.tsMs / 86400000, hBattery, rfl, by omega, ?_, ?_⟩
  · unfold dayOf
    omega
  · have hReading : t.readings x.batteryId (x.tsMs / 86400000) ≠ [] := by
      have hMine : x ∈ (t.samplesOf x.batteryId).filter fun y => y.tsMs / 86400000 = x.tsMs / 86400000 :=
        List.mem_filter.mpr ⟨List.mem_filter.mpr ⟨hx, by simp⟩, by simp⟩
      rw [Store.readings, ne_eq, List.map_eq_nil_iff]
      exact List.ne_nil_of_mem hMine
    rcases hAccounts.kept x.batteryId (x.tsMs / 86400000) with hSame | ⟨hGone, -⟩
    · rw [← hSame, ← hAccounts.refines.dayReadings hBattery]
      exact integrate_energy id (by omega) (by omega)
    · exact absurd hGone hReading

theorem purgeMs_eq (hNow : 0 ≤ now) : purgeMs now = (dayOf now - 8) * 86400000 := by
  rw [purgeMs, todayMs_of_nonneg hNow, dayOf]
  omega

/-- A day's own calls have failed, and its samples were purged. -/
def Purged (fails : AggregateCall → Bool) (now id day : Int) : Prop :=
  day + 8 < dayOf now ∧ ¬Succeeds fails (id, utcDate day)

variable (sql) in
theorem Accounts.daily_aggregate (hAccounts : Accounts s t clock lost h) (hStart : 0 ≤ clock)
    (hClock : clock ≤ now) (hEnd : now < 9223372036854775808) (hFind : fails .prepareFind = false)
    (day : PendingDay) : (h.aggregatePending sql fails now).dailyOf day = [] ∨
      ∃ name n row, (day.1, name) ∈ h.db.batteries.rows ∧ day.2 = utcDate n ∧ 0 ≤ n ∧ n < dayOf now ∧
        (h.aggregatePending sql fails now).dailyOf day = [row] ∧ HasEnergy (s.readings name n) row := by
  rw [dailyOf_aggregatePending hFind]
  split
  · rename_i hDone
    obtain ⟨name, n, hRow, hDate, hLow, hPast, hEnergy⟩ := hAccounts.pending hStart hClock hEnd hDone.1
    exact .inr ⟨name, n, _, hRow, hDate, hLow, hPast, rfl, hEnergy⟩
  · rcases hAccounts.daily day with hNone | ⟨name, n, row, hRow, hDate, hLow, hPast, hOne, hEnergy⟩
    · exact .inl hNone
    · exact .inr ⟨name, n, row, hRow, hDate, hLow, Int.lt_of_lt_of_le hPast (dayOf_le hClock), hOne, hEnergy⟩

theorem dailyOf_stays {day : PendingDay} (hSome : h.dailyOf day ≠ []) :
    (h.aggregatePending sql fails now).dailyOf day = h.dailyOf day := by
  cases hFind : fails .prepareFind with
  | true => rw [History.aggregatePending, if_pos hFind]
  | false =>
    rw [dailyOf_aggregatePending hFind]
    apply if_neg
    rintro ⟨hPending, -⟩
    obtain ⟨-, -, -, -, -, hNone⟩ := mem_findPending.mp hPending
    exact hSome hNone

variable (sql) in
/-- A day over that still has samples gets its row, if it has none, unless one of its calls fails. -/
theorem Accounts.aggregated (hAccounts : Accounts s t clock lost h) (hStart : 0 ≤ clock)
    (hClock : clock ≤ now) (hEnd : now < 9223372036854775808) (hFind : fails .prepareFind = false) {n : Int}
    (hOver : n < dayOf now) (hSome : t.readings name n ≠ []) :
    ∃ id, (id, name) ∈ h.db.batteries.rows ∧
      ((h.aggregatePending sql fails now).dailyOf (id, utcDate n) ≠ [] ∨
        ¬Succeeds fails (id, utcDate n)) := by
  obtain ⟨id, hBattery, row, hRow, hId, hDay, hDate⟩ := hAccounts.row_of_reading hStart (by omega) hSome
  refine ⟨id, hBattery, ?_⟩
  by_cases hNone : h.dailyOf (id, utcDate n) = []
  · have hPending : (id, utcDate n) ∈ h.findPending (todayMs now) := by
      refine mem_findPending.mpr ⟨row, hRow, ?_, hId, hDate, hNone⟩
      rw [todayMs_of_nonneg (Int.le_trans hStart hClock)]
      rw [dayOf] at hOver
      omega
    by_cases hSucceeds : Succeeds fails (id, utcDate n)
    · left
      rw [dailyOf_aggregatePending hFind, if_pos ⟨hPending, hSucceeds⟩]
      exact List.cons_ne_nil _ _
    · exact .inr hSucceeds
  · left
    rwa [dailyOf_stays hNone]

variable (sql) in
theorem Accounts.aggregate (hAccounts : Accounts s t clock lost h) (hStart : 0 ≤ clock) (hClock : clock ≤ now)
    (hEnd : now < 9223372036854775808) (fails : AggregateCall → Bool) :
    ∃ t', Accounts s t' now (fun id n => lost id n ∨ Purged fails now id n)
      (h.aggregatePending sql fails now) := by
  have hNow := Int.le_trans hStart hClock
  cases hFind : fails .prepareFind with
  | true =>
    rw [History.aggregatePending, if_pos hFind]
    exact ⟨t, hAccounts.weaken hStart hClock fun _ _ => .inl⟩
  | false =>
    obtain ⟨hRegistry, hRows⟩ : h.Extends (h.aggregatePending sql fails now) :=
      Extends.congr ⟨hAccounts.registry, List.prefix_refl _⟩ aggregatePending_batteries
    have hBatteries : (h.aggregatePending sql fails now).db.batteries = h.db.batteries :=
      aggregatePending_batteries.1
    have hDaily := hAccounts.daily_aggregate sql hStart hClock hEnd hFind
    have hDated (x : TelemetrySample) (hx : x ∈ s.samples) : 0 ≤ x.tsMs ∧ x.tsMs ≤ toMs now := by
      obtain ⟨hLow, hHigh⟩ := hAccounts.dated x hx
      exact ⟨hLow, Int.le_trans hHigh (toMs_le hStart hClock)⟩
    rw [← hBatteries] at hDaily
    have hGone {name : String} {n : Int} (hGone : t.readings name n = [] ∧ n < dayOf clock ∧ ∃ id,
        (id, name) ∈ h.db.batteries.rows ∧ (h.dailyOf (id, utcDate n) ≠ [] ∨ lost id n)) :
        n < dayOf now ∧ ∃ id, (id, name) ∈ (h.aggregatePending sql fails now).db.batteries.rows ∧
          ((h.aggregatePending sql fails now).dailyOf (id, utcDate n) ≠ [] ∨
            (lost id n ∨ Purged fails now id n)) := by
      obtain ⟨-, hPast, id, hRow, hWhy⟩ := hGone
      refine ⟨Int.lt_of_lt_of_le hPast (dayOf_le hClock), id, hBatteries ▸ hRow, ?_⟩
      exact hWhy.imp (fun hSome => by rwa [dailyOf_stays hSome]) .inl
    rcases hAccounts.refines.aggregatePending sql fails now with hSame | ⟨-, hPurged⟩
    · refine ⟨t, hRegistry, hSame, hAccounts.known, hAccounts.sublist, hDated, hDaily, fun name n => ?_⟩
      exact (hAccounts.kept name n).imp_right fun h => ⟨h.1, hGone h⟩
    · rw [purgeMs_eq hNow] at hPurged
      refine ⟨_, hRegistry, hPurged, hAccounts.known, List.filter_sublist.trans hAccounts.sublist, hDated,
        hDaily, fun name n => ?_⟩
      rw [Store.readings_purge]
      rcases hAccounts.kept name n with hThere | hNone
      · split
        · rename_i hOld
          by_cases hSome : t.readings name n = []
          · exact .inl (hSome.symm.trans hThere)
          · have hOver : n < dayOf now := by omega
            obtain ⟨id, hRow, hWhy⟩ := hAccounts.aggregated sql hStart hClock hEnd hFind hOver hSome
            refine .inr ⟨rfl, hOver, id, hBatteries ▸ hRow, hWhy.imp_right fun hFails => .inr ⟨?_, hFails⟩⟩
            omega
        · exact .inl hThere
      · rw [hNone.1, ite_self]
        exact .inr ⟨rfl, hGone hNone⟩

end Aggregate

/-! ### Whole lives -/

/-- The clock does not go back; it counts nanoseconds from 1970, in 64 bits. -/
def Stamped (clock : Int) : List Call → Prop
  | [] => True
  | .append args :: cs => clock ≤ args.ts ∧ args.ts < 9223372036854775808 ∧ Stamped args.ts cs
  | .aggregatePending _ now :: cs => clock ≤ now ∧ now < 9223372036854775808 ∧ Stamped now cs
  | .ensureBatteryId .. :: cs | .lookUp .. :: cs | .reopen .. :: cs => Stamped clock cs

def lastStamp (clock : Int) : List Call → Int
  | [] => clock
  | .append args :: cs => lastStamp args.ts cs
  | .aggregatePending _ now :: cs => lastStamp now cs
  | .ensureBatteryId .. :: cs | .lookUp .. :: cs | .reopen .. :: cs => lastStamp clock cs

/-- An aggregation has failed to aggregate a day, and purged it. -/
def Lost (cs : List Call) (id day : Int) : Prop :=
  ∃ fails now, .aggregatePending fails now ∈ cs ∧ Purged fails now id day

theorem Accounts.calls (hAccounts : Accounts s t clock lost h) (hStart : 0 ≤ clock)
    (hEnd : clock < 9223372036854775808) {cs : List Call} (hStamped : Stamped clock cs)
    (hReads : Runs.Meets (fun h c => some (h.call sql c)) ReadsBack h cs) :
    (0 ≤ lastStamp clock cs ∧ lastStamp clock cs < 9223372036854775808) ∧
      ∃ t', Accounts (cs.foldl Store.call s) t' (lastStamp clock cs)
        (fun id n => lost id n ∨ Lost cs id n) (h.calls sql cs) := by
  induction cs generalizing s t clock lost h with
  | nil => exact ⟨⟨hStart, hEnd⟩, t, hAccounts.weaken hStart (Int.le_refl _) fun _ _ => .inl⟩
  | cons c cs ih =>
    obtain ⟨hRead, hReads⟩ := hReads
    -- What was lost before, in the first call, or in the others.
    have hWeaken {s t : Store} {clock : Int} {h : History} {lost' : Int → Int → Prop} (hStart : 0 ≤ clock)
        (hFirst : ∀ id n, lost' id n → lost id n ∨ Lost [c] id n)
        (hAccounts : Accounts s t clock (fun id n => lost' id n ∨ Lost cs id n) h) :
        Accounts s t clock (fun id n => lost id n ∨ Lost (c :: cs) id n) h := by
      refine hAccounts.weaken hStart (Int.le_refl _) fun id n hLost => ?_
      rcases hLost with hLost | ⟨fails, now, hMem, hPurged⟩
      · refine (hFirst id n hLost).imp_right fun ⟨fails, now, hMem, hPurged⟩ => ?_
        exact ⟨fails, now, List.mem_singleton.mp hMem ▸ List.mem_cons_self, hPurged⟩
      · exact .inr ⟨fails, now, List.mem_cons_of_mem _ hMem, hPurged⟩
    cases c with
    | append args =>
      obtain ⟨hClock, hBound, hStamped⟩ := hStamped
      obtain ⟨hBounds, t', hRest⟩ := ih (hAccounts.append args hStart hClock)
        (Int.le_trans hStart hClock) hBound hStamped hReads
      exact ⟨hBounds, t', hWeaken hBounds.1 (fun _ _ => .inl) hRest⟩
    | aggregatePending fails now =>
      obtain ⟨hClock, hBound, hStamped⟩ := hStamped
      obtain ⟨mid, hMid⟩ := hAccounts.aggregate sql hStart hClock hBound fails
      obtain ⟨hBounds, t', hRest⟩ := ih hMid (Int.le_trans hStart hClock) hBound hStamped hReads
      refine ⟨hBounds, t', hWeaken hBounds.1 (fun id n hLost => hLost.imp_right fun hPurged => ?_) hRest⟩
      exact ⟨fails, now, List.mem_cons_self, hPurged⟩
    | ensureBatteryId fails name =>
      have hSamples (u : Store) : (u.call (.ensureBatteryId fails name)).samples = u.samples := by
        rw [Store.call]
        split <;> rfl
      have hKnown : (t.call (.ensureBatteryId fails name)).known =
          (s.call (.ensureBatteryId fails name)).known := by
        rw [Store.call, Store.call, hAccounts.known]
        split
        · exact hAccounts.known
        · rfl
      have hFirst := hAccounts.congr (hAccounts.registry.extends_lookUp fails name true)
        (hAccounts.refines.ensureBatteryId fails name) hKnown (hSamples s) (hSamples t)
        (h.batteryRowId_same fails name true).dailyEnergy
      obtain ⟨hBounds, t', hRest⟩ := ih hFirst hStart hEnd hStamped hReads
      exact ⟨hBounds, t', hWeaken hBounds.1 (fun _ _ => .inl) hRest⟩
    | lookUp fails name =>
      have hFirst := hAccounts.congr (hAccounts.registry.extends_lookUp fails name false)
        (hAccounts.refines.lookUp fails name) hAccounts.known rfl rfl
        (h.batteryRowId_same fails name false).dailyEnergy
      obtain ⟨hBounds, t', hRest⟩ := ih hFirst hStart hEnd hStamped hReads
      exact ⟨hBounds, t', hWeaken hBounds.1 (fun _ _ => .inl) hRest⟩
    | reopen count ramWindow =>
      have hFirst := hAccounts.congr (hAccounts.registry.extends_reopen count ramWindow)
        (hAccounts.refines.reopen hRead) hAccounts.known rfl rfl rfl
      obtain ⟨hBounds, t', hRest⟩ := ih hFirst hStart hEnd hStamped hReads
      exact ⟨hBounds, t', hWeaken hBounds.1 (fun _ _ => .inl) hRest⟩

theorem Accounts.dailyOf_exact (hAccounts : Accounts s t clock lost h) (hEnd : clock < 9223372036854775808)
    (hBattery : (id, name) ∈ h.db.batteries.rows) (hLow : 0 ≤ day) (hHigh : day < 2786860) :
    h.dailyOf (id, utcDate day) = [] ∨
      ∃ row, h.dailyOf (id, utcDate day) = [row] ∧ HasEnergy (s.readings name day) row := by
  rcases hAccounts.daily (id, utcDate day) with hNone | ⟨name', n, row, hRow, hDate, hLowN, hPast, hOne, hEnergy⟩
  · exact .inl hNone
  · have hBound : dayOf clock < 2786860 := by
      rw [dayOf]
      omega
    obtain rfl : day = n := utcDate_injective hLow hHigh hLowN (by omega) hDate
    obtain rfl : name = name' := name_unique hBattery hRow
    exact .inr ⟨row, hOne, hEnergy⟩

/-- Over any number of processes and with any of the modelled calls of SQLite failing (a `SELECT` gives all
its rows, and a `ROLLBACK` succeeds), each daily row has the sums over all samples of its day that were ever
committed, and an aggregation that can makes up for all that could not: a day over with samples has its row
then, unless it was purged by an aggregation whose calls for it failed. -/
theorem energy_survives (sql : OrderBy (Int × SampleRow)) (ramWindow : Int) (cs : List Call)
    (hStamped : Stamped 0 cs)
    (hReads : Runs.Meets (fun h c => some (h.call sql c)) ReadsBack { ramWindow } cs) (name : String)
    (id : Int) (hBattery : (id, name) ∈ (({ ramWindow } : History).calls sql cs).db.batteries.rows)
    {day : Int} (hLow : 0 ≤ day) (hHigh : day < 2786860) :
    let h := ({ ramWindow } : History).calls sql cs
    let committed := (cs.foldl Store.call {}).readings name day
    (h.dailyOf (id, utcDate day) = [] ∨
      ∃ row, h.dailyOf (id, utcDate day) = [row] ∧ HasEnergy committed row) ∧
    (committed ≠ [] → ∀ fails now, fails .prepareFind = false → Succeeds fails (id, utcDate day) →
      lastStamp 0 cs ≤ now → now < 9223372036854775808 → day < dayOf now →
      (∃ row, (h.aggregatePending sql fails now).dailyOf (id, utcDate day) = [row] ∧
        HasEnergy committed row) ∨ Lost cs id day) := by
  intro h committed
  obtain ⟨⟨hStart, hEnd⟩, t, hAccounts⟩ := (Accounts.initial ramWindow fun _ _ => False).calls
    (Int.le_refl 0) (by decide) hStamped hReads
  refine ⟨hAccounts.dailyOf_exact hEnd hBattery hLow hHigh, ?_⟩
  intro hSome fails now hFind hSucceeds hClock hNow hOver
  obtain ⟨t', hAccounts'⟩ := hAccounts.aggregate sql hStart hClock hNow fails
  have hBattery' : (id, name) ∈ (h.aggregatePending sql fails now).db.batteries.rows := by
    rw [aggregatePending_batteries.1]
    exact hBattery
  rcases hAccounts'.dailyOf_exact hNow hBattery' hLow hHigh with hNone | hRow
  · right
    rcases hAccounts.kept name day with hSame | ⟨-, -, id', hRow, hWhy⟩
    · obtain ⟨id', hRow, hWhy⟩ := hAccounts.aggregated sql hStart hClock hNow hFind hOver
        (fun hNothing => hSome (hSame.symm.trans hNothing))
      obtain rfl := hAccounts.registry.id_unique hBattery hRow
      exact (hWhy.elim (fun hThere => hThere hNone) fun hFails => hFails hSucceeds).elim
    · obtain rfl := hAccounts.registry.id_unique hBattery hRow
      rcases hWhy with hThere | hLost
      · exact absurd hNone (by rwa [dailyOf_stays hThere])
      · exact hLost.resolve_left not_false
  · exact .inl hRow

/-- Two samples of 100 W on the first day, an aggregation on the second that cannot commit the first one's
row, and the program started anew. -/
def failedCommit : List Call := [
  .append { fails := fun _ => false, batteryId := "jk", ts := 0, now := 0, cells := {}
            pack := { voltageMv := 50000, currentMa := 2000 } },
  .append { fails := fun _ => false, batteryId := "jk", ts := 3600000000000, now := 3600000000000, cells := {}
            pack := { voltageMv := 50000, currentMa := 2000 } },
  .aggregatePending (fun call => call = .commit (1, "1970-01-01")) 86400000000000,
  .reopen 1 0]

theorem energy_survives_failedCommit : ∃ row, ((({ ramWindow := 0 } : History).calls .stable
    failedCommit).aggregatePending .stable (fun _ => false) 90000000000000).dailyOf (1, utcDate 0) = [row] ∧
      row.chargedWh = 100 ∧ row.dischargedWh = 0 := by
  have hReadings : (failedCommit.foldl Store.call {}).readings "jk" 0 = [(0, 100), (3600000, 100)] := by
    decide +kernel
  have hMade := (energy_survives .stable 0 failedCommit
    ⟨by decide, by decide, by decide, by decide, by decide, by decide, trivial⟩
    ⟨trivial, trivial, trivial, show (_ : Nat) ≤ 1 by decide +kernel, trivial⟩ "jk" 1 (by decide +kernel)
    (show (0 : Int) ≤ 0 by decide) (by decide)).2
  rw [hReadings] at hMade
  have hNotLost : ¬Lost failedCommit 1 0 := by
    rintro ⟨fails, now, hMem, hPast, -⟩
    simp only [failedCommit, List.mem_cons, reduceCtorEq, Call.aggregatePending.injEq, List.not_mem_nil,
      or_false, false_or] at hMem
    obtain ⟨-, rfl⟩ := hMem
    exact absurd hPast (by decide)
  obtain ⟨row, hRow, hEnergy⟩ := (hMade (List.cons_ne_nil _ _) (fun _ => false) 90000000000000 rfl
    ⟨rfl, rfl, rfl, rfl, rfl⟩ (by decide) (by decide) (by decide)).resolve_right hNotLost
  obtain ⟨hCharged, hDischarged⟩ := hEnergy.of_sorted (by decide)
  exact ⟨row, hRow, hCharged.trans (by decide +kernel), hDischarged.trans (by decide +kernel)⟩

end History

end BmsBridge
