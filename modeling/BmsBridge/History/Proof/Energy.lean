import BmsBridge.History.Proof.Daily
import Mathlib.Algebra.Order.Ring.Rat
import Mathlib.Data.List.Induction
import Mathlib.Tactic.Abel

/-! Over a run of appends and aggregations, each complete day with samples gets one daily row, with
the trapezoidal sums over all samples that were ever appended. -/

namespace BmsBridge

/-! ### The sums of a day -/

/-- The trapezoid over the time between two readings: the mean of the powers in W, and ms to hours. -/
def trapezoidWh (a b : Int × Rat) : Rat := (a.2 + b.2) / 2 * (b.1 - a.1) / 3600000

/-- The energies between samples that follow each other. -/
def segmentsWh (samples : List (Int × Rat)) : List Rat := samples.zipWith trapezoidWh samples.tail

def chargedWh (samples : List (Int × Rat)) : Rat := ((segmentsWh samples).filter (0 < ·)).sum

def dischargedWh (samples : List (Int × Rat)) : Rat :=
  (((segmentsWh samples).filter fun wh => ¬0 < wh).map fun wh => -wh).sum

theorem segmentWh_eq (a b : Int × Rat) : segmentWh a b = trapezoidWh a b := by
  rw [segmentWh, trapezoidWh, mul_div_assoc]

/-- The loop over a day's samples puts each trapezoid on one of the two sums. -/
theorem foldl_add_some (samples : List (Int × Rat)) (prev : Int × Rat) (charged discharged : Rat) :
    let e := samples.foldl Integration.add { prev := some prev, charged, discharged }
    e.charged = charged + chargedWh (prev :: samples) ∧
      e.discharged = discharged + dischargedWh (prev :: samples) := by
  induction samples generalizing prev charged discharged with
  | nil => simp [chargedWh, dischargedWh, segmentsWh]
  | cons sample samples ih =>
    have hSegments : segmentsWh (prev :: sample :: samples) =
        trapezoidWh prev sample :: segmentsWh (sample :: samples) := rfl
    rw [List.foldl_cons, Integration.add]
    simp only [chargedWh, dischargedWh, hSegments, segmentWh_eq]
    by_cases hCharged : 0 < trapezoidWh prev sample
    · obtain ⟨hIn, hOut⟩ := ih sample (charged + trapezoidWh prev sample) discharged
      rw [if_pos hCharged, List.filter_cons_of_pos (by simpa using hCharged),
        List.filter_cons_of_neg (by simpa using hCharged), List.sum_cons]
      exact ⟨hIn.trans (add_assoc ..), hOut⟩
    · obtain ⟨hIn, hOut⟩ := ih sample charged (discharged - trapezoidWh prev sample)
      rw [if_neg hCharged, List.filter_cons_of_neg (by simpa using hCharged),
        List.filter_cons_of_pos (by simpa using hCharged), List.map_cons, List.sum_cons]
      refine ⟨hIn, hOut.trans ?_⟩
      rw [sub_eq_add_neg]
      exact add_assoc ..

theorem foldl_add (samples : List (Int × Rat)) :
    (samples.foldl Integration.add {}).charged = chargedWh samples ∧
      (samples.foldl Integration.add {}).discharged = dischargedWh samples := by
  cases samples with
  | nil => exact ⟨rfl, rfl⟩
  | cons sample samples =>
    obtain ⟨hIn, hOut⟩ := foldl_add_some samples sample 0 0
    exact ⟨hIn.trans (zero_add _), hOut.trans (zero_add _)⟩

namespace History

/-! ### Runs -/

/-- What the program does with its history; an append is stamped with the clock. -/
inductive Event where
  | append (batteryId : String) (now : Int) (cells : JkCellInfo) (pack : JkPackInfo)
  | aggregate (now : Int)

def Event.now : Event → Int
  | .append _ now _ _ => now
  | .aggregate now => now

/-- No call of SQLite fails. -/
def act (sql : OrderBy (Int × SampleRow)) (h : History) : Event → History
  | .append batteryId now cells pack => h.append (fun _ => false) batteryId now now cells pack
  | .aggregate now => h.aggregatePending sql (fun _ => false) now

def acts (sql : OrderBy (Int × SampleRow)) (h : History) (events : List Event) : History :=
  events.foldl (act sql) h

/-- The clock does not go back; it counts nanoseconds from 1970, in 64 bits. -/
structure Clocked (events : List Event) : Prop where
  ordered : (events.map Event.now).Pairwise (· ≤ ·)
  bounds : ∀ event ∈ events, 0 ≤ event.now ∧ event.now < 9223372036854775808

/-- The day of a time point, in UTC. -/
def dayOf (now : Int) : Int := now / 86400000000000

/-- Time stamp and power of a sample. -/
def reading (now : Int) (pack : JkPackInfo) : Int × Rat :=
  (toMs now, pack.voltageMv.toInt * pack.currentMa.toInt / 1000000)

/-- The samples appended for a battery on a day. -/
def appended (events : List Event) (name : String) (day : Int) : List (Int × Rat) :=
  events.filterMap fun
    | .append batteryId now _ pack =>
      if batteryId = name ∧ dayOf now = day then some (reading now pack) else none
    | .aggregate _ => none

/-- A daily row with the sums over samples, in an order of their time stamps. -/
def HasEnergy (samples : List (Int × Rat)) (row : DailyRow) : Prop :=
  ∃ order : List (Int × Rat), order.Perm samples ∧ order.Pairwise (fun a b => a.1 ≤ b.1) ∧
    row.chargedWh = BmsBridge.chargedWh order ∧ row.dischargedWh = BmsBridge.dischargedWh order

/-- Where no two samples share a time, there is one order. -/
theorem HasEnergy.of_sorted {samples : List (Int × Rat)} {row : DailyRow} (h : HasEnergy samples row)
    (hSorted : samples.Pairwise fun a b => a.1 < b.1) :
    row.chargedWh = BmsBridge.chargedWh samples ∧ row.dischargedWh = BmsBridge.dischargedWh samples := by
  obtain ⟨order, hPerm, hOrder, hCharged, hDischarged⟩ := h
  have hSame : order = samples := by
    refine List.Perm.eq_of_pairwise (fun a b ha hb hLe hGe => ?_) hOrder
      (hSorted.imp Int.le_of_lt) hPerm
    by_contra hNe
    have : Std.Symm fun a b : Int × Rat => a.1 ≠ b.1 := ⟨fun _ _ h => h.symm⟩
    exact (hSorted.imp Int.ne_of_lt).forall (hPerm.mem_iff.mp ha) hb hNe (Int.le_antisymm hLe hGe)
  exact ⟨hSame ▸ hCharged, hSame ▸ hDischarged⟩

/-- The samples of a battery on a day, as they are in the table. -/
def dayReadings (h : History) (id day : Int) : List (Int × Rat) :=
  (h.db.samples.rows.filter fun row => row.2.batteryId = id ∧ row.2.tsMs / 86400000 = day).map
    fun row => row.2.power

/-- What a run has made of the history, at the time of its last event. -/
structure Consistent (events : List Event) (clock : Int) (h : History) : Prop where
  registered : h.Registered
  owned : ∀ row ∈ h.db.samples.rows, (∃ name, h.batteryIdCache.lookup name = some row.2.batteryId) ∧
    0 ≤ row.2.tsMs ∧ row.2.tsMs ≤ toMs clock
  known : ∀ name day, appended events name day ≠ [] → h.batteryIdCache.lookup name ≠ none
  complete : ∀ name id day, h.batteryIdCache.lookup name = some id →
    h.dailyOf (id, utcDate day) = [] → h.dayReadings id day = appended events name day
  daily : ∀ day, h.dailyOf day = [] ∨ ∃ name n row, h.batteryIdCache.lookup name = some day.1 ∧
    day.2 = utcDate n ∧ 0 ≤ n ∧ n < dayOf clock ∧ h.dailyOf day = [row] ∧
    HasEnergy (appended events name n) row

section Steps

variable {sql : OrderBy (Int × SampleRow)} {events : List Event} {clock now : Int} {h : History}

theorem toMs_of_nonneg (h : 0 ≤ now) : toMs now = now / 1000000 := Int.tdiv_eq_ediv_of_nonneg h

theorem dayOf_eq (h : 0 ≤ now) : toMs now / 86400000 = dayOf now := by
  rw [toMs_of_nonneg h]
  unfold dayOf
  omega

theorem appended_append (events : List Event) (event : Event) (name : String) (day : Int) :
    appended (events ++ [event]) name day = appended events name day ++ appended [event] name day :=
  List.filterMap_append

theorem appended_one (batteryId name : String) (cells : JkCellInfo) (pack : JkPackInfo) (day : Int) :
    appended [.append batteryId now cells pack] name day =
      if batteryId = name ∧ dayOf now = day then [reading now pack] else [] := by
  simp only [appended, List.filterMap_cons, List.filterMap_nil]
  split <;> rename_i h <;> split at h <;> simp_all

theorem power_ofSample (id : Int) (cells : JkCellInfo) (pack : JkPackInfo) :
    (SampleRow.ofSample id (toMs now) cells pack).power = reading now pack := by
  have hVoltage : columnInt pack.voltageMv.toInt = pack.voltageMv := Int32.ofInt_toInt _
  have hCurrent : columnInt pack.currentMa.toInt = pack.currentMa := Int32.ofInt_toInt _
  rw [SampleRow.power, SampleRow.ofSample, hVoltage, hCurrent, reading]

theorem Consistent.initial (ramWindow : Int) : Consistent [] 0 { ramWindow } where
  registered := registered_initial ramWindow
  owned := fun _ hRow => absurd hRow List.not_mem_nil
  known := fun _ _ hNew => absurd rfl hNew
  complete := fun _ _ _ hLookup => by cases hLookup
  daily := fun _ => .inl rfl

/-- The samples of a day before an append do not change any more. -/
theorem appended_past {name batteryId : String} {cells : JkCellInfo} {pack : JkPackInfo} {day : Int}
    (hPast : day < dayOf now) :
    appended (events ++ [.append batteryId now cells pack]) name day = appended events name day := by
  have hOther : ¬(batteryId = name ∧ dayOf now = day) := by
    rintro ⟨-, rfl⟩
    omega
  rw [appended_append, appended_one, if_neg hOther, List.append_nil]

theorem dayReadings_insert {h' : History} {s : SampleRow}
    (hSamples : h'.db.samples = h.db.samples.insert s) (id day : Int) :
    h'.dayReadings id day = h.dayReadings id day ++
      if s.batteryId = id ∧ s.tsMs / 86400000 = day then [s.power] else [] := by
  rw [dayReadings, hSamples, Table.rows_insert, List.filter_append, List.map_append, ← dayReadings]
  by_cases hDay : s.batteryId = id ∧ s.tsMs / 86400000 = day
  · rw [if_pos hDay, List.filter_cons_of_pos (by simpa using hDay)]
    rfl
  · rw [if_neg hDay, List.filter_cons_of_neg (by simpa using hDay)]
    rfl

theorem dailyOf_congr {h' : History} (hDaily : h'.db.dailyEnergy = h.db.dailyEnergy)
    (day : PendingDay) : h'.dailyOf day = h.dailyOf day := by
  unfold dailyOf
  rw [hDaily]

/-- A battery that the cache does not know has no samples. -/
theorem Consistent.fresh {h' : History} {name : String} {id : Int}
    (hConsistent : Consistent events clock h) (hResolved : h.Resolved name id h')
    (hNew : h.batteryIdCache.lookup name = none) (day : Int) :
    h.dayReadings id day = [] ∧ appended events name day = [] := by
  constructor
  · unfold dayReadings
    rw [List.map_eq_nil_iff, List.filter_eq_nil_iff]
    intro row hRow hDay
    obtain ⟨⟨owner, hOwner⟩, -⟩ := hConsistent.owned row hRow
    rw [(of_decide_eq_true hDay).1] at hOwner
    have hSame := hResolved.registered.distinct owner name id (hResolved.keeps hOwner) hResolved.self
    rw [hSame, hNew] at hOwner
    cases hOwner
  · exact not_not.mp fun hSome => hConsistent.known name day hSome hNew

theorem Consistent.append (hConsistent : Consistent events clock h) (hStart : 0 ≤ clock)
    (hClock : clock ≤ now) (batteryId : String) (cells : JkCellInfo) (pack : JkPackInfo) :
    Consistent (events ++ [.append batteryId now cells pack]) now
      (h.append (fun _ => false) batteryId now now cells pack) := by
  have hNow : 0 ≤ now := Int.le_trans hStart hClock
  have hDaily := h.append_daily (fun _ => false) batteryId now now cells pack
  obtain ⟨id, hResolved, hSamples⟩ :=
    append_succeeds batteryId hConsistent.registered now now cells pack
  generalize h.append (fun _ => false) batteryId now now cells pack = h' at *
  refine ⟨hResolved.registered, ?owned, ?known, ?complete, ?daily⟩
  case owned =>
    intro row hRow
    rw [hSamples, Table.rows_insert] at hRow
    have hStamp : toMs clock ≤ toMs now := by
      rw [toMs_of_nonneg hStart, toMs_of_nonneg hNow]
      exact Int.ediv_le_ediv (by decide) hClock
    rcases List.mem_append.mp hRow with hRow | hRow
    · obtain ⟨⟨name, hOwner⟩, hLow, hHigh⟩ := hConsistent.owned row hRow
      exact ⟨⟨name, hResolved.keeps hOwner⟩, hLow, Int.le_trans hHigh hStamp⟩
    · rw [List.mem_singleton.mp hRow]
      exact ⟨⟨batteryId, hResolved.self⟩, Int.tdiv_nonneg hNow (by decide), Int.le_refl _⟩
  case known =>
    intro name day hSome
    by_cases hName : batteryId = name
    · rw [← hName, hResolved.self]
      exact nofun
    · rw [appended_append, appended_one, if_neg fun h => hName h.1, List.append_nil] at hSome
      rw [hResolved.others name (Ne.symm hName)]
      exact hConsistent.known name day hSome
  case complete =>
    intro name other day hLookup hNone
    rw [dailyOf_congr hDaily] at hNone
    rw [dayReadings_insert hSamples, power_ofSample, appended_append, appended_one]
    by_cases hName : batteryId = name
    · subst hName
      obtain rfl : id = other := Option.some.inj (hResolved.self.symm.trans hLookup)
      have hOld : h.dayReadings id day = appended events batteryId day := by
        rcases hResolved.same with hKnown | hNew
        · exact hConsistent.complete batteryId id day hKnown hNone
        · obtain ⟨hRows, hEvents⟩ := hConsistent.fresh hResolved hNew day
          rw [hRows, hEvents]
      have hToday : toMs now / 86400000 = day ↔ dayOf now = day := by rw [dayOf_eq hNow]
      simp only [hOld, SampleRow.ofSample, true_and, hToday]
    · have hOther : id ≠ other := by
        rintro rfl
        exact hName (hResolved.registered.distinct batteryId name id hResolved.self hLookup)
      rw [hResolved.others name (Ne.symm hName)] at hLookup
      rw [if_neg fun h => hOther h.1, if_neg fun h => hName h.1, List.append_nil, List.append_nil]
      exact hConsistent.complete name other day hLookup hNone
  case daily =>
    intro day
    rw [dailyOf_congr hDaily]
    rcases hConsistent.daily day with
      hNone | ⟨name, n, row, hLookup, hDate, hLow, hPast, hRow, hEnergy⟩
    · exact .inl hNone
    · have hLater : n < dayOf now := Int.lt_of_lt_of_le hPast (Int.ediv_le_ediv (by decide) hClock)
      refine .inr ⟨name, n, row, hResolved.keeps hLookup, hDate, hLow, hLater, hRow, ?_⟩
      rwa [appended_past hLater]

/-- The sums are over the samples in the order that the query gives them. -/
theorem integrate_energy (id : Int) {n : Int} (hLow : 0 ≤ n) (hHigh : n < 2786860) :
    HasEnergy (h.dayReadings id n)
      (dailyRow (id, utcDate n) (h.integrate sql (id, utcDate n))) := by
  let rows := h.db.samples.rows.filter fun row => row.2.batteryId = id ∧ row.2.tsMs / 86400000 = n
  have hRows : h.db.samples.rows.filter (fun row => row.2.batteryId = id ∧
      dayStart (utcDate n) ≤ row.2.tsMs ∧ row.2.tsMs < dayStart (utcDate n) + 86400000) = rows := by
    refine List.filter_congr fun row _ => decide_eq_decide.mpr ?_
    rw [dayStart_utcDate hLow hHigh]
    omega
  let order := sql.sort (fun row => row.2.tsMs) rows
  have hSums : h.integrate sql (id, utcDate n) =
      (order.map fun row => row.2.power).foldl Integration.add {} := by
    rw [integrate, hRows, List.foldl_map]
  obtain ⟨hCharged, hDischarged⟩ := foldl_add (order.map fun row => row.2.power)
  refine ⟨order.map fun row => row.2.power, ?_, ?_, ?_, ?_⟩
  · exact (sql.perm (fun row => row.2.tsMs) rows).map _
  · exact List.pairwise_map.mpr (sql.sorted (fun row => row.2.tsMs) rows)
  · rw [dailyRow, hSums, hCharged]
  · rw [dailyRow, hSums, hDischarged]

/-- A day over with samples and without a daily row is pending. -/
theorem Consistent.pending (hConsistent : Consistent events clock h) (hStart : 0 ≤ clock)
    (hEnd : clock < 9223372036854775808) {row : Int × SampleRow} (hRow : row ∈ h.db.samples.rows)
    (hOver : row.2.tsMs < todayMs now)
    (hNone : h.dailyOf (row.2.batteryId, utcDate (row.2.tsMs / 86400000)) = []) :
    (row.2.batteryId, utcDate (row.2.tsMs / 86400000)) ∈ h.findPending (todayMs now) := by
  obtain ⟨-, hLow, hHigh⟩ := hConsistent.owned row hRow
  rw [toMs_of_nonneg hStart] at hHigh
  have hDated : Dated row.2.tsMs := ⟨hLow, by omega⟩
  exact mem_findPending.mpr ⟨row, hRow, hOver, rfl, hDated.sqliteDate, hNone⟩

theorem dailyOf_act (day : PendingDay) : (h.act sql (.aggregate now)).dailyOf day =
    if day ∈ h.findPending (todayMs now) then [dailyRow day (h.integrate sql day)]
    else h.dailyOf day := by
  have hSucceeds : Succeeds (fun _ => false) day := ⟨rfl, rfl, rfl, rfl, rfl⟩
  rw [act, dailyOf_aggregatePending rfl]
  simp only [hSucceeds, and_true]

/-- The purge reaches no sample of a day that has still to be aggregated. -/
theorem Consistent.dayReadings_act (hConsistent : Consistent events clock h) (hStart : 0 ≤ clock)
    (hEnd : clock < 9223372036854775808) (id day : Int)
    (hNone : (h.act sql (.aggregate now)).dailyOf (id, utcDate day) = []) :
    (h.act sql (.aggregate now)).dayReadings id day = h.dayReadings id day := by
  rw [dailyOf_act] at hNone
  split at hNone
  · cases hNone
  · rename_i hIdle
    unfold dayReadings act
    rcases aggregatePending_rows (h := h) with hAll | ⟨-, hPurged⟩
    · rw [hAll]
    · rw [hPurged, List.filter_filter]
      refine congrArg _ (List.filter_congr fun row hRow => ?_)
      rw [Bool.and_eq_left_iff_imp]
      intro hDay
      obtain ⟨rfl, rfl⟩ := of_decide_eq_true hDay
      refine (Bool.not_eq_true' _).mpr (decide_eq_false fun hOld => hIdle ?_)
      refine hConsistent.pending hStart hEnd hRow ?_ hNone
      rw [purgeMs] at hOld
      omega

/-- The row that a pending day gets has the sums over all samples that were appended. -/
theorem Consistent.integrate_pending (hConsistent : Consistent events clock h) (hStart : 0 ≤ clock)
    (hClock : clock ≤ now) (hEnd : now < 9223372036854775808) {day : PendingDay}
    (hPending : day ∈ h.findPending (todayMs now)) :
    ∃ name n, h.batteryIdCache.lookup name = some day.1 ∧ day.2 = utcDate n ∧ 0 ≤ n ∧
      n < dayOf now ∧ HasEnergy (appended events name n) (dailyRow day (h.integrate sql day)) := by
  obtain ⟨row, hRow, hOver, hId, hDate, hNone⟩ := mem_findPending.mp hPending
  obtain ⟨⟨name, hOwner⟩, hLow, hHigh⟩ := hConsistent.owned row hRow
  rw [toMs_of_nonneg hStart] at hHigh
  rw [todayMs_of_nonneg (Int.le_trans hStart hClock)] at hOver
  have hDated : Dated row.2.tsMs := ⟨hLow, by omega⟩
  rw [hDated.sqliteDate, Option.some.injEq] at hDate
  obtain rfl : day = (row.2.batteryId, utcDate (row.2.tsMs / 86400000)) :=
    Prod.ext hId.symm hDate.symm
  refine ⟨name, row.2.tsMs / 86400000, hOwner, rfl, by omega, ?_, ?_⟩
  · unfold dayOf
    omega
  · rw [← hConsistent.complete name _ _ hOwner hNone]
    exact integrate_energy _ (by omega) (by omega)

theorem Consistent.aggregate (hConsistent : Consistent events clock h) (hStart : 0 ≤ clock)
    (hClock : clock ≤ now) (hEnd : now < 9223372036854775808) :
    Consistent (events ++ [.aggregate now]) now (h.act sql (.aggregate now)) := by
  have hNow : 0 ≤ now := Int.le_trans hStart hClock
  have hClockEnd : clock < 9223372036854775808 := Int.lt_of_le_of_lt hClock hEnd
  have hEvents (name : String) (day : Int) :
      appended (events ++ [.aggregate now]) name day = appended events name day := by
    rw [appended_append]
    exact List.append_nil _
  have hBatteries : (h.act sql (.aggregate now)).db.batteries = h.db.batteries :=
    aggregatePending_batteries.1
  have hCache : (h.act sql (.aggregate now)).batteryIdCache = h.batteryIdCache :=
    aggregatePending_batteries.2
  refine ⟨?registered, ?owned, ?known, ?complete, ?daily⟩
  case registered => exact hConsistent.registered.congr hBatteries hCache
  case owned =>
    intro row hRow
    obtain ⟨hOwner, hLow, hHigh⟩ := hConsistent.owned row (mem_of_mem_aggregatePending hRow)
    rw [hCache]
    refine ⟨hOwner, hLow, Int.le_trans hHigh ?_⟩
    rw [toMs_of_nonneg hStart, toMs_of_nonneg hNow]
    exact Int.ediv_le_ediv (by decide) hClock
  case known =>
    intro name day hSome
    rw [hEvents] at hSome
    rw [hCache]
    exact hConsistent.known name day hSome
  case complete =>
    intro name id day hLookup hNone
    rw [hCache] at hLookup
    rw [hEvents, hConsistent.dayReadings_act hStart hClockEnd id day hNone]
    rw [dailyOf_act] at hNone
    split at hNone
    · cases hNone
    · exact hConsistent.complete name id day hLookup hNone
  case daily =>
    intro day
    rw [dailyOf_act, hCache]
    split
    · rename_i hPending
      obtain ⟨name, n, hOwner, hDate, hLow, hPast, hEnergy⟩ :=
        hConsistent.integrate_pending hStart hClock hEnd hPending
      exact .inr ⟨name, n, _, hOwner, hDate, hLow, hPast, rfl, hEvents name n ▸ hEnergy⟩
    · rcases hConsistent.daily day with
        hNone | ⟨name, n, row, hLookup, hDate, hLow, hPast, hRow, hEnergy⟩
      · exact .inl hNone
      · have hLater : n < dayOf now := Int.lt_of_lt_of_le hPast (Int.ediv_le_ediv (by decide) hClock)
        refine .inr ⟨name, n, row, hLookup, hDate, hLow, hLater, hRow, ?_⟩
        rwa [hEvents]

/-! ### Later calls -/

theorem dailyOf_act_stays {day : PendingDay} (hSome : h.dailyOf day ≠ []) (event : Event) :
    (h.act sql event).dailyOf day = h.dailyOf day := by
  cases event with
  | append batteryId now cells pack =>
    exact dailyOf_congr (h.append_daily (fun _ => false) batteryId now now cells pack) day
  | aggregate now =>
    rw [dailyOf_act]
    apply if_neg
    intro hPending
    obtain ⟨-, -, -, -, -, hNone⟩ := mem_findPending.mp hPending
    exact hSome hNone

theorem dailyOf_acts_stays {day : PendingDay} (hSome : h.dailyOf day ≠ []) (later : List Event) :
    (h.acts sql later).dailyOf day = h.dailyOf day := by
  induction later generalizing h with
  | nil => rfl
  | cons event later ih =>
    have hStep : (h.act sql event).dailyOf day = h.dailyOf day := dailyOf_act_stays hSome event
    exact (ih (hStep ▸ hSome)).trans hStep

/-- Nothing is pending after a call. -/
theorem findPending_act : (h.act sql (.aggregate now)).findPending (todayMs now) = [] := by
  rw [List.eq_nil_iff_forall_not_mem]
  intro day hDay
  obtain ⟨row, hRow, hOver, hId, hDate, hNone⟩ := mem_findPending.mp hDay
  rw [dailyOf_act] at hNone
  split at hNone
  · cases hNone
  · rename_i hIdle
    exact hIdle (mem_findPending.mpr
      ⟨row, mem_of_mem_aggregatePending hRow, hOver, hId, hDate, hNone⟩)

theorem act_again : (h.act sql (.aggregate now)).act sql (.aggregate now) =
    h.act sql (.aggregate now) := by
  generalize hDone : h.act sql (.aggregate now) = done
  rw [act, aggregatePending_eq rfl, ← hDone, if_pos findPending_act]

/-! ### Whole runs -/

/-- The time of the last event. -/
def clockOf (events : List Event) : Int := (events.map Event.now).getLastD 0

theorem clockOf_append (events : List Event) (event : Event) :
    clockOf (events ++ [event]) = event.now := by
  rw [clockOf, List.map_append, List.map_singleton, List.getLastD_concat]

theorem Clocked.clockOf (hClocked : Clocked events) :
    0 ≤ clockOf events ∧ clockOf events < 9223372036854775808 := by
  rcases List.eq_nil_or_concat events with rfl | ⟨before, event, rfl⟩
  · decide
  · rw [List.concat_eq_append, clockOf_append]
    exact hClocked.bounds event (by simp)

theorem Clocked.init {event : Event} (hClocked : Clocked (events ++ [event])) :
    Clocked events ∧ History.clockOf events ≤ event.now := by
  obtain ⟨hOrdered, hBounds⟩ := hClocked
  rw [List.map_append, List.pairwise_append] at hOrdered
  refine ⟨⟨hOrdered.1, fun e he => hBounds e (List.mem_append_left _ he)⟩, ?_⟩
  rcases List.eq_nil_or_concat events with rfl | ⟨before, last, rfl⟩
  · exact (hBounds event (by simp)).1
  · rw [List.concat_eq_append, clockOf_append]
    exact hOrdered.2.2 _ (by simp) _ (by simp)

theorem Consistent.step {event : Event} (hConsistent : Consistent events clock h) (hStart : 0 ≤ clock)
    (hClock : clock ≤ event.now) (hEnd : event.now < 9223372036854775808) :
    Consistent (events ++ [event]) event.now (h.act sql event) := by
  cases event with
  | append batteryId now cells pack => exact hConsistent.append hStart hClock batteryId cells pack
  | aggregate now => exact hConsistent.aggregate hStart hClock hEnd

theorem Consistent.run (ramWindow : Int) (hClocked : Clocked events) :
    Consistent events (clockOf events) (acts sql { ramWindow } events) := by
  induction events using List.reverseRecOn with
  | nil => exact Consistent.initial ramWindow
  | append_singleton events event ih =>
    obtain ⟨hBefore, hClock⟩ := hClocked.init
    have hEnd := (hClocked.bounds event (by simp)).2
    rw [clockOf_append, acts, List.foldl_append]
    exact (ih hBefore).step hBefore.clockOf.1 hClock hEnd

/-- Events that come later are on later days than those that are over. -/
theorem appended_later {later : List Event} {name : String} {day : Int} (hPast : day < dayOf now)
    (hLater : ∀ event ∈ later, now ≤ event.now) : appended later name day = [] := by
  rw [appended, List.filterMap_eq_nil_iff]
  intro event hEvent
  have hDay : dayOf now ≤ dayOf event.now := Int.ediv_le_ediv (by decide) (hLater event hEvent)
  cases event with
  | append batteryId now' cells pack =>
    apply if_neg
    rintro ⟨-, rfl⟩
    rw [Event.now] at hDay
    omega
  | aggregate now' => rfl

theorem Clocked.appended_nonneg {name : String} {day : Int} (hClocked : Clocked events)
    (hSome : appended events name day ≠ []) : 0 ≤ day := by
  by_contra hBefore
  refine hSome (List.filterMap_eq_nil_iff.mpr fun event hEvent => ?_)
  have hNow := (hClocked.bounds event hEvent).1
  cases event with
  | append batteryId now cells pack =>
    apply if_neg
    rintro ⟨-, rfl⟩
    rw [Event.now] at hNow
    exact hBefore (Int.ediv_nonneg hNow (by decide))
  | aggregate now => rfl

/-- With nothing pending, a day that is over and had samples has its daily row. -/
theorem Consistent.dailyOf_over {name : String} {day : Int} (hConsistent : Consistent events now h)
    (hStart : 0 ≤ now) (hEnd : now < 9223372036854775808) (hIdle : h.findPending (todayMs now) = [])
    (hLow : 0 ≤ day) (hPast : day < dayOf now) (hSome : appended events name day ≠ []) :
    ∃ id row, (id, name) ∈ h.db.batteries.rows ∧ h.dailyOf (id, utcDate day) = [row] ∧
      HasEnergy (appended events name day) row := by
  obtain ⟨id, hLookup⟩ := Option.ne_none_iff_exists'.mp (hConsistent.known name day hSome)
  have hStored := hConsistent.registered.stored name id hLookup
  rcases hConsistent.daily (id, utcDate day) with
    hNone | ⟨other, n, row, hOther, hDate, hLowN, hPastN, hRow, hEnergy⟩
  · exfalso
    rw [← hConsistent.complete name id day hLookup hNone, dayReadings, ne_eq, List.map_eq_nil_iff]
      at hSome
    obtain ⟨sample, hSample⟩ := List.exists_mem_of_ne_nil _ hSome
    obtain ⟨hMem, hDay⟩ := List.mem_filter.mp hSample
    obtain ⟨rfl, rfl⟩ := of_decide_eq_true hDay
    have hOver : sample.2.tsMs < todayMs now := by
      rw [todayMs_of_nonneg hStart]
      rw [dayOf] at hPast
      omega
    have hPending := hConsistent.pending hStart hEnd hMem hOver hNone
    rw [hIdle] at hPending
    cases hPending
  · obtain rfl : name = other := hConsistent.registered.distinct name other id hLookup hOther
    have hBound : dayOf now < 2786860 := by
      rw [dayOf]
      omega
    obtain rfl : day = n := utcDate_injective hLow (by omega) hLowN (by omega) hDate
    exact ⟨id, row, hStored, hRow, hEnergy⟩

/-- After an aggregation, every day that is over and had samples has its daily row, with the sums
over all of them.  It stays as it is, and the same call once more does nothing. -/
theorem aggregated_once (sql : OrderBy (Int × SampleRow)) (ramWindow : Int) (events : List Event)
    (now : Int) (hClocked : Clocked (events ++ [.aggregate now])) :
    let h := acts sql { ramWindow } (events ++ [.aggregate now])
    (∀ name day, appended events name day ≠ [] → day < dayOf now →
      ∃ id row, (id, name) ∈ h.db.batteries.rows ∧ h.dailyOf (id, utcDate day) = [row] ∧
        HasEnergy (appended events name day) row ∧
        ∀ later, (h.acts sql later).dailyOf (id, utcDate day) = [row] ∧
          (Clocked (events ++ .aggregate now :: later) →
            HasEnergy (appended (events ++ .aggregate now :: later) name day) row)) ∧
    h.act sql (.aggregate now) = h := by
  intro h
  have hRun : h = (acts sql { ramWindow } events).act sql (.aggregate now) := List.foldl_append ..
  refine ⟨fun name day hSome hPast => ?_, hRun ▸ act_again⟩
  have hConsistent : Consistent (events ++ [.aggregate now]) now h := by
    have hConsistent : Consistent _ _ h := Consistent.run ramWindow hClocked
    rwa [clockOf_append] at hConsistent
  obtain ⟨hStart, hEnd⟩ := hClocked.bounds (.aggregate now) (by simp)
  have hEvents : appended (events ++ [.aggregate now]) name day = appended events name day := by
    rw [appended_append]
    exact List.append_nil _
  rw [← hEvents] at hSome
  obtain ⟨id, row, hStored, hRow, hEnergy⟩ := hConsistent.dailyOf_over hStart hEnd
    (hRun ▸ findPending_act) (hClocked.appended_nonneg hSome) hPast hSome
  rw [hEvents] at hEnergy
  refine ⟨id, row, hStored, hRow, hEnergy, fun later => ⟨?_, fun hAll => ?_⟩⟩
  · rw [dailyOf_acts_stays (hRow ▸ List.cons_ne_nil row []), hRow]
  · have hOrdered := hAll.ordered
    rw [List.map_append, List.map_cons, List.pairwise_append, List.pairwise_cons] at hOrdered
    have hLater : ∀ event ∈ later, now ≤ event.now := fun event hEvent =>
      hOrdered.2.1.1 _ (List.mem_map_of_mem hEvent)
    have hNone : appended later name day = [] := appended_later hPast hLater
    have hWhole : appended (events ++ .aggregate now :: later) name day = appended events name day := by
      rw [appended, List.filterMap_append, List.filterMap_cons_none rfl, ← appended, ← appended, hNone,
        List.append_nil]
    rwa [hWhole]

/-- Two samples of 100 W an hour apart on the first day, and an aggregation on the second: 100 Wh. -/
theorem aggregated_once_two :
    ∃ id row, (acts .stable {} [.append "jk" 0 {} { voltageMv := 50000, currentMa := 2000 },
        .append "jk" 3600000000000 {} { voltageMv := 50000, currentMa := 2000 },
        .aggregate 86400000000000]).dailyOf (id, utcDate 0) = [row] ∧
      row.chargedWh = 100 ∧ row.dischargedWh = 0 := by
  have hOnce := aggregated_once .stable 0
    [.append "jk" 0 {} { voltageMv := 50000, currentMa := 2000 },
      .append "jk" 3600000000000 {} { voltageMv := 50000, currentMa := 2000 }]
    86400000000000 ⟨by decide, by decide⟩
  obtain ⟨id, row, -, hRow, hEnergy, -⟩ := hOnce.1 "jk" 0 (by decide +kernel) (by decide)
  have hSamples : appended [.append "jk" 0 {} { voltageMv := 50000, currentMa := 2000 },
      .append "jk" 3600000000000 {} { voltageMv := 50000, currentMa := 2000 }] "jk" 0 =
        [(0, 100), (3600000, 100)] := by decide +kernel
  rw [hSamples] at hEnergy
  obtain ⟨hCharged, hDischarged⟩ := hEnergy.of_sorted (by decide)
  exact ⟨id, row, hRow, hCharged.trans (by decide +kernel), hDischarged.trans (by decide +kernel)⟩

end Steps

end History

end BmsBridge
