import BmsBridge.History.Months
import BmsBridge.History.Proof.Energy

/-! The rows of a month.  Their dates are compared as texts with the firsts of two months, which agrees
with the calendar as long as year and month are printed with four and two digits. -/

namespace BmsBridge

open Calendar Decimal

/-! ### The texts -/

theorem digit_eq (n : Nat) : digit n = Nat.digitChar (n % 10) := by
  have h : ∀ d : Fin 10, Char.ofNat (48 + d.val) = Nat.digitChar d.val := by decide
  exact h ⟨n % 10, Nat.mod_lt n (by decide)⟩

theorem text_toList (date : Date) : date.text.toList = fixed 4 date.year.toNat ++
    '-' :: (fixed 2 date.month.toNat ++ '-' :: fixed 2 date.day.toNat) := by
  simp [Date.text, fourDigits, twoDigits, fixed, digit_eq, Nat.div_div_eq_div_mul]

theorem firstOfMonth_toList (year month : Nat) : (firstOfMonth year month).toList =
    (padded 4 year ++ '-' :: (padded 2 month ++ ['-', '0', '1'])).take 10 := by
  have hYear : ¬(year : Int) < 0 := by omega
  have hMonth : ¬(month : Int) < 0 := by omega
  rw [firstOfMonth, String.toList_ofList, printed, printed, if_neg hYear, if_neg hMonth,
    Int.toNat_natCast, Int.toNat_natCast]

variable {date : Date} {year month k : Nat}

section Bounds

variable (hDate : date.Printable)

include hDate

/-- The dates before a month that is printed as dates are. -/
theorem text_lt_firstOfMonth (hYear : year ≤ 9999) (hMonth : month ≤ 99) :
    date.text < firstOfMonth year month ↔
      date.year.toNat < year ∨ date.year.toNat = year ∧ date.month.toNat < month := by
  obtain ⟨hYears, hMonths, hDays⟩ := hDate
  have hFirst : (firstOfMonth year month).toList =
      fixed 4 year ++ '-' :: (fixed 2 month ++ '-' :: (fixed 2 1 ++ [])) := by
    rw [firstOfMonth_toList, padded_of_lt (by decide) (by omega), padded_of_lt (by decide) (by omega)]
    refine List.take_of_length_le ?_
    simp
  rw [String.lt_iff_toList_lt, text_toList, hFirst, fixed_lt_iff (by omega) (by omega),
    List.cons_lt_cons_self, fixed_lt_iff (by omega) (by omega), List.cons_lt_cons_self,
    ← List.append_nil (fixed 2 date.day.toNat), fixed_lt_iff (by omega) (by decide)]
  simp only [List.not_lt_nil, and_false, or_false]
  omega

/-- A longer month counts by its first two digits. -/
theorem text_lt_longMonth (hYear : year ≤ 9999) (hLow : 10 ^ (2 + k) ≤ month)
    (hHigh : month < 10 ^ (2 + k + 1)) : date.text < firstOfMonth year month ↔
      date.year.toNat < year ∨
        date.year.toNat = year ∧ date.month.toNat ≤ month / 10 ^ (k + 1) := by
  obtain ⟨hYears, hMonths, -⟩ := hDate
  have hFirst : (firstOfMonth year month).toList = fixed 4 year ++
      '-' :: (fixed 2 (month / 10 ^ (k + 1)) ++ (fixed (k + 1) month ++ ['-', '0', '1']).take 3) := by
    rw [firstOfMonth_toList, padded_of_lt (by decide) (by omega), padded_of_le hLow hHigh,
      List.append_assoc, take_fixed 4 6, List.take_succ_cons, take_fixed 2 3]
  rw [String.lt_iff_toList_lt, text_toList, hFirst, fixed_lt_iff (by omega) (by omega),
    List.cons_lt_cons_self, fixed_lt_iff (by omega) (leading_lt hHigh)]
  have hDash := lt_fixed (c := '-') (by decide) k 2 month (fixed 2 date.day.toNat) ['-', '0', '1']
  simp only [hDash, and_true]
  omega

/-- A longer year counts by its first four digits. -/
theorem text_lt_longYear (hLow : 10 ^ (4 + k) ≤ year) (hHigh : year < 10 ^ (4 + k + 1)) :
    date.text < firstOfMonth year month ↔ date.year.toNat ≤ year / 10 ^ (k + 1) := by
  obtain ⟨hYears, -, -⟩ := hDate
  have hFirst : (firstOfMonth year month).toList = fixed 4 (year / 10 ^ (k + 1)) ++
      (fixed (k + 1) year ++ '-' :: (padded 2 month ++ ['-', '0', '1'])).take 6 := by
    rw [firstOfMonth_toList, padded_of_le hLow hHigh, List.append_assoc, take_fixed 4 6]
  rw [String.lt_iff_toList_lt, text_toList, hFirst, fixed_lt_iff (by omega) (leading_lt hHigh)]
  have hDash := lt_fixed (c := '-') (by decide) k 5 year
    (fixed 2 date.month.toNat ++ '-' :: fixed 2 date.day.toNat)
    ('-' :: (padded 2 month ++ ['-', '0', '1']))
  simp only [hDash, and_true]
  omega

end Bounds

/-! ### The months -/

/-- The dates that the bounds of a month have wrong: they are left out, or taken in. -/
inductive Misplaced (year month : Int) (date : Date) : Prop where
  /-- The next year has five digits, of which the first ones make an earlier year. -/
  | lastMonth (hYear : year = 9999) (hMonth : month = 12) (hIn : date.year = 9999 ∧ date.month = 12)
  /-- The month has three digits or more, of which the first two make an earlier month. -/
  | longMonth (k : Nat) (hRoom : year ≤ 9998) (hIn : date.year = year) (hLow : 10 * 10 ^ (k + 1) ≤ month)
    (hHigh : month < date.month * 10 ^ (k + 1))
  /-- The next year is the date's with zeros behind it. -/
  | longYear (k : Nat) (hMonth : 12 ≤ month) (hYear : year + 1 = date.year * 10 ^ (k + 1))
    (hIn : 1000 < date.year)

theorem ten_le_pow (k : Nat) : (10 : Int) ≤ 10 ^ (k + 1) := by
  have hPos : (0 : Int) < 10 ^ k := Int.pow_pos (by decide)
  rw [Int.pow_succ]
  omega

theorem le_of_longYear {year : Int} {k : Nat} (hYear : year + 1 = date.year * 10 ^ (k + 1))
    (hIn : 1000 < date.year) : 10009 ≤ year := by
  have hProduct : date.year * 10 ≤ date.year * 10 ^ (k + 1) :=
    Int.mul_le_mul_of_nonneg_left (ten_le_pow k) (by omega)
  omega

theorem not_misplaced_of_month {year month : Int} (hMonth : month ≤ 11) :
    ¬Misplaced year month date := by
  rintro (⟨-, rfl, -⟩ | ⟨k, -, -, hLow, -⟩ | ⟨k, hLow, -, -⟩)
  · omega
  · have hPow := ten_le_pow k
    omega
  · omega

/-- A month of two digits, in a year before the last one of four. -/
theorem not_misplaced_of_room {year month : Int} (hYear : year ≤ 9998) (hMonth : month ≤ 99) :
    ¬Misplaced year month date := by
  rintro (⟨rfl, -, -⟩ | ⟨k, -, -, hLow, -⟩ | ⟨k, -, hNext, hIn⟩)
  · omega
  · have hPow := ten_le_pow k
    omega
  · have hFrom := le_of_longYear hNext hIn
    omega

/-- The bounds of a month take a date in. -/
def Between (year month nextYear nextMonth : Int) (date : Date) : Prop :=
  firstOfMonth year month ≤ date.text ∧ date.text < firstOfMonth nextYear nextMonth

section Months

variable (hDate : date.Printable)

include hDate

/-- Within a year. -/
theorem between_of_month (hMonth : month ≤ 11) : Between year month year (month + 1 : Nat) date ↔
    date.year = year ∧ date.month = month := by
  have hYears := hDate.year
  have hMonths := hDate.month
  rw [Between, ← not_lt]
  by_cases hYear : year ≤ 9999
  · rw [text_lt_firstOfMonth hDate hYear (by omega), text_lt_firstOfMonth hDate hYear (by omega)]
    omega
  · have hDigits : 10 ^ 4 ≤ year := by omega
    obtain ⟨k, hLow, hHigh⟩ := exists_digits hDigits
    rw [text_lt_longYear hDate hLow hHigh, text_lt_longYear hDate hLow hHigh]
    omega

/-- From the last month of a year, or one behind it, to the next year. -/
theorem between_of_room (hYear : year ≤ 9998) (hLow : 12 ≤ month) (hHigh : month ≤ 99) :
    Between year month (year + 1 : Nat) (1 : Nat) date ↔ date.year = year ∧ date.month = month := by
  have hYears := hDate.year
  have hMonths := hDate.month
  rw [Between, ← not_lt]
  rw [text_lt_firstOfMonth hDate (by omega) hHigh, text_lt_firstOfMonth hDate (by omega) (by decide)]
  omega

/-- From a month of three digits or more. -/
theorem between_of_longMonth (hYear : year ≤ 9998) (hLow : 10 ^ (2 + k) ≤ month)
    (hHigh : month < 10 ^ (2 + k + 1)) : Between year month (year + 1 : Nat) (1 : Nat) date ↔
      date.year = year ∧ month / 10 ^ (k + 1) < date.month.toNat := by
  have hYears := hDate.year
  have hMonths := hDate.month
  rw [Between, ← not_lt]
  rw [text_lt_longMonth hDate (by omega) hLow hHigh, text_lt_firstOfMonth hDate (by omega) (by decide)]
  omega

theorem not_between_of_lastYear : ¬Between (9999 : Nat) month (9999 + 1 : Nat) (1 : Nat) date := by
  have hYears := hDate.year
  have hMonths := hDate.month
  rw [Between, ← not_lt]
  have hEnd : date.text < firstOfMonth (9999 + 1 : Nat) (1 : Nat) ↔
      date.year.toNat ≤ (9999 + 1) / 10 ^ (0 + 1) := text_lt_longYear hDate (by decide) (by decide)
  rw [hEnd]
  by_cases hRoom : month ≤ 99
  · rw [text_lt_firstOfMonth hDate (by decide) hRoom]
    omega
  · have hDigits : 10 ^ 2 ≤ month := by omega
    obtain ⟨k, hLow, hHigh⟩ := exists_digits hDigits
    rw [text_lt_longMonth hDate (by decide) hLow hHigh]
    omega

/-- From a year of five digits or more to the next one. -/
theorem between_of_longYear {j : Nat} (hLow : 10 ^ (4 + k) ≤ year) (hHigh : year < 10 ^ (4 + k + 1))
    (hLow' : 10 ^ (4 + j) ≤ year + 1) (hHigh' : year + 1 < 10 ^ (4 + j + 1)) :
    Between year month (year + 1 : Nat) (1 : Nat) date ↔
      year / 10 ^ (k + 1) < date.year.toNat ∧ date.year.toNat ≤ (year + 1) / 10 ^ (j + 1) := by
  rw [Between, ← not_lt, text_lt_longYear hDate hLow hHigh, text_lt_longYear hDate hLow' hHigh', not_le]

end Months

/-! ### The dates that are misplaced -/

section Misplaced

variable (hDate : date.Printable)

include hDate

theorem misplaced_longMonth (hYear : year ≤ 9998) : Misplaced year month date ↔ date.year = year ∧
      ∃ j, 10 * 10 ^ (j + 1) ≤ month ∧ month < date.month.toNat * 10 ^ (j + 1) := by
  have hMonths : date.month = (date.month.toNat : Int) :=
    (Int.toNat_of_nonneg (Int.le_trans (by decide) hDate.month.1)).symm
  constructor
  · rintro (⟨hLast, -, -⟩ | ⟨j, -, hIn, hLow, hHigh⟩ | ⟨j, -, hNext, hIn⟩)
    · omega
    · rw [hMonths] at hHigh
      exact ⟨hIn, j, by exact_mod_cast hLow, by exact_mod_cast hHigh⟩
    · have hFrom := le_of_longYear hNext hIn
      omega
  · rintro ⟨hIn, j, hLow, hHigh⟩
    refine .longMonth j (by omega) hIn (by exact_mod_cast hLow) ?_
    rw [hMonths]
    exact_mod_cast hHigh

theorem misplaced_lastYear (hMonth : 12 ≤ month) : Misplaced (9999 : Nat) month date ↔
    date.year = (9999 : Nat) ∧ date.month = month := by
  have hMonths := hDate.month.2
  constructor
  · rintro (⟨-, hLast, hIn⟩ | ⟨j, hRoom, -, -, -⟩ | ⟨j, -, hNext, hIn⟩)
    · omega
    · omega
    · have hFrom := le_of_longYear hNext hIn
      omega
  · rintro ⟨hYear, hIn⟩
    exact .lastMonth rfl (by omega) ⟨hYear, by omega⟩

theorem misplaced_longYear (hYear : 10000 ≤ year) (hMonth : 12 ≤ month) :
    Misplaced year month date ↔
      ∃ i, year + 1 = date.year.toNat * 10 ^ (i + 1) ∧ 1000 < date.year.toNat := by
  have hYears : date.year = (date.year.toNat : Int) := (Int.toNat_of_nonneg hDate.year.1).symm
  constructor
  · rintro (⟨hLast, -, -⟩ | ⟨j, hRoom, -, -, -⟩ | ⟨j, -, hNext, hIn⟩)
    · omega
    · omega
    · rw [hYears] at hNext
      exact ⟨j, by exact_mod_cast hNext, by omega⟩
  · rintro ⟨i, hNext, hIn⟩
    refine .longYear i (by omega) ?_ (by omega)
    rw [hYears]
    exact_mod_cast hNext

/-- The bounds from the last month of a year on are right about a date unless it is misplaced. -/
theorem between_iff_of_late (hMonth : 12 ≤ month) :
    (Between year month (year + 1 : Nat) (1 : Nat) date ↔ date.year = year ∧ date.month = month) ↔
      ¬Misplaced year month date := by
  have hYears := hDate.year
  have hMonths := hDate.month
  rcases Nat.lt_trichotomy year 9999 with hYear | rfl | hYear
  · by_cases hRoom : month ≤ 99
    · exact iff_of_true (between_of_room hDate (by omega) hMonth hRoom)
        (not_misplaced_of_room (by omega) (by omega))
    · have hDigits : 10 ^ 2 ≤ month := by omega
      obtain ⟨k, hLow, hHigh⟩ := exists_digits hDigits
      have hNone : ¬(date.year = year ∧ date.month = month) := by omega
      have hLead : month / 10 ^ (k + 1) < date.month.toNat ↔
          ∃ j, 10 * 10 ^ (j + 1) ≤ month ∧ month < date.month.toNat * 10 ^ (j + 1) :=
        leading_lt_iff (by omega) hLow hHigh
      rw [between_of_longMonth hDate (by omega) hLow hHigh, hLead, misplaced_longMonth hDate (by omega),
        iff_false_right hNone]
  · rw [misplaced_lastYear hDate hMonth, iff_false_left (not_between_of_lastYear hDate)]
  · have hDigits : 10 ^ 4 ≤ year := by omega
    obtain ⟨k, hLow, hHigh⟩ := exists_digits hDigits
    have hDigits' : 10 ^ 4 ≤ year + 1 := by omega
    obtain ⟨j, hLow', hHigh'⟩ := exists_digits hDigits'
    have hNone : ¬(date.year = year ∧ date.month = month) := by omega
    have hLead : year / 10 ^ (k + 1) < date.year.toNat ∧
        date.year.toNat ≤ (year + 1) / 10 ^ (j + 1) ↔
          ∃ i, year + 1 = date.year.toNat * 10 ^ (i + 1) ∧ 1000 < date.year.toNat :=
      leading_between_iff (by omega) hLow hHigh hLow' hHigh'
    rw [between_of_longYear hDate hLow hHigh hLow' hHigh', hLead, misplaced_longYear hDate hYear hMonth,
      iff_false_right hNone]

end Misplaced

/-! ### The queries -/

/-- The sums for the next month stay in the range of an `int`. -/
def HasNext (year month : Int) : Prop := month < 2147483647 ∧ (12 ≤ month → year < 2147483647)

theorem nextMonth_eq_some {year month : Int} {next : Int × Int} : nextMonth year month = some next ↔
    HasNext year month ∧ next = if month ≤ 11 then (year, month + 1) else (year + 1, 1) := by
  simp only [nextMonth, nextInt, HasNext]
  by_cases hNext : month < 2147483647
  · rw [if_pos hNext, Option.bind_some]
    by_cases hMonth : month ≤ 11
    · have hSame : ¬12 < month + 1 := by omega
      rw [if_neg hSame, if_pos hMonth, Option.some.injEq]
      exact ⟨fun h => ⟨⟨hNext, by omega⟩, h.symm⟩, fun h => h.2.symm⟩
    · have hLate : 12 < month + 1 := by omega
      rw [if_pos hLate, if_neg hMonth]
      by_cases hYear : year < 2147483647
      · rw [if_pos hYear, Option.map_some, Option.some.injEq]
        exact ⟨fun h => ⟨⟨hNext, fun _ => hYear⟩, h.symm⟩, fun h => h.2.symm⟩
      · rw [if_neg hYear]
        exact ⟨nofun, fun h => absurd (h.1.2 (by omega)) hYear⟩
  · rw [if_neg hNext]
    exact ⟨nofun, fun h => absurd h.1.1 hNext⟩

/-- The bounds that a query uses are right about a date unless it is misplaced. -/
theorem between_iff {year month : Int} (hYear : 0 < year) (hMonth : 0 < month) {next : Int × Int}
    (hNext : nextMonth year month = some next) (hDate : date.Printable) :
    (Between year month next.1 next.2 date ↔ date.year = year ∧ date.month = month) ↔
      ¬Misplaced year month date := by
  obtain ⟨-, rfl⟩ := nextMonth_eq_some.mp hNext
  obtain ⟨y, rfl⟩ := Int.eq_ofNat_of_zero_le (Int.le_of_lt hYear)
  obtain ⟨m, rfl⟩ := Int.eq_ofNat_of_zero_le (Int.le_of_lt hMonth)
  by_cases hWithin : (m : Int) ≤ 11
  · rw [if_pos hWithin]
    exact iff_of_true (between_of_month hDate (by omega)) (not_misplaced_of_month hWithin)
  · rw [if_neg hWithin]
    exact between_iff_of_late hDate (by omega)

/-- The date of a daily row is one of the calendar, from the years 0 to 9999. -/
def DailyRow.HasDate (row : DailyRow) : Prop := ∃ date : Date, date.Printable ∧ row.date = date.text

namespace History

def HasDates (h : History) : Prop := ∀ row ∈ h.db.dailyEnergy.rows, row.2.HasDate

/-! ### The dates that are written -/

variable {h : History}

theorem HasDates.append (hDates : h.HasDates) (fails : AppendCall → Bool) (name : String)
    (ts now : Int) (cells : JkCellInfo) (pack : JkPackInfo) :
    (h.append fails name ts now cells pack).HasDates := by
  rw [HasDates, append_daily]
  exact hDates

/-- A row is one that was there before, or that of a pending day. -/
theorem HasDates.aggregatePending (hDates : h.HasDates) (sql : OrderBy (Int × SampleRow))
    (fails : AggregateCall → Bool) (now : Int) : (h.aggregatePending sql fails now).HasDates := by
  intro row hRow
  by_cases hFind : fails .prepareFind
  · rw [History.aggregatePending, if_pos hFind] at hRow
    exact hDates row hRow
  · rw [Bool.not_eq_true] at hFind
    have hMem : row.2 ∈ (h.aggregatePending sql fails now).dailyOf (row.2.batteryId, row.2.date) :=
      mem_dailyOf.mpr ⟨⟨row.1, hRow⟩, rfl, rfl⟩
    rw [dailyOf_aggregatePending hFind] at hMem
    split at hMem
    · rename_i hPending
      obtain ⟨sample, -, -, -, hDate, -⟩ := mem_findPending.mp hPending.1
      rw [sqliteDate] at hDate
      split at hDate
      · exact ⟨_, ofDays_printable (by omega) (by omega), (Option.some.inj hDate).symm⟩
      · cases hDate
    · obtain ⟨⟨id, hOld⟩, -⟩ := mem_dailyOf.mp hMem
      exact hDates (id, row.2) hOld

/-- The rows that a run writes have dates of the calendar. -/
theorem HasDates.acts (hDates : h.HasDates) (sql : OrderBy (Int × SampleRow)) (events : List Event) :
    (h.acts sql events).HasDates := by
  induction events generalizing h with
  | nil => exact hDates
  | cons event events ih =>
    apply ih
    cases event with
    | append batteryId now cells pack =>
      rw [act]
      exact hDates.append (fun _ => false) batteryId now now cells pack
    | aggregate now =>
      rw [act]
      exact hDates.aggregatePending sql (fun _ => false) now

end History

/-! ### The months that are found -/

theorem map_filter_perm_iff {α β : Type} {f : α → β} (hf : f.Injective) {p q : α → Bool} {xs : List α} :
    ((xs.filter p).map f).Perm ((xs.filter q).map f) ↔ ∀ x ∈ xs, p x = q x := by
  constructor
  · intro hPerm x hx
    have hMem := hPerm.mem_iff (a := f x)
    rw [List.mem_map_of_injective hf, List.mem_map_of_injective hf, List.mem_filter, List.mem_filter,
      and_iff_right hx, and_iff_right hx] at hMem
    exact Bool.eq_iff_iff.mpr hMem
  · intro hSame
    rw [List.filter_congr hSame]

namespace History

variable (h : History)

/-- The rows of a battery in a month. -/
def monthRows (battery year month : Int) : List DailyRow :=
  (h.db.dailyEnergy.rows.map Prod.snd).filter fun row => row.batteryId = battery ∧
    (Date.ofText row.date).year = year ∧ (Date.ofText row.date).month = month

/-- These rows, and no others, in the order of their dates. -/
structure MonthOf (battery year month : Int) (found : List DailyEnergy) : Prop where
  rows : found.Perm ((h.monthRows battery year month).map h.dailyEnergy)
  ascending : found.Pairwise fun a b => a.date ≤ b.date

theorem dailyEnergy_injective : h.dailyEnergy.Injective := by
  intro row row' hSame
  simp only [dailyEnergy, DailyEnergy.mk.injEq] at hSame
  obtain ⟨hBattery, -, hDate, hCharged, hDischarged⟩ := hSame
  cases row
  cases row'
  simp_all

/-- The rows that a query finds, with texts as its bounds. -/
def dailyBetween (battery : Int) (monthStart monthEnd : String) : List DailyRow :=
  (h.db.dailyEnergy.rows.map Prod.snd).filter fun row =>
    row.batteryId = battery ∧ monthStart ≤ row.date ∧ row.date < monthEnd

theorem getDailyEnergy_eq_some {battery year month : Int} {found : List DailyEnergy} :
    h.getDailyEnergy battery year month = some found ↔ ∃ next, nextMonth year month = some next ∧
      ((h.dailyBetween battery (firstOfMonth year month) (firstOfMonth next.1 next.2)).insertionSort
        fun a b => a.date ≤ b.date).map h.dailyEnergy = found :=
  Option.map_eq_some_iff

variable {h} {battery year month : Int}

/-- A sorted list of rows is that of a month if and only if it has them all and no others. -/
theorem monthOf_sorted {rows : List DailyRow} :
    h.MonthOf battery year month ((rows.insertionSort fun a b => a.date ≤ b.date).map h.dailyEnergy) ↔
      (rows.map h.dailyEnergy).Perm ((h.monthRows battery year month).map h.dailyEnergy) := by
  have hPerm := (rows.perm_insertionSort fun a b => a.date ≤ b.date).map h.dailyEnergy
  have hTotal : Std.Total fun a b : DailyRow => a.date ≤ b.date := ⟨fun a b => le_total a.date b.date⟩
  have hTrans : IsTrans DailyRow fun a b => a.date ≤ b.date := ⟨fun _ _ _ => le_trans⟩
  constructor
  · intro hMonth
    exact hPerm.symm.trans hMonth.rows
  · intro hRows
    refine ⟨hPerm.trans hRows, ?_⟩
    rw [List.pairwise_map]
    exact rows.pairwise_insertionSort fun a b => a.date ≤ b.date

/-- A query finds a month if and only if none of the battery's dates is misplaced. -/
theorem monthOf_iff (hDates : h.HasDates) (battery : Int) (hYear : 0 < year) (hMonth : 0 < month)
    {next : Int × Int} (hNext : nextMonth year month = some next) :
    h.MonthOf battery year month
        (((h.dailyBetween battery (firstOfMonth year month) (firstOfMonth next.1 next.2)).insertionSort
          fun a b => a.date ≤ b.date).map h.dailyEnergy) ↔
      ∀ row ∈ h.db.dailyEnergy.rows, row.2.batteryId = battery →
        ¬Misplaced year month (Date.ofText row.2.date) := by
  rw [monthOf_sorted, dailyBetween, monthRows, map_filter_perm_iff h.dailyEnergy_injective,
    List.forall_mem_map]
  refine forall₂_congr fun row hRow => ?_
  obtain ⟨date, hDate, hText⟩ := hDates row hRow
  rw [hText, ofText_text hDate, ← between_iff hYear hMonth hNext hDate, decide_eq_decide, Between]
  by_cases hBattery : row.2.batteryId = battery
  · rw [and_iff_right hBattery, and_iff_right hBattery, forall_prop_of_true hBattery]
  · simp only [hBattery, false_and, false_implies]

theorem getDailyEnergy_of_placed (hDates : h.HasDates) (battery : Int) (hYear : 0 < year)
    (hMonth : 0 < month) (hRange : HasNext year month)
    (hPlaced : ∀ row ∈ h.db.dailyEnergy.rows, row.2.batteryId = battery →
      ¬Misplaced year month (Date.ofText row.2.date)) :
    ∃ found, h.getDailyEnergy battery year month = some found ∧
      h.MonthOf battery year month found := by
  have hNext := nextMonth_eq_some.mpr ⟨hRange, rfl⟩
  exact ⟨_, h.getDailyEnergy_eq_some.mpr ⟨_, hNext, rfl⟩,
    (monthOf_iff hDates battery hYear hMonth hNext).mpr hPlaced⟩

/-- A query for a month returns exactly its rows if and only if the next month is in range and none of
the battery's dates is misplaced. -/
theorem getDailyEnergy_exact_iff (h : History) (hDates : h.HasDates) (battery : Int) {year month : Int}
    (hYear : 0 < year) (hMonth : 0 < month) :
    (∃ found, h.getDailyEnergy battery year month = some found ∧
        h.MonthOf battery year month found) ↔
      HasNext year month ∧ ∀ row ∈ h.db.dailyEnergy.rows, row.2.batteryId = battery →
        ¬Misplaced year month (Date.ofText row.2.date) := by
  constructor
  · rintro ⟨found, hFound, hExact⟩
    obtain ⟨next, hNext, rfl⟩ := h.getDailyEnergy_eq_some.mp hFound
    exact ⟨(nextMonth_eq_some.mp hNext).1, (monthOf_iff hDates battery hYear hMonth hNext).mp hExact⟩
  · rintro ⟨hRange, hPlaced⟩
    exact getDailyEnergy_of_placed hDates battery hYear hMonth hRange hPlaced

/-- A battery's rows of a day in May and one in November. -/
def twoDays : History where
  db := { dailyEnergy := ["2026-05-31", "2026-11-05"].foldl (fun rows date => rows.insert {
    batteryId := 1
    date
    chargedWh := 2
    dischargedWh := 1 }) ∅ }

theorem twoDays_dates : twoDays.HasDates := by
  intro row hRow
  rcases List.mem_pair.mp hRow with rfl | rfl
  · exact ⟨⟨2026, 5, 31⟩, ⟨by decide, by decide, by decide⟩, by decide⟩
  · exact ⟨⟨2026, 11, 5⟩, ⟨by decide, by decide, by decide⟩, by decide⟩

theorem getDailyEnergy_exact_may : ∃ found, twoDays.getDailyEnergy 1 2026 5 = some found ∧
    twoDays.MonthOf 1 2026 5 found :=
  (getDailyEnergy_exact_iff twoDays twoDays_dates 1 (by decide) (by decide)).mpr
    ⟨⟨by decide, by decide⟩, fun _ _ _ => not_misplaced_of_month (by decide)⟩

/-- The query for month 100 finds the day in November. -/
theorem november_in_month_100 : ¬∀ (h : History), h.HasDates → ∀ battery year month : Int,
      0 < year → 0 < month → ∃ found, h.getDailyEnergy battery year month = some found ∧
        h.MonthOf battery year month found := by
  intro h
  obtain ⟨found, hFound, hExact⟩ := h twoDays twoDays_dates 1 2026 100 (by decide) (by decide)
  have hNovember : twoDays.getDailyEnergy 1 2026 100 = some [
      { batteryId := 1, batteryName := "", date := "2026-11-05", chargedWh := 2, dischargedWh := 1 }] := by
    decide +kernel
  have hNone : twoDays.monthRows 1 2026 100 = [] := by decide +kernel
  rw [hNovember] at hFound
  cases hFound
  have hLength := hExact.rows.length_eq
  rw [hNone] at hLength
  cases hLength

end History

end BmsBridge
