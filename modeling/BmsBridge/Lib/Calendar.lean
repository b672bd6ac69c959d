/-! The civil calendar: days since 1970-01-01, dates, and their text `YYYY-MM-DD` as it is printed
and read again. -/

namespace Calendar

@[ext] structure Date where
  year : Int
  month : Int
  day : Int
  deriving DecidableEq, Repr

/-- A day since 0000-03-01 as 400, 100, 4 years and single ones, and the day of its year.  Years
begin in March, so that a leap day is the last of its year. -/
structure Parts where
  era : Int
  century : Int
  quad : Int
  year : Int
  inYear : Int

def Parts.ofDay (day : Int) : Parts :=
  let inEra := day % 146097
  let century := min (inEra / 36524) 3
  let inCentury := inEra - 36524 * century
  let year := min (inCentury % 1461 / 365) 3
  { era := day / 146097, century, quad := inCentury / 1461, year
    inYear := inCentury % 1461 - 365 * year }

def Parts.years (p : Parts) : Int := 400 * p.era + 100 * p.century + 4 * p.quad + p.year

def Parts.date (p : Parts) : Date :=
  let month := (5 * p.inYear + 2) / 153
  { year := if month < 10 then p.years else p.years + 1
    month := if month < 10 then month + 3 else month - 9
    day := p.inYear - (153 * month + 2) / 5 + 1 }

def ofDays (days : Int) : Date := (Parts.ofDay (days + 719468)).date

def toDays (date : Date) : Int :=
  let year := if date.month ≤ 2 then date.year - 1 else date.year
  let month := if date.month ≤ 2 then date.month + 9 else date.month - 3
  365 * year + year / 4 - year / 100 + year / 400 + (153 * month + 2) / 5 + date.day - 1 - 719468

example : ofDays 0 = ⟨1970, 1, 1⟩ ∧ ofDays 11016 = ⟨2000, 2, 29⟩ ∧ ofDays 20593 = ⟨2026, 5, 20⟩ := by
  decide

structure Parts.Bounded (p : Parts) : Prop where
  century : 0 ≤ p.century ∧ p.century ≤ 3
  quad : 0 ≤ p.quad ∧ p.quad ≤ 24
  year : 0 ≤ p.year ∧ p.year ≤ 3
  inYear : 0 ≤ p.inYear ∧ p.inYear ≤ 365

theorem Parts.ofDay_bounded (day : Int) : (Parts.ofDay day).Bounded := by
  have hLow := Int.emod_nonneg day (b := 146097) (by decide)
  have hHigh := Int.emod_lt_of_pos day (b := 146097) (by decide)
  have hCentury : 0 ≤ day % 146097 - 36524 * min (day % 146097 / 36524) 3 ∧
      day % 146097 - 36524 * min (day % 146097 / 36524) 3 ≤ 36524 := by
    omega
  constructor <;> simp only [ofDay] <;> omega

theorem Parts.ofDay_sum (day : Int) : 146097 * (Parts.ofDay day).era +
    36524 * (Parts.ofDay day).century + 1461 * (Parts.ofDay day).quad +
    365 * (Parts.ofDay day).year + (Parts.ofDay day).inYear = day := by
  simp only [ofDay]
  omega

/-- The days in front of a year that begins in March. -/
theorem Parts.Bounded.days {p : Parts} (h : p.Bounded) :
    365 * p.years + p.years / 4 - p.years / 100 + p.years / 400 =
      146097 * p.era + 36524 * p.century + 1461 * p.quad + 365 * p.year := by
  obtain ⟨hCentury, hQuad, hYear, -⟩ := h
  have hQuads : p.years / 4 = 100 * p.era + 25 * p.century + p.quad := by
    rw [years]
    omega
  have hCenturies : p.years / 100 = 4 * p.era + p.century := by
    rw [years]
    omega
  have hEras : p.years / 400 = p.era := by
    rw [years]
    omega
  rw [hQuads, hCenturies, hEras, years]
  omega

theorem Parts.Bounded.toDays_date {p : Parts} (h : p.Bounded) : toDays p.date =
    365 * p.years + p.years / 4 - p.years / 100 + p.years / 400 + p.inYear - 719468 := by
  obtain ⟨-, -, -, hInYear⟩ := h
  simp only [toDays, date]
  by_cases hMonth : (5 * p.inYear + 2) / 153 < 10
  · have hLate : ¬(5 * p.inYear + 2) / 153 + 3 ≤ 2 := by omega
    simp only [hMonth, if_true, hLate, if_false]
    omega
  · have hEarly : (5 * p.inYear + 2) / 153 - 9 ≤ 2 := by omega
    simp only [hMonth, if_false, hEarly, if_true, Int.add_sub_cancel]
    omega

theorem toDays_ofDays (days : Int) : toDays (ofDays days) = days := by
  have hBounded := Parts.ofDay_bounded (days + 719468)
  have hSum := Parts.ofDay_sum (days + 719468)
  rw [ofDays, hBounded.toDays_date, hBounded.days]
  omega

/-- The date's parts are ones that its text has room for. -/
structure Date.Printable (date : Date) : Prop where
  year : 0 ≤ date.year ∧ date.year ≤ 9999
  month : 1 ≤ date.month ∧ date.month ≤ 12
  day : 1 ≤ date.day ∧ date.day ≤ 31

/-- The days of the years 0 to 9999, of which the first ones belong to a year that began before. -/
theorem ofDays_printable {days : Int} (hLow : -719528 ≤ days) (hHigh : days ≤ 2932896) :
    (ofDays days).Printable := by
  have hSum := Parts.ofDay_sum (days + 719468)
  obtain ⟨hCentury, hQuad, hYear, hInYear⟩ := Parts.ofDay_bounded (days + 719468)
  rw [ofDays]
  generalize Parts.ofDay (days + 719468) = p at *
  have hEra : -1 ≤ p.era ∧ p.era ≤ 24 := by omega
  have hFirst : p.era = -1 → p.century = 3 ∧ p.quad = 24 ∧ p.year = 3 ∧ 306 ≤ p.inYear := by omega
  have hLast : p.era = 24 → p.century = 3 → p.quad = 24 → p.year = 3 → p.inYear ≤ 305 := by omega
  have hYears : 0 ≤ p.date.year ∧ p.date.year ≤ 9999 := by
    simp only [Parts.date, Parts.years]
    by_cases hBefore : p.era = -1
    · have hFirst := hFirst hBefore
      omega
    · omega
  constructor
  · exact hYears
  · simp only [Parts.date]
    omega
  · simp only [Parts.date]
    omega

/-- The days from 1970 on, as far as the last year but one. -/
theorem ofDays_year {days : Int} (hLow : 0 ≤ days) (hHigh : days ≤ 2932531) :
    0 < (ofDays days).year ∧ (ofDays days).year ≤ 9998 := by
  have hSum := Parts.ofDay_sum (days + 719468)
  obtain ⟨hCentury, hQuad, hYear, hInYear⟩ := Parts.ofDay_bounded (days + 719468)
  rw [ofDays]
  generalize Parts.ofDay (days + 719468) = p at *
  have hEra : 4 ≤ p.era ∧ p.era ≤ 24 := by omega
  have hLast : p.era = 24 → p.century = 3 → p.quad = 24 → p.year = 3 → False := by omega
  have hNext : p.era = 24 → p.century = 3 → p.quad = 24 → p.year = 2 → p.inYear ≤ 305 := by omega
  simp only [Parts.date, Parts.years]
  omega

/-! ### The text -/

def digit (n : Nat) : Char := Char.ofNat (48 + n % 10)

def twoDigits (n : Nat) : List Char := [digit (n / 10), digit n]

def fourDigits (n : Nat) : List Char := [digit (n / 1000), digit (n / 100), digit (n / 10), digit n]

/-- The format `%04d-%02d-%02d` of a date that has room. -/
def Date.text (date : Date) : String :=
  String.ofList (fourDigits date.year.toNat ++ '-' :: twoDigits date.month.toNat ++
    '-' :: twoDigits date.day.toNat)

/-- A number up to `hi` at the front of a text, of at most so many more digits. -/
def readDigits (hi : Nat) : Nat → Nat → List Char → Nat × List Char
  | width + 1, value, c :: cs =>
    if c.isDigit ∧ 10 * value ≤ hi then readDigits hi width (10 * value + (c.toNat - 48)) cs
    else (value, c :: cs)
  | _, value, cs => (value, cs)

def readNumber (lo hi width : Nat) (cs : List Char) : Option (Nat × List Char) :=
  if (cs.head?.map Char.isDigit).getD false then
    let (value, rest) := readDigits hi width 0 cs
    if lo ≤ value ∧ value ≤ hi then some (value, rest) else none
  else none

/-- The date that `strptime` reads with `%Y-%m-%d` into an empty `tm`; what it does not reach stays
as it is. -/
def Date.ofText (text : String) : Date :=
  match readNumber 0 9999 4 text.toList with
  | some (year, '-' :: cs) =>
    match readNumber 1 12 2 cs with
    | some (month, '-' :: cs) =>
      match readNumber 1 31 2 cs with
      | some (day, _) => { year, month, day }
      | none => { year, month, day := 0 }
    | some (month, _) => { year, month, day := 0 }
    | none => { year, month := 1, day := 0 }
  | some (year, _) => { year, month := 1, day := 0 }
  | none => { year := 1900, month := 1, day := 0 }

theorem digit_reads (n : Nat) : (digit n).isDigit ∧ (digit n).toNat - 48 = n % 10 := by
  have h : ∀ d : Fin 10, (Char.ofNat (48 + d.val)).isDigit ∧
      (Char.ofNat (48 + d.val)).toNat - 48 = d.val := by
    decide
  exact h ⟨n % 10, Nat.mod_lt n (by decide)⟩

theorem readNumber_twoDigits (lo hi : Nat) {n : Nat} (hLow : lo ≤ n) (hHigh : n ≤ hi) (hRoom : n ≤ 99)
    (cs : List Char) : readNumber lo hi 2 (twoDigits n ++ cs) = some (n, cs) := by
  have hValue : 10 * (n / 10 % 10) + n % 10 = n := by omega
  have hNext : 10 * (n / 10 % 10) ≤ hi := by omega
  simp only [readNumber, twoDigits, List.cons_append, List.nil_append, List.head?_cons,
    Option.map_some, Option.getD_some, digit_reads, readDigits, Nat.mul_zero, Nat.zero_add,
    Nat.zero_le, hNext, hValue, hLow, hHigh, and_self, if_true]

theorem readNumber_fourDigits {n : Nat} (hRoom : n ≤ 9999) (cs : List Char) :
    readNumber 0 9999 4 (fourDigits n ++ cs) = some (n, cs) := by
  have hSecond : 10 * (n / 1000 % 10) + n / 100 % 10 = n / 100 := by omega
  have hThird : 10 * (n / 100) + n / 10 % 10 = n / 10 := by omega
  have hValue : 10 * (n / 10) + n % 10 = n := by omega
  have hFirst : 10 * (n / 1000 % 10) ≤ 9999 ∧ 10 * (n / 100) ≤ 9999 ∧ 10 * (n / 10) ≤ 9999 := by
    omega
  simp only [readNumber, fourDigits, List.cons_append, List.nil_append, List.head?_cons,
    Option.map_some, Option.getD_some, digit_reads, readDigits, Nat.mul_zero, Nat.zero_add,
    Nat.zero_le, hSecond, hThird, hValue, hFirst, hRoom, and_self, if_true]

theorem ofText_text {date : Date} (h : date.Printable) : Date.ofText date.text = date := by
  obtain ⟨hYear, hMonth, hDay⟩ := h
  have hCs : date.text.toList = fourDigits date.year.toNat ++ ('-' :: (twoDigits date.month.toNat ++
      ('-' :: (twoDigits date.day.toNat ++ [])))) := by
    simp [Date.text]
  have hReadYear := readNumber_fourDigits (n := date.year.toNat) (by omega)
  have hReadMonth := readNumber_twoDigits 1 12 (n := date.month.toNat)
    (by omega) (by omega) (by omega)
  have hReadDay := readNumber_twoDigits 1 31 (n := date.day.toNat)
    (by omega) (by omega) (by omega)
  simp only [Date.ofText, hCs, hReadYear, hReadMonth, hReadDay]
  exact Date.ext (by simp only; omega) (by simp only; omega) (by simp only; omega)

example : (ofDays 20593).text = "2026-05-20" := by decide

end Calendar
