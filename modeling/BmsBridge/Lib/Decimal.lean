import Mathlib.Algebra.Order.Group.Nat
import Mathlib.Data.Nat.Log
import Mathlib.Data.String.Basic

/-! Numbers that are printed with leading zeros, and the order of the texts that begin with them. -/

namespace Decimal

/-- `%0*d` of a number that is not negative. -/
def padded (width n : Nat) : List Char := (Nat.toDigits 10 n).leftpad width '0'

/-- `%0*d`, in which the sign counts. -/
def printed (width : Nat) (n : Int) : List Char :=
  if n < 0 then '-' :: padded (width - 1) n.natAbs else padded width n.toNat

/-- So many of the last digits of a number. -/
def fixed : Nat → Nat → List Char
  | 0, _ => []
  | width + 1, n => fixed width (n / 10) ++ [Nat.digitChar (n % 10)]

@[simp] theorem length_fixed (width n : Nat) : (fixed width n).length = width := by
  induction width generalizing n with
  | zero => rfl
  | succ width ih => rw [fixed, List.length_append, ih, List.length_singleton]

theorem fixed_add (front back n : Nat) :
    fixed (front + back) n = fixed front (n / 10 ^ back) ++ fixed back n := by
  induction back generalizing n with
  | zero => simp [fixed]
  | succ back ih =>
    rw [← Nat.add_assoc, fixed, ih, fixed, Nat.div_div_eq_div_mul, ← Nat.pow_succ', List.append_assoc]

theorem fixed_zero (width : Nat) : fixed width 0 = List.replicate width '0' := by
  induction width with
  | zero => rfl
  | succ width ih => rw [fixed, Nat.zero_div, ih, List.replicate_succ']; rfl

/-- A number that has room. -/
theorem padded_of_lt {width n : Nat} (hWidth : 0 < width) (h : n < 10 ^ width) :
    padded width n = fixed width n := by
  induction width generalizing n with
  | zero => cases hWidth
  | succ width ih =>
    rw [padded, Nat.toDigits_eq_if (by decide), fixed]
    split
    · rename_i hDigit
      rw [Nat.div_eq_of_lt hDigit, Nat.mod_eq_of_lt hDigit, fixed_zero]
      rfl
    · rename_i hDigits
      have hRoom : n / 10 < 10 ^ width := by
        rw [Nat.pow_succ] at h
        omega
      have hLeft : 0 < width := by
        rcases Nat.eq_zero_or_pos width with rfl | hPos
        · omega
        · exact hPos
      rw [← ih hLeft hRoom, padded, List.leftpad, List.leftpad, List.length_append,
        List.length_singleton, Nat.add_sub_add_right, List.append_assoc]

/-- A number that has no room is printed with all of its digits. -/
theorem padded_of_le {width k n : Nat} (hLow : 10 ^ (width + k) ≤ n) (hHigh : n < 10 ^ (width + k + 1)) :
    padded width n = fixed width (n / 10 ^ (k + 1)) ++ fixed (k + 1) n := by
  have hLength : width + k + 1 ≤ (Nat.toDigits 10 n).length := by
    rcases Nat.eq_zero_or_pos (width + k) with hZero | hPos
    · rw [hZero]
      exact Nat.length_toDigits_pos
    · have hNot := (not_congr (Nat.length_toDigits_le_iff (by decide) hPos)).mpr (Nat.not_lt.mpr hLow)
      omega
  have hDigits : ∀ w, w ≤ width + k + 1 → padded w n = Nat.toDigits 10 n := by
    intro w hw
    rw [padded, List.leftpad, Nat.sub_eq_zero_of_le (by omega)]
    rfl
  rw [← fixed_add, ← Nat.add_assoc, hDigits width (by omega), ← hDigits _ (Nat.le_refl _),
    padded_of_lt (by omega) hHigh]

/-- Every number without room is in one of these intervals. -/
theorem exists_digits {width n : Nat} (h : 10 ^ width ≤ n) :
    ∃ k, 10 ^ (width + k) ≤ n ∧ n < 10 ^ (width + k + 1) := by
  have hn : n ≠ 0 := Nat.ne_of_gt (Nat.lt_of_lt_of_le (Nat.pow_pos (by decide)) h)
  have hLog := (Nat.le_log_iff_pow_le (by decide) hn).mpr h
  refine ⟨Nat.log 10 n - width, ?_⟩
  rw [Nat.add_sub_cancel' hLog]
  exact ⟨Nat.pow_log_le_self 10 hn, Nat.lt_pow_succ_log_self (by decide) n⟩

/-- The digits that are printed first. -/
theorem leading_lt {width k n : Nat} (hHigh : n < 10 ^ (width + k + 1)) :
    n / 10 ^ (k + 1) < 10 ^ width := by
  rw [Nat.add_assoc, Nat.pow_add, Nat.mul_comm] at hHigh
  exact Nat.div_lt_of_lt_mul hHigh

/-! ### The order -/

theorem digitChar_lt (m n : Nat) :
    Nat.digitChar (m % 10) < Nat.digitChar (n % 10) ↔ m % 10 < n % 10 := by
  have h : ∀ m n : Fin 10, Nat.digitChar m.val < Nat.digitChar n.val ↔ m.val < n.val := by decide
  exact h ⟨m % 10, Nat.mod_lt m (by decide)⟩ ⟨n % 10, Nat.mod_lt n (by decide)⟩

theorem digitChar_inj (m n : Nat) :
    Nat.digitChar (m % 10) = Nat.digitChar (n % 10) ↔ m % 10 = n % 10 := by
  have h : ∀ m n : Fin 10, Nat.digitChar m.val = Nat.digitChar n.val ↔ m.val = n.val := by decide
  exact h ⟨m % 10, Nat.mod_lt m (by decide)⟩ ⟨n % 10, Nat.mod_lt n (by decide)⟩

/-- Texts that begin with as many digits are in the order of the numbers first. -/
theorem fixed_lt_iff {width m n : Nat} (hm : m < 10 ^ width) (hn : n < 10 ^ width) (xs ys : List Char) :
    fixed width m ++ xs < fixed width n ++ ys ↔ m < n ∨ m = n ∧ xs < ys := by
  induction width generalizing m n xs ys with
  | zero =>
    have hm : m = 0 := by simpa using hm
    have hn : n = 0 := by simpa using hn
    simp [fixed, hm, hn]
  | succ width ih =>
    rw [Nat.pow_succ] at hm hn
    rw [fixed, fixed, List.append_assoc, List.append_assoc, ih (by omega) (by omega),
      List.singleton_append, List.singleton_append, List.cons_lt_cons_iff, digitChar_lt, digitChar_inj]
    constructor
    · rintro (h | ⟨h, h' | ⟨h', hRest⟩⟩)
      · exact .inl (by omega)
      · exact .inl (by omega)
      · exact .inr ⟨by omega, hRest⟩
    · rintro (h | ⟨rfl, hRest⟩)
      · omega
      · exact .inr ⟨rfl, .inr ⟨rfl, hRest⟩⟩

/-- What sorts before the digits sorts before a text that goes on with one. -/
theorem lt_fixed {c : Char} (hc : c < '0') (k room n : Nat) (xs ys : List Char) :
    c :: xs < (fixed (k + 1) n ++ ys).take (room + 1) := by
  have hDigit : ∀ d : Fin 10, '0' ≤ Nat.digitChar d.val := by decide
  have hFirst := hDigit ⟨n / 10 ^ k % 10, Nat.mod_lt _ (by decide)⟩
  rw [Nat.add_comm k, fixed_add, fixed, fixed, List.nil_append, List.singleton_append, List.cons_append,
    List.take_succ_cons, List.cons_lt_cons_iff]
  exact .inl (lt_of_lt_of_le hc hFirst)

theorem take_fixed (width room n : Nat) (xs : List Char) :
    (fixed width n ++ xs).take (width + room) = fixed width n ++ xs.take room := by
  rw [List.take_append, length_fixed, Nat.add_sub_cancel_left, List.take_of_length_le (by simp)]

/-- How many digits a number has. -/
theorem digits_unique {j k n : Nat} (hj : 10 ^ j ≤ n ∧ n < 10 ^ (j + 1))
    (hk : 10 ^ k ≤ n ∧ n < 10 ^ (k + 1)) : j = k := by
  have hLow := (Nat.pow_lt_pow_iff_right (a := 10) (by decide)).mp (Nat.lt_of_le_of_lt hj.1 hk.2)
  have hHigh := (Nat.pow_lt_pow_iff_right (a := 10) (by decide)).mp (Nat.lt_of_le_of_lt hk.1 hj.2)
  omega

/-! ### Leading digits -/

section Leading

variable {width k n m : Nat}

theorem pow_leading (width j : Nat) : 10 ^ width * 10 ^ (j + 1) = 10 ^ (width + 1 + j) := by
  rw [← Nat.pow_add]
  apply congrArg
  omega

/-- The leading digits of a number are below another number if and only if that one, with zeros behind
it, is above it. -/
theorem leading_lt_iff (hm : m ≤ 10 ^ (width + 1)) (hLow : 10 ^ (width + 1 + k) ≤ n)
    (hHigh : n < 10 ^ (width + 1 + k + 1)) :
    n / 10 ^ (k + 1) < m ↔ ∃ j, 10 ^ width * 10 ^ (j + 1) ≤ n ∧ n < m * 10 ^ (j + 1) := by
  constructor
  · intro h
    rw [Nat.div_lt_iff_lt_mul (Nat.pow_pos (by decide))] at h
    exact ⟨k, (pow_leading width k).trans_le hLow, h⟩
  · rintro ⟨j, hFrom, hTo⟩
    rw [pow_leading] at hFrom
    have hDigits : n < 10 ^ (width + 1 + j + 1) := by
      apply Nat.lt_of_lt_of_le hTo
      have hBound := Nat.mul_le_mul_right (10 ^ (j + 1)) hm
      rwa [← Nat.pow_add, ← Nat.add_assoc] at hBound
    have hSame := digits_unique ⟨hFrom, hDigits⟩ ⟨hLow, hHigh⟩
    obtain rfl : j = k := by omega
    rwa [Nat.div_lt_iff_lt_mul (Nat.pow_pos (by decide))]

/-- Other digits lead the next number if and only if nothing but zeros is behind them. -/
theorem leading_between_iff {j : Nat} (hm : m < 10 ^ (width + 1)) (hLow : 10 ^ (width + 1 + k) ≤ n)
    (hHigh : n < 10 ^ (width + 1 + k + 1)) (hLow' : 10 ^ (width + 1 + j) ≤ n + 1)
    (hHigh' : n + 1 < 10 ^ (width + 1 + j + 1)) :
    n / 10 ^ (k + 1) < m ∧ m ≤ (n + 1) / 10 ^ (j + 1) ↔
      ∃ i, n + 1 = m * 10 ^ (i + 1) ∧ 10 ^ width < m := by
  have hPos (i : Nat) : 0 < 10 ^ (i + 1) := Nat.pow_pos (by decide)
  rw [Nat.div_lt_iff_lt_mul (hPos k), Nat.le_div_iff_mul_le (hPos j)]
  constructor
  · rintro ⟨hAbove, hBelow⟩
    have hLarge : 10 ^ width < m := by
      by_contra hSmall
      have hBound := Nat.mul_le_mul_right (10 ^ (k + 1)) (Nat.not_lt.mp hSmall)
      rw [pow_leading] at hBound
      omega
    refine ⟨k, ?_, hLarge⟩
    by_cases hRoom : n + 1 < 10 ^ (width + 1 + k + 1)
    · have hSame := digits_unique ⟨hLow', hHigh'⟩ ⟨by omega, hRoom⟩
      obtain rfl : j = k := by omega
      omega
    · -- The next number has one more digit, and begins with a power of ten.
      have hRound : 10 ^ (width + 1 + k + 1) ≤ n + 1 ∧ n + 1 < 10 ^ (width + 1 + k + 1 + 1) := by
        rw [Nat.pow_succ 10 (width + 1 + k + 1)]
        omega
      have hNext := digits_unique ⟨hLow', hHigh'⟩ hRound
      obtain rfl : j = k + 1 := by omega
      have hBound := Nat.mul_lt_mul_of_pos_right hLarge (hPos (k + 1))
      rw [pow_leading, ← Nat.add_assoc] at hBound
      omega
  · rintro ⟨i, hProduct, hLarge⟩
    have hBelow := Nat.mul_le_mul_right (10 ^ (i + 1)) (Nat.succ_le_of_lt hLarge)
    rw [Nat.succ_mul, pow_leading] at hBelow
    have hAbove := Nat.mul_lt_mul_of_pos_right hm (hPos i)
    rw [← Nat.pow_add, ← Nat.add_assoc] at hAbove
    have hDigits : 10 ^ (width + 1 + i) ≤ n ∧ n + 1 < 10 ^ (width + 1 + i + 1) := by
      have hPos := hPos i
      omega
    have hSame := digits_unique ⟨hLow, hHigh⟩ ⟨hDigits.1, by omega⟩
    have hNext := digits_unique ⟨hLow', hHigh'⟩ ⟨by omega, hDigits.2⟩
    obtain rfl : i = k := by omega
    obtain rfl : j = i := by omega
    omega

end Leading

end Decimal
