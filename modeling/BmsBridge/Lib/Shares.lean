import Mathlib.Algebra.Order.Field.Basic
import Mathlib.Algebra.Order.Ring.Rat
import Mathlib.Tactic.Linarith
import Mathlib.Tactic.Ring

/-! Equal shares of an amount, by truncating division.  The shares together never exceed the amount
and miss less than one for each share, and two amounts keep their ratio in their shares. -/

namespace Shares

theorem div_share (a : Nat) {n : Nat} (hn : 0 < n) : n * (a / n) ≤ a ∧ a < n * (a / n) + n := by
  have hSplit := Nat.div_add_mod a n
  have hMod := Nat.mod_lt a hn
  omega

theorem sum_equal {α : Type} {l : List α} {f : α → Nat} {share : Nat} (h : ∀ x ∈ l, f x = share) :
    (l.map f).sum = l.length * share := by
  rw [List.map_congr_left h, List.map_const', List.sum_replicate_nat]

/-- Capped shares miss one or more only at the cap. -/
theorem capped_share (a cap : Nat) {n : Nat} (hn : 0 < n) :
    n * min (a / n) cap ≤ a ∧ (min (a / n) cap = cap ∨ a < n * min (a / n) cap + n) := by
  obtain ⟨hLe, hLt⟩ := div_share a hn
  refine ⟨Nat.le_trans (Nat.mul_le_mul_left n (Nat.min_le_left _ cap)) hLe, ?_⟩
  rcases Nat.le_total (a / n) cap with h | h
  · right
    rwa [Nat.min_eq_left h]
  · left
    exact Nat.min_eq_right h

theorem tdiv_share (a : Int) {n : Nat} (hn : 0 < n) :
    (n * a.tdiv n).natAbs ≤ a.natAbs ∧ (a - n * a.tdiv n).natAbs < n := by
  refine ⟨?_, ?_⟩
  · rw [Int.natAbs_mul, Int.natAbs_tdiv]
    exact Nat.mul_div_le a.natAbs n
  · rw [← Int.tmod_def, Int.natAbs_tmod]
    exact Nat.mod_lt _ hn

theorem tdiv_between (a : Int) (n : Nat) : min a 0 ≤ a.tdiv n ∧ a.tdiv n ≤ max a 0 := by
  have hNat (k : Nat) : 0 ≤ (k : Int).tdiv n ∧ (k : Int).tdiv n ≤ k := by
    rw [← Int.ofNat_tdiv]
    exact ⟨Int.natCast_nonneg _, Int.ofNat_le.mpr (Nat.div_le_self k n)⟩
  have hShare := hNat a.natAbs
  rcases Int.natAbs_eq a with h | h
  · rw [← h] at hShare
    omega
  · rw [h, Int.neg_tdiv]
    omega

/-- A share of a share is a share among the product. -/
theorem tdiv_tdiv (a : Int) (m n : Nat) : (a.tdiv m).tdiv n = a.tdiv (m * n) := by
  have hNat (k : Nat) : ((k : Int).tdiv m).tdiv n = (k : Int).tdiv (m * n) := by
    rw [← Int.natCast_mul, ← Int.ofNat_tdiv, ← Int.ofNat_tdiv, ← Int.ofNat_tdiv, Nat.div_div_eq_div_mul]
  rcases Int.natAbs_eq a with h | h
  · rw [h, hNat]
  · rw [h, Int.neg_tdiv, Int.neg_tdiv, Int.neg_tdiv, hNat]

/-- The cross products of two amounts and of their shares differ by less than the larger amount. -/
theorem cross_share {a b n : Nat} (hn : 0 < n) (hLe : b ≤ a) (hShare : 0 < a / n) :
    b / n * a < a / n * b + a ∧ a / n * b < b / n * a + a := by
  obtain ⟨hALe, hALt⟩ := div_share a hn
  obtain ⟨hBLe, hBLt⟩ := div_share b hn
  have hMono : b / n ≤ a / n := Nat.div_le_div_right hLe
  generalize a / n = x at *
  generalize b / n = y at *
  obtain ⟨r, rfl⟩ := Nat.exists_eq_add_of_le hALe
  obtain ⟨q, rfl⟩ := Nat.exists_eq_add_of_le hBLe
  have hr : y * r < x * n := Nat.mul_lt_mul_of_le_of_lt hMono (by omega) hShare
  have hq : x * q < x * n := Nat.mul_lt_mul_of_pos_left (by omega) hShare
  constructor
  · calc y * (n * x + r) = n * x * y + y * r := by ring
      _ < n * x * y + x * n := Nat.add_lt_add_left hr _
      _ ≤ x * (n * y + q) + (n * x + r) := by
        have hSplit : x * (n * y + q) = n * x * y + x * q := by ring
        rw [hSplit, Nat.mul_comm x n]
        omega
  · calc x * (n * y + q) = n * x * y + x * q := by ring
      _ < n * x * y + x * n := Nat.add_lt_add_left hq _
      _ ≤ y * (n * x + r) + (n * x + r) := by
        have hSplit : y * (n * x + r) = n * x * y + y * r := by ring
        rw [hSplit, Nat.mul_comm x n]
        omega

/-- Shares by one divisor keep the ratio of two amounts, up to one part of the larger share. -/
theorem ratio_share {a b n : Nat} (hn : 0 < n) (hLe : b ≤ a) (hShare : 0 < a / n) :
    |((b / n : Nat) : Rat) / (a / n : Nat) - (b : Rat) / a| < 1 / (a / n : Nat) := by
  obtain ⟨hAbove, hBelow⟩ := cross_share hn hLe hShare
  have ha : 0 < a := Nat.lt_of_lt_of_le hShare (Nat.div_le_self a n)
  generalize a / n = x at *
  generalize b / n = y at *
  have hx : (0 : Rat) < x := by exact_mod_cast hShare
  have ha : (0 : Rat) < a := by exact_mod_cast ha
  have hAbove : (y : Rat) * a < x * b + a := by exact_mod_cast hAbove
  have hBelow : (x : Rat) * b < y * a + a := by exact_mod_cast hBelow
  have hCross : |(y : Rat) * a - x * b| < a := abs_lt.mpr ⟨by linarith, by linarith⟩
  rw [div_sub_div _ _ hx.ne' ha.ne', abs_div, abs_of_pos (mul_pos hx ha), div_mul_eq_div_div_swap]
  exact (div_lt_div_iff_of_pos_right hx).mpr ((div_lt_one ha).mpr hCross)
end Shares
