import BmsBridge.Lib.Shares
import BmsBridge.Pylontech.Proof.Responders

/-! Capacities in 16 bits.  Both are divided by one scale, so the inverter still sees the state of
charge of a pack whose capacity is beyond 16 bits. -/

namespace BmsBridge

open Words

/-! ### The scale -/

/-- What a capacity is divided by, in exact arithmetic. -/
def capScale (total : Nat) : Nat := if total ≤ 65000 then 1 else (total + 64999) / 65000

theorem capScale_pos (total : Nat) : 0 < capScale total := by
  unfold capScale
  split <;> omega

theorem div_capScale_le (total : Nat) : total / capScale total ≤ 65000 := by
  apply Nat.div_le_of_le_mul
  unfold capScale
  split <;> omega

theorem div_capScale_pos {total : Nat} (hPos : 0 < total) : 0 < total / capScale total := by
  apply Nat.div_pos _ (capScale_pos total)
  unfold capScale
  split <;> omega

/-- Below the totals that wrap the scale, the total is exact and the remaining capacity is cut to 16
bits. -/
theorem scaleCapacityToU16_eq (total remain : UInt32) (hTotal : total.toNat ≤ 4294902296) :
    ∃ cap, scaleCapacityToU16 total remain = .ok cap ∧
      cap.totalMah.toNat = total.toNat / capScale total.toNat ∧
      cap.remainMah.toNat = remain.toNat / capScale total.toNat % 65536 := by
  have hLe := div_capScale_le total.toNat
  by_cases hSmall : total.toNat ≤ 65000
  · have hScale : capScale total.toNat = 1 := if_pos hSmall
    refine ⟨_, scaleCapacityToU16_small hSmall, ?_, ?_⟩
    · rw [UInt32.toNat_toUInt16, hScale, Nat.div_one]
      exact Nat.mod_eq_of_lt (by omega)
    · rw [UInt32.toNat_toUInt16, hScale, Nat.div_one]
  · have hScale : ((total + kCapU16Max - 1) / kCapU16Max).toNat = capScale total.toNat := by
      rw [toNat_ceilCap, capScale, if_neg hSmall, Nat.mod_eq_of_lt (by omega)]
    have hNe : (total + kCapU16Max - 1) / kCapU16Max ≠ 0 := by
      intro h
      have hPos := capScale_pos total.toNat
      rw [← hScale, h] at hPos
      exact absurd hPos (by decide)
    have hOk : scaleCapacityToU16 total remain = .ok {
        totalMah := (total / ((total + kCapU16Max - 1) / kCapU16Max)).toUInt16
        remainMah := (remain / ((total + kCapU16Max - 1) / kCapU16Max)).toUInt16 } := by
      unfold scaleCapacityToU16
      simp only [if_neg (mt (le_kCapU16Max total).mp hSmall), udiv_ok hNe]
      rfl
    refine ⟨_, hOk, ?_, ?_⟩
    · rw [UInt32.toNat_toUInt16, UInt32.toNat_div, hScale]
      exact Nat.mod_eq_of_lt (by omega)
    · rw [UInt32.toNat_toUInt16, UInt32.toNat_div, hScale]

/-! ### The state of charge -/

/-- The 16-bit capacities are the exact ones by the scale, and they keep the state of charge up to
one part of the total. -/
structure ChargeKept (total remain : Nat) (cap : ScaledCapacity) : Prop where
  totalExact : cap.totalMah.toNat = total / capScale total
  remainExact : cap.remainMah.toNat = remain / capScale total
  totalPos : 0 < cap.totalMah.toNat
  totalLe : cap.totalMah.toNat ≤ 65000
  remainLe : cap.remainMah.toNat ≤ cap.totalMah.toNat
  ratio : |(cap.remainMah.toNat : Rat) / cap.totalMah.toNat - (remain : Rat) / total| <
    1 / cap.totalMah.toNat

theorem scaleCapacityToU16_kept {total remain : UInt32} (hTotal : total.toNat ≤ 4294902296)
    (hRemain : 0 < remain.toNat) (hLe : remain.toNat ≤ total.toNat) :
    ∃ cap, scaleCapacityToU16 total remain = .ok cap ∧
      ChargeKept total.toNat remain.toNat cap := by
  obtain ⟨cap, hCap, hCapTotal, hCapRemain⟩ := scaleCapacityToU16_eq total remain hTotal
  have hTotalLe := div_capScale_le total.toNat
  have hTotalPos := div_capScale_pos (Nat.lt_of_lt_of_le hRemain hLe)
  have hRemainLe : remain.toNat / capScale total.toNat ≤ total.toNat / capScale total.toNat :=
    Nat.div_le_div_right hLe
  rw [Nat.mod_eq_of_lt (by omega)] at hCapRemain
  refine ⟨cap, hCap, hCapTotal, hCapRemain, ?_, ?_, ?_, ?_⟩
  · rwa [hCapTotal]
  · rwa [hCapTotal]
  · rwa [hCapTotal, hCapRemain]
  · rw [hCapTotal, hCapRemain]
    exact Shares.ratio_share (capScale_pos total.toNat) hLe hTotalPos

/-- Scaling keeps the state of charge, and a fuller pack never looks emptier. -/
theorem scale_keeps_charge (total remain : UInt32) (hTotal : total.toNat ≤ 4294902296)
    (hRemain : 0 < remain.toNat) (hLe : remain.toNat ≤ total.toNat) :
    ∃ cap, scaleCapacityToU16 total remain = .ok cap ∧
      ChargeKept total.toNat remain.toNat cap ∧
      ∀ (less : UInt32) (cap' : ScaledCapacity), 0 < less.toNat → less.toNat ≤ remain.toNat →
        scaleCapacityToU16 total less = .ok cap' → cap'.remainMah.toNat ≤ cap.remainMah.toNat := by
  obtain ⟨cap, hCap, hKept⟩ := scaleCapacityToU16_kept hTotal hRemain hLe
  refine ⟨cap, hCap, hKept, ?_⟩
  intro less cap' hPos hLess hCap'
  obtain ⟨_, hSame, hKept'⟩ := scaleCapacityToU16_kept hTotal hPos (hLess.trans hLe)
  obtain rfl := Except.ok.inj (hCap'.symm.trans hSame)
  rw [hKept'.remainExact, hKept.remainExact]
  exact Nat.div_le_div_right hLess

/-- A pack of 314 Ah at half charge. -/
theorem scale_keeps_charge_314_ah :
    ∃ cap, scaleCapacityToU16 314000 157000 = .ok cap ∧ ChargeKept 314000 157000 cap ∧
      ∀ (less : UInt32) (cap' : ScaledCapacity), 0 < less.toNat → less.toNat ≤ 157000 →
        scaleCapacityToU16 314000 less = .ok cap' → cap'.remainMah.toNat ≤ cap.remainMah.toNat :=
  scale_keeps_charge 314000 157000 (by decide) (by decide) (by decide)

end BmsBridge
