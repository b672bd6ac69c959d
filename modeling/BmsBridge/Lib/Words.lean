import Mathlib.Algebra.Group.Nat.Defs

/-! Fixed-width words as a C++ program uses them: the cast of a size to a signed `int`, a 16-bit
word as its two bytes, and division that faults on a zero divisor. -/

namespace Words

/-- A `size_t` cast to a 32-bit signed `int`: its low 32 bits, read in two's complement. -/
def castInt (n : Nat) : Int :=
  if n % 4294967296 < 2147483648 then (n % 4294967296 : Nat)
  else (n % 4294967296 : Nat) - 4294967296

theorem castInt_of_lt {n : Nat} (h : n < 2147483648) : castInt n = n := by
  rw [castInt, Nat.mod_eq_of_lt (by omega), if_pos h]

theorem forall_byte {P : UInt8 → Prop} (h : ∀ v < 256, P (UInt8.ofNat v)) (b : UInt8) : P b := by
  have hb := h b.toNat b.toNat_lt
  rwa [UInt8.ofNat_toNat] at hb

def ofBytes (hi lo : UInt8) : UInt16 := (hi.toUInt16 <<< 8) ||| lo.toUInt16

theorem ofBytes_toNat (hi lo : UInt8) : (ofBytes hi lo).toNat = 256 * hi.toNat + lo.toNat := by
  have hHi := hi.toNat_lt
  have hLo := lo.toNat_lt
  have hShift : hi.toNat <<< 8 % 65536 = hi.toNat <<< 8 := by
    rw [Nat.shiftLeft_eq]; omega
  simp only [ofBytes, UInt16.toNat_or, UInt16.toNat_shiftLeft, UInt8.toNat_toUInt16]
  simp only [UInt16.reduceToNat, Nat.reduceMod, Nat.reducePow, hShift,
    ← Nat.shiftLeft_add_eq_or_of_lt hLo]
  rw [Nat.shiftLeft_eq]
  omega

theorem ofBytes_split (w : UInt16) :
    ofBytes (w >>> 8).toUInt8 (w &&& 0xFF).toUInt8 = w := by
  apply UInt16.toNat_inj.mp
  have hw := w.toNat_lt
  have hMask : w.toNat &&& 255 = w.toNat % 256 := Nat.and_two_pow_sub_one_eq_mod w.toNat 8
  simp only [ofBytes_toNat, UInt16.toNat_toUInt8, UInt16.toNat_shiftRight, UInt16.toNat_and,
    UInt16.reduceToNat, Nat.reduceMod, Nat.reducePow, Nat.shiftRight_eq_div_pow, hMask]
  omega

theorem split_ofBytes (hi lo : UInt8) :
    (ofBytes hi lo >>> 8).toUInt8 = hi ∧ (ofBytes hi lo &&& 0xFF).toUInt8 = lo := by
  have hHi := hi.toNat_lt
  have hLo := lo.toNat_lt
  have hMask : (256 * hi.toNat + lo.toNat) &&& 255 = (256 * hi.toNat + lo.toNat) % 256 :=
    Nat.and_two_pow_sub_one_eq_mod _ 8
  constructor
  · apply UInt8.toNat_inj.mp
    simp only [ofBytes_toNat, UInt16.toNat_toUInt8, UInt16.toNat_shiftRight, UInt16.reduceToNat,
      Nat.reduceMod, Nat.reducePow, Nat.shiftRight_eq_div_pow]
    omega
  · apply UInt8.toNat_inj.mp
    simp only [ofBytes_toNat, UInt16.toNat_toUInt8, UInt16.toNat_and, UInt16.reduceToNat,
      Nat.reducePow, hMask]
    omega

theorem or_shiftLeft {w b k : Nat} (h : w < 2 ^ k) : w ||| b <<< k = w + 2 ^ k * b := by
  rw [Nat.or_comm, ← Nat.shiftLeft_add_eq_or_of_lt h, Nat.shiftLeft_eq, Nat.mul_comm, Nat.add_comm]

/-- A word shares no bit with its successor exactly when all of its ones are below all of its
zeros. -/
theorem succ_and_self_eq_zero (v : UInt32) : (v + 1) &&& v = 0 ↔ ∃ k, v.toNat = 2 ^ k - 1 := by
  have hv := v.toNat_lt
  rw [← UInt32.toNat_inj, UInt32.toNat_and, UInt32.toNat_add]
  show (v.toNat + 1) % 4294967296 &&& v.toNat = 0 ↔ _
  by_cases hTop : v.toNat = 4294967295
  · -- The successor of the largest word wraps to zero.
    rw [hTop]
    exact ⟨fun _ => ⟨32, rfl⟩, fun _ => rfl⟩
  · have hPow := Nat.and_sub_one_eq_zero_iff_isPowerOfTwo (Nat.succ_ne_zero v.toNat)
    rw [Nat.mod_eq_of_lt (by omega)]
    refine hPow.trans ⟨fun ⟨k, hk⟩ => ⟨k, by omega⟩, fun ⟨k, hk⟩ => ⟨k, ?_⟩⟩
    have hPos := Nat.two_pow_pos k
    omega

theorem toNat_min (a b : UInt32) : (min a b).toNat = min a.toNat b.toNat := by
  show (if a ≤ b then a else b).toNat = _
  rw [Nat.min_def]
  simp only [UInt32.le_iff_toNat_le]
  split <;> rfl

theorem toInt_toInt32 (w : UInt32) : w.toInt32.toInt =
    if w.toNat < 2147483648 then (w.toNat : Int) else w.toNat - 4294967296 := by
  have hBits : w.toInt32.toInt = w.toBitVec.toInt := rfl
  rw [hBits, BitVec.toInt_eq_toNat_cond]
  show (if 2 * w.toNat < 4294967296 then (w.toNat : Int) else w.toNat - 4294967296) = _
  split <;> split <;> omega

theorem toNat_toUInt32 (x : Int32) : (x.toUInt32.toNat : Int) = x.toInt % 4294967296 := by
  have hInt := toInt_toInt32 x.toUInt32
  have hw := x.toUInt32.toNat_lt
  rw [Int32.toInt32_toUInt32] at hInt
  rw [hInt]
  split <;> omega

/-- The one run-time fault of integer arithmetic that the programs here can meet. -/
inductive Fault where
  | divByZero
  deriving DecidableEq, Repr

def udiv (a b : UInt32) : Except Fault UInt32 :=
  if b = 0 then .error .divByZero else .ok (a / b)

/-- Signed 32-bit division, which truncates toward zero and faults on a zero divisor. -/
def sdiv (a b : Int32) : Except Fault Int32 :=
  if b = 0 then .error .divByZero else .ok (a / b)

theorem udiv_ok {a b : UInt32} (h : b ≠ 0) : udiv a b = .ok (a / b) := by
  rw [udiv, if_neg h]

theorem udiv_zero (a : UInt32) : udiv a 0 = .error .divByZero := rfl

theorem sdiv_ok {a b : Int32} (h : b ≠ 0) : sdiv a b = .ok (a / b) := by
  rw [sdiv, if_neg h]

end Words
