import BmsBridge.Pylontech.Proof.Grammar

/-! One corrupted byte of a frame on the wire.  The checksum is a plain sum, which one changed digit
always changes; a changed checksum digit leaves the digits of the frame itself alone. -/

namespace BmsBridge

open Delimited Words

/-! ### One changed digit -/

theorem sum_set {digits : List UInt8} {i : Nat} (hi : i < digits.length) (c : UInt8) :
    ((digits.set i c).map UInt8.toNat).sum + digits[i].toNat =
      (digits.map UInt8.toNat).sum + c.toNat := by
  induction digits generalizing i with
  | nil => cases hi
  | cons d digits ih =>
    cases i with
    | zero =>
      simp only [List.set_cons_zero, List.map_cons, List.sum_cons, List.getElem_cons_zero]
      omega
    | succ i =>
      have hRest := ih (i := i) (by simpa using hi)
      simp only [List.set_cons_succ, List.map_cons, List.sum_cons, List.getElem_cons_succ]
      omega

/-- Two bytes differ by less than the modulus of the checksum. -/
theorem set_eq_of_asciiChecksum {digits : List UInt8} {i : Nat} (hi : i < digits.length) {c : UInt8}
    (h : asciiChecksum (digits.set i c) = asciiChecksum digits) : digits.set i c = digits := by
  have hSum := sum_set hi c
  have hNew := c.toNat_lt
  have hOld := digits[i].toNat_lt
  unfold asciiChecksum at h
  have hByte : c.toNat = digits[i].toNat := by omega
  rw [UInt8.toNat_inj.mp hByte, List.set_getElem_self]

theorem Spells.drop {digits bytes : List UInt8} (h : Spells digits bytes) (k : Nat) :
    Spells (digits.drop (2 * k)) (bytes.drop k) := by
  induction h generalizing k with
  | nil =>
    rw [List.drop_nil, List.drop_nil]
    exact .nil
  | cons hHi hLo hByte hRest ih =>
    cases k with
    | zero => exact .cons hHi hLo hByte hRest
    | succ k => exact ih k

/-- A frame that is spelled with one digit changed is the same frame. -/
theorem spellsFrame_set {f g : PylontechFrame} {i : Nat} {c : UInt8}
    (h : SpellsFrame ((wireDigits f).set i c) g) : g = f := by
  obtain ⟨lenHi, lenLo, csHi, csLo, hSpells, hChksum⟩ := h
  have hLen := hSpells.length
  simp only [List.length_set, length_wireDigits, List.length_append, List.length_cons,
    List.length_nil] at hLen
  have hInfo : g.info.length = f.info.length := by omega
  have hFront : (wireDigits f).length - 4 = 2 * (6 + f.info.length) := by
    rw [length_wireDigits]
    omega
  rw [List.length_set, hFront] at hChksum
  have hFrontLen : ([g.ver, g.adr, g.cid1, g.cid2, lenHi, lenLo] ++ g.info).length =
      6 + f.info.length := by
    simp [hInfo]
    omega
  -- In both parts of the frame, the digits in front of the checksum are the old ones.
  have hSame : ((wireDigits f).set i c).take (2 * (6 + f.info.length)) =
      (wireDigits f).take (2 * (6 + f.info.length)) := by
    by_cases hBody : i < 2 * (6 + f.info.length)
    · have hBack := hSpells.drop (6 + f.info.length)
      have hOld := (wireDigits_spells f).drop (6 + f.info.length)
      rw [List.drop_set_of_lt hBody, List.drop_left' hFrontLen] at hBack
      rw [List.drop_left' (length_wireBody f)] at hOld
      obtain ⟨rfl, rfl⟩ : csHi = (wireChksum f >>> 8).toUInt8 ∧
          csLo = (wireChksum f &&& 0xFF).toUInt8 := by simpa using hBack.unique hOld
      rw [← ofBytes_toNat, ofBytes_split, wireChksum, toNat_chksumOver, ← wireDigits_front,
        List.take_set] at hChksum
      rw [List.take_set]
      apply set_eq_of_asciiChecksum
      · rw [List.length_take, length_wireDigits]
        omega
      · rw [← hChksum]
        congr 2
        omega
    · rw [List.take_set_of_le (by omega)]
  have hNew := hSpells.take (6 + f.info.length)
  have hOld := (wireDigits_spells f).take (6 + f.info.length)
  rw [List.take_left' hFrontLen, hSame] at hNew
  rw [List.take_left' (length_wireBody f)] at hOld
  have hFields := hNew.unique hOld
  simp only [wireBody, List.cons_append, List.nil_append, List.cons.injEq] at hFields
  obtain ⟨hVer, hAdr, hCid1, hCid2, -, -, hInfoEq⟩ := hFields
  cases g
  simp only at hVer hAdr hCid1 hCid2 hInfoEq
  rw [hVer, hAdr, hCid1, hCid2, hInfoEq]

/-! ### The parser's verdict -/

theorem set_wire {f : PylontechFrame} {i : Nat} (hi : i < (wireDigits f).length) (c : UInt8) :
    (buildPylontech f).set (i + 1) c = kSOI :: ((wireDigits f).set i c ++ [kEOI]) := by
  rw [buildPylontech_eq, List.set_cons_succ, List.set_append_left _ _ hi]

/-- A frame with one changed byte is rejected at its length, or taken as it was. -/
theorem tryParse_corrupted (f : PylontechFrame) {i : Nat} (hi : i < (wireDigits f).length)
    {c : UInt8} (hc : c ≠ kEOI) (out : PylontechFrame) :
    (tryParsePylontech ((buildPylontech f).set (i + 1) c) out).1 =
        -castInt (buildPylontech f).length ∨
      tryParsePylontech ((buildPylontech f).set (i + 1) c) out =
        (castInt (buildPylontech f).length, f) := by
  have hLen : ((wireDigits f).set i c).length + 2 = (buildPylontech f).length := by
    rw [List.length_set, length_wireDigits, length_buildPylontech]
    omega
  have hEoi : kEOI ∉ (wireDigits f).set i c := by
    intro h
    rcases List.mem_or_eq_of_mem_set h with h | h
    · exact (wireDigits_spells f).kEOI_notMem h
    · exact hc h.symm
  rw [set_wire hi, ← hLen]
  by_cases hSome : ∃ g, SpellsFrame ((wireDigits f).set i c) g
  · obtain ⟨g, hg⟩ := hSome
    right
    rw [tryParse_frame [] out hg, spellsFrame_set hg]
  · exact .inl (tryParse_no_frame [] out hEoi hSome)

/-- A first byte that is no hex digit has the frame rejected, and the output frame left alone. -/
theorem tryParse_bad_start (f : PylontechFrame) (out : PylontechFrame) :
    tryParsePylontech ((buildPylontech f).set 1 0) out =
      (-castInt (buildPylontech f).length, out) := by
  have hLen := length_wireDigits f
  have hEoi := (wireDigits_spells f).kEOI_notMem
  rw [length_buildPylontech, set_wire (by omega)]
  cases hDigits : wireDigits f with
  | nil =>
    rw [hDigits] at hLen
    simp only [List.length_nil] at hLen
    omega
  | cons d digits =>
    rw [hDigits] at hLen hEoi
    simp only [List.length_cons] at hLen
    have hEoi' : kEOI ∉ 0 :: digits := by
      simp only [List.mem_cons, not_or] at hEoi ⊢
      exact ⟨by decide, hEoi.2⟩
    have hHeader : decodeHeader (kSOI :: (0 :: digits ++ [kEOI])) = none := rfl
    have hEnd : 1 + (digits.length + 1) + 1 = 18 + 2 * f.info.length := by omega
    rw [List.set_cons_zero]
    simp only [tryParsePylontech, findIdx_kSOI, List.drop_succ_cons, List.drop_zero,
      findIdx_append_cons [] hEoi', List.length_cons, List.length_append, List.length_nil,
      Nat.add_sub_cancel_left, kMinBodyLen, hHeader, hEnd]
    rw [if_neg (by omega), if_neg (by omega), if_neg (by omega), if_neg (by omega),
      if_neg (by omega)]

/-- A byte between SOI and EOI replaced by any but EOI has the frame rejected, or taken whole as it
was. -/
def SurvivesCorruption (f : PylontechFrame) : Prop :=
  ∀ (i : Nat) (c : UInt8) (out : PylontechFrame), 0 < i → i + 1 < (buildPylontech f).length →
    c ≠ kEOI → (tryParsePylontech ((buildPylontech f).set i c) out).1 < 0 ∨
      tryParsePylontech ((buildPylontech f).set i c) out = (((buildPylontech f).length : Int), f)

theorem SurvivesCorruption.positive {f : PylontechFrame} (h : SurvivesCorruption f) :
    0 < castInt (buildPylontech f).length := by
  have hInside : 1 + 1 < (buildPylontech f).length := by
    rw [length_buildPylontech]
    omega
  have hOther : f ≠ { f with ver := f.ver + 1 } := by
    intro hEq
    have hVer := congrArg (fun g => g.ver.toNat) hEq
    simp only [UInt8.toNat_add] at hVer
    have : (1 : UInt8).toNat = 1 := rfl
    omega
  rcases h 1 0 { f with ver := f.ver + 1 } Nat.one_pos hInside (by decide) with hNeg | hTaken
  · rw [tryParse_bad_start] at hNeg
    have hInt : -castInt (buildPylontech f).length < 0 := hNeg
    omega
  · rw [tryParse_bad_start] at hTaken
    exact absurd (Prod.mk.inj hTaken).2.symm hOther

/-- One corrupted byte never yields a different frame exactly when the length of the frame on the
wire fits an `int`. -/
theorem survivesCorruption_iff (f : PylontechFrame) :
    SurvivesCorruption f ↔ (buildPylontech f).length < 2147483648 := by
  have hLen := length_buildPylontech f
  have hDigits := length_wireDigits f
  have hFirst : 0 < (wireDigits f).length := by omega
  constructor
  · intro h
    have hPos := h.positive
    rw [← castInt_eq_iff]
    -- The byte that is there already is a replacement, too.
    have hSame : (buildPylontech f).set 1 (wireDigits f)[0] = buildPylontech f := by
      rw [set_wire (by omega), List.set_getElem_self, ← buildPylontech_eq]
    have hNe : (wireDigits f)[0] ≠ kEOI := by
      intro hEq
      exact (wireDigits_spells f).kEOI_notMem (hEq ▸ List.getElem_mem _)
    have hParse := tryParse_buildPylontech f [] {}
    rw [List.append_nil] at hParse
    rcases h 1 _ {} Nat.one_pos (by omega) hNe with hNeg | hTaken
    · rw [hSame, hParse] at hNeg
      have hInt : castInt (buildPylontech f).length < 0 := hNeg
      omega
    · rw [hSame, hParse] at hTaken
      exact (Prod.mk.inj hTaken).1
  · intro hFits i c out hLow hHigh hc
    have hCast := castInt_eq_iff.mpr hFits
    obtain ⟨i, rfl⟩ := Nat.exists_eq_add_of_le hLow
    rw [Nat.add_comm]
    rcases tryParse_corrupted f (i := i) (by omega) hc out with hReject | hTaken
    · left
      rw [hReject, hCast]
      omega
    · right
      rw [hTaken, hCast]

theorem length_long_frame (n : Nat) :
    (buildPylontech { info := List.replicate n 0 }).length = 18 + 2 * n := by
  rw [length_buildPylontech, List.length_replicate]

/-- A frame of `2 ^ 31 + 18` bytes: a changed digit makes the parser's result positive. -/
theorem long_frame_survives_not : ¬∀ f, SurvivesCorruption f := by
  intro hAll
  have hPos := (hAll { info := List.replicate 1073741824 0 }).positive
  rw [length_long_frame, castInt_pos_iff] at hPos
  exact absurd hPos.2 (by decide)

end BmsBridge
