import BmsBridge.Pylontech.Proof.Frame
import Mathlib.Data.List.Basic

/-! What the Pylontech parser answers for each shape of the buffer, and that it keeps to the contract
of a parser of delimited frames. -/

namespace BmsBridge

open Delimited Words

/-- The parser's results are exact as long as they fit an `int`. -/
def kIntLimit : Nat := 2147483648

section Shapes

variable (out : PylontechFrame)

theorem tryParse_gap {gap : List UInt8} (hNe : gap ≠ []) (hSoi : kSOI ∉ gap) :
    tryParsePylontech gap out = (-castInt gap.length, out) := by
  have hPos := List.length_pos_iff.mpr hNe
  simp only [tryParsePylontech, findIdx_notMem hSoi, ↓reduceIte]
  rw [if_neg (by omega)]

theorem tryParse_skip {gap : List UInt8} (tail : List UInt8) (hNe : gap ≠ []) (hSoi : kSOI ∉ gap) :
    tryParsePylontech (gap ++ kSOI :: tail) out = (-castInt gap.length, out) := by
  have hPos := List.length_pos_iff.mpr hNe
  simp only [tryParsePylontech, findIdx_append_cons tail hSoi, List.length_append,
    List.length_cons]
  rw [if_neg (by omega), if_neg (by omega), if_pos hPos]

theorem findIdx_kSOI (tail : List UInt8) : (kSOI :: tail).findIdx (· == kSOI) = 0 :=
  findIdx_append_cons tail List.not_mem_nil

theorem tryParse_begun {body : List UInt8} (hEoi : kEOI ∉ body) :
    tryParsePylontech (kSOI :: body) out =
      (if kMaxFrameLen < body.length + 1 then (-1, out) else (0, out)) := by
  simp only [tryParsePylontech, findIdx_kSOI, List.drop_succ_cons, List.drop_zero,
    findIdx_notMem hEoi, List.length_cons]
  rw [if_neg (by omega), if_neg (by omega), if_neg (by omega), if_pos (by omega)]

theorem decodeByte_tail {body : List UInt8} (s s' : List UInt8) {k : Nat}
    (hk : 2 * k + 2 ≤ body.length) :
    decodeByte (kSOI :: (body ++ s)) k = decodeByte (kSOI :: (body ++ s')) k := by
  have hGet (i : Nat) (hi : i < body.length) :
      (kSOI :: (body ++ s)).getD (1 + i) 0 = (kSOI :: (body ++ s')).getD (1 + i) 0 := by
    rw [Nat.add_comm 1 i, List.getD_cons_succ, List.getD_cons_succ, List.getD_eq_getElem?_getD,
      List.getD_eq_getElem?_getD, List.getElem?_append_left hi, List.getElem?_append_left hi]
  have hHi := hGet (k * 2) (by omega)
  have hLo := hGet (k * 2 + 1) (by omega)
  rw [← Nat.add_assoc] at hLo
  rw [decodeByte, decodeByte, hHi, hLo]

theorem decodeHeader_tail {body : List UInt8} (s s' : List UInt8) (hLen : 16 ≤ body.length) :
    decodeHeader (kSOI :: (body ++ s)) = decodeHeader (kSOI :: (body ++ s')) := by
  rw [decodeHeader, decodeHeader]
  simp only [decodeByte_tail s s' (show 2 * 0 + 2 ≤ body.length by omega),
    decodeByte_tail s s' (show 2 * 1 + 2 ≤ body.length by omega),
    decodeByte_tail s s' (show 2 * 2 + 2 ≤ body.length by omega),
    decodeByte_tail s s' (show 2 * 3 + 2 ≤ body.length by omega),
    decodeByte_tail s s' (show 2 * 4 + 2 ≤ body.length by omega),
    decodeByte_tail s s' (show 2 * 5 + 2 ≤ body.length by omega)]

theorem decodeWord_tail {body : List UInt8} (s s' : List UInt8) (k : Nat)
    (hk : 2 * k + 4 ≤ body.length) :
    decodeWord (kSOI :: (body ++ s)) k = decodeWord (kSOI :: (body ++ s')) k := by
  rw [decodeWord, decodeWord, decodeByte_tail s s' (by omega), decodeByte_tail s s' (by omega)]

theorem decodeInfo_tail {body : List UInt8} (s s' : List UInt8) (n i : Nat) (info : List UInt8)
    (hn : 2 * (6 + i + n) ≤ body.length) :
    decodeInfo (kSOI :: (body ++ s)) i n info = decodeInfo (kSOI :: (body ++ s')) i n info := by
  induction n generalizing i info with
  | zero => rfl
  | succ n ih =>
    rw [decodeInfo, decodeInfo, decodeByte_tail s s' (by omega)]
    split
    · rfl
    · exact ih _ _ (by omega)

/-- The end of a frame closes it: the bytes behind EOI have no part in the result. -/
theorem tryParse_tail {body : List UInt8} (tail : List UInt8) (hEoi : kEOI ∉ body) :
    tryParsePylontech (kSOI :: (body ++ kEOI :: tail)) out =
      tryParsePylontech (kSOI :: (body ++ [kEOI])) out := by
  by_cases hShort : body.length < kMinBodyLen ∨ body.length % 2 ≠ 0
  · simp only [tryParsePylontech, findIdx_kSOI, List.drop_succ_cons, List.drop_zero,
      findIdx_append_cons tail hEoi, findIdx_append_cons [] hEoi, List.length_cons,
      List.length_append, List.length_nil, Nat.add_sub_cancel_left, hShort, ↓reduceIte]
    rw [if_neg (by omega), if_neg (by omega), if_neg (by omega), if_neg (by omega),
      if_neg (by omega), if_neg (by omega), if_neg (by omega), if_neg (by omega)]
  · have hMin : 16 ≤ body.length ∧ body.length % 2 = 0 := by
      simp only [kMinBodyLen] at hShort
      omega
    have hSum (s : List UInt8) :
        (body ++ s).take (body.length - 4) = body.take (body.length - 4) :=
      List.take_append_of_le_length (by omega)
    have hInfoBytes : 2 * ((body.length - kMinBodyLen) / 2) + 16 = body.length := by
      simp only [kMinBodyLen]
      omega
    have hWord := decodeWord_tail (kEOI :: tail) [kEOI] (6 + (body.length - kMinBodyLen) / 2)
      (show _ ≤ body.length by omega)
    have hInfo := decodeInfo_tail (kEOI :: tail) [kEOI] ((body.length - kMinBodyLen) / 2) 0 []
      (show _ ≤ body.length by omega)
    simp only [tryParsePylontech, findIdx_kSOI, List.drop_succ_cons, List.drop_zero,
      findIdx_append_cons tail hEoi, findIdx_append_cons [] hEoi, List.length_cons,
      List.length_append, List.length_nil, Nat.add_sub_cancel_left, hShort, ↓reduceIte, hSum,
      decodeHeader_tail (kEOI :: tail) [kEOI] hMin.1, hWord, hInfo]
    rw [if_neg (by omega), if_neg (by omega), if_neg (by omega), if_neg (by omega),
      if_neg (by omega), if_neg (by omega), if_neg (by omega), if_neg (by omega)]

theorem decodeHeader_isSome {buf : List UInt8} {header : UInt8 × UInt8 × UInt8 × UInt8}
    (h : decodeHeader buf = some header) : ∀ k < 6, (decodeByte buf k).isSome := by
  simp only [decodeHeader, Option.bind_eq_bind, Option.bind_eq_some_iff] at h
  obtain ⟨_, h0, _, h1, _, h2, _, h3, _, h4, _, h5, -⟩ := h
  intro k hk
  obtain rfl | rfl | rfl | rfl | rfl | rfl : k = 0 ∨ k = 1 ∨ k = 2 ∨ k = 3 ∨ k = 4 ∨ k = 5 := by omega
  · rw [h0]; rfl
  · rw [h1]; rfl
  · rw [h2]; rfl
  · rw [h3]; rfl
  · rw [h4]; rfl
  · rw [h5]; rfl

theorem decodeWord_isSome {buf : List UInt8} {k : Nat} {w : UInt16} (h : decodeWord buf k = some w) :
    (decodeByte buf k).isSome ∧ (decodeByte buf (k + 1)).isSome := by
  simp only [decodeWord, Option.bind_eq_bind, Option.bind_eq_some_iff] at h
  obtain ⟨_, hHi, _, hLo, -⟩ := h
  exact ⟨by rw [hHi]; rfl, by rw [hLo]; rfl⟩

theorem decodeInfo_isSome {buf : List UInt8} {n i : Nat} {acc info : List UInt8}
    (h : decodeInfo buf i n acc = (true, info)) :
    ∀ k < n, (decodeByte buf (6 + i + k)).isSome := by
  induction n generalizing i acc with
  | zero => exact fun k hk => absurd hk (Nat.not_lt_zero k)
  | succ n ih =>
    rw [decodeInfo] at h
    split at h
    · cases h
    · rename_i b hByte
      intro k hk
      cases k with
      | zero =>
        rw [Nat.add_zero, hByte]
        rfl
      | succ k =>
        rw [show 6 + i + (k + 1) = 6 + (i + 1) + k by omega]
        exact ih h k (by omega)

/-- A closed frame is rejected unless the bytes in front of its EOI are the hex digits of at least
eight bytes. -/
theorem tryParse_unspelled {body : List UInt8} (tail : List UInt8) (hEoi : kEOI ∉ body) :
    (tryParsePylontech (kSOI :: (body ++ kEOI :: tail)) out).1 = -castInt (body.length + 2) ∨
      ∃ bytes, Spells body bytes ∧ 8 ≤ bytes.length := by
  have hEnd : 1 + body.length + 1 = body.length + 2 := by omega
  rw [tryParsePylontech]
  simp only [findIdx_kSOI, List.drop_succ_cons, List.drop_zero, findIdx_append_cons tail hEoi,
    List.length_cons, List.length_append, Nat.add_sub_cancel_left, hEnd]
  rw [if_neg (by omega), if_neg (by omega), if_neg (by omega), if_neg (by omega)]
  split
  · exact .inl rfl
  · rename_i hShort
    simp only [kMinBodyLen] at hShort
    split
    · exact .inl rfl
    · rename_i hHeader
      split
      · exact .inl rfl
      · rename_i hWord
        split
        · exact .inl rfl
        · split
          · exact .inl rfl
          · -- Only here have all pairs been decoded.
            rename_i hInfo
            right
            have hHeaderPairs := decodeHeader_isSome hHeader
            have hChksumPairs := decodeWord_isSome hWord
            have hInfoPairs := decodeInfo_isSome hInfo
            simp only [kMinBodyLen] at hChksumPairs hInfoPairs
            have hLen : body.length = 2 * (8 + (body.length - 16) / 2) := by omega
            obtain ⟨bytes, hBytes⟩ := spells_of_decodeByte hLen (kEOI :: tail) (by
              intro k hk
              by_cases hFront : k < 6
              · exact hHeaderPairs k hFront
              · obtain ⟨j, rfl⟩ := Nat.exists_eq_add_of_le (Nat.le_of_not_lt hFront)
                by_cases hMiddle : j < (body.length - 16) / 2
                · exact hInfoPairs j hMiddle
                · obtain rfl | rfl : j = (body.length - 16) / 2 ∨ j = (body.length - 16) / 2 + 1 := by
                    omega
                  · exact hChksumPairs.1
                  · exact hChksumPairs.2)
            refine ⟨bytes, hBytes, ?_⟩
            have := hBytes.length
            omega

/-- Eight bytes or more are a header of six, INFO and a checksum of two. -/
theorem frame_split {bytes : List UInt8} (h : 8 ≤ bytes.length) :
    ∃ ver adr cid1 cid2 lenHi lenLo info csHi csLo,
      bytes = [ver, adr, cid1, cid2, lenHi, lenLo] ++ info ++ [csHi, csLo] := by
  match bytes with
  | ver :: adr :: cid1 :: cid2 :: lenHi :: lenLo :: rest =>
    simp only [List.length_cons] at h
    have hLast : (rest.drop (rest.length - 2)).length = 2 := by
      rw [List.length_drop]
      omega
    obtain ⟨csHi, csLo, hChksum⟩ := List.length_eq_two.mp hLast
    refine ⟨ver, adr, cid1, cid2, lenHi, lenLo, rest.take (rest.length - 2), csHi, csLo, ?_⟩
    rw [List.append_assoc, ← hChksum, List.take_append_drop]
    rfl

/-- A closed frame is taken or rejected as a whole. -/
theorem tryParse_closed {body : List UInt8} (tail : List UInt8) (hEoi : kEOI ∉ body) :
    (tryParsePylontech (kSOI :: (body ++ kEOI :: tail)) out).1 = castInt (body.length + 2) ∨
      (tryParsePylontech (kSOI :: (body ++ kEOI :: tail)) out).1 = -castInt (body.length + 2) := by
  rcases tryParse_unspelled out tail hEoi with h | ⟨bytes, hBytes, hLen⟩
  · exact .inr h
  · obtain ⟨ver, adr, cid1, cid2, lenHi, lenLo, info, csHi, csLo, rfl⟩ := frame_split hLen
    have hBody : 18 + 2 * info.length = body.length + 2 := by
      rw [hBytes.length]
      simp
      omega
    rw [tryParse_spells hBytes, hBody]
    split
    · exact .inl rfl
    · exact .inr rfl

end Shapes

/-- The frame that the bytes between SOI and EOI spell. -/
def decodeBody (body : List UInt8) : Option PylontechFrame :=
  let (n, f) := tryParsePylontech (kSOI :: (body ++ [kEOI]))
  if 0 < n then some f else none

theorem castInt_fits {n : Nat} (h : n < kIntLimit) : castInt n = n := castInt_of_lt h

theorem tryParse_parses :
    Delimited.Parses (tryParsePylontech ·) kSOI kEOI decodeBody kIntLimit kMaxFrameLen where
  gap gap hNe hSoi hFits := by
    rw [tryParse_gap _ hNe hSoi, castInt_fits hFits]
  skip gap tail hNe hSoi hFits := by
    rw [tryParse_skip _ tail hNe hSoi, castInt_fits hFits]
  begun body hEoi hRoom := by
    rw [tryParse_begun _ hEoi, if_neg (by omega)]
  frame body tail f hEoi hFits hDecode := by
    have hClosed := tryParse_closed {} tail hEoi
    simp only [decodeBody] at hDecode
    rw [castInt_fits hFits, tryParse_tail _ tail hEoi] at hClosed
    rw [tryParse_tail _ tail hEoi]
    split at hDecode
    · obtain rfl := Option.some.inj hDecode
      apply Prod.ext
      · rcases hClosed with h | h
        · exact h
        · omega
      · rfl
    · cases hDecode
  reject body tail hEoi hFits hDecode := by
    have hClosed := tryParse_closed {} tail hEoi
    simp only [decodeBody] at hDecode
    rw [castInt_fits hFits, tryParse_tail _ tail hEoi] at hClosed
    rw [tryParse_tail _ tail hEoi]
    split at hDecode
    · cases hDecode
    · rcases hClosed with h | h
      · omega
      · exact h

end BmsBridge
