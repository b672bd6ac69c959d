import BmsBridge.Jk.Protocol
import BmsBridge.Lib.Agreement

/-! What the frame assembler does with a byte stream.  `framesIn` says which frames a stream holds:
it skips bytes until the response magic, takes 300 bytes from there, and keeps them when their
checksum is right.  The assembler completes exactly these frames, one byte at a time. -/

namespace BmsBridge

/-- A response frame: 300 bytes that begin with the response magic and end with the sum of the
others. -/
structure ValidFrame (frame : List UInt8) : Prop where
  length : frame.length = kJkResponseSize
  magic : kJkResponseMagic <+: frame
  crc : jkCrc8 (frame.take (kJkResponseSize - 1)) = byteAt frame (kJkResponseSize - 1)

instance (frame : List UInt8) : Decidable (ValidFrame frame) :=
  decidable_of_iff (frame.length = kJkResponseSize ∧ kJkResponseMagic <+: frame ∧
      jkCrc8 (frame.take (kJkResponseSize - 1)) = byteAt frame (kJkResponseSize - 1))
    ⟨fun ⟨h1, h2, h3⟩ => ⟨h1, h2, h3⟩, fun ⟨h1, h2, h3⟩ => ⟨h1, h2, h3⟩⟩

abbrev magicPrefix (k : Nat) : List UInt8 := kJkResponseMagic.take k

theorem length_magicPrefix {k : Nat} (hk : k ≤ 4) : (magicPrefix k).length = k := by
  rw [List.length_take]
  exact Nat.min_eq_left hk

/-! ### One byte -/

namespace JkFrameAssembler

theorem pushByte_mismatch {k : Nat} (hk : k < 4) {b : UInt8} (hb : b ≠ byteAt kJkResponseMagic k)
    (ready : List UInt8) :
    pushByte { buf := magicPrefix k, ready } b = { buf := [], ready } := by
  by_cases h0 : k = 0
  · subst h0
    rw [pushByte, if_pos ⟨rfl, hb⟩]
    rfl
  · have hNe : magicPrefix k ≠ [] := by
      intro h
      have := length_magicPrefix (show k ≤ 4 by omega)
      rw [h] at this
      exact h0 this.symm
    have hLen : (magicPrefix k ++ [b]).length = k + 1 := by
      rw [List.length_append, length_magicPrefix (by omega)]; rfl
    have hLast : byteAt (magicPrefix k ++ [b]) k = b := by
      rw [byteAt, List.getD_eq_getElem?_getD,
        List.getElem?_append_right (Nat.le_of_eq (length_magicPrefix (by omega))),
        length_magicPrefix (by omega), Nat.sub_self]
      rfl
    simp only [pushByte, if_neg (show ¬(magicPrefix k = [] ∧ _) from fun h => hNe h.1), hLen,
      Nat.add_sub_cancel, hLast]
    rw [if_pos ⟨by omega, hb⟩]

theorem pushByte_grow {buf : List UInt8} (hLow : 4 ≤ buf.length)
    (hHigh : buf.length + 1 < kJkResponseSize) (ready : List UInt8) (b : UInt8) :
    pushByte { buf, ready } b = { buf := buf ++ [b], ready } := by
  have hNe : buf ≠ [] := List.ne_nil_of_length_pos (by omega)
  have hLen : (buf ++ [b]).length = buf.length + 1 := by simp
  simp only [pushByte, if_neg (show ¬(buf = [] ∧ _) from fun h => hNe h.1), hLen]
  rw [if_neg (by omega), if_neg (by omega)]

/-- The last byte of a frame empties the buffer, and fills the slot when the checksum is right. -/
theorem pushByte_last (buf : List UInt8) (hLen : buf.length + 1 = kJkResponseSize)
    (hMagic : kJkResponseMagic <+: buf) (ready : List UInt8) (b : UInt8) :
    pushByte { buf, ready } b =
      { buf := [], ready := if ValidFrame (buf ++ [b]) then buf ++ [b] else ready } := by
  have hNe : buf ≠ [] := List.ne_nil_of_length_pos (by simp [kJkResponseSize] at hLen; omega)
  have hLen' : (buf ++ [b]).length = kJkResponseSize := by simpa using hLen
  have hValid : ValidFrame (buf ++ [b]) ↔
      jkCrc8 ((buf ++ [b]).take (kJkResponseSize - 1)) =
        byteAt (buf ++ [b]) (kJkResponseSize - 1) :=
    ⟨fun h => h.crc, fun h => ⟨hLen', hMagic.trans (List.prefix_append _ _), h⟩⟩
  simp only [pushByte, if_neg (show ¬(buf = [] ∧ _) from fun h => hNe h.1), hLen', ← hValid]
  rw [if_neg (by simp [kJkResponseSize]), if_pos trivial]
  split <;> rfl

/-- The slot has no part in how a byte is taken; it is only overwritten. -/
theorem pushByte_eq (buf ready : List UInt8) (b : UInt8) :
    pushByte { buf, ready } b =
      { buf := (pushByte { buf } b).buf,
        ready := if (pushByte { buf } b).ready = [] then ready else (pushByte { buf } b).ready } := by
  simp only [pushByte]
  split
  · rfl
  · split
    · rfl
    · split
      · split <;> simp
      · rfl

end JkFrameAssembler

/-! ### Bytes in a row -/

open JkFrameAssembler

def partialAfter (buf bytes : List UInt8) : List UInt8 := (pushChunk { buf } bytes).buf

/-- The frames that `bytes` complete, in order, from the buffer `buf`. -/
def completed (buf : List UInt8) : List UInt8 → List (List UInt8)
  | [] => []
  | b :: bytes =>
    let a := pushByte { buf } b
    (if a.ready = [] then [] else [a.ready]) ++ completed a.buf bytes

/-- A chunk leaves the last frame that it completes in the slot, if it completes one. -/
theorem pushChunk_eq (buf ready bytes : List UInt8) :
    pushChunk { buf, ready } bytes =
      { buf := partialAfter buf bytes, ready := (completed buf bytes).getLast?.getD ready } := by
  induction bytes generalizing buf ready with
  | nil => rfl
  | cons b bytes ih =>
    have hStep (r : List UInt8) : pushChunk { buf, ready := r } (b :: bytes) =
        pushChunk (pushByte { buf, ready := r } b) bytes := rfl
    have hBuf : partialAfter buf (b :: bytes) = partialAfter (pushByte { buf } b).buf bytes := by
      rw [partialAfter, hStep, pushByte_eq, ih]
    rw [hStep, pushByte_eq, ih, hBuf, completed]
    by_cases h : (pushByte { buf } b).ready = []
    · simp [h]
    · cases completed (pushByte { buf } b).buf bytes with
      | nil => simp [h]
      | cons f fs => simp [h, List.getLast?_cons]

theorem partialAfter_append (buf xs ys : List UInt8) :
    partialAfter buf (xs ++ ys) = partialAfter (partialAfter buf xs) ys := by
  have hSplit : pushChunk { buf } (xs ++ ys) = pushChunk (pushChunk { buf } xs) ys :=
    List.foldl_append
  rw [partialAfter, hSplit, pushChunk_eq buf, pushChunk_eq]

theorem completed_append (buf xs ys : List UInt8) :
    completed buf (xs ++ ys) = completed buf xs ++ completed (partialAfter buf xs) ys := by
  induction xs generalizing buf with
  | nil => rfl
  | cons b xs ih =>
    have hBuf : partialAfter buf (b :: xs) = partialAfter (pushByte { buf } b).buf xs := by
      rw [← List.singleton_append, partialAfter_append]; rfl
    rw [List.cons_append, completed, completed, ih, hBuf, List.append_assoc]

theorem partialAfter_prefix : ∀ k, k ≤ 4 → partialAfter [] (magicPrefix k) = magicPrefix k := by
  decide

theorem completed_prefix : ∀ k, k ≤ 4 → completed [] (magicPrefix k) = [] := by
  decide

theorem mismatch_skipped {k : Nat} (hk : k < 4) {b : UInt8} (hb : b ≠ byteAt kJkResponseMagic k)
    (bytes : List UInt8) :
    partialAfter [] (magicPrefix k ++ b :: bytes) = partialAfter [] bytes ∧
      completed [] (magicPrefix k ++ b :: bytes) = completed [] bytes := by
  have hPush := pushByte_mismatch hk hb []
  have hBlock : partialAfter [] (magicPrefix k ++ [b]) = [] := by
    rw [partialAfter_append, partialAfter_prefix k (by omega)]
    exact congrArg JkFrameAssembler.buf hPush
  have hNone : completed [] (magicPrefix k ++ [b]) = [] := by
    rw [completed_append, partialAfter_prefix k (by omega), completed_prefix k (by omega)]
    simp [completed, hPush]
  rw [List.append_cons, partialAfter_append, completed_append, hBlock, hNone]
  exact ⟨rfl, rfl⟩

theorem push_grow (buf bytes : List UInt8) (hLow : 4 ≤ buf.length)
    (hHigh : buf.length + bytes.length < kJkResponseSize) :
    partialAfter buf bytes = buf ++ bytes ∧ completed buf bytes = [] := by
  induction bytes generalizing buf with
  | nil => exact ⟨(List.append_nil buf).symm, rfl⟩
  | cons b bytes ih =>
    rw [List.length_cons] at hHigh
    have hPush := pushByte_grow hLow (by omega) [] b
    obtain ⟨hBuf, hNone⟩ := ih (buf ++ [b]) (by simp; omega) (by simp; omega)
    have hStep : partialAfter buf [b] = buf ++ [b] := congrArg JkFrameAssembler.buf hPush
    refine ⟨?_, ?_⟩
    · rw [← List.singleton_append, partialAfter_append, hStep, hBuf, List.append_assoc]
    · simp only [completed, hPush, ↓reduceIte, hNone, List.append_nil]

/-- 300 bytes that begin with the magic leave the buffer empty, and are a completed frame when
their checksum is right. -/
theorem push_frame {frame : List UInt8} (hLen : frame.length = kJkResponseSize)
    (hMagic : kJkResponseMagic <+: frame) :
    partialAfter [] frame = [] ∧
      completed [] frame = if ValidFrame frame then [frame] else [] := by
  obtain ⟨body, rfl⟩ := hMagic
  obtain ⟨mid, last, rfl⟩ : ∃ mid last, body = mid ++ [last] := by
    have hBody : body ≠ [] := by
      rintro rfl
      simp [kJkResponseSize, kJkResponseMagic] at hLen
    exact ⟨body.dropLast, body.getLast hBody, (List.dropLast_concat_getLast hBody).symm⟩
  have hMid : kJkResponseMagic.length + mid.length + 1 = kJkResponseSize := by
    simpa [Nat.add_assoc] using hLen
  have hMagicBuf : partialAfter [] kJkResponseMagic = kJkResponseMagic :=
    partialAfter_prefix 4 (by omega)
  have hMagicNone : completed [] kJkResponseMagic = [] := completed_prefix 4 (by omega)
  obtain ⟨hBuf, hNone⟩ := push_grow kJkResponseMagic mid (by decide) (by omega)
  have hPush := pushByte_last (kJkResponseMagic ++ mid) (by simpa using hMid)
    (List.prefix_append _ _) [] last
  rw [← List.append_assoc]
  refine ⟨?_, ?_⟩
  · rw [partialAfter_append, partialAfter_append, hMagicBuf, hBuf]
    exact congrArg JkFrameAssembler.buf hPush
  · rw [completed_append, completed_append, partialAfter_append, hMagicBuf, hMagicNone, hBuf, hNone]
    simp only [completed, hPush]
    split <;> simp [kJkResponseMagic]

/-- A byte makes the buffer longer by at most one, and ends a frame only when the buffer is one
byte short of it. -/
theorem pushByte_length (buf : List UInt8) (b : UInt8) :
    (pushByte { buf } b).buf.length ≤ buf.length + 1 ∧
      ((pushByte { buf } b).ready ≠ [] → buf.length + 1 = kJkResponseSize ∧
        (pushByte { buf } b).buf = []) := by
  simp only [pushByte]
  split
  · simp
  · split
    · simp
    · split
      · split <;> simp_all
      · simp

theorem completed_short {buf bytes : List UInt8}
    (h : buf.length + bytes.length < kJkResponseSize) : completed buf bytes = [] := by
  induction bytes generalizing buf with
  | nil => rfl
  | cons b bytes ih =>
    rw [List.length_cons] at h
    obtain ⟨hLen, hReady⟩ := pushByte_length buf b
    have hNone : (pushByte { buf } b).ready = [] :=
      Decidable.byContradiction fun hSome => by
        have := (hReady hSome).1
        omega
    simp only [completed, hNone, ↓reduceIte, List.nil_append]
    exact ih (by omega)

/-! ### The frames of a stream -/

open Agreement

/-- The frames that a byte stream holds: bytes that do not begin with the magic are skipped up to
and with the first one that disagrees with it, and 300 bytes behind a magic are one frame, kept when
it is valid. -/
def framesIn (s : List UInt8) : List (List UInt8) :=
  if s = [] then []
  else if kJkResponseMagic <+: s then
    if kJkResponseSize ≤ s.length then
      (if ValidFrame (s.take kJkResponseSize) then [s.take kJkResponseSize] else []) ++
        framesIn (s.drop kJkResponseSize)
    else []
  else framesIn (s.drop (agreement s kJkResponseMagic + 1))
termination_by s.length
decreasing_by
  all_goals
    have hPos := List.length_pos_iff.mpr ‹s ≠ []›
    simp only [List.length_drop, kJkResponseSize]
    omega

theorem not_magic_cases {s : List UInt8} (h : ¬kJkResponseMagic <+: s) :
    agreement s kJkResponseMagic < 4 ∧
      (s = magicPrefix (agreement s kJkResponseMagic) ∨
        ∃ b rest, b ≠ byteAt kJkResponseMagic (agreement s kJkResponseMagic) ∧
          s = magicPrefix (agreement s kJkResponseMagic) ++ b :: rest) := by
  obtain ⟨hLt, hEnd | ⟨b, rest, hs, hb⟩⟩ := split_of_not_prefix h
  · exact ⟨hLt, .inl hEnd⟩
  · refine ⟨hLt, .inr ⟨b, rest, fun hEq => hb ?_, hs⟩⟩
    rw [List.getElem?_eq_getElem hLt, hEq, byteAt, List.getD_eq_getElem?_getD,
      List.getElem?_eq_getElem hLt]
    rfl

/-- The assembler completes exactly the frames that the stream holds. -/
theorem completed_eq_framesIn (s : List UInt8) : completed [] s = framesIn s := by
  induction hn : s.length using Nat.strongRecOn generalizing s with
  | _ n ih =>
  by_cases hNil : s = []
  · rw [hNil, framesIn, if_pos rfl]
    rfl
  have hPos := List.length_pos_iff.mpr hNil
  rw [framesIn, if_neg hNil]
  by_cases hMagic : kJkResponseMagic <+: s
  · rw [if_pos hMagic]
    split
    · rename_i hLong
      have hTake : (s.take kJkResponseSize).length = kJkResponseSize := by
        rw [List.length_take]; omega
      have hTakeMagic : kJkResponseMagic <+: s.take kJkResponseSize :=
        List.prefix_take_iff.mpr ⟨hMagic, by decide⟩
      obtain ⟨hBuf, hFrame⟩ := push_frame hTake hTakeMagic
      have hRest := ih _ (by rw [List.length_drop]; simp only [kJkResponseSize]; omega)
        (s.drop kJkResponseSize) rfl
      rw [← hRest, ← hFrame]
      conv => lhs; rw [← List.take_append_drop kJkResponseSize s, completed_append, hBuf]
    · exact completed_short (by simp only [List.length_nil]; omega)
  · rw [if_neg hMagic]
    obtain ⟨hLt, hCases⟩ := not_magic_cases hMagic
    generalize agreement s kJkResponseMagic = k at hLt hCases ⊢
    obtain rfl | ⟨b, rest, hb, rfl⟩ := hCases
    · have hDrop : (magicPrefix k).drop (k + 1) = [] :=
        List.drop_of_length_le (by rw [length_magicPrefix (by omega)]; omega)
      rw [hDrop, framesIn, if_pos rfl]
      exact completed_prefix k (by omega)
    · have hBlock : (magicPrefix k ++ [b]).length = k + 1 := by
        rw [List.length_append, length_magicPrefix (by omega)]
        rfl
      have hDrop : (magicPrefix k ++ b :: rest).drop (k + 1) = rest := by
        rw [List.append_cons, ← hBlock, List.drop_left]
      have hShort : rest.length < n := by
        rw [← hn, List.append_cons, List.length_append, hBlock]
        omega
      rw [hDrop, ← ih rest.length hShort rest rfl]
      exact (mismatch_skipped hLt hb rest).2

theorem framesIn_valid {s frame : List UInt8} (h : frame ∈ framesIn s) : ValidFrame frame := by
  induction hn : s.length using Nat.strongRecOn generalizing s with
  | _ n ih =>
  rw [framesIn] at h
  split at h
  · cases h
  · rename_i hNil
    have hPos := List.length_pos_iff.mpr hNil
    have hShort (m : Nat) : (s.drop (m + 1)).length < n := by
      rw [List.length_drop]
      omega
    split at h
    · split at h
      · rcases List.mem_append.mp h with hHead | hTail
        · split at hHead
          · rename_i hValid
            rwa [List.mem_singleton.mp hHead]
          · cases hHead
        · exact ih _ (hShort 299) hTail rfl
      · cases h
    · exact ih _ (hShort _) h rfl

theorem ValidFrame.ne_nil {frame : List UInt8} (h : ValidFrame frame) : frame ≠ [] := by
  rintro rfl
  exact absurd h.length (by decide)

end BmsBridge
