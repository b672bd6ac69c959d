import BmsBridge.Jk.Proof.Resync
import Mathlib.Algebra.Ring.Nat
import Mathlib.Data.List.Forall2

/-! What the frame assembler hands out over a whole session of pushes, takes and resets.  A session
numbers the bytes that were pushed and notes for each frame that was returned which of them it may
come from.  Every returned frame stands in the stream at a place of its own, behind the last reset
and behind the frames returned before it. -/

namespace BmsBridge

open JkFrameAssembler

inductive AssemblerCall where
  | push (data : List UInt8)
  | take
  | reset

/-- A returned frame; `since` and `upTo` count the bytes pushed before the last reset and before
the return. -/
structure Returned where
  frame : List UInt8
  since : Nat
  upTo : Nat

structure Session where
  assembler : JkFrameAssembler := {}
  pushed : List UInt8 := []
  resetAt : Nat := 0
  returned : List Returned := []

def Session.call (s : Session) : AssemblerCall → Session
  | .push data => { s with assembler := s.assembler.pushChunk data, pushed := s.pushed ++ data }
  | .take =>
    match s.assembler.takeCompleteFrame with
    | (none, assembler) => { s with assembler }
    | (some frame, assembler) =>
      let r : Returned := { frame, since := s.resetAt, upTo := s.pushed.length }
      { s with assembler, returned := s.returned ++ [r] }
  | .reset => { s with assembler := s.assembler.reset, resetAt := s.pushed.length }

def session (calls : List AssemblerCall) : Session := calls.foldl Session.call {}

/-! ### The checksum -/

theorem jkCrc8_toNat (data : List UInt8) :
    (jkCrc8 data).toNat = (data.map UInt8.toNat).sum % 256 := by
  have hSum (s : UInt16) :
      (data.foldl (fun (s : UInt16) b => s + b.toUInt16) s).toNat % 256 =
        (s.toNat + (data.map UInt8.toNat).sum) % 256 := by
    induction data generalizing s with
    | nil => rfl
    | cons b data ih =>
      rw [List.foldl_cons, ih, UInt16.toNat_add, UInt8.toNat_toUInt16, List.map_cons, List.sum_cons]
      omega
  unfold jkCrc8
  rw [UInt16.toNat_toUInt8, UInt16.toNat_and]
  show (_ &&& (2 ^ 8 - 1)) % 2 ^ 8 = _
  rw [Nat.and_two_pow_sub_one_eq_mod, Nat.mod_mod, hSum 0]
  exact congrArg (· % 256) (Nat.zero_add _)

/-! ### The frame being assembled -/

/-- Less than a frame, and as much of the magic at its front as there is room for. -/
structure Aligned (buf : List UInt8) : Prop where
  short : buf.length < kJkResponseSize
  magic : buf.take 4 = kJkResponseMagic.take buf.length

theorem aligned_nil : Aligned [] := ⟨by decide, rfl⟩

theorem Aligned.cases {buf : List UInt8} (h : Aligned buf) :
    (∃ k < 4, buf = magicPrefix k) ∨ (4 ≤ buf.length ∧ kJkResponseMagic <+: buf) := by
  by_cases hLen : buf.length < 4
  · exact .inl ⟨_, hLen, (List.take_of_length_le (by omega)).symm.trans h.magic⟩
  · have hFull : kJkResponseMagic.take buf.length = kJkResponseMagic :=
      List.take_of_length_le (by simp only [kJkResponseMagic, List.length_cons, List.length_nil]; omega)
    exact .inr ⟨by omega, hFull ▸ h.magic ▸ List.take_prefix 4 buf⟩

theorem aligned_magicPrefix : ∀ k ≤ 4, Aligned (magicPrefix k) := by
  intro k hk
  refine ⟨?_, ?_⟩
  · rw [length_magicPrefix hk, kJkResponseSize]
    omega
  · rw [length_magicPrefix hk, List.take_take, Nat.min_eq_right hk]

theorem aligned_of_prefix {buf : List UInt8} (hMagic : kJkResponseMagic <+: buf)
    (hShort : buf.length < kJkResponseSize) : Aligned buf := by
  obtain ⟨body, rfl⟩ := hMagic
  refine ⟨hShort, ?_⟩
  rw [List.take_of_length_le (l := kJkResponseMagic) (by simp)]
  exact List.take_left' rfl

/-- A byte is dropped with what was matched, continues the frame, or completes one. -/
theorem pushByte_cases {buf : List UInt8} (h : Aligned buf) (ready : List UInt8) (b : UInt8) :
    pushByte { buf, ready } b = { buf := [], ready } ∨
    (pushByte { buf, ready } b = { buf := buf ++ [b], ready } ∧ Aligned (buf ++ [b])) ∨
    (pushByte { buf, ready } b = { buf := [], ready := buf ++ [b] } ∧ ValidFrame (buf ++ [b])) := by
  obtain ⟨k, hk, rfl⟩ | ⟨hLow, hMagic⟩ := h.cases
  · by_cases hb : b = byteAt kJkResponseMagic k
    · have hMatch : ∀ k < 4, magicPrefix k ++ [byteAt kJkResponseMagic k] = magicPrefix (k + 1) ∧
          pushByte { buf := magicPrefix k } (byteAt kJkResponseMagic k) =
            { buf := magicPrefix (k + 1) } := by decide
      obtain ⟨hBuf, hPush⟩ := hMatch k hk
      rw [hb, pushByte_eq, hPush, hBuf]
      exact .inr (.inl ⟨rfl, aligned_magicPrefix _ hk⟩)
    · exact .inl (pushByte_mismatch hk hb ready)
  · have hMagic' : kJkResponseMagic <+: buf ++ [b] := hMagic.trans (List.prefix_append _ _)
    by_cases hEnd : buf.length + 1 = kJkResponseSize
    · rw [pushByte_last buf hEnd hMagic ready b]
      split
      · exact .inr (.inr ⟨rfl, ‹_›⟩)
      · exact .inl rfl
    · have hHigh : buf.length + 1 < kJkResponseSize := by
        have := h.short
        omega
      exact .inr (.inl ⟨pushByte_grow hLow hHigh ready b,
        aligned_of_prefix hMagic' (by simpa using hHigh)⟩)

theorem Aligned.partialAfter {buf : List UInt8} (h : Aligned buf) : partialAfter [] buf = buf := by
  obtain ⟨k, hk, rfl⟩ | ⟨-, body, rfl⟩ := h.cases
  · exact partialAfter_prefix k (by omega)
  · have hShort := h.short
    rw [List.length_append] at hShort
    have hHead : BmsBridge.partialAfter [] kJkResponseMagic = kJkResponseMagic :=
      partialAfter_prefix 4 (by decide)
    rw [partialAfter_append, hHead]
    exact (push_grow kJkResponseMagic body (by decide) hShort).1

/-! ### Places in the stream -/

/-- `frame` is a valid frame and stands at `p` of the stream, between `since` and `upTo`. -/
structure FrameAt (stream : List UInt8) (since upTo p : Nat) (frame : List UInt8) : Prop where
  since : since ≤ p
  upTo : p + kJkResponseSize ≤ upTo
  bytes : (stream.drop p).take kJkResponseSize = frame
  valid : ValidFrame frame

theorem FrameAt.append {stream : List UInt8} {since upTo upTo' p : Nat} {frame : List UInt8}
    (h : FrameAt stream since upTo p frame) (hUpTo : upTo ≤ upTo') (more : List UInt8) :
    FrameAt (stream ++ more) since upTo' p frame := by
  have hLen : kJkResponseSize ≤ (stream.drop p).length := by
    have := h.valid.length
    rw [← h.bytes, List.length_take] at this
    omega
  refine ⟨h.since, Nat.le_trans h.upTo hUpTo, ?_, h.valid⟩
  rw [List.drop_append_of_le_length (by simp [kJkResponseSize] at hLen; omega),
    List.take_append_of_le_length hLen]
  exact h.bytes

/-- `starts` are the places of the returned frames; the buffer is the end of the stream behind them
all, and a frame in the slot stands between. -/
structure Placed (s : Session) (starts : List Nat) : Prop where
  aligned : Aligned s.assembler.buf
  buf : s.assembler.buf <:+ s.pushed
  since : s.resetAt + s.assembler.buf.length ≤ s.pushed.length
  returned : List.Forall₂ (fun p (r : Returned) => FrameAt s.pushed r.since r.upTo p r.frame)
    starts s.returned
  apart : starts.Pairwise fun p q => p + kJkResponseSize ≤ q
  behind : ∀ p ∈ starts, p + kJkResponseSize + s.assembler.buf.length ≤ s.pushed.length
  ready : s.assembler.ready ≠ [] →
    ∃ p, FrameAt s.pushed s.resetAt (s.pushed.length - s.assembler.buf.length) p s.assembler.ready ∧
      ∀ q ∈ starts, q + kJkResponseSize ≤ p

theorem placed_initial : Placed {} [] :=
  ⟨aligned_nil, List.nil_suffix, by simp, .nil, .nil, by simp, fun h => absurd rfl h⟩

def Session.byte (s : Session) (b : UInt8) : Session :=
  { s with assembler := s.assembler.pushByte b, pushed := s.pushed ++ [b] }

theorem Session.call_push (s : Session) (data : List UInt8) :
    s.call (.push data) = data.foldl Session.byte s := by
  induction data generalizing s with
  | nil => simp [Session.call, pushChunk]
  | cons b data ih =>
    rw [List.foldl_cons, ← ih]
    simp [Session.call, Session.byte, pushChunk]

theorem Placed.byte {s : Session} {starts : List Nat} (h : Placed s starts) (b : UInt8) :
    Placed (s.byte b) starts := by
  obtain ⟨⟨buf, ready⟩, pushed, resetAt, returned⟩ := s
  obtain ⟨hAligned, ⟨front, hBuf⟩, hSince, hReturned, hApart, hBehind, hReady⟩ := h
  simp only at hAligned hBuf hSince hReturned hApart hBehind hReady
  have hLen : pushed.length = front.length + buf.length := by
    rw [← hBuf, List.length_append]
  have hLen' : (pushed ++ [b]).length = pushed.length + 1 := by simp
  have hReturned' := hReturned.imp fun p r hAt => hAt.append (Nat.le_refl _) [b]
  unfold Session.byte
  obtain hPush | ⟨hPush, hGrown⟩ | ⟨hPush, hFrame⟩ := pushByte_cases hAligned ready b
  · rw [hPush]
    refine ⟨aligned_nil, List.nil_suffix, ?_, hReturned', hApart, fun p hp => ?_, fun hSome => ?_⟩
    · simp only [List.length_nil, hLen']
      omega
    · have := hBehind p hp
      simp only [List.length_nil, hLen']
      omega
    · obtain ⟨p, hAt, hFirst⟩ := hReady hSome
      exact ⟨p, hAt.append (by simp only [List.length_nil, hLen']; omega) [b], hFirst⟩
  · rw [hPush]
    have hEnd : buf ++ [b] <:+ pushed ++ [b] := ⟨front, by rw [← List.append_assoc, hBuf]⟩
    refine ⟨hGrown, hEnd, ?_, hReturned', hApart, fun p hp => ?_, fun hSome => ?_⟩
    · simp only [List.length_append, List.length_singleton]
      omega
    · have := hBehind p hp
      simp only [List.length_append, List.length_singleton]
      omega
    · obtain ⟨p, hAt, hFirst⟩ := hReady hSome
      refine ⟨p, hAt.append ?_ [b], hFirst⟩
      simp only [List.length_append, List.length_singleton]
      omega
  · -- The finished frame stands where the buffer began.
    rw [hPush]
    have hSize : buf.length + 1 = kJkResponseSize := by simpa using hFrame.length
    refine ⟨aligned_nil, List.nil_suffix, ?_, hReturned', hApart, fun p hp => ?_,
      fun _ => ⟨front.length, ⟨?_, ?_, ?_, hFrame⟩, fun q hq => ?_⟩⟩
    · simp only [List.length_nil, hLen']
      omega
    · have := hBehind p hp
      simp only [List.length_nil, hLen']
      omega
    · simp only
      omega
    · simp only [List.length_nil, hLen']
      omega
    · have hDrop : (pushed ++ [b]).drop front.length = buf ++ [b] := by
        rw [← hBuf, List.append_assoc, List.drop_left]
      simp only [hDrop]
      exact List.take_of_length_le (Nat.le_of_eq hFrame.length)
    · have := hBehind q hq
      omega

theorem Placed.take {s : Session} {starts : List Nat} (h : Placed s starts) :
    ∃ starts', Placed (s.call .take) starts' := by
  unfold Session.call takeCompleteFrame
  by_cases hNone : s.assembler.ready = []
  · rw [if_pos hNone]
    exact ⟨starts, h⟩
  · rw [if_neg hNone]
    obtain ⟨p, hAt, hFirst⟩ := h.ready hNone
    have hEnd := hAt.upTo
    have hSince := h.since
    refine ⟨starts ++ [p], h.aligned, h.buf, hSince, ?_, ?_, fun q hq => ?_, fun hSome => ?_⟩
    · refine List.rel_append h.returned (.cons ⟨hAt.since, ?_, hAt.bytes, hAt.valid⟩ .nil)
      exact Nat.le_trans hEnd (Nat.sub_le _ _)
    · refine List.pairwise_append.mpr ⟨h.apart, List.pairwise_singleton _ _, fun q hq r hr => ?_⟩
      rw [List.mem_singleton.mp hr]
      exact hFirst q hq
    · rcases List.mem_append.mp hq with hq | hq
      · exact h.behind q hq
      · rw [List.mem_singleton.mp hq]
        show p + kJkResponseSize + s.assembler.buf.length ≤ s.pushed.length
        omega
    · exact absurd rfl hSome

theorem Placed.reset {s : Session} {starts : List Nat} (h : Placed s starts) :
    Placed (s.call .reset) starts := by
  refine ⟨aligned_nil, List.nil_suffix, Nat.le_refl _, h.returned, h.apart, fun p hp => ?_,
    fun hSome => absurd rfl hSome⟩
  have := h.behind p hp
  show p + kJkResponseSize + 0 ≤ s.pushed.length
  omega

theorem Placed.call {s : Session} {starts : List Nat} (h : Placed s starts) (c : AssemblerCall) :
    ∃ starts', Placed (s.call c) starts' := by
  cases c with
  | push data =>
    rw [Session.call_push]
    refine ⟨starts, ?_⟩
    induction data generalizing s with
    | nil => exact h
    | cons b data ih => exact ih (h.byte b)
  | take => exact h.take
  | reset => exact ⟨starts, h.reset⟩

theorem session_placed (calls : List AssemblerCall) : ∃ starts, Placed (session calls) starts := by
  have hRun (calls : List AssemblerCall) (s : Session) (starts : List Nat) (h : Placed s starts) :
      ∃ starts', Placed (calls.foldl Session.call s) starts' := by
    induction calls generalizing s starts with
    | nil => exact ⟨starts, h⟩
    | cons c calls ih =>
      obtain ⟨starts', h'⟩ := h.call c
      exact ih _ starts' h'
  exact hRun calls {} [] placed_initial

/-- Over any session, every frame that was returned is 300 bytes in a row that were pushed between
the last reset and the return, with the magic in front and their sum at the end; no two of them
share a byte, they come in the order of the stream, and what is left in the buffer is shorter than
a frame and begins like one. -/
theorem returned_frames (calls : List AssemblerCall) :
    (∃ starts : List Nat,
      List.Forall₂ (fun p (r : Returned) =>
        r.since ≤ p ∧ p + 300 ≤ r.upTo ∧ r.frame = ((session calls).pushed.drop p).take 300 ∧
          r.frame.length = 300 ∧ kJkResponseMagic <+: r.frame ∧
          (byteAt r.frame 299).toNat = ((r.frame.take 299).map UInt8.toNat).sum % 256)
        starts (session calls).returned ∧
      starts.Pairwise fun p q => p + 300 ≤ q) ∧
    (session calls).assembler.buf.length < 300 ∧
    (session calls).assembler.buf.take 4 =
      kJkResponseMagic.take (session calls).assembler.buf.length := by
  obtain ⟨starts, h⟩ := session_placed calls
  refine ⟨⟨starts, h.returned.imp fun p r hAt => ?_, h.apart⟩, h.aligned.short, h.aligned.magic⟩
  refine ⟨hAt.since, hAt.upTo, hAt.bytes.symm, hAt.valid.length, hAt.valid.magic, ?_⟩
  rw [← jkCrc8_toNat]
  exact congrArg UInt8.toNat hAt.valid.crc.symm

/-! ### Recovery -/

theorem partialAfter_quiet {bytes : List UInt8}
    (hQuiet : ∀ b ∈ bytes, b ≠ byteAt kJkResponseMagic 0) : partialAfter [] bytes = [] := by
  induction bytes with
  | nil => rfl
  | cons b bytes ih =>
    have hSkip := (mismatch_skipped (k := 0) (by decide) (hQuiet b List.mem_cons_self) bytes).1
    exact hSkip.trans (ih fun c hc => hQuiet c (List.mem_cons_of_mem b hc))

/-- A frame whose first byte does not come again empties any buffer: it is taken whole, dropped
behind an unfinished magic, or it ends the frame in the buffer and its rest is skipped. -/
theorem partialAfter_frame {buf frame : List UInt8} (h : Aligned buf) (hFrame : ValidFrame frame)
    (hOnce : ∀ i < 300, byteAt frame i = 0x55 → i = 0) : partialAfter buf frame = [] := by
  have hQuiet {j : Nat} (hj : 0 < j) : ∀ b ∈ frame.drop j, b ≠ byteAt kJkResponseMagic 0 := by
    intro b hb hEq
    obtain ⟨i, hi, rfl⟩ := List.mem_iff_getElem.mp hb
    have hLen := hFrame.length
    rw [List.length_drop, hLen, kJkResponseSize] at hi
    have hAt : byteAt frame (j + i) = 0x55 := by
      rw [byteAt, List.getD_eq_getElem?_getD, List.getElem?_eq_getElem (by
        rw [hLen, kJkResponseSize]; omega), ← List.getElem_drop]
      exact hEq
    have := hOnce (j + i) (by omega) hAt
    omega
  obtain ⟨k, hk, rfl⟩ | ⟨hLow, hMagic⟩ := h.cases
  · by_cases hZero : k = 0
    · subst hZero
      exact (push_frame hFrame.length hFrame.magic).1
    · obtain ⟨body, hBody⟩ := hFrame.magic
      have hDiffers : ∀ k < 4, k ≠ 0 → byteAt kJkResponseMagic 0 ≠ byteAt kJkResponseMagic k := by
        decide
      have hRest : frame = byteAt kJkResponseMagic 0 :: frame.drop 1 := by
        rw [← hBody]
        rfl
      rw [← partialAfter_prefix k (by omega), ← partialAfter_append, hRest,
        (mismatch_skipped hk (hDiffers k hk hZero) _).1]
      exact partialAfter_quiet (hQuiet (by decide))
  · have hShort := h.short
    have hLen := hFrame.length
    have hWhole : partialAfter [] (buf ++ frame.take (kJkResponseSize - buf.length)) = [] := by
      refine (push_frame ?_ (hMagic.trans (List.prefix_append _ _))).1
      rw [List.length_append, List.length_take]
      omega
    rw [partialAfter_append, h.partialAfter] at hWhole
    conv => lhs; rw [← List.take_append_drop (kJkResponseSize - buf.length) frame]
    rw [partialAfter_append, hWhole]
    exact partialAfter_quiet (hQuiet (by omega))

/-- Whatever was pushed, taken and reset before: of two valid frames in a row, the first with its
first byte nowhere else, the second is the one that is taken, however the two are cut into
chunks. -/
theorem recovers_within_two_frames (calls : List AssemblerCall) (f1 f2 : List UInt8)
    (chunks : List (List UInt8)) (h1 : ValidFrame f1) (h2 : ValidFrame f2)
    (hOnce : ∀ i < 300, byteAt f1 i = 0x55 → i = 0) (hChunks : chunks.flatten = f1 ++ f2) :
    (pushChunks (session calls).assembler chunks).takeCompleteFrame.1 = some f2 := by
  obtain ⟨starts, hPlaced⟩ := session_placed calls
  have hAligned := hPlaced.aligned
  generalize (session calls).assembler = a at hAligned ⊢
  obtain ⟨buf, ready⟩ := a
  have hEmpty : partialAfter buf f1 = [] := partialAfter_frame hAligned h1 hOnce
  rw [pushChunks_eq, hChunks, pushChunk_eq, completed_append, hEmpty, frame_kept h2,
    List.getLast?_concat, Option.getD_some, takeCompleteFrame, if_neg h2.ne_nil]

theorem emptyCellInfo_once : ∀ i < 300, byteAt emptyCellInfo i = 0x55 → i = 0 := by
  have hNone : 0x55 ∉ emptyCellInfo.drop 1 := by decide +kernel
  intro i hi hByte
  cases i with
  | zero => rfl
  | succ i =>
    have hLen : 1 + i < emptyCellInfo.length := by
      rw [emptyCellInfo_valid.length, kJkResponseSize]
      omega
    have hMem : byteAt emptyCellInfo (i + 1) ∈ emptyCellInfo.drop 1 := by
      refine List.mem_iff_getElem.mpr ⟨i, ?_, ?_⟩
      · rw [List.length_drop]
        omega
      · rw [List.getElem_drop, byteAt, Nat.add_comm i 1, List.getD_eq_getElem?_getD,
          List.getElem?_eq_getElem hLen, Option.getD_some]
    rw [hByte] at hMem
    exact absurd hMem hNone

/-- From the middle of a frame of which chunks were lost. -/
theorem recovers_within_two_frames_lost_chunk :
    (pushChunks (session [.push (emptyCellInfo.take 40)]).assembler
      [emptyCellInfo ++ emptyCellInfo]).takeCompleteFrame.1 = some emptyCellInfo :=
  recovers_within_two_frames _ emptyCellInfo emptyCellInfo _ emptyCellInfo_valid
    emptyCellInfo_valid emptyCellInfo_once (by simp)

end BmsBridge
