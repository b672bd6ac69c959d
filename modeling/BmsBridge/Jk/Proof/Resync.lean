import BmsBridge.Jk.Proof.Assembler

/-! Garbage in front of a frame.  The assembler's prefix matcher drops the byte that disagrees with
the magic even when that byte begins the magic anew, so a frame behind an unfinished magic is lost.
`Skipped` describes the garbage that the matcher gets out of whole, and a frame behind garbage
without the magic is delivered exactly when the garbage is `Skipped`. -/

namespace BmsBridge

open JkFrameAssembler

/-- Blocks in a row, each of some first bytes of the magic and one byte that is not the next one
of it. -/
inductive Skipped : List UInt8 → Prop
  | nil : Skipped []
  | block {k : Nat} {b : UInt8} {g : List UInt8} (hk : k < 4)
      (hb : b ≠ byteAt kJkResponseMagic k) (rest : Skipped g) : Skipped (magicPrefix k ++ b :: g)

def pushChunks (a : JkFrameAssembler) (chunks : List (List UInt8)) : JkFrameAssembler :=
  chunks.foldl pushChunk a

/-- Chunk boundaries have no part in what the assembler holds. -/
theorem pushChunks_eq (a : JkFrameAssembler) (chunks : List (List UInt8)) :
    pushChunks a chunks = pushChunk a chunks.flatten := by
  induction chunks generalizing a with
  | nil => rfl
  | cons c cs ih =>
    rw [List.flatten_cons, pushChunk, List.foldl_append]
    exact ih (pushChunk a c)

theorem Skipped.pushed {g : List UInt8} (hg : Skipped g) (s : List UInt8) :
    partialAfter [] (g ++ s) = partialAfter [] s ∧ completed [] (g ++ s) = completed [] s := by
  induction hg with
  | nil => exact ⟨rfl, rfl⟩
  | block hk hb _ ih =>
    obtain ⟨hBuf, hFrames⟩ := mismatch_skipped hk hb (_ ++ s)
    rw [List.append_assoc, List.cons_append]
    exact ⟨hBuf.trans ih.1, hFrames.trans ih.2⟩

/-- Garbage without the magic is skipped up to an unfinished magic at its end. -/
theorem skipped_or_prefix (g : List UInt8)
    (hNone : ∀ i < g.length, ¬kJkResponseMagic <+: g.drop i) :
    ∃ h k, k < 4 ∧ g = h ++ magicPrefix k ∧ Skipped h := by
  induction hn : g.length using Nat.strongRecOn generalizing g with
  | _ n ih =>
  by_cases hNil : g = []
  · exact ⟨[], 0, by decide, by simp [hNil], .nil⟩
  have hFirst : ¬kJkResponseMagic <+: g := hNone 0 (List.length_pos_iff.mpr hNil)
  obtain ⟨hLt, hEnd | ⟨b, rest, hb, hg⟩⟩ := not_magic_cases hFirst
  · exact ⟨[], _, hLt, hEnd, .nil⟩
  · generalize Agreement.agreement g kJkResponseMagic = k at hLt hb hg
    subst hg
    have hLen : (magicPrefix k ++ b :: rest).length = k + 1 + rest.length := by
      rw [List.length_append, length_magicPrefix (by omega), List.length_cons]
      omega
    have hDrop (i : Nat) : (magicPrefix k ++ b :: rest).drop (k + 1 + i) = rest.drop i := by
      rw [List.append_cons, ← List.drop_drop, List.drop_left' (by
        rw [List.length_append, length_magicPrefix (by omega)]; rfl)]
    obtain ⟨h, j, hj, rfl, hSkip⟩ := ih rest.length (by omega) rest (fun i hi => by
      rw [← hDrop i]
      exact hNone _ (by omega)) rfl
    exact ⟨magicPrefix k ++ b :: h, j, hj, by simp, .block hLt hb hSkip⟩

/-- A frame behind an unfinished magic is lost: its first byte is dropped as the byte that
disagrees. -/
theorem frame_lost {k : Nat} (hk : 0 < k) (hk4 : k < 4) {frame : List UInt8}
    (hFrame : ValidFrame frame) : completed [] (magicPrefix k ++ frame) = [] := by
  obtain ⟨body, rfl⟩ := hFrame.magic
  have hDiffers : ∀ k < 4, 0 < k → byteAt kJkResponseMagic 0 ≠ byteAt kJkResponseMagic k := by
    decide
  have hLen : (kJkResponseMagic.drop 1 ++ body).length + 1 = kJkResponseSize := by
    rw [← hFrame.length]
    rfl
  have hSkip := (mismatch_skipped hk4 (hDiffers k hk4 hk) (kJkResponseMagic.drop 1 ++ body)).2
  exact hSkip.trans (completed_short (by rw [List.length_nil]; omega))

theorem frame_kept {frame : List UInt8} (hFrame : ValidFrame frame) :
    completed [] frame = [frame] := by
  rw [(push_frame hFrame.length hFrame.magic).2, if_pos hFrame]

/-- What a fresh assembler delivers after some chunks: the last frame that their bytes hold. -/
theorem take_pushChunks (chunks : List (List UInt8)) :
    (pushChunks {} chunks).takeCompleteFrame.1 = (completed [] chunks.flatten).getLast? := by
  have hState := pushChunk_eq [] [] chunks.flatten
  rw [completed_eq_framesIn] at hState ⊢
  rw [pushChunks_eq, hState, takeCompleteFrame]
  cases hLast : (framesIn chunks.flatten).getLast? with
  | none => rfl
  | some frame =>
    have hNe := (framesIn_valid (List.mem_of_getLast? hLast)).ne_nil
    simp [hNe]

/-- Garbage before a frame is skipped without losing it exactly when it is made of blocks that
disagree with the magic.  Wherever the stream is cut, a valid frame behind garbage `g`, with no
magic in the stream before the frame's own, is delivered if and only if `g` is `Skipped`; garbage
that ends in an unfinished magic takes the frame with it. -/
theorem frame_after_garbage (g frame : List UInt8) (chunks : List (List UInt8))
    (hFrame : ValidFrame frame)
    (hFirst : ∀ i < g.length, ¬kJkResponseMagic <+: (g ++ frame).drop i)
    (hChunks : chunks.flatten = g ++ frame) :
    (pushChunks {} chunks).takeCompleteFrame.1 = some frame ↔ Skipped g := by
  have hNone : ∀ i < g.length, ¬kJkResponseMagic <+: g.drop i := by
    intro i hi hPrefix
    apply hFirst i hi
    rw [List.drop_append_of_le_length (by omega)]
    exact hPrefix.trans (List.prefix_append _ _)
  rw [take_pushChunks, hChunks]
  obtain ⟨h, k, hk, rfl, hSkip⟩ := skipped_or_prefix g hNone
  rw [List.append_assoc, (hSkip.pushed _).2]
  constructor
  · intro hLast
    by_cases h0 : k = 0
    · subst h0
      simpa using hSkip
    · rw [frame_lost (by omega) hk hFrame] at hLast
      cases hLast
  · intro hAll
    have hBuf : magicPrefix k = [] := by
      have h1 := (hAll.pushed []).1
      rw [List.append_nil, (hSkip.pushed _).1, partialAfter_prefix k (by omega)] at h1
      exact h1
    rw [hBuf, List.nil_append, frame_kept hFrame]
    rfl

def emptyCellInfo : List UInt8 := kJkResponseMagic ++ [0x02] ++ List.replicate 294 0 ++ [0x7C]

theorem emptyCellInfo_valid : ValidFrame emptyCellInfo := by decide +kernel

/-- An idle ping of the BLE chip before a frame. -/
theorem frame_after_garbage_ping :
    (pushChunks {} [[0x41, 0x54, 0x0D, 0x0A], emptyCellInfo]).takeCompleteFrame.1 =
      some emptyCellInfo ↔ Skipped [0x41, 0x54, 0x0D, 0x0A] :=
  frame_after_garbage [0x41, 0x54, 0x0D, 0x0A] emptyCellInfo _ emptyCellInfo_valid
    (by decide +kernel) (by simp)

theorem frame_lost_after_stray_byte :
    ¬∀ (g frame : List UInt8) (chunks : List (List UInt8)), ValidFrame frame →
      (∀ i < g.length, ¬kJkResponseMagic <+: (g ++ frame).drop i) →
      chunks.flatten = g ++ frame →
      (pushChunks {} chunks).takeCompleteFrame.1 = some frame := by
  intro h
  have hTake := h [0x55] emptyCellInfo [[0x55], emptyCellInfo] emptyCellInfo_valid
    (by decide +kernel) (by simp)
  have hFlat : [[0x55], emptyCellInfo].flatten = magicPrefix 1 ++ emptyCellInfo := by
    simp only [List.flatten_cons, List.flatten_nil, List.append_nil]
    rfl
  rw [take_pushChunks, hFlat, frame_lost (by decide) (by decide) emptyCellInfo_valid] at hTake
  cases hTake

end BmsBridge
