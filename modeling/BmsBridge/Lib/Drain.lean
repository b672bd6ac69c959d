/-! A receive loop over a byte buffer.  A parser looks at the head of the buffer and answers with a
signed count: zero for "need more", a negative count for bytes to discard, and a positive count for
bytes that make up one frame.  The loop runs the parser until the buffer is empty or more bytes are
needed, and hands every frame to a handler. -/

namespace Drain

variable {α β σ : Type}

/-- The receive loop: handler state `s`, buffer `rx`. -/
def drain (parse : List α → Int × β) (handle : σ → β → σ) (s : σ) (rx : List α) : σ × List α :=
  if rx = [] then (s, rx)
  else if (parse rx).1 = 0 then (s, rx)
  else if (parse rx).1 < 0 then
    drain parse handle s (rx.drop (min (-(parse rx).1).toNat rx.length))
  else drain parse handle (handle s (parse rx).2) (rx.drop (parse rx).1.toNat)
termination_by rx.length
decreasing_by
  all_goals
    have hPos := List.length_pos_iff.mpr ‹rx ≠ []›
    simp only [List.length_drop]
    omega

section Steps

variable {parse : List α → Int × β} {handle : σ → β → σ} {s : σ} {rx : List α}

@[simp] theorem drain_nil : drain parse handle s [] = (s, []) := by
  rw [drain]; simp

theorem drain_more (h : (parse rx).1 = 0) : drain parse handle s rx = (s, rx) := by
  rw [drain]; simp [h]

theorem drain_junk (hrx : rx ≠ []) (h : (parse rx).1 < 0) :
    drain parse handle s rx =
      drain parse handle s (rx.drop (min (-(parse rx).1).toNat rx.length)) := by
  rw [drain]
  simp only [hrx, ↓reduceIte, h, show ¬(parse rx).1 = 0 by omega]

theorem drain_frame (hrx : rx ≠ []) (h : 0 < (parse rx).1) :
    drain parse handle s rx =
      drain parse handle (handle s (parse rx).2) (rx.drop (parse rx).1.toNat) := by
  rw [drain]
  simp only [hrx, ↓reduceIte, show ¬(parse rx).1 < 0 by omega, show ¬(parse rx).1 = 0 by omega]

end Steps

def frames (parse : List α → Int × β) (rx : List α) : List β :=
  (drain parse (fun (fs : List β) f => fs ++ [f]) [] rx).1

def rest (parse : List α → Int × β) (rx : List α) : List α :=
  (drain parse (fun (fs : List β) f => fs ++ [f]) [] rx).2

theorem drain_append (parse : List α → Int × β) (handle : σ → β → σ) (s : σ) (fs : List β)
    (rx : List α) :
    drain parse handle (fs.foldl handle s) rx =
      (((drain parse (fun (gs : List β) f => gs ++ [f]) fs rx).1).foldl handle s,
        (drain parse (fun (gs : List β) f => gs ++ [f]) fs rx).2) := by
  induction hn : rx.length using Nat.strongRecOn generalizing fs rx with
  | _ n ih =>
  by_cases hEmpty : rx = []
  · subst hEmpty; simp
  have hPos := List.length_pos_iff.mpr hEmpty
  rcases Int.lt_trichotomy (parse rx).1 0 with h | h | h
  · rw [drain_junk hEmpty h, drain_junk hEmpty h]
    exact ih _ (by simp only [List.length_drop]; omega) _ _ rfl
  · rw [drain_more h, drain_more h]
  · rw [drain_frame hEmpty h, drain_frame hEmpty h]
    have hStep := ih _ (by simp only [List.length_drop]; omega) (fs ++ [(parse rx).2])
      (rx.drop (parse rx).1.toNat) rfl
    rwa [List.foldl_append] at hStep

/-- A handler sees exactly the frames of the buffer, in order, and has no part in what stays
there. -/
theorem drain_eq (parse : List α → Int × β) (handle : σ → β → σ) (s : σ) (rx : List α) :
    drain parse handle s rx = ((frames parse rx).foldl handle s, rest parse rx) :=
  drain_append parse handle s [] rx

theorem frames_cons {parse : List α → Int × β} {rx : List α} (hrx : rx ≠ []) (h : 0 < (parse rx).1) :
    frames parse rx = (parse rx).2 :: frames parse (rx.drop (parse rx).1.toNat) := by
  rw [frames, drain_frame hrx h, drain_eq, List.foldl_append_eq_append, ← List.flatMap_def,
    List.flatMap_singleton']
  rfl

/-- Each frame of a buffer is what the parser makes of the buffer's end from somewhere on. -/
theorem mem_frames {parse : List α → Int × β} {rx : List α} {f : β} (hf : f ∈ frames parse rx) :
    ∃ buf, buf <:+ rx ∧ 0 < (parse buf).1 ∧ (parse buf).2 = f := by
  induction hn : rx.length using Nat.strongRecOn generalizing rx with
  | _ n ih =>
  subst hn
  by_cases hEmpty : rx = []
  · rw [hEmpty, frames, drain_nil] at hf
    cases hf
  have hPos := List.length_pos_iff.mpr hEmpty
  have hDropped {k : Nat} (hk : 0 < k) (hMem : f ∈ frames parse (rx.drop k)) :
      ∃ buf, buf <:+ rx ∧ 0 < (parse buf).1 ∧ (parse buf).2 = f := by
    obtain ⟨buf, hSuffix, hFrame⟩ := ih _ (by rw [List.length_drop]; omega) hMem rfl
    exact ⟨buf, hSuffix.trans (List.drop_suffix k rx), hFrame⟩
  rcases Int.lt_trichotomy (parse rx).1 0 with h | h | h
  · rw [frames, drain_junk hEmpty h] at hf
    exact hDropped (by omega) hf
  · rw [frames, drain_more h] at hf
    cases hf
  · rw [frames_cons hEmpty h] at hf
    rcases List.mem_cons.mp hf with rfl | hLater
    · exact ⟨rx, List.suffix_refl _, h, rfl⟩
    · exact hDropped (by omega) hLater

/-! ### Termination -/

/-- The receive loop as the program has it, for `fuel` looks at the buffer; `none` if it would look
once more. -/
def loop (parse : List α → Int × β) (handle : σ → β → σ) : Nat → σ → List α → Option (σ × List α)
  | 0, _, _ => none
  | fuel + 1, s, rx =>
    if rx = [] then some (s, rx)
    else if (parse rx).1 = 0 then some (s, rx)
    else if (parse rx).1 < 0 then
      loop parse handle fuel s (rx.drop (min (-(parse rx).1).toNat rx.length))
    else loop parse handle fuel (handle s (parse rx).2) (rx.drop (parse rx).1.toNat)

/-- The loop ends: it looks at a buffer at most once for each of its bytes, and once more. -/
theorem loop_ends (parse : List α → Int × β) (handle : σ → β → σ) {fuel : Nat} (s : σ)
    {rx : List α} (hFuel : rx.length < fuel) :
    loop parse handle fuel s rx = some (drain parse handle s rx) := by
  induction fuel generalizing s rx with
  | zero => exact absurd hFuel (Nat.not_lt_zero _)
  | succ fuel ih =>
    rw [loop]
    by_cases hEmpty : rx = []
    · rw [if_pos hEmpty, hEmpty, drain_nil]
    have hPos := List.length_pos_iff.mpr hEmpty
    rw [if_neg hEmpty]
    rcases Int.lt_trichotomy (parse rx).1 0 with h | h | h
    · rw [if_neg (by omega), if_pos h, drain_junk hEmpty h]
      exact ih _ (by simp only [List.length_drop]; omega)
    · rw [if_pos h, drain_more h]
    · rw [if_neg (by omega), if_neg (by omega), drain_frame hEmpty h]
      exact ih _ (by simp only [List.length_drop]; omega)

theorem drain_snd (parse : List α → Int × β) (handle : σ → β → σ) (s : σ) (rx : List α) :
    (drain parse handle s rx).2 = rest parse rx := by
  rw [drain_eq]

/-- Whatever the loop takes off, it goes on with what is behind it. -/
theorem rest_drop {parse : List α → Int × β} {rx : List α} (hrx : rx ≠ []) (h : (parse rx).1 ≠ 0) :
    rest parse rx = rest parse (rx.drop (parse rx).1.natAbs) := by
  rcases Int.lt_or_gt_of_ne h with hJunk | hFrame
  · have hCount : (-(parse rx).1).toNat = (parse rx).1.natAbs := by omega
    rw [rest, drain_junk hrx hJunk, hCount, ← List.drop_eq_drop_min, drain_snd]
  · have hCount : (parse rx).1.toNat = (parse rx).1.natAbs := by omega
    rw [rest, drain_frame hrx hFrame, hCount, drain_snd]

/-- The loop leaves the end of the buffer, on which the parser asks for more. -/
theorem rest_spec (parse : List α → Int × β) (rx : List α) :
    rest parse rx <:+ rx ∧ (rest parse rx = [] ∨ (parse (rest parse rx)).1 = 0) := by
  induction hn : rx.length using Nat.strongRecOn generalizing rx with
  | _ n ih =>
  subst hn
  by_cases hEmpty : rx = []
  · subst hEmpty
    rw [rest, drain_nil]
    exact ⟨List.suffix_refl _, .inl rfl⟩
  by_cases hMore : (parse rx).1 = 0
  · rw [rest, drain_more hMore]
    exact ⟨List.suffix_refl _, .inr hMore⟩
  have hPos := List.length_pos_iff.mpr hEmpty
  have hTaken := Int.natAbs_pos.mpr hMore
  obtain ⟨hSuffix, hDone⟩ := ih _ (by rw [List.length_drop]; omega) (rx.drop (parse rx).1.natAbs) rfl
  rw [rest_drop hEmpty hMore]
  exact ⟨hSuffix.trans (List.drop_suffix _ rx), hDone⟩

end Drain
