/-! How far a list agrees with a pattern: the length of their longest common prefix, and the shapes
of a list that does not begin with the pattern. -/

namespace Agreement

variable {α : Type} [DecidableEq α]

def agreement : List α → List α → Nat
  | x :: s, y :: p => if x = y then agreement s p + 1 else 0
  | _, _ => 0

/-- A list that does not begin with `p` either ends inside `p`, or leaves `p` at its first byte
that differs. -/
theorem split_of_not_prefix {p s : List α} (h : ¬p <+: s) :
    agreement s p < p.length ∧
      (s = p.take (agreement s p) ∨
        ∃ b rest, s = p.take (agreement s p) ++ b :: rest ∧ p[agreement s p]? ≠ some b) := by
  induction p generalizing s with
  | nil => exact absurd (List.nil_prefix) h
  | cons y p ih =>
    cases s with
    | nil => exact ⟨by simp [agreement], .inl rfl⟩
    | cons x s =>
      by_cases hxy : x = y
      · subst hxy
        have hTail : ¬p <+: s := fun hp => h (List.cons_prefix_cons.mpr ⟨rfl, hp⟩)
        obtain ⟨hLt, hEnd | ⟨b, rest, hs, hb⟩⟩ := ih hTail
        · refine ⟨by simpa [agreement] using hLt, .inl ?_⟩
          simpa [agreement] using hEnd
        · refine ⟨by simpa [agreement] using hLt, .inr ⟨b, rest, ?_, ?_⟩⟩
          · simpa [agreement] using hs
          · simpa [agreement] using hb
      · exact ⟨by simp [agreement, hxy], .inr ⟨x, s, by simp [agreement, hxy], by
          simpa [agreement, hxy] using fun hyx : y = x => hxy hyx.symm⟩⟩

end Agreement
