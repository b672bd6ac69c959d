/-! The first entry of a list that no other one is better than, found in one pass. -/

namespace Extremes

variable {α : Type} (better : α → α → Prop)

/-- The best entry of a list, at the first place where there is one as good. -/
structure FirstBest (xs : List α) (i : Nat) (best : α) : Prop where
  found : xs[i]? = some best
  bound : ∀ x ∈ xs, ¬ better x best
  first : ∀ j x, j < i → xs[j]? = some x → better best x

/-- What a comparison must be: of two entries not both are better than the other, and a third one is
worse than the better or better than the worse of them. -/
structure Ranks : Prop where
  asymm : ∀ {a b}, better a b → ¬ better b a
  split : ∀ {a b} c, better a b → better a c ∨ better c b

variable {better} (hRanks : Ranks better) {xs : List α} {i : Nat} {best x : α}

include hRanks

theorem FirstBest.singleton (x : α) : FirstBest better [x] 0 x where
  found := rfl
  bound y hy h := by
    rw [List.mem_singleton.mp hy] at h
    exact hRanks.asymm h h
  first j y hj := absurd hj (Nat.not_lt_zero j)

/-- One entry more, where it is better. -/
theorem FirstBest.improved (h : FirstBest better xs i best) (hx : better x best) :
    FirstBest better (xs ++ [x]) xs.length x where
  found := List.getElem?_concat_length
  bound y hy hBetter := by
    rcases List.mem_append.mp hy with hy | hy
    · rcases hRanks.split best hBetter with hBest | hWorse
      · exact h.bound y hy hBest
      · exact hRanks.asymm hx hWorse
    · rw [List.mem_singleton.mp hy] at hBetter
      exact hRanks.asymm hBetter hBetter
  first j y hj hy := by
    rw [List.getElem?_append_left hj] at hy
    rcases hRanks.split y hx with hBetter | hBest
    · exact hBetter
    · exact absurd hBest (h.bound y (List.mem_of_getElem? hy))

omit hRanks in
/-- One entry more, where it is not. -/
theorem FirstBest.kept (h : FirstBest better xs i best) (hx : ¬ better x best) :
    FirstBest better (xs ++ [x]) i best := by
  have hLow : i < xs.length := (List.getElem?_eq_some_iff.mp h.found).1
  refine ⟨?_, fun y hy => ?_, fun j y hj hy => ?_⟩
  · rw [List.getElem?_append_left hLow]
    exact h.found
  · rcases List.mem_append.mp hy with hy | hy
    · exact h.bound y hy
    · rw [List.mem_singleton.mp hy]
      exact hx
  · rw [List.getElem?_append_left (by omega)] at hy
    exact h.first j y hj hy

end Extremes
