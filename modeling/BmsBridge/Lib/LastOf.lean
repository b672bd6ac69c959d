/-! The last image of a list under a partial map, for a list that has been thinned out but for its
last element. -/

namespace LastOf

variable {α β : Type}

/-- Where one member has an image only if the last one has, a sublist that keeps the last member
keeps the last image. -/
theorem getLast?_filterMap {f : α → Option β} {thin full : List α}
    (hMem : ∀ x ∈ thin, x ∈ full) (hLast : thin.getLast? = full.getLast?)
    (hImage : ∀ x ∈ full, (f x).isSome → (full.getLast?.bind f).isSome) :
    (thin.filterMap f).getLast? = full.getLast?.bind f := by
  cases hFull : full.getLast? with
  | none =>
    rw [hFull, List.getLast?_eq_none_iff] at hLast
    simp [hLast]
  | some last =>
    rw [hFull] at hLast hImage
    obtain ⟨front, rfl⟩ := List.getLast?_eq_some_iff.mp hLast
    rw [Option.bind_some] at hImage ⊢
    cases hf : f last with
    | some y => simp [List.filterMap_append, hf]
    | none =>
      have hNone : ∀ x ∈ front ++ [last], f x = none := by
        intro x hx
        cases hx' : f x with
        | none => rfl
        | some y =>
          have hSome := hImage x (hMem x hx) (by rw [hx']; rfl)
          rw [hf] at hSome
          cases hSome
      rw [List.filterMap_eq_nil_iff.mpr hNone]
      rfl

theorem getLast?_filterMap_toList (f : α → Option β) (last : Option α) :
    (last.toList.filterMap f).getLast? = last.bind f := by
  cases last with
  | none => rfl
  | some x =>
    cases hx : f x <;> simp [hx]

/-- If a list and its last member alone have the same last image, then one member has an image only
if the last one has. -/
theorem last_isSome {f : α → Option β} {full : List α}
    (h : (full.filterMap f).getLast? = full.getLast?.bind f) :
    ∀ x ∈ full, (f x).isSome → (full.getLast?.bind f).isSome := by
  intro x hx hSome
  obtain ⟨y, hy⟩ := Option.isSome_iff_exists.mp hSome
  have hNe : full.filterMap f ≠ [] :=
    List.ne_nil_of_mem (List.mem_filterMap.mpr ⟨x, hx, hy⟩)
  rw [← h, List.getLast?_isSome]
  exact hNe

end LastOf
