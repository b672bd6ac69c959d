import Mathlib.Data.List.Forall2

/-! Two lists whose entries belong together one by one: what is said of the one carries over to the
other. -/

namespace Paired

variable {α β γ : Type} {R : α → β → Prop} {l : List α} {u : List β}

theorem exists_left (h : List.Forall₂ R l u) {b : β} (hb : b ∈ u) : ∃ a ∈ l, R a b := by
  induction h with
  | nil => cases hb
  | cons hR _ ih =>
    rcases List.mem_cons.mp hb with rfl | hb
    · exact ⟨_, List.mem_cons_self, hR⟩
    · obtain ⟨a, ha, hR⟩ := ih hb
      exact ⟨a, List.mem_cons_of_mem _ ha, hR⟩

theorem exists_right (h : List.Forall₂ R l u) {a : α} (ha : a ∈ l) : ∃ b ∈ u, R a b :=
  exists_left h.flip ha

/-- What holds of all entries of the one list holds of those of the other. -/
theorem forall_iff {p : α → Prop} {q : β → Prop} (h : List.Forall₂ R l u)
    (hpq : ∀ a b, R a b → (p a ↔ q b)) : (∀ a ∈ l, p a) ↔ ∀ b ∈ u, q b := by
  constructor
  · intro hp b hb
    obtain ⟨a, ha, hR⟩ := exists_left h hb
    exact (hpq a b hR).mp (hp a ha)
  · intro hq a ha
    obtain ⟨b, hb, hR⟩ := exists_right h ha
    exact (hpq a b hR).mpr (hq b hb)

/-- Entries that belong together are entries. -/
theorem with_mem (h : List.Forall₂ R l u) :
    List.Forall₂ (fun a b => R a b ∧ a ∈ l ∧ b ∈ u) l u := by
  induction h with
  | nil => exact .nil
  | cons hR _ ih =>
    refine .cons ⟨hR, List.mem_cons_self, List.mem_cons_self⟩ (ih.imp fun a b h => ?_)
    exact ⟨h.1, List.mem_cons_of_mem _ h.2.1, List.mem_cons_of_mem _ h.2.2⟩

theorem map_eq {f : α → γ} {g : β → γ} (h : List.Forall₂ R l u)
    (hfg : ∀ a b, R a b → f a = g b) : l.map f = u.map g := by
  induction h with
  | nil => rfl
  | cons hR _ ih => rw [List.map_cons, List.map_cons, hfg _ _ hR, ih]

end Paired
