import Mathlib.Data.List.Forall2

/-! Computations that fail: what a sequence that succeeds says of its parts, and a loop that collects
the answers to a list of questions, some of which get none. -/

namespace Faults

variable {ε α β : Type}

theorem bind_ok {x : Except ε α} {f : α → Except ε β} {b : β} (h : x >>= f = .ok b) :
    ∃ a, x = .ok a ∧ f a = .ok b := by
  cases x with
  | error e => cases h
  | ok a => exact ⟨a, rfl, h⟩

/-- A step that is only taken under a condition, in front of more steps. -/
theorem when_ok {c : Prop} [Decidable c] {x : Except ε PUnit} {rest : PUnit → Except ε β} {b : β}
    (h : (if c then x >>= rest else rest ⟨⟩) = .ok b) :
    (c → x = .ok ⟨⟩) ∧ rest ⟨⟩ = .ok b := by
  split at h
  · obtain ⟨⟨⟩, hx, hRest⟩ := bind_ok h
    exact ⟨fun _ => hx, hRest⟩
  · exact ⟨fun hc => absurd hc ‹_›, h⟩

/-- A check in front of more steps, which a failed one does not reach. -/
theorem check_ok {c : Prop} [Decidable c] {e : ε} {rest : PUnit → Except ε β} {b : β}
    (h : (if c then throw e >>= rest else rest ⟨⟩) = .ok b) : ¬c ∧ rest ⟨⟩ = .ok b := by
  obtain ⟨hThrow, hRest⟩ := when_ok h
  exact ⟨fun hc => (nomatch hThrow hc), hRest⟩

/-- The last check of a sequence. -/
theorem last_check_ok {c : Prop} [Decidable c] {e : ε}
    (h : (if c then throw e else pure ⟨⟩ : Except ε PUnit) = .ok ⟨⟩) : ¬c := by
  intro hc
  rw [if_pos hc] at h
  cases h

theorem forM_ok {f : α → Except ε Unit} {l : List α} (h : l.forM f = .ok ()) :
    ∀ a ∈ l, f a = .ok () := by
  induction l with
  | nil => exact fun _ ha => nomatch ha
  | cons a l ih =>
    obtain ⟨⟨⟩, ha, hl⟩ := bind_ok (show (f a >>= fun _ => l.forM f) = .ok () from h)
    intro b hb
    rcases List.mem_cons.mp hb with rfl | hb
    · exact ha
    · exact ih hl b hb

def collect (f : α → Except ε (Option β)) (out : Except ε (List β)) (a : α) : Except ε (List β) := do
  let out ← out
  let answer ← f a
  return out ++ answer.toList

theorem foldl_collect_error (f : α → Except ε (Option β)) (e : ε) (l : List α) :
    l.foldl (collect f) (.error e) = .error e := by
  induction l with
  | nil => rfl
  | cons a l ih => exact ih

/-- The loop ends well exactly when no question faults, and then has the answers in order. -/
theorem foldl_collect_eq_ok {f : α → Except ε (Option β)} {l : List α} {acc out : List β} :
    l.foldl (collect f) (.ok acc) = .ok out ↔ (∀ a ∈ l, ∃ answer, f a = .ok answer) ∧
      out = acc ++ l.filterMap fun a => (f a).toOption.join := by
  induction l generalizing acc with
  | nil =>
    simp only [List.foldl_nil, Except.ok.injEq, List.filterMap_nil, List.append_nil, List.not_mem_nil,
      false_implies, implies_true, true_and]
    exact eq_comm
  | cons a l ih =>
    rw [List.foldl_cons, List.forall_mem_cons]
    cases ha : f a with
    | error e =>
      have hFault : collect f (.ok acc) a = .error e := by
        rw [collect, ha]
        rfl
      rw [hFault, foldl_collect_error]
      exact iff_of_false (fun h => by cases h) fun ⟨⟨⟨_, h⟩, _⟩, _⟩ => by cases h
    | ok answer =>
      have hNext : collect f (.ok acc) a = .ok (acc ++ answer.toList) := by
        rw [collect, ha]
        rfl
      have hAnswers : ((a :: l).filterMap fun a => (f a).toOption.join) =
          answer.toList ++ l.filterMap fun a => (f a).toOption.join := by
        cases answer with
        | none => exact List.filterMap_cons_none (by rw [ha]; rfl)
        | some b => exact List.filterMap_cons_some (by rw [ha]; rfl)
      rw [hNext, ih, hAnswers, List.append_assoc]
      exact and_congr_left fun _ => (and_iff_right ⟨answer, rfl⟩).symm

/-- Where `p` says which questions get an answer, the collected answers are those to the questions
with `p`, in order. -/
theorem foldl_collect_ok {f : α → Except ε (Option β)} {p : α → Bool} {R : α → β → Prop}
    {l : List α} {acc out : List β}
    (hAnswer : ∀ a ∈ l, ∀ answer, f a = .ok answer →
      (p a = false ∧ answer = none) ∨ (p a = true ∧ ∃ b, answer = some b ∧ R a b))
    (h : l.foldl (collect f) (.ok acc) = .ok out) :
    ∃ new, out = acc ++ new ∧ List.Forall₂ R (l.filter p) new := by
  induction l generalizing acc with
  | nil => exact ⟨[], by rw [List.append_nil]; exact (Except.ok.inj h).symm, .nil⟩
  | cons a l ih =>
    rw [List.foldl_cons] at h
    cases ha : f a with
    | error e =>
      have hFault : collect f (.ok acc) a = .error e := by
        rw [collect, ha]
        rfl
      rw [hFault, foldl_collect_error] at h
      cases h
    | ok answer =>
      have hNext : collect f (.ok acc) a = .ok (acc ++ answer.toList) := by
        rw [collect, ha]
        rfl
      rw [hNext] at h
      obtain ⟨new, rfl, hNew⟩ := ih (fun b hb => hAnswer b (List.mem_cons_of_mem _ hb)) h
      rcases hAnswer a (List.mem_cons_self ..) answer ha with ⟨hp, rfl⟩ | ⟨hp, b, rfl, hR⟩
      · refine ⟨new, by simp, ?_⟩
        rw [List.filter_cons_of_neg (by simp [hp])]
        exact hNew
      · refine ⟨b :: new, by simp, ?_⟩
        rw [List.filter_cons_of_pos hp]
        exact .cons hR hNew

end Faults
