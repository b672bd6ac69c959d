/-! Runs of a system that takes one labelled step after the other, and invariants over them.  A label
that the state does not allow ends no run: its step is `none`. -/

namespace Runs

variable {σ ι : Type}

def run (step : σ → ι → Option σ) (s : σ) : List ι → Option σ
  | [] => some s
  | l :: ls => (step s l).bind fun s' => run step s' ls

theorem run_append (step : σ → ι → Option σ) (s : σ) (ls ls' : List ι) :
    run step s (ls ++ ls') = (run step s ls).bind fun mid => run step mid ls' := by
  induction ls generalizing s with
  | nil => rfl
  | cons l ls ih => simp only [List.cons_append, run, ih, Option.bind_assoc]

/-- Every step of a run meets a condition on its label and on the state before it. -/
def Meets (step : σ → ι → Option σ) (P : σ → ι → Prop) (s : σ) : List ι → Prop
  | [] => True
  | l :: ls => P s l ∧ match step s l with
    | none => True
    | some s' => Meets step P s' ls

instance Meets.decidable (step : σ → ι → Option σ) (P : σ → ι → Prop)
    [∀ s l, Decidable (P s l)] (s : σ) : (ls : List ι) → Decidable (Meets step P s ls)
  | [] => inferInstanceAs (Decidable True)
  | l :: ls =>
    match h : step s l with
    | none => decidable_of_iff (P s l) (by simp [Meets, h])
    | some s' =>
      have := Meets.decidable step P s' ls
      decidable_of_iff (P s l ∧ Meets step P s' ls) (by simp [Meets, h])

/-- A run goes on with steps that meet the condition in any state. -/
theorem Meets.append {step : σ → ι → Option σ} {P : σ → ι → Prop} {s : σ} {ls ls' : List ι}
    (hMeets : Meets step P s ls) (hAny : ∀ l ∈ ls', ∀ s, P s l) : Meets step P s (ls ++ ls') := by
  induction ls generalizing s with
  | nil =>
    rw [List.nil_append]
    clear hMeets
    induction ls' generalizing s with
    | nil => exact trivial
    | cons l ls ih =>
      obtain ⟨hHead, hTail⟩ := List.forall_mem_cons.mp hAny
      refine ⟨hHead s, ?_⟩
      cases step s l with
      | none => exact trivial
      | some s' => exact ih hTail
  | cons l ls ih =>
    obtain ⟨hHead, hTail⟩ := hMeets
    refine ⟨hHead, ?_⟩
    cases hStep : step s l with
    | none => exact trivial
    | some s' =>
      rw [hStep] at hTail
      exact ih hTail

section Invariants

variable {step : σ → ι → Option σ} {I : σ → Prop} {s s' : σ} {ls : List ι}

/-- What the steps that meet a condition preserve, the runs of such steps preserve. -/
theorem invariant_of_meets {P : σ → ι → Prop}
    (hStep : ∀ s l s', I s → P s l → step s l = some s' → I s')
    (hI : I s) (hMeets : Meets step P s ls) (hRun : run step s ls = some s') : I s' := by
  induction ls generalizing s with
  | nil =>
    obtain rfl := Option.some.inj hRun
    exact hI
  | cons l ls ih =>
    obtain ⟨mid, hMid, hRun⟩ := Option.bind_eq_some_iff.mp hRun
    obtain ⟨hHead, hTail⟩ := hMeets
    rw [hMid] at hTail
    exact ih (hStep s l mid hI hHead hMid) hTail hRun

/-- What every step preserves, every run preserves. -/
theorem invariant (hStep : ∀ s l s', I s → step s l = some s' → I s') (hI : I s)
    (hRun : run step s ls = some s') : I s' := by
  induction ls generalizing s with
  | nil =>
    obtain rfl := Option.some.inj hRun
    exact hI
  | cons l ls ih =>
    obtain ⟨mid, hMid, hRun⟩ := Option.bind_eq_some_iff.mp hRun
    exact ih (hStep s l mid hI hMid) hRun

end Invariants

end Runs
