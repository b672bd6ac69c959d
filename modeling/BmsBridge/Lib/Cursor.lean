import Mathlib.Data.List.Pairwise

/-! Pages that are read one after the other, each below the last row of the one before, while the rows
that they are read from may change. -/

namespace Cursor

variable {α : Type} (ts : α → Int) (low size : Int)

/-- A page below a bound: so many rows, newest first. -/
structure IsBelow (bound : Int) (page : List α) : Prop where
  short : page.length ≤ size
  within : ∀ x ∈ page, low ≤ ts x ∧ ts x < bound
  newestFirst : page.Pairwise fun a b => ts b ≤ ts a

/-- Pages below a bound; an empty one is the last. -/
inductive Follow : Int → List (List α) → Prop where
  | done (bound : Int) : Follow bound []
  | empty (bound : Int) : Follow bound [[]]
  | page {bound : Int} {page : List α} {oldest : α} {pages : List (List α)}
      (hPage : IsBelow ts low size bound page) (hLast : page.getLast? = some oldest)
      (hRest : Follow (ts oldest) pages) : Follow bound (page :: pages)

variable {ts low size} {bound : Int} {pages : List (List α)} {page : List α}

/-- The last row of a page is the oldest one. -/
theorem IsBelow.last_le {x last : α} (hPage : IsBelow ts low size bound page)
    (hLast : page.getLast? = some last) (hx : x ∈ page) : ts last ≤ ts x := by
  obtain ⟨init, rfl⟩ := List.getLast?_eq_some_iff.mp hLast
  rcases List.mem_append.mp hx with hx | hx
  · exact (List.pairwise_append.mp hPage.newestFirst).2.2 x hx last List.mem_cons_self
  · exact Int.le_of_eq (congrArg ts (List.mem_singleton.mp hx).symm)

theorem Follow.within (h : Follow ts low size bound pages) :
    ∀ x ∈ pages.flatten, low ≤ ts x ∧ ts x < bound := by
  induction h with
  | done bound => exact fun x hx => by cases hx
  | empty bound => exact fun x hx => by cases hx
  | page hPage hLast _ ih =>
    intro x hx
    rw [List.flatten_cons, List.mem_append] at hx
    rcases hx with hx | hx
    · exact hPage.within x hx
    · obtain ⟨hLow, hHigh⟩ := ih x hx
      have hBound := (hPage.within _ (List.mem_of_getLast? hLast)).2
      exact ⟨hLow, Int.lt_trans hHigh hBound⟩

/-- No page goes back to what an earlier one has shown. -/
theorem Follow.apart (h : Follow ts low size bound pages) :
    pages.Pairwise fun p q => ∀ a ∈ p, ∀ b ∈ q, ts b < ts a := by
  induction h with
  | done bound => exact .nil
  | empty bound => exact List.pairwise_singleton ..
  | page hPage hLast hRest ih =>
    refine .cons (fun q hq a ha b hb => ?_) ih
    have hOlder := (hRest.within b (List.mem_flatten.mpr ⟨q, hq, hb⟩)).2
    exact Int.lt_of_lt_of_le hOlder (hPage.last_le hLast ha)

theorem Follow.newestFirst (h : Follow ts low size bound pages) :
    ∀ page ∈ pages, page.Pairwise fun a b => ts b ≤ ts a := by
  induction h with
  | done bound => exact fun p hp => by cases hp
  | empty bound => exact fun p hp => List.mem_singleton.mp hp ▸ .nil
  | page hPage _ _ ih => exact List.forall_mem_cons.mpr ⟨hPage.newestFirst, ih⟩

theorem Follow.short (h : Follow ts low size bound pages) (hSize : 0 ≤ size) :
    ∀ page ∈ pages, page.length ≤ size := by
  induction h with
  | done bound => exact fun p hp => by cases hp
  | empty bound => exact fun p hp => List.mem_singleton.mp hp ▸ hSize
  | page hPage _ _ ih => exact List.forall_mem_cons.mpr ⟨hPage.short, ih⟩

/-- There are only as many pages as there are times in the window, and one more. -/
theorem Follow.length_le (h : Follow ts low size bound pages) :
    pages.length ≤ (bound - low).toNat + 1 := by
  induction h with
  | done bound => exact Nat.zero_le _
  | empty bound => exact Nat.succ_le_succ (Nat.zero_le _)
  | page hPage hLast _ ih =>
    obtain ⟨hLow, hHigh⟩ := hPage.within _ (List.mem_of_getLast? hLast)
    rw [List.length_cons]
    omega

end Cursor
