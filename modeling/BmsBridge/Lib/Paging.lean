import BmsBridge.Lib.OrderBy
import BmsBridge.Lib.Paired

/-! Reading the rows of a window page by page, the newest first: what one page says of the rows that
it covers, and what the pages say together. -/

namespace Paging

variable {α κ : Type}

/-- A page of at most `count` rows below `hi`.  A row that it covers is on it, or is of one kind with
a newer row on it. -/
structure IsPage (ts : α → Int) (same : α → α → Prop) (lo hi : Int) (count : Nat)
    (rows page : List α) : Prop where
  short : page.length ≤ count
  newestFirst : page.Pairwise fun a b => ts b < ts a
  mem : ∀ r ∈ page, r ∈ rows ∧ lo ≤ ts r ∧ ts r < hi
  nonempty : ∀ r ∈ rows, lo ≤ ts r → ts r < hi → page ≠ []
  covers : ∀ oldest, page.getLast? = some oldest → ∀ r ∈ rows, ts oldest ≤ ts r → ts r < hi →
    r ∈ page ∨ ∃ x ∈ page, ts r < ts x ∧ same x r

theorem IsPage.imp {ts : α → Int} {same same' : α → α → Prop} {lo hi : Int} {count : Nat}
    {rows page : List α} (h : IsPage ts same lo hi count rows page)
    (hSame : ∀ a b, same a b → same' a b) : IsPage ts same' lo hi count rows page where
  short := h.short
  newestFirst := h.newestFirst
  mem := h.mem
  nonempty := h.nonempty
  covers oldest hLast r hr hNewer hHigh :=
    (h.covers oldest hLast r hr hNewer hHigh).imp_right fun ⟨x, hx, hNew, h⟩ =>
      ⟨x, hx, hNew, hSame x r h⟩

def window (ts : α → Int) (lo hi : Int) (rows : List α) : List α :=
  rows.filter fun r => lo ≤ ts r ∧ ts r < hi

/-- The newest rows of all parts. -/
def newest (ts part : α → Int) (rows : List α) : List α :=
  rows.filter fun r => ∀ x ∈ rows, part x = part r → ts x ≤ ts r

section OnePage

variable {ts : α → Int} {lo hi : Int} {rows : List α} {r : α}

theorem mem_window : r ∈ window ts lo hi rows ↔ r ∈ rows ∧ lo ≤ ts r ∧ ts r < hi := by
  rw [window, List.mem_filter, decide_eq_true_eq]

/-- In rows that get older, the last one is the oldest. -/
theorem getLast_oldest {page : List α} (h : page.Pairwise fun a b => ts b < ts a) {oldest : α}
    (hLast : page.getLast? = some oldest) (hr : r ∈ page) : ts oldest ≤ ts r := by
  obtain ⟨front, rfl⟩ := List.getLast?_eq_some_iff.mp hLast
  rcases List.mem_append.mp hr with hr | hr
  · exact Int.le_of_lt ((List.pairwise_append.mp h).2.2 r hr oldest (List.mem_singleton_self _))
  · rw [List.mem_singleton.mp hr]

/-- Of rows that get older, the first few include every one that is not older than their last. -/
theorem mem_take_of_newer {l : List α} {n : Nat} (h : l.Pairwise fun a b => ts b < ts a) {oldest : α}
    (hLast : (l.take n).getLast? = some oldest) (hr : r ∈ l) (hNewer : ts oldest ≤ ts r) :
    r ∈ l.take n := by
  rw [← List.take_append_drop n l] at hr h
  rcases List.mem_append.mp hr with hr | hr
  · exact hr
  · have hOlder := (List.pairwise_append.mp h).2.2 oldest (List.mem_of_getLast? hLast) r hr
    omega

variable (sql : OrderBy α) (hDistinct : rows.Pairwise fun a b => ts a ≠ ts b) {chosen : List α}
  {count : Int}

theorem sort_newestFirst (hDistinct : chosen.Pairwise fun a b => ts a ≠ ts b) :
    (sql.sort (fun r => -ts r) chosen).Pairwise fun a b => ts b < ts a := by
  have hKeys : chosen.Pairwise fun a b => -ts a ≠ -ts b := hDistinct.imp fun h => by omega
  exact (sql.sort_strict hKeys).imp fun h => by omega

/-- A page of rows that are chosen out of the window. -/
theorem isPage_of_chosen {same : α → α → Prop} (hCount : 0 < count)
    (hDistinct : chosen.Pairwise fun a b => ts a ≠ ts b)
    (hChosen : ∀ r ∈ chosen, r ∈ window ts lo hi rows)
    (hStand : ∀ r ∈ window ts lo hi rows, r ∈ chosen ∨ ∃ x ∈ chosen, ts r < ts x ∧ same x r) :
    IsPage ts same lo hi count.toNat rows (OrderBy.limit count (sql.sort (fun r => -ts r) chosen)) := by
  have hOrder := sort_newestFirst sql hDistinct
  have hPage : OrderBy.limit count (sql.sort (fun r => -ts r) chosen) =
      (sql.sort (fun r => -ts r) chosen).take count.toNat := if_pos (by omega)
  rw [hPage]
  have hMem {r : α} (hr : r ∈ (sql.sort (fun r => -ts r) chosen).take count.toNat) :
      r ∈ window ts lo hi rows :=
    hChosen r ((sql.mem_sort).mp (List.mem_of_mem_take hr))
  constructor
  · exact List.length_take_le _ _
  · exact hOrder.sublist (List.take_sublist _ _)
  · exact fun r hr => mem_window.mp (hMem hr)
  · intro r hr hLow hHigh hEmpty
    have hNil : chosen = [] := by
      rcases List.take_eq_nil_iff.mp hEmpty with h | h
      · omega
      · exact sql.sort_eq_nil.mp h
    rcases hStand r (mem_window.mpr ⟨hr, hLow, hHigh⟩) with h | ⟨x, h, -⟩ <;> rw [hNil] at h <;> cases h
  · intro oldest hLast r hr hNewer hHigh
    have hLow : lo ≤ ts oldest := (mem_window.mp (hMem (List.mem_of_getLast? hLast))).2.1
    have hOn {x : α} (hx : x ∈ chosen) (h : ts oldest ≤ ts x) :
        x ∈ (sql.sort (fun r => -ts r) chosen).take count.toNat :=
      mem_take_of_newer hOrder hLast (sql.mem_sort.mpr hx) h
    rcases hStand r (mem_window.mpr ⟨hr, by omega, hHigh⟩) with h | ⟨x, hx, hNew, hSame⟩
    · exact .inl (hOn h hNewer)
    · exact .inr ⟨x, hOn hx (by omega), hNew, hSame⟩

include hDistinct

theorem isPage_plain (hCount : 0 < count) : IsPage ts (fun _ _ => False) lo hi count.toNat rows
    (OrderBy.limit count (sql.sort (fun r => -ts r) (window ts lo hi rows))) :=
  isPage_of_chosen sql hCount (hDistinct.filter _) (fun _ h => h) fun _ h => .inl h

/-- A page of the newest row of each part. -/
theorem isPage_thinned [DecidableEq α] (part : α → Int) (hCount : 0 < count) :
    IsPage ts (fun a b => part a = part b) lo hi count.toNat rows
      (OrderBy.limit count (sql.sort (fun r => -ts r)
        (sql.firsts part (fun r => -ts r) (window ts lo hi rows)))) := by
  have hWindow : (window ts lo hi rows).Pairwise fun a b => ts a ≠ ts b := hDistinct.filter _
  have hKeys : (window ts lo hi rows).Pairwise fun a b => -ts a ≠ -ts b :=
    hWindow.imp fun h => by omega
  refine isPage_of_chosen sql hCount (hWindow.filter _) (fun r h => (List.mem_filter.mp h).1) ?_
  intro r hr
  -- The newest row of the part that the row is in.
  have hPart : (window ts lo hi rows).filter (fun x => part x = part r) ≠ [] :=
    List.ne_nil_of_mem (List.mem_filter.mpr ⟨hr, by simp⟩)
  obtain ⟨x, hx⟩ : ∃ x, (sql.sort (fun r => -ts r)
      ((window ts lo hi rows).filter fun x => part x = part r)).head? = some x :=
    Option.ne_none_iff_exists'.mp fun h => hPart (sql.sort_eq_nil.mp (List.head?_eq_none_iff.mp h))
  rw [sql.head_sort (hKeys.filter _)] at hx
  simp only [List.mem_filter, decide_eq_true_eq, and_imp] at hx
  obtain ⟨⟨hMem, hSame⟩, hNewest⟩ := hx
  have hFirst : x ∈ sql.firsts part (fun r => -ts r) (window ts lo hi rows) :=
    (sql.mem_firsts hKeys).mpr ⟨hMem, fun y hy h => hNewest y hy (h.trans hSame)⟩
  by_cases hSelf : ts x = ts r
  · rw [OrderBy.eq_of_key hWindow hMem hr hSelf] at hFirst
    exact .inl hFirst
  · have hNewer := hNewest r hr rfl
    exact .inr ⟨x, hFirst, by omega, hSame⟩

theorem firsts_eq_newest [DecidableEq α] (part : α → Int) :
    sql.firsts part (fun r => -ts r) rows = newest ts part rows := by
  have hKeys : rows.Pairwise fun a b => -ts a ≠ -ts b := hDistinct.imp fun h => by omega
  rw [OrderBy.firsts, newest]
  refine List.filter_congr fun r hr => ?_
  have hFirst : r ∈ sql.firsts part (fun r => -ts r) rows ↔ _ := sql.mem_firsts hKeys
  rw [OrderBy.firsts, List.mem_filter, and_congr_right_iff] at hFirst
  rw [Bool.eq_iff_iff, hFirst hr, decide_eq_true_eq]
  exact forall₂_congr fun x _ => imp_congr_right fun _ => by omega

end OnePage

/-! ### Rows that belong together with others -/

section Related

variable {β : Type} {R : α → β → Prop} {ts : α → Int} {ts' : β → Int} {rows : List α} {rows' : List β}
  (hRows : List.Forall₂ R rows rows') (hTs : ∀ a b, R a b → ts a = ts' b)

include hRows hTs

theorem window_related (lo hi : Int) :
    List.Forall₂ R (window ts lo hi rows) (window ts' lo hi rows') := by
  refine List.rel_filter (fun a b hR => ?_) hRows
  simp only [hTs a b hR]

theorem newest_related {part : α → Int} {part' : β → Int} (hPart : ∀ a b, R a b → part a = part' b) :
    List.Forall₂ R (newest ts part rows) (newest ts' part' rows') := by
  refine List.rel_filter (fun a b hR => ?_) hRows
  simp only [decide_eq_true_eq]
  refine Paired.forall_iff hRows fun x y hR' => ?_
  rw [hPart x y hR', hPart a b hR, hTs x y hR', hTs a b hR]

end Related

/-! ### Page after page -/

section Walks

variable (ts : α → Int) (lo : Int) (rows : List α) (page : κ → List α) (resume : α → κ)

/-- The pages from a place on: the next one resumes at the oldest row of the last one, while there
are older rows. -/
inductive Walk : κ → List (List α) → Prop
  | last (c : κ) :
    (∀ oldest, (page c).getLast? = some oldest → ∀ r ∈ rows, lo ≤ ts r → ts oldest ≤ ts r) →
    Walk c [page c]
  | more (c : κ) (oldest : α) (pages : List (List α)) : (page c).getLast? = some oldest →
    (∃ r ∈ rows, lo ≤ ts r ∧ ts r < ts oldest) → Walk (resume oldest) pages →
    Walk c (page c :: pages)

/-- The place behind some of the pages. -/
def placeAfter (c : κ) (pages : List (List α)) : κ := (pages.flatten.getLast?.map resume).getD c

variable {ts lo rows page resume} {bound : κ → Int} {c : κ} {pages : List (List α)}

section InWindow

variable (hMem : ∀ c, ∀ r ∈ page c, r ∈ rows ∧ lo ≤ ts r ∧ ts r < bound c)
  (hResume : ∀ r, bound (resume r) = ts r)

include hMem hResume

theorem Walk.mem (h : Walk ts lo rows page resume c pages) :
    ∀ r ∈ pages.flatten, r ∈ rows ∧ lo ≤ ts r ∧ ts r < bound c := by
  induction h with
  | last c => simpa using hMem c
  | more c oldest pages hLast hOlder hWalk ih =>
    intro r hr
    rw [List.flatten_cons] at hr
    rcases List.mem_append.mp hr with hr | hr
    · exact hMem c r hr
    · obtain ⟨hRow, hLow, hHigh⟩ := ih r hr
      have hOldest := (hMem c oldest (List.mem_of_getLast? hLast)).2.2
      rw [hResume] at hHigh
      exact ⟨hRow, hLow, by omega⟩

/-- Rows outside of the window do not matter, nor does what the pages are made of. -/
theorem Walk.congr {rows' : List α} {page' : κ → List α}
    (hSame : ∀ c', bound c' ≤ bound c → page' c' = page c')
    (hRows : ∀ r, lo ≤ ts r → ts r < bound c → (r ∈ rows' ↔ r ∈ rows))
    (h : Walk ts lo rows page resume c pages) : Walk ts lo rows' page' resume c pages := by
  induction h with
  | last c hNoOlder =>
    rw [← hSame c (Int.le_refl _)]
    refine .last c fun oldest hOldest r hr hLow => ?_
    rw [hSame c (Int.le_refl _)] at hOldest
    by_cases hIn : ts r < bound c
    · exact hNoOlder oldest hOldest r ((hRows r hLow hIn).mp hr) hLow
    · have hBound := (hMem c oldest (List.mem_of_getLast? hOldest)).2.2
      omega
  | more c oldest pages hLast hOlder hWalk ih =>
    have hBound := (hMem c oldest (List.mem_of_getLast? hLast)).2.2
    rw [← hSame c (Int.le_refl _)]
    rw [← hSame c (Int.le_refl _)] at hLast
    obtain ⟨r, hr, hLow, hHigh⟩ := hOlder
    refine .more c oldest pages hLast ⟨r, (hRows r hLow (by omega)).mpr hr, hLow, hHigh⟩ ?_
    refine ih (fun c' h => hSame c' ?_) fun r hLow hHigh => hRows r hLow ?_
    · rw [hResume] at h
      omega
    · rw [hResume] at hHigh
      omega

end InWindow

variable {same : κ → α → α → Prop} {count : Nat}
  (hPage : ∀ c, IsPage ts (same c) lo (bound c) count rows (page c))
  (hResume : ∀ r, bound (resume r) = ts r)

include hPage hResume

/-- The pages come to an end, since each one leaves fewer rows. -/
theorem exists_walk (c : κ) : ∃ pages, Walk ts lo rows page resume c pages := by
  induction hn : (window ts lo (bound c) rows).length using Nat.strongRecOn generalizing c with
  | _ n ih =>
    cases hLast : (page c).getLast? with
    | none => exact ⟨_, .last c fun oldest h => by cases hLast.symm.trans h⟩
    | some oldest =>
      by_cases hOlder : ∃ r ∈ rows, lo ≤ ts r ∧ ts r < ts oldest
      · obtain ⟨hMem, hLow, hHigh⟩ := (hPage c).mem oldest (List.mem_of_getLast? hLast)
        have hRest : window ts lo (ts oldest) rows =
            (window ts lo (bound c) rows).filter fun r => ts r < ts oldest := by
          rw [window, window, List.filter_filter]
          refine List.filter_congr fun r _ => ?_
          rw [Bool.eq_iff_iff]
          simp only [Bool.and_eq_true, decide_eq_true_eq]
          omega
        have hFewer : (window ts lo (bound (resume oldest)) rows).length < n := by
          rw [hResume, hRest, ← hn]
          refine List.length_filter_lt_length_iff_exists.mpr ⟨oldest, ?_, by simp⟩
          exact mem_window.mpr ⟨hMem, hLow, hHigh⟩
        obtain ⟨pages, hPages⟩ := ih _ hFewer (resume oldest) rfl
        exact ⟨_, .more c oldest pages hLast hOlder hPages⟩
      · refine ⟨_, .last c fun z hz r hr hLow => ?_⟩
        obtain rfl := Option.some.inj (hLast.symm.trans hz)
        exact Int.not_lt.mp fun h => hOlder ⟨r, hr, hLow, h⟩

omit hResume in
theorem Walk.short (h : Walk ts lo rows page resume c pages) : ∀ p ∈ pages, p.length ≤ count := by
  induction h with
  | last c => simpa using (hPage c).short
  | more c oldest pages hLast hOlder hWalk ih =>
    intro p hp
    rcases List.mem_cons.mp hp with rfl | hp
    · exact (hPage c).short
    · exact ih p hp

theorem Walk.newestFirst (h : Walk ts lo rows page resume c pages) :
    pages.flatten.Pairwise fun a b => ts b < ts a := by
  induction h with
  | last c => simpa using (hPage c).newestFirst
  | more c oldest pages hLast hOlder hWalk ih =>
    rw [List.flatten_cons, List.pairwise_append]
    refine ⟨(hPage c).newestFirst, ih, fun a ha b hb => ?_⟩
    have hOld := getLast_oldest (hPage c).newestFirst hLast ha
    have hRest := (hWalk.mem (fun c => (hPage c).mem) hResume b hb).2.2
    rw [hResume] at hRest
    omega

/-- The last row of all pages is the oldest one of the window. -/
theorem Walk.oldest (h : Walk ts lo rows page resume c pages) {r : α} (hr : r ∈ rows)
    (hLow : lo ≤ ts r) (hHigh : ts r < bound c) :
    ∃ z, pages.flatten.getLast? = some z ∧ ∀ r ∈ rows, lo ≤ ts r → ts z ≤ ts r := by
  induction h generalizing r with
  | last c hNoOlder =>
    rw [List.flatten_singleton]
    have hSome : (page c).getLast? ≠ none :=
      fun h => (hPage c).nonempty r hr hLow hHigh (List.getLast?_eq_none_iff.mp h)
    obtain ⟨z, hz⟩ := Option.ne_none_iff_exists'.mp hSome
    exact ⟨z, hz, hNoOlder z hz⟩
  | more c oldest pages hLast hOlder hWalk ih =>
    obtain ⟨x, hx, hxLow, hxHigh⟩ := hOlder
    obtain ⟨z, hz, hOldest⟩ := ih hx hxLow (by rw [hResume]; exact hxHigh)
    refine ⟨z, ?_, hOldest⟩
    rw [List.flatten_cons, List.getLast?_append, hz, Option.some_or]

/-- A row of the window is on a page, or a newer row of its kind is on the page that covers it. -/
theorem Walk.covers (h : Walk ts lo rows page resume c pages) {r : α} (hr : r ∈ rows)
    (hLow : lo ≤ ts r) (hHigh : ts r < bound c) : r ∈ pages.flatten ∨
      ∃ before p rest oldest x, pages = before ++ p :: rest ∧ p.getLast? = some oldest ∧
        ts oldest ≤ ts r ∧ ts r < bound (placeAfter resume c before) ∧ x ∈ p ∧ ts r < ts x ∧
        same (placeAfter resume c before) x r := by
  induction h with
  | last c hNoOlder =>
    have hSome : (page c).getLast? ≠ none :=
      fun h => (hPage c).nonempty r hr hLow hHigh (List.getLast?_eq_none_iff.mp h)
    obtain ⟨z, hz⟩ := Option.ne_none_iff_exists'.mp hSome
    rcases (hPage c).covers z hz r hr (hNoOlder z hz r hr hLow) hHigh with hMem | ⟨x, hx, hNew, hSame⟩
    · exact .inl (by simpa using hMem)
    · exact .inr ⟨[], page c, [], z, x, rfl, hz, hNoOlder z hz r hr hLow, hHigh, hx, hNew, hSame⟩
  | more c oldest pages hLast hOlder hWalk ih =>
    rw [List.flatten_cons, List.mem_append]
    by_cases hHere : ts oldest ≤ ts r
    · rcases (hPage c).covers oldest hLast r hr hHere hHigh with hMem | ⟨x, hx, hNew, hSame⟩
      · exact .inl (.inl hMem)
      · exact .inr ⟨[], page c, pages, oldest, x, rfl, hLast, hHere, hHigh, hx, hNew, hSame⟩
    · rcases ih (by rw [hResume]; omega) with hMem | ⟨before, p, rest, z, x, hPages, hz, hOld, hUp, hx,
        hNew, hSame⟩
      · exact .inl (.inr hMem)
      · have hPlace : placeAfter resume c (page c :: before) =
            placeAfter resume (resume oldest) before := by
          rw [placeAfter, placeAfter, List.flatten_cons, List.getLast?_append, hLast]
          cases before.flatten.getLast? <;> rfl
        rw [← hPlace] at hUp hSame
        exact .inr ⟨page c :: before, p, rest, z, x, by rw [hPages, List.cons_append], hz, hOld, hUp,
          hx, hNew, hSame⟩

end Walks

/-! ### Rows that come in order -/

section Ascending

variable {ts : α → Int} {old new : List α}

theorem orderedInsert_older {x : α} (hNewer : ∀ y ∈ new, ts x < ts y) :
    (new ++ old).orderedInsert (fun a b => ts b ≤ ts a) x =
      new ++ old.orderedInsert (fun a b => ts b ≤ ts a) x := by
  induction new with
  | nil => rfl
  | cons y ys ih =>
    obtain ⟨hHead, hTail⟩ := List.forall_mem_cons.mp hNewer
    rw [List.cons_append, List.orderedInsert_cons, if_neg (by omega), ih hTail, List.cons_append]

theorem sort_ascending (hAscending : new.Pairwise fun a b => ts a < ts b) :
    new.insertionSort (fun a b => ts b ≤ ts a) = new.reverse := by
  induction hAscending with
  | nil => rfl
  | @cons x xs hHead _ ih =>
    have hLast : (xs.reverse ++ []).orderedInsert (fun a b => ts b ≤ ts a) x = _ :=
      orderedInsert_older fun y hy => hHead y (List.mem_reverse.mp hy)
    rw [List.append_nil] at hLast
    rw [List.insertionSort_cons, ih, hLast, List.orderedInsert_nil, List.reverse_cons]

theorem sort_append_newer (hAscending : new.Pairwise fun a b => ts a < ts b)
    (hNewer : ∀ x ∈ old, ∀ y ∈ new, ts x < ts y) :
    (old ++ new).insertionSort (fun a b => ts b ≤ ts a) =
      new.reverse ++ old.insertionSort (fun a b => ts b ≤ ts a) := by
  induction old with
  | nil => rw [List.nil_append, sort_ascending hAscending, List.insertionSort_nil, List.append_nil]
  | cons x xs ih =>
    obtain ⟨hHead, hTail⟩ := List.forall_mem_cons.mp hNewer
    rw [List.cons_append, List.insertionSort_cons, ih hTail, List.insertionSort_cons,
      orderedInsert_older fun y hy => hHead y (List.mem_reverse.mp hy)]

end Ascending

end Paging
