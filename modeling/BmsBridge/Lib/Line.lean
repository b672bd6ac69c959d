/-! A waiting line with its history: what has entered it, what was served from its front, and what
has withdrawn. -/

namespace Line

inductive Op (α : Type) where
  | enter (x : α)
  | serve
  | withdraw (p : α → Bool)
  | idle

structure History (α : Type) where
  entered : List α := []
  served : List α := []
  waiting : List α := []
  withdrawn : List α := []

variable {α : Type}

namespace History

def apply (h : History α) : Op α → History α
  | .enter x => { h with entered := h.entered ++ [x], waiting := h.waiting ++ [x] }
  | .serve => { h with served := h.served ++ h.waiting.take 1, waiting := h.waiting.drop 1 }
  | .withdraw p => { h with
      waiting := h.waiting.filter (!p ·)
      withdrawn := h.withdrawn ++ h.waiting.filter p }
  | .idle => h

def run (h : History α) (ops : List (Op α)) : History α := ops.foldl apply h

end History

def Op.serves : Op α → Bool
  | .serve => true
  | _ => false

/-! ### Accounts -/

/-- What has entered is served, waits or has withdrawn, once for each time, and the order in the
line is the order of the entries. -/
structure Accounted (h : History α) : Prop where
  once : h.entered.Perm (h.served ++ h.waiting ++ h.withdrawn)
  inOrder : (h.served ++ h.waiting).Sublist h.entered

theorem Accounted.initial : Accounted ({} : History α) := ⟨.refl _, .refl _⟩

theorem Accounted.apply {h : History α} (hAcc : Accounted h) (op : Op α) :
    Accounted (h.apply op) := by
  obtain ⟨hOnce, hOrder⟩ := hAcc
  cases op with
  | enter x =>
    refine ⟨(hOnce.append_right [x]).trans ?_, ?_⟩
    · simp only [History.apply, List.append_assoc]
      exact .append_left _ (.append_left _ List.perm_append_comm)
    · have hLast := hOrder.append_right [x]
      rwa [List.append_assoc] at hLast
  | serve =>
    have hSame : h.served ++ h.waiting.take 1 ++ h.waiting.drop 1 = h.served ++ h.waiting := by
      rw [List.append_assoc, List.take_append_drop]
    constructor
    · simp only [History.apply, hSame]
      exact hOnce
    · simp only [History.apply, hSame]
      exact hOrder
  | withdraw p =>
    constructor
    · refine hOnce.trans ?_
      have hSplit := List.filter_append_perm p h.waiting
      simp only [History.apply, List.append_assoc]
      apply List.Perm.append_left
      refine (hSplit.symm.trans List.perm_append_comm).append_right _ |>.trans ?_
      rw [List.append_assoc]
      exact .append_left _ List.perm_append_comm
    · exact ((List.Sublist.refl _).append List.filter_sublist).trans hOrder
  | idle => exact ⟨hOnce, hOrder⟩

theorem Accounted.run {h : History α} (hAcc : Accounted h) (ops : List (Op α)) :
    Accounted (h.run ops) := by
  induction ops generalizing h with
  | nil => exact hAcc
  | cons op ops ih => exact ih (hAcc.apply op)

/-! ### Waiting times -/

/-- An entry has been served, or has withdrawn. -/
def Through (h : History α) (x : α) : Prop := x ∈ h.served ∨ x ∈ h.withdrawn

theorem Through.apply {h : History α} {x : α} (hx : Through h x) (op : Op α) :
    Through (h.apply op) x := by
  cases op with
  | enter => exact hx
  | serve => exact hx.imp_left fun hServed => List.mem_append_left _ hServed
  | withdraw => exact hx.imp_right fun hGone => List.mem_append_left _ hGone
  | idle => exact hx

theorem Through.run {h : History α} {x : α} (hx : Through h x) (ops : List (Op α)) :
    Through (h.run ops) x := by
  induction ops generalizing h with
  | nil => exact hx
  | cons op ops ih => exact ih (hx.apply op)

/-- Each entry that is served shortens the wait of those behind it by one. -/
theorem through_or_closer {h : History α} {ahead behind : List α} {x : α}
    (hWaits : h.waiting = ahead ++ x :: behind) (op : Op α) :
    Through (h.apply op) x ∨ ∃ ahead' behind', (h.apply op).waiting = ahead' ++ x :: behind' ∧
      ahead'.length + (if op.serves then 1 else 0) ≤ ahead.length := by
  cases op with
  | enter y =>
    refine .inr ⟨ahead, behind ++ [y], ?_, Nat.le_refl _⟩
    simp [History.apply, hWaits]
  | serve =>
    cases ahead with
    | nil =>
      refine .inl (.inl ?_)
      simp [History.apply, hWaits]
    | cons y ahead =>
      refine .inr ⟨ahead, behind, ?_, Nat.le_refl _⟩
      simp [History.apply, hWaits]
  | withdraw p =>
    cases hp : p x with
    | true =>
      refine .inl (.inr ?_)
      simp [History.apply, hWaits, hp]
    | false =>
      refine .inr ⟨ahead.filter (!p ·), behind.filter (!p ·), ?_, List.length_filter_le ..⟩
      simp [History.apply, hWaits, hp]
  | idle => exact .inr ⟨ahead, behind, hWaits, Nat.le_refl _⟩

/-- An entry is through once more entries have been served than were ahead of it. -/
theorem through_of_serves {h : History α} {ahead behind : List α} {x : α}
    (hWaits : h.waiting = ahead ++ x :: behind) {ops : List (Op α)}
    (hServes : ahead.length < ops.countP Op.serves) : Through (h.run ops) x := by
  induction ops generalizing h ahead behind with
  | nil => cases hServes
  | cons op ops ih =>
    rcases through_or_closer hWaits op with hDone | ⟨ahead', behind', hWaits', hCloser⟩
    · exact hDone.run ops
    · refine ih hWaits' ?_
      rw [List.countP_cons] at hServes
      omega

end Line
