import BmsBridge.Ble.Proof.Slot
import BmsBridge.Lib.Line

/-! The coordinator as a fair lock, for any calls of any owners.  Its queue is a waiting line in
which a release by the holder serves the first, and any other release withdraws its owner.  The
callbacks are numbered by the calls, so that no two requests are the same. -/

namespace BmsBridge

open Line

namespace CallbackCoordinator

variable {ι κ : Type} [DecidableEq ι]

/-! ### Without the callbacks -/

omit [DecidableEq ι] in
@[simp] theorem owners_holder (c : CallbackCoordinator ι κ) : c.owners.holder = c.holder := rfl

theorem any_owner_iff {c : CallbackCoordinator ι κ} {owner : ι} :
    (c.waiters.any (·.owner = owner)) = true ↔ owner ∈ c.owners.waiters := by
  simp [owners]

theorem owners_request (c : CallbackCoordinator ι κ) (owner : ι) (cb : κ) :
    (c.request owner cb).1.owners = (c.owners.request owner).1 := by
  unfold request BleScanCoordinator.request
  rw [owners_holder]
  by_cases hHolder : c.holder = some owner
  · rw [if_pos hHolder, if_pos hHolder]
  rw [if_neg hHolder, if_neg hHolder]
  by_cases hFree : c.holder = none
  · rw [if_pos hFree, if_pos hFree]
    rfl
  rw [if_neg hFree, if_neg hFree]
  by_cases hQueued : owner ∈ c.owners.waiters
  · rw [if_pos (any_owner_iff.mpr hQueued), if_pos hQueued]
  · rw [if_neg (mt any_owner_iff.mp hQueued), if_neg hQueued]
    simp only [owners, List.map_append, List.map_cons, List.map_nil]

theorem map_eraseP_owner (owner : ι) (waiters : List (Waiter ι κ)) :
    (waiters.eraseP (·.owner = owner)).map Waiter.owner =
      (waiters.map Waiter.owner).erase owner := by
  induction waiters with
  | nil => rfl
  | cons w waiters ih =>
    by_cases hw : w.owner = owner
    · simp [hw]
    · simp [hw, ih]

theorem owners_release (c : CallbackCoordinator ι κ) (owner : ι) :
    (c.release owner).1.owners = (c.owners.release owner).1 := by
  unfold release BleScanCoordinator.release
  by_cases hHolder : c.holder = some owner
  · cases hWaiters : c.waiters with
    | nil => simp [owners, hHolder, hWaiters]
    | cons w waiters => simp [owners, hHolder, hWaiters]
  · simp [owners, hHolder, map_eraseP_owner]

/-! ### Calls -/

/-- A request that has to wait: another owner has the slot, and this one is not queued. -/
def Enqueues (c : CallbackCoordinator ι κ) (owner : ι) : Prop :=
  c.holder ≠ none ∧ c.holder ≠ some owner ∧ owner ∉ c.owners.waiters

instance (c : CallbackCoordinator ι κ) (owner : ι) : Decidable (c.Enqueues owner) :=
  inferInstanceAs (Decidable (_ ∧ _))

variable {c : CallbackCoordinator ι κ} {owner : ι}

theorem request_enqueued (h : c.Enqueues owner) (cb : κ) :
    c.request owner cb = ({ c with waiters := c.waiters ++ [{ owner, cb }] }, none) := by
  obtain ⟨hTaken, hOther, hNew⟩ := h
  unfold request
  rw [if_neg hOther, if_neg hTaken, if_neg (mt any_owner_iff.mp hNew)]

theorem request_free (h : c.holder = none) (cb : κ) :
    c.request owner cb = ({ c with holder := some owner }, some { owner, cb }) := by
  unfold request
  rw [if_neg (by simp [h]), if_pos h]

theorem request_waiters (h : ¬c.Enqueues owner) (cb : κ) :
    (c.request owner cb).1.waiters = c.waiters := by
  unfold request
  split
  · rfl
  rename_i hOther
  split
  · rfl
  rename_i hTaken
  split
  · rfl
  rename_i hNew
  exact absurd ⟨hTaken, hOther, mt any_owner_iff.mpr hNew⟩ h

/-- A request is granted to its own owner, which then has the slot. -/
theorem request_granted {cb : κ} {w : Waiter ι κ} (h : (c.request owner cb).2 = some w) :
    w = { owner, cb } ∧ (c.request owner cb).1.holder = some owner ∧ ¬c.Enqueues owner := by
  have hNot : ¬c.Enqueues owner := by
    intro hEnqueues
    rw [request_enqueued hEnqueues] at h
    cases h
  refine ⟨?_, ?_, hNot⟩
  · unfold request at h
    split at h
    · exact (Option.some.inj h).symm
    split at h
    · exact (Option.some.inj h).symm
    split at h <;> cases h
  · unfold request at h ⊢
    split
    · assumption
    rename_i hOther
    rw [if_neg hOther] at h
    split
    · rfl
    rename_i hTaken
    rw [if_neg hTaken] at h
    split at h <;> cases h

/-- The holder gives the slot to the first in the queue. -/
theorem release_served (h : c.holder = some owner) :
    (c.release owner).2.toList = c.waiters.take 1 ∧
      (c.release owner).1.waiters = c.waiters.drop 1 := by
  unfold release
  rw [if_neg (not_not.mpr h)]
  cases c.waiters with
  | nil => exact ⟨rfl, rfl⟩
  | cons w waiters => exact ⟨rfl, rfl⟩

/-- Of distinct owners, the first to be found is the only one. -/
theorem eraseP_owner {waiters : List (Waiter ι κ)} (hDistinct : (waiters.map Waiter.owner).Nodup)
    (owner : ι) :
    waiters.eraseP (·.owner = owner) = waiters.filter fun w => !decide (w.owner = owner) := by
  induction waiters with
  | nil => rfl
  | cons w waiters ih =>
    obtain ⟨hFirst, hRest⟩ := List.nodup_cons.mp hDistinct
    by_cases hw : w.owner = owner
    · rw [List.eraseP_cons_of_pos (by simpa using hw), List.filter_cons_of_neg (by simpa using hw)]
      refine (List.filter_eq_self.mpr ?_).symm
      intro v hv
      have hOther : v.owner ≠ owner := by
        rintro rfl
        exact hFirst (hw ▸ List.mem_map_of_mem hv)
      simpa using hOther
    · rw [List.eraseP_cons_of_neg (by simpa using hw), List.filter_cons_of_pos (by simpa using hw),
        ih hRest]

theorem release_withdrawn (hLocked : c.owners.Locked) (h : c.holder ≠ some owner) :
    (c.release owner).2 = none ∧
      (c.release owner).1.waiters = c.waiters.filter fun w => !decide (w.owner = owner) := by
  unfold release
  rw [if_pos h]
  exact ⟨rfl, eraseP_owner hLocked.distinct owner⟩

theorem release_granted {w : Waiter ι κ} (h : (c.release owner).2 = some w) :
    w ∈ c.waiters ∧ (c.release owner).1.holder = some w.owner := by
  unfold release at h ⊢
  split at h
  · cases h
  rename_i hHolder
  rw [if_neg hHolder]
  cases hWaiters : c.waiters with
  | nil =>
    rw [hWaiters] at h
    cases h
  | cons first waiters =>
    rw [hWaiters] at h
    obtain rfl := Option.some.inj h
    exact ⟨List.mem_cons_self .., rfl⟩

/-! ### Runs -/

inductive Call (ι κ : Type) where
  | request (owner : ι) (onGranted : κ)
  | release (owner : ι)
  deriving DecidableEq, Repr

/-- The coordinator after some calls, and what has become of the requests.  The callback of a request
comes with the number of its call. -/
structure Record (ι κ : Type) where
  slot : CallbackCoordinator ι (Nat × κ) := {}
  calls : Nat := 0
  /-- The requests that were granted by the call itself. -/
  atOnce : List (Waiter ι (Nat × κ)) := []
  enqueued : List (Waiter ι (Nat × κ)) := []
  /-- The grants that releases have led to. -/
  granted : List (Waiter ι (Nat × κ)) := []
  /-- The waiters whose owner released the slot while another had it. -/
  withdrawn : List (Waiter ι (Nat × κ)) := []

namespace Record

/-- The coordinator's answer to the next call. -/
def answer (r : Record ι κ) :
    Call ι κ → CallbackCoordinator ι (Nat × κ) × Option (Waiter ι (Nat × κ))
  | .request owner onGranted => r.slot.request owner (r.calls, onGranted)
  | .release owner => r.slot.release owner

def step (r : Record ι κ) (call : Call ι κ) : Record ι κ :=
  let (slot, grant) := r.answer call
  match call with
  | .request owner onGranted => { r with
      slot
      calls := r.calls + 1
      atOnce := r.atOnce ++ grant.toList
      enqueued := r.enqueued ++
        if r.slot.Enqueues owner then [{ owner, cb := (r.calls, onGranted) }] else [] }
  | .release owner => { r with
      slot
      calls := r.calls + 1
      granted := r.granted ++ grant.toList
      withdrawn := r.withdrawn ++
        if r.slot.holder = some owner then [] else r.slot.waiters.filter (·.owner = owner) }

def run (r : Record ι κ) (calls : List (Call ι κ)) : Record ι κ := calls.foldl step r

/-- The releases by the owner that has the slot at the time. -/
def handovers (r : Record ι κ) : List (Call ι κ) → Nat
  | [] => 0
  | .request owner onGranted :: calls => handovers (r.step (.request owner onGranted)) calls
  | .release owner :: calls =>
    (if r.slot.holder = some owner then 1 else 0) + handovers (r.step (.release owner)) calls

/-- The queue as a waiting line. -/
def history (r : Record ι κ) : History (Waiter ι (Nat × κ)) where
  entered := r.enqueued
  served := r.granted
  waiting := r.slot.waiters
  withdrawn := r.withdrawn

/-- What a call is to the waiting line. -/
def lineOp (r : Record ι κ) : Call ι κ → Op (Waiter ι (Nat × κ))
  | .request owner onGranted =>
    if r.slot.Enqueues owner then .enter { owner, cb := (r.calls, onGranted) } else .idle
  | .release owner => if r.slot.holder = some owner then .serve else .withdraw (·.owner = owner)

def lineOps (r : Record ι κ) : List (Call ι κ) → List (Op (Waiter ι (Nat × κ)))
  | [] => []
  | call :: calls => r.lineOp call :: lineOps (r.step call) calls

variable {r : Record ι κ}

/-- The coordinator does to its queue what the line does. -/
theorem history_step (hLocked : r.slot.owners.Locked) (call : Call ι κ) :
    (r.step call).history = r.history.apply (r.lineOp call) := by
  cases call with
  | request owner onGranted =>
    by_cases hEnqueues : r.slot.Enqueues owner
    · simp [history, step, answer, lineOp, History.apply, request_enqueued hEnqueues, hEnqueues]
    · simp [history, step, answer, lineOp, History.apply, request_waiters hEnqueues, hEnqueues]
  | release owner =>
    by_cases hHolder : r.slot.holder = some owner
    · obtain ⟨hGrant, hRest⟩ := release_served hHolder
      simp [history, step, answer, lineOp, History.apply, hGrant, hRest, hHolder]
    · obtain ⟨hGrant, hRest⟩ := release_withdrawn hLocked hHolder
      simp [history, step, answer, lineOp, History.apply, hGrant, hRest, hHolder]

theorem step_slot (r : Record ι κ) (call : Call ι κ) : (r.step call).slot = (r.answer call).1 := by
  cases call <;> rfl

theorem step_locked (hLocked : r.slot.owners.Locked) (call : Call ι κ) :
    (r.step call).slot.owners.Locked := by
  rw [step_slot]
  cases call with
  | request owner onGranted =>
    rw [answer, owners_request]
    exact hLocked.request owner
  | release owner =>
    rw [answer, owners_release]
    exact hLocked.release owner

theorem run_locked (hLocked : r.slot.owners.Locked) (calls : List (Call ι κ)) :
    (r.run calls).slot.owners.Locked := by
  induction calls generalizing r with
  | nil => exact hLocked
  | cons call calls ih => exact ih (step_locked hLocked call)

theorem history_run (hLocked : r.slot.owners.Locked) (calls : List (Call ι κ)) :
    (r.run calls).history = r.history.run (r.lineOps calls) := by
  induction calls generalizing r with
  | nil => rfl
  | cons call calls ih =>
    refine (ih (step_locked hLocked call)).trans ?_
    rw [history_step hLocked]
    rfl

theorem handovers_eq (r : Record ι κ) (calls : List (Call ι κ)) :
    r.handovers calls = (r.lineOps calls).countP Op.serves := by
  induction calls generalizing r with
  | nil => rfl
  | cons call calls ih =>
    rw [lineOps, List.countP_cons]
    cases call with
    | request owner onGranted =>
      have hOp : (r.lineOp (.request owner onGranted)).serves = false := by
        simp only [lineOp]
        split <;> rfl
      rw [handovers, ih, hOp]
      rfl
    | release owner =>
      have hOp : (r.lineOp (.release owner)).serves = decide (r.slot.holder = some owner) := by
        simp only [lineOp]
        by_cases hHolder : r.slot.holder = some owner
        · rw [if_pos hHolder, decide_eq_true hHolder]
          rfl
        · rw [if_neg hHolder, decide_eq_false hHolder]
          rfl
      rw [handovers, ih, hOp, Nat.add_comm]
      simp only [decide_eq_true_eq]

/-! ### Numbers -/

/-- The requests of a list have different numbers, all of them below `n`. -/
def Numbered (n : Nat) (ws : List (Waiter ι (Nat × κ))) : Prop :=
  (ws.map (·.cb.1)).Nodup ∧ ∀ w ∈ ws, w.cb.1 < n

omit [DecidableEq ι] in
theorem Numbered.later {n : Nat} {ws : List (Waiter ι (Nat × κ))} (h : Numbered n ws) :
    Numbered (n + 1) ws :=
  ⟨h.1, fun w hw => Nat.lt_succ_of_lt (h.2 w hw)⟩

omit [DecidableEq ι] in
theorem Numbered.add {n : Nat} {ws ws' : List (Waiter ι (Nat × κ))} (h : Numbered n ws)
    {w : Waiter ι (Nat × κ)} (hw : w.cb.1 = n) (hPerm : ws'.Perm (w :: ws)) :
    Numbered (n + 1) ws' := by
  constructor
  · refine (hPerm.map _).nodup_iff.mpr (List.nodup_cons.mpr ⟨?_, h.1⟩)
    intro hMem
    obtain ⟨old, hOld, hSame⟩ := List.mem_map.mp hMem
    exact absurd (hSame.trans hw) (Nat.ne_of_lt (h.2 old hOld))
  · intro v hv
    rcases List.mem_cons.mp (hPerm.mem_iff.mp hv) with rfl | hOld
    · exact hw ▸ Nat.lt_succ_self v.cb.1
    · exact h.later.2 v hOld

theorem step_numbered (h : Numbered r.calls (r.atOnce ++ r.enqueued)) (call : Call ι κ) :
    Numbered (r.step call).calls ((r.step call).atOnce ++ (r.step call).enqueued) := by
  cases call with
  | release => exact h.later
  | request owner onGranted =>
    by_cases hEnqueues : r.slot.Enqueues owner
    · have hLists : (r.step (.request owner onGranted)).atOnce ++
          (r.step (.request owner onGranted)).enqueued =
            r.atOnce ++ r.enqueued ++ [{ owner, cb := (r.calls, onGranted) }] := by
        simp [step, answer, request_enqueued hEnqueues, hEnqueues]
      rw [hLists]
      exact h.add rfl (List.perm_append_singleton ..)
    · cases hGrant : (r.slot.request owner (r.calls, onGranted)).2 with
      | none =>
        simp only [step, answer, hGrant, hEnqueues, ↓reduceIte, Option.toList_none, List.append_nil]
        exact h.later
      | some w =>
        obtain ⟨rfl, -, -⟩ := request_granted hGrant
        simp only [step, answer, hGrant, hEnqueues, ↓reduceIte, Option.toList_some, List.append_nil,
          List.append_assoc]
        exact h.add rfl List.perm_middle

theorem run_numbered (h : Numbered r.calls (r.atOnce ++ r.enqueued)) (calls : List (Call ι κ)) :
    Numbered (r.run calls).calls ((r.run calls).atOnce ++ (r.run calls).enqueued) := by
  induction calls generalizing r with
  | nil => exact h
  | cons call calls ih => exact ih (step_numbered h call)

/-! ### Fairness -/

/-- A grant goes to the owner that then has the slot: to an owner in the queue, or to the one that
has just called. -/
structure Issued (r : Record ι κ) (call : Call ι κ) (w : Waiter ι (Nat × κ)) : Prop where
  holder : (r.answer call).1.holder = some w.owner
  own : w ∈ r.slot.waiters ∨
    ∃ onGranted, call = .request w.owner onGranted ∧ w.cb = (r.calls, onGranted)

theorem issued_answer (r : Record ι κ) {call : Call ι κ} {w : Waiter ι (Nat × κ)}
    (h : (r.answer call).2 = some w) : Issued r call w := by
  cases call with
  | request owner onGranted =>
    obtain ⟨rfl, hHolder, -⟩ := request_granted h
    exact ⟨hHolder, .inr ⟨onGranted, rfl, rfl⟩⟩
  | release owner =>
    obtain ⟨hQueued, hHolder⟩ := release_granted h
    exact ⟨hHolder, .inl hQueued⟩

/-- The lock after any calls, and before any others: the slot and its queue are in order, a request for
the free slot is granted at once, and one that has to wait is put at the end of the queue; each request
that was enqueued is granted, waits or was withdrawn, once, in the order of the queue; and it is
granted or withdrawn when the slot has been handed over once more than there were waiters ahead. -/
structure Fair (r : Record ι κ) : Prop where
  locked : r.slot.owners.Locked
  free : ∀ owner onGranted, r.slot.holder = none → r.answer (.request owner onGranted) =
    ({ r.slot with holder := some owner }, some { owner, cb := (r.calls, onGranted) })
  taken : ∀ owner onGranted, r.slot.Enqueues owner → r.answer (.request owner onGranted) =
    ({ r.slot with waiters := r.slot.waiters ++ [{ owner, cb := (r.calls, onGranted) }] }, none)
  accounted : Accounted r.history
  distinct : (r.atOnce ++ r.enqueued).Nodup
  issued : ∀ call w, (r.answer call).2 = some w → Issued r call w
  served : ∀ ahead w behind calls, r.slot.waiters = ahead ++ w :: behind →
    ahead.length < r.handovers calls → Through (r.run calls).history w

end Record

/-- For every sequence of requests and releases, the coordinator is a fair lock. -/
theorem coordinator_fair (calls : List (Call ι κ)) :
    Record.Fair (({} : Record ι κ).run calls) := by
  have hStart : ({} : Record ι κ).slot.owners.Locked := BleScanCoordinator.Locked.initial
  have hLocked := Record.run_locked hStart calls
  have hNumbered := Record.run_numbered (r := ({} : Record ι κ)) ⟨.nil, nofun⟩ calls
  constructor
  · exact hLocked
  · exact fun _ _ hFree => request_free hFree _
  · exact fun _ _ hEnqueues => request_enqueued hEnqueues _
  · rw [Record.history_run hStart]
    exact Accounted.initial.run _
  · exact .of_map _ hNumbered.1
  · exact fun _ _ => Record.issued_answer _
  · intro ahead w behind more hWaits hHandovers
    rw [Record.handovers_eq] at hHandovers
    rw [Record.history_run hLocked]
    exact through_of_serves hWaits hHandovers

/-- The first owner has the slot at once, the second gives up waiting, and the third is next. -/
example :
    let r := ({} : Record Nat String).run
      [.request 1 "a", .request 2 "b", .request 3 "c", .request 2 "d", .release 2, .release 1]
    r.slot = { holder := some 3 } ∧ r.atOnce = [{ owner := 1, cb := (0, "a") }] ∧
      r.granted = [{ owner := 3, cb := (2, "c") }] ∧
      r.withdrawn = [{ owner := 2, cb := (1, "b") }] := by
  decide

end CallbackCoordinator

end BmsBridge
