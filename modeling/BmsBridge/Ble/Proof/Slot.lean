import BmsBridge.Ble.Coordinator
import Mathlib.Data.List.Nodup

/-! The coordinator's discipline, in terms of what each owner makes of the slot.  An owner that has
asked for it is the holder or queued once; the others are not queued. -/

namespace BmsBridge

namespace BleScanCoordinator

/-- What an owner makes of the slot: nothing, it has asked for it, it has it, or it is about to
release it whether it has it or not. -/
inductive Phase where
  | idle
  | asked
  | holds
  | either
  deriving DecidableEq, Repr

variable {ι : Type}

/-- What holds of the slot and its queue whatever the owners do. -/
structure Locked (c : BleScanCoordinator ι) : Prop where
  notQueued : ∀ i, c.holder = some i → i ∉ c.waiters
  distinct : c.waiters.Nodup
  free : c.holder = none → c.waiters = []

theorem Locked.initial : Locked ({} : BleScanCoordinator ι) where
  notQueued _ h := nomatch h
  distinct := .nil
  free _ := rfl

/-- The coordinator's state fits the phases, and a holder that still waits has been notified. -/
structure Orderly (c : BleScanCoordinator ι) (phase : ι → Phase) (notified : ι → Prop) : Prop where
  nodup : c.waiters.Nodup
  free : c.holder = none → c.waiters = []
  queued : ∀ i, i ∈ c.waiters ↔ phase i = .asked ∧ c.holder ≠ some i
  holds : ∀ i, phase i = .holds → c.holder = some i
  held : ∀ i, c.holder = some i → phase i = .holds ∨ phase i = .either ∨
    (phase i = .asked ∧ notified i)

theorem Orderly.initial {notified : ι → Prop} :
    Orderly ({} : BleScanCoordinator ι) (fun _ => .idle) notified where
  nodup := List.nodup_nil
  free _ := rfl
  queued _ := ⟨fun h => (nomatch h), fun h => (nomatch h.1)⟩
  holds _ h := nomatch h
  held _ h := nomatch h

theorem Orderly.keeps {c : BleScanCoordinator ι} {phase phase' : ι → Phase}
    {notified notified' : ι → Prop} (hOrderly : Orderly c phase notified) {j : ι}
    (hSame : phase' j = phase j) (hNotified : phase' j = .asked → notified j → notified' j)
    (hHolder : c.holder = some j) :
    phase' j = .holds ∨ phase' j = .either ∨ (phase' j = .asked ∧ notified' j) := by
  have hOld := hOrderly.held j hHolder
  rw [← hSame] at hOld
  rcases hOld with hHolds | hEither | ⟨hAsked, hNote⟩
  · exact .inl hHolds
  · exact .inr (.inl hEither)
  · exact .inr (.inr ⟨hAsked, hNotified hAsked hNote⟩)

theorem Orderly.locked {c : BleScanCoordinator ι} {phase : ι → Phase} {notified : ι → Prop}
    (hOrderly : Orderly c phase notified) : Locked c where
  notQueued i hHolder hMem := ((hOrderly.queued i).mp hMem).2 hHolder
  distinct := hOrderly.nodup
  free := hOrderly.free

section Calls

variable [DecidableEq ι] {c : BleScanCoordinator ι} {i j : ι}

theorem Locked.request (hLocked : Locked c) (owner : ι) : Locked (c.request owner).1 := by
  unfold BleScanCoordinator.request
  split
  · exact hLocked
  rename_i hOther
  split
  · rename_i hFree
    rw [hLocked.free hFree]
    exact ⟨fun _ _ => List.not_mem_nil, .nil, nofun⟩
  rename_i hTaken
  split
  · exact hLocked
  rename_i hNew
  refine ⟨?_, ?_, fun hFree => absurd hFree hTaken⟩
  · intro i hHolder hMem
    rcases List.mem_append.mp hMem with hOld | hLast
    · exact hLocked.notQueued i hHolder hOld
    · obtain rfl := List.mem_singleton.mp hLast
      exact hOther hHolder
  · exact hLocked.distinct.append (List.nodup_singleton owner) (List.disjoint_singleton.mpr hNew)

theorem Locked.release (hLocked : Locked c) (owner : ι) : Locked (c.release owner).1 := by
  unfold BleScanCoordinator.release
  split
  · refine ⟨?_, hLocked.distinct.erase owner, ?_⟩
    · intro i hHolder hMem
      exact hLocked.notQueued i hHolder (List.mem_of_mem_erase hMem)
    · intro hFree
      simp only [hLocked.free hFree, List.erase_nil]
  · have hDistinct := hLocked.distinct
    cases hWaiters : c.waiters with
    | nil => exact ⟨nofun, .nil, fun _ => rfl⟩
    | cons w waiters =>
      rw [hWaiters] at hDistinct
      obtain ⟨hFirst, hRest⟩ := List.nodup_cons.mp hDistinct
      refine ⟨?_, hRest, nofun⟩
      intro i hHolder
      obtain rfl := Option.some.inj hHolder
      exact hFirst

theorem request_grant (h : (c.request i).2 = some j) :
    j = i ∧ (c.request i).1.holder = some i := by
  rw [request] at h ⊢
  split
  · rename_i hHolder
    rw [if_pos hHolder] at h
    exact ⟨(Option.some.inj h).symm, hHolder⟩
  · rename_i hNot
    rw [if_neg hNot] at h
    split
    · rename_i hFree
      rw [if_pos hFree] at h
      exact ⟨(Option.some.inj h).symm, rfl⟩
    · rename_i hTaken
      rw [if_neg hTaken] at h
      split at h <;> cases h

theorem request_holder (h : c.holder = some j) : (c.request i).1.holder = some j := by
  rw [request]
  split
  · exact h
  · split
    · rename_i hFree
      cases hFree.symm.trans h
    · split <;> exact h

theorem release_grant (h : (c.release i).2 = some j) :
    c.holder = some i ∧ j ∈ c.waiters ∧ (c.release i).1.holder = some j := by
  rw [release] at h ⊢
  split at h
  · cases h
  · rename_i hHolder
    rw [if_neg hHolder]
    cases hWaiters : c.waiters with
    | nil =>
      rw [hWaiters] at h
      cases h
    | cons w waiters =>
      rw [hWaiters] at h
      obtain rfl := Option.some.inj h
      exact ⟨not_not.mp hHolder, List.mem_cons_self .., rfl⟩

theorem release_holder (h : c.holder = some j) (hj : j ≠ i) :
    (c.release i).1.holder = some j := by
  have hNot : c.holder ≠ some i := by
    rw [h]
    exact fun hSame => hj (Option.some.inj hSame)
  rw [release, if_pos hNot]
  exact h

end Calls

section Steps

variable {c : BleScanCoordinator ι} {phase phase' : ι → Phase} {notified notified' : ι → Prop}
  (hOrderly : Orderly c phase notified) {i : ι} (hOthers : ∀ j, j ≠ i → phase' j = phase j)
  (hNotified : ∀ j, phase' j = .asked → notified j → notified' j)

include hOrderly hOthers hNotified

/-- An owner moves on without the coordinator: it may give up what it has, but for a request, and
the holder may take the slot. -/
theorem Orderly.move (hMove : phase' i = phase i ∨ (phase' i = .either ∧ phase i ≠ .asked) ∨
    (phase' i = .holds ∧ c.holder = some i)) : Orderly c phase' notified' where
  nodup := hOrderly.nodup
  free := hOrderly.free
  queued j := by
    rw [hOrderly.queued]
    by_cases hj : j = i
    · subst hj
      rcases hMove with h | ⟨h, hNot⟩ | ⟨h, hHolder⟩
      · rw [h]
      · rw [h]
        exact ⟨fun hOld => absurd hOld.1 hNot, fun hNew => nomatch hNew.1⟩
      · rw [h]
        exact ⟨fun hOld => absurd hHolder hOld.2, fun hNew => nomatch hNew.1⟩
    · rw [hOthers j hj]
  holds j hHolds := by
    by_cases hj : j = i
    · subst hj
      rcases hMove with h | ⟨h, -⟩ | ⟨-, hHolder⟩
      · exact hOrderly.holds j (h ▸ hHolds)
      · cases h.symm.trans hHolds
      · exact hHolder
    · exact hOrderly.holds j (hOthers j hj ▸ hHolds)
  held j hHolder := by
    by_cases hj : j = i
    · subst hj
      rcases hMove with h | ⟨h, -⟩ | ⟨h, -⟩
      · exact hOrderly.keeps h (hNotified j) hHolder
      · exact .inr (.inl h)
      · exact .inl h
    · exact hOrderly.keeps (hOthers j hj) (hNotified j) hHolder

variable [DecidableEq ι]

/-- An idle owner asks for the slot: it has it at once, or it is queued last. -/
theorem Orderly.request (hIdle : phase i = .idle) (hAsked : phase' i = .asked)
    (hGrant : ∀ j, (c.request i).2 = some j → notified' j) :
    Orderly (c.request i).1 phase' notified' := by
  have hNotHolder : c.holder ≠ some i := by
    intro h
    rcases hOrderly.held i h with h | h | ⟨h, -⟩ <;> cases hIdle.symm.trans h
  have hNotQueued : i ∉ c.waiters := by
    intro h
    cases hIdle.symm.trans ((hOrderly.queued i).mp h).1
  have hLocked := hOrderly.locked.request i
  rw [BleScanCoordinator.request, if_neg hNotHolder] at hGrant hLocked ⊢
  by_cases hFree : c.holder = none
  · rw [if_pos hFree] at hGrant hLocked ⊢
    have hEmpty := hOrderly.free hFree
    have hNone (j : ι) : phase j ≠ .asked := by
      intro h
      have hMem := (hOrderly.queued j).mpr ⟨h, by rw [hFree]; nofun⟩
      rw [hEmpty] at hMem
      cases hMem
    constructor
    · exact hLocked.distinct
    · exact hLocked.free
    · intro j
      simp only [hEmpty, List.not_mem_nil, false_iff, not_and, not_not]
      intro h
      by_cases hj : j = i
      · rw [hj]
      · exact absurd (hOthers j hj ▸ h) (hNone j)
    · intro j h
      by_cases hj : j = i
      · rw [hj]
      · have hOld := hOrderly.holds j (hOthers j hj ▸ h)
        cases hFree.symm.trans hOld
    · intro j h
      obtain rfl := Option.some.inj h
      exact .inr (.inr ⟨hAsked, hGrant _ rfl⟩)
  · rw [if_neg hFree, if_neg hNotQueued] at hLocked ⊢
    constructor
    · exact hLocked.distinct
    · exact hLocked.free
    · intro j
      rw [List.mem_append, List.mem_singleton, hOrderly.queued]
      by_cases hj : j = i
      · subst hj
        exact ⟨fun _ => ⟨hAsked, hNotHolder⟩, fun _ => .inr rfl⟩
      · rw [hOthers j hj]
        exact or_iff_left hj
    · intro j h
      by_cases hj : j = i
      · subst hj
        cases hAsked.symm.trans h
      · exact hOrderly.holds j (hOthers j hj ▸ h)
    · intro j h
      have hj : j ≠ i := by
        rintro rfl
        exact hNotHolder h
      exact hOrderly.keeps (hOthers j hj) (hNotified j) h

omit hNotified in
/-- The holder gives the slot to the first in the queue. -/
theorem Orderly.pass (hIdle : phase' i = .idle) (hHolder : c.holder = some i)
    (hGrant : ∀ j, (c.release i).2 = some j → notified' j) :
    Orderly (c.release i).1 phase' notified' := by
  have hLocked := hOrderly.locked.release i
  rw [BleScanCoordinator.release, if_neg (not_not.mpr hHolder)] at hGrant hLocked ⊢
  have hNotHolds (j : ι) : phase' j ≠ .holds := by
    intro h
    by_cases hj : j = i
    · subst hj
      cases hIdle.symm.trans h
    · have hOld := hOrderly.holds j (hOthers j hj ▸ h)
      exact hj (Option.some.inj (hOld.symm.trans hHolder))
  have hQueued (j : ι) : j ∈ c.waiters ↔ phase' j = .asked := by
    by_cases hj : j = i
    · subst hj
      rw [hOrderly.queued]
      exact ⟨fun h => absurd hHolder h.2, fun h => nomatch hIdle.symm.trans h⟩
    · rw [hOthers j hj, hOrderly.queued]
      exact and_iff_left fun h => hj (Option.some.inj (h.symm.trans hHolder))
  cases hWaiters : c.waiters with
  | nil =>
    rw [hWaiters] at hLocked
    constructor
    · exact hLocked.distinct
    · exact hLocked.free
    · intro j
      rw [← hQueued, hWaiters]
      exact (and_iff_left nofun).symm
    · intro j h
      exact absurd h (hNotHolds j)
    · nofun
  | cons w waiters =>
    rw [hWaiters] at hGrant hLocked
    have hAsked : phase' w = .asked := (hQueued w).mp (hWaiters ▸ List.mem_cons_self ..)
    constructor
    · exact hLocked.distinct
    · exact hLocked.free
    · intro j
      rw [← hQueued, hWaiters, List.mem_cons]
      constructor
      · intro h
        exact ⟨.inr h, fun hj => hLocked.notQueued j hj h⟩
      · rintro ⟨rfl | h, hj⟩
        · exact absurd rfl hj
        · exact h
    · intro j h
      exact absurd h (hNotHolds j)
    · intro j h
      obtain rfl := Option.some.inj h
      exact .inr (.inr ⟨hAsked, hGrant w rfl⟩)

/-- Another owner leaves the queue. -/
theorem Orderly.leave (hIdle : phase' i = .idle) (hHolder : c.holder ≠ some i) :
    Orderly (c.release i).1 phase' notified' := by
  have hLocked := hOrderly.locked.release i
  rw [BleScanCoordinator.release, if_pos hHolder] at hLocked ⊢
  constructor
  · exact hLocked.distinct
  · exact hLocked.free
  · intro j
    by_cases hj : j = i
    · subst hj
      rw [hOrderly.nodup.mem_erase_iff, hIdle]
      exact ⟨fun h => absurd rfl h.1, fun h => nomatch h.1⟩
    · rw [List.mem_erase_of_ne hj, hOrderly.queued, hOthers j hj]
  · intro j h
    by_cases hj : j = i
    · subst hj
      cases hIdle.symm.trans h
    · exact hOrderly.holds j (hOthers j hj ▸ h)
  · intro j h
    have hj : j ≠ i := by
      rintro rfl
      exact hHolder h
    exact hOrderly.keeps (hOthers j hj) (hNotified j) h

/-- An owner releases the slot: the first in the queue gets it, or the queue loses the owner. -/
theorem Orderly.release (hIdle : phase' i = .idle)
    (hGrant : ∀ j, (c.release i).2 = some j → notified' j) :
    Orderly (c.release i).1 phase' notified' := by
  by_cases hHolder : c.holder = some i
  · exact hOrderly.pass hOthers hIdle hHolder hGrant
  · exact hOrderly.leave hOthers hNotified hIdle hHolder

end Steps

end BleScanCoordinator

end BmsBridge
