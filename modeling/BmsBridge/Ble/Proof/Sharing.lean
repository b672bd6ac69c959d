import BmsBridge.Ble.Proof.Discipline

/-! Any number of clients share the slot, and their steps and grants interleave freely: the slot is
with a client that scans or connects, or with one that is about to hear of it. -/

namespace BmsBridge

namespace BleClient

open BleScanCoordinator (Phase Orderly request_grant request_holder release_grant release_holder)

variable {ι : Type}

namespace System

def phase (s : System ι) (i : ι) : Phase := phaseAt (s.clients i).state (s.clients i).code

def leaving (s : System ι) (i : ι) : Bool := leavingAt (s.clients i).state (s.clients i).code

/-- The client's slot event is set, or a thread is about to set it. -/
def Notified (s : System ι) (i : ι) : Prop :=
  (s.clients i).slotEvent ∨ ∃ j, s.granting j = some i

end System

/-- The clients keep to the discipline, and no client but one that leaves for good gets a grant that
it does not wait for. -/
structure Disciplined (s : System ι) : Prop where
  sound : ∀ i, Sound (s.clients i)
  orderly : Orderly s.coordinator s.phase s.Notified
  notices : ∀ i, s.Notified i →
    s.leaving i ∨ (s.phase i = .asked ∧ s.coordinator.holder = some i)
  event : ∀ i, s.leaving i = false → (s.clients i).slotEvent → ∀ j, s.granting j ≠ some i
  grant : ∀ i, s.leaving i = false → ∀ j k, s.granting j = some i → s.granting k = some i → j = k

theorem Disciplined.initial : Disciplined ({} : System ι) where
  sound _ := Sound.initial
  orderly := Orderly.initial
  notices i h := by
    rcases h with h | ⟨j, h⟩ <;> cases h
  event i _ h := nomatch h
  grant i _ j _ h := nomatch h

variable [DecidableEq ι]

/-- What a step of the system can be. -/
inductive SystemStep (s : System ι) : SystemLabel ι → System ι → Prop
  | thread (i : ι) (ok : Bool) (c : Client) : s.granting i = none → next (s.clients i) ok = some c →
      SystemStep s (.client i (.thread ok)) {
        clients := Function.update s.clients i c
        coordinator := (s.coordinatorCall i).1
        granting := Function.update s.granting i (s.coordinatorCall i).2 }
  | outside (i : ι) (l : Label) (c : Client) : (∀ ok, l ≠ .thread ok) → l ≠ .grant →
      step (s.clients i) l = some c → SystemStep s (.client i l) (s.setClient i c)
  | grant (i j : ι) : s.granting i = some j → SystemStep s (.grant i) {
      clients := Function.update s.clients j { s.clients j with slotEvent := true }
      coordinator := s.coordinator
      granting := Function.update s.granting i none }

theorem System.step_cases {s s' : System ι} {l : SystemLabel ι} (h : System.step s l = some s') :
    SystemStep s l s' := by
  cases l with
  | grant i =>
    obtain ⟨j, hj, rfl⟩ := Option.map_eq_some_iff.mp h
    exact .grant i j hj
  | client i l =>
    cases l with
    | thread ok =>
      simp only [System.step] at h
      split at h
      · cases h
      · rename_i hGranting
        obtain ⟨c, hc, rfl⟩ := Option.map_eq_some_iff.mp h
        exact .thread i ok c (by simpa using hGranting) hc
    | grant => cases h
    | sendFailed =>
      cases h
      exact .outside i .sendFailed _ nofun nofun rfl
    | stop =>
      cases h
      exact .outside i .stop _ nofun nofun rfl
    | poll | pollFailed | found | foundSignal | drop | notified | expire =>
      obtain ⟨c, hc, rfl⟩ := Option.map_eq_some_iff.mp h
      exact .outside i _ c (by nofun) (by nofun) hc

section Steps

variable {s s' : System ι} {i : ι}

/-- A thread that has no grant to call gets the one of its call of the coordinator. -/
theorem granting_step {grant : Option ι} (hGranting : s'.granting = Function.update s.granting i grant)
    (hFree : s.granting i = none) (j k : ι) :
    s'.granting k = some j ↔ s.granting k = some j ∨ (k = i ∧ grant = some j) := by
  rw [hGranting]
  by_cases hk : k = i
  · subst hk
    simp [hFree]
  · simp [hk]

section Others

variable (hOthers : ∀ j, j ≠ i → s'.clients j = s.clients j) {j : ι}

include hOthers

omit [DecidableEq ι]

theorem phase_other (hj : j ≠ i) : s'.phase j = s.phase j := by
  rw [System.phase, hOthers j hj, ← System.phase]

theorem leaving_other (hj : j ≠ i) : s'.leaving j = s.leaving j := by
  rw [System.leaving, hOthers j hj, ← System.leaving]

theorem slotEvent_same (hEvent : (s'.clients i).slotEvent = (s.clients i).slotEvent) (j : ι) :
    (s'.clients j).slotEvent = (s.clients j).slotEvent := by
  by_cases hj : j = i
  · rw [hj, hEvent]
  · rw [hOthers j hj]

/-- Who stays after a step has stayed before, if leaving is for good. -/
theorem leaving_before (hLeaving : s.leaving i → s'.leaving i) (h : s'.leaving j = false) :
    s.leaving j = false := by
  by_cases hj : j = i
  · subst hj
    exact Bool.eq_false_iff.mpr fun hOld => by simp [hLeaving hOld] at h
  · rw [← leaving_other hOthers hj]
    exact h

end Others

variable (hDisciplined : Disciplined s) (hOthers : ∀ j, j ≠ i → s'.clients j = s.clients j)

include hDisciplined hOthers

theorem Disciplined.sound_step (hSound : Sound (s'.clients i)) (j : ι) : Sound (s'.clients j) := by
  by_cases hj : j = i
  · rw [hj]
    exact hSound
  · rw [hOthers j hj]
    exact hDisciplined.sound j

variable (hSound : Sound (s'.clients i))

include hSound

/-- A step that leaves the coordinator and the client's slot event alone. -/
theorem Disciplined.move (hCoordinator : s'.coordinator = s.coordinator)
    (hGranting : s'.granting = s.granting)
    (hEvent : (s'.clients i).slotEvent = (s.clients i).slotEvent)
    (hPhase : s'.phase i = s.phase i ∨ (s'.phase i = .either ∧ s.phase i ≠ .asked))
    (hLeaving : s.leaving i → s'.leaving i) : Disciplined s' := by
  have hSlotEvent := slotEvent_same hOthers hEvent
  have hNotified (j : ι) : s'.Notified j ↔ s.Notified j := by
    rw [System.Notified, hSlotEvent, hGranting, ← System.Notified]
  refine ⟨hDisciplined.sound_step hOthers hSound, ?_, ?_, ?_, ?_⟩
  · rw [hCoordinator]
    refine hDisciplined.orderly.move (fun j => phase_other hOthers)
      (fun j _ => (hNotified j).mpr) ?_
    exact hPhase.elim .inl fun h => .inr (.inl h)
  · intro j h
    rw [hCoordinator]
    have hOld := hDisciplined.notices j ((hNotified j).mp h)
    by_cases hj : j = i
    · subst hj
      rcases hOld with hOld | ⟨hAsked, hHolder⟩
      · exact .inl (hLeaving hOld)
      · rcases hPhase with hPhase | ⟨-, hNot⟩
        · exact .inr ⟨hPhase.trans hAsked, hHolder⟩
        · exact absurd hAsked hNot
    · rw [leaving_other hOthers hj, phase_other hOthers hj]
      exact hOld
  · intro j hStay hSet
    rw [hGranting]
    exact hDisciplined.event j (leaving_before hOthers hLeaving hStay) (hSlotEvent j ▸ hSet)
  · intro j hStay
    rw [hGranting]
    exact hDisciplined.grant j (leaving_before hOthers hLeaving hStay)

/-- A client that waits takes the slot that its event tells of. -/
theorem Disciplined.take (hCoordinator : s'.coordinator = s.coordinator)
    (hGranting : s'.granting = s.granting) (hSet : (s.clients i).slotEvent)
    (hEvent : (s'.clients i).slotEvent = false) (hStay : s.leaving i = false)
    (hPhase : s'.phase i = .holds) : Disciplined s' := by
  obtain ⟨-, hHolder⟩ : s.phase i = .asked ∧ s.coordinator.holder = some i := by
    rcases hDisciplined.notices i (.inl hSet) with h | h
    · cases hStay.symm.trans h
    · exact h
  have hQuiet : ¬s'.Notified i := by
    rintro (h | ⟨j, h⟩)
    · cases hEvent.symm.trans h
    · exact hDisciplined.event i hStay hSet j (hGranting ▸ h)
  have hNotified (j : ι) (hj : j ≠ i) : s'.Notified j ↔ s.Notified j := by
    rw [System.Notified, hOthers j hj, hGranting, ← System.Notified]
  refine ⟨hDisciplined.sound_step hOthers hSound, ?_, ?_, ?_, ?_⟩
  · rw [hCoordinator]
    refine hDisciplined.orderly.move (fun j => phase_other hOthers) ?_
      (.inr (.inr ⟨hPhase, hHolder⟩))
    intro j hAsked h
    refine (hNotified j ?_).mpr h
    rintro rfl
    cases hPhase.symm.trans hAsked
  · intro j h
    have hj : j ≠ i := by
      rintro rfl
      exact hQuiet h
    rw [hCoordinator, leaving_other hOthers hj, phase_other hOthers hj]
    exact hDisciplined.notices j ((hNotified j hj).mp h)
  · intro j hStay' hSet' k
    have hj : j ≠ i := by
      rintro rfl
      exact hQuiet (.inl hSet')
    rw [leaving_other hOthers hj] at hStay'
    rw [hOthers j hj] at hSet'
    rw [hGranting]
    exact hDisciplined.event j hStay' hSet' k
  · intro j hStay' k m hk hm
    have hj : j ≠ i := by
      rintro rfl
      exact hQuiet (.inr ⟨k, hk⟩)
    rw [leaving_other hOthers hj] at hStay'
    rw [hGranting] at hk hm
    exact hDisciplined.grant j hStay' k m hk hm

/-- A client asks for the slot, and its own thread is to call the grant if it gets it at once. -/
theorem Disciplined.request (hCoordinator : s'.coordinator = (s.coordinator.request i).1)
    (hGranting : s'.granting = Function.update s.granting i (s.coordinator.request i).2)
    (hFree : s.granting i = none) (hEvent : (s'.clients i).slotEvent = (s.clients i).slotEvent)
    (hIdle : s.phase i = .idle) (hStay : s.leaving i = false) (hAsked : s'.phase i = .asked) :
    Disciplined s' := by
  have hQuiet : ¬s.Notified i := by
    intro h
    rcases hDisciplined.notices i h with h | ⟨h, -⟩
    · cases hStay.symm.trans h
    · cases hIdle.symm.trans h
  have hGrant := granting_step hGranting hFree
  have hOwn (j k : ι) (h : s'.granting k = some j) : s.granting k = some j ∨ (k = i ∧ j = i) :=
    ((hGrant j k).mp h).imp_right fun h => ⟨h.1, (request_grant h.2).1⟩
  have hNotified (j : ι) (hj : j ≠ i) : s'.Notified j ↔ s.Notified j := by
    rw [System.Notified, System.Notified, hOthers j hj]
    refine or_congr_right (exists_congr fun k => ⟨fun h => ?_, fun h => (hGrant j k).mpr (.inl h)⟩)
    exact (hOwn j k h).resolve_right fun h => hj h.2
  refine ⟨hDisciplined.sound_step hOthers hSound, ?_, ?_, ?_, ?_⟩
  · rw [hCoordinator]
    refine hDisciplined.orderly.request (fun j => phase_other hOthers) ?_ hIdle hAsked ?_
    · intro j _ h
      refine (hNotified j ?_).mpr h
      rintro rfl
      exact hQuiet h
    · intro j h
      exact .inr ⟨i, (hGrant j i).mpr (.inr ⟨rfl, h⟩)⟩
  · intro j h
    rw [hCoordinator]
    by_cases hj : j = i
    · subst hj
      right
      refine ⟨hAsked, ?_⟩
      rcases h with h | ⟨k, h⟩
      · exact absurd (.inl (hEvent ▸ h)) hQuiet
      · rcases (hGrant j k).mp h with h | ⟨-, h⟩
        · exact absurd (.inr ⟨k, h⟩) hQuiet
        · exact (request_grant h).2
    · rw [leaving_other hOthers hj, phase_other hOthers hj]
      exact (hDisciplined.notices j ((hNotified j hj).mp h)).imp_right
        (And.imp_right request_holder)
  · intro j hStay' hSet k h
    by_cases hj : j = i
    · subst hj
      exact hQuiet (.inl (hEvent ▸ hSet))
    · rw [leaving_other hOthers hj] at hStay'
      rw [hOthers j hj] at hSet
      exact hDisciplined.event j hStay' hSet k ((hOwn j k h).resolve_right fun h => hj h.2)
  · intro j hStay' k m hk hm
    by_cases hj : j = i
    · subst hj
      have hSelf (k : ι) (h : s'.granting k = some j) : k = j :=
        ((hOwn j k h).resolve_left fun h => hQuiet (.inr ⟨k, h⟩)).1
      rw [hSelf k hk, hSelf m hm]
    · rw [leaving_other hOthers hj] at hStay'
      exact hDisciplined.grant j hStay' k m ((hOwn j k hk).resolve_right fun h => hj h.2)
        ((hOwn j m hm).resolve_right fun h => hj h.2)

/-- A client releases the slot, and its thread is to call the grant of the next one. -/
theorem Disciplined.release (hCoordinator : s'.coordinator = (s.coordinator.release i).1)
    (hGranting : s'.granting = Function.update s.granting i (s.coordinator.release i).2)
    (hFree : s.granting i = none) (hEvent : (s'.clients i).slotEvent = (s.clients i).slotEvent)
    (hIdle : s'.phase i = .idle) (hLeaving : s.leaving i ∨ s.phase i = .asked → s'.leaving i) :
    Disciplined s' := by
  have hGrant := granting_step hGranting hFree
  -- The next one has asked for the slot, and has not heard of it.
  have hNext (j : ι) (h : (s.coordinator.release i).2 = some j) :
      j ≠ i ∧ s.phase j = .asked ∧ (s.leaving j = false → ¬s.Notified j) := by
    obtain ⟨hHolder, hMem, -⟩ := release_grant h
    obtain ⟨hAsked, hNot⟩ := (hDisciplined.orderly.queued j).mp hMem
    refine ⟨fun hj => hNot (hj ▸ hHolder), hAsked, ?_⟩
    intro hStay hNotified
    rcases hDisciplined.notices j hNotified with h | ⟨-, h⟩
    · cases hStay.symm.trans h
    · exact hNot h
  have hSlotEvent := slotEvent_same hOthers hEvent
  have hStays (j : ι) (h : s'.leaving j = false) : s.leaving j = false :=
    leaving_before hOthers (fun hOld => hLeaving (.inl hOld)) h
  refine ⟨hDisciplined.sound_step hOthers hSound, ?_, ?_, ?_, ?_⟩
  · rw [hCoordinator]
    refine hDisciplined.orderly.release (fun j => phase_other hOthers) ?_ hIdle ?_
    · rintro j - (h | ⟨k, h⟩)
      · exact .inl ((hSlotEvent j).trans h)
      · exact .inr ⟨k, (hGrant j k).mpr (.inl h)⟩
    · intro j h
      exact .inr ⟨i, (hGrant j i).mpr (.inr ⟨rfl, h⟩)⟩
  · intro j h
    have hSplit : s.Notified j ∨ (s.coordinator.release i).2 = some j := by
      rcases h with h | ⟨k, h⟩
      · exact .inl (.inl ((hSlotEvent j).symm.trans h))
      · rcases (hGrant j k).mp h with h | ⟨-, h⟩
        · exact .inl (.inr ⟨k, h⟩)
        · exact .inr h
    rw [hCoordinator]
    rcases hSplit with hOld | hNew
    · by_cases hj : j = i
      · subst hj
        exact .inl (hLeaving ((hDisciplined.notices j hOld).imp_right And.left))
      · rw [leaving_other hOthers hj, phase_other hOthers hj]
        exact (hDisciplined.notices j hOld).imp_right
          (And.imp_right fun hHolder => release_holder hHolder hj)
    · obtain ⟨hj, hAsked, -⟩ := hNext j hNew
      rw [phase_other hOthers hj]
      exact .inr ⟨hAsked, (release_grant hNew).2.2⟩
  · intro j hStay hSet k h
    have hStay' := hStays j hStay
    rw [hSlotEvent] at hSet
    rcases (hGrant j k).mp h with h | ⟨-, h⟩
    · exact hDisciplined.event j hStay' hSet k h
    · exact (hNext j h).2.2 hStay' (.inl hSet)
  · intro j hStay k m hk hm
    have hStay' := hStays j hStay
    rcases (hGrant j k).mp hk with hk | ⟨hki, hk⟩
    · rcases (hGrant j m).mp hm with hm | ⟨-, hm⟩
      · exact hDisciplined.grant j hStay' k m hk hm
      · exact absurd (.inr ⟨k, hk⟩) ((hNext j hm).2.2 hStay')
    · rcases (hGrant j m).mp hm with hm | ⟨hmi, -⟩
      · exact absurd (.inr ⟨m, hm⟩) ((hNext j hk).2.2 hStay')
      · rw [hki, hmi]

end Steps

/-- A thread calls the grant that it has got for a client. -/
theorem Disciplined.deliver {s s' : System ι} (hDisciplined : Disciplined s) {i j : ι}
    (hGrant : s.granting i = some j)
    (hClients : s'.clients = Function.update s.clients j { s.clients j with slotEvent := true })
    (hCoordinator : s'.coordinator = s.coordinator)
    (hGranting : s'.granting = Function.update s.granting i none) : Disciplined s' := by
  have hClient (k : ι) : s'.clients k =
      { s.clients k with slotEvent := (s.clients k).slotEvent || k = j } := by
    rw [hClients]
    by_cases hk : k = j
    · subst hk
      simp
    · simp [hk]
  have hFlight (k m : ι) : s'.granting m = some k ↔ m ≠ i ∧ s.granting m = some k := by
    rw [hGranting]
    by_cases hm : m = i
    · subst hm
      simp
    · simp [hm]
  have hNotified (k : ι) : s'.Notified k ↔ s.Notified k := by
    simp only [System.Notified, hClient, hFlight, Bool.or_eq_true, decide_eq_true_eq]
    constructor
    · rintro ((h | rfl) | ⟨m, -, h⟩)
      · exact .inl h
      · exact .inr ⟨i, hGrant⟩
      · exact .inr ⟨m, h⟩
    · rintro (h | ⟨m, h⟩)
      · exact .inl (.inl h)
      · by_cases hm : m = i
        · rw [hm, hGrant] at h
          exact .inl (.inr (Option.some.inj h).symm)
        · exact .inr ⟨m, hm, h⟩
  have hPhase (k : ι) : s'.phase k = s.phase k := by
    simp only [System.phase, hClient]
  have hLeaving (k : ι) : s'.leaving k = s.leaving k := by
    simp only [System.leaving, hClient]
  refine ⟨?_, ?_, ?_, ?_, ?_⟩
  · intro k
    obtain ⟨hPoints, hResting, hNodup, hBatch⟩ := hDisciplined.sound k
    rw [hClient]
    exact ⟨hPoints, hResting, hNodup, fun h => by simp [hBatch h]⟩
  · rw [hCoordinator]
    exact hDisciplined.orderly.move (fun k _ => hPhase k) (fun k _ => (hNotified k).mpr)
      (.inl (hPhase i))
  · intro k h
    rw [hCoordinator, hLeaving, hPhase]
    exact hDisciplined.notices k ((hNotified k).mp h)
  · intro k hStay hSet m h
    rw [hLeaving] at hStay
    simp only [hClient, Bool.or_eq_true, decide_eq_true_eq] at hSet
    obtain ⟨hm, h⟩ := (hFlight k m).mp h
    rcases hSet with hSet | rfl
    · exact hDisciplined.event k hStay hSet m h
    · exact hm (hDisciplined.grant k hStay m i h hGrant)
  · intro k hStay m n hm hn
    rw [hLeaving] at hStay
    exact hDisciplined.grant k hStay m n ((hFlight k m).mp hm).2 ((hFlight k n).mp hn).2

section Thread

variable {s s' : System ι} (hDisciplined : Disciplined s) {i : ι} {ok : Bool}
  (hFree : s.granting i = none) (hNext : next (s.clients i) ok = some (s'.clients i))
  (hOthers : ∀ j, j ≠ i → s'.clients j = s.clients j)
  (hCoordinator : s'.coordinator = (s.coordinatorCall i).1)
  (hGranting : s'.granting = Function.update s.granting i (s.coordinatorCall i).2)

include hFree hCoordinator hGranting in
/-- A statement that is no call of the coordinator's leaves it alone. -/
theorem coordinator_alone (hCall : s.coordinatorCall i = (s.coordinator, none)) :
    s'.coordinator = s.coordinator ∧ s'.granting = s.granting := by
  rw [hCoordinator, hGranting, hCall, ← hFree, Function.update_eq_self]
  exact ⟨rfl, rfl⟩

include hDisciplined hFree hNext hOthers hCoordinator hGranting

/-- The thread is between two handlers. -/
theorem Disciplined.dispatch (hCode : (s.clients i).code = []) : Disciplined s' := by
  have hOld := hDisciplined.sound i
  have hSound := hOld.next hNext
  have hCall : s.coordinatorCall i = (s.coordinator, none) := by
    simp only [System.coordinatorCall, hCode]
  obtain ⟨hSameCoordinator, hSameGranting⟩ := coordinator_alone hFree hCoordinator hGranting hCall
  cases next_dispatch hCode hNext with
  | exit hStop hClient =>
    refine hDisciplined.move hOthers hSound hSameCoordinator hSameGranting ?_ (.inl ?_) ?_
    · rw [hClient]
    · simp only [System.phase, hClient]
    · simp only [System.leaving, hClient, imp_self]
  | handle fd batch hRun hBatch hClient =>
    have hStay : s.leaving i = false := by
      rw [System.leaving, hCode]
      exact leavingAt_nil hRun
    by_cases hSlot : (s.clients i).state = .waitSlot ∧ fd = .slot
    · obtain ⟨hState, rfl⟩ := hSlot
      refine hDisciplined.take hOthers hSound hSameCoordinator hSameGranting ?_ ?_ hStay ?_
      · exact hOld.batch (hBatch ▸ List.mem_cons_self ..)
      · rw [hClient]
        rfl
      · simp only [System.phase, hClient, consume_state, hState]
        rfl
    · by_cases hfd : fd = .slot
      · subst hfd
        -- The event would have found the client in `WaitSlot`.
        have hSet := hOld.batch (hBatch ▸ List.mem_cons_self ..)
        rcases hDisciplined.notices i (.inl hSet) with h | ⟨h, -⟩
        · cases hStay.symm.trans h
        · rw [System.phase, hCode] at h
          cases hState : (s.clients i).state with
          | waitSlot => exact absurd ⟨hState, rfl⟩ hSlot
          | _ =>
            rw [hState] at h
            cases h
      · refine hDisciplined.move hOthers hSound hSameCoordinator hSameGranting ?_ (.inl ?_) ?_
        · rw [hClient]
          exact consume_slotEvent _ hfd
        · simp only [System.phase, hClient, consume_state, hCode]
          exact phaseAt_handler _ _ _ hSlot
        · intro h
          cases hStay.symm.trans h

/-- The thread is inside a handler. -/
theorem Disciplined.exec {op : Op} {rest : List Op} (hCode : (s.clients i).code = op :: rest) :
    Disciplined s' := by
  have hOld := hDisciplined.sound i
  have hSound := hOld.next hNext
  have hSuccessor := next_successors hNext
  have hEvent : (s'.clients i).slotEvent = (s.clients i).slotEvent := by
    rw [next_exec hCode hNext]
    exact (effect_slotEvent _ ok op).1
  have hLeaving : s.leaving i → s'.leaving i :=
    successors_leaving _ _ hOld.points _ hSuccessor (by rw [hCode]; nofun)
  have hHead : (s.clients i).code.head? = some op := by
    rw [hCode]
    rfl
  by_cases hRequest : op = .requestSlot
  · subst hRequest
    have hCall : s.coordinatorCall i = s.coordinator.request i := by
      simp only [System.coordinatorCall, hCode]
    rw [hCall] at hCoordinator hGranting
    obtain ⟨hIdle, hStay, hAsked⟩ := successors_request _ _ hOld.points _ hSuccessor hHead
    exact hDisciplined.request hOthers hSound hCoordinator hGranting hFree hEvent hIdle hStay hAsked
  by_cases hRelease : op = .releaseSlot
  · subst hRelease
    have hCall : s.coordinatorCall i = s.coordinator.release i := by
      simp only [System.coordinatorCall, hCode]
    rw [hCall] at hCoordinator hGranting
    obtain ⟨hIdle, hAway⟩ := successors_release _ _ hOld.points _ hSuccessor hHead
    exact hDisciplined.release hOthers hSound hCoordinator hGranting hFree hEvent hIdle
      (fun h => h.elim hLeaving hAway)
  have hCall : s.coordinatorCall i = (s.coordinator, none) := by
    rw [System.coordinatorCall, hCode]
    split
    · rename_i h
      exact absurd (List.cons.inj h).1 hRequest
    · rename_i h
      exact absurd (List.cons.inj h).1 hRelease
    · rfl
  obtain ⟨hSameCoordinator, hSameGranting⟩ := coordinator_alone hFree hCoordinator hGranting hCall
  refine hDisciplined.move hOthers hSound hSameCoordinator hSameGranting hEvent ?_ hLeaving
  refine successors_move _ _ hOld.points _ hSuccessor ?_ ?_ ?_
  · rw [hCode]
    nofun
  · rw [hHead]
    exact fun h => hRequest (Option.some.inj h)
  · rw [hHead]
    exact fun h => hRelease (Option.some.inj h)

theorem Disciplined.thread : Disciplined s' := by
  cases hCode : (s.clients i).code with
  | nil => exact hDisciplined.dispatch hFree hNext hOthers hCoordinator hGranting hCode
  | cons op rest => exact hDisciplined.exec hFree hNext hOthers hCoordinator hGranting hCode

end Thread

theorem Disciplined.step {s s' : System ι} {l : SystemLabel ι} (hDisciplined : Disciplined s)
    (h : System.step s l = some s') : Disciplined s' := by
  cases System.step_cases h with
  | thread i ok c hFree hNext =>
    have hClient : next (s.clients i) ok = some (Function.update s.clients i c i) := by
      rw [Function.update_self]
      exact hNext
    exact hDisciplined.thread hFree hClient (fun j hj => Function.update_of_ne hj ..) rfl rfl
  | outside i l c hThread hGrant hStep =>
    have hClient : (s.setClient i c).clients i = c := Function.update_self ..
    obtain ⟨hState, hCode, hEvent, -⟩ := step_outside hThread hGrant hStep
    refine hDisciplined.move (i := i) (fun j hj => Function.update_of_ne hj ..) ?_ rfl rfl ?_
      (.inl ?_) ?_
    · rw [hClient]
      exact (hDisciplined.sound i).outside hThread hGrant hStep
    · rw [hClient, hEvent]
    · rw [System.phase, hClient, hState, hCode, ← System.phase]
    · rw [System.leaving, System.leaving, hClient, hState, hCode]
      exact id
  | grant i j hGrant => exact hDisciplined.deliver hGrant rfl rfl rfl

theorem disciplined_of_run {s : System ι} {labels : List (SystemLabel ι)}
    (hRun : Runs.run System.step {} labels = some s) : Disciplined s :=
  Runs.invariant (fun _ _ _ h hStep => h.step hStep) Disciplined.initial hRun

/-- The thread is not inside a handler; it may not even have started. -/
def Client.AtRest (c : Client) : Prop :=
  c.code = [] ∨ (c.state = .waitAdapter ∧ c.code = [.enter .waitAdapter])
  deriving Decidable

theorem Client.AtRest.phase {c : Client} (h : c.AtRest) : phaseAt c.state c.code =
    match c.state with
    | .scan | .connect => .holds
    | .waitSlot => .asked
    | _ => .idle := by
  rcases h with h | ⟨hState, hCode⟩
  · rw [h]
    cases c.state <;> rfl
  · rw [hState, hCode]
    rfl

/-- While no client is inside a handler, the holder scans or is to hear that it may; whoever waits is
the holder or queued once, nobody else is queued, and nobody waits for a free slot. -/
theorem slot_discipline {s : System ι} {labels : List (SystemLabel ι)}
    (hRun : Runs.run System.step {} labels = some s) (hRest : ∀ i, (s.clients i).AtRest) :
    (∀ i, s.coordinator.holder = some i → (s.clients i).state = .scan ∨
      ((s.clients i).state = .waitSlot ∧ s.Notified i)) ∧
    (∀ i, (s.clients i).state = .waitSlot →
      (s.coordinator.holder = some i ∧ s.coordinator.waiters.count i = 0) ∨
      (s.coordinator.holder ≠ some i ∧ s.coordinator.waiters.count i = 1)) ∧
    (∀ i, i ∈ s.coordinator.waiters → (s.clients i).state = .waitSlot) ∧
    (s.coordinator.holder = none → ∀ i, (s.clients i).state ≠ .waitSlot) ∧
    (∀ i, (s.clients i).state = .scan ∨ (s.clients i).state = .connect →
      s.coordinator.holder = some i) ∧
    ∀ i j, (s.clients i).state = .scan ∨ (s.clients i).state = .connect →
      (s.clients j).state = .scan ∨ (s.clients j).state = .connect → i = j := by
  have hDisciplined := disciplined_of_run hRun
  have hOrderly := hDisciplined.orderly
  have hPhase (i : ι) : s.phase i = _ := (hRest i).phase
  have hScans (i : ι) (h : (s.clients i).state = .scan ∨ (s.clients i).state = .connect) :
      s.coordinator.holder = some i := by
    refine hOrderly.holds i ?_
    rw [hPhase]
    rcases h with h | h <;> rw [h]
  have hQueued (i : ι) : i ∈ s.coordinator.waiters ↔
      (s.clients i).state = .waitSlot ∧ s.coordinator.holder ≠ some i := by
    rw [hOrderly.queued, hPhase]
    cases (s.clients i).state <;> simp
  refine ⟨?_, ?_, fun i h => ((hQueued i).mp h).1, ?_, hScans, ?_⟩
  · intro i hHolder
    have hConnect : (s.clients i).state ≠ .connect := by
      intro h
      refine (hDisciplined.sound i).resting ⟨h, ?_⟩
      rcases hRest i with hCode | ⟨hState, -⟩
      · exact hCode
      · cases hState.symm.trans h
    have hHeld := hOrderly.held i hHolder
    rw [hPhase] at hHeld
    cases hState : (s.clients i).state with
    | scan => exact .inl rfl
    | waitSlot => simp_all
    | connect => exact absurd hState hConnect
    | _ => simp [hState] at hHeld
  · intro i hWaits
    by_cases hHolder : s.coordinator.holder = some i
    · refine .inl ⟨hHolder, List.count_eq_zero.mpr ?_⟩
      exact fun h => ((hQueued i).mp h).2 hHolder
    · exact .inr ⟨hHolder, List.count_eq_one_of_mem hOrderly.nodup ((hQueued i).mpr ⟨hWaits, hHolder⟩)⟩
  · intro hFree i hWaits
    have hMem := (hQueued i).mpr ⟨hWaits, by rw [hFree]; nofun⟩
    rw [hOrderly.free hFree] at hMem
    cases hMem
  · intro i j hi hj
    exact Option.some.inj ((hScans i hi).symm.trans (hScans j hj))

/-- A client's thread, from its start to its request. -/
def startUp (i : ι) : List (SystemLabel ι) := List.replicate 4 (.client i (.thread true))

theorem slot_discipline_two : ∃ s : System Bool,
    Runs.run System.step {} (startUp false ++ startUp true) = some s ∧
      s.coordinator = { holder := some false, waiters := [true] } ∧
      s.coordinator.waiters.count true = 1 := by
  refine ⟨_, rfl, rfl, ?_⟩
  have hRun : Runs.run System.step ({} : System Bool) (startUp false ++ startUp true) = some _ := rfl
  rcases (slot_discipline hRun (by decide)).2.1 true (by decide) with ⟨hHolder, -⟩ | ⟨-, hCount⟩
  · cases hHolder
  · exact hCount

end BleClient

end BmsBridge
