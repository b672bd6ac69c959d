import BmsBridge.Uart.Proof.Events

/-! How the dispatcher's loop ends: a request to stop, by a signal or by a call of `stop` on any thread
at any moment, is not lost, and the loop ends on request only. -/

namespace BmsBridge

namespace Process

variable {ι : Type} [DecidableEq ι] {p p' : Process ι} {i : ι}

/-- What only requests to stop and the dispatcher's own descriptors change. -/
structure SameControl (p p' : Process ι) : Prop where
  stopping : p'.dispatcher.stopping = p.dispatcher.stopping
  wakeEvent : p'.dispatcher.wakeEvent = p.dispatcher.wakeEvent
  signals : p'.signals = p.signals
  stoppers : p'.stoppers = p.stoppers
  loop : p'.loop = p.loop

omit [DecidableEq ι] in
theorem SameControl.refl (p : Process ι) : SameControl p p := ⟨rfl, rfl, rfl, rfl, rfl⟩

theorem sameControl_tryOpen (opened : Option Nat) : SameControl p (p.tryOpen i opened) := by
  cases opened <;> exact ⟨rfl, rfl, rfl, rfl, rfl⟩

theorem sameControl_closeFd : SameControl p (p.closeFd i) := by
  rw [closeFd]
  cases (p.lines i).fd with
  | none => exact .refl p
  | some fd => cases (p.lines i).attached <;> exact ⟨rfl, rfl, rfl, rfl, rfl⟩

theorem sameControl_call (answers : Answers) (handler : Handler ι) :
    SameControl p (p.call answers handler) := by
  cases handler with
  | other k => exact .refl p
  | reopenTick i =>
    rw [call, onReopenTick]
    split
    · exact ⟨rfl, rfl, rfl, rfl, rfl⟩
    · obtain ⟨hStopping, hWake, hSignals, hStoppers, hLoop⟩ := sameControl_tryOpen
        (p := p.onLine i fun line => { line with reopenTimer := line.reopenTimer.consume }) (i := i)
        answers.opened
      exact ⟨hStopping, hWake, hSignals, hStoppers, hLoop⟩
  | readable i =>
    rw [call, onReadable]
    split
    · exact ⟨rfl, rfl, rfl, rfl, rfl⟩
    · obtain ⟨hStopping, hWake, hSignals, hStoppers, hLoop⟩ := sameControl_closeFd
        (p := p.onLine i fun line => line.tell (answers.reads.chunks.map .bytes)) (i := i)
      exact ⟨hStopping, hWake, hSignals, hStoppers, hLoop⟩

/-- The event of the signal descriptor takes all signals; the others leave them. -/
theorem handle_asked (answers : Answers) (fd : Nat) :
    (p.handle answers fd).stoppers = p.stoppers ∧
      (((p.handle answers fd).signals = 0 ∧ (p.handle answers fd).dispatcher.stopping =
        (p.dispatcher.stopping || decide (0 < p.signals))) ∨
      ((p.handle answers fd).signals = p.signals ∧
        (p.handle answers fd).dispatcher.stopping = p.dispatcher.stopping)) := by
  rw [handle]
  split
  · exact ⟨rfl, .inl ⟨rfl, rfl⟩⟩
  split
  · exact ⟨rfl, .inr ⟨rfl, rfl⟩⟩
  cases p.dispatcher.handlers fd with
  | none => exact ⟨rfl, .inr ⟨rfl, rfl⟩⟩
  | some handler =>
    have hSame := sameControl_call (p := p) answers handler
    exact ⟨hSame.stoppers, .inr ⟨hSame.signals, hSame.stopping⟩⟩

/-- What a step does to the requests. -/
inductive Asks (p : Process ι) : Label ι → Process ι → Prop where
  | store (p' : Process ι) : p'.dispatcher.stopping = true → p'.signals = p.signals → Asks p .stopStore p'
  | signal (p' : Process ι) : p'.dispatcher.stopping = p.dispatcher.stopping →
    p'.signals = p.signals + 1 → Asks p .signal p'
  | read (answers : Answers) (p' : Process ι) : p'.signals = 0 →
    p'.dispatcher.stopping = (p.dispatcher.stopping || decide (0 < p.signals)) → Asks p (.handle answers) p'
  | other (l : Label ι) (p' : Process ι) : l ≠ .stopStore → l ≠ .signal →
    p'.dispatcher.stopping = p.dispatcher.stopping → p'.signals = p.signals → Asks p l p'

theorem asks_of_step {l : Label ι} (hStep : p.step l = some p') : Asks p l p' := by
  cases l with
  | stopStore =>
    obtain rfl := Option.some.inj hStep
    exact .store _ rfl rfl
  | signal =>
    obtain rfl := Option.some.inj hStep
    exact .signal _ rfl rfl
  | handle answers =>
    simp only [step] at hStep
    split at hStep
    · rename_i fd device events hHandling
      obtain ⟨-, ⟨⟩⟩ := Option.ite_none_right_eq_some.mp hStep
      rcases (handle_asked (p := p) answers fd).2 with ⟨hSignals, hStopping⟩ | ⟨hSignals, hStopping⟩
      · exact .read answers _ hSignals hStopping
      · exact .other _ _ (by simp) (by simp) hStopping hSignals
    · cases hStep
  | start i opened =>
    obtain ⟨-, ⟨⟩⟩ := Option.ite_none_right_eq_some.mp hStep
    have hSame := sameControl_tryOpen (i := i) opened
      (p := (p.onLine i fun line => { line with attached := true }).watch
        ((p.onLine i fun line => { line with attached := true }).lines i).timerFd (.reopenTick i))
    exact .other _ _ (by simp) (by simp) hSame.stopping hSame.signals
  | stop i =>
    obtain ⟨-, ⟨⟩⟩ := Option.ite_none_right_eq_some.mp hStep
    have hSame := sameControl_closeFd (i := i)
      (p := if (p.lines i).attached then p.unwatch (p.lines i).timerFd else p)
    refine .other _ _ (by simp) (by simp) (hSame.stopping.trans ?_) (hSame.signals.trans ?_) <;> split <;> rfl
  | _ =>
    obtain ⟨-, ⟨⟩⟩ := Option.ite_none_right_eq_some.mp hStep
    exact .other _ _ (by simp) (by simp) rfl rfl

omit [DecidableEq ι] in
/-- A request is there from the step that makes it, until the loop ends. -/
theorem Asks.requested {l : Label ι} (h : Asks p l p') :
    (p'.dispatcher.stopping ∨ 0 < p'.signals) ↔
      (p.dispatcher.stopping ∨ 0 < p.signals) ∨ l = .stopStore ∨ l = .signal := by
  cases h with
  | store _ hStopping hSignals => simp [hStopping]
  | signal _ hStopping hSignals => simp [hSignals]
  | read answers _ hSignals hStopping => simp [hSignals, hStopping]
  | other _ _ hStore hSignal hStopping hSignals => simp [hStore, hSignal, hStopping, hSignals]

omit [DecidableEq ι] in
theorem Asks.stopping {l : Label ι} (h : Asks p l p') :
    p.dispatcher.stopping ∨ l = .stopStore → p'.dispatcher.stopping := by
  cases h with
  | store _ hStopping hSignals => exact fun _ => hStopping
  | signal _ hStopping hSignals => simp [hStopping]
  | read answers _ hSignals hStopping =>
    intro h
    rw [hStopping, h.resolve_right nofun, Bool.true_or]
  | other _ _ hStore hSignal hStopping hSignals => simp [hStore, hStopping]

theorem requested_of_run {labels : List (Label ι)} (hRun : Runs.run step p labels = some p') :
    ((p'.dispatcher.stopping ∨ 0 < p'.signals) ↔ (p.dispatcher.stopping ∨ 0 < p.signals) ∨
      .stopStore ∈ labels ∨ .signal ∈ labels) ∧
    (p.dispatcher.stopping ∨ .stopStore ∈ labels → p'.dispatcher.stopping) := by
  induction labels generalizing p with
  | nil =>
    obtain rfl := Option.some.inj hRun
    simp
  | cons l labels ih =>
    obtain ⟨mid, hMid, hRun⟩ := Option.bind_eq_some_iff.mp hRun
    have hAsks := asks_of_step hMid
    obtain ⟨hRequested, hStopping⟩ := ih hRun
    refine ⟨?_, fun h => hStopping ?_⟩
    · rw [hRequested, hAsks.requested, List.mem_cons, List.mem_cons, eq_comm (a := l), eq_comm (a := l)]
      simp only [or_assoc, or_left_comm]
    · rw [List.mem_cons] at h
      rcases h with h | h | h
      · exact .inl (hAsks.stopping (.inl h))
      · exact .inl (hAsks.stopping (.inr h.symm))
      · exact .inr h

/-! ### The loop's sleep -/

/-- A loop that sleeps although it has been told to stop will be woken: the wake event is readable, or
some thread is about to signal it. -/
def Woken (p : Process ι) : Prop :=
  p.loop = .waiting → p.dispatcher.stopping → 0 < p.stoppers ∨ p.dispatcher.wakeEvent.readable

theorem Woken.step {l : Label ι} (h : p.Woken) (hStep : p.step l = some p') : p'.Woken := by
  intro hWaiting hStopping
  cases l with
  | stopStore =>
    obtain rfl := Option.some.inj hStep
    exact .inl (Nat.succ_pos _)
  | stopWake =>
    obtain ⟨-, ⟨⟩⟩ := Option.ite_none_right_eq_some.mp hStep
    right
    simp only [EventFd.write, EventFd.readable]
    split
    · simp
    · rename_i hFull
      rw [kEventFdMax] at hFull
      simp only [decide_eq_true_eq]
      omega
  | test =>
    obtain ⟨-, ⟨⟩⟩ := Option.ite_none_right_eq_some.mp hStep
    have hStopping : p.dispatcher.stopping = true := hStopping
    have hReturned : (if p.dispatcher.stopping then Loop.returned else .waiting) = (.waiting : Loop ι) :=
      hWaiting
    rw [if_pos hStopping] at hReturned
    cases hReturned
  | start i opened =>
    obtain ⟨⟨hBefore, -, -⟩, ⟨⟩⟩ := Option.ite_none_right_eq_some.mp hStep
    have hSame := sameControl_tryOpen (i := i) opened
      (p := (p.onLine i fun line => { line with attached := true }).watch
        ((p.onLine i fun line => { line with attached := true }).lines i).timerFd (.reopenTick i))
    have hLoop : p.loop = .waiting := hSame.loop.symm.trans hWaiting
    rw [hBefore] at hLoop
    cases hLoop
  | watchOther fd k =>
    obtain ⟨⟨hBefore, -⟩, ⟨⟩⟩ := Option.ite_none_right_eq_some.mp hStep
    have hLoop : p.loop = .waiting := hWaiting
    rw [hBefore] at hLoop
    cases hLoop
  | handle answers =>
    simp only [Process.step] at hStep
    split at hStep
    · obtain ⟨-, ⟨⟩⟩ := Option.ite_none_right_eq_some.mp hStep
      cases hWaiting
    · cases hStep
  | stop i =>
    obtain ⟨hReturned, ⟨⟩⟩ := Option.ite_none_right_eq_some.mp hStep
    have hLoop : p.loop = .waiting := by
      refine Eq.trans ?_ hWaiting
      refine Eq.symm (closeFd_loop.trans ?_)
      split <;> rfl
    rw [hReturned] at hLoop
    cases hLoop
  | signal =>
    obtain rfl := Option.some.inj hStep
    exact h hWaiting hStopping
  | foreignOpen fd | foreignClose fd | expire i =>
    obtain ⟨-, ⟨⟩⟩ := Option.ite_none_right_eq_some.mp hStep
    exact h hWaiting hStopping
  | run | interrupted | wait fds | done =>
    obtain ⟨-, ⟨⟩⟩ := Option.ite_none_right_eq_some.mp hStep
    cases hWaiting

/-! ### The end -/

/-- How many handlers the loop can still call before it looks at its condition. -/
def eventsLeft (p : Process ι) : Nat :=
  match p.loop with
  | .waiting => kMaxEvents
  | .handling events => events.length
  | _ => 0

def Label.isHandle : Label ι → Bool
  | .handle _ => true
  | _ => false

/-- The loop has returned only when told to stop, and its batches are those of `epoll_wait`. -/
structure Ends (p : Process ι) : Prop where
  returned : p.loop = .returned → p.dispatcher.stopping
  batch : ∀ events, p.loop = .handling events → events.length ≤ kMaxEvents

omit [DecidableEq ι] in
theorem reported_length (fds : List Nat) : (p.reported fds).length ≤ fds.length :=
  List.length_filterMap_le ..

/-- What a step does to the loop. -/
inductive Advances (p : Process ι) : Label ι → Process ι → Prop where
  | beside (l : Label ι) (p' : Process ι) : l.isHandle = false → p'.loop = p.loop → Advances p l p'
  | run (p' : Process ι) : p.loop = .before → p'.loop = .testing → Advances p .run p'
  | test (p' : Process ι) : p.loop = .testing →
    p'.loop = (if p.dispatcher.stopping then .returned else .waiting) → Advances p .test p'
  | interrupted (p' : Process ι) : p.loop = .waiting → p'.loop = .testing → Advances p .interrupted p'
  | wait (fds : List Nat) (p' : Process ι) : p.loop = .waiting → fds.length ≤ kMaxEvents →
    p'.loop = .handling (p.reported fds) → Advances p (.wait fds) p'
  | handle (answers : Answers) (e : Nat × Device ι) (events : List (Nat × Device ι)) (p' : Process ι) :
    p.loop = .handling (e :: events) → p'.loop = .handling events → Advances p (.handle answers) p'
  | done (p' : Process ι) : p.loop = .handling [] → p'.loop = .testing → Advances p .done p'

theorem advances_of_step {l : Label ι} (hStep : p.step l = some p') : Advances p l p' := by
  cases l with
  | run =>
    obtain ⟨hBefore, ⟨⟩⟩ := Option.ite_none_right_eq_some.mp hStep
    exact .run _ hBefore rfl
  | test =>
    obtain ⟨hTesting, ⟨⟩⟩ := Option.ite_none_right_eq_some.mp hStep
    exact .test _ hTesting rfl
  | interrupted =>
    obtain ⟨hWaiting, ⟨⟩⟩ := Option.ite_none_right_eq_some.mp hStep
    exact .interrupted _ hWaiting rfl
  | wait fds =>
    obtain ⟨⟨hWaiting, -, -, hLength, -⟩, ⟨⟩⟩ := Option.ite_none_right_eq_some.mp hStep
    exact .wait fds _ hWaiting hLength rfl
  | handle answers =>
    simp only [step] at hStep
    split at hStep
    · rename_i fd device events hHandling
      obtain ⟨-, ⟨⟩⟩ := Option.ite_none_right_eq_some.mp hStep
      exact .handle answers (fd, device) events _ hHandling rfl
    · cases hStep
  | done =>
    obtain ⟨hHandling, ⟨⟩⟩ := Option.ite_none_right_eq_some.mp hStep
    exact .done _ hHandling rfl
  | start i opened =>
    obtain ⟨-, ⟨⟩⟩ := Option.ite_none_right_eq_some.mp hStep
    have hSame := sameControl_tryOpen (i := i) opened
      (p := (p.onLine i fun line => { line with attached := true }).watch
        ((p.onLine i fun line => { line with attached := true }).lines i).timerFd (.reopenTick i))
    exact .beside _ _ rfl hSame.loop
  | stop i =>
    obtain ⟨-, ⟨⟩⟩ := Option.ite_none_right_eq_some.mp hStep
    refine .beside _ _ rfl (closeFd_loop.trans ?_)
    split <;> rfl
  | signal | stopStore =>
    obtain rfl := Option.some.inj hStep
    exact .beside _ _ rfl rfl
  | _ =>
    obtain ⟨-, ⟨⟩⟩ := Option.ite_none_right_eq_some.mp hStep
    exact .beside _ _ rfl rfl

theorem Ends.step {l : Label ι} (h : p.Ends) (hStep : p.step l = some p') : p'.Ends := by
  have hAsks := asks_of_step hStep
  cases advances_of_step hStep with
  | beside _ _ _ hLoop =>
    refine ⟨fun hReturned => ?_, fun events hHandling => ?_⟩
    · exact hAsks.stopping (.inl (h.returned (hLoop.symm.trans hReturned)))
    · exact h.batch events (hLoop.symm.trans hHandling)
  | test _ hTesting hLoop =>
    refine ⟨fun hReturned => ?_, fun events hHandling => ?_⟩
    · rw [hLoop] at hReturned
      split at hReturned
      · exact hAsks.stopping (.inl ‹_›)
      · cases hReturned
    · rw [hLoop] at hHandling
      split at hHandling <;> cases hHandling
  | wait fds _ _ hLength hLoop =>
    refine ⟨fun hReturned => ?_, fun events hHandling => ?_⟩
    · cases hLoop.symm.trans hReturned
    · cases hLoop.symm.trans hHandling
      exact Nat.le_trans (reported_length fds) hLength
  | handle answers e rest _ hBatch hLoop =>
    refine ⟨fun hReturned => ?_, fun events hHandling => ?_⟩
    · cases hLoop.symm.trans hReturned
    · cases hLoop.symm.trans hHandling
      exact Nat.le_of_succ_le (h.batch _ hBatch)
  | run _ _ hLoop | interrupted _ _ hLoop | done _ _ hLoop =>
    refine ⟨fun hReturned => ?_, fun events hHandling => ?_⟩
    · cases hLoop.symm.trans hReturned
    · cases hLoop.symm.trans hHandling

omit [DecidableEq ι] in
/-- Once told to stop, the loop takes no further batch. -/
theorem Advances.eventsLeft {l : Label ι} (h : Advances p l p') (hStopping : p.dispatcher.stopping) :
    l.isHandle.toNat + p'.eventsLeft ≤ p.eventsLeft := by
  cases h with
  | beside _ _ hNot hLoop => simp [Process.eventsLeft, hNot, hLoop]
  | test _ hTesting hLoop => simp [Process.eventsLeft, hTesting, hLoop, hStopping, Label.isHandle]
  | wait fds _ hWaiting hLength hLoop =>
    have hReported := reported_length (p := p) fds
    simp only [Process.eventsLeft, hWaiting, hLoop, Label.isHandle, Bool.toNat_false]
    omega
  | handle answers e events _ hBatch hLoop =>
    simp only [Process.eventsLeft, hBatch, hLoop, Label.isHandle, Bool.toNat_true, List.length_cons]
    omega
  | run _ hBefore hLoop => simp [Process.eventsLeft, hLoop, Label.isHandle]
  | interrupted _ hWaiting hLoop => simp [Process.eventsLeft, hLoop, Label.isHandle]
  | done _ hBatch hLoop => simp [Process.eventsLeft, hLoop, Label.isHandle]

theorem handled_of_run {labels : List (Label ι)} (hStopping : p.dispatcher.stopping)
    (hRun : Runs.run step p labels = some p') : labels.countP Label.isHandle ≤ p.eventsLeft := by
  induction labels generalizing p with
  | nil => exact Nat.zero_le _
  | cons l labels ih =>
    obtain ⟨mid, hMid, hRun⟩ := Option.bind_eq_some_iff.mp hRun
    have hLeft := (advances_of_step hMid).eventsLeft hStopping
    have hRest := ih ((asks_of_step hMid).stopping (.inl hStopping)) hRun
    rw [List.countP_cons]
    cases hHandle : l.isHandle with
    | true =>
      rw [hHandle] at hLeft
      simp only [Bool.toNat_true, if_true] at hLeft ⊢
      omega
    | false =>
      rw [hHandle] at hLeft
      simp only [Bool.toNat_false, Bool.false_eq_true, if_false] at hLeft ⊢
      omega

omit [DecidableEq ι] in
theorem Initial.ends (h : p.Initial) : p.Ends := by
  refine ⟨fun hReturned => ?_, fun events hHandling => ?_⟩
  · cases h.loop.symm.trans hReturned
  · cases h.loop.symm.trans hHandling

omit [DecidableEq ι] in
theorem Initial.woken (h : p.Initial) : p.Woken := fun hWaiting => by
  cases h.loop.symm.trans hWaiting

/-- The loop returns on request only, and no request gets lost: a call of `stop` sets the flag for good,
and a signal sets it or can still be reported; a loop that sleeps in spite of the flag can be woken as
soon as no thread is inside `stop`; and from the flag on, at most 16 handlers are called. -/
theorem shutdown_heard {p₀ : Process ι} {labels : List (Label ι)} (hInitial : p₀.Initial)
    (hRun : Runs.run step p₀ labels = some p) :
    (p.loop = .returned → p.dispatcher.stopping) ∧
      (p.dispatcher.stopping → .stopStore ∈ labels ∨ .signal ∈ labels) ∧
      (.stopStore ∈ labels → p.dispatcher.stopping) ∧
      (.signal ∈ labels → p.dispatcher.stopping ∨ p.ready p.dispatcher.signalfd) ∧
      (p.loop = .waiting → p.dispatcher.stopping → p.stoppers = 0 → p.ready p.dispatcher.wakefd) ∧
      (p.dispatcher.stopping → ∀ more p', Runs.run step p more = some p' →
        more.countP Label.isHandle ≤ kMaxEvents) := by
  have hSound := (good_of_run hInitial hRun).sound
  have hEnds : p.Ends := Runs.invariant (fun _ _ _ h hStep => h.step hStep)
    hInitial.ends hRun
  have hWoken : p.Woken := Runs.invariant (fun _ _ _ h hStep => h.step hStep)
    hInitial.woken hRun
  obtain ⟨hRequested, hStored⟩ := requested_of_run hRun
  rw [hInitial.stopping, hInitial.signals] at hRequested
  have hReady {fd : Nat} (hFd : fd = p.dispatcher.signalfd ∨ fd = p.dispatcher.wakefd) :
      p.dispatcher.interest fd = true := (hSound.interest fd).mpr (.inr hFd)
  refine ⟨hEnds.returned, fun hStopping => ?_, fun hStore => hStored (.inr hStore), fun hSignal => ?_,
    fun hWaiting hStopping hNone => ?_, fun hStopping more p' hMore => ?_⟩
  · simpa using hRequested.mp (.inl hStopping)
  · refine (hRequested.mpr (.inr (.inr hSignal))).imp_right fun hPending => ?_
    rw [ready, hReady (.inl rfl), hSound.signalfd]
    simpa using hPending
  · have hReadable := (hWoken hWaiting hStopping).resolve_left (by omega)
    rw [ready, hReady (.inr rfl), hSound.wakefd]
    simpa using hReadable
  · refine Nat.le_trans (handled_of_run hStopping hMore) ?_
    rw [Process.eventsLeft]
    split
    · exact Nat.le_refl _
    · exact hEnds.batch _ ‹_›
    · exact Nat.zero_le _

/-- A thread stops the loop while it sleeps. -/
def stoppedAsleep : List (Label Bool) :=
  [.start false (some 7), .run, .test, .stopStore, .stopWake]

theorem shutdown_heard_asleep : ∃ p, Runs.run step twoLines stoppedAsleep = some p ∧
    p.loop = .waiting ∧ p.ready p.dispatcher.wakefd := by
  refine ⟨_, rfl, rfl, ?_⟩
  have hRun : Runs.run step twoLines stoppedAsleep = some _ := rfl
  exact (shutdown_heard twoLines_initial hRun).2.2.2.2.1 rfl rfl rfl

end Process

end BmsBridge
