import BmsBridge.Ble.EventQueue

/-! The queue loses no event and no wake-up.  An event that is put in leaves at the other end, in its
turn; and a consumer that goes to sleep over a queue that is not empty will be woken, since whoever
filled it has signalled the eventfd since or is about to. -/

namespace BmsBridge

theorem EventFd.readable_write (fd : EventFd) : fd.write.readable := by
  unfold EventFd.write EventFd.readable
  split
  · simp
  · rename_i hFull
    have hPos : 0 < fd.counter := Nat.lt_of_lt_of_le (by decide) (Nat.le_of_not_lt hFull)
    exact decide_eq_true hPos

namespace BmsEventQueue

variable {ι α : Type} [DecidableEq ι]

/-- What a step can do: put one event in, signal, move the pump on, take one event out, or hand it
over. -/
theorem step_cases {s s' : BmsEventQueue ι α} {l : Label ι α} (h : step s l = some s') :
    (∃ i ev, l = .enqueue i ev ∧ s' = { s with
      q := s.q ++ [ev]
      unsignalled := Function.update s.unsignalled i true
      enqueued := s.enqueued ++ [ev] }) ∨
    (∃ i, l = .signal i ∧ s' = { s with
      evfd := s.evfd.write
      unsignalled := Function.update s.unsignalled i false }) ∨
    (∃ evfd pump, s.pump.held = [] ∧ s' = { s with evfd, pump } ∧ pump.held = [] ∧
      (pump = .outside → s.q = [])) ∨
    (∃ ev q, s.q = ev :: q ∧ s.pump.held = [] ∧ s' = { s with q, pump := .handing ev }) ∨
    (∃ ev, l = .deliver ∧ s.pump = .handing ev ∧ s' = { s with
      pump := .popping
      delivered := s.delivered ++ [ev] }) := by
  cases l with
  | enqueue i ev =>
    simp only [step] at h
    split at h <;> cases h
    exact .inl ⟨i, ev, rfl, rfl⟩
  | signal i =>
    simp only [step] at h
    split at h <;> cases h
    exact .inr (.inl ⟨i, rfl, rfl⟩)
  | wake =>
    simp only [step] at h
    split at h
    · rename_i hPump
      split at h <;> cases h
      exact .inr (.inr (.inl ⟨_, _, by rw [hPump]; rfl, rfl, rfl,
        fun hOutside => absurd hOutside (by simp)⟩))
    · cases h
  | drain =>
    simp only [step] at h
    split at h
    · rename_i hPump
      split at h <;> cases h
      · exact .inr (.inr (.inl ⟨_, _, by rw [hPump]; rfl, rfl, by rw [hPump]; rfl,
          fun hOutside => absurd (hPump.symm.trans hOutside) (by simp)⟩))
      · exact .inr (.inr (.inl ⟨_, _, by rw [hPump]; rfl, rfl, rfl,
          fun hOutside => absurd hOutside (by simp)⟩))
    · cases h
  | tryPop =>
    simp only [step] at h
    split at h
    · rename_i hPump
      split at h
      · rename_i hEmpty
        cases h
        exact .inr (.inr (.inl ⟨_, _, by rw [hPump]; rfl, rfl, rfl, fun _ => hEmpty⟩))
      · rename_i ev q hSome
        cases h
        exact .inr (.inr (.inr (.inl ⟨ev, q, hSome, by rw [hPump]; rfl, rfl⟩)))
    · cases h
  | deliver =>
    simp only [step] at h
    split at h
    · rename_i ev hPump
      cases h
      exact .inr (.inr (.inr (.inr ⟨ev, rfl, hPump, rfl⟩)))
    · cases h

/-- Every event that was put in has been handed over, is in the pump's hands, or is in the queue. -/
def Conserved (s : BmsEventQueue ι α) : Prop := s.enqueued = s.delivered ++ s.pump.held ++ s.q

omit [DecidableEq ι] in
theorem conserved_initial : Conserved ({} : BmsEventQueue ι α) := rfl

theorem Conserved.step {s s' : BmsEventQueue ι α} {l : Label ι α} (hKept : Conserved s)
    (h : step s l = some s') : Conserved s' := by
  unfold Conserved at hKept ⊢
  obtain ⟨i, ev, -, rfl⟩ | ⟨i, -, rfl⟩ | ⟨evfd, pump, hHeld, rfl, hHeld', -⟩ |
    ⟨ev, q, hq, hHeld, rfl⟩ | ⟨ev, -, hPump, rfl⟩ := step_cases h
  · simp only [hKept, List.append_assoc]
  · exact hKept
  · simp only [hKept, hHeld, hHeld']
  · rw [hKept, hHeld, hq]
    simp [Pump.held]
  · simp only [hKept, hPump, Pump.held, List.append_nil]

/-- A consumer outside `pump` with events in the queue is about to be woken. -/
def Awaited (s : BmsEventQueue ι α) : Prop :=
  s.pump = .outside → s.q ≠ [] → s.evfd.readable ∨ ∃ i, s.unsignalled i

theorem awaited_of_step {s s' : BmsEventQueue ι α} {l : Label ι α} (h : step s l = some s') :
    Awaited s' := by
  intro hOutside hSome
  obtain ⟨i, ev, -, rfl⟩ | ⟨i, -, rfl⟩ | ⟨evfd, pump, -, rfl, -, hLeft⟩ |
    ⟨ev, q, -, -, rfl⟩ | ⟨ev, -, -, rfl⟩ := step_cases h
  · right
    exact ⟨i, Function.update_self ..⟩
  · left
    exact s.evfd.readable_write
  · -- `pump` is left only behind a `try_pop` that found nothing.
    exact absurd (hLeft hOutside) hSome
  · cases hOutside
  · cases hOutside

/-! ### A pump that nobody interrupts -/

theorem popping_delivers (s : BmsEventQueue ι α) (hPump : s.pump = .popping) :
    ∃ labels s', Runs.run step s labels = some s' ∧ s'.pump = .outside ∧ s'.q = [] ∧
      s'.delivered = s.delivered ++ s.q := by
  induction hq : s.q generalizing s with
  | nil =>
    refine ⟨[.tryPop], { s with pump := .outside }, ?_, rfl, hq, (List.append_nil _).symm⟩
    simp [Runs.run, step, hPump, hq]
  | cons ev q ih =>
    obtain ⟨labels, s', hRun, hOut, hEmpty, hAll⟩ :=
      ih { s with q, pump := .popping, delivered := s.delivered ++ [ev] } rfl rfl
    refine ⟨.tryPop :: .deliver :: labels, s', ?_, hOut, hEmpty, ?_⟩
    · simpa [Runs.run, step, hPump, hq] using hRun
    · rw [hAll, List.append_assoc]
      rfl

/-- Once the eventfd is readable, one call of `pump` hands over all that is in the queue. -/
theorem woken_delivers (s : BmsEventQueue ι α) (hOutside : s.pump = .outside)
    (hReadable : s.evfd.readable) :
    ∃ labels s', Runs.run step s labels = some s' ∧ s'.pump = .outside ∧ s'.q = [] ∧
      s'.delivered = s.delivered ++ s.q := by
  obtain ⟨labels, s', hRun, hRest⟩ := popping_delivers { s with evfd := {}, pump := .popping } rfl
  refine ⟨.wake :: .drain :: .drain :: labels, s', ?_, hRest⟩
  have hDrained : ({} : EventFd).read = none := rfl
  have hRead : s.evfd.read = some {} := if_pos hReadable
  simpa [Runs.run, step, hOutside, hReadable, hRead, hDrained] using hRun

/-- In every run, every event that was put in has been handed over, is in the pump's hands, or is in the
queue, in this order.  A consumer that is outside `pump` over a queue that is not empty finds the eventfd
readable, or some producer has enqueued and is about to signal; and once it is readable, the next call of
`pump` can hand over all that has been put in. -/
theorem no_event_lost (labels : List (Label ι α)) (s : BmsEventQueue ι α)
    (hRun : Runs.run step {} labels = some s) :
    s.enqueued = s.delivered ++ s.pump.held ++ s.q ∧ s.delivered <+: s.enqueued ∧
      (s.pump = .outside → s.q ≠ [] → s.evfd.readable ∨ ∃ i, s.unsignalled i) ∧
      (s.pump = .outside → s.evfd.readable → ∃ labels s', Runs.run step s labels = some s' ∧
        s'.pump = .outside ∧ s'.q = [] ∧ s'.delivered = s.enqueued) := by
  have hConserved : Conserved s :=
    Runs.invariant (fun s l s' => Conserved.step) conserved_initial hRun
  have hAwaited : Awaited s :=
    Runs.invariant (fun _ _ _ _ => awaited_of_step) (fun _ hSome => absurd rfl hSome) hRun
  refine ⟨hConserved, ?_, hAwaited, ?_⟩
  · rw [hConserved, List.append_assoc]
    exact List.prefix_append _ _
  · intro hOutside hReadable
    obtain ⟨labels, s', hWoken, hOut, hEmpty, hAll⟩ := woken_delivers s hOutside hReadable
    refine ⟨labels, s', hWoken, hOut, hEmpty, ?_⟩
    have hHeld : s.pump.held = [] := by
      rw [hOutside]
      rfl
    rw [hAll, hConserved, hHeld, List.append_nil]

/-- The second producer enqueues while the pump drains the first one's signal. -/
def twoProducers : List (Label Nat Nat) :=
  [.enqueue 0 10, .signal 0, .wake, .drain, .enqueue 1 11, .drain, .tryPop, .deliver]

theorem no_event_lost_two_producers :
    ∃ s, Runs.run step {} twoProducers = some s ∧ s.enqueued = [10, 11] ∧
      s.enqueued = s.delivered ++ s.pump.held ++ s.q ∧ s.delivered <+: s.enqueued ∧
      (s.pump = .outside → s.q ≠ [] → s.evfd.readable ∨ ∃ i, s.unsignalled i) := by
  obtain ⟨hConserved, hPrefix, hAwaited, -⟩ := no_event_lost twoProducers _ rfl
  exact ⟨_, rfl, rfl, hConserved, hPrefix, hAwaited⟩

end BmsEventQueue

end BmsBridge
