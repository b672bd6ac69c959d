import BmsBridge.Ble.Proof.Disconnect
import BmsBridge.Ble.Proof.Sharing

/-! No client is left asleep for good: whoever waits has an event or a timer to wake it, or waits for a
slot whose holder goes on. -/

namespace BmsBridge

namespace BleClient

/-! ### The timer of a client that rests -/

/-- Places at which the thread relies on its timer: it rests, or will if there is no match. -/
def reliesAt (s : State) (code : List Op) : Bool :=
  match s, code with
  | .waitAdapter, [] | .scan, [] | .backoff, [] | .scan, .takeMatch :: _ => true
  | _, _ => false

def isArm : Option Op → Bool
  | some (.armTimer _) => true
  | _ => false

theorem successors_relies (s : State) : ∀ k ∈ points s, ∀ p ∈ successors s k, k ≠ [] →
    reliesAt p.1 p.2 → isArm k.head? ∨ (k.head? ≠ some .disarmTimer ∧ reliesAt s k) := by
  cases s <;> decide +kernel

/-- The handler of the timer leaves the place; the others that come back to it leave the timer. -/
theorem reliesAt_handler (s : State) (adapter : Bool) (fd : Fd)
    (h : reliesAt s (handler s adapter fd)) : fd ≠ .timer ∧ reliesAt s [] := by
  revert h
  cases s <;> cases adapter <;> cases fd <;> decide

/-- A client that relies on its timer has it armed, or it has expired. -/
def TimerSet (c : Client) : Prop := reliesAt c.state c.code → c.timer ≠ .idle

theorem consume_timer (c : Client) {fd : Fd} (h : fd ≠ .timer) : (consume c fd).timer = c.timer := by
  cases fd with
  | timer => exact absurd rfl h
  | _ => rfl

theorem effect_timer (c : Client) (ok : Bool) {op : Op} (hArm : isArm (some op) = false)
    (hDisarm : op ≠ .disarmTimer) : (effect c ok op).timer = c.timer := by
  cases op with
  | armTimer delay => cases hArm
  | disarmTimer => exact absurd rfl hDisarm
  | _ => rfl

theorem TimerSet.next {c c' : Client} {ok : Bool} (hPoint : c.code ∈ points c.state)
    (hSet : TimerSet c) (h : next c ok = some c') : TimerSet c' := by
  intro hRelies
  have hSuccessor := next_successors h
  cases hCode : c.code with
  | nil =>
    cases next_dispatch hCode h with
    | exit hStop hc =>
      subst hc
      rw [hStop] at hRelies
      cases hRelies
    | handle fd batch hRun hBatch hc =>
      subst hc
      rw [show ({ consume c fd with batch, code := handler c.state c.adapter fd } : Client).state =
        c.state from (consume_state c fd).1] at hRelies
      obtain ⟨hFd, hOld⟩ := reliesAt_handler _ _ _ hRelies
      rw [show ({ consume c fd with batch, code := handler c.state c.adapter fd } : Client).timer =
        c.timer from consume_timer c hFd]
      exact hSet (by rw [hCode]; exact hOld)
  | cons op rest =>
    obtain rfl := next_exec hCode h
    have hHead : c.code.head? = some op := by rw [hCode]; rfl
    rcases successors_relies _ _ hPoint _ hSuccessor (by rw [hCode]; simp) hRelies with
      hArm | ⟨hDisarm, hOld⟩
    · rw [hHead] at hArm
      cases op with
      | armTimer delay => simp [exec, effect]
      | _ => cases hArm
    · rw [hHead] at hDisarm
      by_cases hArm : isArm (some op) = true
      · cases op with
        | armTimer delay => simp [exec, effect]
        | _ => cases hArm
      · have hSame := effect_timer c ok (by simpa using hArm) fun h => hDisarm (by rw [h])
        rw [exec, hSame]
        exact hSet hOld

theorem TimerSet.outside {c c' : Client} {l : Label} (hSet : TimerSet c) (hThread : ∀ ok, l ≠ .thread ok)
    (h : step c l = some c') : TimerSet c' := by
  intro hRelies
  cases l with
  | thread ok => exact absurd rfl (hThread ok)
  | expire =>
    simp only [step] at h
    split at h
    · cases h
      simp
    · cases h
  | drop =>
    simp only [step] at h
    split at h
    · split at h
      · cases h
        exact hSet hRelies
      · cases h
    · cases h
  | poll | pollFailed | found | foundSignal | notified =>
    simp only [step] at h
    split at h
    · cases h
      exact hSet hRelies
    · cases h
  | grant | sendFailed | stop =>
    cases h
    exact hSet hRelies

theorem TimerSet.step {c c' : Client} {l : Label} (hPoint : c.code ∈ points c.state)
    (hSet : TimerSet c) (h : step c l = some c') : TimerSet c' := by
  by_cases hThread : ∃ ok, l = .thread ok
  · obtain ⟨ok, rfl⟩ := hThread
    exact hSet.next hPoint h
  · exact hSet.outside (fun ok hl => hThread ⟨ok, hl⟩) h

/-! ### All clients -/

variable {ι : Type}

/-- What goes on with a client: its thread, an event that it waits for, its timer, a grant that is to be
called, or the drop of its link. -/
def Moves (s : System ι) (i : ι) : SystemLabel ι → Prop
  | .client j (.thread _) => j = i
  | .client j (.poll fds) => j = i ∧ fds ≠ []
  | .client j .expire => j = i
  | .client j .drop => j = i
  | .grant j => j = i ∨ s.granting j = some i
  | _ => False

variable [DecidableEq ι]

/-- Such a step is possible. -/
def GoesOn (s : System ι) (i : ι) : Prop := ∃ l, Moves s i l ∧ (System.step s l).isSome

/-- The client waits for the slot behind a holder that goes on, or whose `epoll_wait` has failed. -/
structure Queued (s : System ι) (i : ι) : Prop where
  waits : (s.clients i).state = .waitSlot
  queued : i ∈ s.coordinator.waiters
  holder : ∃ j ≠ i, s.coordinator.holder = some j ∧ (GoesOn s j ∨ (s.clients j).exited)

section Enabled

variable {s : System ι} {i : ι}

theorem goesOn_outside {l : Label} {c : Client} (hMoves : Moves s i (.client i l))
    (hThread : ∀ ok, l ≠ .thread ok) (hGrant : l ≠ .grant) (hStep : step (s.clients i) l = some c) :
    GoesOn s i := by
  have hSystem : System.step s (.client i l) = (step (s.clients i) l).map (s.setClient i) := by
    cases l with
    | thread ok => exact absurd rfl (hThread ok)
    | grant => exact absurd rfl hGrant
    | _ => rfl
  exact ⟨.client i l, hMoves, by rw [hSystem, hStep, Option.map_some, Option.isSome_some]⟩

theorem goesOn_granting {j : ι} (h : s.granting j = some i) : GoesOn s i :=
  ⟨.grant j, .inr h, by rw [System.step, h, Option.map_some, Option.isSome_some]⟩

/-- The thread is in a handler, has ready descriptors left to look at, or is about to leave its loop. -/
theorem goesOn_running (hLives : (s.clients i).exited = false)
    (h : (s.clients i).code ≠ [] ∨ (s.clients i).batch ≠ [] ∨ (s.clients i).state = .stopping) :
    GoesOn s i := by
  cases hGranting : s.granting i with
  | some j =>
    exact ⟨.grant i, .inl rfl, by rw [System.step, hGranting, Option.map_some, Option.isSome_some]⟩
  | none =>
    have hNext : ∃ c, next (s.clients i) true = some c := by
      rw [next]
      cases hCode : (s.clients i).code with
      | cons op rest => exact ⟨_, rfl⟩
      | nil =>
        by_cases hStop : (s.clients i).state = .stopping
        · simp [hStop, hLives]
        · simp only [if_neg hStop]
          cases hBatch : (s.clients i).batch with
          | nil => exact absurd (h.resolve_left fun hCode' => hCode' hCode) (by simp [hBatch, hStop])
          | cons fd batch => exact ⟨_, rfl⟩
    obtain ⟨c, hc⟩ := hNext
    refine ⟨.client i (.thread true), rfl, ?_⟩
    rw [System.step, hGranting, if_neg (by simp), hc, Option.map_some, Option.isSome_some]

theorem goesOn_ready {fd : Fd} (hWaiting : (s.clients i).waiting) (h : ready (s.clients i) fd) :
    GoesOn s i := by
  have hStep : step (s.clients i) (.poll [fd]) = some _ :=
    if_pos ⟨hWaiting, List.nodup_singleton fd, by simpa using h⟩
  exact goesOn_outside (l := .poll [fd]) ⟨rfl, by simp⟩ (by simp) (by simp) hStep

/-- A client that relies on its timer goes on. -/
theorem goesOn_timer (hSet : TimerSet (s.clients i)) (hWaiting : (s.clients i).waiting)
    (hRelies : reliesAt (s.clients i).state []) : GoesOn s i := by
  have hCode : (s.clients i).code = [] := (of_decide_eq_true hWaiting).1
  have hTimer := hSet (by rw [hCode]; exact hRelies)
  cases h : (s.clients i).timer with
  | idle => exact absurd h hTimer
  | armed delay =>
    have hStep : step (s.clients i) .expire = some { s.clients i with timer := .expired } := by
      rw [step, h]
    exact goesOn_outside (l := .expire) rfl (by simp) (by simp) hStep
  | expired =>
    have hReady : ready (s.clients i) .timer := decide_eq_true h
    exact goesOn_ready hWaiting hReady

omit [DecidableEq ι] in
/-- Otherwise it is in `epoll_wait`. -/
theorem waiting_of_not_running (hLives : (s.clients i).exited = false)
    (h : ¬((s.clients i).code ≠ [] ∨ (s.clients i).batch ≠ [] ∨ (s.clients i).state = .stopping)) :
    (s.clients i).code = [] ∧ (s.clients i).batch = [] ∧ (s.clients i).waiting := by
  simp only [not_or, not_not] at h
  obtain ⟨hCode, hBatch, hState⟩ := h
  exact ⟨hCode, hBatch, decide_eq_true ⟨hCode, hBatch, hState, by rw [hLives]; rfl⟩⟩

theorem goesOn_notified (hLives : (s.clients i).exited = false) (h : s.Notified i) : GoesOn s i := by
  rcases h with hEvent | ⟨j, hj⟩
  · by_cases hRunning : (s.clients i).code ≠ [] ∨ (s.clients i).batch ≠ [] ∨
      (s.clients i).state = .stopping
    · exact goesOn_running hLives hRunning
    · obtain ⟨-, -, hWaiting⟩ := waiting_of_not_running hLives hRunning
      have hReady : ready (s.clients i) .slot := hEvent
      exact goesOn_ready hWaiting hReady
  · exact goesOn_granting hj

/-- The link can drop. -/
theorem goesOn_linkUp (hUp : (s.clients i).linkUp) : GoesOn s i := by
  rw [Client.linkUp] at hUp
  cases hp : (s.clients i).peripheral with
  | none =>
    rw [hp] at hUp
    cases hUp
  | some p =>
    rw [hp] at hUp
    have hStep : step (s.clients i) .drop = some { s.clients i with
        peripheral := some { p with connected := false }
        workEvent := (s.clients i).workEvent || p.onDisconnected } := by
      rw [step, hp]
      exact if_pos hUp
    exact goesOn_outside (l := .drop) rfl (by simp) (by simp) hStep

end Enabled

/-- A step of the system is for each client a step of its own, or none. -/
theorem clients_step {s s' : System ι} {l : SystemLabel ι} (h : System.step s l = some s') (i : ι) :
    s'.clients i = s.clients i ∨
      ∃ l', step (s.clients i) l' = some (s'.clients i) ∧ (l = .client i l' ∨ l' = .grant) := by
  have hUpdate (j : ι) (c : Client) : Function.update s.clients j c i = s.clients i ∨
      (i = j ∧ Function.update s.clients j c i = c) := by
    by_cases hj : i = j
    · subst hj
      exact .inr ⟨rfl, Function.update_self ..⟩
    · exact .inl (Function.update_of_ne hj ..)
  cases System.step_cases h with
  | thread j ok c hFree hNext =>
    refine (hUpdate j c).imp_right fun hSelf => ?_
    obtain ⟨rfl, hSelf⟩ := hSelf
    exact ⟨.thread ok, hNext.trans (congrArg some hSelf.symm), .inl rfl⟩
  | outside j l c hThread hGrant hStep =>
    refine (hUpdate j c).imp_right fun hSelf => ?_
    obtain ⟨rfl, hSelf⟩ := hSelf
    exact ⟨l, hStep.trans (congrArg some hSelf.symm), .inl rfl⟩
  | grant j k hGrant =>
    refine (hUpdate k { s.clients k with slotEvent := true }).imp_right fun hSelf => ?_
    obtain ⟨rfl, hSelf⟩ := hSelf
    exact ⟨.grant, congrArg some hSelf.symm, .inr rfl⟩

/-- The clients' timers are set in every run of all of them. -/
theorem timerSet_of_run {s : System ι} {labels : List (SystemLabel ι)}
    (hRun : Runs.run System.step {} labels = some s) (i : ι) : TimerSet (s.clients i) := by
  let inv (s : System ι) : Prop := (s.clients i).code ∈ points (s.clients i).state ∧ TimerSet (s.clients i)
  have hInv : inv s := by
    refine Runs.invariant (fun s l s' hI hStep => ?_) ⟨Sound.initial.points, fun h => ?_⟩ hRun
    · rcases clients_step hStep i with hSame | ⟨l', hStep, -⟩
      · simp only [inv, hSame]
        exact hI
      · exact ⟨step_points hI.1 hStep, hI.2.step hI.1 hStep⟩
    · cases h
  exact hInv.2

theorem tracked_of_run {s : System ι} {labels : List (SystemLabel ι)} (i : ι)
    (hKept : Runs.Meets System.step (fun s l => ∀ l', l = .client i l' → swallows (s.clients i) l' = false)
      {} labels)
    (hRun : Runs.run System.step {} labels = some s) : Tracked (s.clients i) := by
  let inv (s : System ι) : Prop := Tracked (s.clients i)
  have hInv : inv s := by
    refine Runs.invariant_of_meets (fun s l s' hI hP hStep => ?_) Tracked.initial hKept hRun
    rcases clients_step hStep i with hSame | ⟨l', hStep, hLabel | rfl⟩
    · simp only [inv, hSame]
      exact hI
    · exact Tracked.step hI (hP l' hLabel) hStep
    · exact Tracked.step hI rfl hStep
  exact hInv

/-- The holder of the slot goes on, if its thread runs at all. -/
theorem holder_goesOn {s : System ι} {labels : List (SystemLabel ι)} {j : ι}
    (hRun : Runs.run System.step {} labels = some s) (hHolder : s.coordinator.holder = some j)
    (hLives : (s.clients j).exited = false) : GoesOn s j := by
  have hDisciplined := disciplined_of_run hRun
  have hHeld := hDisciplined.orderly.held j hHolder
  by_cases hRunning : (s.clients j).code ≠ [] ∨ (s.clients j).batch ≠ [] ∨
    (s.clients j).state = .stopping
  · exact goesOn_running hLives hRunning
  obtain ⟨hCode, -, hWaiting⟩ := waiting_of_not_running hLives hRunning
  rcases hHeld with hHolds | hEither | ⟨-, hNotified⟩
  · rw [System.phase, hCode] at hHolds
    cases hScan : (s.clients j).state with
    | scan =>
      refine goesOn_timer (timerSet_of_run hRun j) hWaiting ?_
      rw [hScan]
      rfl
    | connect => exact absurd ⟨hScan, hCode⟩ (hDisciplined.sound j).resting
    | _ =>
      rw [hScan] at hHolds
      cases hHolds
  · rw [System.phase, hCode] at hEither
    cases hScan : (s.clients j).state with
    | _ =>
      rw [hScan] at hEither
      cases hEither
  · exact goesOn_notified hLives hNotified

/-- In every state that any number of clients reach, whatever the radio, the timers and the callers of
`stop` and `send` do, a client whose thread runs goes on, or waits for the slot behind a holder that
does; but for a client in `Online` that a drop of the link has not reached, which is only where
`enter(Online)` has consumed the signal of such a drop. -/
theorem never_stuck {s : System ι} {labels : List (SystemLabel ι)} (i : ι)
    (hRun : Runs.run System.step {} labels = some s) (hLives : (s.clients i).exited = false) :
    (GoesOn s i ∨ Queued s i ∨ Lost (s.clients i)) ∧
      (Runs.Meets System.step (fun s l => ∀ l', l = .client i l' → swallows (s.clients i) l' = false)
        {} labels → ¬ Lost (s.clients i)) := by
  constructor
  · by_cases hRunning : (s.clients i).code ≠ [] ∨ (s.clients i).batch ≠ [] ∨
      (s.clients i).state = .stopping
    · exact .inl (goesOn_running hLives hRunning)
    obtain ⟨hCode, hBatch, hWaiting⟩ := waiting_of_not_running hLives hRunning
    have hTimer := timerSet_of_run hRun i
    have hDisciplined := disciplined_of_run hRun
    cases hAt : (s.clients i).state with
    | waitAdapter | scan | backoff =>
      refine .inl (goesOn_timer hTimer hWaiting ?_)
      rw [hAt]
      rfl
    | connect => exact absurd ⟨hAt, hCode⟩ (hDisciplined.sound i).resting
    | stopping => exact absurd (.inr (.inr hAt)) hRunning
    | waitSlot =>
      by_cases hHolder : s.coordinator.holder = some i
      · exact .inl (holder_goesOn hRun hHolder hLives)
      have hAsked : s.phase i = .asked := by
        rw [System.phase, hAt, hCode]
        rfl
      have hQueued := (hDisciplined.orderly.queued i).mpr ⟨hAsked, hHolder⟩
      refine .inr (.inl ⟨hAt, hQueued, ?_⟩)
      cases hOther : s.coordinator.holder with
      | none =>
        rw [hDisciplined.orderly.free hOther] at hQueued
        cases hQueued
      | some j =>
        refine ⟨j, fun h => hHolder (by rw [hOther, h]), rfl, ?_⟩
        cases hExited : (s.clients j).exited with
        | true => exact .inr rfl
        | false => exact .inl (holder_goesOn hRun hOther hExited)
    | online =>
      by_cases hReady : ∃ fd, ready (s.clients i) fd
      · obtain ⟨fd, hReady⟩ := hReady
        exact .inl (goesOn_ready hWaiting hReady)
      cases hUp : (s.clients i).linkUp with
      | false =>
        have hQuiet (fd : Fd) : ready (s.clients i) fd = false := by
          simpa using fun h => hReady ⟨fd, h⟩
        refine .inr (.inr ⟨hAt, hCode, hUp, ⟨hQuiet .work, ?_⟩, ⟨hQuiet .stop, ?_⟩⟩)
        all_goals
          rw [hBatch]
          exact List.not_mem_nil
      | true => exact .inl (goesOn_linkUp hUp)
  · intro hKept hLost
    have hTracked := tracked_of_run i hKept hRun
    rcases hTracked.signalled hLost.online hLost.idle with hUp | hSignal
    · cases hLost.down.symm.trans hUp
    · cases hLost.noWork.1.symm.trans hSignal

/-- The first of two clients has the slot, and the second waits behind it. -/
theorem never_stuck_two : ∃ s : System Bool,
    Runs.run System.step {} (startUp false ++ startUp true) = some s ∧
      (GoesOn s true ∨ Queued s true ∨ Lost (s.clients true)) := by
  refine ⟨_, rfl, ?_⟩
  have hRun : Runs.run System.step ({} : System Bool) (startUp false ++ startUp true) = some _ := rfl
  exact (never_stuck true hRun rfl).1

end BleClient

end BmsBridge
