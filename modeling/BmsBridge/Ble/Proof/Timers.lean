import BmsBridge.Ble.Proof.Control
import BmsBridge.Lib.Runs

/-! The timer and the visits to the states.  The entries of a batch outlive the state in which it was
polled, but the client acts on the timer only in the visit that armed it, unless a connect fails
while the timer's entry is still to be looked at. -/

namespace BmsBridge

namespace BleClient

/-- A client with its visits to the states, numbered as they begin. -/
structure Traced where
  client : Client := {}
  visit : Nat := 0
  /-- The visit that armed the timer last, and the delay. -/
  armedIn : Option (Nat × Delay) := none
  /-- The arming behind the expiration that the running handler has read, if it has read one. -/
  actsOn : Option (Nat × Delay) := none
  deriving DecidableEq, Repr

namespace Traced

def follow (t : Traced) (client : Client) : Label → Traced
  | .thread _ => match t.client.code with
    | .enter _ :: _ => { t with client, visit := t.visit + 1 }
    | .armTimer delay :: _ => { t with client, armedIn := some (t.visit, delay) }
    | _ :: _ => { t with client }
    | [] => { t with
        client
        actsOn := if t.client.batch.head? = some .timer ∧ t.client.timer = .expired then t.armedIn
          else none }
  | _ => { t with client }

def step (t : Traced) (l : Label) : Option Traced :=
  (BleClient.step t.client l).map fun client => t.follow client l

theorem follow_client (t : Traced) (client : Client) (l : Label) :
    (t.follow client l).client = client := by
  unfold follow
  split
  · split <;> rfl
  · rfl

/-- The numbers are only looked on: the runs are those of the client. -/
theorem run_client (t : Traced) (labels : List Label) :
    (Runs.run step t labels).map Traced.client = Runs.run BleClient.step t.client labels := by
  induction labels generalizing t with
  | nil => rfl
  | cons l labels ih =>
    rw [Runs.run, Runs.run, step]
    cases BleClient.step t.client l with
    | none => rfl
    | some client =>
      simp only [Option.map_some, Option.bind_some]
      rw [ih, follow_client]

end Traced

/-- The delay with which the timer is armed in a state whose handler acts on it. -/
def delay? : State → Option Delay
  | .waitAdapter => some .adapterPoll
  | .scan => some .scanTimeout
  | .backoff => some .reconnectBackoff
  | _ => none

/-- What a step makes of the timer.  Its handler acts only on an expiration of the timer that was
armed in this visit to the state; but for `stop`, `Backoff` is left for such an expiration only; and
every failure in `Connect` leads to `Backoff`. -/
structure OwnTimers (t : Traced) (l : Label) (t' : Traced) : Prop where
  acts : ∀ ok delay, l = .thread ok → t.client.code = [] → t.client.batch.head? = some .timer →
    delay? t.client.state = some delay →
      t.client.timer = .expired ∧ t.armedIn = some (t.visit, delay)
  leaves : t.client.state = .backoff → t'.client.state ≠ .backoff →
    t'.client.state = .stopping ∨ t.actsOn = some (t.visit, .reconnectBackoff)
  fails : ∀ ok op rest k, l = .thread ok → t.client.state = .connect →
    t.client.code = op :: rest → exit t.client ok op = some k → (∀ s, op ≠ .enter s) →
      k.getLast? = some (.enter .backoff)

/-- The entries of the batch that are looked at: none behind that of `stop`. -/
def Client.live (c : Client) : List Fd := c.batch.takeWhile (· ≠ .stop)

/-- A connect has failed while the timer's entry of the batch is still to be looked at. -/
def Overtaken (c : Client) : Label → Bool
  | .thread _ => c.state = .connect ∧ c.code.head? = some (.enter .backoff) ∧ .timer ∈ c.live
  | _ => false

/-! ### Phases -/

/-- What is known of the timer. -/
inductive TimerPhase where
  /-- It is not armed, and the batch has no entry of it. -/
  | quiet
  /-- It was armed in this visit. -/
  | running (delay : Delay)
  /-- It was armed in this visit, and the batch has no more work. -/
  | matching
  /-- It is quiet, and the handler acts on its expiration in this visit. -/
  | acting
  /-- The batch has no more work. -/
  | settled
  /-- It is not armed, and the batch has no more work if it has an entry of the timer. -/
  | disarmed
  | free
  deriving DecidableEq, Repr

def TimerPhase.Holds (t : Traced) : TimerPhase → Prop
  | .quiet => t.client.timer = .idle ∧ .timer ∉ t.client.live
  | .running delay => t.armedIn = some (t.visit, delay) ∧
      (.timer ∈ t.client.live → t.client.timer = .expired)
  | .matching => (t.armedIn = some (t.visit, .scanTimeout) ∧
      (.timer ∈ t.client.live → t.client.timer = .expired)) ∧ .work ∉ t.client.live
  | .acting => (t.client.timer = .idle ∧ .timer ∉ t.client.live) ∧
      t.actsOn = some (t.visit, .reconnectBackoff)
  | .settled => .work ∉ t.client.live
  | .disarmed => t.client.timer = .idle ∧ (.timer ∈ t.client.live → .work ∉ t.client.live)
  | .free => True

/-- The phase at each place of the code. -/
def timerPhase (s : State) (code : List Op) : TimerPhase :=
  if .setState .stopping ∈ code then .free
  else match s, code with
    | .waitAdapter, [] => .running .adapterPoll
    | .scan, [] => .running .scanTimeout
    | .scan, .takeMatch :: _ => .matching
    | .scan, code => if .enter .connect ∈ code then .settled else .quiet
    | .connect, .disarmTimer :: _ => .settled
    | .connect, _ => .disarmed
    | .online, code => if .enter .backoff ∈ code then .quiet else .disarmed
    | .backoff, [] => .running .reconnectBackoff
    | .backoff, .enter _ :: _ => .acting
    | .stopping, _ => .free
    | _, _ => .quiet

/-- What a statement makes of the phase. -/
def allowed (s : State) (p q : TimerPhase) : Op → Bool
  | .enter t => (p = q ∧ p ∈ [.quiet, .settled, .disarmed]) ∨ (p = .acting ∧ q = .quiet) ∨
      (p = .disarmed ∧ q = .quiet ∧ s = .connect ∧ t = .backoff)
  | .armTimer delay => p = .quiet ∧ q = .running delay
  | .disarmTimer => p = .settled ∧ (q = .settled ∨ q = .disarmed)
  | .takeMatch => p = .matching ∧ (q = .settled ∨ q = .running .scanTimeout)
  | _ => p = q

/-- What the choice of a handler makes of the phase. -/
def chosen (p q : TimerPhase) : Fd → Bool
  | .stop => false
  | .work => (p = q ∧ p ≠ .acting) ∨ (p = .running .scanTimeout ∧ q = .matching) ∨
      (p = .disarmed ∧ q = .quiet)
  | .slot => p = q ∧ p ≠ .acting
  | .timer => (p = q ∧ p ∈ [.quiet, .disarmed]) ∨
      (p ∈ [.running .adapterPoll, .running .scanTimeout] ∧ q = .quiet) ∨
      (p = .running .reconnectBackoff ∧ q = .acting)

theorem allowed_points (s : State) : ∀ k ∈ points s, ∀ op ∈ k.head?, ∀ p ∈ successors s k,
    timerPhase p.1 p.2 = .free ∨ allowed s (timerPhase s k) (timerPhase p.1 p.2) op := by
  cases s <;> decide +kernel

theorem chosen_handler (s : State) (adapter : Bool) (fd : Fd) :
    timerPhase s (handler s adapter fd) = .free ∨
      chosen (timerPhase s []) (timerPhase s (handler s adapter fd)) fd := by
  cases s <;> cases adapter <;> cases fd <;> decide

/-! ### Steps -/

theorem TimerPhase.Holds.congr {t t' : Traced} {p : TimerPhase} (hHolds : p.Holds t)
    (hTimer : t'.client.timer = t.client.timer) (hBatch : t'.client.batch = t.client.batch)
    (hVisit : t'.visit = t.visit) (hArmed : t'.armedIn = t.armedIn)
    (hActs : t'.actsOn = t.actsOn) : p.Holds t' := by
  have hLive : t'.client.live = t.client.live := by rw [Client.live, hBatch, Client.live]
  cases p with
  | free => trivial
  | _ => simpa only [Holds, hTimer, hLive, hVisit, hArmed, hActs] using hHolds

/-- The phase outlives entries of the batch that are looked at. -/
theorem TimerPhase.Holds.sublist {t t' : Traced} {p : TimerPhase} (hHolds : p.Holds t)
    (hActing : p ≠ .acting) (hTimer : t'.client.timer = t.client.timer)
    (hLive : ∀ fd ∈ t'.client.live, fd ∈ t.client.live) (hVisit : t'.visit = t.visit)
    (hArmed : t'.armedIn = t.armedIn) : p.Holds t' := by
  cases p with
  | quiet => exact ⟨hTimer.trans hHolds.1, mt (hLive _) hHolds.2⟩
  | running delay =>
    refine ⟨?_, fun hMem => hTimer.trans (hHolds.2 (hLive _ hMem))⟩
    rw [hArmed, hVisit]
    exact hHolds.1
  | matching =>
    refine ⟨⟨?_, fun hMem => hTimer.trans (hHolds.1.2 (hLive _ hMem))⟩, mt (hLive _) hHolds.2⟩
    rw [hArmed, hVisit]
    exact hHolds.1.1
  | acting => exact absurd rfl hActing
  | settled => exact mt (hLive _) hHolds
  | disarmed =>
    exact ⟨hTimer.trans hHolds.1, fun hMem => mt (hLive _) (hHolds.2 (hLive _ hMem))⟩
  | free => trivial

theorem exec_batch (c : Client) (ok : Bool) (op : Op) (rest : List Op) :
    (exec c ok op rest).batch = c.batch := by
  cases op <;> rfl

/-- A statement takes the phase to what its place in the code allows. -/
theorem TimerPhase.Holds.exec {t : Traced} {ok : Bool} {op : Op} {rest : List Op}
    (hCode : t.client.code = op :: rest) {p q : TimerPhase} (hHolds : p.Holds t)
    (hFine : Overtaken t.client (.thread ok) = false)
    (hAllowed : q = .free ∨ allowed t.client.state p q op) :
    q.Holds (t.follow (BleClient.exec t.client ok op rest) (.thread ok)) := by
  rcases hAllowed with rfl | hAllowed
  · trivial
  have hLive : (BleClient.exec t.client ok op rest).live = t.client.live := by
    rw [Client.live, exec_batch, Client.live]
  cases op with
  | enter s =>
    have hTimer : (BleClient.exec t.client ok (.enter s) rest).timer = t.client.timer := rfl
    simp only [allowed, decide_eq_true_eq] at hAllowed
    rcases hAllowed with ⟨rfl, hMem⟩ | ⟨rfl, rfl⟩ | ⟨rfl, rfl, hState, rfl⟩
    · simp only [List.mem_cons, List.not_mem_nil, or_false] at hMem
      rcases hMem with rfl | rfl | rfl
      all_goals
        simp only [Holds, Traced.follow, hCode, hLive, hTimer]
        exact hHolds
    · simp only [Holds, Traced.follow, hCode, hLive, hTimer]
      exact hHolds.1
    · have hNotLive : .timer ∉ t.client.live := by
        simpa [Overtaken, hState, hCode] using hFine
      simp only [Holds, Traced.follow, hCode, hLive, hTimer]
      exact ⟨hHolds.1, hNotLive⟩
  | armTimer delay =>
    simp only [allowed, decide_eq_true_eq] at hAllowed
    obtain ⟨rfl, rfl⟩ := hAllowed
    simp only [Holds, Traced.follow, hCode, hLive]
    exact ⟨trivial, fun hMem => absurd hMem hHolds.2⟩
  | disarmTimer =>
    simp only [allowed, decide_eq_true_eq] at hAllowed
    obtain ⟨rfl, rfl | rfl⟩ := hAllowed
    · simp only [Holds, Traced.follow, hCode, hLive]
      exact hHolds
    · simp only [Holds, Traced.follow, hCode, hLive]
      exact ⟨rfl, fun _ => hHolds⟩
  | takeMatch =>
    have hTimer : (BleClient.exec t.client ok .takeMatch rest).timer = t.client.timer := rfl
    simp only [allowed, decide_eq_true_eq] at hAllowed
    obtain ⟨rfl, rfl | rfl⟩ := hAllowed
    · simp only [Holds, Traced.follow, hCode, hLive]
      exact hHolds.2
    · simp only [Holds, Traced.follow, hCode, hLive, hTimer]
      exact hHolds.1
  | _ =>
    simp only [allowed, decide_eq_true_eq] at hAllowed
    subst hAllowed
    refine hHolds.congr ?_ ?_ ?_ ?_ ?_
    all_goals simp only [Traced.follow, hCode, BleClient.exec, effect]

theorem live_cons {c : Client} {fd : Fd} {batch : List Fd} (hBatch : c.batch = fd :: batch)
    (hStop : fd ≠ .stop) : c.live = fd :: batch.takeWhile (· ≠ .stop) := by
  rw [Client.live, hBatch, List.takeWhile_cons_of_pos (by simpa using hStop)]

/-- The choice of a handler takes the phase to that of the handler's first statement. -/
theorem TimerPhase.Holds.choose {t : Traced} {ok : Bool} {fd : Fd} {batch : List Fd}
    {code : List Op} (hCode : t.client.code = []) (hBatch : t.client.batch = fd :: batch)
    (hNodup : t.client.batch.Nodup) {p q : TimerPhase} (hHolds : p.Holds t)
    (hChosen : q = .free ∨ chosen p q fd) :
    q.Holds (t.follow { consume t.client fd with batch, code } (.thread ok)) := by
  rcases hChosen with rfl | hChosen
  · trivial
  have hStop : fd ≠ .stop := by
    rintro rfl
    cases hChosen
  have hLive := live_cons hBatch hStop
  have hFirst : fd ∉ batch.takeWhile (· ≠ .stop) := by
    rw [hBatch] at hNodup
    exact fun hMem => (List.nodup_cons.mp hNodup).1 ((List.takeWhile_sublist _).mem hMem)
  have hHead : fd ∈ t.client.live := hLive ▸ List.mem_cons_self ..
  have hRest : ∀ fd' ∈ batch.takeWhile (· ≠ .stop), fd' ∈ t.client.live := fun fd' hMem =>
    hLive ▸ List.mem_cons_of_mem _ hMem
  -- The phase stays what it is while the handler has nothing to do in the state.
  have hSame (hNot : p ≠ .acting) (hTimer : (consume t.client fd).timer = t.client.timer) :
      p.Holds (t.follow { consume t.client fd with batch, code } (.thread ok)) := by
    refine hHolds.sublist hNot ?_ ?_ ?_ ?_
    all_goals simp only [Traced.follow, hCode]
    · exact hTimer
    · exact hRest
  cases fd with
  | stop => exact absurd rfl hStop
  | work =>
    simp only [chosen, decide_eq_true_eq] at hChosen
    rcases hChosen with ⟨rfl, hNot⟩ | ⟨rfl, rfl⟩ | ⟨rfl, rfl⟩
    · exact hSame hNot rfl
    · simp only [Holds, Traced.follow, hCode]
      exact ⟨⟨hHolds.1, fun hMem => hHolds.2 (hRest _ hMem)⟩, hFirst⟩
    · simp only [Holds, Traced.follow, hCode]
      exact ⟨hHolds.1, fun hMem => hHolds.2 (hRest _ hMem) hHead⟩
  | slot =>
    simp only [chosen, decide_eq_true_eq] at hChosen
    obtain ⟨rfl, hNot⟩ := hChosen
    exact hSame hNot rfl
  | timer =>
    simp only [chosen, decide_eq_true_eq] at hChosen
    rcases hChosen with ⟨rfl, hMem⟩ | ⟨hMem, rfl⟩ | ⟨rfl, rfl⟩
    · simp only [List.mem_cons, List.not_mem_nil, or_false] at hMem
      rcases hMem with rfl | rfl
      · exact absurd hHead hHolds.2
      · exact hSame nofun (by simp [consume, hHolds.1])
    · have hExpired : t.client.timer = .expired := by
        simp only [List.mem_cons, List.not_mem_nil, or_false] at hMem
        rcases hMem with rfl | rfl <;> exact hHolds.2 hHead
      simp only [Holds, Traced.follow, hCode]
      exact ⟨by simp [consume, hExpired], hFirst⟩
    · have hExpired : t.client.timer = .expired := hHolds.2 hHead
      simp only [Holds, Traced.follow, hCode]
      refine ⟨⟨by simp [consume, hExpired], hFirst⟩, ?_⟩
      rw [if_pos ⟨by rw [hBatch]; rfl, hExpired⟩]
      exact hHolds.1

/-! ### Runs -/

/-- The handlers' code, the batch and the timer fit each other. -/
structure Timed (t : Traced) : Prop where
  point : t.client.code ∈ points t.client.state
  nodup : t.client.batch.Nodup
  holds : (timerPhase t.client.state t.client.code).Holds t

theorem Timed.initial : Timed {} where
  point := by decide +kernel
  nodup := .nil
  holds := by
    refine ⟨rfl, ?_⟩
    exact List.not_mem_nil

theorem Timed.thread {t : Traced} {c' : Client} {ok : Bool} (hTimed : Timed t)
    (hFine : Overtaken t.client (.thread ok) = false) (h : next t.client ok = some c') :
    c'.batch.Nodup ∧ (timerPhase c'.state c'.code).Holds (t.follow c' (.thread ok)) := by
  have hNext := next_successors h
  unfold next at h
  cases hCode : t.client.code with
  | nil =>
    simp only [hCode] at h
    split at h
    · rename_i hStopping
      split at h
      · cases h
      · cases h
        refine ⟨.nil, ?_⟩
        simp only [hStopping]
        trivial
    · split at h
      · rename_i fd batch hBatch
        cases h
        have hHolds := hTimed.holds
        have hNodup := hTimed.nodup
        rw [hCode] at hHolds
        refine ⟨(List.nodup_cons.mp (hBatch ▸ hNodup)).2, ?_⟩
        have hChosen := chosen_handler t.client.state t.client.adapter fd
        cases fd <;> exact hHolds.choose hCode hBatch hNodup hChosen
      · cases h
  | cons op rest =>
    simp only [hCode] at h
    cases h
    refine ⟨?_, hTimed.holds.exec hCode hFine ?_⟩
    · rw [exec_batch]
      exact hTimed.nodup
    · exact allowed_points _ _ hTimed.point op (by rw [hCode]; rfl) _ hNext

theorem idle_phase (s : State) : timerPhase s [] ∉ [.matching, .settled] := by
  cases s <;> decide

/-- A poll finds the timer ready only if it was armed in this visit. -/
theorem TimerPhase.Holds.poll {t : Traced} {p : TimerPhase} {fds : List Fd} (hHolds : p.Holds t)
    (hIdle : p ∉ [.matching, .settled]) (hReady : ∀ fd ∈ fds, ready t.client fd) :
    p.Holds { t with client := { t.client with batch := fds } } := by
  have hExpired (hMem : .timer ∈ fds.takeWhile (· ≠ .stop)) : t.client.timer = .expired := by
    have hNow := hReady .timer ((List.takeWhile_sublist _).mem hMem)
    exact of_decide_eq_true hNow
  have hNone (hTimer : t.client.timer = .idle) : .timer ∉ fds.takeWhile (· ≠ .stop) := by
    intro hMem
    cases hTimer.symm.trans (hExpired hMem)
  cases p with
  | quiet => exact ⟨hHolds.1, hNone hHolds.1⟩
  | running delay => exact ⟨hHolds.1, hExpired⟩
  | acting => exact ⟨⟨hHolds.1.1, hNone hHolds.1.1⟩, hHolds.2⟩
  | disarmed => exact ⟨hHolds.1, fun hMem => absurd hMem (hNone hHolds.1)⟩
  | free => trivial
  | matching | settled => simp at hIdle

theorem TimerPhase.Holds.expire {t : Traced} {p : TimerPhase} {delay : Delay} (hHolds : p.Holds t)
    (hArmed : t.client.timer = .armed delay) :
    p.Holds { t with client := { t.client with timer := .expired } } := by
  cases p with
  | quiet | disarmed => cases hHolds.1.symm.trans hArmed
  | acting => cases hHolds.1.1.symm.trans hArmed
  | running d => exact ⟨hHolds.1, fun _ => rfl⟩
  | matching => exact ⟨⟨hHolds.1.1, fun _ => rfl⟩, hHolds.2⟩
  | settled => exact hHolds
  | free => trivial

theorem Timed.step {t t' : Traced} {l : Label} (hTimed : Timed t)
    (hFine : Overtaken t.client l = false) (h : t.step l = some t') : Timed t' := by
  obtain ⟨c', hStep, rfl⟩ := Option.map_eq_some_iff.mp h
  have hPoint := step_points hTimed.point hStep
  have hHolds := hTimed.holds
  cases l with
  | thread ok =>
    obtain ⟨hNodup, hHolds⟩ := hTimed.thread hFine hStep
    refine ⟨?_, ?_, ?_⟩
    all_goals simp only [Traced.follow_client]
    · exact hPoint
    · exact hNodup
    · exact hHolds
  | poll fds =>
    simp only [BleClient.step] at hStep
    split at hStep
    · rename_i hPoll
      obtain ⟨hWaiting, hNodup, hReady⟩ := hPoll
      cases hStep
      obtain ⟨hIdle, -⟩ := of_decide_eq_true hWaiting
      refine ⟨hPoint, hNodup, ?_⟩
      rw [hIdle] at hHolds ⊢
      exact hHolds.poll (idle_phase _) hReady
    · cases hStep
  | drop =>
    simp only [BleClient.step] at hStep
    split at hStep
    · split at hStep
      · cases hStep
        exact ⟨hPoint, hTimed.nodup, hHolds.congr rfl rfl rfl rfl rfl⟩
      · cases hStep
    · cases hStep
  | expire =>
    simp only [BleClient.step] at hStep
    split at hStep
    · rename_i delay hArmed
      cases hStep
      exact ⟨hPoint, hTimed.nodup, hHolds.expire hArmed⟩
    · cases hStep
  | pollFailed | found | foundSignal | notified payload =>
    simp only [BleClient.step] at hStep
    split at hStep <;> cases hStep
    exact ⟨hPoint, hTimed.nodup, hHolds.congr rfl rfl rfl rfl rfl⟩
  | grant | sendFailed | stop =>
    cases hStep
    exact ⟨hPoint, hTimed.nodup, hHolds.congr rfl rfl rfl rfl rfl⟩

/-! ### Acting on the timer -/

theorem running_phase {s : State} {delay : Delay} (h : delay? s = some delay) :
    timerPhase s [] = .running delay := by
  cases s <;> cases h <;> rfl

theorem backoff_points : ∀ k ∈ points .backoff, ∀ p ∈ successors .backoff k, p.1 ≠ .backoff →
    p.1 = .stopping ∨ timerPhase .backoff k = .acting := by
  decide +kernel

theorem connect_points : ∀ k ∈ points .connect, ∀ op ∈ k.head?, ∀ exit ∈ failure op,
    (op = .enter .online ∨ op = .enter .backoff) ∨ exit.getLast? = some (.enter .backoff) := by
  decide +kernel

/-- What a client in its phase makes of the timer. -/
theorem Timed.own {t t' : Traced} {l : Label} (hTimed : Timed t) (h : t.step l = some t') :
    OwnTimers t l t' := by
  obtain ⟨c', hStep, rfl⟩ := Option.map_eq_some_iff.mp h
  have hHolds := hTimed.holds
  constructor
  · rintro ok delay rfl hCode hHead hDelay
    rw [hCode, running_phase hDelay] at hHolds
    obtain ⟨batch, hBatch⟩ := List.head?_eq_some_iff.mp hHead
    have hLive := live_cons hBatch nofun
    exact ⟨hHolds.2 (hLive ▸ List.mem_cons_self ..), hHolds.1⟩
  · intro hBackoff hLeft
    rw [Traced.follow_client] at hLeft ⊢
    rcases step_cases hStep with ⟨ok, rfl, hNext⟩ | ⟨p, -, -, rfl⟩ | ⟨hState, -⟩
    · have hMem := next_successors hNext
      have hPoint := hTimed.point
      rw [hBackoff] at hMem hPoint hHolds
      refine (backoff_points _ hPoint _ hMem hLeft).imp_right fun hActing => ?_
      rw [hActing] at hHolds
      exact hHolds.2
    · exact absurd hBackoff hLeft
    · exact absurd (hState.trans hBackoff) hLeft
  · rintro ok op rest k rfl hConnect hCode hExit hEnter
    have hPoint := hTimed.point
    rw [hConnect, hCode] at hPoint
    rcases connect_points _ hPoint op rfl k (exit_failure hExit) with hIs | hLast
    · exact (hIs.elim (hEnter _) (hEnter _)).elim
    · exact hLast

/-! ### Overtaken connects -/

theorem step_choose {t : Traced} (ok : Bool) {fd : Fd} {batch : List Fd}
    (hState : t.client.state ≠ .stopping) (hCode : t.client.code = [])
    (hBatch : t.client.batch = fd :: batch) :
    t.step (.thread ok) = some (t.follow { consume t.client fd with
      batch, code := handler t.client.state t.client.adapter fd } (.thread ok)) := by
  simp [Traced.step, step, next, hCode, hState, hBatch]

/-- The thread is between two entries of a batch in `Backoff`, and its timer is running. -/
structure BackingOff (c : Client) (batch : List Fd) : Prop where
  state : c.state = .backoff
  code : c.code = []
  timer : c.timer = .armed .reconnectBackoff
  batch : c.batch = batch

/-- An entry of the timer that is left in the batch is acted on at once. -/
theorem stale_entry {batch : List Fd} {t : Traced} (hBacking : BackingOff t.client batch)
    (hLive : .timer ∈ batch.takeWhile (· ≠ .stop)) :
    ∃ labels t₁ t₂, Runs.run Traced.step t labels = some t₁ ∧ t₁.step (.thread true) = some t₂ ∧
      ¬OwnTimers t₁ (.thread true) t₂ := by
  induction batch generalizing t with
  | nil => cases hLive
  | cons fd rest ih =>
    obtain ⟨hState, hCode, hTimer, hBatch⟩ := hBacking
    have hGoes : t.client.state ≠ .stopping := by
      rw [hState]
      nofun
    have hStep := step_choose true hGoes hCode hBatch
    cases fd with
    | stop => cases hLive
    | timer =>
      refine ⟨[], t, _, rfl, hStep, ?_⟩
      intro hOwn
      obtain ⟨hExpired, -⟩ := hOwn.acts true .reconnectBackoff rfl hCode (by rw [hBatch]; rfl)
        (by rw [hState]; rfl)
      cases hExpired.symm.trans hTimer
    | work | slot =>
      -- Neither has anything to do in `Backoff`.
      generalize hNext : ({ consume t.client _ with batch := rest, code := _ } : Client) = c' at hStep
      have hBacking' : BackingOff (t.follow c' (.thread true)).client rest := by
        rw [Traced.follow_client, ← hNext]
        exact ⟨hState, by simp only [hState, handler], hTimer, rfl⟩
      obtain ⟨labels, t₁, t₂, hRun, hStale⟩ := ih hBacking' (by simpa using hLive)
      refine ⟨.thread true :: labels, t₁, t₂, ?_, hStale⟩
      rw [Runs.run, hStep]
      exact hRun

/-- A connect that is overtaken leads on to such an entry. -/
theorem overtaken_stale {t : Traced} {ok : Bool} (h : Overtaken t.client (.thread ok)) :
    ∃ labels t₁ t₂, Runs.run Traced.step t labels = some t₁ ∧ t₁.step (.thread true) = some t₂ ∧
      ¬OwnTimers t₁ (.thread true) t₂ := by
  obtain ⟨-, hHead, hLive⟩ := of_decide_eq_true h
  obtain ⟨rest, hCode⟩ := List.head?_eq_some_iff.mp hHead
  -- `enter(Backoff)` releases the slot and arms the timer.
  obtain ⟨c, hClient, hBacking⟩ : ∃ c, Runs.run step t.client (List.replicate 3 (.thread true)) =
      some c ∧ BackingOff c t.client.batch := by
    generalize t.client = c at hCode
    cases c
    cases hCode
    exact ⟨_, rfl, rfl, rfl, rfl, rfl⟩
  rw [← Traced.run_client] at hClient
  obtain ⟨mid, hMid, rfl⟩ := Option.map_eq_some_iff.mp hClient
  obtain ⟨labels, t₁, t₂, hRun, hStale⟩ := stale_entry hBacking hLive
  refine ⟨List.replicate 3 (.thread true) ++ labels, t₁, t₂, ?_, hStale⟩
  rw [Runs.run_append, hMid]
  exact hRun

/-! ### Whole runs -/

/-- In a run in which no connect is overtaken, every step acts only on the timer of its own visit. -/
theorem timers_of_visit (labels : List Label) (l : Label) (t t' : Traced)
    (hFine : Runs.Meets Traced.step (fun t l => Overtaken t.client l = false) {} labels)
    (hRun : Runs.run Traced.step {} labels = some t) (hStep : t.step l = some t') :
    OwnTimers t l t' := by
  have hTimed : Timed t :=
    Runs.invariant_of_meets (fun _ _ _ hI hP h => hI.step hP h) Timed.initial hFine hRun
  exact hTimed.own hStep

/-- The thread finds an adapter, gets the slot and scans. -/
def untilScanning : List Label :=
  List.replicate 4 (Label.thread true) ++ [Label.grant, Label.poll [.slot]] ++
    List.replicate 8 (Label.thread true)

/-- A scan runs into its timeout. -/
theorem timers_of_visit_timeout :
    ∃ t t', Runs.run Traced.step {} (untilScanning ++ [Label.expire, Label.poll [.timer]]) = some t ∧
      t.step (.thread true) = some t' ∧ t.client.state = .scan ∧
      OwnTimers t (.thread true) t' :=
  ⟨_, _, rfl, rfl, rfl, timers_of_visit (untilScanning ++ [Label.expire, Label.poll [.timer]]) _ _ _
    (by decide +kernel) rfl rfl⟩

/-- The match and the timeout are polled together, the connect fails, and the backoff ends as soon
as it has begun. -/
theorem stale_timer_ends_backoff :
    ¬∀ (labels : List Label) (l : Label) (t t' : Traced),
      Runs.run Traced.step {} labels = some t → t.step l = some t' → OwnTimers t l t' := by
  intro h
  have hOwn := h (untilScanning ++
    [Label.found, Label.foundSignal, Label.expire, Label.poll [.work, .timer]] ++
    List.replicate 10 (Label.thread true) ++ [Label.thread false] ++
    List.replicate 5 (Label.thread true)) (.thread true) _ _ rfl rfl
  have hLeaves := hOwn.leaves rfl (by decide)
  revert hLeaves
  decide

end BleClient

end BmsBridge
