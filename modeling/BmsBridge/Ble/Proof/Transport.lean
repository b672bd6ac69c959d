import BmsBridge.Ble.Proof.Disconnect
import BmsBridge.Ble.Proof.EventQueue
import BmsBridge.Ble.Transport

/-! The link as the battery's handler sees it.  Where the management thread stands says which link
state it has reported last; the events in flight carry the handler from the state it has seen to that
one. -/

namespace BmsBridge

namespace BleClient

/-! ### Link events -/

/-- The `connected` flag behind some events. -/
def linkAfter (up : Bool) : List BmsEvent → Bool
  | [] => up
  | .connected :: es => linkAfter true es
  | .disconnected :: es => linkAfter false es
  | .notifyFrame _ :: es => linkAfter up es

/-- `Connected` and `Disconnected` take turns; `up` says whose turn has been last. -/
def alternates (up : Bool) : List BmsEvent → Bool
  | [] => true
  | .connected :: es => !up && alternates true es
  | .disconnected :: es => up && alternates false es
  | .notifyFrame _ :: es => alternates up es

theorem linkAfter_append (up : Bool) (xs ys : List BmsEvent) :
    linkAfter up (xs ++ ys) = linkAfter (linkAfter up xs) ys := by
  induction xs generalizing up with
  | nil => rfl
  | cons e xs ih => cases e <;> exact ih _

theorem alternates_append (up : Bool) (xs ys : List BmsEvent) :
    alternates up (xs ++ ys) = (alternates up xs && alternates (linkAfter up xs) ys) := by
  induction xs generalizing up with
  | nil => rfl
  | cons e xs ih =>
    cases e with
    | connected | disconnected =>
      rw [List.cons_append, alternates, ih, alternates, Bool.and_assoc]
      rfl
    | notifyFrame payload => exact ih up

/-! ### What the client has reported -/

/-- The link state that the client has reported last, by where its thread is.  In `Stopping` it
reports no more. -/
def reported : State → List Op → Option Bool
  | .stopping, _ => none
  | .online, k => some (k.head? = some (.push .disconnected) ∨ k.getLast? ≠ some (.enter .backoff))
  | _, k => some (k = [.enter .online])

theorem reported_idle {s : State} {up : Bool} (hState : s ≠ .stopping)
    (h : (reported s []).all (· = up)) : up = decide (s = .online) := by
  cases s with
  | stopping => exact absurd rfl hState
  | _ => exact (of_decide_eq_true h).symm

/-- What the next statement pushes. -/
def headPush : List Op → List BmsEvent
  | .push ev :: _ => [ev]
  | _ => []

theorem successors_reported (s : State) : ∀ k ∈ points s, ∀ p ∈ successors s k, ∀ up : Bool,
    (reported s k).all (· = up) → alternates up (headPush k) ∧
      (reported p.1 p.2).all (· = linkAfter up (headPush k)) := by
  cases s <;> decide +kernel

theorem next_queue {c c' : Client} {ok : Bool} (h : next c ok = some c') :
    c'.queue = c.queue ++ headPush c.code := by
  cases hCode : c.code with
  | nil =>
    simp only [next, hCode] at h
    show c'.queue = c.queue ++ []
    rw [List.append_nil]
    split at h
    · split at h <;> cases h
      rfl
    · split at h
      · rename_i fd batch _
        cases h
        cases fd <;> rfl
      · cases h
  | cons op rest =>
    simp only [next, hCode] at h
    cases h
    cases op with
    | push ev => rfl
    | _ => exact (List.append_nil _).symm

/-- The events that a step of the client adds. -/
def pushes (c : Client) : Label → List BmsEvent
  | .thread _ => headPush c.code
  | .notified payload => [.notifyFrame payload]
  | _ => []

theorem step_queue {c c' : Client} {l : Label} (h : step c l = some c') :
    c'.queue = c.queue ++ pushes c l := by
  cases l with
  | thread ok => exact next_queue h
  | poll fds | pollFailed | found | foundSignal | notified payload | expire =>
    simp only [step] at h
    split at h <;> cases h
    simp [pushes]
  | drop =>
    simp only [step] at h
    split at h
    · split at h <;> cases h
      simp [pushes]
    · cases h
  | grant | sendFailed | stop =>
    cases h
    simp [pushes]

/-- Everything the client has pushed takes turns, and ends with the link state that its place says
it has reported. -/
structure Reports (c : Client) : Prop where
  point : c.code ∈ points c.state
  turns : alternates false c.queue
  last : (reported c.state c.code).all (· = linkAfter false c.queue)

theorem Reports.initial : Reports {} where
  point := by decide +kernel
  turns := rfl
  last := rfl

/-- Another thread neither moves the management thread nor reports a link state. -/
theorem step_other {c c' : Client} {l : Label} (hOther : ∀ ok, l ≠ .thread ok)
    (h : step c l = some c') : c'.state = c.state ∧ c'.code = c.code ∧
      ∀ up, linkAfter up (pushes c l) = up ∧ alternates up (pushes c l) := by
  have hPushes (up : Bool) : linkAfter up (pushes c l) = up ∧ alternates up (pushes c l) := by
    cases l with
    | thread ok => exact absurd rfl (hOther ok)
    | _ => exact ⟨rfl, rfl⟩
  rcases step_cases h with ⟨ok, hThread, -⟩ | ⟨p, -, -, rfl⟩ | ⟨hState, hCode, -, -⟩
  · exact absurd hThread (hOther ok)
  · exact ⟨rfl, rfl, hPushes⟩
  · exact ⟨hState, hCode, hPushes⟩

theorem Reports.step {c c' : Client} {l : Label} (hReports : Reports c)
    (h : step c l = some c') : Reports c' := by
  have hPushed : (reported c'.state c'.code).all
      (· = linkAfter (linkAfter false c.queue) (pushes c l)) ∧
      alternates (linkAfter false c.queue) (pushes c l) := by
    by_cases hThread : ∃ ok, l = .thread ok
    · obtain ⟨ok, rfl⟩ := hThread
      exact (successors_reported _ _ hReports.point _ (next_successors h) _ hReports.last).symm
    · obtain ⟨hState, hCode, hQuiet⟩ := step_other (fun ok hl => hThread ⟨ok, hl⟩) h
      obtain ⟨hSame, hTurns⟩ := hQuiet (linkAfter false c.queue)
      rw [hState, hCode, hSame]
      exact ⟨hReports.last, hTurns⟩
  obtain ⟨hLast, hTurns⟩ := hPushed
  have hQueue := step_queue h
  refine ⟨step_points hReports.point h, ?_, ?_⟩
  · rw [hQueue, alternates_append, hReports.turns]
    exact hTurns
  · rw [hQueue, linkAfter_append]
    exact hLast

/-- A notify frame more says nothing about the link. -/
theorem Reports.stray {c : Client} (hReports : Reports c) (payload : List UInt8) :
    Reports { c with queue := c.queue ++ [.notifyFrame payload] } := by
  refine ⟨hReports.point, ?_, ?_⟩
  · rw [alternates_append, hReports.turns]
    rfl
  · rw [linkAfter_append]
    exact hReports.last

end BleClient

namespace BleTransport

open BleClient BmsEventQueue

/-! ### The sink -/

theorem handle_connected (interval now : Int) (parsed : Parsed) (sink : BmsHandler) (ev : BmsEvent) :
    (handle interval now parsed sink ev).state.connected = linkAfter sink.state.connected [ev] := by
  cases ev with
  | connected | disconnected => rfl
  | notifyFrame payload =>
    obtain ⟨telemetry, settings⟩ := parsed
    have hTelemetry (t : Telemetry) :
        (sink.onTelemetry interval now t).state.connected = sink.state.connected := by
      rw [BmsHandler.onTelemetry]
      split <;> rfl
    show (sink.onParsed interval now ⟨telemetry, settings⟩).state.connected = sink.state.connected
    cases telemetry with
    | none => cases settings <;> rfl
    | some t => cases settings <;> exact hTelemetry t

/-! ### Whole runs -/

/-- The queue carries what the client has pushed, and the sink holds the link state of what it has
been handed. -/
structure Follows (t : BleTransport) : Prop where
  client : Reports t.ble
  history : t.queue.enqueued = t.ble.queue
  conserved : Conserved t.queue
  flag : t.sink.state.connected = linkAfter false t.queue.delivered

theorem Follows.initial : Follows {} := ⟨.initial, rfl, conserved_initial, rfl⟩

/-- A step of the queue that neither puts an event in nor hands one over. -/
theorem queue_inside {q q' : BmsEventQueue Producer BmsEvent}
    {l : BmsEventQueue.Label Producer BmsEvent} (hEnqueue : ∀ p ev, l ≠ .enqueue p ev)
    (hDeliver : l ≠ .deliver) (h : q.step l = some q') :
    q'.enqueued = q.enqueued ∧ q'.delivered = q.delivered := by
  obtain ⟨p, ev, hl, -⟩ | ⟨p, -, rfl⟩ | ⟨evfd, pump, -, rfl, -⟩ | ⟨ev, rest, -, -, rfl⟩ |
    ⟨ev, hl, -⟩ := BmsEventQueue.step_cases h
  · exact absurd hl (hEnqueue p ev)
  · exact ⟨rfl, rfl⟩
  · exact ⟨rfl, rfl⟩
  · exact ⟨rfl, rfl⟩
  · exact absurd hl hDeliver

theorem queue_enqueue {q q' : BmsEventQueue Producer BmsEvent} {p : Producer} {ev : BmsEvent}
    (h : q.step (.enqueue p ev) = some q') :
    q'.enqueued = q.enqueued ++ [ev] ∧ q'.delivered = q.delivered := by
  simp only [BmsEventQueue.step] at h
  split at h <;> cases h
  exact ⟨rfl, rfl⟩

theorem pushed_eq (c : Client) (thread : Nat) (l : BleClient.Label) :
    ((pushed c thread l).map Prod.snd).toList = pushes c l := by
  cases l with
  | thread ok =>
    rw [pushed, pushes]
    cases c.code with
    | nil => rfl
    | cons op rest => cases op <;> rfl
  | _ => rfl

theorem Follows.client_step {interval : Int} {t t' : BleTransport} {thread : Nat}
    {l : BleClient.Label} (hFollows : Follows t)
    (h : step interval t (.client thread l) = some t') : Follows t' := by
  simp only [BleTransport.step] at h
  split at h
  · cases h
  obtain ⟨ble, hStep, h⟩ := Option.bind_eq_some_iff.mp h
  have hClient := hFollows.client.step hStep
  have hQueue := step_queue hStep
  rw [← pushed_eq t.ble thread l] at hQueue
  split at h
  · rename_i hNone
    cases h
    rw [hNone] at hQueue
    exact ⟨hClient, hFollows.history.trans (hQueue.trans (List.append_nil _)).symm,
      hFollows.conserved, hFollows.flag⟩
  · rename_i p ev hSome
    obtain ⟨queue, hEnqueue, h⟩ := Option.bind_eq_some_iff.mp h
    cases h
    obtain ⟨hEnqueued, hDelivered⟩ := queue_enqueue hEnqueue
    rw [hSome] at hQueue
    refine ⟨hClient, ?_, hFollows.conserved.step hEnqueue,
      hFollows.flag.trans (congrArg _ hDelivered).symm⟩
    rw [hEnqueued, hQueue, hFollows.history]
    rfl

theorem Follows.step {interval : Int} {t t' : BleTransport} {l : Label} (hFollows : Follows t)
    (h : step interval t l = some t') : Follows t' := by
  cases l with
  | client thread l => exact hFollows.client_step h
  | stray thread payload =>
    obtain ⟨queue, hQueue, h⟩ := Option.bind_eq_some_iff.mp h
    cases h
    obtain ⟨hEnqueued, hDelivered⟩ := queue_enqueue hQueue
    exact ⟨hFollows.client.stray payload, hEnqueued.trans (congrArg (· ++ _) hFollows.history),
      hFollows.conserved.step hQueue, hFollows.flag.trans (congrArg _ hDelivered).symm⟩
  | signal | wake | drain | tryPop =>
    obtain ⟨queue, hQueue, h⟩ := Option.bind_eq_some_iff.mp h
    cases h
    obtain ⟨hEnqueued, hDelivered⟩ := queue_inside (by simp) (by simp) hQueue
    exact ⟨hFollows.client, hEnqueued.trans hFollows.history, hFollows.conserved.step hQueue,
      hFollows.flag.trans (congrArg _ hDelivered).symm⟩
  | deliver now parsed =>
    simp only [BleTransport.step] at h
    split at h
    · rename_i ev hPump
      obtain ⟨queue, hQueue, h⟩ := Option.bind_eq_some_iff.mp h
      cases h
      have hConserved := hFollows.conserved.step hQueue
      simp only [BmsEventQueue.step, hPump] at hQueue
      cases hQueue
      refine ⟨hFollows.client, hFollows.history, hConserved, ?_⟩
      rw [handle_connected, hFollows.flag, ← linkAfter_append]
    · cases h

/-- In every reachable state, the sink has been handed `Connected` and `Disconnected` in turn,
`Connected` first; and outside its handlers, the client is in `Online` exactly when the sink's
`connected` flag will be set behind the events that are still to come. -/
theorem sink_follows_client (interval : Int) (labels : List Label) (t : BleTransport)
    (hRun : Runs.run (step interval) {} labels = some t) :
    alternates false t.queue.delivered ∧
      (t.ble.code = [] → t.ble.state ≠ .stopping →
        linkAfter t.sink.state.connected (t.queue.pump.held ++ t.queue.q) =
          decide (t.ble.state = .online)) := by
  have hFollows : Follows t :=
    Runs.invariant (fun t l t' hI h => Follows.step hI h) Follows.initial hRun
  have hPushed : t.ble.queue = t.queue.delivered ++ (t.queue.pump.held ++ t.queue.q) := by
    rw [← hFollows.history, hFollows.conserved, List.append_assoc]
  refine ⟨?_, fun hCode hState => ?_⟩
  · have hTurns := hFollows.client.turns
    rw [hPushed, alternates_append, Bool.and_eq_true] at hTurns
    exact hTurns.1
  · have hLast := hFollows.client.last
    rw [hPushed, linkAfter_append, ← hFollows.flag, hCode] at hLast
    exact reported_idle hState hLast

/-- The client connects, and the pump hands `Connected` over. -/
def untilHandedOver : List Label :=
  (untilConnected.map fun l => .client 0 l) ++ [.signal .management] ++
    (enterOnline.map fun l => .client 0 l) ++ [.wake, .drain, .drain, .tryPop, .deliver 0 {}]

theorem sink_follows_client_online :
    ∃ t, Runs.run (step 0) {} untilHandedOver = some t ∧
      alternates false t.queue.delivered ∧
      (t.ble.code = [] → t.ble.state ≠ .stopping →
        linkAfter t.sink.state.connected (t.queue.pump.held ++ t.queue.q) =
          decide (t.ble.state = .online)) :=
  ⟨_, rfl, sink_follows_client 0 untilHandedOver _ rfl⟩

end BleTransport

end BmsBridge
