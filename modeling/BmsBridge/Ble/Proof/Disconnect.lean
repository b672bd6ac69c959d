import BmsBridge.Ble.Proof.Control
import BmsBridge.Lib.Runs

/-! A dropped link reaches the management thread through `work_event_`.  `enter(Online)` consumes
that event once more after the connect, so a drop before this `consume` is lost. -/

namespace BmsBridge

namespace BleClient

/-! ### The disconnect callback -/

/-- A connected peripheral has its callback set, and one that is about to connect too. -/
def CallbackSet (c : Client) : Prop :=
  ∀ p, c.peripheral = some p → p.connected ∨ c.code.head? = some .connect → p.onDisconnected

theorem successors_connect (s : State) : ∀ k ∈ points s, ∀ p ∈ successors s k,
    p.2.head? = some .connect → k.head? = some .setCallbackOnDisconnected := by
  cases s <;> decide +kernel

theorem next_connect {c c' : Client} {ok : Bool} (hPoint : c.code ∈ points c.state)
    (h : next c ok = some c') (hHead : c'.code.head? = some .connect) :
    c.code.head? = some .setCallbackOnDisconnected :=
  successors_connect _ _ hPoint _ (next_successors h) hHead

theorem consume_peripheral (c : Client) (fd : Fd) : (consume c fd).peripheral = c.peripheral := by
  cases fd <;> rfl

theorem next_idle_peripheral {c c' : Client} {ok : Bool} (hCode : c.code = [])
    (h : next c ok = some c') : c'.peripheral = c.peripheral := by
  simp only [next, hCode] at h
  split at h
  · split at h <;> cases h
    rfl
  · split at h
    · rename_i fd batch _
      cases h
      exact consume_peripheral c fd
    · cases h

theorem CallbackSet.next {c c' : Client} {ok : Bool} (hPoint : c.code ∈ points c.state)
    (hSet : CallbackSet c) (h : next c ok = some c') : CallbackSet c' := by
  intro p hp hUse
  have hHead := next_connect hPoint h
  cases hCode : c.code with
  | nil =>
    rw [hCode] at hHead
    have hSame := next_idle_peripheral hCode h
    rw [hSame] at hp
    rcases hUse with hUp | hConnect
    · exact hSet p hp (.inl hUp)
    · cases hHead hConnect
  | cons op rest =>
    simp only [BleClient.next, hCode] at h
    cases h
    rw [hCode] at hHead
    rcases hUse with hUp | hConnect
    · cases op with
      | adoptMatch =>
        cases hp
        cases hUp
      | setCallbackOnDisconnected =>
        obtain ⟨old, -, rfl⟩ := Option.map_eq_some_iff.mp hp
        rfl
      | connect =>
        obtain ⟨old, hOld, rfl⟩ := Option.map_eq_some_iff.mp hp
        exact hSet old hOld (.inr (by rw [hCode]; rfl))
      | notify =>
        obtain ⟨old, hOld, rfl⟩ := Option.map_eq_some_iff.mp hp
        exact hSet old hOld (.inl hUp)
      | disconnect =>
        obtain ⟨old, -, rfl⟩ := Option.map_eq_some_iff.mp hp
        cases hUp
      | resetPeripheral => cases hp
      | _ => exact hSet p hp (.inl hUp)
    · obtain rfl := Option.some.inj (hHead hConnect)
      obtain ⟨old, -, rfl⟩ := Option.map_eq_some_iff.mp hp
      rfl

/-! ### The signal -/

/-- A statement of the thread that consumes `work_event_` in `Online` while the link is down. -/
def swallows (c : Client) : Label → Bool
  | .thread _ => c.state = .online ∧ c.code = [.consumeWork] ∧ !c.linkUp
  | _ => false

/-- Between the handlers, a client in `Online` has its link up or `work_event_` signalled. -/
def Signalled (c : Client) : Prop := c.state = .online → c.code = [] → c.linkUp ∨ c.workEvent

theorem successors_online (s : State) : ∀ k ∈ points s, (.online, []) ∈ successors s k →
    s = .online ∧ (k = [] ∨ k = [.consumeWork]) := by
  cases s <;> decide +kernel

theorem Signalled.next {c c' : Client} {ok : Bool} (hPoint : c.code ∈ points c.state)
    (hSignalled : Signalled c) (hKept : swallows c (.thread ok) = false)
    (h : next c ok = some c') : Signalled c' := by
  intro hState' hCode'
  have hMem := next_successors h
  rw [hState', hCode'] at hMem
  obtain ⟨hState, hCode | hCode⟩ := successors_online _ _ hPoint hMem
  · have hOld := hSignalled hState hCode
    simp only [BleClient.next, hCode, hState] at h
    split at h
    · rename_i hStop
      cases hStop
    · split at h
      · rename_i fd batch _
        cases h
        cases fd with
        | stop | work => cases hCode'
        | slot | timer => exact hOld
      · cases h
  · left
    have hUp : c.linkUp = true := by simpa [swallows, hState, hCode] using hKept
    simp only [BleClient.next, hCode] at h
    cases h
    exact hUp

/-! ### Whole runs -/

structure Tracked (c : Client) : Prop where
  point : c.code ∈ points c.state
  callback : CallbackSet c
  signalled : Signalled c

theorem Tracked.initial : Tracked {} where
  point := by decide +kernel
  callback := fun _ hp => nomatch hp
  signalled := fun hState => nomatch hState

theorem Tracked.step {c c' : Client} {l : Label} (hTracked : Tracked c)
    (hKept : swallows c l = false) (h : step c l = some c') : Tracked c' := by
  have hPoint := step_points hTracked.point h
  rcases step_cases h with ⟨ok, rfl, hNext⟩ | ⟨p, hp, hUp, rfl⟩ | ⟨hState, hCode, hSame, hWork⟩
  · exact ⟨hPoint, hTracked.callback.next hTracked.point hNext,
      hTracked.signalled.next hTracked.point hKept hNext⟩
  · have hSet := hTracked.callback p hp (.inl hUp)
    refine ⟨hPoint, ?_, ?_⟩
    · rintro q hq -
      cases hq
      exact hSet
    · intro _ _
      right
      simp [hSet]
  · refine ⟨hPoint, ?_, ?_⟩
    · intro p hp hUse
      rw [hSame] at hp
      rw [hCode] at hUse
      exact hTracked.callback p hp hUse
    · intro hOnline hIdle
      rw [hState] at hOnline
      rw [hCode] at hIdle
      rcases hTracked.signalled hOnline hIdle with hUp | hSignal
      · left
        rw [Client.linkUp, hSame]
        exact hUp
      · exact .inr (hWork hSignal)

/-- In a run in which `enter(Online)` consumes `work_event_` only while the link is up, a client
that waits in `Online` with its link down has `work_event_` signalled. -/
theorem disconnect_signalled {labels : List Label} {c : Client}
    (hKept : Runs.Meets step (fun c l => swallows c l = false) {} labels)
    (hRun : Runs.run step {} labels = some c) (hWaiting : c.waiting) (hOnline : c.state = .online)
    (hDown : c.linkUp = false) : c.workEvent = true := by
  have hTracked : Tracked c :=
    Runs.invariant_of_meets (fun c l c' hI hP h => hI.step hP h) Tracked.initial hKept hRun
  have hIdle : c.code = [] := (of_decide_eq_true hWaiting).1
  rcases hTracked.signalled hOnline hIdle with hUp | hSignal
  · rw [hDown] at hUp
    cases hUp
  · exact hSignal

/-- The signal takes the client out of `Online`: `Disconnected` is pushed, and it backs off. -/
theorem signal_leaves_online {c : Client} (hWaiting : c.waiting) (hOnline : c.state = .online)
    (hSignal : c.workEvent) :
    ∃ c', Runs.run step c (.poll [.work] :: List.replicate 5 (.thread true)) = some c' ∧
      c'.state = .backoff ∧ c'.queue = c.queue ++ [.disconnected] := by
  have hPoll : step c (.poll [.work]) = some { c with batch := [.work] } := by
    simp [step, hWaiting, ready, hSignal]
  obtain ⟨hIdle, -, -, -⟩ := of_decide_eq_true hWaiting
  rw [Runs.run, hPoll]
  cases c
  cases hOnline
  cases hIdle
  exact ⟨_, rfl, rfl, rfl⟩

/-- The thread finds an adapter, gets the slot and scans, and the peripheral is found. -/
def untilFound : List Label :=
  List.replicate 4 (.thread true) ++ [.grant, .poll [.slot]] ++ List.replicate 8 (.thread true) ++
    [.found, .foundSignal, .poll [.work]]

def untilConnected : List Label := untilFound ++ List.replicate 14 (.thread true)

def enterOnline : List Label := List.replicate 3 (.thread true)

/-- The link drops once the client is back in `epoll_wait`. -/
theorem disconnect_signalled_in_wait :
    ∃ c, Runs.run step {} (untilConnected ++ enterOnline ++ [.drop]) = some c ∧ c.waiting ∧
      c.state = .online ∧ c.linkUp = false ∧ c.workEvent = true := by
  have hKept : Runs.Meets step (fun c l => swallows c l = false) {}
    (untilConnected ++ enterOnline ++ [.drop]) := by decide +kernel
  exact ⟨_, rfl, by decide, rfl, rfl, disconnect_signalled hKept rfl (by decide) rfl rfl⟩

/-- The link drops between the push of `Connected` and `enter(Online)`. -/
theorem disconnect_lost :
    ¬∀ (labels : List Label) (c : Client), Runs.run step {} labels = some c → c.waiting →
      c.state = .online → c.linkUp = false → c.workEvent = true := by
  intro h
  have hSignal := h (untilConnected ++ [.drop] ++ enterOnline) _ rfl (by decide) rfl rfl
  revert hSignal
  decide

/-! ### A lost disconnect -/

/-- The client is in `Online`, its link is down, and nothing is under way that would tell it. -/
structure Lost (c : Client) : Prop where
  online : c.state = .online
  idle : c.code = []
  down : c.linkUp = false
  noWork : c.workEvent = false ∧ .work ∉ c.batch
  noStop : c.stopEvent = false ∧ .stop ∉ c.batch

/-- A drop that is swallowed is lost, unless the batch or `stop` still has something to tell. -/
theorem lost_of_swallows {c c' : Client} {ok : Bool} (hSwallows : swallows c (.thread ok))
    (hNoWork : .work ∉ c.batch) (hNoStop : c.stopEvent = false ∧ .stop ∉ c.batch)
    (h : next c ok = some c') : Lost c' := by
  obtain ⟨hOnline, hCode, hDown⟩ := of_decide_eq_true hSwallows
  rw [Bool.not_eq_true'] at hDown
  simp only [BleClient.next, hCode] at h
  cases h
  exact ⟨hOnline, rfl, hDown, ⟨rfl, hNoWork⟩, hNoStop⟩

def wakes : Label → Bool
  | .foundSignal | .sendFailed | .stop => true
  | _ => false

theorem Lost.step {c c' : Client} {l : Label} (hLost : Lost c) (hQuiet : wakes l = false)
    (h : step c l = some c') : Lost c' := by
  obtain ⟨hOnline, hIdle, hDown, ⟨hWork, hNoWork⟩, hStop, hNoStop⟩ := hLost
  cases l with
  | foundSignal | sendFailed | stop => cases hQuiet
  | thread ok =>
    simp only [BleClient.step, BleClient.next, hIdle, hOnline] at h
    split at h
    · rename_i hStopping
      cases hStopping
    · split at h
      · rename_i fd batch hBatch
        rw [hBatch, List.mem_cons, not_or] at hNoWork hNoStop
        cases h
        cases fd with
        | work => exact absurd rfl hNoWork.1
        | stop => exact absurd rfl hNoStop.1
        | slot | timer => exact ⟨hOnline, rfl, hDown, ⟨hWork, hNoWork.2⟩, hStop, hNoStop.2⟩
      · cases h
  | poll fds =>
    simp only [BleClient.step] at h
    split at h
    · rename_i hPoll
      obtain ⟨-, -, hReady⟩ := hPoll
      cases h
      refine ⟨hOnline, hIdle, hDown, ⟨hWork, fun hMem => ?_⟩, hStop, fun hMem => ?_⟩
      · have hNow : c.workEvent = true := hReady _ hMem
        rw [hWork] at hNow
        cases hNow
      · have hNow : c.stopEvent = true := hReady _ hMem
        rw [hStop] at hNow
        cases hNow
    · cases h
  | drop =>
    simp only [BleClient.step] at h
    split at h
    · rename_i p hp
      split at h
      · rename_i hUp
        rw [Client.linkUp, hp, Option.any_some, hUp] at hDown
        cases hDown
      · cases h
    · cases h
  | pollFailed | found | notified payload | expire =>
    simp only [BleClient.step] at h
    split at h <;> cases h
    exact ⟨hOnline, hIdle, hDown, ⟨hWork, hNoWork⟩, hStop, hNoStop⟩
  | grant =>
    cases h
    exact ⟨hOnline, hIdle, hDown, ⟨hWork, hNoWork⟩, hStop, hNoStop⟩

/-- Until `stop` or a failed write of `send` wakes it, the client stays in `Online`. -/
theorem lost_stays {labels : List Label} {c c' : Client} (hLost : Lost c)
    (hQuiet : Runs.Meets BleClient.step (fun _ l => wakes l = false) c labels)
    (hRun : Runs.run BleClient.step c labels = some c') : Lost c' :=
  Runs.invariant_of_meets (fun _ _ _ hI hP h => hI.step hP h) hLost hQuiet hRun

end BleClient

end BmsBridge
