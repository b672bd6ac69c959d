import BmsBridge.Ble.Proof.Control
import BmsBridge.Ble.Proof.Slot
import BmsBridge.Lib.Runs

/-! The clients keep to the coordinator's discipline: where a thread is in its handlers says what its
client makes of the slot. -/

namespace BmsBridge

namespace BleClient

open BleScanCoordinator (Phase Orderly)

/-! ### One client -/

def phaseAt (s : State) (code : List Op) : Phase :=
  match s with
  | .scan | .connect => if code = [.setState .stopping] then .idle else .holds
  | .waitSlot =>
    if code = [.requestSlot] ∨ code = [.setState .stopping] then .idle
    else if code = [.enter .scan] then .holds else .asked
  | .online => if code = [.releaseSlot, .consumeWork] then .holds else .idle
  | .backoff => if code = [.releaseSlot, .armTimer .reconnectBackoff] then .either else .idle
  | .waitAdapter | .stopping => .idle

/-- The client has released the slot for good; a grant that was under way may still come. -/
def leavingAt (s : State) (code : List Op) : Bool :=
  s = .stopping ∨ code = [.setState .stopping]

theorem successors_request (s : State) : ∀ k ∈ points s, ∀ p ∈ successors s k,
    k.head? = some .requestSlot →
      phaseAt s k = .idle ∧ leavingAt s k = false ∧ phaseAt p.1 p.2 = .asked := by
  cases s <;> decide +kernel

theorem successors_release (s : State) : ∀ k ∈ points s, ∀ p ∈ successors s k,
    k.head? = some .releaseSlot →
      phaseAt p.1 p.2 = .idle ∧ (phaseAt s k = .asked → leavingAt p.1 p.2) := by
  cases s <;> decide +kernel

theorem successors_move (s : State) : ∀ k ∈ points s, ∀ p ∈ successors s k,
    k ≠ [] → k.head? ≠ some .requestSlot → k.head? ≠ some .releaseSlot →
      phaseAt p.1 p.2 = phaseAt s k ∨ (phaseAt p.1 p.2 = .either ∧ phaseAt s k ≠ .asked) := by
  cases s <;> decide +kernel

theorem successors_leaving (s : State) : ∀ k ∈ points s, ∀ p ∈ successors s k,
    k ≠ [] → leavingAt s k → leavingAt p.1 p.2 := by
  cases s <;> decide +kernel

theorem successors_resting (s : State) : ∀ k ∈ points s, ∀ p ∈ successors s k,
    ¬(s = .connect ∧ k = []) → ¬(p.1 = .connect ∧ p.2 = []) := by
  cases s <;> decide +kernel

/-- Only the slot event moves a client that rests, out of `WaitSlot`. -/
theorem phaseAt_handler (s : State) (adapter : Bool) (fd : Fd) (h : ¬(s = .waitSlot ∧ fd = .slot)) :
    phaseAt s (handler s adapter fd) = phaseAt s [] := by
  revert h
  cases s <;> cases adapter <;> cases fd <;> decide

theorem leavingAt_nil {s : State} (h : s ≠ .stopping) : leavingAt s [] = false := by
  cases s with
  | stopping => exact absurd rfl h
  | _ => rfl

/-- What holds of a client in every run of its own. -/
structure Sound (c : Client) : Prop where
  points : c.code ∈ points c.state
  resting : ¬(c.state = .connect ∧ c.code = [])
  nodup : c.batch.Nodup
  batch : .slot ∈ c.batch → c.slotEvent

theorem Sound.initial : Sound {} :=
  ⟨by decide +kernel, nofun, List.nodup_nil, nofun⟩

theorem effect_slotEvent (c : Client) (ok : Bool) (op : Op) :
    (effect c ok op).slotEvent = c.slotEvent ∧ (effect c ok op).batch = c.batch := by
  cases op <;> exact ⟨rfl, rfl⟩

theorem consume_slotEvent (c : Client) {fd : Fd} (h : fd ≠ .slot) :
    (consume c fd).slotEvent = c.slotEvent := by
  cases fd with
  | slot => exact absurd rfl h
  | _ => rfl

/-- What a thread does between two handlers. -/
inductive Dispatch (c c' : Client) : Prop
  | exit : c.state = .stopping → c' = { c with batch := [], exited := true } → Dispatch c c'
  | handle (fd : Fd) (batch : List Fd) : c.state ≠ .stopping → c.batch = fd :: batch →
      c' = { consume c fd with batch, code := handler c.state c.adapter fd } → Dispatch c c'

theorem next_dispatch {c c' : Client} {ok : Bool} (hCode : c.code = []) (h : next c ok = some c') :
    Dispatch c c' := by
  simp only [next, hCode] at h
  split at h
  · rename_i hStop
    split at h
    · cases h
    · exact .exit hStop (by cases h; rw [hCode])
  · rename_i hRun
    split at h
    · rename_i fd batch hBatch
      exact .handle fd batch hRun hBatch (Option.some.inj h).symm
    · cases h

theorem next_exec {c c' : Client} {ok : Bool} {op : Op} {rest : List Op} (hCode : c.code = op :: rest)
    (h : next c ok = some c') : c' = exec c ok op rest := by
  simp only [next, hCode] at h
  exact (Option.some.inj h).symm

theorem consume_state (c : Client) (fd : Fd) :
    (consume c fd).state = c.state ∧ (consume c fd).adapter = c.adapter := by
  cases fd <;> exact ⟨rfl, rfl⟩

theorem Sound.next {c c' : Client} {ok : Bool} (hSound : Sound c) (h : next c ok = some c') :
    Sound c' := by
  have hSuccessor := next_successors h
  refine ⟨successors_points _ _ hSound.points _ hSuccessor,
    successors_resting _ _ hSound.points _ hSuccessor hSound.resting, ?_, ?_⟩
  all_goals
    cases hCode : c.code with
    | nil =>
      cases next_dispatch hCode h with
      | exit hStop hc =>
        subst hc
        simp
      | handle fd batch hRun hBatch hc =>
        subst hc
        have hNodup := hSound.nodup
        have hSlot := hSound.batch
        rw [hBatch] at hNodup hSlot
        obtain ⟨hfd, hNodup⟩ := List.nodup_cons.mp hNodup
        first
          | exact hNodup
          | intro hMem
            have hNe : fd ≠ .slot := fun hfd' => hfd (hfd' ▸ hMem)
            exact (consume_slotEvent c hNe).trans (hSlot (List.mem_cons_of_mem _ hMem))
    | cons op rest =>
      obtain rfl := next_exec hCode h
      obtain ⟨hEvent, hBatch⟩ := effect_slotEvent c ok op
      simp only [exec, hEvent, hBatch]
      first
        | exact hSound.nodup
        | exact hSound.batch

/-- A step of the client's surroundings, apart from the coordinator's grant. -/
theorem step_outside {c c' : Client} {l : Label} (hThread : ∀ ok, l ≠ .thread ok) (hGrant : l ≠ .grant)
    (h : step c l = some c') :
    c'.state = c.state ∧ c'.code = c.code ∧ c'.slotEvent = c.slotEvent ∧
      c'.adapter = c.adapter ∧ c'.scanning = c.scanning ∧
      (c'.batch = c.batch ∨ (c'.batch.Nodup ∧ (.slot ∈ c'.batch → c.slotEvent))) := by
  cases l with
  | thread ok => exact absurd rfl (hThread ok)
  | grant => exact absurd rfl hGrant
  | poll fds =>
    simp only [step] at h
    split at h
    · rename_i hPoll
      cases h
      exact ⟨rfl, rfl, rfl, rfl, rfl, .inr ⟨hPoll.2.1, hPoll.2.2 .slot⟩⟩
    · cases h
  | drop =>
    simp only [step] at h
    split at h
    · split at h
      · cases h
        exact ⟨rfl, rfl, rfl, rfl, rfl, .inl rfl⟩
      · cases h
    · cases h
  | pollFailed | found | foundSignal | notified payload | expire =>
    simp only [step] at h
    split at h
    · cases h
      exact ⟨rfl, rfl, rfl, rfl, rfl, .inl rfl⟩
    · cases h
  | sendFailed | stop =>
    cases h
    exact ⟨rfl, rfl, rfl, rfl, rfl, .inl rfl⟩

theorem Sound.outside {c c' : Client} {l : Label} (hSound : Sound c)
    (hThread : ∀ ok, l ≠ .thread ok) (hGrant : l ≠ .grant) (h : step c l = some c') : Sound c' := by
  obtain ⟨hState, hCode, hEvent, -, -, hBatch⟩ := step_outside hThread hGrant h
  obtain ⟨hPoints, hResting, hNodup, hSlot⟩ := hSound
  refine ⟨by rw [hState, hCode]; exact hPoints, by rw [hState, hCode]; exact hResting, ?_, ?_⟩
  · rcases hBatch with hSame | ⟨hNew, -⟩
    · rw [hSame]
      exact hNodup
    · exact hNew
  · rw [hEvent]
    rcases hBatch with hSame | ⟨-, hNew⟩
    · rw [hSame]
      exact hSlot
    · exact hNew

end BleClient

end BmsBridge
