import BmsBridge.Ble.Client
import Mathlib.Data.List.Infix

/-! The control flow of the management thread: what can be left of a handler in each state, and
where each statement leads. -/

namespace BmsBridge

namespace BleClient

def failure (op : Op) : Option (List Op) := exit {} false op

theorem exit_failure {c : Client} {ok : Bool} {op : Op} {k : List Op} (h : exit c ok op = some k) :
    failure op = some k := by
  cases op with
  | enter t => exact h
  | probeAdapter | needAdapter | scanStart | takeMatch | needPeripheral | connect | checkConnected
  | notify =>
    simp only [exit] at h
    split at h
    · cases h
    · exact h
  | _ => cases h

def fds : List Fd := [.stop, .work, .slot, .timer]

/-- Where the thread can be after its next step, from the rest of a handler. -/
def successors (s : State) : List Op → List (State × List Op)
  | [] => (s, []) :: fds.flatMap fun fd => [(s, handler s false fd), (s, handler s true fd)]
  | .enter t :: _ => [(t, enterBody t)]
  | .setState t :: rest => [(t, rest)]
  | op :: rest => (s, rest) :: (failure op).toList.map fun k => (s, k)

/-- What can be left of a handler: the rest of a block that begins in the state, or the rest of a
failure exit of its statements. -/
def points (s : State) : List (List Op) :=
  let blocks := enterBody s :: fds.flatMap fun fd => [handler s false fd, handler s true fd]
  let failures := blocks.flatMap fun block => block.flatMap fun op => match op with
    | .enter _ => []
    | op => (failure op).toList
  (blocks ++ failures).flatMap List.tails

theorem successors_points (s : State) : ∀ k ∈ points s, ∀ p ∈ successors s k, p.2 ∈ points p.1 := by
  cases s <;> decide +kernel

theorem next_successors {c c' : Client} {ok : Bool} (h : next c ok = some c') :
    (c'.state, c'.code) ∈ successors c.state c.code := by
  rw [next] at h
  cases hCode : c.code with
  | nil =>
    simp only [hCode] at h
    split at h
    · split at h
      · cases h
      · cases h
        simp [successors]
    · split at h
      · rename_i fd batch _
        cases h
        cases fd <;> cases c.adapter <;> simp [successors, fds, consume]
      · cases h
  | cons op rest =>
    simp only [hCode] at h
    cases h
    have hExit : (exec c ok op rest).code = rest ∨
        failure op = some (exec c ok op rest).code := by
      cases hExit : exit c ok op with
      | none => exact .inl (by rw [exec, hExit]; rfl)
      | some k => exact .inr (by rw [exec, hExit, exit_failure hExit]; rfl)
    cases op with
    | enter t => simp [successors, exec, exit, effect]
    | setState t => simp [successors, exec, exit, effect]
    | _ =>
      simp only [successors, List.mem_cons]
      rcases hExit with hExit | hExit
      · left
        rw [hExit]
        rfl
      · right
        rw [hExit]
        exact List.mem_singleton.mpr rfl

/-- What a step can do to the thread and to the link. -/
theorem step_cases {c c' : Client} {l : Label} (h : step c l = some c') :
    (∃ ok, l = .thread ok ∧ next c ok = some c') ∨
      (∃ p, c.peripheral = some p ∧ p.connected ∧ c' = { c with
        peripheral := some { p with connected := false }
        workEvent := c.workEvent || p.onDisconnected }) ∨
      (c'.state = c.state ∧ c'.code = c.code ∧ c'.peripheral = c.peripheral ∧
        (c.workEvent → c'.workEvent)) := by
  cases l with
  | thread ok => exact .inl ⟨ok, rfl, h⟩
  | drop =>
    right; left
    simp only [step] at h
    split at h
    · rename_i p hp
      split at h
      · rename_i hUp
        cases h
        exact ⟨p, hp, hUp, rfl⟩
      · cases h
    · cases h
  | poll fds | pollFailed | found | foundSignal | notified payload | expire =>
    right; right
    simp only [step] at h
    split at h <;> cases h
    simp
  | grant | sendFailed | stop =>
    right; right
    cases h
    simp

theorem step_points {c c' : Client} {l : Label} (hPoint : c.code ∈ points c.state)
    (h : step c l = some c') : c'.code ∈ points c'.state := by
  rcases step_cases h with ⟨ok, -, hNext⟩ | ⟨p, -, -, rfl⟩ | ⟨hState, hCode, -, -⟩
  · exact successors_points _ _ hPoint _ (next_successors hNext)
  · exact hPoint
  · rw [hState, hCode]
    exact hPoint

end BleClient

end BmsBridge
