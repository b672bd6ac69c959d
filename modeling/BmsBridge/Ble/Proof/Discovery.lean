import BmsBridge.Ble.Proof.Sharing

/-! The clients' discoveries.  One that runs belongs to the holder of the slot, unless its client has
been stopped in the middle of it. -/

namespace BmsBridge

namespace BleClient

/-! ### One client -/

/-- What can be left of a handler before `scan_start`, once there is an adapter. -/
def preparing : List (List Op) :=
  [[.resetMatch, .watchScan, .scanStart, .armTimer .scanTimeout],
    [.watchScan, .scanStart, .armTimer .scanTimeout], [.scanStart, .armTimer .scanTimeout]]

/-- What can be left of a handler while the discovery runs. -/
def discovering : List (List Op) :=
  [[.armTimer .scanTimeout], [],
    [.takeMatch, .disarmTimer, .scanStop, .unwatchScan, .adoptMatch, .enter .connect],
    [.disarmTimer, .scanStop, .unwatchScan, .adoptMatch, .enter .connect],
    [.scanStop, .unwatchScan, .adoptMatch, .enter .connect],
    [.scanStop, .unwatchScan, .enter .backoff]]

theorem points_scanStart (s : State) : ∀ k ∈ points s, k.head? = some .scanStart →
    s = .scan ∧ k = [.scanStart, .armTimer .scanTimeout] := by
  cases s <;> decide +kernel

theorem successors_preparing (s : State) : ∀ k ∈ points s, ∀ p ∈ successors s k,
    p.2 ∈ preparing → k.head? = some .needAdapter ∨
      (k ∈ preparing ∧ (k.head? = some .resetMatch ∨ k.head? = some .watchScan)) := by
  cases s <;> decide +kernel

/-- A client discovers only in `Scan`, through an adapter that it has. -/
structure Discovery (c : Client) : Prop where
  prepared : c.code ∈ preparing → c.adapter
  running : c.scanning → c.state = .scan ∧ c.adapter ∧ c.code ∈ discovering

theorem Discovery.initial : Discovery {} := ⟨by decide, nofun⟩

/-- The thread takes up the stop event in the middle of its discovery. -/
def Client.StopsScan (c : Client) : Prop :=
  c.scanning ∧ c.code = [] ∧ c.batch.head? = some .stop
  deriving Decidable

theorem handler_discovering (adapter : Bool) {fd : Fd} (h : fd ≠ .stop) :
    handler .scan adapter fd ∈ discovering := by
  cases fd with
  | stop => exact absurd rfl h
  | _ => cases adapter <;> decide

section Thread

variable {c c' : Client} {ok : Bool} (hDiscovery : Discovery c) (hPoint : c.code ∈ points c.state)
  (h : next c ok = some c')

include hDiscovery hPoint h

/-- The thread takes up an event; the stop event would leave the discovery running. -/
theorem Discovery.dispatch (hCode : c.code = []) (hStop : ¬c.StopsScan) : Discovery c' := by
  have hNot : c'.code ∉ preparing := by
    intro hMem
    have hOld := successors_preparing _ _ hPoint _ (next_successors h) hMem
    rw [hCode] at hOld
    simp at hOld
  refine ⟨fun hMem => absurd hMem hNot, ?_⟩
  cases next_dispatch hCode h with
  | exit hStopping hc =>
    subst hc
    exact hDiscovery.running
  | handle fd batch hRun hBatch hc =>
    intro hScanning
    have hOld : c.scanning := by
      rw [hc] at hScanning
      cases fd <;> exact hScanning
    obtain ⟨hState, hAdapter, -⟩ := hDiscovery.running hOld
    have hfd : fd ≠ .stop := by
      rintro rfl
      exact hStop ⟨hOld, hCode, by rw [hBatch]; rfl⟩
    rw [hc]
    refine ⟨?_, ?_, ?_⟩
    · rw [← hState]
      exact (consume_state c fd).1
    · rw [← hAdapter]
      exact (consume_state c fd).2
    · simp only [hState]
      exact handler_discovering _ hfd

theorem Discovery.exec_prepared {op : Op} {rest : List Op} (hCode : c.code = op :: rest)
    (hMem : c'.code ∈ preparing) : c'.adapter := by
  rcases successors_preparing _ _ hPoint _ (next_successors h) hMem with hHead | ⟨hOld, hHead | hHead⟩
  all_goals
    rw [hCode] at hHead
    obtain rfl := Option.some.inj hHead
    obtain rfl := next_exec hCode h
  · by_cases hAdapter : c.adapter
    · exact hAdapter
    · have hExit : (exec c ok .needAdapter rest).code = [.enter .backoff] := by
        simp [exec, exit, hAdapter]
      rw [hExit] at hMem
      exact absurd hMem (by decide)
  · exact hDiscovery.prepared hOld
  · exact hDiscovery.prepared hOld

theorem Discovery.exec_running {op : Op} {rest : List Op} (hCode : c.code = op :: rest)
    (hScanning : c'.scanning) : c'.state = .scan ∧ c'.adapter ∧ c'.code ∈ discovering := by
  obtain rfl := next_exec hCode h
  by_cases hStart : op = .scanStart
  · subst hStart
    obtain ⟨hState, hRest⟩ := points_scanStart _ _ hPoint (by rw [hCode]; rfl)
    have hAdapter := hDiscovery.prepared (by rw [hRest]; decide)
    cases ok with
    | true =>
      rw [hCode] at hRest
      obtain ⟨-, rfl⟩ := List.cons.inj hRest
      exact ⟨hState, hAdapter, List.mem_cons_self ..⟩
    | false =>
      have hOld : c.scanning := by simpa [exec, effect] using hScanning
      have hMem := (hDiscovery.running hOld).2.2
      rw [hRest] at hMem
      exact absurd hMem (by decide)
  · have hOld : c.scanning := by
      cases op with
      | scanStart => exact absurd rfl hStart
      | scanStop => exact (Bool.and_eq_true_iff.mp hScanning).1
      | _ => exact hScanning
    obtain ⟨hState, hAdapter, hMem⟩ := hDiscovery.running hOld
    rw [hCode] at hMem
    simp only [discovering, List.mem_cons, List.not_mem_nil, List.cons.injEq, or_false,
      reduceCtorEq, false_or] at hMem
    rcases hMem with ⟨rfl, rfl⟩ | ⟨rfl, rfl⟩ | ⟨rfl, rfl⟩ | ⟨rfl, rfl⟩ | ⟨rfl, rfl⟩
    · exact ⟨hState, hAdapter, by simp [exec, exit, discovering]⟩
    · refine ⟨hState, hAdapter, ?_⟩
      cases hMatch : c.scanMatch <;> simp [exec, exit, hMatch, discovering]
    · exact ⟨hState, hAdapter, by simp [exec, exit, discovering]⟩
    all_goals simp [exec, effect, hAdapter] at hScanning

theorem Discovery.next (hStop : ¬c.StopsScan) : Discovery c' := by
  cases hCode : c.code with
  | nil => exact hDiscovery.dispatch hPoint h hCode hStop
  | cons op rest =>
    exact ⟨hDiscovery.exec_prepared hPoint h hCode, hDiscovery.exec_running hPoint h hCode⟩

end Thread

theorem Discovery.same {c c' : Client} (hDiscovery : Discovery c) (hState : c'.state = c.state)
    (hCode : c'.code = c.code) (hAdapter : c'.adapter = c.adapter)
    (hScanning : c'.scanning = c.scanning) : Discovery c' := by
  obtain ⟨hPrepared, hRunning⟩ := hDiscovery
  constructor
  · rw [hCode, hAdapter]
    exact hPrepared
  · rw [hCode, hAdapter, hState, hScanning]
    exact hRunning

/-- A client whose discovery runs has the slot. -/
theorem Discovery.phase {c : Client} (hDiscovery : Discovery c) (h : c.scanning) :
    phaseAt c.state c.code = .holds := by
  obtain ⟨hState, -, hMem⟩ := hDiscovery.running h
  rw [hState, phaseAt, if_neg]
  intro hCode
  rw [hCode] at hMem
  exact absurd hMem (by decide)

/-! ### All clients -/

variable {ι : Type} [DecidableEq ι]

/-- The step does not make a client take up its stop event in the middle of its discovery. -/
def System.SparesScans (s : System ι) : SystemLabel ι → Prop
  | .client i (.thread _) => ¬(s.clients i).StopsScan
  | _ => True

instance (s : System ι) : DecidablePred s.SparesScans
  | .client _ (.thread _) => inferInstanceAs (Decidable (¬_))
  | .client _ (.poll _) | .client _ .pollFailed | .client _ .found | .client _ .foundSignal
  | .client _ .drop | .client _ (.notified _) | .client _ .expire | .client _ .grant
  | .client _ .sendFailed | .client _ .stop | .grant _ => inferInstanceAs (Decidable True)

theorem discovery_step {s s' : System ι} {l : SystemLabel ι} (hDisciplined : Disciplined s)
    (hDiscovery : ∀ i, Discovery (s.clients i)) (hSpares : s.SparesScans l)
    (h : System.step s l = some s') (j : ι) : Discovery (s'.clients j) := by
  cases System.step_cases h with
  | thread i ok c hFree hNext =>
    by_cases hj : j = i
    · subst hj
      simp only [Function.update_self]
      exact (hDiscovery j).next (hDisciplined.sound j).points hNext hSpares
    · simp only [Function.update_of_ne hj]
      exact hDiscovery j
  | outside i l c hThread hGrant hStep =>
    obtain ⟨hState, hCode, -, hAdapter, hScanning, -⟩ := step_outside hThread hGrant hStep
    by_cases hj : j = i
    · subst hj
      simp only [System.setClient, Function.update_self]
      exact (hDiscovery j).same hState hCode hAdapter hScanning
    · simp only [System.setClient, Function.update_of_ne hj]
      exact hDiscovery j
  | grant i k hGrant =>
    by_cases hj : j = k
    · subst hj
      simp only [Function.update_self]
      exact (hDiscovery j).same rfl rfl rfl rfl
    · simp only [Function.update_of_ne hj]
      exact hDiscovery j

/-- Only the holder of the slot discovers, in every run that stops no client in the middle of its
discovery. -/
theorem only_holder_discovers {s : System ι} {labels : List (SystemLabel ι)}
    (hMeets : Runs.Meets System.step System.SparesScans {} labels)
    (hRun : Runs.run System.step {} labels = some s) {i : ι} (h : (s.clients i).scanning) :
    s.coordinator.holder = some i := by
  have hInvariant : Disciplined s ∧ ∀ i, Discovery (s.clients i) := by
    refine Runs.invariant_of_meets (I := fun s => Disciplined s ∧ ∀ i, Discovery (s.clients i)) ?_
      ⟨Disciplined.initial, fun _ => Discovery.initial⟩ hMeets hRun
    rintro s l s' ⟨hDisciplined, hDiscovery⟩ hSpares hStep
    exact ⟨hDisciplined.step hStep, discovery_step hDisciplined hDiscovery hSpares hStep⟩
  exact hInvariant.1.orderly.holds i ((hInvariant.2 i).phase h)

/-- Two clients start, the first hears of its grant, and its discovery begins. -/
def firstScans : List (SystemLabel Bool) :=
  startUp false ++ startUp true ++ [.grant false, .client false (.poll [.slot])] ++
    List.replicate 8 (.client false (.thread true))

theorem only_holder_discovers_first : ∃ s : System Bool,
    Runs.run System.step {} firstScans = some s ∧ (s.clients false).scanning ∧
      s.coordinator.holder = some false := by
  refine ⟨_, rfl, rfl, ?_⟩
  have hMeets : Runs.Meets System.step System.SparesScans ({} : System Bool) firstScans := by
    decide +kernel
  exact only_holder_discovers hMeets rfl rfl

/-- The slot goes to the second client while the first, which is being stopped, still discovers. -/
theorem stopped_client_discovers : ¬∀ (labels : List (SystemLabel Bool)) (s : System Bool),
    Runs.run System.step {} labels = some s → ∀ i, (s.clients i).scanning →
      s.coordinator.holder = some i := by
  intro h
  have hHolder := h (firstScans ++ [.client false .stop, .client false (.poll [.stop])] ++
    List.replicate 4 (.client false (.thread true))) _ rfl false rfl
  cases hHolder

end BleClient

end BmsBridge
