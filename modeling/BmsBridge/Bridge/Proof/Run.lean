import BmsBridge.Bridge.Proof.Answer
import BmsBridge.Bridge.Proof.Config
import BmsBridge.Bridge.Trace
import BmsBridge.Pylontech.Proof.Receive

/-! The bridge answers the inverter as the events of its run say, and answers nothing else. -/

namespace BmsBridge

open Words

/-! ### One report -/

section Reports

variable (h : BmsHandler) (interval now : Int) (p : Parsed)

/-- The report holds telemetry, and the interval since the last is over. -/
def BmsHandler.applies : Prop :=
  p.telemetry.isSome ∧ interval ≤ now - h.lastStateUpdate

theorem onParsed_connected : (h.onParsed interval now p).state.connected = h.state.connected := by
  rcases p with ⟨_ | t, _ | settings⟩
  · rfl
  · rfl
  all_goals
    simp only [BmsHandler.onParsed, BmsHandler.onTelemetry, SharedState.applySettings]
    split <;> rfl

theorem onParsed_settings : (h.onParsed interval now p).state.settings.isSome =
    (p.settings.isSome || h.state.settings.isSome) := by
  rcases p with ⟨_ | t, _ | settings⟩
  · rfl
  · rfl
  · simp only [BmsHandler.onParsed, BmsHandler.onTelemetry]
    split <;> rfl
  · rfl

variable {h interval now p}

theorem onParsed_applied (hApplies : h.applies interval now p) :
    (h.onParsed interval now p).state.cells.isSome ∧
      (h.onParsed interval now p).state.pack.isSome ∧
      (h.onParsed interval now p).state.updatedAt = now ∧
      (h.onParsed interval now p).lastStateUpdate = now := by
  obtain ⟨hTelemetry, hDue⟩ := hApplies
  rcases p with ⟨_ | t, _ | settings⟩
  · cases hTelemetry
  · cases hTelemetry
  all_goals
    simp [BmsHandler.onParsed, BmsHandler.onTelemetry, if_pos hDue, SharedState.applyTelemetry,
      SharedState.applySettings]

theorem onParsed_kept (hKept : ¬h.applies interval now p) :
    (h.onParsed interval now p).state.cells = h.state.cells ∧
      (h.onParsed interval now p).state.pack = h.state.pack ∧
      (h.onParsed interval now p).state.updatedAt = h.state.updatedAt ∧
      (h.onParsed interval now p).lastStateUpdate = h.lastStateUpdate := by
  rcases p with ⟨_ | t, _ | settings⟩
  · exact ⟨rfl, rfl, rfl, rfl⟩
  · exact ⟨rfl, rfl, rfl, rfl⟩
  all_goals
    have hEarly : ¬interval ≤ now - h.lastStateUpdate := fun hDue => hKept ⟨rfl, hDue⟩
    simp [BmsHandler.onParsed, BmsHandler.onTelemetry, if_neg hEarly, SharedState.applySettings]

end Reports

/-! ### The state follows the events -/

section Tracking

variable {configs : List BatteryConfig} {start : Int} {past : List Event}

/-- A battery's handler has what the events have brought it. -/
structure HandlerTracks (configs : List BatteryConfig) (start : Int) (past : List Event)
    (battery : Nat) (h : BmsHandler) : Prop where
  connected : h.state.connected = connectedIn battery past
  settings : h.state.settings.isSome = hasSettings battery past
  cells : h.state.cells.isSome = (lastApply configs start battery past).isSome
  pack : h.state.pack.isSome = (lastApply configs start battery past).isSome
  updatedAt : h.state.updatedAt = (lastApply configs start battery past).getD 0
  lastStateUpdate : h.lastStateUpdate = (lastApply configs start battery past).getD 0

structure Tracks (configs : List BatteryConfig) (start : Int) (past : List Event) (s : Bridge) :
    Prop where
  now : s.now = clock start past
  rxBuf : s.rxBuf = rxAfter past
  handlers : ∀ i, HandlerTracks configs start past i (s.handlers i)

theorem HandlerTracks.parsed {i : Nat} {h : BmsHandler}
    (hTracks : HandlerTracks configs start past i h) (p : Parsed) :
    HandlerTracks configs start (.parsed i p :: past) i
      (h.onParsed (stateUpdateInterval configs i) (clock start past) p) := by
  have hConnected := onParsed_connected h (stateUpdateInterval configs i) (clock start past) p
  rw [hTracks.connected] at hConnected
  have hSettings := onParsed_settings h (stateUpdateInterval configs i) (clock start past) p
  rw [hTracks.settings, show (p.settings.isSome || hasSettings i past) =
    hasSettings i (.parsed i p :: past) by simp [hasSettings]] at hSettings
  by_cases hApplies : h.applies (stateUpdateInterval configs i) (clock start past) p
  · have hNow : lastApply configs start i (.parsed i p :: past) = some (clock start past) := by
      obtain ⟨hTelemetry, hDue⟩ := hApplies
      rw [hTracks.lastStateUpdate] at hDue
      exact if_pos ⟨rfl, hTelemetry, hDue⟩
    obtain ⟨hCells, hPack, hUpdated, hLast⟩ := onParsed_applied hApplies
    refine ⟨hConnected, hSettings, ?_, ?_, ?_, ?_⟩ <;> rw [hNow]
    · exact hCells
    · exact hPack
    · exact hUpdated
    · exact hLast
  · have hSame : lastApply configs start i (.parsed i p :: past) =
        lastApply configs start i past := by
      apply if_neg
      rintro ⟨-, hTelemetry, hDue⟩
      rw [← hTracks.lastStateUpdate] at hDue
      exact hApplies ⟨hTelemetry, hDue⟩
    obtain ⟨hCells, hPack, hUpdated, hLast⟩ := onParsed_kept hApplies
    refine ⟨hConnected, hSettings, ?_, ?_, ?_, ?_⟩ <;> rw [hSame]
    · rw [hCells, hTracks.cells]
    · rw [hPack, hTracks.pack]
    · rw [hUpdated, hTracks.updatedAt]
    · rw [hLast, hTracks.lastStateUpdate]

theorem HandlerTracks.congr {i : Nat} {h : BmsHandler} {e : Event}
    (hTracks : HandlerTracks configs start past i h)
    (hConnected : connectedIn i (e :: past) = connectedIn i past)
    (hSettings : hasSettings i (e :: past) = hasSettings i past)
    (hLast : lastApply configs start i (e :: past) = lastApply configs start i past) :
    HandlerTracks configs start (e :: past) i h := by
  obtain ⟨h1, h2, h3, h4, h5, h6⟩ := hTracks
  constructor <;> simpa only [hConnected, hSettings, hLast]

theorem HandlerTracks.parsed_other {i j : Nat} (hNe : j ≠ i) {h : BmsHandler}
    (hTracks : HandlerTracks configs start past i h) (p : Parsed) :
    HandlerTracks configs start (.parsed j p :: past) i h := by
  apply hTracks.congr
  · rfl
  · simp [hasSettings, hNe]
  · simp [lastApply, hNe]

theorem HandlerTracks.setConnected {i : Nat} {h : BmsHandler} {e : Event}
    (hTracks : HandlerTracks configs start past i h)
    (hSettings : hasSettings i (e :: past) = hasSettings i past)
    (hLast : lastApply configs start i (e :: past) = lastApply configs start i past) :
    HandlerTracks configs start (e :: past) i
      { h with state := h.state.setConnected (connectedIn i (e :: past)) } := by
  obtain ⟨-, h2, h3, h4, h5, h6⟩ := hTracks
  constructor
  · rfl
  all_goals simpa only [hSettings, hLast]

theorem step_rx {s s' : Bridge} {data : List UInt8} {sent : List (List UInt8)}
    (hStep : step configs s (.rx data) = .ok (s', sent)) :
    (onBytes (buildAddressMap configs) (s.batteries configs) s.now s.rxBuf data).1 = .ok sent ∧
      s' = { s with rxBuf :=
        (onBytes (buildAddressMap configs) (s.batteries configs) s.now s.rxBuf data).2 } := by
  obtain ⟨new, hSent, hStep⟩ := Faults.bind_ok hStep
  cases hStep
  exact ⟨hSent, rfl⟩

/-- Frames that come in as one chunk, where nothing is left of earlier bytes. -/
theorem step_rx_frames {s : Bridge} {fs : List PylontechFrame} {sent : List (List UInt8)}
    (hEmpty : s.rxBuf = []) (hInfo : ∀ f ∈ fs, f.info.length ≤ 1024)
    (hSent : fs.foldl (Faults.collect
      (respond (buildAddressMap configs) (s.batteries configs) s.now)) (.ok []) = .ok sent) :
    step configs s (.rx (fs.flatMap buildPylontech)) = .ok (s, sent) := by
  obtain ⟨now, handlers, rxBuf⟩ := s
  subst hEmpty
  have hBytes : onBytes (buildAddressMap configs) (Bridge.batteries ⟨now, handlers, []⟩ configs) now
      [] (fs.flatMap buildPylontech) = (.ok sent, []) := by
    rw [onBytes, appendRx, List.nil_append, ite_self, ← hSent]
    refine drain_flatMap_buildPylontech _ _ fs fun f hf => ?_
    have := hInfo f hf
    rw [length_buildPylontech]
    omega
  simp only [step, hBytes]
  rfl

theorem Tracks.initial : Tracks configs start [] { now := start } where
  now := rfl
  rxBuf := rfl
  handlers := fun _ => ⟨rfl, rfl, rfl, rfl, rfl, rfl⟩

theorem Tracks.step {s s' : Bridge} {e : Event} {sent : List (List UInt8)}
    (hTracks : Tracks configs start past s) (hStep : step configs s e = .ok (s', sent)) :
    Tracks configs start (e :: past) s' := by
  obtain ⟨hNow, hBuf, hHandlers⟩ := hTracks
  cases e with
  | elapse ns =>
    cases hStep
    exact ⟨congrArg (· + (ns : Int)) hNow, hBuf, fun i => (hHandlers i).congr rfl rfl rfl⟩
  | rx data =>
    obtain ⟨-, rfl⟩ := step_rx hStep
    refine ⟨hNow, ?_, fun i => (hHandlers i).congr rfl rfl rfl⟩
    rw [onBytes_eq, hBuf]
    rfl
  | connected j =>
    cases hStep
    refine ⟨hNow, hBuf, fun i => ?_⟩
    by_cases hij : i = j
    · subst hij
      rw [Bridge.onHandler_same]
      simpa [BmsHandler.onConnected, connectedIn] using
        (hHandlers i).setConnected (e := .connected i) rfl rfl
    · rw [Bridge.onHandler_other s _ hij]
      exact (hHandlers i).congr (by simp [connectedIn, Ne.symm hij]) rfl rfl
  | disconnected j =>
    cases hStep
    refine ⟨hNow, hBuf, fun i => ?_⟩
    by_cases hij : i = j
    · subst hij
      rw [Bridge.onHandler_same]
      simpa [BmsHandler.onDisconnected, connectedIn] using
        (hHandlers i).setConnected (e := .disconnected i) rfl rfl
    · rw [Bridge.onHandler_other s _ hij]
      exact (hHandlers i).congr (by simp [connectedIn, Ne.symm hij]) rfl rfl
  | parsed j p =>
    cases hStep
    refine ⟨hNow, hBuf, fun i => ?_⟩
    by_cases hij : i = j
    · subst hij
      rw [Bridge.onHandler_same, hNow]
      exact (hHandlers i).parsed p
    · rw [Bridge.onHandler_other s _ hij]
      exact (hHandlers i).parsed_other (Ne.symm hij) p

theorem run_cons_ok {e : Event} {s' : Bridge} {sent : List (List UInt8)}
    (h : run configs start (e :: past) = .ok (s', sent)) :
    ∃ s old new, run configs start past = .ok (s, old) ∧ BmsBridge.step configs s e = .ok (s', new) ∧
      sent = old ++ new := by
  obtain ⟨⟨s, old⟩, hPast, h⟩ := Faults.bind_ok h
  obtain ⟨⟨s'', new⟩, hStep, h⟩ := Faults.bind_ok h
  cases h
  exact ⟨s, old, new, hPast, hStep, rfl⟩

theorem run_cons {e : Event} {s s' : Bridge} {old new : List (List UInt8)}
    (hPast : run configs start past = .ok (s, old))
    (hStep : BmsBridge.step configs s e = .ok (s', new)) :
    run configs start (e :: past) = .ok (s', old ++ new) := by
  rw [run, hPast]
  show (BmsBridge.step configs s e >>= fun r => _) = _
  rw [hStep]
  rfl

theorem Tracks.run {s : Bridge} {sent : List (List UInt8)}
    (hRun : run configs start past = .ok (s, sent)) : Tracks configs start past s := by
  induction past generalizing s sent with
  | nil =>
    cases hRun
    exact Tracks.initial
  | cons e past ih =>
    obtain ⟨s, old, new, hPast, hStep, rfl⟩ := run_cons_ok hRun
    exact (ih hPast).step hStep

/-- The inverter's test of a battery's state says what the events say. -/
theorem Tracks.live {s : Bridge} (hTracks : Tracks configs start past s) (i : Nat) :
    (∃ cells pack lim, Ready (s.handlers i).state s.now cells pack lim) ↔
      live configs start past i := by
  rw [ready_iff]
  obtain ⟨hConnected, hSettings, hCells, hPack, hUpdated, -⟩ := hTracks.handlers i
  cases hLast : lastApply configs start i past with
  | none =>
    rw [hLast] at hCells
    simp [SharedState.isFresh, BmsBridge.live, hCells, hLast]
  | some t =>
    rw [hLast] at hCells hPack hUpdated
    simp [SharedState.isFresh, BmsBridge.live, hConnected, hSettings, hCells, hPack, hUpdated, hLast,
      hTracks.now, and_comm]
    exact and_left_comm

end Tracking

/-! ### One frame -/

def Echoes (f : PylontechFrame) (resp : List UInt8) : Prop :=
  ∃ frame, resp = buildPylontech frame ∧ frame.adr = f.adr

theorem buildResponse_ok {f : PylontechFrame} {cells : JkCellInfo} {pack : JkPackInfo}
    {lim : JkSettings} {resp : Option (List UInt8)}
    (h : buildResponse f cells pack lim = .ok resp) :
    (f.cid2 ∉ [0x42, 0x44, 0x47, 0x92] ∧ resp = none) ∨
      (f.cid2 ∈ [0x42, 0x44, 0x47, 0x92] ∧ ∃ bytes, resp = some bytes ∧ Echoes f bytes) := by
  rw [buildResponse] at h
  split at h
  · rename_i hCid
    cases hBytes : buildAnalogResponse f cells pack with
    | error fault =>
      rw [hBytes] at h
      cases h
    | ok bytes =>
      rw [hBytes] at h
      obtain ⟨cap, -, hResp⟩ := buildAnalogResponse_ok hBytes
      exact .inr ⟨by simp [hCid], bytes, (Except.ok.inj h).symm, _, hResp, rfl⟩
  · split at h
    · rename_i hCid
      exact .inr ⟨by simp [hCid], _, (Except.ok.inj h).symm, _, rfl, rfl⟩
    · split at h
      · rename_i hCid
        exact .inr ⟨by simp [hCid], _, (Except.ok.inj h).symm, _, rfl, rfl⟩
      · split at h
        · rename_i hCid
          exact .inr ⟨by simp [hCid], _, (Except.ok.inj h).symm, _, rfl, rfl⟩
        · exact .inl ⟨by simp [*], (Except.ok.inj h).symm⟩

/-- In an accepted configuration a slot's source is the battery that it shows. -/
theorem shownBattery_eq {path : String} {parse : CfgParse} {stale : Nat → BatteryLink}
    {cfg : AppConfig} (hAccept : loadConfig path parse stale = .ok cfg) {slot : Slot}
    (hSlot : slot ∈ buildAddressMap cfg.batteries) :
    shownBattery cfg.batteries slot = some slot.source := by
  obtain ⟨b, hOwner, hMirror, -, -⟩ := mem_buildAddressMap hSlot
  cases hMonitored : b.monitored with
  | true => simp [shownBattery, hOwner, Slot.source, hMirror, findMirror, hMonitored]
  | false =>
    obtain ⟨o, hFind, -⟩ := loadConfig_mirror hAccept (List.mem_of_getElem? hOwner) hMonitored
    have hSome : (cfg.batteries.findIdx? fun o => o.name = b.mirror).isSome := by
      have hName := List.find?_some hFind
      rw [List.findIdx?_isSome, List.any_eq_true]
      exact ⟨o, List.mem_of_find?_eq_some hFind, hName⟩
    obtain ⟨m, hm⟩ := Option.isSome_iff_exists.mp hSome
    simp [shownBattery, hOwner, Slot.source, hMirror, findMirror, hMonitored, hm]

/-- A decoded frame is answered if the events before it say so, and with its own address. -/
theorem respond_ok {path : String} {parse : CfgParse} {stale : Nat → BatteryLink}
    {cfg : AppConfig} (hAccept : loadConfig path parse stale = .ok cfg) {start : Int}
    {past : List Event} {s : Bridge} (hTracks : Tracks cfg.batteries start past s)
    {f : PylontechFrame} {resp : Option (List UInt8)}
    (h : respond (buildAddressMap cfg.batteries) (s.batteries cfg.batteries) s.now f = .ok resp) :
    (answerable cfg.batteries start past f = false ∧ resp = none) ∨
      (answerable cfg.batteries start past f = true ∧ ∃ bytes, resp = some bytes ∧ Echoes f bytes) := by
  by_cases hBase : f.adr < kBaseAddress
  · rw [respond, if_pos hBase] at h
    exact .inl ⟨by simp [answerable, UInt8.not_le.mpr hBase], (Except.ok.inj h).symm⟩
  cases hSlot : (buildAddressMap cfg.batteries)[(f.adr - kBaseAddress).toNat]? with
  | none =>
    rw [respond, if_neg hBase, hSlot] at h
    refine .inl ⟨?_, (Except.ok.inj h).symm⟩
    rw [answerable, hSlot]
    simp
  | some slot =>
    have hMem := List.mem_of_getElem? hSlot
    have hLive := hTracks.live slot.source
    have hAnswerable : answerable cfg.batteries start past f ↔
        f.cid2 ∈ [0x42, 0x44, 0x47, 0x92] ∧ live cfg.batteries start past slot.source := by
      rw [answerable, hSlot, Option.bind_some, shownBattery_eq hAccept hMem, Option.any_some,
        decide_eq_true_iff]
      exact and_iff_right (UInt8.not_lt.mp hBase)
    by_cases hReady : live cfg.batteries start past slot.source
    · obtain ⟨cells, pack, lim, hReady'⟩ := hLive.mpr hReady
      obtain ⟨-, -, -, -, hNe⟩ := mem_buildAddressMap hMem
      rw [respond_ready hBase hSlot hReady', answer_eq fun h0 => hNe (by rw [h0]; rfl)] at h
      rcases buildResponse_ok h with ⟨hCid, hResp⟩ | ⟨hCid, hResp⟩
      · left
        exact ⟨Bool.eq_false_iff.mpr fun hYes => hCid (hAnswerable.mp hYes).1, hResp⟩
      · right
        exact ⟨hAnswerable.mpr ⟨hCid, hReady⟩, hResp⟩
    · left
      rw [respond_not_ready hBase hSlot fun hYes => hReady (hLive.mp hYes)] at h
      refine ⟨Bool.eq_false_iff.mpr fun hYes => ?_, (Except.ok.inj h).symm⟩
      exact hReady (hAnswerable.mp hYes).2

/-! ### Whole runs -/

/-- The frames that get an answer, each with the events before it. -/
def owed (configs : List BatteryConfig) (start : Int) (past : List Event) :
    List (List Event × PylontechFrame) :=
  (decodedIn past).filter fun p => answerable configs start p.1 p.2

theorem rx_answers {path : String} {parse : CfgParse} {stale : Nat → BatteryLink}
    {cfg : AppConfig} (hAccept : loadConfig path parse stale = .ok cfg) {start : Int}
    {past : List Event} {s s' : Bridge} (hTracks : Tracks cfg.batteries start past s)
    {data : List UInt8} {new : List (List UInt8)}
    (hStep : step cfg.batteries s (.rx data) = .ok (s', new)) :
    List.Forall₂ (fun p resp => Echoes p.2 resp)
      (((Drain.frames (tryParsePylontech ·) (appendRx (rxAfter past) data)).map fun f =>
        (past, f)).filter fun p => answerable cfg.batteries start p.1 p.2) new := by
  obtain ⟨hSent, -⟩ := step_rx hStep
  rw [onBytes_eq, hTracks.rxBuf] at hSent
  obtain ⟨sent, rfl, hAnswers⟩ := Faults.foldl_collect_ok
    (fun f _ resp hResp => respond_ok hAccept hTracks hResp) hSent
  rw [List.filter_map, List.forall₂_map_left_iff]
  exact hAnswers

/-- Over a whole run of an accepted configuration the responses sent are one for each decoded frame
that is to be answered, in order, each to the address of its frame. -/
theorem run_answers {path : String} {parse : CfgParse} {stale : Nat → BatteryLink}
    {cfg : AppConfig} (hAccept : loadConfig path parse stale = .ok cfg) {start : Int}
    {past : List Event} {s : Bridge} {sent : List (List UInt8)}
    (hRun : run cfg.batteries start past = .ok (s, sent)) :
    List.Forall₂ (fun p resp => Echoes p.2 resp) (owed cfg.batteries start past) sent := by
  induction past generalizing s sent with
  | nil =>
    cases hRun
    exact .nil
  | cons e past ih =>
    obtain ⟨s, old, new, hPast, hStep, rfl⟩ := run_cons_ok hRun
    have hOld := ih hPast
    cases e with
    | rx data =>
      rw [owed, decodedIn, List.filter_append]
      exact List.rel_append hOld (rx_answers hAccept (Tracks.run hPast) hStep)
    | elapse ns | connected i | disconnected i | parsed i p =>
      cases hStep
      rw [List.append_nil]
      exact hOld

/-- A file with a monitored battery of 50 Ah and a reserve that mirrors it. -/
def mainAndReserve : CfgTree where
  inverter := some { uart := some "/dev/ttyUSB0" }
  batteries := [
    { title := some "main", type := some "bluetooth", address := some "C8:47:8C:E1:00:01"
      capacity := some 50, protocol := some "jk_bt" },
    { title := some "spare", type := some "reserve", address := some "none", capacity := some 40
      mirror := some "main" }]

/-- The battery connects and reports, and the inverter polls the two modules and a third address. -/
def pollingRun : List Event := [
  .rx ([{ adr := 2, cid2 := 0x44 }, { adr := 3, cid2 := 0x92 }, { adr := 4, cid2 := 0x44 }].flatMap
    buildPylontech),
  .parsed 0 { telemetry := some { cells := {}, pack := {} }, settings := some {} },
  .connected 0,
  .elapse 1000000000]

theorem run_answers_main_and_reserve : ∃ cfg s sent,
    loadConfig "bms_bridge.conf" (.tree mainAndReserve) (fun _ => .reserve) = .ok cfg ∧
      run cfg.batteries 0 pollingRun = .ok (s, sent) ∧ sent.length = 2 ∧
      List.Forall₂ (fun p resp => Echoes p.2 resp) (owed cfg.batteries 0 pollingRun) sent := by
  obtain ⟨cfg, hAccept, s, sent, hRun, hLen⟩ : ∃ cfg,
      loadConfig "bms_bridge.conf" (.tree mainAndReserve) (fun _ => .reserve) = .ok cfg ∧
        ∃ s sent, run cfg.batteries 0 pollingRun = .ok (s, sent) ∧ sent.length = 2 :=
    ⟨_, rfl, _, _, run_cons rfl (step_rx_frames rfl (by decide) rfl), rfl⟩
  exact ⟨cfg, s, sent, hAccept, hRun, hLen, run_answers hAccept hRun⟩

end BmsBridge
