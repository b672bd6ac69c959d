import BmsBridge.Bridge.Polled
import BmsBridge.Bridge.Proof.Limits
import BmsBridge.Pylontech.Proof.Master
import Mathlib.Data.List.Induction

/-! The module voltages that the inverter gets are the limits of a cell times a cell count.  That count
has been remembered from the analog frame before the limits, and the cells of the live telemetry may
be others. -/

namespace BmsBridge

open Words PylontechMasterProtocol

/-! ### One chunk -/

section Frames

variable {wireAdr : UInt8}

/-- The settings that limits come to with the cells remembered. -/
def limitSettings (limits : SystemParameterResponse × Nat) : JkSettings :=
  settingsOfSystemParam limits.1 (UInt8.ofNat limits.2)

variable (wireAdr) in
/-- What a frame does to the report, in the terms of the frames alone. -/
theorem onFrame_spec (out : Parsed) (count : UInt8) (f : PylontechFrame) :
    ((onFrame wireAdr (out, count) f).2.toNat = (analogCells wireAdr f).getD count.toNat) ∧
    ((onFrame wireAdr (out, count) f).1.telemetry.map (·.cells.voltagesMv.length) =
      (analogCells wireAdr f).or (out.telemetry.map (·.cells.voltagesMv.length))) ∧
    ((onFrame wireAdr (out, count) f).1.settings =
      ((systemParam wireAdr f).map (settingsOfSystemParam · count)).or out.settings) := by
  rw [onFrame, analogCells, systemParam]
  by_cases hAdr : f.adr = wireAdr
  · by_cases hAnalog : f.cid2 = 0x42
    · have hNot : ¬f.cid2 = 0x47 := by
        rw [hAnalog]
        decide
      simp only [hAdr, hAnalog, ne_eq, not_true_eq_false, ↓reduceIte, and_self]
      cases hRead : AnalogResponse.deserialize f.info with
      | mk ok a =>
        cases ok with
        | false => simp
        | true =>
          have hLe := AnalogResponse.length_cells_le hRead
          simp [telemetryOfAnalog, fillCellStats_voltages, toNat_countByte hLe]
    · simp only [hAdr, hAnalog, ne_eq, not_true_eq_false, ↓reduceIte, and_false]
      by_cases hParam : f.cid2 = 0x47
      · simp only [hParam, ↓reduceIte, and_self]
        cases hRead : SystemParameterResponse.deserialize f.info with
        | mk ok sp => cases ok <;> simp
      · simp [hParam]
  · simp [hAdr]

/-- The frames of a chunk, behind the frames `older` that have left the cell count. -/
theorem foldl_onFrame_spec {older : List PylontechFrame} {count : UInt8}
    (hCount : count.toNat = newestCells wireAdr older) (fs : List PylontechFrame) :
    ((fs.foldl (onFrame wireAdr) ({}, count)).2.toNat = newestCells wireAdr (fs.reverse ++ older)) ∧
    ((fs.foldl (onFrame wireAdr) ({}, count)).1.telemetry.map (·.cells.voltagesMv.length) =
      (fs.filterMap (analogCells wireAdr)).getLast?) ∧
    ((fs.foldl (onFrame wireAdr) ({}, count)).1.settings.or
        ((newestLimits wireAdr older).map limitSettings) =
      (newestLimits wireAdr (fs.reverse ++ older)).map limitSettings) := by
  induction fs using List.reverseRecOn with
  | nil => exact ⟨hCount, rfl, rfl⟩
  | append_singleton fs f ih =>
    rw [List.foldl_append, List.filterMap_append, List.reverse_append]
    simp only [List.foldl_cons, List.foldl_nil, List.reverse_singleton, List.nil_append,
      List.cons_append]
    generalize fs.foldl (onFrame wireAdr) ({}, count) = r at ih ⊢
    obtain ⟨out, now⟩ := r
    obtain ⟨hNow, hTelemetry, hSettings⟩ := ih
    simp only at hNow hTelemetry hSettings
    obtain ⟨hCount', hTelemetry', hSettings'⟩ := onFrame_spec wireAdr out now f
    refine ⟨?_, ?_, ?_⟩
    · rw [hCount', hNow, newestCells]
    · rw [hTelemetry', hTelemetry, List.getLast?_append]
      cases hCells : analogCells wireAdr f <;> simp [hCells]
    · rw [hSettings', Option.or_assoc, hSettings, newestLimits]
      cases systemParam wireAdr f with
      | none => rfl
      | some sp =>
        have hByte : UInt8.ofNat (newestCells wireAdr (fs.reverse ++ older)) = now := by
          rw [← hNow]
          exact UInt8.ofNat_toNat
        simp [limitSettings, hByte]

theorem newestCells_le (frames : List PylontechFrame) : newestCells wireAdr frames ≤ 255 := by
  induction frames with
  | nil => exact Nat.zero_le _
  | cons f older ih =>
    rw [newestCells, analogCells]
    split
    · cases hRead : AnalogResponse.deserialize f.info with
      | mk ok a =>
        cases ok with
        | false => exact ih
        | true => exact AnalogResponse.length_cells_le hRead
    · exact ih

theorem newestLimits_le {frames : List PylontechFrame} {sp : SystemParameterResponse} {cells : Nat}
    (h : newestLimits wireAdr frames = some (sp, cells)) : cells ≤ 255 := by
  induction frames with
  | nil => cases h
  | cons f older ih =>
    rw [newestLimits] at h
    split at h
    · cases h
      exact newestCells_le older
    · exact ih h

end Frames

/-! ### The battery's state follows the frames -/

section Tracking

variable {wireAdr : UInt8} {interval : Int}

/-- What a run has left of the frames received. -/
structure CellsTracked (wireAdr : UInt8) (interval : Int) (past : List PolledEvent)
    (b : PolledBattery) : Prop where
  adr : b.protocol.wireAdr = wireAdr
  rx : b.protocol.rx = []
  count : b.protocol.lastCellCount.toNat = newestCells wireAdr (receivedFrames past)
  settings : b.handler.state.settings =
    (newestLimits wireAdr (receivedFrames past)).map limitSettings
  cells : b.handler.state.cells.map (·.voltagesMv.length) =
    (shownCells wireAdr interval past).map Prod.snd
  last : b.handler.lastStateUpdate = ((shownCells wireAdr interval past).map Prod.fst).getD 0

/-- Every frame received fits the parser's `int`. -/
def FramesFit (past : List PolledEvent) : Prop :=
  ∀ f ∈ receivedFrames past, (buildPylontech f).length < 2147483648

instance (past : List PolledEvent) : Decidable (FramesFit past) :=
  inferInstanceAs (Decidable (∀ f ∈ receivedFrames past, _))

theorem onParsed_settings_eq (h : BmsHandler) (now : Int) (p : Parsed) :
    (h.onParsed interval now p).state.settings = p.settings.or h.state.settings := by
  obtain ⟨telemetry, settings⟩ := p
  cases settings with
  | some s => rfl
  | none =>
    cases telemetry with
    | none => rfl
    | some t =>
      simp only [BmsHandler.onParsed, BmsHandler.onTelemetry, Option.none_or]
      split <;> rfl

variable (interval) in
/-- Telemetry is applied, with its time, unless it comes too early. -/
theorem onParsed_telemetry (h : BmsHandler) (now : Int) (p : Parsed) :
    ((h.onParsed interval now p).state.cells, (h.onParsed interval now p).lastStateUpdate) =
      match p.telemetry with
      | some t =>
        if interval ≤ now - h.lastStateUpdate then (some t.cells, now)
        else (h.state.cells, h.lastStateUpdate)
      | none => (h.state.cells, h.lastStateUpdate) := by
  obtain ⟨telemetry, settings⟩ := p
  cases telemetry with
  | none => cases settings <;> rfl
  | some t =>
    by_cases hDue : interval ≤ now - h.lastStateUpdate
    · simp only [BmsHandler.onParsed, BmsHandler.onTelemetry, if_pos hDue]
      cases settings <;> rfl
    · simp only [BmsHandler.onParsed, BmsHandler.onTelemetry, if_neg hDue]
      cases settings <;> rfl

theorem feed_frames {p : PylontechMasterProtocol} (hRx : p.rx = []) {frames : List PylontechFrame}
    (hFits : ∀ f ∈ frames, (buildPylontech f).length < 2147483648) :
    p.feed (frames.flatMap buildPylontech) =
      ((frames.foldl (onFrame p.wireAdr) ({}, p.lastCellCount)).1,
        { wireAdr := p.wireAdr, lastCellCount :=
          (frames.foldl (onFrame p.wireAdr) ({}, p.lastCellCount)).2 }) := by
  rw [feed, hRx, List.nil_append, drain_flatMap_buildPylontech _ _ _ hFits]

theorem CellsTracked.received {past : List PolledEvent} {b : PolledBattery}
    (hTracked : CellsTracked wireAdr interval past b) (now : Int) {frames : List PylontechFrame}
    (hFits : ∀ f ∈ frames, (buildPylontech f).length < 2147483648) :
    CellsTracked wireAdr interval (.received now frames :: past)
      (b.step interval (.received now frames)) := by
  obtain ⟨hAdr, hRx, hCount, hSettings, hCells, hLast⟩ := hTracked
  obtain ⟨hCount', hTelemetry, hSettings'⟩ := foldl_onFrame_spec hCount frames
  rw [PolledBattery.step, PolledBattery.onBytes, feed_frames hRx hFits, hAdr]
  generalize frames.foldl (onFrame wireAdr) ({}, b.protocol.lastCellCount) = r at *
  have hApplied := onParsed_telemetry interval b.handler now r.1
  refine ⟨rfl, rfl, hCount', ?_, ?_, ?_⟩
  · rw [onParsed_settings_eq, hSettings, hSettings', receivedFrames]
  · have hShown := congrArg Prod.fst hApplied
    simp only at hShown
    rw [hShown, shownCells, ← hTelemetry, ← hLast]
    cases r.1.telemetry with
    | none => exact hCells
    | some t =>
      simp only [Option.map_some]
      split
      · rfl
      · exact hCells
  · have hShown := congrArg Prod.snd hApplied
    simp only at hShown
    rw [hShown, shownCells, ← hTelemetry, ← hLast]
    cases r.1.telemetry with
    | none => exact hLast
    | some t =>
      simp only [Option.map_some]
      split
      · rfl
      · exact hLast

theorem CellsTracked.run {past : List PolledEvent} (hFits : FramesFit past) :
    CellsTracked wireAdr interval past (PolledBattery.run wireAdr interval past) := by
  induction past with
  | nil => exact ⟨rfl, rfl, rfl, rfl, rfl, rfl⟩
  | cons e past ih =>
    cases e with
    | received now frames =>
      have hPast := ih fun f hf => hFits f (List.mem_append_right _ hf)
      exact hPast.received now fun f hf =>
        hFits f (List.mem_append_left _ (List.mem_reverse.mpr hf))
    | connected | disconnected =>
      obtain ⟨hAdr, -, hCount, hSettings, hCells, hLast⟩ := ih hFits
      exact ⟨hAdr, rfl, hCount, hSettings, hCells, hLast⟩

end Tracking

/-! ### What the inverter gets -/

/-- The limits of a slot, as its answers show them. -/
def shownLimits (slot : Slot) (capacity : Int32) (pack : JkPackInfo) (lim : JkSettings) :
    JkSettings :=
  slicedLimits slot.moduleCount (slotPack slot capacity pack lim).2

/-- The module voltages are the limits of a cell times `cells`, capped to a word. -/
structure LimitsMatch (cells : Nat) (lim : JkSettings) (sp : SystemParameterResponse)
    (cm : ChargeManagementResponse) : Prop where
  high : sp.moduleHighVoltageLimitMv.toNat = min 65535 (lim.cellOvpMv.toNat * cells)
  charge : cm.chargeVoltageLimitMv.toNat = min 65535 (lim.cellOvpMv.toNat * cells)
  low : sp.moduleLowVoltageLimitMv.toNat = min 65535 (lim.cellUvprMv.toNat * cells)
  discharge : cm.dischargeVoltageLimitMv.toNat = min 65535 (lim.cellUvprMv.toNat * cells)
  under : sp.moduleUnderVoltageLimitMv.toNat = min 65535 (lim.cellUvpMv.toNat * cells)

/-- Every slot of the battery answers 0x47 and 0x92, with module voltages for the live cells. -/
def AdvertisesLive (cells : JkCellInfo) (pack : JkPackInfo) (lim : JkSettings) : Prop :=
  ∀ (slot : Slot) (capacity : Int32) (req47 req92 : PylontechFrame), slot.moduleCount ≠ 0 →
    req47.cid2 = 0x47 → req92.cid2 = 0x92 →
    answer slot capacity cells pack lim req47 =
        .ok (some (buildSystemParamResponse req47 (shownLimits slot capacity pack lim))) ∧
      answer slot capacity cells pack lim req92 = .ok (some (buildChgmgmtResponse req92
        (slicedPack slot.moduleCount (slotPack slot capacity pack lim).1)
        (shownLimits slot capacity pack lim))) ∧
      LimitsMatch cells.voltagesMv.length lim
        (systemParameterResponse (shownLimits slot capacity pack lim))
        (chargeManagementResponse req92
          (slicedPack slot.moduleCount (slotPack slot capacity pack lim).1)
          (shownLimits slot capacity pack lim))

/-- A limit comes to the same with either cell count. -/
def SameModuleLimit (limitMv : UInt16) (n m : Nat) : Prop :=
  limitMv = 0 ∨ n = m ∨ (65535 ≤ limitMv.toNat * n ∧ 65535 ≤ limitMv.toNat * m)

theorem sameModuleLimit_iff (limitMv : UInt16) (n m : Nat) :
    min 65535 (limitMv.toNat * n) = min 65535 (limitMv.toNat * m) ↔ SameModuleLimit limitMv n m := by
  constructor
  · intro hSame
    by_cases hZero : limitMv = 0
    · exact .inl hZero
    · right
      have hPos : 0 < limitMv.toNat := by
        apply Nat.pos_of_ne_zero
        intro h
        exact hZero (UInt16.toNat_inj.mp h)
      by_cases hCapped : 65535 ≤ limitMv.toNat * n
      · exact .inr ⟨hCapped, by omega⟩
      · exact .inl (Nat.eq_of_mul_eq_mul_left hPos (by omega))
  · rintro (rfl | rfl | ⟨hn, hm⟩)
    · have hZero : (0 : UInt16).toNat = 0 := rfl
      rw [hZero, Nat.zero_mul, Nat.zero_mul]
    · rfl
    · omega

theorem shownLimits_spec (slot : Slot) (capacity : Int32) (pack : JkPackInfo) (lim : JkSettings) :
    (shownLimits slot capacity pack lim).cellOvpMv = lim.cellOvpMv ∧
      (shownLimits slot capacity pack lim).cellUvprMv = lim.cellUvprMv ∧
      (shownLimits slot capacity pack lim).cellUvpMv = lim.cellUvpMv ∧
      (shownLimits slot capacity pack lim).cellCount = lim.cellCount := by
  rw [shownLimits, slotPack]
  split <;> exact ⟨rfl, rfl, rfl, rfl⟩

/-- The inverter gets limits for the live cells exactly when the remembered count serves as well. -/
theorem advertisesLive_iff (cells : JkCellInfo) (pack : JkPackInfo) (lim : JkSettings) :
    AdvertisesLive cells pack lim ↔
      ∀ limitMv ∈ [lim.cellOvpMv, lim.cellUvprMv, lim.cellUvpMv],
        SameModuleLimit limitMv lim.cellCount.toNat cells.voltagesMv.length := by
  have hMatch (slot : Slot) (capacity : Int32) (req : PylontechFrame) (p : JkPackInfo) :
      LimitsMatch cells.voltagesMv.length lim
          (systemParameterResponse (shownLimits slot capacity pack lim))
          (chargeManagementResponse req p (shownLimits slot capacity pack lim)) ↔
        ∀ limitMv ∈ [lim.cellOvpMv, lim.cellUvprMv, lim.cellUvpMv],
          SameModuleLimit limitMv lim.cellCount.toNat cells.voltagesMv.length := by
    obtain ⟨hOvp, hUvpr, hUvp, hCount⟩ := shownLimits_spec slot capacity pack lim
    simp only [List.mem_cons, List.not_mem_nil, or_false, forall_eq_or_imp, forall_eq,
      ← sameModuleLimit_iff]
    constructor
    · rintro ⟨hHigh, -, hLow, -, hUnder⟩
      simp only [systemParameterResponse, hOvp, hUvpr, hUvp, hCount,
        toNat_moduleVoltageFromCell] at hHigh hLow hUnder
      exact ⟨hHigh, hLow, hUnder⟩
    · rintro ⟨hHigh, hLow, hUnder⟩
      constructor
      all_goals
        simp only [systemParameterResponse, chargeManagementResponse, hOvp, hUvpr, hUvp, hCount,
          toNat_moduleVoltageFromCell]
        assumption
  constructor
  · intro hLive
    exact (hMatch _ _ _ _).mp (hLive { battery := 0 } 0 { cid2 := 0x47 } { cid2 := 0x92 } (by decide)
      rfl rfl).2.2
  · intro hSame slot capacity req47 req92 hModules h47 h92
    refine ⟨?_, ?_, (hMatch slot capacity req92 _).mpr hSame⟩
    · rw [answer_eq hModules, buildResponse, h47]
      rfl
    · rw [answer_eq hModules, buildResponse, h92]
      rfl

/-- The newest limits of a run and its shown cells, where both are there, agree on the count. -/
def CountsAgree (wireAdr : UInt8) (interval : Int) (past : List PolledEvent) : Prop :=
  ∀ sp n, newestLimits wireAdr (receivedFrames past) = some (sp, n) →
    ∀ t m, shownCells wireAdr interval past = some (t, m) →
      ∀ limitMv ∈ [sp.cellHighVoltageLimitMv, sp.cellLowVoltageLimitMv,
          sp.cellUnderVoltageLimitMv], SameModuleLimit limitMv n m

/-- Where a battery has telemetry and settings, the inverter gets limits for the live cells exactly
when the analog frame before the newest limits has as many cells as the one shown. -/
theorem limits_live_iff {wireAdr : UInt8} {interval : Int} {past : List PolledEvent}
    (hFits : FramesFit past) {cells : JkCellInfo} {lim : JkSettings} (pack : JkPackInfo)
    (hCells : (PolledBattery.run wireAdr interval past).handler.state.cells = some cells)
    (hLim : (PolledBattery.run wireAdr interval past).handler.state.settings = some lim) :
    AdvertisesLive cells pack lim ↔ CountsAgree wireAdr interval past := by
  have hTracked : CellsTracked wireAdr interval past _ := CellsTracked.run hFits
  have hShown := hTracked.cells
  have hSettings := hTracked.settings
  rw [hCells, Option.map_some] at hShown
  rw [hLim] at hSettings
  obtain ⟨⟨t, m⟩, hShown, hm⟩ := Option.map_eq_some_iff.mp hShown.symm
  obtain ⟨⟨sp, n⟩, hNewest, rfl⟩ := Option.map_eq_some_iff.mp hSettings.symm
  obtain rfl : m = cells.voltagesMv.length := hm
  have hByte : (limitSettings (sp, n)).cellCount.toNat = n := toNat_countByte (newestLimits_le hNewest)
  rw [advertisesLive_iff, hByte]
  constructor
  · intro hSame sp' n' hNewest' t' m' hShown'
    cases hNewest.symm.trans hNewest'
    cases hShown.symm.trans hShown'
    exact hSame
  · intro hAgree
    exact hAgree sp n hNewest t _ hShown

def oneCell : PylontechFrame where
  adr := 2
  cid2 := 0x42
  info := ({ cellVoltagesMv := [3300] } : AnalogResponse).serialize

def cellLimits : PylontechFrame where
  adr := 2
  cid2 := 0x47
  info := ({ cellHighVoltageLimitMv := 3650 } : SystemParameterResponse).serialize

/-- What one chunk of frames brings a fresh handler. -/
theorem run_received (wireAdr : UInt8) (interval now : Int) {frames : List PylontechFrame}
    (hFits : ∀ f ∈ frames, (buildPylontech f).length < 2147483648) :
    (PolledBattery.run wireAdr interval [.received now frames]).handler =
      ({} : BmsHandler).onParsed interval now (frames.foldl (onFrame wireAdr) ({}, 0)).1 := by
  rw [PolledBattery.run, PolledBattery.run, PolledBattery.step, PolledBattery.onBytes,
    feed_frames rfl hFits]

theorem limits_live_one_cell :
    AdvertisesLive (fillCellStats { voltagesMv := [3300] }) {}
        (limitSettings ({ cellHighVoltageLimitMv := 3650 }, 1)) ↔
      CountsAgree 2 0 [.received 0 [oneCell, cellLimits]] :=
  limits_live_iff (by decide) {}
    (by rw [run_received 2 0 0 (by decide)]; rfl) (by rw [run_received 2 0 0 (by decide)]; rfl)

/-- The limits come before the first telemetry, as they do after every connect. -/
theorem limits_before_cells :
    ¬∀ (wireAdr : UInt8) (interval : Int) (past : List PolledEvent) (cells : JkCellInfo)
      (pack : JkPackInfo) (lim : JkSettings), FramesFit past →
        (PolledBattery.run wireAdr interval past).handler.state.cells = some cells →
        (PolledBattery.run wireAdr interval past).handler.state.settings = some lim →
        AdvertisesLive cells pack lim := by
  intro hAll
  have hLive := hAll 2 0 [.received 0 [cellLimits, oneCell]]
    (fillCellStats { voltagesMv := [3300] }) {}
    (limitSettings ({ cellHighVoltageLimitMv := 3650 }, 0)) (by decide)
    (by rw [run_received 2 0 0 (by decide)]; rfl) (by rw [run_received 2 0 0 (by decide)]; rfl)
  have hHigh := (advertisesLive_iff _ _ _).mp hLive 3650 (List.mem_cons_self ..)
  rcases hHigh with hZero | hSame | ⟨hZero, -⟩
  · cases hZero
  · cases hSame
  · exact absurd hZero (by decide)

end BmsBridge
