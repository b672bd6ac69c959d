import BmsBridge.Pylontech.Master
import BmsBridge.Pylontech.Proof.Receive
import BmsBridge.Pylontech.Proof.Responders

/-! The two halves of the Pylontech protocol against each other.  A response carries the return code
zero in the place of CID2, and the master looks for the request's code there, so it takes no
response for an answer. -/

namespace BmsBridge

open Words

/-- The master at `adr` reads the given cells out of the slave's answer to its analog request. -/
def AnalogAgrees (adr : UInt8) (cells : JkCellInfo) (pack : JkPackInfo) : Prop :=
  ∀ (n : Int) (req : PylontechFrame) (resp : List UInt8), 0 < n →
    tryParsePylontech (buildAnalogRequest adr) = (n, req) →
    buildAnalogResponse req cells pack = .ok resp →
    ∃ t, (PylontechMasterProtocol.feed { wireAdr := adr } resp).1.telemetry = some t ∧
      t.cells.voltagesMv = cells.voltagesMv

def SystemParamAgrees (adr : UInt8) (limits : JkSettings) : Prop :=
  ∀ (n : Int) (req : PylontechFrame), 0 < n →
    tryParsePylontech (buildSystemParamRequest adr) = (n, req) →
    ∃ s, (PylontechMasterProtocol.feed { wireAdr := adr }
        (buildSystemParamResponse req limits)).1.settings = some s ∧
      s.cellOvpMv = limits.cellOvpMv ∧ s.cellUvprMv = limits.cellUvprMv ∧
      s.cellUvpMv = limits.cellUvpMv

/-! ### What the master reports -/

theorem fillCellStats_voltages (c : JkCellInfo) : (fillCellStats c).voltagesMv = c.voltagesMv := by
  unfold fillCellStats
  split <;> rfl

namespace PylontechMasterProtocol

theorem onFrame_telemetry {wireAdr : UInt8} {s : Parsed × UInt8} {f : PylontechFrame} {t : Telemetry}
    (h : (onFrame wireAdr s f).1.telemetry = some t) : s.1.telemetry = some t ∨
      ∃ a, AnalogResponse.deserialize f.info = (true, a) ∧ t = telemetryOfAnalog a := by
  obtain ⟨out, count⟩ := s
  simp only [onFrame] at h
  split at h
  · exact .inl h
  · split at h
    · split at h
      · exact .inl h
      · rename_i a hRead
        exact .inr ⟨a, hRead, (Option.some.inj h).symm⟩
    · split at h
      · split at h <;> exact .inl h
      · exact .inl h

/-- The telemetry of a chunk is that of an analog payload in it. -/
theorem feed_telemetry {p : PylontechMasterProtocol} {data : List UInt8} {t : Telemetry}
    (h : (p.feed data).1.telemetry = some t) :
    ∃ info a, AnalogResponse.deserialize info = (true, a) ∧ t = telemetryOfAnalog a := by
  have hFold (fs : List PylontechFrame) (s : Parsed × UInt8)
      (hEnd : (fs.foldl (onFrame p.wireAdr) s).1.telemetry = some t) : s.1.telemetry = some t ∨
        ∃ info a, AnalogResponse.deserialize info = (true, a) ∧ t = telemetryOfAnalog a := by
    induction fs generalizing s with
    | nil => exact .inl hEnd
    | cons f fs ih =>
      rcases ih _ hEnd with hNext | hPayload
      · rcases onFrame_telemetry hNext with hOld | ⟨a, hRead, ht⟩
        · exact .inl hOld
        · exact .inr ⟨f.info, a, hRead, ht⟩
      · exact .inr hPayload
  rw [feed, Drain.drain_eq] at h
  rcases hFold _ _ h with hNone | hPayload
  · cases hNone
  · exact hPayload

end PylontechMasterProtocol

/-! ### What the master makes of a response -/

/-- One frame at a clean receive buffer is reported as it is handled. -/
theorem feed_built {p : PylontechMasterProtocol} (hRx : p.rx = []) {f : PylontechFrame}
    (hInfo : f.info.length ≤ 1024) : (p.feed (buildPylontech f)).1 =
      (PylontechMasterProtocol.onFrame p.wireAdr ({}, p.lastCellCount) f).1 := by
  have hFits : (buildPylontech f).length < 2147483648 := by
    rw [length_buildPylontech]
    omega
  have hDrain := drain_buildPylontech (PylontechMasterProtocol.onFrame p.wireAdr)
    ({}, p.lastCellCount) f [] hFits
  rw [List.append_nil, Drain.drain_nil] at hDrain
  rw [PylontechMasterProtocol.feed, hRx, List.nil_append, hDrain]

/-- A frame with the return code zero reports nothing. -/
theorem feed_okResponse (adr : UInt8) (req : PylontechFrame) (info : List UInt8)
    (hInfo : info.length ≤ 1024) :
    (PylontechMasterProtocol.feed { wireAdr := adr }
      (buildPylontech { okResponse req with info })).1 = {} := by
  rw [feed_built rfl (f := { okResponse req with info }) hInfo]
  simp [PylontechMasterProtocol.onFrame, okResponse]

theorem not_analogAgrees {adr : UInt8} {cells : JkCellInfo} {pack : JkPackInfo}
    (hCells : cells.voltagesMv.length ≤ 255)
    (hScale : ∃ cap,
      scaleCapacityToU16 pack.totalCapacityMah pack.remainingCapacityMah = .ok cap) :
    ¬AnalogAgrees adr cells pack := by
  intro h
  obtain ⟨cap, hCap⟩ := hScale
  let req : PylontechFrame := { adr, cid2 := 0x42, info := [adr] }
  have hBuild : buildAnalogResponse req cells pack = .ok (buildPylontech
      { okResponse req with info := (analogResponse req cells pack cap).serialize }) := by
    rw [buildAnalogResponse, hCap]
    rfl
  obtain ⟨t, ht, -⟩ := h _ req _ (by rw [length_buildPylontech]; omega)
    (tryParse_built req (by decide : 1 ≤ 1024)) hBuild
  rw [feed_okResponse _ _ _ (by rw [length_analogResponse]; omega)] at ht
  cases ht

theorem not_systemParamAgrees (adr : UInt8) (limits : JkSettings) :
    ¬SystemParamAgrees adr limits := by
  intro h
  let req : PylontechFrame := { adr, cid2 := 0x47 }
  obtain ⟨s, hs, -⟩ := h _ req (by rw [length_buildPylontech]; omega)
    (tryParse_built req (by decide : 0 ≤ 1024))
  rw [buildSystemParamResponse,
    feed_okResponse _ _ _ (by rw [length_systemParameterResponse]; omega)] at hs
  cases hs

/-- The two halves agree on no input: the master reports neither telemetry nor settings from the
slave's answers. -/
theorem halves_disagree (adr : UInt8) (cells : JkCellInfo) (pack : JkPackInfo)
    (limits : JkSettings) (hCells : cells.voltagesMv.length ≤ 255)
    (hScale : ∃ cap,
      scaleCapacityToU16 pack.totalCapacityMah pack.remainingCapacityMah = .ok cap) :
    ¬AnalogAgrees adr cells pack ∧ ¬SystemParamAgrees adr limits :=
  ⟨not_analogAgrees hCells hScale, not_systemParamAgrees adr limits⟩

theorem halves_disagree_one_cell :
    ¬AnalogAgrees 2 { voltagesMv := [3300] } {} ∧ ¬SystemParamAgrees 2 {} :=
  halves_disagree 2 { voltagesMv := [3300] } {} {} (by decide) ⟨_, rfl⟩

theorem analog_answer_unread :
    ¬∀ (adr : UInt8) (cells : JkCellInfo) (pack : JkPackInfo) (limits : JkSettings),
      cells.voltagesMv.length ≤ 255 →
      (∃ cap, scaleCapacityToU16 pack.totalCapacityMah pack.remainingCapacityMah = .ok cap) →
      AnalogAgrees adr cells pack ∧ SystemParamAgrees adr limits := by
  intro h
  have hAgrees := (h 2 { voltagesMv := [3300] } {} {} (by decide) ⟨_, rfl⟩).1
  exact not_analogAgrees (by decide) ⟨_, rfl⟩ hAgrees

end BmsBridge
