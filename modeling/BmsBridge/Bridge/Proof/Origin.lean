import BmsBridge.Bridge.Proof.Fresh
import BmsBridge.Jk.Proof.Slicing

/-! Where the data of a battery over Bluetooth comes from: from single frames, none of them put together
from the bytes of two connections. -/

namespace BmsBridge

open JkFrameAssembler

/-! ### The bytes that a frame is made of -/

theorem pushByte_suffix (buf : List UInt8) (b : UInt8) :
    (pushByte { buf } b).buf <:+ buf ++ [b] ∧
      ((pushByte { buf } b).ready ≠ [] → (pushByte { buf } b).ready = buf ++ [b]) := by
  simp only [pushByte]
  split
  · rename_i hSkip
    rw [hSkip.1]
    exact ⟨List.nil_suffix, fun h => absurd rfl h⟩
  · split
    · exact ⟨List.nil_suffix, fun h => absurd rfl h⟩
    · split
      · split
        · exact ⟨List.nil_suffix, fun _ => rfl⟩
        · exact ⟨List.nil_suffix, fun h => absurd rfl h⟩
      · exact ⟨List.suffix_refl _, fun h => absurd rfl h⟩

/-- A frame that `data` completes lies in one piece in the buffer and `data`, and ends in `data`. -/
theorem completed_placed {buf data frame : List UInt8} (h : frame ∈ completed buf data) :
    ∃ gap rest, buf ++ data = gap ++ (frame ++ rest) ∧ rest.length < data.length := by
  induction data generalizing buf with
  | nil => cases h
  | cons b data ih =>
    obtain ⟨⟨gap, hGap⟩, hReady⟩ := pushByte_suffix buf b
    rcases List.mem_append.mp h with hNow | hLater
    · split at hNow
      · cases hNow
      · rename_i hSome
        rw [List.mem_singleton.mp hNow, hReady hSome]
        exact ⟨[], data, by simp, by simp⟩
    · obtain ⟨front, rest, hPlace, hLen⟩ := ih hLater
      refine ⟨gap ++ front, rest, ?_, by rw [List.length_cons]; omega⟩
      rw [List.append_cons, ← hGap, List.append_assoc, hPlace, List.append_assoc]

theorem partialAfter_suffix (buf data : List UInt8) : partialAfter buf data <:+ buf ++ data := by
  induction data generalizing buf with
  | nil => exact ⟨[], (List.append_nil buf).symm⟩
  | cons b data ih =>
    obtain ⟨gap, hGap⟩ := (pushByte_suffix buf b).1
    have hStep : partialAfter buf (b :: data) = partialAfter (pushByte { buf } b).buf data := by
      rw [← List.singleton_append, partialAfter_append]
      rfl
    rw [hStep, List.append_cons, ← hGap, List.append_assoc]
    exact (ih _).trans (List.suffix_append gap _)

theorem telemetryOf_eq {frame : List UInt8} {t : Telemetry} (h : telemetryOf frame = some t) :
    parseCellInfo frame = some (t.cells, t.pack) := by
  simp only [telemetryOf, JkProtocol.report] at h
  split at h
  · cases h
  · split at h
    · split at h
      · rename_i cells pack hParse
        obtain rfl := Option.some.inj h
        exact hParse
      · cases h
    · split at h
      · split at h <;> cases h
      · cases h

/-! ### One session of a link -/

/-- What has come from a battery since its link has last come up or gone down. -/
def MonitorEvent.heard (battery : Nat) (bytes : List UInt8) : MonitorEvent → List UInt8
  | .connected i => if i = battery then [] else bytes
  | .disconnected i => if i = battery then [] else bytes
  | .bytes i _ data => if i = battery then bytes ++ data else bytes
  | _ => bytes

/-- A protocol that has heard these bytes. -/
def heardBy (bytes : List UInt8) : BatteryProtocol := .jk { assembler := { buf := partialAfter [] bytes } }

theorem heardBy_after (battery : Nat) (bytes : List UInt8) (e : MonitorEvent) :
    (heardBy bytes).after battery e = heardBy (e.heard battery bytes) := by
  cases e with
  | connected i | disconnected i =>
    simp only [BatteryProtocol.after, MonitorEvent.heard]
    split <;> rfl
  | bytes i fails data =>
    simp only [BatteryProtocol.after, MonitorEvent.heard]
    split
    · simp only [heardBy, BatteryProtocol.feed, JkProtocol.feed_eq, partialAfter_append]
    · rfl
  | _ => rfl

/-- `t` is what one frame says that lies in a row in a session's bytes and ends in the last of them,
`data`. -/
structure FromFrame (bytes data : List UInt8) (t : Telemetry) (frame : List UInt8) : Prop where
  valid : ValidFrame frame
  parsed : parseCellInfo frame = some (t.cells, t.pack)
  placed : ∃ gap rest, bytes ++ data = gap ++ (frame ++ rest) ∧ rest.length < data.length

theorem feed_fromFrame {bytes data : List UInt8} {t : Telemetry}
    (h : ((heardBy bytes).feed data).1.telemetry = some t) : ∃ frame, FromFrame bytes data t frame := by
  simp only [heardBy, BatteryProtocol.feed, JkProtocol.feed_eq] at h
  cases hLast : (completed (partialAfter [] bytes) data).getLast? with
  | none => simp [hLast] at h
  | some frame =>
    rw [hLast] at h
    have hMem := List.mem_of_getLast? hLast
    have hValid : ValidFrame frame := by
      refine framesIn_valid (s := bytes ++ data) ?_
      rw [← completed_eq_framesIn, completed_append]
      exact List.mem_append_right _ hMem
    obtain ⟨gap, rest, hPlace, hLen⟩ := completed_placed hMem
    obtain ⟨front, hFront⟩ := partialAfter_suffix [] bytes
    refine ⟨frame, hValid, telemetryOf_eq h, front ++ gap, rest, ?_, hLen⟩
    rw [List.append_assoc, ← hPlace, ← List.append_assoc, hFront, List.nil_append]

/-- One frame accounts for `t`, all of it received in one session. -/
def InOneFrame (battery : Nat) (bytes : List UInt8) (es : List MonitorEvent) (t : Telemetry) : Prop :=
  ∃ before fails data behind, es = before ++ .bytes battery fails data :: behind ∧
    ∃ frame, FromFrame (before.foldl (MonitorEvent.heard battery) bytes) data t frame

theorem reports_inOneFrame {battery : Nat} (now system : Int) (bytes : List UInt8) (es : List MonitorEvent) :
    ∀ r ∈ reports battery (heardBy bytes) now system es, InOneFrame battery bytes es r.telemetry := by
  induction es generalizing bytes now system with
  | nil =>
    intro r hr
    cases hr
  | cons e es ih =>
    intro r hr
    rcases List.mem_append.mp hr with hNow | hLater
    · cases e with
      | bytes i fails data =>
        simp only [MonitorEvent.reported] at hNow
        split at hNow
        · rename_i hBattery
          obtain ⟨t, hMem, rfl⟩ := List.mem_map.mp hNow
          exact ⟨[], fails, data, es, by rw [hBattery]; rfl, feed_fromFrame (Option.mem_toList.mp hMem)⟩
        · cases hNow
      | _ => cases hNow
    · rw [heardBy_after] at hLater
      obtain ⟨before, fails, data, behind, rfl, hFrame⟩ := ih _ _ (e.heard battery bytes) r hLater
      exact ⟨e :: before, fails, data, behind, rfl, hFrame⟩

namespace Monitor

/-- In every run, whatever links come up and go down and whatever bytes get lost or garbled on them: each
sample that is appended for a battery over Bluetooth, and the cells and the pack that its state shows, are
what one valid frame says whose 300 bytes have come in a row, in one session of the battery's link. -/
theorem frames_unmixed {configs : List BatteryConfig} {i : Nat} {c : BatteryConfig}
    (hConfig : configs[i]? = some c) (hStart : BatteryProtocol.start c = some (.jk {}))
    (sql : OrderBy (Int × SampleRow)) (now system : Int) (history : History) (es : List MonitorEvent) :
    (∀ r ∈ recorded configs i (.jk {}) now system es, InOneFrame i [] es r.telemetry) ∧
      ∃ d, ((Monitor.start configs now system history).run configs sql es).1.drivers i = some d ∧
        d.handler.state.Shows (InOneFrame i [] es) := by
  have hReports : ∀ r ∈ reports i (.jk {}) now system es, InOneFrame i [] es r.telemetry :=
    reports_inOneFrame now system [] es
  exact of_reports sql history hReports hConfig hStart

/-- A battery whose link goes down in the middle of a frame. -/
def bleBattery : BatteryConfig := {
  name := "roof", link := .bluetooth, capacity := 100, protocol := "jk_bt" }

def cutLink : List MonitorEvent := [
  .connected 0,
  .bytes 0 (fun _ => false) (emptyCellInfo.take 200),
  .disconnected 0,
  .connected 0,
  .bytes 0 (fun _ => false) (emptyCellInfo.drop 200),
  .bytes 0 (fun _ => false) emptyCellInfo]

theorem frames_unmixed_cut_link : ∃ r ∈ recorded [bleBattery] 0 (.jk {}) 60000000000 1000000000000 cutLink,
    InOneFrame 0 [] cutLink r.telemetry := by
  have hLength : (recorded [bleBattery] 0 (.jk {}) 60000000000 1000000000000 cutLink).length = 1 := by
    decide +kernel
  have hMem := List.getElem_mem (show 0 < (recorded [bleBattery] 0 (.jk {}) 60000000000 1000000000000
    cutLink).length by omega)
  exact ⟨_, hMem, (frames_unmixed (c := bleBattery) rfl rfl .stable 60000000000 1000000000000 {}
    cutLink).1 _ hMem⟩

end Monitor

end BmsBridge
