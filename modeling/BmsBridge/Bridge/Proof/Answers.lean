import BmsBridge.Bridge.Proof.Bounded
import BmsBridge.Bridge.Proof.CellStats
import BmsBridge.Bridge.Proof.Origin
import BmsBridge.Pylontech.Proof.Grammar
import BmsBridge.Pylontech.Proof.Master

/-! Where the data of a battery on a Pylontech line comes from: from answers with the battery's own
address, none of them put together from the bytes of two sessions of the line. -/

namespace BmsBridge

open Delimited

/-- Where the counts fit, a result above zero stands for a frame of the grammar. -/
theorem beginsWithFrame_of_pos {buf : List UInt8} (hShort : buf.length < kIntLimit)
    (hPos : 0 < (tryParsePylontech buf).1) : ∃ n, BeginsWithFrame buf n (tryParsePylontech buf).2 := by
  cases shape kSOI kEOI buf with
  | nil => exact absurd hPos (by decide)
  | gap _ hNe hSoi =>
    rw [tryParse_gap _ hNe hSoi, castInt_fits hShort] at hPos
    omega
  | skip gap tail hNe hSoi =>
    rw [List.length_append] at hShort
    rw [tryParse_skip _ tail hNe hSoi, castInt_fits (by omega)] at hPos
    omega
  | begun body hEoi =>
    rw [tryParse_begun _ hEoi] at hPos
    split at hPos
    · exact absurd hPos (by decide)
    · exact absurd hPos (by decide)
  | closed body tail hEoi =>
    by_cases hFrame : ∃ f, SpellsFrame body f
    · obtain ⟨f, hSpells⟩ := hFrame
      rw [tryParse_frame tail {} hSpells]
      exact ⟨_, body, tail, rfl, hEoi, rfl, hSpells⟩
    · simp only [List.length_cons, List.length_append] at hShort
      rw [tryParse_no_frame tail {} hEoi hFrame, castInt_fits (by omega)] at hPos
      omega

/-- An analog response of the battery at `adr`, and what it says. -/
structure Answered (adr : UInt8) (f : PylontechFrame) (t : Telemetry) : Prop where
  own : f.adr = adr
  analog : f.cid2 = 0x42
  read : ∃ a, AnalogResponse.deserialize f.info = (true, a) ∧
    t = PylontechMasterProtocol.telemetryOfAnalog a

namespace PylontechMasterProtocol

theorem onFrame_answers {adr : UInt8} {s : Parsed × UInt8} {f : PylontechFrame} {t : Telemetry}
    (h : (onFrame adr s f).1.telemetry = some t) : s.1.telemetry = some t ∨ Answered adr f t := by
  by_cases hAdr : f.adr = adr
  · by_cases hAnalog : f.cid2 = 0x42
    · exact (onFrame_telemetry h).imp_right fun hRead => ⟨hAdr, hAnalog, hRead⟩
    · left
      simp only [onFrame, hAdr, hAnalog, ne_eq, not_true_eq_false, ↓reduceIte] at h
      split at h
      · split at h <;> exact h
      · exact h
  · left
    simpa only [onFrame, ne_eq, hAdr, not_false_eq_true, ↓reduceIte] using h

theorem foldl_answers {adr : UInt8} (fs : List PylontechFrame) (s : Parsed × UInt8) {t : Telemetry}
    (h : (fs.foldl (onFrame adr) s).1.telemetry = some t) :
    s.1.telemetry = some t ∨ ∃ f ∈ fs, Answered adr f t := by
  induction fs generalizing s with
  | nil => exact .inl h
  | cons f fs ih =>
    rcases ih _ h with hNext | ⟨g, hMem, hAnswers⟩
    · refine (onFrame_answers hNext).imp_right fun hAnswers => ⟨f, List.mem_cons_self, hAnswers⟩
    · exact .inr ⟨g, List.mem_cons_of_mem _ hMem, hAnswers⟩

/-- The master at `adr` behind these bytes of a session. -/
structure Hears (adr : UInt8) (bytes : List UInt8) (p : PylontechMasterProtocol) : Prop where
  wireAdr : p.wireAdr = adr
  rx : p.rx <:+ bytes
  short : p.rx.length ≤ kMaxFrameLen

section Hears

variable {adr : UInt8} {bytes data : List UInt8} {p : PylontechMasterProtocol} (h : Hears adr bytes p)

include h

theorem Hears.reset : Hears adr [] p.reset := ⟨h.wireAdr, List.suffix_refl _, Nat.zero_le _⟩

theorem Hears.buffer (hFits : data.length ≤ 512) :
    p.rx ++ data <:+ bytes ++ data ∧ (p.rx ++ data).length < kIntLimit := by
  refine ⟨List.suffix_append_self_iff.mpr h.rx, ?_⟩
  have hShort := h.short
  simp only [List.length_append, kMaxFrameLen, kIntLimit] at hShort ⊢
  omega

theorem Hears.feed (hFits : data.length ≤ 512) : Hears adr (bytes ++ data) (p.feed data).2 := by
  obtain ⟨hSuffix, hShort⟩ := h.buffer hFits
  have hRx : (p.feed data).2.rx = Drain.rest (tryParsePylontech ·) (p.rx ++ data) := Drain.drain_snd ..
  refine ⟨h.wireAdr, ?_, ?_⟩
  · rw [hRx]
    exact (Drain.rest_spec _ _).1.trans hSuffix
  · rw [hRx]
    rcases rest_bounded (countable_of_length_lt hShort) with hEmpty | ⟨-, -, hLen⟩
    · rw [hEmpty]
      exact Nat.zero_le _
    · exact hLen

theorem Hears.telemetry (hFits : data.length ≤ 512) {t : Telemetry}
    (ht : (p.feed data).1.telemetry = some t) :
    ∃ f gap tail n, Answered adr f t ∧ bytes ++ data = gap ++ tail ∧ BeginsWithFrame tail n f := by
  obtain ⟨⟨front, hFront⟩, hShort⟩ := h.buffer hFits
  rw [PylontechMasterProtocol.feed, Drain.drain_eq, h.wireAdr] at ht
  rcases foldl_answers _ _ ht with hNone | ⟨f, hMem, hAnswers⟩
  · cases hNone
  · obtain ⟨tail, ⟨gap, hGap⟩, hPos, rfl⟩ := Drain.mem_frames hMem
    have hLen : tail.length < kIntLimit := by
      have := congrArg List.length hGap
      rw [List.length_append] at this
      omega
    obtain ⟨n, hBegins⟩ := beginsWithFrame_of_pos hLen hPos
    exact ⟨_, front ++ gap, tail, n, hAnswers, by rw [List.append_assoc, hGap, hFront], hBegins⟩

end Hears

end PylontechMasterProtocol

/-! ### Runs -/

def BatteryProtocol.Hears (adr : UInt8) (bytes : List UInt8) : BatteryProtocol → Prop
  | .jk _ => False
  | .pylontech p => p.Hears adr bytes

/-- The reads of a line bring 512 bytes at most. -/
def MonitorEvent.fits (battery : Nat) : MonitorEvent → Bool
  | .bytes i _ data => i ≠ battery ∨ data.length ≤ 512
  | _ => true

/-- One answer of the battery accounts for `t`, all of it received in one session. -/
def InOneAnswer (battery : Nat) (adr : UInt8) (bytes : List UInt8) (es : List MonitorEvent) (t : Telemetry) :
    Prop :=
  ∃ before fails data behind, es = before ++ .bytes battery fails data :: behind ∧
    ∃ f gap tail n, Answered adr f t ∧
      before.foldl (MonitorEvent.heard battery) bytes ++ data = gap ++ tail ∧ BeginsWithFrame tail n f

variable {battery : Nat} {adr : UInt8}

theorem BatteryProtocol.Hears.after {bytes : List UInt8} {p : BatteryProtocol} (h : p.Hears adr bytes)
    {e : MonitorEvent} (hFits : e.fits battery) :
    (p.after battery e).Hears adr (e.heard battery bytes) := by
  cases p with
  | jk p => exact h.elim
  | pylontech p =>
    cases e with
    | connected i | disconnected i =>
      simp only [BatteryProtocol.after, MonitorEvent.heard]
      split
      · exact PylontechMasterProtocol.Hears.reset h
      · exact h
    | bytes i fails data =>
      simp only [BatteryProtocol.after, MonitorEvent.heard]
      split
      · rename_i hBattery
        refine PylontechMasterProtocol.Hears.feed h ?_
        simpa [MonitorEvent.fits, hBattery] using hFits
      · exact h
    | _ => exact h

theorem reports_inOneAnswer (now system : Int) {bytes : List UInt8} {p : BatteryProtocol}
    (h : p.Hears adr bytes) {es : List MonitorEvent} (hFits : ∀ e ∈ es, e.fits battery) :
    ∀ r ∈ reports battery p now system es, InOneAnswer battery adr bytes es r.telemetry := by
  induction es generalizing bytes p now system with
  | nil =>
    intro r hr
    cases hr
  | cons e es ih =>
    intro r hr
    obtain ⟨hHead, hTail⟩ := List.forall_mem_cons.mp hFits
    rcases List.mem_append.mp hr with hNow | hLater
    · cases e with
      | bytes i fails data =>
        simp only [MonitorEvent.reported] at hNow
        split at hNow
        · rename_i hBattery
          obtain ⟨t, hMem, rfl⟩ := List.mem_map.mp hNow
          have hData : data.length ≤ 512 := by simpa [MonitorEvent.fits, hBattery] using hHead
          cases p with
          | jk p => exact h.elim
          | pylontech p =>
            exact ⟨[], fails, data, es, by rw [hBattery]; rfl,
              PylontechMasterProtocol.Hears.telemetry h hData (Option.mem_toList.mp hMem)⟩
        · cases hNow
      | _ => cases hNow
    · obtain ⟨before, fails, data, behind, rfl, hAnswer⟩ := ih _ _ (h.after hHead) hTail r hLater
      exact ⟨e :: before, fails, data, behind, rfl, hAnswer⟩

namespace Monitor

/-- In every run, whatever else talks on the line, whatever bytes get lost or garbled and however often the
port is lost and opened again: each sample that is appended for a battery on a Pylontech line, and the cells
and the pack that its state shows, are what one analog response says that spells the battery's own address,
from SOI to EOI received in a row and in one session of the line. -/
theorem answers_own {configs : List BatteryConfig} {i : Nat} {c : BatteryConfig} {adr : UInt8}
    (hConfig : configs[i]? = some c)
    (hStart : BatteryProtocol.start c = some (.pylontech { wireAdr := adr }))
    {es : List MonitorEvent} (hFits : ∀ e ∈ es, e.fits i) (sql : OrderBy (Int × SampleRow))
    (now system : Int) (history : History) :
    (∀ r ∈ recorded configs i (.pylontech { wireAdr := adr }) now system es,
      InOneAnswer i adr [] es r.telemetry) ∧
      ∃ d, ((Monitor.start configs now system history).run configs sql es).1.drivers i = some d ∧
        d.handler.state.Shows (InOneAnswer i adr [] es) := by
  have hFirst : (BatteryProtocol.pylontech { wireAdr := adr }).Hears adr [] :=
    ⟨rfl, List.suffix_refl _, Nat.zero_le _⟩
  exact of_reports sql history (reports_inOneAnswer now system hFirst hFits) hConfig hStart

/-- The line with another battery's answer on it, and with a session that ends inside an answer. -/
def sharedLine : List MonitorEvent := [
  .connected 0,
  .bytes 0 (fun _ => false) (buildPylontech {
    adr := 3
    cid2 := 0x42
    info := ({ cellVoltagesMv := [3400] } : AnalogResponse).serialize }),
  .bytes 0 (fun _ => false) (threeCells.take 20),
  .disconnected 0,
  .connected 0,
  .bytes 0 (fun _ => false) threeCells]

theorem answers_own_shared : ∃ r ∈ recorded [lineBattery] 0 (.pylontech { wireAdr := 2 }) 60000000000
    1000000000000 sharedLine, InOneAnswer 0 2 [] sharedLine r.telemetry := by
  have hLength : (recorded [lineBattery] 0 (.pylontech { wireAdr := 2 }) 60000000000 1000000000000
      sharedLine).length = 1 := by
    decide +kernel
  have hMem := List.getElem_mem (show 0 < (recorded [lineBattery] 0 (.pylontech { wireAdr := 2 })
    60000000000 1000000000000 sharedLine).length by omega)
  have hFits : ∀ e ∈ sharedLine, e.fits 0 := by decide +kernel
  exact ⟨_, hMem, (answers_own (c := lineBattery) rfl rfl hFits .stable 60000000000 1000000000000 {}).1
    _ hMem⟩

end Monitor

end BmsBridge
