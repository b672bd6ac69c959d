import BmsBridge.Bridge.Proof.Fresh
import BmsBridge.Pylontech.Proof.Stats

/-! The statistics of the cells that a battery on a Pylontech line has shown, in every run. -/

namespace BmsBridge

variable {battery : Nat} {p : BatteryProtocol} {now system : Int}

def BatteryProtocol.IsPylontech : BatteryProtocol → Prop
  | .jk _ => False
  | .pylontech _ => True

theorem BatteryProtocol.IsPylontech.after (h : p.IsPylontech) (e : MonitorEvent) :
    (p.after battery e).IsPylontech := by
  cases p with
  | jk p => exact h.elim
  | pylontech p =>
    cases e with
    | connected i | disconnected i | bytes i =>
      simp only [BatteryProtocol.after]
      split <;> trivial
    | _ => trivial

/-- All that such a battery reports has exact statistics. -/
theorem reports_hasStats (h : p.IsPylontech) (es : List MonitorEvent) :
    ∀ r ∈ reports battery p now system es, HasStats r.telemetry.cells := by
  induction es generalizing p now system with
  | nil =>
    intro r hr
    cases hr
  | cons e es ih =>
    intro r hr
    rcases List.mem_append.mp hr with hNow | hLater
    · cases e with
      | bytes i fails data =>
        simp only [MonitorEvent.reported] at hNow
        split at hNow
        · obtain ⟨t, hMem, rfl⟩ := List.mem_map.mp hNow
          cases p with
          | jk p => exact h.elim
          | pylontech p => exact feed_hasStats (Option.mem_toList.mp hMem)
        · cases hNow
      | _ => cases hNow
    · exact ih (h.after e) r hLater

namespace Monitor

/-- In every run, whatever bytes come in whatever chunks: the samples that are appended for a battery on a
Pylontech line, and the cells that its state shows, have the exact average, spread and first highest and
lowest cells of their voltages. -/
theorem cell_stats_exact {configs : List BatteryConfig} {i : Nat} {c : BatteryConfig}
    {p : PylontechMasterProtocol} (hConfig : configs[i]? = some c)
    (hStart : BatteryProtocol.start c = some (.pylontech p)) (sql : OrderBy (Int × SampleRow))
    (now system : Int) (history : History) (es : List MonitorEvent) :
    (∀ r ∈ recorded configs i (.pylontech p) now system es, HasStats r.telemetry.cells) ∧
      ∃ d, ((Monitor.start configs now system history).run configs sql es).1.drivers i = some d ∧
        ∀ cells ∈ d.handler.state.cells, HasStats cells := by
  have hReports : ∀ r ∈ reports i (.pylontech p) now system es, HasStats r.telemetry.cells :=
    reports_hasStats (show (BatteryProtocol.pylontech p).IsPylontech from trivial) es
  obtain ⟨hRecorded, d, hDriver, hShows⟩ := of_reports (P := fun t => HasStats t.cells) sql history
    hReports hConfig hStart
  refine ⟨hRecorded, d, hDriver, fun cells hShown => ?_⟩
  rcases hShows with ⟨hNone, -⟩ | ⟨t, hStats, hCells, -⟩
  · rw [hNone] at hShown
    cases hShown
  · rw [hCells] at hShown
    obtain rfl := Option.some.inj hShown
    exact hStats

/-- A battery on a line, and a frame of it with three cells. -/
def lineBattery : BatteryConfig := {
  name := "rack", link := .ttl, capacity := 100, protocol := "pylontech", pylontechAddress := 1 }

def threeCells : List UInt8 := buildPylontech {
  adr := 2
  cid2 := 0x42
  info := ({ cellVoltagesMv := [3300, 3310, 3290] } : AnalogResponse).serialize }

theorem cell_stats_exact_three : ∃ d,
    ((Monitor.start [lineBattery] 60000000000 1000000000000 {}).run [lineBattery] .stable
      [.connected 0, .bytes 0 (fun _ => false) threeCells]).1.drivers 0 = some d ∧
    ∀ cells ∈ d.handler.state.cells, HasStats cells :=
  (cell_stats_exact (c := lineBattery) (p := { wireAdr := 2 }) rfl rfl .stable 60000000000 1000000000000
    {} [.connected 0, .bytes 0 (fun _ => false) threeCells]).2

end Monitor

end BmsBridge
