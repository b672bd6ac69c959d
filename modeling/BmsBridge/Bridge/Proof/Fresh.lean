import BmsBridge.Bridge.Proof.Recorded

/-! How old the data is that the inverter sees, over whole runs: between what a battery reports and the
test for freshness there is the throttle of the state. -/

namespace BmsBridge

open Throttle

/-- A state that shows nothing yet, or the cells and the pack of one telemetry. -/
def SharedState.Shows (s : SharedState) (P : Telemetry → Prop) : Prop :=
  (s.cells = none ∧ s.pack = none) ∨ ∃ t, P t ∧ s.cells = some t.cells ∧ s.pack = some t.pack

namespace Monitor

variable {configs : List BatteryConfig} {sql : OrderBy (Int × SampleRow)} {i : Nat} {c : BatteryConfig}
  {p : BatteryProtocol} {now system : Int} {history : History}

variable (sql now system history) in
/-- The state of a battery behind a run. -/
theorem run_state (hConfig : configs[i]? = some c) (hStart : BatteryProtocol.start c = some p)
    (es : List MonitorEvent) :
    ∃ d, ((Monitor.start configs now system history).run configs sql es).1.drivers i = some d ∧
      d.handler.state.connected = es.foldl (fun on e => e.connects i on) false ∧
      d.handler.state.cells =
        (shownReports configs i p now system es).getLast?.map (·.telemetry.cells) ∧
      d.handler.state.pack = (shownReports configs i p now system es).getLast?.map (·.telemetry.pack) ∧
      d.handler.state.updatedAt = ((shownReports configs i p now system es).getLast?.map Report.time).getD 0 := by
  have hFirst : (Monitor.start configs now system history).drivers i = some { protocol := p } :=
    start_driver hConfig hStart
  obtain ⟨d, hDriver, hConnected, hFollows⟩ := run_driver es hFirst
  refine ⟨d, hDriver, hConnected, ?_, ?_, ?_⟩
  · rw [hFollows.cells, Option.or_none]
    rfl
  · rw [hFollows.pack, Option.or_none]
    rfl
  · rw [hFollows.updatedAt rfl, hFollows.stateUpdate]
    rfl

variable (sql history) in
/-- What holds of all reports of a battery holds of its samples and of what its state shows. -/
theorem of_reports {es : List MonitorEvent} {P : Telemetry → Prop}
    (hReports : ∀ r ∈ reports i p now system es, P r.telemetry)
    (hConfig : configs[i]? = some c) (hStart : BatteryProtocol.start c = some p) :
    (∀ r ∈ recorded configs i p now system es, P r.telemetry) ∧
      ∃ d, ((Monitor.start configs now system history).run configs sql es).1.drivers i = some d ∧
        d.handler.state.Shows P := by
  obtain ⟨d, hDriver, -, hCells, hPack, -⟩ := run_state sql now system history hConfig hStart es
  refine ⟨fun r hr => hReports r ((passed_sublist 0 _).subset hr), d, hDriver, ?_⟩
  cases hLast : (shownReports configs i p now system es).getLast? with
  | none =>
    rw [hLast] at hCells hPack
    exact .inl ⟨hCells, hPack⟩
  | some r =>
    rw [hLast] at hCells hPack
    have hShown := (passed_sublist 0 _).subset (List.mem_of_getLast? hLast)
    exact .inr ⟨r.telemetry, hReports r hShown, hCells, hPack⟩

end Monitor

end BmsBridge
