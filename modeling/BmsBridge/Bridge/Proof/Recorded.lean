import BmsBridge.Bridge.Driver
import BmsBridge.Bridge.Proof.Run
import BmsBridge.History.Proof.Life
import BmsBridge.Lib.Throttle

/-! What a battery reports goes through two throttles, whatever the other batteries do meanwhile: one in
front of the history, and one in front of the state that the inverter sees. -/

namespace BmsBridge

open Throttle

/-! ### One battery's driver -/

/-- A driver that these reports have come through. -/
structure BatteryDriver.Follows (configs : List BatteryConfig) (battery : Nat) (d : BatteryDriver)
    (rs : List Report) (d' : BatteryDriver) : Prop where
  historyWrite : d'.lastHistoryWrite =
    lastTime Report.time (historyInterval configs battery) d.lastHistoryWrite rs
  stateUpdate : d'.handler.lastStateUpdate =
    lastTime Report.time (stateUpdateInterval configs battery) d.handler.lastStateUpdate rs
  updatedAt : d.handler.state.updatedAt = d.handler.lastStateUpdate →
    d'.handler.state.updatedAt = d'.handler.lastStateUpdate
  cells : d'.handler.state.cells =
    ((passed Report.time (stateUpdateInterval configs battery) d.handler.lastStateUpdate rs).getLast?.map
      (·.telemetry.cells)).or d.handler.state.cells
  pack : d'.handler.state.pack =
    ((passed Report.time (stateUpdateInterval configs battery) d.handler.lastStateUpdate rs).getLast?.map
      (·.telemetry.pack)).or d.handler.state.pack

namespace BatteryDriver

variable {configs : List BatteryConfig} {battery : Nat} {d d' d'' : BatteryDriver} {r : Report}
  {rs rs' : List Report}

/-- What the throttles look at is as it was. -/
theorem Follows.same (hWrite : d'.lastHistoryWrite = d.lastHistoryWrite)
    (hUpdate : d'.handler.lastStateUpdate = d.handler.lastStateUpdate)
    (hUpdated : d'.handler.state.updatedAt = d.handler.state.updatedAt)
    (hCells : d'.handler.state.cells = d.handler.state.cells)
    (hPack : d'.handler.state.pack = d.handler.state.pack) : d.Follows configs battery [] d' where
  historyWrite := hWrite
  stateUpdate := hUpdate
  updatedAt := fun h => by rw [hUpdated, h, hUpdate]
  cells := hCells
  pack := hPack

theorem Follows.trans (h : d.Follows configs battery rs d') (h' : d'.Follows configs battery rs' d'') :
    d.Follows configs battery (rs ++ rs') d'' where
  historyWrite := by rw [h'.historyWrite, h.historyWrite, lastTime_append]
  stateUpdate := by rw [h'.stateUpdate, h.stateUpdate, lastTime_append]
  updatedAt := fun hSame => h'.updatedAt (h.updatedAt hSame)
  cells := by
    rw [h'.cells, h.cells, h.stateUpdate, passed_append, List.getLast?_append, ← Option.or_assoc]
    cases (passed Report.time (stateUpdateInterval configs battery) _ rs').getLast? <;> rfl
  pack := by
    rw [h'.pack, h.pack, h.stateUpdate, passed_append, List.getLast?_append, ← Option.or_assoc]
    cases (passed Report.time (stateUpdateInterval configs battery) _ rs').getLast? <;> rfl

theorem onParsed_none (h : BmsHandler) (interval now : Int) {p : Parsed} (hNone : p.telemetry = none) :
    (h.onParsed interval now p).lastStateUpdate = h.lastStateUpdate ∧
      (h.onParsed interval now p).state.updatedAt = h.state.updatedAt ∧
      (h.onParsed interval now p).state.cells = h.state.cells ∧
      (h.onParsed interval now p).state.pack = h.state.pack := by
  have hKept : ¬h.applies interval now p := by simp [BmsHandler.applies, hNone]
  obtain ⟨hCells, hPack, hUpdated, hLast⟩ := onParsed_kept hKept
  exact ⟨hLast, hUpdated, hCells, hPack⟩

theorem onParsed_some (h : BmsHandler) (interval now : Int) {p : Parsed} {t : Telemetry}
    (hSome : p.telemetry = some t) :
    ((h.onParsed interval now p).lastStateUpdate, (h.onParsed interval now p).state.updatedAt,
        (h.onParsed interval now p).state.cells, (h.onParsed interval now p).state.pack) =
      if interval ≤ now - h.lastStateUpdate then (now, now, some t.cells, some t.pack)
      else (h.lastStateUpdate, h.state.updatedAt, h.state.cells, h.state.pack) := by
  obtain ⟨telemetry, settings⟩ := p
  obtain rfl : telemetry = some t := hSome
  cases settings <;> simp only [BmsHandler.onParsed, BmsHandler.onTelemetry] <;> split <;> rfl

/-- One report, before both throttles. -/
theorem Follows.report (hWrite : d'.lastHistoryWrite =
      if historyInterval configs battery ≤ r.time - d.lastHistoryWrite then r.time else d.lastHistoryWrite)
    (hState : (d'.handler.lastStateUpdate, d'.handler.state.updatedAt, d'.handler.state.cells,
        d'.handler.state.pack) =
      if stateUpdateInterval configs battery ≤ r.time - d.handler.lastStateUpdate then
        (r.time, r.time, some r.telemetry.cells, some r.telemetry.pack)
      else (d.handler.lastStateUpdate, d.handler.state.updatedAt, d.handler.state.cells,
        d.handler.state.pack)) : d.Follows configs battery [r] d' := by
  have hUpdate : lastTime Report.time (stateUpdateInterval configs battery) d.handler.lastStateUpdate [r] =
      _ := lastTime_singleton
  by_cases hDue : stateUpdateInterval configs battery ≤ r.time - d.handler.lastStateUpdate
  · rw [if_pos hDue] at hState hUpdate
    simp only [Prod.mk.injEq] at hState
    obtain ⟨hLast, hUpdated, hCells, hPack⟩ := hState
    exact {
      historyWrite := hWrite.trans lastTime_singleton.symm
      stateUpdate := hLast.trans hUpdate.symm
      updatedAt := fun _ => hUpdated.trans hLast.symm
      cells := by rw [hCells, passed, if_pos hDue]; rfl
      pack := by rw [hPack, passed, if_pos hDue]; rfl }
  · rw [if_neg hDue] at hState hUpdate
    simp only [Prod.mk.injEq] at hState
    obtain ⟨hLast, hUpdated, hCells, hPack⟩ := hState
    exact {
      historyWrite := hWrite.trans lastTime_singleton.symm
      stateUpdate := hLast.trans hUpdate.symm
      updatedAt := fun hSame => by rw [hUpdated, hLast, hSame]
      cells := by rw [hCells, passed, if_neg hDue]; rfl
      pack := by rw [hPack, passed, if_neg hDue]; rfl }

variable (configs battery) in
/-- Bytes: what comes through to the state, and what to the history. -/
theorem onBytes_follows (d : BatteryDriver) (now system : Int) (fails : AppendCall → Bool)
    (data : List UInt8) :
    let out := d.onBytes (historyInterval configs battery) (stateUpdateInterval configs battery) now data
    let rs := (MonitorEvent.bytes battery fails data).reported battery d.protocol now system
    d.Follows configs battery rs out.1 ∧ out.1.protocol = (d.protocol.feed data).2 ∧
      out.1.handler.state.connected = d.handler.state.connected ∧
      out.2.toList.map (fun telemetry => ({ time := now, system, fails, telemetry } : Report)) =
        passed Report.time (historyInterval configs battery) d.lastHistoryWrite rs := by
  have hConnected := onParsed_connected d.handler (stateUpdateInterval configs battery) now
    (d.protocol.feed data).1
  cases hTelemetry : (d.protocol.feed data).1.telemetry with
  | none =>
    obtain ⟨hLast, hUpdated, hCells, hPack⟩ := onParsed_none d.handler
      (stateUpdateInterval configs battery) now hTelemetry
    simp only [onBytes, MonitorEvent.reported, if_pos, hTelemetry]
    exact ⟨.same rfl hLast hUpdated hCells hPack, trivial, hConnected, rfl⟩
  | some t =>
    have hState := onParsed_some d.handler (stateUpdateInterval configs battery) now hTelemetry
    simp only [onBytes, MonitorEvent.reported, if_pos, hTelemetry, Option.toList, List.map_cons,
      List.map_nil, passed]
    split
    · rename_i hDue
      exact ⟨.report (if_pos hDue).symm hState, rfl, hConnected, rfl⟩
    · rename_i hEarly
      exact ⟨.report (if_neg hEarly).symm hState, rfl, hConnected, rfl⟩

end BatteryDriver

/-! ### One event, and the run -/

namespace Monitor

variable {configs : List BatteryConfig} {sql : OrderBy (Int × SampleRow)} {m : Monitor} {i : Nat}
  {d : BatteryDriver}

@[simp] theorem setDriver_same (m : Monitor) (i : Nat) (d : BatteryDriver) :
    (m.setDriver i d).drivers i = some d := Function.update_self ..

theorem setDriver_other {j : Nat} (hNe : i ≠ j) (d : BatteryDriver) :
    (m.setDriver j d).drivers i = m.drivers i := Function.update_of_ne hNe ..

variable (configs sql) in
theorem step_clock (m : Monitor) (e : MonitorEvent) : (m.step configs sql e).1.now = e.clock m.now ∧
    (m.step configs sql e).1.system = e.systemClock m.system := by
  cases e with
  | elapse ns => exact ⟨rfl, rfl⟩
  | setClock system => exact ⟨rfl, rfl⟩
  | aggregate fails => exact ⟨rfl, rfl⟩
  | connected j | disconnected j | bytes j fails data | pollTick j | settingsTick j =>
    simp only [step]
    split <;> exact ⟨rfl, rfl⟩

variable (configs sql) in
/-- What an event does with a battery's driver. -/
theorem step_driver (e : MonitorEvent) (hDriver : m.drivers i = some d) :
    ∃ d', (m.step configs sql e).1.drivers i = some d' ∧ d'.protocol = d.protocol.after i e ∧
      d'.handler.state.connected = e.connects i d.handler.state.connected ∧
      d.Follows configs i (e.reported i d.protocol m.now m.system) d' := by
  have hSame {drivers : Nat → Option BatteryDriver} (h : drivers i = some d) :
      ∃ d', drivers i = some d' ∧ d'.protocol = d.protocol ∧
        d'.handler.state.connected = d.handler.state.connected ∧ d.Follows configs i [] d' :=
    ⟨d, h, rfl, rfl, .same rfl rfl rfl rfl rfl⟩
  cases e with
  | elapse ns => exact hSame hDriver
  | setClock system => exact hSame hDriver
  | aggregate fails => exact hSame hDriver
  | pollTick j | settingsTick j =>
    simp only [step]
    split <;> exact hSame hDriver
  | connected j =>
    by_cases hij : i = j
    · subst hij
      simp only [step, hDriver]
      refine ⟨_, setDriver_same .., ?_, ?_, .same rfl rfl rfl rfl rfl⟩
      · simp [BatteryProtocol.after, BatteryDriver.onConnected]
      · simp [MonitorEvent.connects, BatteryDriver.onConnected, BmsHandler.onConnected,
          SharedState.setConnected]
    · have hConnects (on : Bool) : (MonitorEvent.connected j).connects i on = on := by
        simp [MonitorEvent.connects, Ne.symm hij]
      rw [BatteryProtocol.after, if_neg (Ne.symm hij), hConnects]
      simp only [step]
      split
      · exact hSame ((setDriver_other hij _).trans hDriver)
      · exact hSame hDriver
  | disconnected j =>
    by_cases hij : i = j
    · subst hij
      simp only [step, hDriver]
      refine ⟨_, setDriver_same .., ?_, ?_, .same rfl rfl rfl rfl rfl⟩
      · simp [BatteryProtocol.after, BatteryDriver.onDisconnected]
      · simp [MonitorEvent.connects, BatteryDriver.onDisconnected, BmsHandler.onDisconnected,
          SharedState.setConnected]
    · have hConnects (on : Bool) : (MonitorEvent.disconnected j).connects i on = on := by
        simp [MonitorEvent.connects, Ne.symm hij]
      rw [BatteryProtocol.after, if_neg (Ne.symm hij), hConnects]
      simp only [step]
      split
      · exact hSame ((setDriver_other hij _).trans hDriver)
      · exact hSame hDriver
  | bytes j fails data =>
    by_cases hij : i = j
    · subst hij
      obtain ⟨hFollows, hProtocol, hConnected, -⟩ := d.onBytes_follows configs i m.now m.system fails data
      simp only [step, hDriver]
      refine ⟨_, setDriver_same .., ?_, hConnected, hFollows⟩
      rw [hProtocol, BatteryProtocol.after, if_pos rfl]
    · rw [BatteryProtocol.after, if_neg (Ne.symm hij), MonitorEvent.reported, if_neg (Ne.symm hij)]
      simp only [step]
      split
      · exact hSame ((setDriver_other hij _).trans hDriver)
      · exact hSame hDriver

/-- A battery's driver behind the run of the events. -/
theorem run_driver (es : List MonitorEvent) (hDriver : m.drivers i = some d) :
    ∃ d', (m.run configs sql es).1.drivers i = some d' ∧
      d'.handler.state.connected = es.foldl (fun on e => e.connects i on) d.handler.state.connected ∧
      d.Follows configs i (reports i d.protocol m.now m.system es) d' := by
  induction es generalizing m d with
  | nil => exact ⟨d, hDriver, rfl, .same rfl rfl rfl rfl rfl⟩
  | cons e es ih =>
    obtain ⟨mid, hMid, hProtocol, hConnected, hFollows⟩ := step_driver configs sql e hDriver
    obtain ⟨d', hLast, hConnected', hFollows'⟩ := ih hMid
    obtain ⟨hNow, hSystem⟩ := step_clock configs sql m e
    rw [hProtocol, hNow, hSystem] at hFollows'
    rw [hConnected] at hConnected'
    exact ⟨d', hLast, hConnected', hFollows.trans hFollows'⟩

/-! ### What the history gets -/

/-- The appends for a battery among the calls. -/
def appendsOf (name : String) (calls : List History.Call) : List AppendArgs :=
  (calls.filterMap History.appends?).filter fun a => a.batteryId = name

/-- The battery's own name, that no other one has. -/
structure Named (configs : List BatteryConfig) (battery : Nat) (name : String) : Prop where
  own : (configs[battery]?.map BatteryConfig.name).getD "" = name
  others : ∀ i, (configs[i]?.map BatteryConfig.name).getD "" = name → i = battery

theorem appendsOf_append (name : String) (calls calls' : List History.Call) :
    appendsOf name (calls ++ calls') = appendsOf name calls ++ appendsOf name calls' := by
  rw [appendsOf, List.filterMap_append, List.filter_append]
  rfl

theorem appendsOf_own {name : String} (hNamed : Named configs i name) (fails : AppendCall → Bool)
    (t : Option Telemetry) : appendsOf name (t.toList.map (m.appendCall configs i fails)) =
      (t.toList.map fun telemetry => ({ time := m.now, system := m.system, fails, telemetry } : Report)).map
        (Report.args name) := by
  cases t with
  | none => rfl
  | some t =>
    have hOwn := hNamed.own
    simp [appendsOf, History.appends?, appendCall, Report.args, hOwn]

theorem appendsOf_other {name : String} (hNamed : Named configs i name) {j : Nat} (hNe : i ≠ j)
    (fails : AppendCall → Bool) (t : Option Telemetry) :
    appendsOf name (t.toList.map (m.appendCall configs j fails)) = [] := by
  cases t with
  | none => rfl
  | some t =>
    have hOther : ¬(configs[j]?.map BatteryConfig.name).getD "" = name := fun h =>
      hNe (hNamed.others j h).symm
    simp [appendsOf, History.appends?, appendCall, hOther]

theorem step_appends {name : String} (hNamed : Named configs i name) (e : MonitorEvent)
    (hDriver : m.drivers i = some d) : appendsOf name (m.step configs sql e).2.calls =
      (passed Report.time (historyInterval configs i) d.lastHistoryWrite
        (e.reported i d.protocol m.now m.system)).map (Report.args name) := by
  cases e with
  | elapse ns => rfl
  | setClock system => rfl
  | aggregate fails => rfl
  | connected j | disconnected j | pollTick j | settingsTick j =>
    simp only [step]
    split <;> rfl
  | bytes j fails data =>
    by_cases hij : i = j
    · subst hij
      obtain ⟨-, -, -, hPassed⟩ := d.onBytes_follows configs i m.now m.system fails data
      simp only [step, hDriver, handOn]
      rw [← hPassed]
      exact appendsOf_own hNamed fails _
    · rw [MonitorEvent.reported, if_neg (Ne.symm hij)]
      simp only [step]
      split
      · exact appendsOf_other hNamed hij fails _
      · rfl

theorem run_appends {name : String} (hNamed : Named configs i name) (es : List MonitorEvent)
    (hDriver : m.drivers i = some d) : appendsOf name (m.run configs sql es).2.calls =
      (passed Report.time (historyInterval configs i) d.lastHistoryWrite
        (reports i d.protocol m.now m.system es)).map (Report.args name) := by
  induction es generalizing m d with
  | nil => rfl
  | cons e es ih =>
    obtain ⟨mid, hMid, hProtocol, -, hFollows⟩ := step_driver configs sql e hDriver
    obtain ⟨hNow, hSystem⟩ := step_clock configs sql m e
    have hRest := ih hMid
    rw [hProtocol, hNow, hSystem, hFollows.historyWrite] at hRest
    rw [reports, passed_append, List.map_append, ← hRest, ← step_appends hNamed e hDriver]
    exact appendsOf_append name _ _

/-! ### The clocks of the reports -/

theorem reported_cases (e : MonitorEvent) (p : BatteryProtocol) (now system : Int) :
    e.reported i p now system = [] ∨
      ∃ r, e.reported i p now system = [r] ∧ r.time = now ∧ r.system = system := by
  cases e with
  | bytes j fails data =>
    rw [MonitorEvent.reported]
    split
    · cases (p.feed data).1.telemetry with
      | none => exact .inl rfl
      | some t => exact .inr ⟨_, rfl, rfl, rfl⟩
    · exact .inl rfl
  | _ => exact .inl rfl

theorem clock_le (e : MonitorEvent) (now : Int) : now ≤ e.clock now := by
  cases e with
  | elapse ns => exact Int.le_add_of_nonneg_right (Int.natCast_nonneg ns)
  | _ => exact Int.le_refl now

theorem reports_ordered (p : BatteryProtocol) (now system : Int) (es : List MonitorEvent) :
    Ordered Report.time now (reports i p now system es) := by
  induction es generalizing p now system with
  | nil => exact trivial
  | cons e es ih =>
    have hRest := (ih (p.after i e) (e.clock now) (e.systemClock system)).weaken (clock_le e now)
    rw [reports]
    rcases reported_cases (i := i) e p now system with hNone | ⟨r, hOne, hTime, -⟩
    · rw [hNone]
      exact hRest
    · rw [hOne, List.singleton_append]
      refine ⟨by omega, ?_⟩
      rw [hTime]
      exact hRest

/-- Nobody sets the system clock. -/
def ClockKept (es : List MonitorEvent) : Prop := ∀ e ∈ es, ¬e.setsClock

instance (es : List MonitorEvent) : Decidable (ClockKept es) :=
  inferInstanceAs (Decidable (∀ e ∈ es, ¬e.setsClock))

theorem reports_clocks {es : List MonitorEvent} (hKept : ClockKept es) {p : BatteryProtocol}
    {now system : Int} {r : Report} (hr : r ∈ reports i p now system es) :
    r.system - system = r.time - now := by
  induction es generalizing p now system with
  | nil => cases hr
  | cons e es ih =>
    obtain ⟨hHead, hTail⟩ := List.forall_mem_cons.mp hKept
    rw [reports, List.mem_append] at hr
    rcases hr with hr | hr
    · rcases reported_cases (i := i) e p now system with hNone | ⟨r', hOne, hTime, hSystem⟩
      · rw [hNone] at hr
        cases hr
      · rw [hOne] at hr
        obtain rfl := List.mem_singleton.mp hr
        omega
    · have hLater := ih hTail hr
      have hBoth : e.systemClock system - system = e.clock now - now := by
        cases e with
        | elapse ns => simp only [MonitorEvent.systemClock, MonitorEvent.clock]; omega
        | setClock system => exact absurd rfl hHead
        | _ => simp only [MonitorEvent.systemClock, MonitorEvent.clock]; omega
      omega

/-- Reports an interval apart are recorded in milliseconds of their own. -/
theorem recorded_ascending {es : List MonitorEvent} (hKept : ClockKept es) {p : BatteryProtocol}
    {now system interval last : Int} (hSystem : 0 ≤ system) (hInterval : 1000000 ≤ interval) :
    (passed Report.time interval last (reports i p now system es)).Pairwise fun a b =>
      toMs a.system < toMs b.system := by
  have hSpaced : Spaced Report.time interval last _ := passed_spaced last (reports i p now system es)
  have hMem {r : Report} (hr : r ∈ passed Report.time interval last (reports i p now system es)) :
      r ∈ reports i p now system es := (passed_sublist last _).subset hr
  refine (hSpaced.pairwise (by omega)).imp_of_mem fun {a b} ha hb hApart => ?_
  have hA := reports_clocks hKept (hMem ha)
  have hB := reports_clocks hKept (hMem hb)
  have hNow := (reports_ordered (i := i) p now system es).mem (hMem ha)
  rw [toMs, toMs, Int.tdiv_eq_ediv_of_nonneg (by omega), Int.tdiv_eq_ediv_of_nonneg (by omega)]
  omega

/-! ### Whose appends there are -/

theorem step_idle (e : MonitorEvent) (hNone : m.drivers i = none) :
    (m.step configs sql e).1.drivers i = none := by
  have hOther {j : Nat} {d d' : BatteryDriver} (hj : m.drivers j = some d) :
      (m.setDriver j d').drivers i = none := by
    have hNe : i ≠ j := fun h => by
      rw [h, hj] at hNone
      cases hNone
    rw [setDriver_other hNe, hNone]
  cases e with
  | elapse ns => exact hNone
  | setClock system => exact hNone
  | aggregate fails => exact hNone
  | connected j | disconnected j | bytes j fails data =>
    simp only [step]
    split
    · exact hOther ‹_›
    · exact hNone
  | pollTick j | settingsTick j =>
    simp only [step]
    split <;> exact hNone

/-- What a step calls: an aggregation, or the append of a battery that is monitored. -/
theorem step_calls {e : MonitorEvent} {c : History.Call} (hc : c ∈ (m.step configs sql e).2.calls) :
    (∃ fails, c = .aggregatePending fails m.system) ∨
      ∃ j fails t, m.drivers j ≠ none ∧ c = m.appendCall configs j fails t := by
  cases e with
  | elapse ns => cases hc
  | setClock system => cases hc
  | aggregate fails => exact .inl ⟨fails, List.mem_singleton.mp hc⟩
  | connected j | disconnected j | pollTick j | settingsTick j =>
    rw [step] at hc
    split at hc <;> cases hc
  | bytes j fails data =>
    rw [step] at hc
    split at hc
    · rename_i d hDriver
      obtain ⟨t, -, hCall⟩ := List.mem_map.mp hc
      exact .inr ⟨j, fails, t, by simp [hDriver], hCall.symm⟩
    · cases hc

theorem step_owner {e : MonitorEvent} {a : AppendArgs}
    (ha : a ∈ (m.step configs sql e).2.calls.filterMap History.appends?) :
    ∃ j, m.drivers j ≠ none ∧ a.batteryId = (configs[j]?.map BatteryConfig.name).getD "" := by
  obtain ⟨c, hc, hArgs⟩ := List.mem_filterMap.mp ha
  rcases step_calls hc with ⟨fails, rfl⟩ | ⟨j, fails, t, hDriver, rfl⟩
  · cases hArgs
  · obtain rfl := Option.some.inj hArgs
    exact ⟨j, hDriver, rfl⟩

theorem run_owner {es : List MonitorEvent} {a : AppendArgs}
    (ha : a ∈ (m.run configs sql es).2.calls.filterMap History.appends?) :
    ∃ j, m.drivers j ≠ none ∧ a.batteryId = (configs[j]?.map BatteryConfig.name).getD "" := by
  induction es generalizing m with
  | nil => cases ha
  | cons e es ih =>
    simp only [run, List.filterMap_append, List.mem_append] at ha
    rcases ha with ha | ha
    · exact step_owner ha
    · obtain ⟨j, hDriver, hOwner⟩ := ih ha
      exact ⟨j, fun hNone => hDriver (step_idle e hNone), hOwner⟩

theorem run_history (es : List MonitorEvent) :
    (m.run configs sql es).1.history = m.history.calls sql (m.run configs sql es).2.calls := by
  induction es generalizing m with
  | nil => rfl
  | cons e es ih =>
    have hStep : (m.step configs sql e).1.history = m.history.calls sql (m.step configs sql e).2.calls := by
      cases e with
      | elapse ns => rfl
      | setClock system => rfl
      | aggregate fails => rfl
      | connected j | disconnected j | bytes j fails data | pollTick j | settingsTick j =>
        simp only [step]
        split <;> rfl
    rw [run, ih, hStep, History.calls, History.calls, History.calls, ← List.foldl_append]

/-- A run does not open the database again. -/
theorem run_reads (es : List MonitorEvent) :
    ∀ c ∈ (m.run configs sql es).2.calls, ∀ h : History, h.ReadsBack c := by
  induction es generalizing m with
  | nil => exact fun c hc => by cases hc
  | cons e es ih =>
    intro c hc h
    rcases List.mem_append.mp hc with hc | hc
    · rcases step_calls hc with ⟨fails, rfl⟩ | ⟨j, fails, t, -, rfl⟩ <;> trivial
    · exact ih c hc h

/-! ### The history of an accepted configuration -/

theorem named_of_wellFormed {bs : List BatteryConfig} (hWell : WellFormed bs) {c : BatteryConfig}
    (hConfig : bs[i]? = some c) : Named bs i c.name where
  own := by rw [hConfig]; rfl
  others := fun j hName => by
    cases hOther : bs[j]? with
    | none =>
      rw [hOther] at hName
      exact absurd hName.symm (hWell.names c (List.mem_of_getElem? hConfig))
    | some c' =>
      rw [hOther] at hName
      have hj : (bs.map BatteryConfig.name)[j]? = some c.name := by
        rw [List.getElem?_map, hOther]
        exact congrArg some hName
      have hi : (bs.map BatteryConfig.name)[i]? = some c.name := by
        rw [List.getElem?_map, hConfig]
        rfl
      have hLength := (List.getElem?_eq_some_iff.mp hj).1
      exact (List.getElem?_inj hLength hWell.distinct).mp (hj.trans hi.symm)

/-- What each key has its own order for is ordered key by key. -/
theorem pairwise_of_keys {α κ : Type} [DecidableEq κ] {key : α → κ} {R : α → α → Prop} {xs : List α}
    (h : ∀ k, (xs.filter fun x => key x = k).Pairwise R) :
    xs.Pairwise fun a b => key a = key b → R a b := by
  induction xs with
  | nil => exact .nil
  | cons x xs ih =>
    refine .cons (fun y hy hKey => ?_) (ih fun k => ?_)
    · have hOwn := h (key x)
      rw [List.filter_cons_of_pos (by simp)] at hOwn
      exact (List.pairwise_cons.mp hOwn).1 y (List.mem_filter.mpr ⟨hy, by simp [hKey]⟩)
    · exact (h k).sublist ((List.sublist_cons_self x xs).filter _)

section Start

variable {now system : Int} {history : History} {es : List MonitorEvent} {c : BatteryConfig}
  {p : BatteryProtocol}

theorem start_driver (hConfig : configs[i]? = some c) (hStart : BatteryProtocol.start c = some p) :
    (Monitor.start configs now system history).drivers i = some { protocol := p } := by
  simp only [Monitor.start, hConfig, Option.bind_some, hStart, Option.map_some]

theorem exists_start (hDriver : (Monitor.start configs now system history).drivers i ≠ none) :
    ∃ c p, configs[i]? = some c ∧ BatteryProtocol.start c = some p := by
  cases hConfig : configs[i]? with
  | none => simp [Monitor.start, hConfig] at hDriver
  | some c =>
    cases hStart : BatteryProtocol.start c with
    | none => simp [Monitor.start, hConfig, hStart] at hDriver
    | some p => exact ⟨c, p, rfl, hStart⟩

theorem historyInterval_pos (hConfig : configs[i]? = some c) (hPoll : 0 < c.bmsPollPeriodMs) :
    1000000 ≤ historyInterval configs i := by
  have hPos : 0 < c.bmsPollPeriodMs.toInt := Int32.lt_iff_toInt_lt.mp hPoll
  simp only [historyInterval, hConfig, Option.map_some, Option.getD_some]
  omega

variable (sql now system history) in
/-- The appends for a battery are those of its recorded reports. -/
theorem appendsOf_run (hWell : WellFormed configs) (hConfig : configs[i]? = some c)
    (hStart : BatteryProtocol.start c = some p) (es : List MonitorEvent) :
    appendsOf c.name ((Monitor.start configs now system history).run configs sql es).2.calls =
      (recorded configs i p now system es).map (Report.args c.name) :=
  run_appends (named_of_wellFormed hWell hConfig) es (start_driver hConfig hStart)

theorem appendsOf_ascending (hWell : WellFormed configs) (hConfig : configs[i]? = some c)
    (hStart : BatteryProtocol.start c = some p) (hPoll : 0 < c.bmsPollPeriodMs) (hSystem : 0 ≤ system)
    (hKept : ClockKept es) :
    (appendsOf c.name ((Monitor.start configs now system history).run configs sql es).2.calls).Pairwise
      fun a b => toMs a.ts < toMs b.ts := by
  rw [appendsOf_run sql now system history hWell hConfig hStart, List.pairwise_map]
  exact recorded_ascending hKept hSystem (historyInterval_pos hConfig hPoll)

variable (sql now history) in
/-- No two appends of a run are for one battery and one millisecond. -/
theorem run_distinct (hWell : WellFormed configs) (hPolls : ∀ c ∈ configs, 0 < c.bmsPollPeriodMs)
    (hSystem : 0 ≤ system) (hKept : ClockKept es) :
    (((Monitor.start configs now system history).run configs sql es).2.calls.filterMap
      History.appends?).Pairwise fun a b => a.batteryId = b.batteryId → toMs a.ts ≠ toMs b.ts := by
  refine pairwise_of_keys fun name => ?_
  cases hAll : ((((Monitor.start configs now system history).run configs sql es).2.calls.filterMap
      History.appends?).filter fun a => a.batteryId = name) with
  | nil => exact .nil
  | cons a rest =>
    obtain ⟨ha, hName⟩ := List.mem_filter.mp (hAll ▸ List.mem_cons_self)
    obtain ⟨j, hDriver, hOwner⟩ := run_owner ha
    obtain ⟨c, p, hConfig, hStart⟩ := exists_start hDriver
    have hOwn : name = c.name := by
      rw [← of_decide_eq_true hName, hOwner, hConfig]
      rfl
    rw [← hAll, hOwn]
    exact (appendsOf_ascending hWell hConfig hStart (hPolls c (List.mem_of_getElem? hConfig)) hSystem
      hKept).imp Int.ne_of_lt

/-- Of what a battery reports the history gets the first report, and then each that comes a poll period
or more after the last one that it got, whatever else happens in between.  After the clock's first period no
report is further behind, and no choice of reports with such distances, and from the clock's start, has
more of them. -/
theorem reports_throttled {path : String} {parse : CfgParse} {stale : Nat → BatteryLink} {app : AppConfig}
    (hAccept : loadConfig path parse stale = .ok app) (hConfig : app.batteries[i]? = some c)
    (hStart : BatteryProtocol.start c = some p) (hPoll : 0 < c.bmsPollPeriodMs) {now : Int}
    (hNow : 0 ≤ now) (system : Int) (sql : OrderBy (Int × SampleRow)) (history : History)
    (es : List MonitorEvent) :
    let interval := historyInterval app.batteries i
    let reported := reports i p now system es
    let kept := recorded app.batteries i p now system es
    appendsOf c.name ((Monitor.start app.batteries now system history).run app.batteries sql es).2.calls =
        kept.map (Report.args c.name) ∧
      kept.Sublist reported ∧ (kept.Pairwise fun a b => interval ≤ b.time - a.time) ∧
      (∀ r ∈ reported, interval ≤ r.time → ∃ a ∈ kept, a.time ≤ r.time ∧ r.time - a.time < interval) ∧
      ∀ chosen : List Report, chosen.Sublist reported → Spaced Report.time interval 0 chosen →
        chosen.length ≤ kept.length := by
  intro interval reported kept
  obtain ⟨cfg, rfl, -, -⟩ := loadConfig_ok hAccept
  have hInterval : 1000000 ≤ interval := historyInterval_pos hConfig hPoll
  have hOrdered : Ordered Report.time 0 reported := (reports_ordered p now system es).weaken hNow
  have hSpaced : Spaced Report.time interval 0 kept := passed_spaced 0 reported
  refine ⟨appendsOf_run sql now system history (loadConfig_wellFormed hAccept) hConfig hStart es,
    passed_sublist 0 reported,
    hSpaced.pairwise (by omega), fun r hr hUp => ?_, fun chosen hSub hApart => ?_⟩
  · obtain ⟨t, ht, hLe, hNear⟩ := passed_covers hOrdered (show 0 < interval by omega) hr
    rcases List.mem_cons.mp ht with rfl | ht
    · omega
    · obtain ⟨a, ha, rfl⟩ := List.mem_map.mp ht
      exact ⟨a, ha, hLe, hNear⟩
  · exact length_le_passed hOrdered (Int.le_refl 0) hSub hApart

/-- A report at once, one a second later, and one after another four seconds. -/
def threeReports : List MonitorEvent := [
  .connected 0,
  .bytes 0 (fun _ => false) emptyCellInfo,
  .elapse 1000000000,
  .bytes 0 (fun _ => false) emptyCellInfo,
  .elapse 4000000000,
  .bytes 0 (fun _ => false) emptyCellInfo]

theorem loadConfig_pair : loadConfig "bms_bridge.conf" (.tree pairTree) (fun _ => .ttl) =
    .ok (loaded pairTree .ttl) := by decide +kernel

theorem reports_throttled_three :
    (appendsOf "main" ((Monitor.start (loaded pairTree .ttl).batteries 60000000000 1000000000000 {}).run
      (loaded pairTree .ttl).batteries .stable threeReports).2.calls).map AppendArgs.ts =
        [1000000000000, 1005000000000] := by
  have hAppends : appendsOf "main" _ = _ := (reports_throttled (i := 0) (p := .jk {}) loadConfig_pair rfl rfl
    (by decide) (show (0 : Int) ≤ 60000000000 by decide) 1000000000000 .stable {} threeReports).1
  rw [hAppends]
  decide +kernel

/-- The new samples of a battery, as the history's samples have them. -/
def newSamples (configs : List BatteryConfig) (battery : Nat) (c : BatteryConfig) (p : BatteryProtocol)
    (now system : Int) (es : List MonitorEvent) : List TelemetrySample :=
  ((recorded configs battery p now system es).filter Report.commits).map fun r => (r.args c.name).sample

theorem committedOf_run (hWell : WellFormed configs) (hConfig : configs[i]? = some c)
    (hStart : BatteryProtocol.start c = some p) :
    (History.committedOf c.name (((Monitor.start configs now system history).run configs sql
      es).2.calls.filterMap History.appends?)).map AppendArgs.sample =
        newSamples configs i c p now system es := by
  have hCommitted (appends : List AppendArgs) : History.committedOf c.name appends =
      (appends.filter fun a => a.batteryId = c.name).filter fun a =>
        !aborts a.fails a.cells.voltagesMv.length := by
    rw [History.committedOf, List.filter_filter]
    exact List.filter_congr fun a _ => by simp [Bool.and_comm]
  have hAppends := appendsOf_run sql now system history hWell hConfig hStart es
  rw [appendsOf] at hAppends
  rw [hCommitted, hAppends, List.filter_map, List.map_map, newSamples]
  rfl

theorem newSamples_ascending (hConfig : configs[i]? = some c) (hPoll : 0 < c.bmsPollPeriodMs)
    (hSystem : 0 ≤ system) (hKept : ClockKept es) :
    (newSamples configs i c p now system es).Pairwise fun a b => a.tsMs < b.tsMs := by
  rw [newSamples, List.pairwise_map]
  exact (recorded_ascending hKept hSystem (historyInterval_pos hConfig hPoll)).filter _

theorem recorded_later (hSystem : 0 ≤ system) (hKept : ClockKept es) {r : Report}
    (hr : r ∈ recorded configs i p now system es) : toMs system ≤ toMs r.system := by
  have hReport := (passed_sublist 0 _).subset hr
  have hClocks := reports_clocks hKept hReport
  have hNow := (reports_ordered p now system es).mem hReport
  rw [toMs, toMs, Int.tdiv_eq_ediv_of_nonneg hSystem, Int.tdiv_eq_ediv_of_nonneg (by omega)]
  omega

theorem newSamples_later (hSystem : 0 ≤ system) (hKept : ClockKept es) {x : TelemetrySample}
    (hx : x ∈ newSamples configs i c p now system es) : toMs system ≤ x.tsMs := by
  obtain ⟨r, hr, rfl⟩ := List.mem_map.mp hx
  exact recorded_later hSystem hKept (List.mem_filter.mp hr).1

/-- No append of a run is dated before its start. -/
theorem run_later (hWell : WellFormed configs) (hSystem : 0 ≤ system) (hKept : ClockKept es)
    {a : AppendArgs} (ha : a ∈ ((Monitor.start configs now system history).run configs sql
      es).2.calls.filterMap History.appends?) : toMs system ≤ toMs a.ts := by
  obtain ⟨j, hDriver, hOwner⟩ := run_owner ha
  obtain ⟨c, p, hConfig, hStart⟩ := exists_start hDriver
  rw [hConfig] at hOwner
  have hOwn : a ∈ appendsOf c.name ((Monitor.start configs now system history).run configs sql es).2.calls :=
    List.mem_filter.mpr ⟨ha, by rw [hOwner]; simp⟩
  rw [appendsOf_run sql now system history hWell hConfig hStart] at hOwn
  obtain ⟨r, hr, rfl⟩ := List.mem_map.mp hOwn
  exact recorded_later hSystem hKept hr

/-- A run adds to what the queries of a battery's history return exactly the recorded reports in the window,
newest first. -/
theorem range_recorded {path : String} {parse : CfgParse} {stale : Nat → BatteryLink} {app : AppConfig}
    (hAccept : loadConfig path parse stale = .ok app) (hConfig : app.batteries[i]? = some c)
    (hStart : BatteryProtocol.start c = some p) (hPolls : ∀ c ∈ app.batteries, 0 < c.bmsPollPeriodMs)
    (now : Int) {system : Int} (hSystem : 0 ≤ system) {es : List MonitorEvent} (hKept : ClockKept es)
    (sql : OrderBy (Int × SampleRow)) (ramWindow : Int) (earlier : List History.Call)
    (hReads : Runs.Meets (fun h c => some (h.call sql c)) History.ReadsBack { ramWindow } earlier)
    (hDistinct : (earlier.filterMap History.appends?).Pairwise fun a b =>
      a.batteryId = b.batteryId → toMs a.ts ≠ toMs b.ts)
    (hEarlier : ∀ a ∈ earlier.filterMap History.appends?, toMs a.ts < toMs system) {id : Int}
    (hKnown : (id, c.name) ∈ (({ ramWindow } : History).calls sql earlier).db.batteries.rows)
    (start stop : Int) :
    let history := ({ ramWindow } : History).calls sql earlier
    let out := (Monitor.start app.batteries now system history).run app.batteries sql es
    (∀ call ∈ earlier ++ out.2.calls, History.PurgesBelow (toMs start) call) →
      out.1.history.rangeById sql id start stop 0 0 =
        (Paging.window TelemetrySample.tsMs (toMs start) (toMs stop)
          (newSamples app.batteries i c p now system es)).reverse.map TelemetrySample.stored ++
          history.rangeById sql id start stop 0 0 := by
  intro history out hPurges
  obtain ⟨cfg, rfl, -, -⟩ := loadConfig_ok hAccept
  have hWell := loadConfig_wellFormed hAccept
  have hHistory : out.1.history = ({ ramWindow } : History).calls sql (earlier ++ out.2.calls) := by
    rw [History.calls_append]
    exact run_history es
  have hBattery : (id, c.name) ∈ (({ ramWindow } : History).calls sql
      (earlier ++ out.2.calls)).db.batteries.rows := by
    rw [History.calls_append]
    exact (((History.Registry.initial ramWindow).extends_calls sql earlier).registry.extends_calls sql
      out.2.calls).rows.subset hKnown
  have hRun := run_distinct sql now history hWell hPolls hSystem hKept
  have hBoth : ((earlier ++ out.2.calls).filterMap History.appends?).Pairwise fun a b =>
      a.batteryId = b.batteryId → toMs a.ts ≠ toMs b.ts := by
    rw [List.filterMap_append]
    refine List.pairwise_append.mpr ⟨hDistinct, hRun, fun a ha b hb _ => ?_⟩
    have hOld := hEarlier a ha
    have hNew := run_later hWell hSystem hKept hb
    omega
  rw [hHistory, (History.range_calls (hReads.append (run_reads es)) hBoth hPurges c.name stop 0 0).2 id
      hBattery,
    (History.range_calls hReads hDistinct (fun call hc => hPurges call (List.mem_append_left _ hc))
      c.name stop 0 0).2 id hKnown]
  refine History.range_append ?_ (newSamples_ascending hConfig (hPolls c (List.mem_of_getElem? hConfig))
    hSystem hKept) ?_ _ _
  · rw [List.foldl_append, History.samplesOf_calls (History.known_calls hReads hKnown),
      committedOf_run hWell hConfig hStart]
  · intro x hx y hy
    have hOld := (History.samples_calls earlier {}).subset (List.mem_filter.mp hx).1
    rw [List.nil_append] at hOld
    obtain ⟨a, ha, rfl⟩ := List.mem_map.mp hOld
    exact Int.lt_of_lt_of_le (hEarlier a ha) (newSamples_later hSystem hKept hy)

/-- What an earlier process has left. -/
def earlierCalls : List History.Call := [
  .append { fails := fun _ => false, batteryId := "main", ts := 999000000000, now := 0, cells := {}, pack := {} }]

theorem range_recorded_three : ((((Monitor.start (loaded pairTree .ttl).batteries 60000000000 1000000000000
    (({ ramWindow := 0 } : History).calls .stable earlierCalls)).run (loaded pairTree .ttl).batteries .stable
      threeReports).1.history.rangeById .stable 1 0 2000000000000 0 0).map TelemetrySample.ts) =
        [1005000000000, 1000000000000, 999000000000] := by
  have hRange := range_recorded (i := 0) (p := .jk {}) loadConfig_pair rfl rfl (by decide) 60000000000
    (show (0 : Int) ≤ 1000000000000 by decide) (show ClockKept threeReports by decide) .stable 0 earlierCalls
    ⟨trivial, trivial⟩ (by decide) (by decide) (show ((1 : Int), "main") ∈ _ by decide) 0 2000000000000
    (by decide +kernel)
  rw [hRange]
  decide +kernel

end Start

end Monitor

end BmsBridge
