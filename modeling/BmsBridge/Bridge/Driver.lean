import BmsBridge.Bridge.Dispatch
import BmsBridge.History.Life
import BmsBridge.Lib.Throttle
import BmsBridge.Pylontech.Master

/-! `BmsHandler` as a whole, with its protocol and the history: what the transports of the batteries and
the timers bring on the dispatcher's thread, one call after the other, with time passing in between. -/

namespace BmsBridge

/-- The two protocols that there are. -/
inductive BatteryProtocol where
  | jk (p : JkProtocol)
  | pylontech (p : PylontechMasterProtocol)

namespace BatteryProtocol

def reset : BatteryProtocol → BatteryProtocol
  | .jk p => .jk p.reset
  | .pylontech p => .pylontech p.reset

def pollRequest : BatteryProtocol → List UInt8
  | .jk _ => JkProtocol.pollRequest
  | .pylontech p => p.pollRequest

def settingsRequest : BatteryProtocol → List UInt8
  | .jk _ => JkProtocol.settingsRequest
  | .pylontech p => p.settingsRequest

def feed (data : List UInt8) : BatteryProtocol → Parsed × BatteryProtocol
  | .jk p => let (parsed, p) := p.feed data; (parsed, .jk p)
  | .pylontech p => let (parsed, p) := p.feed data; (parsed, .pylontech p)

/-- What `Battery::start` makes for a battery, if it monitors it. -/
def start (c : BatteryConfig) : Option BatteryProtocol :=
  match c.link with
  | .bluetooth => if c.protocol = "jk_bt" then some (.jk {}) else none
  | .ttl =>
    if c.protocol = "pylontech" then some (.pylontech { wireAdr := (c.pylontechAddress + 1).toUInt32.toUInt8 })
    else none
  | .reserve => none

end BatteryProtocol

/-- `history_interval_`, in nanoseconds: `Battery::start` passes the period of the polls. -/
def historyInterval (configs : List BatteryConfig) (battery : Nat) : Int :=
  ((configs[battery]?.map BatteryConfig.bmsPollPeriodMs).getD 0).toInt * 1000000

/-- `BmsHandler` is the part of it that the other batteries and the inverter see. -/
structure BatteryDriver where
  protocol : BatteryProtocol
  handler : BmsHandler := {}
  lastHistoryWrite : Int := 0

namespace BatteryDriver

variable (d : BatteryDriver)

/-- Nothing is sent for a protocol that needs no request. -/
def send (bytes : List UInt8) : List (List UInt8) := if bytes = [] then [] else [bytes]

/-- With the bytes handed to the transport. -/
def onConnected : BatteryDriver × List (List UInt8) :=
  let d := { d with protocol := d.protocol.reset, handler := d.handler.onConnected }
  (d, send d.protocol.settingsRequest ++ send d.protocol.pollRequest)

def onDisconnected : BatteryDriver :=
  { d with protocol := d.protocol.reset, handler := d.handler.onDisconnected }

/-- With the call of `append`, if one is due. -/
def onBytes (historyInterval stateUpdateInterval now : Int) (data : List UInt8) :
    BatteryDriver × Option Telemetry :=
  let (parsed, protocol) := d.protocol.feed data
  let handler := d.handler.onParsed stateUpdateInterval now parsed
  match parsed.telemetry with
  | some t =>
    if historyInterval ≤ now - d.lastHistoryWrite then
      ({ protocol, handler, lastHistoryWrite := now }, some t)
    else ({ d with protocol, handler }, none)
  | none => ({ d with protocol, handler }, none)

end BatteryDriver

/-! ### All batteries -/

structure Monitor where
  /-- The steady clock. -/
  now : Int
  /-- The system clock. -/
  system : Int
  /-- The drivers of the batteries that are monitored. -/
  drivers : Nat → Option BatteryDriver
  history : History := {}

inductive MonitorEvent where
  /-- Nanoseconds pass. -/
  | elapse (ns : Nat)
  /-- The system clock is set. -/
  | setClock (system : Int)
  | connected (battery : Nat)
  | disconnected (battery : Nat)
  /-- Bytes from a battery, and what SQLite does if a sample is appended. -/
  | bytes (battery : Nat) (fails : AppendCall → Bool) (data : List UInt8)
  | pollTick (battery : Nat)
  | settingsTick (battery : Nat)
  /-- The hourly timer. -/
  | aggregate (fails : AggregateCall → Bool)

/-- What a step has handed on: requests to the transports, and calls of the history. -/
structure Handed where
  requests : List (Nat × List UInt8) := []
  calls : List History.Call := []

namespace Monitor

def start (configs : List BatteryConfig) (now system : Int) (history : History) : Monitor where
  now
  system
  drivers i := (configs[i]?.bind BatteryProtocol.start).map fun protocol => { protocol }
  history

def setDriver (m : Monitor) (i : Nat) (d : BatteryDriver) : Monitor :=
  { m with drivers := Function.update m.drivers i (some d) }

def handOn (m : Monitor) (sql : OrderBy (Int × SampleRow)) (out : Handed) : Monitor × Handed :=
  ({ m with history := m.history.calls sql out.calls }, out)

def appendCall (configs : List BatteryConfig) (m : Monitor) (battery : Nat) (fails : AppendCall → Bool)
    (t : Telemetry) : History.Call :=
  .append {
    fails
    batteryId := (configs[battery]?.map BatteryConfig.name).getD ""
    ts := m.system
    now := m.system
    cells := t.cells
    pack := t.pack }

def step (configs : List BatteryConfig) (sql : OrderBy (Int × SampleRow)) (m : Monitor) :
    MonitorEvent → Monitor × Handed
  | .elapse ns => ({ m with now := m.now + ns, system := m.system + ns }, {})
  | .setClock system => ({ m with system }, {})
  | .connected i => match m.drivers i with
    | some d =>
      let (d, sent) := d.onConnected
      (m.setDriver i d, { requests := sent.map fun bytes => (i, bytes) })
    | none => (m, {})
  | .disconnected i => match m.drivers i with
    | some d => (m.setDriver i d.onDisconnected, {})
    | none => (m, {})
  | .bytes i fails data => match m.drivers i with
    | some d =>
      let (d, t) := d.onBytes (historyInterval configs i) (stateUpdateInterval configs i) m.now data
      (m.setDriver i d).handOn sql { calls := t.toList.map (m.appendCall configs i fails) }
    | none => (m, {})
  | .pollTick i => match m.drivers i with
    | some d => (m, { requests := (BatteryDriver.send d.protocol.pollRequest).map fun bytes => (i, bytes) })
    | none => (m, {})
  | .settingsTick i => match m.drivers i with
    | some d => (m, { requests := (BatteryDriver.send d.protocol.settingsRequest).map fun bytes => (i, bytes) })
    | none => (m, {})
  | .aggregate fails => m.handOn sql { calls := [.aggregatePending fails m.system] }

def run (configs : List BatteryConfig) (sql : OrderBy (Int × SampleRow)) (m : Monitor) :
    List MonitorEvent → Monitor × Handed
  | [] => (m, {})
  | e :: es =>
    let (m, out) := m.step configs sql e
    let (m, rest) := m.run configs sql es
    (m, { requests := out.requests ++ rest.requests, calls := out.calls ++ rest.calls })

end Monitor

/-! ### What the events say

About one battery, without the drivers: its protocol alone reads the bytes. -/

/-- Telemetry that a battery has reported, with the clocks at that moment. -/
structure Report where
  time : Int
  system : Int
  fails : AppendCall → Bool
  telemetry : Telemetry

def Report.args (name : String) (r : Report) : AppendArgs where
  fails := r.fails
  batteryId := name
  ts := r.system
  now := r.system
  cells := r.telemetry.cells
  pack := r.telemetry.pack

/-- Whether its transaction commits, in the history. -/
def Report.commits (r : Report) : Bool := !aborts r.fails r.telemetry.cells.voltagesMv.length

/-- What an event does with the protocol of a battery. -/
def BatteryProtocol.after (battery : Nat) (p : BatteryProtocol) : MonitorEvent → BatteryProtocol
  | .connected i => if i = battery then p.reset else p
  | .disconnected i => if i = battery then p.reset else p
  | .bytes i _ data => if i = battery then (p.feed data).2 else p
  | _ => p

namespace MonitorEvent

def clock (now : Int) : MonitorEvent → Int
  | .elapse ns => now + ns
  | _ => now

def systemClock (system : Int) : MonitorEvent → Int
  | .elapse ns => system + ns
  | .setClock system => system
  | _ => system

def setsClock : MonitorEvent → Bool
  | .setClock _ => true
  | _ => false

def connects (battery : Nat) (connected : Bool) : MonitorEvent → Bool
  | .connected i => i = battery ∨ connected
  | .disconnected i => i ≠ battery ∧ connected
  | _ => connected

def reported (battery : Nat) (p : BatteryProtocol) (now system : Int) : MonitorEvent → List Report
  | .bytes i fails data =>
    if i = battery then
      (p.feed data).1.telemetry.toList.map fun telemetry => { time := now, system, fails, telemetry }
    else []
  | _ => []

end MonitorEvent

/-- All that a battery reports in the course of the events. -/
def reports (battery : Nat) (p : BatteryProtocol) (now system : Int) : List MonitorEvent → List Report
  | [] => []
  | e :: es => e.reported battery p now system ++
      reports battery (p.after battery e) (e.clock now) (e.systemClock system) es

/-- The reports of which samples are appended. -/
def recorded (configs : List BatteryConfig) (battery : Nat) (p : BatteryProtocol) (now system : Int)
    (es : List MonitorEvent) : List Report :=
  Throttle.passed Report.time (historyInterval configs battery) 0 (reports battery p now system es)

/-- The reports that reach the state. -/
def shownReports (configs : List BatteryConfig) (battery : Nat) (p : BatteryProtocol) (now system : Int)
    (es : List MonitorEvent) : List Report :=
  Throttle.passed Report.time (stateUpdateInterval configs battery) 0 (reports battery p now system es)

end BmsBridge
