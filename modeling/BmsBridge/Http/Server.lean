import BmsBridge.History.Samples
import Mathlib.Logic.Function.Basic

/-! `HttpServer`: the pages of `/history`, and the contexts that remember where a request's next page
begins. -/

namespace BmsBridge

def kCtxTtlSec : Int := 300

/-- What the JSON of a sample holds. -/
structure SampleJson where
  ts : Int
  pack : JkPackInfo
  avgCellMv : UInt16
  diffCellMv : UInt16
  cellsMv : List UInt16
  resistanceUohm : List UInt16
  deriving DecidableEq, Repr

def sampleToCjson (s : TelemetrySample) : SampleJson where
  ts := toMs s.ts
  pack := s.pack
  avgCellMv := s.cells.averageVoltageMv
  diffCellMv := s.cells.voltageDiffMv
  cellsMv := s.cells.voltagesMv
  resistanceUohm := s.cells.resistanceUohm

inductive Response where
  | notFound
  | page (reqId : String) (data : List SampleJson)
  deriving DecidableEq, Repr

def historyJson (reqId : String) (data : List TelemetrySample) : Response :=
  .page reqId (data.map sampleToCjson)

structure PageCtx where
  batteryId : Int
  timeStart : Int
  timeEnd : Int
  count : Int
  /-- On the steady clock, in ns. -/
  expiresAt : Int
  deriving DecidableEq, Repr

/-- The clock counts nanoseconds in 64 bits, which wrap around. -/
def wrapNs (ns : Int) : Int := ns.bmod 18446744073709551616

/-- `system_clock::from_time_t`. -/
def fromTimeT (seconds : Int) : Int := wrapNs (seconds * 1000000000)

/-- The parameters of an initial request, read as numbers; one that is absent or empty is `none`. -/
structure HistoryParams where
  timeStart : Option Int := none
  timeEnd : Option Int := none
  count : Option Int := none
  battery : Int := 0
  deriving DecidableEq, Repr

namespace HistoryParams

/-- The default window is the last day. -/
def start (params : HistoryParams) (now : Int) : Int :=
  (params.timeStart.map fromTimeT).getD (wrapNs (now - 24 * 3600 * 1000000000))

def stop (params : HistoryParams) (now : Int) : Int :=
  (params.timeEnd.map fromTimeT).getD now

def rows (params : HistoryParams) : Int :=
  match params.count with
  | some v => if 0 < v then v else 100
  | none => 100

end HistoryParams

structure HttpServer where
  history : History := {}
  ctxs : String → Option PageCtx := fun _ => none

/-- The bucket width of a page over a window. -/
def stepMs (start stop count : Int) : Int :=
  let winMs := toMs (wrapNs (stop - start))
  if 0 < winMs ∧ 0 < count then winMs.tdiv count else 0

namespace HttpServer

/-- The rows of a page, and whether there are older ones. -/
def page (s : HttpServer) (sql : OrderBy (Int × SampleRow)) (battery start stop count : Int) :
    List TelemetrySample :=
  s.history.rangeById sql battery start stop count (stepMs start stop count)

def probe (s : HttpServer) (sql : OrderBy (Int × SampleRow)) (battery start stop : Int) :
    List TelemetrySample :=
  s.history.rangeById sql battery start stop 1 0

def expires (steadyNow : Int) : Int := steadyNow + kCtxTtlSec * 1000000000

def setCtx (s : HttpServer) (reqId : String) (ctx : Option PageCtx) : HttpServer :=
  { s with ctxs := Function.update s.ctxs reqId ctx }

def handleHistoryNext (s : HttpServer) (sql : OrderBy (Int × SampleRow)) (reqId : String)
    (steadyNow : Int) : HttpServer × Response :=
  match s.ctxs reqId with
  | none => (s, .notFound)
  | some ctx =>
    let data := s.page sql ctx.batteryId ctx.timeStart ctx.timeEnd ctx.count
    match data.getLast? with
    | none => (s.setCtx reqId none, historyJson reqId data)
    | some back =>
      if s.probe sql ctx.batteryId ctx.timeStart back.ts = [] then
        (s.setCtx reqId none, historyJson reqId data)
      else
        let ctx := { ctx with timeEnd := back.ts, expiresAt := expires steadyNow }
        (s.setCtx reqId (some ctx), historyJson reqId data)

/-- `reqId` is the request's new id, a random one. -/
def handleHistoryInitial (s : HttpServer) (sql : OrderBy (Int × SampleRow)) (params : HistoryParams)
    (now : Int) (reqId : String) (steadyNow : Int) : HttpServer × Response :=
  let timeStart := params.start now
  let count := params.rows
  let data := s.page sql params.battery timeStart (params.stop now) count
  match data.getLast? with
  | none => (s, historyJson reqId data)
  | some back =>
    if s.probe sql params.battery timeStart back.ts = [] then (s, historyJson reqId data)
    else
      let ctx : PageCtx := {
        batteryId := params.battery
        timeStart
        timeEnd := back.ts
        count
        expiresAt := expires steadyNow }
      (s.setCtx reqId (some ctx), historyJson reqId data)

def onSweep (s : HttpServer) (steadyNow : Int) : HttpServer :=
  { s with ctxs := fun reqId => (s.ctxs reqId).filter fun ctx => steadyNow < ctx.expiresAt }

/-- What comes to the server, and what goes on in the history that it reads. -/
inductive Event where
  | initial (params : HistoryParams) (now : Int) (reqId : String) (steadyNow : Int)
  | next (reqId : String) (steadyNow : Int)
  | sweep (steadyNow : Int)
  | append (fails : AppendCall → Bool) (batteryId : String) (ts now : Int) (cells : JkCellInfo)
    (pack : JkPackInfo)

def step (s : HttpServer) (sql : OrderBy (Int × SampleRow)) : Event → HttpServer
  | .initial params now reqId steadyNow => (s.handleHistoryInitial sql params now reqId steadyNow).1
  | .next reqId steadyNow => (s.handleHistoryNext sql reqId steadyNow).1
  | .sweep steadyNow => s.onSweep steadyNow
  | .append fails batteryId ts now cells pack =>
    { s with history := s.history.append fails batteryId ts now cells pack }

/-- The answers to the requests for the next page of one request, while other things go on. -/
def nextPages (s : HttpServer) (sql : OrderBy (Int × SampleRow)) (reqId : String) :
    List Event → List Response
  | [] => []
  | .next id steadyNow :: events =>
    let (s', response) := s.handleHistoryNext sql id steadyNow
    if id = reqId then response :: s'.nextPages sql reqId events else s'.nextPages sql reqId events
  | event :: events => (s.step sql event).nextPages sql reqId events

end HttpServer

end BmsBridge
