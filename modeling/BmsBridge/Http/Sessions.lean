import BmsBridge.History.Life
import BmsBridge.Http.Server

/-! The thread of the HTTP server with its clock: requests for `/history` of any number of clients, and
the sweep of the contexts.  The dispatcher's thread changes the history at any time, also between the two
queries of a request. -/

namespace BmsBridge

namespace HttpServer

/-- What the dispatcher's thread does to the history. -/
def calls (s : HttpServer) (sql : OrderBy (Int × SampleRow)) (cs : List History.Call) : HttpServer :=
  { s with history := s.history.calls sql cs }

/-- `handle_history_next`, with the calls of the history between its queries. -/
def historyNext (s : HttpServer) (sql : OrderBy (Int × SampleRow)) (reqId : String) (steadyNow : Int)
    (between : List History.Call) : HttpServer × Response :=
  match s.ctxs reqId with
  | none => (s.calls sql between, .notFound)
  | some ctx =>
    let data := s.page sql ctx.batteryId ctx.timeStart ctx.timeEnd ctx.count
    let s := s.calls sql between
    match data.getLast? with
    | none => (s.setCtx reqId none, historyJson reqId data)
    | some back =>
      if s.probe sql ctx.batteryId ctx.timeStart back.ts = [] then
        (s.setCtx reqId none, historyJson reqId data)
      else
        let ctx := { ctx with timeEnd := back.ts, expiresAt := expires steadyNow }
        (s.setCtx reqId (some ctx), historyJson reqId data)

/-- `handle_history_initial`, likewise. -/
def historyInitial (s : HttpServer) (sql : OrderBy (Int × SampleRow)) (params : HistoryParams)
    (now : Int) (reqId : String) (steadyNow : Int) (between : List History.Call) : HttpServer × Response :=
  let timeStart := params.start now
  let count := params.rows
  let data := s.page sql params.battery timeStart (params.stop now) count
  let s := s.calls sql between
  match data.getLast? with
  | none => (s, historyJson reqId data)
  | some back =>
    if s.probe sql params.battery timeStart back.ts = [] then (s, historyJson reqId data)
    else
      let ctx : PageCtx := {
        batteryId := params.battery
        timeStart
        timeEnd := back.ts
        count
        expiresAt := expires steadyNow }
      (s.setCtx reqId (some ctx), historyJson reqId data)

/-- Where nothing comes in between, these are the functions of the source as they stand. -/
theorem historyNext_alone (s : HttpServer) (sql : OrderBy (Int × SampleRow)) (reqId : String)
    (steadyNow : Int) :
    s.historyNext sql reqId steadyNow [] = s.handleHistoryNext sql reqId steadyNow := rfl

theorem historyInitial_alone (s : HttpServer) (sql : OrderBy (Int × SampleRow)) (params : HistoryParams)
    (now : Int) (reqId : String) (steadyNow : Int) : s.historyInitial sql params now reqId steadyNow [] =
      s.handleHistoryInitial sql params now reqId steadyNow := rfl

end HttpServer

/-- The query of a request for `/history`. -/
structure HistoryQuery where
  next : Bool := false
  reqId : Option String := none
  params : HistoryParams := {}

inductive HttpEvent where
  /-- Nanoseconds pass. -/
  | elapse (ns : Nat)
  /-- A request, at a time of the system clock; `uuid` is what `gen_uuid4` gives. -/
  | request (query : HistoryQuery) (system : Int) (uuid : String) (between : List History.Call)
  | sweep
  /-- The dispatcher's thread. -/
  | calls (cs : List History.Call)

structure HttpLoop where
  /-- The steady clock. -/
  now : Int
  server : HttpServer := {}

namespace HttpLoop

/-- `handle_history`, with the id of the session that is answered; nothing stands for the answer that
`next` requires an id. -/
def handleHistory (l : HttpLoop) (sql : OrderBy (Int × SampleRow)) (query : HistoryQuery) (system : Int)
    (uuid : String) (between : List History.Call) : HttpLoop × Option (String × Response) :=
  if query.next then
    match query.reqId with
    | none => ({ l with server := l.server.calls sql between }, none)
    | some reqId =>
      if reqId = "" then ({ l with server := l.server.calls sql between }, none)
      else
        let (server, response) := l.server.historyNext sql reqId l.now between
        ({ l with server }, some (reqId, response))
  else
    let (server, response) := l.server.historyInitial sql query.params system uuid l.now between
    ({ l with server }, some (uuid, response))

def step (sql : OrderBy (Int × SampleRow)) (l : HttpLoop) :
    HttpEvent → HttpLoop × Option (String × Response)
  | .elapse ns => ({ l with now := l.now + ns }, none)
  | .request query system uuid between => l.handleHistory sql query system uuid between
  | .sweep => ({ l with server := l.server.onSweep l.now }, none)
  | .calls cs => ({ l with server := l.server.calls sql cs }, none)

/-- With all answers, each under the id of its session. -/
def run (sql : OrderBy (Int × SampleRow)) (l : HttpLoop) :
    List HttpEvent → HttpLoop × List (String × Response)
  | [] => (l, [])
  | e :: es =>
    let (l, answer) := l.step sql e
    let (l, answers) := l.run sql es
    (l, answer.toList ++ answers)

/-- The answers of one session. -/
def answersTo (reqId : String) (answers : List (String × Response)) : List Response :=
  (answers.filter fun a => a.1 = reqId).map Prod.snd

end HttpLoop

end BmsBridge
