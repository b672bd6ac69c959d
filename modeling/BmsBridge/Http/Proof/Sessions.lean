import BmsBridge.Http.Proof.Pages
import BmsBridge.Http.Sessions
import BmsBridge.Lib.Cursor

/-! The sessions of `/history`: what one client reads page by page while anything else goes on, and how
long the server keeps the contexts. -/

namespace BmsBridge

open Paging History

namespace HttpServer

def pageJson (s : HttpServer) (sql : OrderBy (Int × SampleRow)) (battery start stop count : Int) :
    List SampleJson := (s.page sql battery start stop count).map sampleToCjson

/-- A page holds rows of its window, newest first, also where rows share a time. -/
theorem page_below (s : HttpServer) (sql : OrderBy (Int × SampleRow)) (battery start stop : Int)
    {count : Int} (hCount : 0 < count) : Cursor.IsBelow SampleJson.ts (toMs start) count (toMs stop)
      (s.pageJson sql battery start stop count) := by
  rw [pageJson]
  by_cases hBattery : battery ≤ 0
  · have hNone : s.page sql battery start stop count = [] := if_pos hBattery
    rw [hNone]
    exact ⟨Int.le_of_lt hCount, by simp, .nil⟩
  rw [page_json s sql start count stop (by omega)]
  refine ⟨?_, fun x hx => ?_, ?_⟩
  · rw [List.length_map, pageRows, selectSamples_eq, OrderBy.limit_of_pos, if_pos hCount,
      List.length_take]
    omega
  · obtain ⟨row, hRow, rfl⟩ := List.mem_map.mp hx
    rw [rowJson_ts]
    exact (mem_selectSamples sql hRow).2
  · rw [List.pairwise_map]
    simp only [rowJson_ts]
    rw [pageRows, selectSamples_eq, OrderBy.limit_of_pos, if_pos hCount]
    refine ((sql.sorted _ _).sublist (List.take_sublist ..)).imp fun h => ?_
    omega

/-- The context after a page: its next page ends at the last row, and it has been used just now. -/
def Continues (page : List SampleJson) (start count steadyNow : Int) (ctx : Option PageCtx) : Prop :=
  ∀ c ∈ ctx, c.timeStart = start ∧ c.count = count ∧ c.expiresAt = expires steadyNow ∧
    ∃ oldest, page.getLast? = some oldest ∧ toMs c.timeEnd = oldest.ts

theorem continues_none {page : List SampleJson} {start count steadyNow : Int} :
    Continues page start count steadyNow none := fun c hc => by cases hc

theorem continues_back {data : List TelemetrySample} {back : TelemetrySample} {c : PageCtx}
    {steadyNow : Int} (hBack : data.getLast? = some back) (hEnd : c.timeEnd = back.ts)
    (hExpires : c.expiresAt = expires steadyNow) :
    Continues (data.map sampleToCjson) c.timeStart c.count steadyNow (some c) := by
  intro c' hc
  rw [← Option.some.inj hc]
  refine ⟨rfl, rfl, hExpires, sampleToCjson back, ?_, ?_⟩
  · rw [List.getLast?_map, hBack, Option.map_some]
  · rw [hEnd]
    rfl

@[simp] theorem ctxs_setCtx (s : HttpServer) (reqId : String) (ctx : Option PageCtx) :
    (s.setCtx reqId ctx).ctxs reqId = ctx := Function.update_self ..

section Requests

variable (s : HttpServer) (sql : OrderBy (Int × SampleRow)) (reqId : String) (steadyNow : Int)
  (between : List Call)

/-- A request for the next page of a session that the server knows. -/
theorem historyNext_spec {ctx : PageCtx} (hCtx : s.ctxs reqId = some ctx) :
    (s.historyNext sql reqId steadyNow between).2 =
        .page reqId (s.pageJson sql ctx.batteryId ctx.timeStart ctx.timeEnd ctx.count) ∧
      Continues (s.pageJson sql ctx.batteryId ctx.timeStart ctx.timeEnd ctx.count) ctx.timeStart
        ctx.count steadyNow ((s.historyNext sql reqId steadyNow between).1.ctxs reqId) := by
  rw [historyNext, hCtx]
  simp only
  cases hBack : (s.page sql ctx.batteryId ctx.timeStart ctx.timeEnd ctx.count).getLast? with
  | none =>
    rw [ctxs_setCtx]
    exact ⟨rfl, continues_none⟩
  | some back =>
    simp only
    split
    · rw [ctxs_setCtx]
      exact ⟨rfl, continues_none⟩
    · rw [ctxs_setCtx]
      exact ⟨rfl, continues_back hBack rfl rfl⟩

theorem historyNext_unknown (hCtx : s.ctxs reqId = none) :
    s.historyNext sql reqId steadyNow between = (s.calls sql between, .notFound) := by
  rw [historyNext, hCtx]

/-- A request that begins a session.  Where there is no next page, no context is made. -/
theorem historyInitial_spec (params : HistoryParams) (now : Int) :
    (s.historyInitial sql params now reqId steadyNow between).2 = .page reqId
        (s.pageJson sql params.battery (params.start now) (params.stop now) params.rows) ∧
      ((s.historyInitial sql params now reqId steadyNow between).1.ctxs reqId = s.ctxs reqId ∨
        Continues (s.pageJson sql params.battery (params.start now) (params.stop now) params.rows)
          (params.start now) params.rows steadyNow
          ((s.historyInitial sql params now reqId steadyNow between).1.ctxs reqId)) := by
  rw [historyInitial]
  simp only
  cases hBack : (s.page sql params.battery (params.start now) (params.stop now)
    params.rows).getLast? with
  | none => exact ⟨rfl, .inl rfl⟩
  | some back =>
    simp only
    split
    · exact ⟨rfl, .inl rfl⟩
    · rw [ctxs_setCtx]
      exact ⟨rfl, .inr (continues_back hBack rfl rfl)⟩

theorem historyInitial_continues (params : HistoryParams) (now : Int) (hFresh : s.ctxs reqId = none) :
    Continues (s.pageJson sql params.battery (params.start now) (params.stop now) params.rows)
      (params.start now) params.rows steadyNow
      ((s.historyInitial sql params now reqId steadyNow between).1.ctxs reqId) := by
  refine (s.historyInitial_spec sql reqId steadyNow between params now).2.elim (fun hSame => ?_) id
  rw [hSame, hFresh]
  exact continues_none

variable {reqId} {id : String}

/-- Requests of other sessions leave a session's context as it is. -/
theorem ctxs_historyNext_other (hId : id ≠ reqId) :
    (s.historyNext sql id steadyNow between).1.ctxs reqId = s.ctxs reqId := by
  have hOther (ctx : Option PageCtx) : ((s.calls sql between).setCtx id ctx).ctxs reqId = s.ctxs reqId :=
    Function.update_of_ne hId.symm ..
  rw [historyNext]
  cases s.ctxs id with
  | none => rfl
  | some ctx =>
    simp only
    split
    · exact hOther _
    · split <;> exact hOther _

theorem ctxs_historyInitial_other (params : HistoryParams) (now : Int) (hId : id ≠ reqId) :
    (s.historyInitial sql params now id steadyNow between).1.ctxs reqId = s.ctxs reqId := by
  rw [historyInitial]
  simp only
  split
  · rfl
  · split
    · rfl
    · exact Function.update_of_ne hId.symm ..

end Requests

end HttpServer

namespace HttpLoop

open HttpServer

variable (l : HttpLoop) (sql : OrderBy (Int × SampleRow)) {uuid : String} {e : HttpEvent}

/-- The event begins a session under an id. -/
def Begins (uuid : String) : HttpEvent → Prop
  | .request query _ id _ => query.next = false ∧ id = uuid
  | _ => False

/-- The event asks for the next page of a session. -/
def Asks (uuid : String) : HttpEvent → Prop
  | .request query _ _ _ => query.next = true ∧ query.reqId = some uuid ∧ uuid ≠ ""
  | _ => False

/-- What a request of the session does. -/
theorem step_asks (hAsks : Asks uuid e) : ∃ between,
    l.step sql e = ({ l with server := (l.server.historyNext sql uuid l.now between).1 },
      some (uuid, (l.server.historyNext sql uuid l.now between).2)) := by
  cases e with
  | request query system id between =>
    obtain ⟨hNext, hId, hSome⟩ := hAsks
    refine ⟨between, ?_⟩
    rw [step, handleHistory, if_pos hNext, hId]
    exact if_neg hSome
  | elapse ns => exact hAsks.elim
  | sweep => exact hAsks.elim
  | calls cs => exact hAsks.elim

theorem step_initial {query : HistoryQuery} (uuid : String) (system : Int) (between : List Call)
    (hInitial : query.next = false) : l.step sql (.request query system uuid between) =
      ({ l with server := (l.server.historyInitial sql query.params system uuid l.now between).1 },
        some (uuid, (l.server.historyInitial sql query.params system uuid l.now between).2)) := by
  rw [step, handleHistory, if_neg (by rw [hInitial]; decide)]

/-- The context of a session after an event that is not a request of it. -/
def keptBy (l : HttpLoop) (ctx : Option PageCtx) : HttpEvent → Option PageCtx
  | .sweep => ctx.filter fun ctx => l.now < ctx.expiresAt
  | _ => ctx

theorem step_other (hBegins : ¬ Begins uuid e) (hAsks : ¬ Asks uuid e) :
    (∀ answer ∈ (l.step sql e).2, answer.1 ≠ uuid) ∧
      (l.step sql e).1.server.ctxs uuid = l.keptBy (l.server.ctxs uuid) e := by
  cases e with
  | elapse ns => exact ⟨by simp [step], rfl⟩
  | sweep => exact ⟨by simp [step], rfl⟩
  | calls cs => exact ⟨by simp [step], rfl⟩
  | request query system id between =>
    rw [step, handleHistory]
    split
    · rename_i hNext
      split
      · exact ⟨by simp, rfl⟩
      · rename_i reqId hId
        split
        · exact ⟨by simp, rfl⟩
        · rename_i hSome
          have hNe : reqId ≠ uuid := by
            rintro rfl
            exact hAsks ⟨hNext, hId, hSome⟩
          refine ⟨fun answer h => ?_, l.server.ctxs_historyNext_other sql l.now between hNe⟩
          rw [← Option.some.inj h]
          exact hNe
    · rename_i hNext
      have hNe : id ≠ uuid := fun h => hBegins ⟨by simpa using hNext, h⟩
      refine ⟨fun answer h => ?_, ?_⟩
      · rw [← Option.some.inj h]
        exact hNe
      · exact l.server.ctxs_historyInitial_other sql l.now between query.params system hNe

/-- The answers of a session, with one event more. -/
theorem answersTo_run (es : List HttpEvent) : answersTo uuid (l.run sql (e :: es)).2 =
    answersTo uuid (l.step sql e).2.toList ++ answersTo uuid ((l.step sql e).1.run sql es).2 := by
  rw [answersTo, answersTo, answersTo, ← List.map_append, ← List.filter_append]
  rfl

theorem answersTo_other {answer : Option (String × Response)} (h : ∀ a ∈ answer, a.1 ≠ uuid) :
    answersTo uuid answer.toList = [] := by
  cases answer with
  | none => rfl
  | some a => simpa [answersTo] using h a rfl

theorem answersTo_own (response : Response) :
    answersTo uuid (some (uuid, response)).toList = [response] := by
  simp [answersTo]

/-- Once its context is gone, a session is not found any more. -/
theorem run_gone {es : List HttpEvent} (hBegins : ∀ e ∈ es, ¬ Begins uuid e)
    (hGone : l.server.ctxs uuid = none) :
    ∃ missing, answersTo uuid (l.run sql es).2 = List.replicate missing .notFound := by
  induction es generalizing l with
  | nil => exact ⟨0, rfl⟩
  | cons e es ih =>
    have hRest := fun e' he => hBegins e' (List.mem_cons_of_mem _ he)
    rw [answersTo_run]
    by_cases hAsks : Asks uuid e
    · obtain ⟨between, hStep⟩ := l.step_asks sql hAsks
      rw [hStep, historyNext_unknown _ _ _ _ _ hGone, answersTo_own]
      obtain ⟨missing, hMissing⟩ := ih { l with server := l.server.calls sql between } hRest hGone
      exact ⟨missing + 1, by rw [hMissing, List.replicate_succ]; rfl⟩
    · obtain ⟨hNone, hCtx⟩ := l.step_other sql (hBegins e List.mem_cons_self) hAsks
      rw [answersTo_other hNone, List.nil_append]
      refine ih _ hRest ?_
      rw [hCtx, hGone]
      cases e <;> rfl

/-- Some pages that follow one another, and from then on nothing. -/
def Session (uuid : String) (low size bound : Int) (answers : List Response) : Prop :=
  ∃ pages missing, answers = pages.map (.page uuid) ++ List.replicate missing .notFound ∧
    Cursor.Follow SampleJson.ts low size bound pages

/-- A page, and what is answered with the context that it leaves. -/
theorem Session.page {es : List HttpEvent} {page : List SampleJson} {start size bound : Int}
    (hBegins : ∀ e ∈ es, ¬ Begins uuid e)
    (hPage : Cursor.IsBelow SampleJson.ts (toMs start) size bound page)
    {steadyNow : Int}
    (hContinues : Continues page start size steadyNow (l.server.ctxs uuid))
    (hRest : ∀ ctx, l.server.ctxs uuid = some ctx → ctx.timeStart = start → ctx.count = size →
      Session uuid (toMs start) size (toMs ctx.timeEnd) (answersTo uuid (l.run sql es).2)) :
    Session uuid (toMs start) size bound (.page uuid page :: answersTo uuid (l.run sql es).2) := by
  cases hCtx : l.server.ctxs uuid with
  | none =>
    obtain ⟨missing, hMissing⟩ := run_gone _ sql hBegins hCtx
    refine ⟨[page], missing, by rw [hMissing]; rfl, ?_⟩
    cases hLast : page.getLast? with
    | none =>
      rw [List.getLast?_eq_none_iff.mp hLast]
      exact .empty bound
    | some oldest => exact .page hPage hLast (.done _)
  | some ctx =>
    obtain ⟨hStart, hSize, -, oldest, hLast, hEnd⟩ := hContinues ctx hCtx
    obtain ⟨pages, missing, hAnswers, hFollow⟩ := hRest ctx hCtx hStart hSize
    rw [hEnd] at hFollow
    exact ⟨page :: pages, missing, by rw [hAnswers]; rfl, .page hPage hLast hFollow⟩

theorem run_session {es : List HttpEvent} {ctx : PageCtx} (hBegins : ∀ e ∈ es, ¬ Begins uuid e)
    (hCtx : l.server.ctxs uuid = some ctx) (hCount : 0 < ctx.count) :
    Session uuid (toMs ctx.timeStart) ctx.count (toMs ctx.timeEnd)
      (answersTo uuid (l.run sql es).2) := by
  induction es generalizing l ctx with
  | nil => exact ⟨[], 0, rfl, .done _⟩
  | cons e es ih =>
    have hRest := fun e' he => hBegins e' (List.mem_cons_of_mem _ he)
    rw [answersTo_run]
    by_cases hAsks : Asks uuid e
    · obtain ⟨between, hStep⟩ := l.step_asks sql hAsks
      obtain ⟨hAnswer, hContinues⟩ := l.server.historyNext_spec sql uuid l.now between hCtx
      rw [hStep, hAnswer, answersTo_own]
      refine Session.page _ sql hRest (page_below _ sql _ _ _ hCount) hContinues
        fun ctx' hCtx' hStart hSize => ?_
      rw [← hStart, ← hSize]
      exact ih _ hRest hCtx' (hSize ▸ hCount)
    · obtain ⟨hNone, hKept⟩ := l.step_other sql (hBegins e List.mem_cons_self) hAsks
      rw [answersTo_other hNone, List.nil_append]
      cases hCtx' : (l.step sql e).1.server.ctxs uuid with
      | none =>
        obtain ⟨missing, hMissing⟩ := run_gone _ sql hRest hCtx'
        exact ⟨[], missing, hMissing, .done _⟩
      | some ctx' =>
        have hSame : ctx' = ctx := by
          rw [hCtx', hCtx] at hKept
          cases e with
          | sweep =>
            have hMem : ctx' ∈ (some ctx).filter fun ctx => l.now < ctx.expiresAt := hKept.symm
            exact (Option.some.inj (Option.mem_filter_iff.mp hMem).1).symm
          | _ => exact Option.some.inj hKept
        rw [hSame] at hCtx'
        exact ih _ hRest hCtx' hCount

/-- What a client gets that begins a session and asks for its next pages, while any other clients do the
same, contexts are swept, and samples are appended, aggregated and purged at any time, also while a
request is being answered: first pages, then that there is no such session.  No page is longer than
asked for, all rows are of the window, each page goes from newer rows to older ones, and every page is
older than those before it, so that no row comes twice. -/
theorem session_pages (sql : OrderBy (Int × SampleRow)) (l : HttpLoop) (query : HistoryQuery)
    (system : Int) (uuid : String) (between : List Call) (es : List HttpEvent)
    (hInitial : query.next = false) (hFits : query.params.Representable system)
    (hFresh : l.server.ctxs uuid = none) (hBegins : ∀ e ∈ es, ¬ Begins uuid e) :
    ∃ (pages : List (List SampleJson)) (missing : Nat),
      answersTo uuid (l.run sql (.request query system uuid between :: es)).2 =
        pages.map (.page uuid) ++ List.replicate missing .notFound ∧
      (∀ page ∈ pages, (page.length : Int) ≤ query.params.rows ∧ page.Pairwise fun a b => b.ts ≤ a.ts) ∧
      (∀ a ∈ pages.flatten, toMs (query.params.askedStart system) ≤ a.ts ∧
        a.ts < toMs (query.params.askedStop system)) ∧
      (pages.Pairwise fun p q => ∀ a ∈ p, ∀ b ∈ q, b.ts < a.ts) ∧
      pages.length ≤
        (toMs (query.params.askedStop system) - toMs (query.params.askedStart system)).toNat + 1 := by
  rw [← hFits.start_eq, ← hFits.stop_eq]
  have hStep := l.step_initial sql uuid system between hInitial
  have hAnswer := (l.server.historyInitial_spec sql uuid l.now between query.params system).1
  have hContinues := l.server.historyInitial_continues sql uuid l.now between query.params system hFresh
  have hRows := query.params.rows_pos
  obtain ⟨pages, missing, hAnswers, hFollow⟩ := Session.page
    { l with server := (l.server.historyInitial sql query.params system uuid l.now between).1 } sql
    hBegins (page_below _ sql _ _ _ hRows) hContinues fun ctx hCtx hStart hSize => by
      rw [← hStart, ← hSize]
      exact run_session _ sql hBegins hCtx (hSize ▸ hRows)
  refine ⟨pages, missing, ?_, fun p hp => ⟨?_, ?_⟩, hFollow.within, hFollow.apart, hFollow.length_le⟩
  · rw [answersTo_run, hStep, hAnswer, answersTo_own]
    exact hAnswers
  · exact hFollow.short (Int.le_of_lt hRows) p hp
  · exact hFollow.newestFirst p hp

/-- A server with two rows of a battery, of the first and the second second. -/
def twoRows : HttpLoop :=
  let early : Table SampleRow := (∅ : Table SampleRow).insert (.ofSample 1 1000 {} {})
  { now := 0, server := { history := { db := { samples := early.insert (.ofSample 1 2000 {} {}) } } } }

/-- The first ten seconds, one row at a time. -/
def rowByRow : HistoryQuery := {
  params := { timeStart := some 0, timeEnd := some 10, count := some 1, battery := 1 } }

def nextOf (uuid : String) : HttpEvent := .request { next := true, reqId := some uuid } 0 "" []

def dataOf : Response → Option (List SampleJson)
  | .notFound => none
  | .page _ data => some data

/-- Two clients read in turn.  Each has a page of the newer row and one of the older row. -/
theorem session_pages_two : ∃ (pages : List (List SampleJson)) (missing : Nat),
    answersTo "a" (twoRows.run .stable [.request rowByRow 0 "a" [], .request rowByRow 0 "b" [], .sweep,
      nextOf "a", nextOf "b", nextOf "a"]).2 =
        pages.map (.page "a") ++ List.replicate missing .notFound ∧
      pages.map (List.map SampleJson.ts) = [[2000], [1000]] ∧
      pages.Pairwise fun p q => ∀ a ∈ p, ∀ b ∈ q, b.ts < a.ts := by
  obtain ⟨pages, missing, hAnswers, -, -, hOlder, -⟩ := session_pages .stable twoRows rowByRow 0 "a" []
    [.request rowByRow 0 "b" [], .sweep, nextOf "a", nextOf "b", nextOf "a"] rfl (by decide) rfl
    (by simp [Begins, nextOf])
  have hData : (answersTo "a" (twoRows.run .stable [.request rowByRow 0 "a" [],
      .request rowByRow 0 "b" [], .sweep, nextOf "a", nextOf "b", nextOf "a"]).2).filterMap dataOf =
        pages := by
    rw [hAnswers, List.filterMap_append, List.filterMap_map, List.filterMap_replicate_of_none rfl,
      List.append_nil]
    exact List.filterMap_some
  refine ⟨pages, missing, hAnswers, ?_, hOlder⟩
  rw [← hData]
  decide +kernel

/-! ### How long a context is kept -/

/-- When the contexts are swept. -/
def sweepTimes (sql : OrderBy (Int × SampleRow)) (l : HttpLoop) : List HttpEvent → List Int
  | [] => []
  | .sweep :: es => l.now :: (l.step sql .sweep).1.sweepTimes sql es
  | e :: es => (l.step sql e).1.sweepTimes sql es

/-- When the requests are answered, and of which sessions they are. -/
def uses (sql : OrderBy (Int × SampleRow)) (l : HttpLoop) : List HttpEvent → List (Int × String)
  | [] => []
  | e :: es => ((l.step sql e).2.toList.map fun a => (l.now, a.1)) ++ (l.step sql e).1.uses sql es

theorem run_append (es es' : List HttpEvent) :
    (l.run sql (es ++ es')).1 = ((l.run sql es).1.run sql es').1 := by
  induction es generalizing l with
  | nil => rfl
  | cons e es ih => exact ih _

theorem uses_append (es es' : List HttpEvent) :
    l.uses sql (es ++ es') = l.uses sql es ++ (l.run sql es).1.uses sql es' := by
  induction es generalizing l with
  | nil => rfl
  | cons e es ih =>
    rw [List.cons_append, uses, uses, ih, List.append_assoc]
    rfl

section Kept

variable {es : List HttpEvent} {ctx : PageCtx}
  (hOthers : ∀ e ∈ es, ¬ Begins uuid e ∧ ¬ Asks uuid e)

include hOthers

theorem run_none (hGone : l.server.ctxs uuid = none) : (l.run sql es).1.server.ctxs uuid = none := by
  induction es generalizing l with
  | nil => exact hGone
  | cons e es ih =>
    obtain ⟨⟨hBegin, hAsk⟩, hRest⟩ := List.forall_mem_cons.mp hOthers
    refine ih (l.step sql e).1 hRest ?_
    rw [(l.step_other sql hBegin hAsk).2, hGone]
    cases e <;> rfl

/-- A context stays until it is swept away, when it has expired. -/
theorem run_kept (hCtx : l.server.ctxs uuid = some ctx) : (l.run sql es).1.server.ctxs uuid =
    if ∀ t ∈ l.sweepTimes sql es, t < ctx.expiresAt then some ctx else none := by
  induction es generalizing l with
  | nil => simpa [run, sweepTimes] using hCtx
  | cons e es ih =>
    obtain ⟨⟨hBegin, hAsk⟩, hRest⟩ := List.forall_mem_cons.mp hOthers
    have hKept := (l.step_other sql hBegin hAsk).2
    rw [hCtx] at hKept
    cases e with
    | sweep =>
      have hSwept : (l.step sql .sweep).1.server.ctxs uuid =
          (some ctx).filter fun ctx => l.now < ctx.expiresAt := hKept
      simp only [sweepTimes, List.forall_mem_cons]
      by_cases hFresh : l.now < ctx.expiresAt
      · rw [Option.filter_some, if_pos (decide_eq_true hFresh)] at hSwept
        simp only [hFresh, true_and]
        exact ih _ hRest hSwept
      · rw [Option.filter_some, if_neg (by simpa using hFresh)] at hSwept
        rw [if_neg fun h => hFresh h.1]
        exact run_none (l.step sql .sweep).1 sql hRest hSwept
    | elapse ns => exact ih _ hRest hKept
    | calls cs => exact ih _ hRest hKept
    | request query system id between => exact ih _ hRest hKept

end Kept

theorem expires_of_asks {ctx : PageCtx} (hAsks : Asks uuid e)
    (hCtx : (l.step sql e).1.server.ctxs uuid = some ctx) : ctx.expiresAt = expires l.now := by
  obtain ⟨between, hStep⟩ := l.step_asks sql hAsks
  rw [hStep] at hCtx
  cases hOld : l.server.ctxs uuid with
  | none =>
    rw [historyNext_unknown _ _ _ _ _ hOld] at hCtx
    cases hOld.symm.trans hCtx
  | some old => exact ((l.server.historyNext_spec sql uuid l.now between hOld).2 ctx hCtx).2.2.1

/-- A context after an event: an old one that no sweep has taken, or one that has just been used. -/
theorem step_ctx {ctx : PageCtx} (hCtx : (l.step sql e).1.server.ctxs uuid = some ctx) :
    (l.server.ctxs uuid = some ctx ∧ (e = .sweep → l.now < ctx.expiresAt)) ∨
      (∃ response, (l.step sql e).2 = some (uuid, response)) ∧ ctx.expiresAt = expires l.now := by
  by_cases hAsks : Asks uuid e
  · refine .inr ⟨?_, l.expires_of_asks sql hAsks hCtx⟩
    obtain ⟨between, hStep⟩ := l.step_asks sql hAsks
    exact ⟨_, congrArg Prod.snd hStep⟩
  by_cases hBegins : Begins uuid e
  · cases e with
    | request query system id between =>
      obtain ⟨hInitial, rfl⟩ := hBegins
      rw [l.step_initial sql id system between hInitial] at hCtx ⊢
      rcases (l.server.historyInitial_spec sql id l.now between query.params system).2 with
        hSame | hContinues
      · exact .inl ⟨hSame.symm.trans hCtx, fun h => by cases h⟩
      · exact .inr ⟨⟨_, rfl⟩, (hContinues ctx hCtx).2.2.1⟩
    | elapse ns => exact hBegins.elim
    | sweep => exact hBegins.elim
    | calls cs => exact hBegins.elim
  · have hKept := (l.step_other sql hBegins hAsks).2
    rw [hCtx] at hKept
    cases e with
    | sweep =>
      have hMem : ctx ∈ (l.server.ctxs uuid).filter fun ctx => l.now < ctx.expiresAt := hKept.symm
      obtain ⟨hOld, hFresh⟩ := Option.mem_filter_iff.mp hMem
      exact .inl ⟨hOld, fun _ => by simpa using hFresh⟩
    | elapse ns => exact .inl ⟨hKept.symm, fun h => by cases h⟩
    | calls cs => exact .inl ⟨hKept.symm, fun h => by cases h⟩
    | request query system id between => exact .inl ⟨hKept.symm, fun h => by cases h⟩

theorem step_now : l.now ≤ (l.step sql e).1.now := by
  cases e with
  | elapse ns => exact Int.le_add_of_nonneg_right (Int.natCast_nonneg ns)
  | sweep => exact Int.le_refl _
  | calls cs => exact Int.le_refl _
  | request query system id between =>
    rw [step, handleHistory]
    split
    · split
      · exact Int.le_refl _
      · split <;> exact Int.le_refl _
    · exact Int.le_refl _

/-- A context after a run: an old one, or one that has been used in it. -/
theorem run_ctx {es : List HttpEvent} {ctx : PageCtx}
    (hCtx : (l.run sql es).1.server.ctxs uuid = some ctx) :
    l.server.ctxs uuid = some ctx ∨
      ∃ t, (t, uuid) ∈ l.uses sql es ∧ ctx.expiresAt = expires t ∧ l.now ≤ t := by
  induction es generalizing l with
  | nil => exact .inl hCtx
  | cons e es ih =>
    rw [uses]
    rcases ih (l.step sql e).1 hCtx with hOld | ⟨t, hUse, hExpires, hTime⟩
    · rcases l.step_ctx sql hOld with ⟨hOld, -⟩ | ⟨⟨response, hAnswer⟩, hExpires⟩
      · exact .inl hOld
      · refine .inr ⟨l.now, List.mem_append_left _ ?_, hExpires, Int.le_refl _⟩
        rw [hAnswer]
        exact List.mem_singleton.mpr rfl
    · exact .inr ⟨t, List.mem_append_right _ hUse, hExpires, Int.le_trans (l.step_now sql) hTime⟩

/-- A request that leaves a context has used it. -/
theorem expires_of_request {ctx : PageCtx}
    (hRequest : Asks uuid e ∨ (Begins uuid e ∧ l.server.ctxs uuid = none))
    (hCtx : (l.step sql e).1.server.ctxs uuid = some ctx) : ctx.expiresAt = expires l.now := by
  rcases hRequest with hAsks | ⟨-, hFresh⟩
  · exact l.expires_of_asks sql hAsks hCtx
  · rcases l.step_ctx sql hCtx with ⟨hOld, -⟩ | ⟨-, hExpires⟩
    · cases hFresh.symm.trans hOld
    · exact hExpires

/-- A session whose answer has left more to read goes on exactly if no sweep has come 300 s or more after
that answer, whatever else has gone on. -/
theorem session_kept_iff (sql : OrderBy (Int × SampleRow)) (l : HttpLoop) (uuid : String)
    (e e' : HttpEvent) (es : List HttpEvent)
    (hRequest : Asks uuid e ∨ (Begins uuid e ∧ l.server.ctxs uuid = none))
    (hMore : (l.step sql e).1.server.ctxs uuid ≠ none)
    (hOthers : ∀ e ∈ es, ¬ Begins uuid e ∧ ¬ Asks uuid e) (hNext : Asks uuid e') :
    (∃ page, (((l.step sql e).1.run sql es).1.step sql e').2 = some (uuid, .page uuid page)) ↔
      ∀ t ∈ (l.step sql e).1.sweepTimes sql es, t < l.now + 300 * 1000000000 := by
  obtain ⟨ctx, hCtx⟩ := Option.ne_none_iff_exists'.mp hMore
  have hExpires : ctx.expiresAt = l.now + 300 * 1000000000 := l.expires_of_request sql hRequest hCtx
  have hKept := (l.step sql e).1.run_kept sql hOthers hCtx
  obtain ⟨between, hStep⟩ := ((l.step sql e).1.run sql es).1.step_asks sql hNext
  rw [hStep]
  rw [hExpires] at hKept
  by_cases hSwept : ∀ t ∈ (l.step sql e).1.sweepTimes sql es, t < l.now + 300 * 1000000000
  · rw [if_pos hSwept] at hKept
    rw [(historyNext_spec _ sql uuid _ between hKept).1]
    exact iff_of_true ⟨_, rfl⟩ hSwept
  · rw [if_neg hSwept] at hKept
    rw [historyNext_unknown _ _ _ _ _ hKept]
    exact iff_of_false (by simp) hSwept

/-- It is there after 299 s. -/
theorem session_kept_iff_swept : ∃ page,
    ((((twoRows.step .stable (.request rowByRow 0 "a" [])).1.run .stable
      [.elapse 299000000000, .sweep]).1.step .stable (nextOf "a")).2 = some ("a", .page "a" page)) :=
  (session_kept_iff .stable twoRows "a" (.request rowByRow 0 "a" []) (nextOf "a")
    [.elapse 299000000000, .sweep] (.inr ⟨⟨rfl, rfl⟩, rfl⟩) (by decide)
    (by simp [Begins, Asks]) ⟨rfl, rfl, by decide⟩).mpr (by decide)

/-- A context that a sweep has left has been used less than 300 s before it, or after it. -/
theorem used_of_kept (before after : List HttpEvent) {ctx : PageCtx}
    (hNone : ∀ id, l.server.ctxs id = none)
    (hCtx : (l.run sql (before ++ .sweep :: after)).1.server.ctxs uuid = some ctx) :
    ∃ t, (t, uuid) ∈ l.uses sql (before ++ .sweep :: after) ∧
      (l.run sql before).1.now - 300 * 1000000000 < t := by
  rw [run_append] at hCtx
  rw [uses_append]
  rcases ((l.run sql before).1.step sql .sweep).1.run_ctx sql hCtx with hLeft | ⟨t, hUse, -, hTime⟩
  · rcases (l.run sql before).1.step_ctx sql hLeft with ⟨hOld, hFresh⟩ | ⟨⟨response, hAnswer⟩, -⟩
    · rcases l.run_ctx sql hOld with hFirst | ⟨t, hUse, hExpires, -⟩
      · cases (hNone uuid).symm.trans hFirst
      · refine ⟨t, List.mem_append_left _ hUse, ?_⟩
        have hLast := hFresh rfl
        rw [hExpires, expires, kCtxTtlSec] at hLast
        omega
    · cases hAnswer
  · refine ⟨t, List.mem_append_right _ (List.mem_append_right _ hUse), ?_⟩
    have hNow : (l.run sql before).1.now ≤ t := hTime
    omega

/-- The server keeps no more contexts than there have been requests since 300 s before any of its
sweeps. -/
theorem contexts_bounded (sql : OrderBy (Int × SampleRow)) (l : HttpLoop) (before after : List HttpEvent)
    (ids : List String) (hNone : ∀ id, l.server.ctxs id = none) (hDistinct : ids.Nodup)
    (hKept : ∀ id ∈ ids, (l.run sql (before ++ .sweep :: after)).1.server.ctxs id ≠ none) :
    ids.length ≤ (l.uses sql (before ++ .sweep :: after)).countP
      fun use => (l.run sql before).1.now - 300 * 1000000000 < use.1 := by
  rw [List.countP_eq_length_filter, ← List.length_map Prod.snd]
  refine (List.subperm_of_subset hDistinct fun id hId => ?_).length_le
  obtain ⟨ctx, hCtx⟩ := Option.ne_none_iff_exists'.mp (hKept id hId)
  obtain ⟨t, hUse, hTime⟩ := l.used_of_kept sql before after hNone hCtx
  exact List.mem_map.mpr ⟨(t, id), List.mem_filter.mpr ⟨hUse, decide_eq_true hTime⟩, rfl⟩

/-- Three sessions begin, the first one 350 s before a sweep, the second one 150 s before it and the last
one behind it. -/
def beforeSweep : List HttpEvent := [
  .request rowByRow 0 "a" [], .elapse 200000000000, .request rowByRow 0 "b" [], .elapse 150000000000]

def afterSweep : List HttpEvent := [.request rowByRow 0 "c" []]

/-- The first one's context is swept away, and the other two are kept. -/
theorem contexts_bounded_three :
    (twoRows.run .stable (beforeSweep ++ .sweep :: afterSweep)).1.server.ctxs "a" = none ∧
      ["b", "c"].length ≤ (twoRows.uses .stable (beforeSweep ++ .sweep :: afterSweep)).countP
        fun use => (twoRows.run .stable beforeSweep).1.now - 300 * 1000000000 < use.1 :=
  ⟨by decide, contexts_bounded .stable twoRows beforeSweep afterSweep ["b", "c"] (fun _ => rfl) (by decide)
    (by decide)⟩

end HttpLoop

end BmsBridge
