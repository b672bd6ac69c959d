import BmsBridge.History.Proof.Range
import BmsBridge.Http.Server
import BmsBridge.Lib.Runs

/-! The pages of `/history` cover the window of a request, whatever else goes on meanwhile. -/

namespace BmsBridge

open Paging History

/-! ### Times of the clock -/

/-- The nanoseconds that 64 bits hold. -/
def InClock (ns : Int) : Prop := -9223372036854775808 ≤ ns ∧ ns ≤ 9223372036854775807

instance (ns : Int) : Decidable (InClock ns) := inferInstanceAs (Decidable (_ ∧ _))

theorem wrapNs_of_inClock {ns : Int} (h : InClock ns) : wrapNs ns = ns := by
  obtain ⟨hLow, hHigh⟩ := h
  exact Int.bmod_eq_of_le hLow (by omega)

/-- A time stamp in whole milliseconds is less than one of them below the time that it is not before. -/
theorem lt_ofMs_of_le {ns t : Int} (h : toMs ns ≤ t) : ns - 1000000 < ofMs t := by
  have hParts := Int.mul_tdiv_add_tmod ns 1000000
  have hRest := Int.tmod_lt_of_pos ns (show (0 : Int) < 1000000 by decide)
  rw [toMs] at h
  rw [ofMs]
  omega

theorem ofMs_lt_of_lt {ns t : Int} (h : t < toMs ns) : ofMs t < ns := by
  have hParts := Int.mul_tdiv_add_tmod ns 1000000
  have hRest := Int.lt_tmod_of_pos ns (show (0 : Int) < 1000000 by decide)
  rw [toMs] at h
  rw [ofMs]
  omega

/-- The width of the buckets of a page: its range in whole milliseconds, over the rows asked for. -/
def bucketMs (start stop count : Int) : Int := (toMs (stop - start)).tdiv count

theorem stepMs_eq {start stop count : Int} (hWidth : InClock (stop - start))
    (hStep : 0 < stepMs start stop count) : stepMs start stop count = bucketMs start stop count := by
  rw [stepMs, wrapNs_of_inClock hWidth] at hStep ⊢
  split at hStep
  · rename_i hPos
    rw [if_pos hPos, bucketMs]
  · exact absurd hStep (Int.lt_irrefl 0)

/-! ### The rows of a page and its JSON -/

/-- What the JSON of a row is made of. -/
def rowJson (db : Database) (row : Int × SampleRow) : SampleJson :=
  sampleToCjson (db.telemetrySample "" row)

@[simp] theorem rowJson_ts (db : Database) (row : Int × SampleRow) : (rowJson db row).ts = row.2.tsMs :=
  toMs_ofMs _

namespace HttpServer

/-- The rows of the page that ends at a time point. -/
def pageRows (h : History) (sql : OrderBy (Int × SampleRow)) (battery start count stop : Int) :
    List (Int × SampleRow) :=
  h.selectSamples sql battery (toMs start) (toMs stop) count (stepMs start stop count)

/-- The next page ends at the oldest row of this one. -/
def resume (row : Int × SampleRow) : Int := ofMs row.2.tsMs

/-- The pages that are left of a request, from the end of its next one. -/
def Pages (h : History) (sql : OrderBy (Int × SampleRow)) (battery start count : Int) :
    Int → List (List (Int × SampleRow)) → Prop :=
  Walk (fun row => row.2.tsMs) (toMs start) (h.samplesOf battery)
    (pageRows h sql battery start count) resume

section OnePage

variable (s : HttpServer) (sql : OrderBy (Int × SampleRow)) {battery : Int} (start count stop : Int)
  (hBattery : 0 < battery)

include hBattery

theorem page_eq : ∃ name, s.page sql battery start stop count =
    (pageRows s.history sql battery start count stop).map (s.history.db.telemetrySample name) := by
  refine ⟨s.history.batteryName battery, ?_⟩
  rw [page, rangeById, if_neg (by omega), rangeCore, pageRows]

theorem page_json : (s.page sql battery start stop count).map sampleToCjson =
    (pageRows s.history sql battery start count stop).map (rowJson s.history.db) := by
  obtain ⟨name, hPage⟩ := page_eq s sql start count stop hBattery
  rw [hPage, List.map_map]
  rfl

theorem page_back : ((s.page sql battery start stop count).getLast?.map TelemetrySample.ts) =
    (pageRows s.history sql battery start count stop).getLast?.map resume := by
  obtain ⟨name, hPage⟩ := page_eq s sql start count stop hBattery
  rw [hPage, List.getLast?_map, Option.map_map]
  rfl

theorem probe_eq_nil : s.probe sql battery start stop = [] ↔
    ∀ row ∈ s.history.samplesOf battery, toMs start ≤ row.2.tsMs → toMs stop ≤ row.2.tsMs := by
  rw [probe, rangeById, if_neg (by omega), rangeCore, List.map_eq_nil_iff, selectSamples_one_eq_nil]

end OnePage

/-- Where the next page ends, if there is one. -/
def nextStop (s : HttpServer) (sql : OrderBy (Int × SampleRow)) (battery start count stop : Int) :
    Option Int :=
  (s.page sql battery start stop count).getLast?.bind fun back =>
    if s.probe sql battery start back.ts = [] then none else some back.ts

section Handlers

variable {s : HttpServer} {sql : OrderBy (Int × SampleRow)} {battery start count stop : Int}
  {reqId : String} {steadyNow : Int}

theorem handleHistoryNext_eq {ctx : PageCtx} (hCtx : s.ctxs reqId = some ctx) :
    s.handleHistoryNext sql reqId steadyNow =
      (s.setCtx reqId
          ((s.nextStop sql ctx.batteryId ctx.timeStart ctx.count ctx.timeEnd).map fun stop =>
            { ctx with timeEnd := stop, expiresAt := expires steadyNow }),
        historyJson reqId (s.page sql ctx.batteryId ctx.timeStart ctx.timeEnd ctx.count)) := by
  rw [handleHistoryNext, hCtx, nextStop]
  simp only
  cases (s.page sql ctx.batteryId ctx.timeStart ctx.timeEnd ctx.count).getLast? with
  | none => rfl
  | some back =>
    simp only [Option.bind_some]
    split <;> rfl

/-- The context of a request whose next page ends at a time point. -/
def initialCtx (params : HistoryParams) (now steadyNow stop : Int) : PageCtx where
  batteryId := params.battery
  timeStart := params.start now
  timeEnd := stop
  count := params.rows
  expiresAt := expires steadyNow

theorem handleHistoryInitial_eq {params : HistoryParams} {now : Int} (hFresh : s.ctxs reqId = none) :
    s.handleHistoryInitial sql params now reqId steadyNow =
      (s.setCtx reqId
          ((s.nextStop sql params.battery (params.start now) params.rows (params.stop now)).map
            (initialCtx params now steadyNow)),
        historyJson reqId
          (s.page sql params.battery (params.start now) (params.stop now) params.rows)) := by
  have hSame : s.setCtx reqId none = s := by
    rw [setCtx, ← hFresh, Function.update_eq_self]
  rw [handleHistoryInitial, nextStop]
  cases (s.page sql params.battery (params.start now) (params.stop now) params.rows).getLast? with
  | none =>
    simp only [Option.bind_none, Option.map_none, hSame]
  | some back =>
    simp only [Option.bind_some]
    split
    · simp only [Option.map_none, hSame]
    · rfl

/-- The next page is the first one of the pages that are left, and the rest of them begins where it
ends. -/
theorem Pages.cases {pages : List (List (Int × SampleRow))} (hBattery : 0 < battery)
    (hPages : Pages s.history sql battery start count stop pages) :
    ∃ rest, pages = pageRows s.history sql battery start count stop :: rest ∧
      ((rest = [] ∧ s.nextStop sql battery start count stop = none) ∨
        ∃ stop', s.nextStop sql battery start count stop = some stop' ∧
          Pages s.history sql battery start count stop' rest) := by
  have hBack := page_back s sql start count stop hBattery
  rw [nextStop]
  cases hPages with
  | last _ hNoOlder =>
    refine ⟨[], rfl, .inl ⟨rfl, ?_⟩⟩
    cases hLast : (pageRows s.history sql battery start count stop).getLast? with
    | none =>
      rw [hLast, Option.map_none, Option.map_eq_none_iff] at hBack
      rw [hBack, Option.bind_none]
    | some oldest =>
      rw [hLast, Option.map_some] at hBack
      obtain ⟨back, hData, hTs⟩ := Option.map_eq_some_iff.mp hBack
      rw [hData, Option.bind_some, if_pos]
      rw [probe_eq_nil s sql _ _ hBattery, hTs, resume, toMs_ofMs]
      exact hNoOlder oldest hLast
  | more _ oldest pages hLast hOlder hRest =>
    refine ⟨pages, rfl, .inr ⟨resume oldest, ?_, hRest⟩⟩
    rw [hLast, Option.map_some] at hBack
    obtain ⟨back, hData, hTs⟩ := Option.map_eq_some_iff.mp hBack
    rw [hData, Option.bind_some, if_neg, hTs]
    rw [probe_eq_nil s sql _ _ hBattery, hTs, resume, toMs_ofMs]
    intro h
    obtain ⟨row, hRow, hLow, hHigh⟩ := hOlder
    have hNot := h row hRow hLow
    omega

end Handlers

/-! ### A request while other things go on -/

/-- The pages that the server has left for a request, with their JSON. -/
def Left (s : HttpServer) (sql : OrderBy (Int × SampleRow)) (reqId : String)
    (battery start count : Int) (json : List (List SampleJson)) : Prop :=
  (s.ctxs reqId = none ∧ json = []) ∨ ∃ ctx pages, s.ctxs reqId = some ctx ∧
    ctx.batteryId = battery ∧ ctx.timeStart = start ∧ ctx.count = count ∧
    Pages s.history sql battery start count ctx.timeEnd pages ∧
    json = pages.map (List.map (rowJson s.history.db))

/-- What leaves a request's pages alone: other requests, a sweep before the context expires, and
samples that are not older than the oldest row already returned, where the next page ends. -/
def Spares (reqId : String) (s : HttpServer) : Event → Prop
  | .initial _ _ id _ => id ≠ reqId
  | .next _ _ => True
  | .sweep steadyNow => ∀ ctx, s.ctxs reqId = some ctx → steadyNow < ctx.expiresAt
  | .append _ _ ts _ _ _ => ∀ ctx, s.ctxs reqId = some ctx → toMs ctx.timeEnd ≤ toMs ts

section Serving

variable {s : HttpServer} {sql : OrderBy (Int × SampleRow)} {reqId : String}
  {battery start count : Int} {json : List (List SampleJson)}

/-- The context for the pages behind the first one. -/
theorem Left.of_rest {stop : Int} {rest : List (List (Int × SampleRow))} {ctx : Int → PageCtx}
    (hCtx : ∀ stop, (ctx stop).batteryId = battery ∧ (ctx stop).timeStart = start ∧
      (ctx stop).count = count ∧ (ctx stop).timeEnd = stop)
    (hRest : (rest = [] ∧ s.nextStop sql battery start count stop = none) ∨
      ∃ stop', s.nextStop sql battery start count stop = some stop' ∧
        Pages s.history sql battery start count stop' rest) :
    (s.setCtx reqId ((s.nextStop sql battery start count stop).map ctx)).Left sql reqId battery start
      count (rest.map (List.map (rowJson s.history.db))) := by
  rcases hRest with ⟨rfl, hNone⟩ | ⟨stop', hSome, hPages⟩
  · rw [hNone]
    exact .inl ⟨Function.update_self .., rfl⟩
  · rw [hSome]
    obtain ⟨hBattery, hStart, hCount, hEnd⟩ := hCtx stop'
    refine .inr ⟨ctx stop', rest, Function.update_self .., hBattery, hStart, hCount, ?_, rfl⟩
    rw [hEnd]
    exact hPages

theorem Left.next (steadyNow : Int) (hBattery : 0 < battery)
    (hLeft : s.Left sql reqId battery start count json) :
    (s.handleHistoryNext sql reqId steadyNow).2 = (json.head?.elim .notFound (.page reqId)) ∧
      (s.handleHistoryNext sql reqId steadyNow).1.Left sql reqId battery start count json.tail := by
  rcases hLeft with ⟨hNone, rfl⟩ | ⟨ctx, pages, hCtx, rfl, rfl, rfl, hPages, rfl⟩
  · rw [handleHistoryNext, hNone]
    exact ⟨rfl, .inl ⟨hNone, rfl⟩⟩
  · obtain ⟨rest, rfl, hRest⟩ := Pages.cases hBattery hPages
    rw [handleHistoryNext_eq hCtx]
    constructor
    · rw [historyJson, page_json s sql _ _ _ hBattery]
      rfl
    · exact Left.of_rest (fun stop => ⟨rfl, rfl, rfl, rfl⟩) hRest

theorem Left.same {s' : HttpServer} (hHistory : s'.history = s.history)
    (hCtx : s'.ctxs reqId = s.ctxs reqId) (hLeft : s.Left sql reqId battery start count json) :
    s'.Left sql reqId battery start count json := by
  rw [Left, hHistory, hCtx]
  exact hLeft

theorem history_handleHistoryNext {steadyNow : Int} :
    (s.handleHistoryNext sql reqId steadyNow).1.history = s.history := by
  rw [handleHistoryNext]
  cases s.ctxs reqId with
  | none => rfl
  | some ctx =>
    simp only
    split
    · rfl
    · split <;> rfl

theorem ctxs_handleHistoryNext {steadyNow : Int} {id : String} (hId : id ≠ reqId) :
    (s.handleHistoryNext sql id steadyNow).1.ctxs reqId = s.ctxs reqId := by
  have hOther (ctx : Option PageCtx) : (s.setCtx id ctx).ctxs reqId = s.ctxs reqId :=
    Function.update_of_ne hId.symm ..
  rw [handleHistoryNext]
  cases s.ctxs id with
  | none => rfl
  | some ctx =>
    simp only
    split
    · exact hOther _
    · split <;> exact hOther _

theorem handleHistoryInitial_other {params : HistoryParams} {now steadyNow : Int} {id : String}
    (hId : id ≠ reqId) :
    (s.handleHistoryInitial sql params now id steadyNow).1.history = s.history ∧
      (s.handleHistoryInitial sql params now id steadyNow).1.ctxs reqId = s.ctxs reqId := by
  rw [handleHistoryInitial]
  simp only
  split
  · exact ⟨rfl, rfl⟩
  · split
    · exact ⟨rfl, rfl⟩
    · exact ⟨rfl, Function.update_of_ne hId.symm ..⟩

theorem Left.append {fails : AppendCall → Bool} {name : String} {ts now : Int} {cells : JkCellInfo}
    {pack : JkPackInfo} (hLeft : s.Left sql reqId battery start count json)
    (hNewer : ∀ ctx, s.ctxs reqId = some ctx → toMs ctx.timeEnd ≤ toMs ts) :
    ({ s with history := s.history.append fails name ts now cells pack } : HttpServer).Left sql reqId
      battery start count json := by
  rcases hLeft with hNone | ⟨ctx, pages, hCtx, hBattery, hStart, hCount, hPages, hJson⟩
  · exact .inl hNone
  have hWindow {stopMs : Int} (hStop : stopMs ≤ toMs ctx.timeEnd) :=
    s.history.window_append battery (toMs start) fails name now cells pack
      (Int.le_trans hStop (hNewer ctx hCtx))
  have hMem (stop : Int) (row : Int × SampleRow)
      (hRow : row ∈ pageRows s.history sql battery start count stop) :=
    mem_selectSamples sql hRow
  refine .inr ⟨ctx, pages, hCtx, hBattery, hStart, hCount, ?_, ?_⟩
  · refine hPages.congr hMem (fun row => toMs_ofMs row.2.tsMs) ?_ ?_
    · exact fun stop hStop => selectSamples_congr sql (hWindow hStop)
    · intro row hLow hHigh
      have hRow := congrArg (row ∈ ·) (hWindow (Int.le_refl _))
      simpa only [mem_window, hLow, hHigh, and_true, eq_iff_iff] using hRow
  · rw [hJson]
    refine List.map_congr_left fun page hPage => List.map_congr_left fun row hRow => ?_
    have hOld := (hPages.mem hMem (fun row => toMs_ofMs row.2.tsMs) row
      (List.mem_flatten_of_mem hPage hRow)).1
    rw [rowJson, rowJson, Database.telemetrySample, Database.telemetrySample,
      append_cellsOf _ _ _ _ _ _ _ (List.mem_filter.mp hOld).1]

theorem Left.step {event : Event} (hLeft : s.Left sql reqId battery start count json)
    (hSpares : Spares reqId s event) (hOther : ∀ steadyNow, event ≠ .next reqId steadyNow) :
    (s.step sql event).Left sql reqId battery start count json := by
  cases event with
  | initial params now id steadyNow =>
    obtain ⟨hHistory, hCtx⟩ := handleHistoryInitial_other (s := s) hSpares
    exact hLeft.same hHistory hCtx
  | next id steadyNow =>
    have hId : id ≠ reqId := by
      rintro rfl
      exact hOther steadyNow rfl
    exact hLeft.same history_handleHistoryNext (ctxs_handleHistoryNext hId)
  | sweep steadyNow =>
    have hCtx : (s.onSweep steadyNow).ctxs reqId = s.ctxs reqId := by
      simp only [onSweep]
      cases hCtx : s.ctxs reqId with
      | none => rfl
      | some ctx => exact if_pos (decide_eq_true (hSpares ctx hCtx))
    rw [Left, HttpServer.step, hCtx]
    exact hLeft
  | append fails name ts now cells pack => exact hLeft.append hSpares

theorem nextPages_next (id : String) (steadyNow : Int) (events : List Event) :
    s.nextPages sql reqId (.next id steadyNow :: events) =
      if id = reqId then
        (s.handleHistoryNext sql id steadyNow).2 ::
          (s.handleHistoryNext sql id steadyNow).1.nextPages sql reqId events
      else (s.handleHistoryNext sql id steadyNow).1.nextPages sql reqId events := rfl

/-- How often a list of events asks for the next page of a request. -/
def nextCount (reqId : String) (events : List Event) : Nat :=
  events.countP fun
    | .next id _ => id = reqId
    | _ => false

/-- The answer with a page, or that there is none. -/
def answer (reqId : String) (page : Option (List SampleJson)) : Response :=
  page.elim .notFound (.page reqId)

/-- The answers to a request are the pages that are left, in order. -/
theorem Left.run (hBattery : 0 < battery) {events : List Event}
    (hLeft : s.Left sql reqId battery start count json)
    (hSpares : Runs.Meets (fun s event => some (s.step sql event)) (Spares reqId) s events) :
    s.nextPages sql reqId events =
      (List.range (nextCount reqId events)).map fun k => answer reqId json[k]? := by
  induction events generalizing s json with
  | nil => rfl
  | cons event events ih =>
    obtain ⟨hHead, hTail⟩ := hSpares
    by_cases hOwn : ∃ steadyNow, event = .next reqId steadyNow
    · obtain ⟨steadyNow, rfl⟩ := hOwn
      obtain ⟨hAnswer, hRest⟩ := hLeft.next steadyNow hBattery
      have hCount : nextCount reqId (.next reqId steadyNow :: events) = nextCount reqId events + 1 := by
        simp [nextCount]
      rw [nextPages_next, if_pos rfl, hAnswer, ih hRest hTail, hCount, List.range_succ_eq_map,
        List.map_cons, List.map_map, answer, List.head?_eq_getElem?]
      simp only [List.getElem?_tail]
      rfl
    · have hCount : nextCount reqId (event :: events) = nextCount reqId events := by
        refine List.countP_cons_of_neg ?_
        cases event with
        | next id steadyNow =>
          simp only [decide_eq_true_eq]
          rintro rfl
          exact hOwn ⟨steadyNow, rfl⟩
        | _ => nofun
      have hNext : s.nextPages sql reqId (event :: events) =
          (s.step sql event).nextPages sql reqId events := by
        cases event with
        | next id steadyNow =>
          have hId : id ≠ reqId := by
            rintro rfl
            exact hOwn ⟨steadyNow, rfl⟩
          rw [nextPages_next, if_neg hId]
          rfl
        | _ => rfl
      rw [hNext, hCount]
      exact ih (hLeft.step hHead fun steadyNow h => hOwn ⟨steadyNow, h⟩) hTail

end Serving

end HttpServer

/-! ### The pages of a request -/

namespace HistoryParams

theorem rows_pos (params : HistoryParams) : 0 < params.rows := by
  rw [rows]
  split
  · split
    · assumption
    · decide
  · decide

/-- Where the window that is asked for begins, in nanoseconds of any size. -/
def askedStart (params : HistoryParams) (now : Int) : Int :=
  (params.timeStart.map (· * 1000000000)).getD (now - 24 * 3600 * 1000000000)

def askedStop (params : HistoryParams) (now : Int) : Int :=
  (params.timeEnd.map (· * 1000000000)).getD now

/-- The samples of the window, whose bounds count in whole milliseconds as the time stamps do. -/
def window (params : HistoryParams) (h : History) (now : Int) : List (Int × SampleRow) :=
  Paging.window (fun row => row.2.tsMs) (toMs (params.askedStart now)) (toMs (params.askedStop now))
    (h.samplesOf params.battery)

/-- The window is one of the clock: its bounds and its width are. -/
structure Representable (params : HistoryParams) (now : Int) : Prop where
  start : InClock (params.askedStart now)
  stop : InClock (params.askedStop now)
  width : InClock (params.askedStop now - params.askedStart now)

instance (params : HistoryParams) (now : Int) : Decidable (params.Representable now) :=
  decidable_of_iff (InClock (params.askedStart now) ∧ InClock (params.askedStop now) ∧
      InClock (params.askedStop now - params.askedStart now))
    ⟨fun h => ⟨h.1, h.2.1, h.2.2⟩, fun h => ⟨h.start, h.stop, h.width⟩⟩

namespace Representable

variable {params : HistoryParams} {now : Int} (hFits : params.Representable now)

include hFits

/-- The server reads the bounds as they are asked for. -/
theorem start_eq : params.start now = params.askedStart now := by
  have hStart := wrapNs_of_inClock hFits.start
  rw [askedStart] at hStart ⊢
  rw [HistoryParams.start]
  cases hSome : params.timeStart with
  | none =>
    rw [hSome] at hStart
    exact hStart
  | some seconds =>
    rw [hSome] at hStart
    exact hStart

theorem stop_eq : params.stop now = params.askedStop now := by
  have hStop := wrapNs_of_inClock hFits.stop
  rw [askedStop] at hStop ⊢
  rw [HistoryParams.stop]
  cases hSome : params.timeEnd with
  | none => rfl
  | some seconds =>
    rw [hSome] at hStop
    exact hStop

/-- A page that ends in the window is no wider than the clock counts. -/
theorem width_le {t : Int} (hLow : toMs (params.askedStart now) ≤ t)
    (hHigh : t < toMs (params.askedStop now)) : InClock (ofMs t - params.askedStart now) := by
  obtain ⟨hBelow, hAbove⟩ := hFits.width
  have hStart := lt_ofMs_of_le hLow
  have hStop := ofMs_lt_of_lt hHigh
  constructor <;> omega

end Representable

end HistoryParams

namespace HttpServer

/-- The next page ends where it would end on the rows themselves. -/
theorem placeAfter_json (db : Database) (stop : Int) (pages : List (List (Int × SampleRow))) :
    placeAfter (fun a : SampleJson => ofMs a.ts) stop (pages.map (List.map (rowJson db))) =
      placeAfter resume stop pages := by
  rw [placeAfter, placeAfter, ← List.map_flatten, List.getLast?_map, Option.map_map]
  simp only [Function.comp_def, rowJson_ts]
  rfl

/-- The row is left out of a page that covers it, for a newer row of its bucket.  The page ends
where the pages before it have come to. -/
def StoodFor (params : HistoryParams) (now : Int) (pages : List (List SampleJson))
    (row : Int × SampleRow) : Prop :=
  ∃ before page rest oldest x, pages = before ++ page :: rest ∧ page.getLast? = some oldest ∧
    oldest.ts ≤ row.2.tsMs ∧ x ∈ page ∧ row.2.tsMs < x.ts ∧
    let stop := placeAfter (fun a : SampleJson => ofMs a.ts) (params.askedStop now) before
    let step := bucketMs (params.askedStart now) stop params.rows
    row.2.tsMs < toMs stop ∧ 0 < step ∧ (x.ts - toMs (params.askedStart now)).tdiv step =
      (row.2.tsMs - toMs (params.askedStart now)).tdiv step

/-- Every page begins at the end of the window, or at a row of it. -/
theorem placeAfter_width {params : HistoryParams} {now : Int} (hFits : params.Representable now)
    {pages : List (List (Int × SampleRow))}
    (hRows : ∀ row ∈ pages.flatten,
      toMs (params.askedStart now) ≤ row.2.tsMs ∧ row.2.tsMs < toMs (params.askedStop now)) :
    InClock (placeAfter resume (params.askedStop now) pages - params.askedStart now) := by
  rw [placeAfter]
  cases hLast : pages.flatten.getLast? with
  | none => exact hFits.width
  | some row =>
    obtain ⟨hLow, hHigh⟩ := hRows row (List.mem_of_getLast? hLast)
    exact hFits.width_le hLow hHigh

/-- A row of the window is on a page, or is left out of one for a newer row of its bucket. -/
theorem Pages.onPage_or_stoodFor {h : History} {sql : OrderBy (Int × SampleRow)}
    {params : HistoryParams} {now : Int} {pages : List (List (Int × SampleRow))}
    {row : Int × SampleRow} (hFits : params.Representable now)
    (hDistinct : (h.samplesOf params.battery).Pairwise fun a b => a.2.tsMs ≠ b.2.tsMs)
    (hPages : Pages h sql params.battery (params.askedStart now) params.rows
      (params.askedStop now) pages) (hRow : row ∈ params.window h now) :
    rowJson h.db row ∈ (pages.map (List.map (rowJson h.db))).flatten ∨
      StoodFor params now (pages.map (List.map (rowJson h.db))) row := by
  have hPage (stop : Int) := isPage_selectSamples sql (toMs (params.askedStart now)) (toMs stop)
    (stepMs (params.askedStart now) stop params.rows) params.rows_pos hDistinct
  have hResume (row : Int × SampleRow) : toMs (resume row) = row.2.tsMs := toMs_ofMs _
  obtain ⟨hMem, hLow, hHigh⟩ := mem_window.mp hRow
  rcases Walk.covers hPage hResume hPages hMem hLow hHigh with hOn | ⟨before, page, later, oldest, x,
    hSplit, hLast, hOld, hUp, hx, hNew, hStep, hBucket⟩
  · left
    rw [← List.map_flatten]
    exact List.mem_map_of_mem hOn
  · right
    have hBefore (row : Int × SampleRow) (hRow : row ∈ before.flatten) : row ∈ pages.flatten := by
      rw [hSplit, List.flatten_append]
      exact List.mem_append_left _ hRow
    have hWidth := placeAfter_width hFits fun row hRow =>
      (Walk.mem (fun c => (hPage c).mem) hResume hPages row (hBefore row hRow)).2
    refine ⟨before.map (List.map (rowJson h.db)), page.map (rowJson h.db),
      later.map (List.map (rowJson h.db)), rowJson h.db oldest, rowJson h.db x, ?_, ?_, ?_,
      List.mem_map_of_mem hx, ?_, ?_⟩
    · rw [hSplit, List.map_append, List.map_cons]
    · rw [List.getLast?_map, hLast, Option.map_some]
    · rw [rowJson_ts]
      exact hOld
    · rw [rowJson_ts]
      exact hNew
    · have hSame := stepMs_eq hWidth hStep
      rw [hSame] at hStep hBucket
      rw [placeAfter_json, rowJson_ts]
      exact ⟨hUp, hStep, hBucket⟩

/-- The pages of a request, whatever else goes on while they are read. -/
theorem history_pages (sql : OrderBy (Int × SampleRow)) (s : HttpServer) (params : HistoryParams)
    (now : Int) (reqId : String) (steadyNow : Int) (hBattery : 0 < params.battery)
    (hFits : params.Representable now)
    (hDistinct : (s.history.samplesOf params.battery).Pairwise fun a b => a.2.tsMs ≠ b.2.tsMs)
    (hFresh : s.ctxs reqId = none) :
    ∃ pages : List (List SampleJson),
      (s.handleHistoryInitial sql params now reqId steadyNow).2 = answer reqId pages[0]? ∧
      (∀ events, Runs.Meets (fun s event => some (s.step sql event)) (Spares reqId)
          (s.handleHistoryInitial sql params now reqId steadyNow).1 events →
        (s.handleHistoryInitial sql params now reqId steadyNow).1.nextPages sql reqId events =
          (List.range (nextCount reqId events)).map fun k => answer reqId pages[k + 1]?) ∧
      (∀ page ∈ pages, (page.length : Int) ≤ params.rows) ∧
      (pages.flatten.Pairwise fun a b => b.ts < a.ts) ∧
      (∀ a ∈ pages.flatten, ∃ row ∈ params.window s.history now, a = rowJson s.history.db row) ∧
      (params.window s.history now ≠ [] → ∃ z, pages.flatten.getLast? = some z ∧
        ∀ row ∈ params.window s.history now, z.ts ≤ row.2.tsMs) ∧
      (∀ row ∈ params.window s.history now,
        rowJson s.history.db row ∈ pages.flatten ∨ StoodFor params now pages row) := by
  have hStart := hFits.start_eq
  have hStop := hFits.stop_eq
  have hPage (stop : Int) := isPage_selectSamples sql (toMs (params.askedStart now)) (toMs stop)
    (stepMs (params.askedStart now) stop params.rows) params.rows_pos hDistinct
  have hResume (row : Int × SampleRow) : toMs (resume row) = row.2.tsMs := toMs_ofMs _
  obtain ⟨pages, hPages⟩ := exists_walk hPage hResume (params.askedStop now)
  obtain ⟨rest, hFirst, hRest⟩ := Pages.cases hBattery hPages
  have hFlatten : (pages.map (List.map (rowJson s.history.db))).flatten =
      pages.flatten.map (rowJson s.history.db) := List.map_flatten.symm
  refine ⟨pages.map (List.map (rowJson s.history.db)), ?_, ?_, ?_, ?_, ?_, ?_, ?_⟩
  · rw [handleHistoryInitial_eq hFresh, hStart, hStop, historyJson, page_json s sql _ _ _ hBattery,
      hFirst]
    rfl
  · intro events hSpares
    have hCtx (stop : Int) : (initialCtx params now steadyNow stop).batteryId = params.battery ∧
        (initialCtx params now steadyNow stop).timeStart = params.askedStart now ∧
        (initialCtx params now steadyNow stop).count = params.rows ∧
        (initialCtx params now steadyNow stop).timeEnd = stop := ⟨rfl, hStart, rfl, rfl⟩
    rw [handleHistoryInitial_eq hFresh, hStart, hStop] at hSpares ⊢
    rw [(Left.of_rest hCtx hRest).run hBattery hSpares, hFirst]
    rfl
  · intro page hMem
    obtain ⟨rows, hRows, rfl⟩ := List.mem_map.mp hMem
    have hShort := hPages.short hPage rows hRows
    have hPos := params.rows_pos
    rw [List.length_map]
    omega
  · rw [hFlatten, List.pairwise_map]
    simp only [rowJson_ts]
    exact hPages.newestFirst hPage hResume
  · intro a ha
    rw [hFlatten] at ha
    obtain ⟨row, hRow, rfl⟩ := List.mem_map.mp ha
    exact ⟨row, mem_window.mpr (hPages.mem (fun c => (hPage c).mem) hResume row hRow), rfl⟩
  · intro hSome
    obtain ⟨row, hRow⟩ := List.exists_mem_of_ne_nil _ hSome
    obtain ⟨hMem, hLow, hHigh⟩ := mem_window.mp hRow
    obtain ⟨z, hz, hOldest⟩ := hPages.oldest hPage hResume hMem hLow hHigh
    refine ⟨rowJson s.history.db z, ?_, ?_⟩
    · rw [hFlatten, List.getLast?_map, hz, Option.map_some]
    · intro row hRow
      obtain ⟨hMem, hLow, -⟩ := mem_window.mp hRow
      rw [rowJson_ts]
      exact hOldest row hMem hLow
  · exact fun row => Pages.onPage_or_stoodFor hFits hDistinct hPages

/-- A battery's samples at the beginning of the second day and some hours later. -/
def twoSamples : HttpServer :=
  let early : Table SampleRow := (∅ : Table SampleRow).insert (.ofSample 1 86400000 {} {})
  { history := { db := { samples := early.insert (.ofSample 1 100000000 {} {}) } } }

theorem history_pages_two : ∃ pages : List (List SampleJson),
    (twoSamples.handleHistoryInitial .stable { battery := 1 } 172800000000000 "request" 0).2 =
      answer "request" pages[0]? ∧
    ∃ z, pages.flatten.getLast? = some z ∧ z.ts ≤ 86400000 := by
  obtain ⟨pages, hFirst, -, -, -, -, hOldest, -⟩ := history_pages .stable twoSamples { battery := 1 }
    172800000000000 "request" 0 (by decide) (by decide) (by decide) rfl
  obtain ⟨z, hz, hLeast⟩ := hOldest (by decide)
  exact ⟨pages, hFirst, z, hz, hLeast (1, .ofSample 1 86400000 {} {}) (by decide)⟩

/-- Half a millisecond past the second midnight, the last row of the default window is older than the
window. -/
theorem last_row_before_window : ¬∀ (sql : OrderBy (Int × SampleRow)) (s : HttpServer)
    (params : HistoryParams) (now : Int) (reqId : String) (steadyNow : Int) (data : List SampleJson)
    (z : SampleJson), 0 < params.battery → params.Representable now →
    params.askedStart now < params.askedStop now →
    ((s.history.samplesOf params.battery).Pairwise fun a b => a.2.tsMs ≠ b.2.tsMs) →
    s.ctxs reqId = none →
    (s.handleHistoryInitial sql params now reqId steadyNow).2 = .page reqId data →
    (s.handleHistoryInitial sql params now reqId steadyNow).1.ctxs reqId = none →
    data.getLast? = some z →
    (∃ row ∈ s.history.samplesOf params.battery,
      params.askedStart now ≤ ofMs row.2.tsMs ∧ ofMs row.2.tsMs < params.askedStop now) →
    params.askedStart now ≤ ofMs z.ts := by
  intro h
  have hLast := h .stable twoSamples { battery := 1 } 172800000500000 "request" 0 _ _ (by decide)
    (by decide) (by decide) (by decide) rfl rfl rfl rfl
    ⟨(2, .ofSample 1 100000000 {} {}), by decide, by decide, by decide⟩
  exact absurd hLast (by decide)

end HttpServer

end BmsBridge
