import BmsBridge.Bridge.Inverter
import BmsBridge.Jk.Proof.Slicing
import BmsBridge.Pylontech.Master
import BmsBridge.Pylontech.Proof.Parser

/-! The chunks that a stream arrives in have no part in what the two Pylontech receivers make of it,
unless a chunk is so long that the parser's `int` cannot count its junk. -/

namespace BmsBridge

open Delimited Words

/-- The buffer of `UartTransport::on_readable`: no call of `on_bytes` gets more. -/
def kUartChunk : Nat := 512

/-- With that many bytes in the inverter's buffer, one more chunk still fits. -/
def kLongestRun : Nat := kRxBufLimit - kUartChunk

/-! ### The master -/

/-- What a master makes of its calls. -/
structure Reception where
  frames : List PylontechFrame
  rx : List UInt8
  lastCellCount : UInt8
  telemetry : Option Telemetry
  settings : Option JkSettings

namespace PylontechMasterProtocol

def feedAll (p : PylontechMasterProtocol) :
    List (List UInt8) → List Parsed × PylontechMasterProtocol
  | [] => ([], p)
  | chunk :: chunks =>
    let (report, p) := p.feed chunk
    let (reports, p) := feedAll p chunks
    (report :: reports, p)

/-- The frames that those calls decode. -/
def decoded (p : PylontechMasterProtocol) : List (List UInt8) → List PylontechFrame
  | [] => []
  | chunk :: chunks =>
    Drain.frames (tryParsePylontech ·) (p.rx ++ chunk) ++ decoded (p.feed chunk).2 chunks

def reception (p : PylontechMasterProtocol) (chunks : List (List UInt8)) : Reception where
  frames := p.decoded chunks
  rx := (p.feedAll chunks).2.rx
  lastCellCount := (p.feedAll chunks).2.lastCellCount
  telemetry := lastTelemetry (p.feedAll chunks).1
  settings := lastSettings (p.feedAll chunks).1

theorem feed_eq (p : PylontechMasterProtocol) (chunk : List UInt8) :
    p.feed chunk =
      (let out := (Drain.frames (tryParsePylontech ·) (p.rx ++ chunk)).foldl (onFrame p.wireAdr)
        ({}, p.lastCellCount)
      (out.1, { p with
        rx := Drain.rest (tryParsePylontech ·) (p.rx ++ chunk), lastCellCount := out.2 })) := by
  rw [feed, Drain.drain_eq]

/-- A frame's report replaces the earlier ones. -/
theorem foldl_onFrame (wireAdr : UInt8) (fs : List PylontechFrame) (s : Parsed × UInt8) :
    fs.foldl (onFrame wireAdr) s =
      ({ telemetry := (fs.foldl (onFrame wireAdr) ({}, s.2)).1.telemetry.or s.1.telemetry
         settings := (fs.foldl (onFrame wireAdr) ({}, s.2)).1.settings.or s.1.settings },
        (fs.foldl (onFrame wireAdr) ({}, s.2)).2) := by
  induction fs generalizing s with
  | nil => rfl
  | cons f fs ih =>
    have hHead : onFrame wireAdr s f =
        ({ telemetry := (onFrame wireAdr ({}, s.2) f).1.telemetry.or s.1.telemetry
           settings := (onFrame wireAdr ({}, s.2) f).1.settings.or s.1.settings },
          (onFrame wireAdr ({}, s.2) f).2) := by
      simp only [onFrame]
      split
      · rfl
      · split
        · split <;> rfl
        · split
          · split <;> rfl
          · rfl
    rw [List.foldl_cons, List.foldl_cons, ih, ih (onFrame wireAdr ({}, s.2) f), hHead]
    simp only [Option.or_assoc]

theorem lastTelemetry_cons (report : Parsed) (reports : List Parsed) :
    lastTelemetry (report :: reports) = (lastTelemetry reports).or report.telemetry := by
  rw [lastTelemetry, lastTelemetry, List.filterMap_cons]
  cases report.telemetry with
  | none => rw [Option.or_none]
  | some t => rw [List.getLast?_cons]; cases List.getLast? _ <;> rfl

theorem lastSettings_cons (report : Parsed) (reports : List Parsed) :
    lastSettings (report :: reports) = (lastSettings reports).or report.settings := by
  rw [lastSettings, lastSettings, List.filterMap_cons]
  cases report.settings with
  | none => rw [Option.or_none]
  | some s => rw [List.getLast?_cons]; cases List.getLast? _ <;> rfl

def receptionOf (wireAdr lastCellCount : UInt8) (frames : List PylontechFrame)
    (rx : List UInt8) : Reception where
  frames
  rx
  lastCellCount := (frames.foldl (onFrame wireAdr) ({}, lastCellCount)).2
  telemetry := (frames.foldl (onFrame wireAdr) ({}, lastCellCount)).1.telemetry
  settings := (frames.foldl (onFrame wireAdr) ({}, lastCellCount)).1.settings

/-- Everything that the calls leave is read off the frames they decode. -/
theorem reception_eq (p : PylontechMasterProtocol) (chunks : List (List UInt8)) :
    p.reception chunks = receptionOf p.wireAdr p.lastCellCount
      (receive (tryParsePylontech ·) (· ++ ·) p.rx chunks).1
      (receive (tryParsePylontech ·) (· ++ ·) p.rx chunks).2 := by
  induction chunks generalizing p with
  | nil => rfl
  | cons chunk chunks ih =>
    have hLater := ih (p.feed chunk).2
    simp only [reception, receptionOf, decoded, feedAll, receive, lastTelemetry_cons,
      lastSettings_cons, Reception.mk.injEq, List.foldl_append] at hLater ⊢
    obtain ⟨hFrames, hRx, hCount, hTelemetry, hSettings⟩ := hLater
    rw [hFrames, hRx, hCount, hTelemetry, hSettings, feed_eq]
    simp only
    generalize List.foldl (onFrame p.wireAdr) ({}, p.lastCellCount)
      (Drain.frames (tryParsePylontech ·) (p.rx ++ chunk)) = out
    rw [foldl_onFrame p.wireAdr _ out]
    exact ⟨trivial, trivial, rfl, rfl, rfl⟩

end PylontechMasterProtocol

/-- All ways of cutting a stream leave the same of a master with an empty buffer. -/
def MasterIndependent (s : List UInt8) : Prop :=
  ∀ (p : PylontechMasterProtocol) (chunks chunks' : List (List UInt8)), p.rx = [] →
    chunks.flatten = s → chunks'.flatten = s → p.reception chunks = p.reception chunks'

/-! ### The inverter -/

/-- A call of `on_bytes`, with what it reads of the other parts. -/
structure InverterCall where
  batteries : Batteries
  now : Int
  data : List UInt8

/-- The frames that calls of `on_bytes` decode, and the buffer they leave. -/
def inverterReception (slots : List Slot) (rxBuf : List UInt8) :
    List InverterCall → List PylontechFrame × List UInt8
  | [] => ([], rxBuf)
  | c :: calls =>
    let later := inverterReception slots (onBytes slots c.batteries c.now rxBuf c.data).2 calls
    (Drain.frames (tryParsePylontech ·) (appendRx rxBuf c.data) ++ later.1, later.2)

/-- All ways of cutting a stream into UART reads leave the same of an inverter with an empty
buffer. -/
def InverterIndependent (s : List UInt8) : Prop :=
  ∀ (slots : List Slot) (calls calls' : List InverterCall),
    (calls.flatMap InverterCall.data = s) → (calls'.flatMap InverterCall.data = s) →
    (∀ c ∈ calls, c.data.length ≤ kUartChunk) → (∀ c ∈ calls', c.data.length ≤ kUartChunk) →
      inverterReception slots [] calls = inverterReception slots [] calls'

theorem inverterReception_eq (slots : List Slot) (rxBuf : List UInt8) (calls : List InverterCall) :
    inverterReception slots rxBuf calls =
      receive (tryParsePylontech ·) appendRx rxBuf (calls.map InverterCall.data) := by
  induction calls generalizing rxBuf with
  | nil => rfl
  | cons c calls ih =>
    rw [inverterReception, List.map_cons, receive, ih, onBytes_eq]

/-! ### Streams -/

theorem kSOI_ne_kEOI : kSOI ≠ kEOI := by decide

section Stream

variable {s : List UInt8} (hRuns : RunsAtMost kEOI kLongestRun s)

include hRuns

theorem inverter_independent : InverterIndependent s := by
  have hAny (slots : List Slot) (calls : List InverterCall)
      (hFlat : calls.flatMap InverterCall.data = s)
      (hShort : ∀ c ∈ calls, c.data.length ≤ kUartChunk) :
      inverterReception slots [] calls = ((bodies kSOI kEOI none s).filterMap decodeBody,
        held kSOI (after kSOI kEOI none s)) := by
    rw [List.flatMap_def] at hFlat
    rw [inverterReception_eq, ← hFlat]
    refine receive_eq tryParse_parses kSOI_ne_kEOI (by decide) (n := kLongestRun) (by decide)
      appendRx none _ ?_ (by rintro b hb; cases hb) ?_ ?_
    · intro rx chunk hChunk hLen
      obtain ⟨c, hc, rfl⟩ := List.mem_map.mp hChunk
      have := hShort c hc
      simp only [kLongestRun, kRxBufLimit, kUartChunk] at hLen this
      rw [appendRx, if_neg (by simp only [kRxBufLimit]; omega)]
    · rw [hFlat]
      exact hRuns
    · intro front chunk behind hSplit
      have hChunk : chunk ∈ calls.map InverterCall.data := by
        rw [hSplit]
        exact List.mem_append_right _ (List.mem_cons_self ..)
      obtain ⟨c, hc, rfl⟩ := List.mem_map.mp hChunk
      have := hShort c hc
      apply gapsBelow_of_length_lt
      simp only [kUartChunk] at this
      simp only [kIntLimit]
      omega
  intro slots calls calls' hCalls hCalls' hShort hShort'
  rw [hAny slots calls hCalls hShort, hAny slots calls' hCalls' hShort']

theorem master_independent (hGaps : GapsBelow kSOI kEOI kIntLimit none s) :
    MasterIndependent s := by
  have hAny (chunks : List (List UInt8)) (hFlat : chunks.flatten = s) :
      receive (tryParsePylontech ·) (· ++ ·) [] chunks =
        ((bodies kSOI kEOI none s).filterMap decodeBody, held kSOI (after kSOI kEOI none s)) := by
    rw [← hFlat]
    refine receive_eq tryParse_parses kSOI_ne_kEOI (by decide) (n := kLongestRun) (by decide)
      (· ++ ·) none _ (fun _ _ _ _ => rfl) (by rintro b hb; cases hb) ?_ ?_
    · rw [hFlat]
      exact hRuns
    · rintro front chunk behind rfl
      rw [List.flatten_append, List.flatten_cons] at hFlat
      rw [← hFlat] at hGaps
      exact (hGaps.behind front.flatten).front
  intro p chunks chunks' hRx hChunks hChunks'
  rw [p.reception_eq, p.reception_eq, hRx, hAny chunks hChunks, hAny chunks' hChunks']

end Stream

/-- Junk that is longer than an `int` can say, in one chunk, is taken for a frame. -/
theorem receive_wrapped {gap : List UInt8} (hSoi : kSOI ∉ gap) (hLow : kIntLimit ≤ gap.length)
    (hHigh : gap.length ≤ kIntLimit + 1) :
    receive (tryParsePylontech ·) (· ++ ·) [] [gap] = ([{}], []) := by
  have hNe : gap ≠ [] := by
    rintro rfl
    exact absurd hLow (by decide)
  have hParse := tryParse_gap {} hNe hSoi
  have hCast : castInt gap.length = (gap.length : Int) - 4294967296 := by
    simp only [kIntLimit] at hLow hHigh
    rw [castInt, Nat.mod_eq_of_lt (by omega), if_neg (by omega)]
  have hDrop : kSOI ∉ gap.drop (-castInt gap.length).toNat :=
    fun h => hSoi (List.mem_of_mem_drop h)
  have hPos : 0 < (tryParsePylontech gap).1 := by
    simp only [hParse, hCast, kIntLimit] at hHigh ⊢
    omega
  have hDrain : Drain.drain (tryParsePylontech ·) (fun (gs : List PylontechFrame) f => gs ++ [f]) []
      gap = _ := Drain.drain_frame hNe hPos
  simp only [hParse] at hDrain
  rw [drain_gap tryParse_parses _ _ hDrop ?_] at hDrain
  · obtain ⟨hFrames, hRest⟩ := frames_rest hDrain
    simp only [receive, List.nil_append, hFrames, hRest, List.append_nil]
  · simp only [List.length_drop, hCast, kIntLimit] at hLow hHigh ⊢
    omega

theorem flatten_bytes (s : List UInt8) : (s.map fun b => [b]).flatten = s := by
  rw [← List.flatMap_def, List.flatMap_singleton']

/-- A master that gets such junk byte by byte decodes one frame less. -/
theorem master_disagrees {before gap behind : List UInt8}
    (hRuns : RunsAtMost kEOI kLongestRun (before ++ (gap ++ behind)))
    (hBetween : after kSOI kEOI none before = none) (hSoi : kSOI ∉ gap)
    (hLow : kIntLimit ≤ gap.length) (hHigh : gap.length ≤ kIntLimit + 1) :
    ¬MasterIndependent (before ++ (gap ++ behind)) := by
  intro hIndependent
  have hBytes (part : List UInt8) (hPart : part <:+: before ++ (gap ++ behind)) :=
    receive_bytes tryParse_parses kSOI_ne_kEOI (by decide) (n := kLongestRun) (by decide) part
      (hRuns.part hPart)
  have hBefore := hBytes before ⟨[], gap ++ behind, rfl⟩
  have hGap := hBytes gap ⟨before, behind, by rw [List.append_assoc]⟩
  rw [hBetween, held] at hBefore
  rw [(scan_gap kEOI hSoi).1, (scan_gap kEOI hSoi).2, held, List.filterMap_nil] at hGap
  have hSame := hIndependent { wireAdr := 0 }
    ((before.map fun b => [b]) ++ ([gap] ++ behind.map fun b => [b]))
    ((before.map fun b => [b]) ++ ((gap.map fun b => [b]) ++ behind.map fun b => [b])) rfl
    (by simp only [List.flatten_append, flatten_bytes, List.flatten_singleton])
    (by simp only [List.flatten_append, flatten_bytes])
  have hFrames := congrArg (fun r => r.frames.length) hSame
  simp only [PylontechMasterProtocol.reception_eq, PylontechMasterProtocol.receptionOf,
    receive_append, hBefore, receive_wrapped hSoi hLow hHigh, hGap, List.length_append,
    List.length_singleton, List.length_nil] at hFrames
  omega

theorem gaps_of_master_independent {s : List UInt8} (hRuns : RunsAtMost kEOI kLongestRun s)
    (hIndependent : MasterIndependent s) : GapsBelow kSOI kEOI kIntLimit none s := by
  rintro before gap behind rfl hBetween hSoi
  apply Nat.lt_of_not_le
  intro hLow
  have hTrim : before ++ gap ++ behind =
      before ++ (gap.take (kIntLimit + 1) ++ (gap.drop (kIntLimit + 1) ++ behind)) := by
    rw [← List.append_assoc (gap.take _), List.take_append_drop, List.append_assoc]
  rw [hTrim] at hRuns hIndependent
  refine master_disagrees hRuns hBetween (fun h => hSoi (List.mem_of_mem_take h)) ?_ ?_ hIndependent
  · rw [List.length_take]
    omega
  · rw [List.length_take]
    omega

/-- Neither receiver depends on the chunks of a stream. -/
def ChunkIndependent (s : List UInt8) : Prop := MasterIndependent s ∧ InverterIndependent s

/-- The receivers are independent of the chunks exactly when no junk between two frames is longer
than an `int` can say. -/
theorem chunk_independent_iff (s : List UInt8) (hRuns : RunsAtMost kEOI kLongestRun s) :
    ChunkIndependent s ↔ GapsBelow kSOI kEOI kIntLimit none s := by
  constructor
  · rintro ⟨hMaster, -⟩
    exact gaps_of_master_independent hRuns hMaster
  · intro hGaps
    exact ⟨master_independent hRuns hGaps, inverter_independent hRuns⟩

theorem runsAtMost_of_length_le {n : Nat} {s : List UInt8} (h : s.length ≤ n) :
    RunsAtMost kEOI n s := fun _ hRun _ => Nat.le_trans hRun.length_le h

/-- Two requests, the second of them cut off. -/
theorem chunk_independent_requests :
    ChunkIndependent (buildAnalogRequest 2 ++ (buildSystemParamRequest 2).take 7) ↔
      GapsBelow kSOI kEOI kIntLimit none
        (buildAnalogRequest 2 ++ (buildSystemParamRequest 2).take 7) :=
  chunk_independent_iff _ (runsAtMost_of_length_le (by decide))

/-- Two gigabytes of EOI bytes in one chunk. -/
theorem chunks_matter_in_junk :
    ¬∀ s : List UInt8, RunsAtMost kEOI kLongestRun s → ChunkIndependent s := by
  intro hAll
  have hRuns : RunsAtMost kEOI kLongestRun
      ([] ++ (List.replicate (kIntLimit + 1) kEOI ++ [])) := by
    intro run hRun hEoi
    have hNil : run = [] := by
      apply List.eq_nil_iff_forall_not_mem.mpr
      intro b hb
      have hMem := hRun.subset hb
      rw [List.nil_append, List.append_nil] at hMem
      exact hEoi (List.eq_of_mem_replicate hMem ▸ hb)
    rw [hNil]
    exact Nat.zero_le _
  refine master_disagrees hRuns rfl ?_ ?_ ?_ (hAll _ hRuns).1
  · intro h
    exact absurd (List.eq_of_mem_replicate h) kSOI_ne_kEOI
  · exact Nat.le_trans (Nat.le_succ _) (Nat.le_of_eq List.length_replicate.symm)
  · exact Nat.le_of_eq List.length_replicate

end BmsBridge
