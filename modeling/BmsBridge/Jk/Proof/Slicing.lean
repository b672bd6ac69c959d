import BmsBridge.Jk.Driver
import BmsBridge.Jk.Proof.Resync
import BmsBridge.Lib.LastOf

/-! What the JK driver reports of a stream that arrives in chunks.  The assembler has one slot for
a finished frame, and `feed` empties it once a chunk is through, so of the frames that end in one
chunk only the last survives. -/

namespace BmsBridge

open JkFrameAssembler

namespace JkProtocol

def feedAll (p : JkProtocol) : List (List UInt8) → List Parsed
  | [] => []
  | chunk :: chunks => (p.feed chunk).1 :: feedAll (p.feed chunk).2 chunks

end JkProtocol

def lastTelemetry (reports : List Parsed) : Option Telemetry :=
  (reports.filterMap Parsed.telemetry).getLast?

def lastSettings (reports : List Parsed) : Option JkSettings :=
  (reports.filterMap Parsed.settings).getLast?

/-- Two ways of cutting a stream lead a fresh driver to the same last reports. -/
def SameReports (chunks chunks' : List (List UInt8)) : Prop :=
  lastTelemetry (JkProtocol.feedAll {} chunks) = lastTelemetry (JkProtocol.feedAll {} chunks') ∧
    lastSettings (JkProtocol.feedAll {} chunks) = lastSettings (JkProtocol.feedAll {} chunks')

/-! ### One frame -/

theorem startsWithResponseMagic_iff (p : List UInt8) :
    startsWithResponseMagic p = true ↔ kJkResponseMagic <+: p := by
  by_cases hLen : 4 ≤ p.length
  · obtain ⟨a, b, c, d, rest, rfl⟩ : ∃ a b c d rest, p = a :: b :: c :: d :: rest := by
      rcases p with _ | ⟨a, _ | ⟨b, _ | ⟨c, _ | ⟨d, rest⟩⟩⟩⟩
      case cons.cons.cons.cons => exact ⟨a, b, c, d, rest, rfl⟩
      all_goals
        simp only [List.length_cons, List.length_nil] at hLen
        omega
    simp only [startsWithResponseMagic, hLen, true_and, decide_eq_true_eq, kJkResponseMagic,
      List.cons_prefix_cons, List.nil_prefix, and_true]
    constructor
    · rintro ⟨h1, h2, h3, h4⟩
      exact ⟨h1.symm, h2.symm, h3.symm, h4.symm⟩
    · rintro ⟨h1, h2, h3, h4⟩
      exact ⟨h1.symm, h2.symm, h3.symm, h4.symm⟩
  · constructor
    · intro h
      simp only [startsWithResponseMagic, hLen, false_and, decide_false, Bool.false_eq_true] at h
    · intro h
      exact absurd h.length_le hLen

def telemetryOf (frame : List UInt8) : Option Telemetry := (JkProtocol.report {} frame).telemetry

def settingsOf (frame : List UInt8) : Option JkSettings := (JkProtocol.report {} frame).settings

theorem ValidFrame.type {frame : List UInt8} (h : ValidFrame frame) :
    jkResponseFrameType frame = some (byteAt frame 4) := by
  have hMagic := (startsWithResponseMagic_iff frame).mpr h.magic
  simp [jkResponseFrameType, h.length, hMagic]

theorem telemetryOf_isSome {frame : List UInt8} (h : ValidFrame frame) :
    (telemetryOf frame).isSome ↔ byteAt frame 4 = kJkFrameTypeCellInfo := by
  have hMagic := (startsWithResponseMagic_iff frame).mpr h.magic
  simp only [telemetryOf, JkProtocol.report, h.type]
  split
  · rename_i hType
    simp [parseCellInfo, h.length, hMagic, hType]
  · rename_i hType
    split
    · split <;> simp [hType]
    · simp [hType]

theorem settingsOf_isSome {frame : List UInt8} (h : ValidFrame frame) :
    (settingsOf frame).isSome ↔ byteAt frame 4 = kJkFrameTypeSettings := by
  have hMagic := (startsWithResponseMagic_iff frame).mpr h.magic
  simp only [settingsOf, JkProtocol.report, h.type]
  split
  · rename_i hType
    rw [hType]
    split <;> simp [kJkFrameTypeCellInfo, kJkFrameTypeSettings]
  · split
    · rename_i hType
      simp [parseSettings, h.length, hMagic, hType]
    · rename_i hType
      simp [hType]

/-! ### What survives a slicing -/

theorem completed_ne_nil {buf bytes frame : List UInt8} (h : frame ∈ completed buf bytes) :
    frame ≠ [] := by
  induction bytes generalizing buf with
  | nil => cases h
  | cons b bytes ih =>
    rw [completed, List.mem_append] at h
    rcases h with h | h
    · split at h
      · cases h
      · rename_i hReady
        rwa [List.mem_singleton.mp h]
    · exact ih h

/-- One `feed` call reports the last frame that its chunk completes. -/
theorem JkProtocol.feed_eq (buf chunk : List UInt8) :
    JkProtocol.feed { assembler := { buf } } chunk =
      (((completed buf chunk).getLast?.map (report {})).getD {},
        { assembler := { buf := partialAfter buf chunk } }) := by
  rw [feed, pushChunk_eq]
  cases hLast : (completed buf chunk).getLast? with
  | none => rw [takeFrames]; rfl
  | some frame =>
    have hNe := completed_ne_nil (List.mem_of_getLast? hLast)
    have hTake (b : List UInt8) :
        takeCompleteFrame { buf := b, ready := frame } = (some frame, { buf := b }) := by
      rw [takeCompleteFrame, if_neg hNe]
    have hEmpty (b : List UInt8) : takeCompleteFrame { buf := b } = (none, { buf := b }) := rfl
    simp only [Option.getD_some, Option.map_some]
    rw [takeFrames, hTake]
    simp only
    rw [takeFrames, hEmpty]

/-- The frames that reach the parsers: the last one that each chunk completes. -/
def survivors (buf : List UInt8) : List (List UInt8) → List (List UInt8)
  | [] => []
  | chunk :: chunks =>
    (completed buf chunk).getLast?.toList ++ survivors (partialAfter buf chunk) chunks

theorem reports_eq (buf : List UInt8) (chunks : List (List UInt8)) :
    let reports := JkProtocol.feedAll { assembler := { buf } } chunks
    reports.filterMap Parsed.telemetry = (survivors buf chunks).filterMap telemetryOf ∧
      reports.filterMap Parsed.settings = (survivors buf chunks).filterMap settingsOf := by
  induction chunks generalizing buf with
  | nil => exact ⟨rfl, rfl⟩
  | cons chunk chunks ih =>
    obtain ⟨hTelemetry, hSettings⟩ := ih (partialAfter buf chunk)
    simp only [JkProtocol.feedAll, JkProtocol.feed_eq, survivors, List.filterMap_append,
      ← hTelemetry, ← hSettings]
    cases (completed buf chunk).getLast? with
    | none => exact ⟨rfl, rfl⟩
    | some frame =>
      refine ⟨?_, ?_⟩
      · simp only [Option.map_some, Option.getD_some, Option.toList, List.filterMap_cons,
          List.filterMap_nil, telemetryOf]
        cases (JkProtocol.report {} frame).telemetry <;> rfl
      · simp only [Option.map_some, Option.getD_some, Option.toList, List.filterMap_cons,
          List.filterMap_nil, settingsOf]
        cases (JkProtocol.report {} frame).settings <;> rfl

theorem survivors_subset (buf : List UInt8) (chunks : List (List UInt8)) :
    ∀ frame ∈ survivors buf chunks, frame ∈ completed buf chunks.flatten := by
  induction chunks generalizing buf with
  | nil => exact fun _ h => h
  | cons chunk chunks ih =>
    intro frame h
    rw [List.flatten_cons, completed_append, List.mem_append]
    rcases List.mem_append.mp h with h | h
    · exact .inl (List.mem_of_getLast? (Option.mem_toList.mp h))
    · exact .inr (ih _ frame h)

/-- The last frame of a stream survives every slicing. -/
theorem survivors_getLast? (buf : List UInt8) (chunks : List (List UInt8)) :
    (survivors buf chunks).getLast? = (completed buf chunks.flatten).getLast? := by
  induction chunks generalizing buf with
  | nil => rfl
  | cons chunk chunks ih =>
    rw [survivors, List.flatten_cons, completed_append, List.getLast?_append, ih,
      List.getLast?_append]
    cases (completed buf chunk).getLast? <;> rfl

theorem completed_length_le {buf bytes : List UInt8} (h : bytes.length ≤ kJkResponseSize) :
    (completed buf bytes).length ≤ 1 := by
  induction bytes generalizing buf with
  | nil => exact Nat.zero_le 1
  | cons b bytes ih =>
    rw [List.length_cons] at h
    rw [completed, List.length_append]
    split
    · rw [List.length_nil, Nat.zero_add]
      exact ih (by omega)
    · rename_i hReady
      rw [((pushByte_length buf b).2 hReady).2,
        completed_short (by rw [List.length_nil]; omega)]
      exact Nat.le_refl 1

theorem survivors_short {buf : List UInt8} {chunks : List (List UInt8)}
    (h : ∀ chunk ∈ chunks, chunk.length ≤ kJkResponseSize) :
    survivors buf chunks = completed buf chunks.flatten := by
  induction chunks generalizing buf with
  | nil => rfl
  | cons chunk chunks ih =>
    have hOne : (completed buf chunk).length ≤ 1 :=
      completed_length_le (h chunk (List.mem_cons_self ..))
    rw [survivors, List.flatten_cons, completed_append,
      ih fun c hc => h c (List.mem_cons_of_mem _ hc)]
    congr 1
    match completed buf chunk, hOne with
    | [], _ | [_], _ => rfl

theorem lastTelemetry_eq (chunks : List (List UInt8)) :
    lastTelemetry (JkProtocol.feedAll {} chunks) =
      ((survivors [] chunks).filterMap telemetryOf).getLast? := by
  rw [← (reports_eq [] chunks).1]
  rfl

theorem lastSettings_eq (chunks : List (List UInt8)) :
    lastSettings (JkProtocol.feedAll {} chunks) =
      ((survivors [] chunks).filterMap settingsOf).getLast? := by
  rw [← (reports_eq [] chunks).2]
  rfl

/-! ### Slicings of one stream -/

/-- Every cell-info or settings frame of the stream is of the type of the stream's last frame. -/
def LastFrameDecides (s : List UInt8) : Prop :=
  ∀ frame ∈ framesIn s,
    byteAt frame 4 = kJkFrameTypeCellInfo ∨ byteAt frame 4 = kJkFrameTypeSettings →
      ∀ last, (framesIn s).getLast? = some last → byteAt last 4 = byteAt frame 4

section Images

variable {β : Type} {f : List UInt8 → Option β} {type : UInt8} {s : List UInt8}

/-- Where the last frame decides, every slicing has the image of the last frame as its last. -/
theorem survivors_image (hf : ∀ frame, ValidFrame frame → ((f frame).isSome ↔ byteAt frame 4 = type))
    (hType : type = kJkFrameTypeCellInfo ∨ type = kJkFrameTypeSettings) (hDecides : LastFrameDecides s)
    {chunks : List (List UInt8)} (hChunks : chunks.flatten = s) :
    ((survivors [] chunks).filterMap f).getLast? = (framesIn s).getLast?.bind f := by
  apply LastOf.getLast?_filterMap
  · rw [← completed_eq_framesIn, ← hChunks]
    exact survivors_subset [] chunks
  · rw [survivors_getLast?, hChunks, completed_eq_framesIn]
  · intro frame hFrame hSome
    have hFrameType := (hf frame (framesIn_valid hFrame)).mp hSome
    cases hLast : (framesIn s).getLast? with
    | none =>
      rw [List.getLast?_eq_none_iff.mp hLast] at hFrame
      cases hFrame
    | some last =>
      have hSame := hDecides frame hFrame (by rw [hFrameType]; exact hType) last hLast
      rw [Option.bind_some, hf last (framesIn_valid (List.mem_of_getLast? hLast)), hSame,
        hFrameType]

/-- Where the stream in one chunk has the same last image as its frames one by one, a frame that has
an image is of the last frame's type. -/
theorem type_of_last_image
    (hf : ∀ frame, ValidFrame frame → ((f frame).isSome ↔ byteAt frame 4 = type))
    (hImage : ((framesIn s).filterMap f).getLast? = (framesIn s).getLast?.bind f)
    {frame last : List UInt8} (hFrame : frame ∈ framesIn s) (hType : byteAt frame 4 = type)
    (hLast : (framesIn s).getLast? = some last) : byteAt last 4 = type := by
  have hSome := LastOf.last_isSome hImage frame hFrame ((hf frame (framesIn_valid hFrame)).mpr hType)
  rw [hLast, Option.bind_some] at hSome
  exact (hf last (framesIn_valid (List.mem_of_getLast? hLast))).mp hSome

end Images

theorem survivors_bytes (s : List UInt8) : survivors [] (s.map fun b => [b]) = framesIn s := by
  have hBytes : (s.map fun b => [b]).flatten = s := by
    rw [← List.flatMap_def, List.flatMap_singleton']
  rw [survivors_short, hBytes, completed_eq_framesIn]
  intro chunk hChunk
  obtain ⟨b, -, rfl⟩ := List.mem_map.mp hChunk
  exact (by decide : 1 ≤ 300)

theorem survivors_whole (s : List UInt8) : survivors [] [s] = (framesIn s).getLast?.toList := by
  rw [survivors, survivors, List.append_nil, completed_eq_framesIn]

/-- The slicing of a stream has no part in what is reported last exactly when the last frame of the
stream decides both reports. -/
theorem slicing_independent (s : List UInt8) :
    (∀ chunks chunks' : List (List UInt8), chunks.flatten = s → chunks'.flatten = s →
      SameReports chunks chunks') ↔ LastFrameDecides s := by
  constructor
  · intro hAll frame hFrame hType last hLast
    have hBytes : (s.map fun b => [b]).flatten = s := by
      rw [← List.flatMap_def, List.flatMap_singleton']
    obtain ⟨hTelemetry, hSettings⟩ := hAll _ [s] hBytes (by simp)
    rw [lastTelemetry_eq, lastTelemetry_eq, survivors_bytes, survivors_whole,
      LastOf.getLast?_filterMap_toList] at hTelemetry
    rw [lastSettings_eq, lastSettings_eq, survivors_bytes, survivors_whole,
      LastOf.getLast?_filterMap_toList] at hSettings
    rcases hType with hType | hType
    · rw [type_of_last_image (fun _ => telemetryOf_isSome) hTelemetry hFrame hType hLast, hType]
    · rw [type_of_last_image (fun _ => settingsOf_isSome) hSettings hFrame hType hLast, hType]
  · intro hDecides chunks chunks' hChunks hChunks'
    constructor
    · rw [lastTelemetry_eq, lastTelemetry_eq,
        survivors_image (fun _ => telemetryOf_isSome) (.inl rfl) hDecides hChunks,
        survivors_image (fun _ => telemetryOf_isSome) (.inl rfl) hDecides hChunks']
    · rw [lastSettings_eq, lastSettings_eq,
        survivors_image (fun _ => settingsOf_isSome) (.inr rfl) hDecides hChunks,
        survivors_image (fun _ => settingsOf_isSome) (.inr rfl) hDecides hChunks']

def emptySettings : List UInt8 := kJkResponseMagic ++ [0x01] ++ List.replicate 294 0 ++ [0x7B]

/-- A cell-info frame that ends in the same chunk as the settings frame behind it is lost. -/
theorem cell_info_lost_in_chunk :
    ¬∀ (s : List UInt8) (chunks chunks' : List (List UInt8)), chunks.flatten = s →
      chunks'.flatten = s → SameReports chunks chunks' := by
  intro h
  have hWhole : survivors [] [emptyCellInfo, emptySettings] = [emptyCellInfo, emptySettings] := by
    decide +kernel
  have hLate : survivors [] [emptyCellInfo.take 299, emptyCellInfo.drop 299 ++ emptySettings] =
      [emptySettings] := by
    decide +kernel
  have hSame := (h (emptyCellInfo ++ emptySettings) [emptyCellInfo, emptySettings]
    [emptyCellInfo.take 299, emptyCellInfo.drop 299 ++ emptySettings] (by simp)
    (by simp [← List.append_assoc])).1
  rw [lastTelemetry_eq, lastTelemetry_eq, hWhole, hLate] at hSame
  revert hSame
  decide +kernel

end BmsBridge
