import BmsBridge.Lib.Drain
import Mathlib.Data.List.Induction

/-! Frames between a start and a stop byte.  A receiver that sees one byte after the other is either
between two frames or inside one; a receive loop over a buffer does the same, whatever the chunks
that its bytes arrive in, as long as its parser keeps to a contract. -/

namespace Delimited

variable {α β σ : Type} [DecidableEq α]

/-! ### The position of a byte -/

theorem findIdx_notMem {a : α} {xs : List α} (h : a ∉ xs) : xs.findIdx (· == a) = xs.length :=
  List.idxOf_eq_length h

theorem findIdx_append_cons {a : α} {xs : List α} (ys : List α) (h : a ∉ xs) :
    (xs ++ a :: ys).findIdx (· == a) = xs.length := by
  have hFound : (xs ++ a :: ys).idxOf a = xs.length := by
    rw [List.idxOf_append, if_neg h, List.idxOf_cons_self, Nat.zero_add]
  exact hFound

section Scan

variable (start stop : α)

/-- One byte: `none` is between two frames, `some body` behind the start byte of one. -/
def step (body : Option (List α)) (b : α) : Option (List α) :=
  match body with
  | none => if b = start then some [] else none
  | some body => if b = stop then none else some (body ++ [b])

def after (body : Option (List α)) (bytes : List α) : Option (List α) :=
  bytes.foldl (step start stop) body

/-- The bodies of the frames that end in `bytes`. -/
def bodies (body : Option (List α)) : List α → List (List α)
  | [] => []
  | b :: bytes => (if b = stop then body else none).toList ++ bodies (step start stop body b) bytes

/-- The bytes of a frame that has begun. -/
def held : Option (List α) → List α
  | none => []
  | some body => start :: body

/-- Between two frames no `n` bytes in a row are free of start bytes. -/
def GapsBelow (n : Nat) (body : Option (List α)) (bytes : List α) : Prop :=
  ∀ before gap behind, bytes = before ++ gap ++ behind → after start stop body before = none →
    start ∉ gap → gap.length < n

/-- No more than `n` bytes in a row are free of stop bytes. -/
def RunsAtMost (n : Nat) (bytes : List α) : Prop :=
  ∀ run, run <:+: bytes → stop ∉ run → run.length ≤ n

variable {start stop}

theorem after_append (body : Option (List α)) (xs ys : List α) :
    after start stop body (xs ++ ys) = after start stop (after start stop body xs) ys :=
  List.foldl_append

theorem after_cons (body : Option (List α)) (b : α) (bytes : List α) :
    after start stop body (b :: bytes) = after start stop (step start stop body b) bytes := rfl

theorem bodies_append (body : Option (List α)) (xs ys : List α) :
    bodies start stop body (xs ++ ys) =
      bodies start stop body xs ++ bodies start stop (after start stop body xs) ys := by
  induction xs generalizing body with
  | nil => rfl
  | cons b xs ih => rw [List.cons_append, bodies, bodies, ih, List.append_assoc, after_cons]

variable (stop) in
theorem scan_gap {gap : List α} (hStart : start ∉ gap) :
    after start stop none gap = none ∧ bodies start stop none gap = [] := by
  induction gap with
  | nil => exact ⟨rfl, rfl⟩
  | cons b gap ih =>
    obtain ⟨hb, hGap⟩ := not_or.mp (mt List.mem_cons.mpr hStart)
    have hStep : step start stop none b = none := if_neg (Ne.symm hb)
    obtain ⟨hAfter, hBodies⟩ := ih hGap
    constructor
    · rw [after_cons, hStep, hAfter]
    · rw [bodies, hStep, hBodies, ite_self]
      rfl

variable (start) in
theorem scan_body (body : List α) {more : List α} (hStop : stop ∉ more) :
    after start stop (some body) more = some (body ++ more) ∧
      bodies start stop (some body) more = [] := by
  induction more generalizing body with
  | nil => exact ⟨by rw [List.append_nil]; rfl, rfl⟩
  | cons b more ih =>
    obtain ⟨hb, hMore⟩ := not_or.mp (mt List.mem_cons.mpr hStop)
    have hStep : step start stop (some body) b = some (body ++ [b]) := if_neg (Ne.symm hb)
    obtain ⟨hAfter, hBodies⟩ := ih (body ++ [b]) hMore
    constructor
    · rw [after_cons, hStep, hAfter, List.append_assoc]
      rfl
    · rw [bodies, hStep, hBodies, if_neg (Ne.symm hb)]
      rfl

variable (stop) in
theorem scan_start (gap tail : List α) (hStart : start ∉ gap) :
    after start stop none (gap ++ start :: tail) = after start stop (some []) tail ∧
      bodies start stop none (gap ++ start :: tail) = bodies start stop (some []) tail := by
  obtain ⟨hAfter, hBodies⟩ := scan_gap stop hStart
  have hStep : step start stop none start = some [] := if_pos rfl
  constructor
  · rw [after_append, hAfter, after_cons, hStep]
  · rw [bodies_append, hAfter, hBodies, bodies, hStep, ite_self]
    rfl

variable (start) in
theorem scan_stop (body more tail : List α) (hStop : stop ∉ more) :
    after start stop (some body) (more ++ stop :: tail) = after start stop none tail ∧
      bodies start stop (some body) (more ++ stop :: tail) =
        (body ++ more) :: bodies start stop none tail := by
  obtain ⟨hAfter, hBodies⟩ := scan_body start body hStop
  have hStep : step start stop (some (body ++ more)) stop = none := if_pos rfl
  constructor
  · rw [after_append, hAfter, after_cons, hStep]
  · rw [bodies_append, hAfter, hBodies, bodies, hStep, if_pos rfl]
    rfl

variable (start) in
theorem step_held {body : Option (List α)} (hBody : ∀ b ∈ body, stop ∉ b) (x : α) :
    (∀ b ∈ step start stop body x, stop ∉ b) ∧
      held start (step start stop body x) <:+ held start body ++ [x] := by
  cases body with
  | none =>
    rw [step]
    split
    · rename_i hx
      constructor
      · rintro b hb
        obtain rfl := Option.some.inj hb
        exact List.not_mem_nil
      · rw [hx]
        exact List.suffix_refl _
    · exact ⟨fun b hb => (nomatch hb), List.nil_suffix⟩
  | some body =>
    rw [step]
    split
    · exact ⟨fun b hb => (nomatch hb), List.nil_suffix⟩
    · rename_i hx
      constructor
      · rintro b hb
        obtain rfl := Option.some.inj hb
        rw [List.mem_append, List.mem_singleton]
        rintro (hMem | rfl)
        · exact hBody body rfl hMem
        · exact hx rfl
      · exact List.suffix_refl _

variable (start) in
/-- A frame that has begun holds the last bytes received, and no stop byte. -/
theorem after_held {body : Option (List α)} (hBody : ∀ b ∈ body, stop ∉ b) (bytes : List α) :
    (∀ b ∈ after start stop body bytes, stop ∉ b) ∧
      held start (after start stop body bytes) <:+ held start body ++ bytes := by
  induction bytes generalizing body with
  | nil => exact ⟨hBody, by rw [List.append_nil]; exact List.suffix_refl _⟩
  | cons x bytes ih =>
    obtain ⟨hStep, hHeld⟩ := step_held start hBody x
    obtain ⟨hAfter, hRest⟩ := ih hStep
    refine ⟨hAfter, hRest.trans ?_⟩
    rw [List.append_cons]
    exact List.suffix_append_self_iff.mpr hHeld

omit [DecidableEq α] in
theorem notMem_begun (hNe : start ≠ stop) {body : List α} (hBody : stop ∉ body) :
    stop ∉ start :: body := by
  rw [List.mem_cons]
  rintro (h | h)
  · exact hNe h.symm
  · exact hBody h

omit [DecidableEq α] in
theorem notMem_append {more body : List α} (hBody : stop ∉ body) (hMore : stop ∉ more) :
    stop ∉ body ++ more := by
  rw [List.mem_append]
  rintro (h | h)
  · exact hBody h
  · exact hMore h

omit [DecidableEq α] in
theorem RunsAtMost.part {n : Nat} {bytes part : List α} (h : RunsAtMost stop n bytes)
    (hPart : part <:+: bytes) : RunsAtMost stop n part :=
  fun run hRun => h run (hRun.trans hPart)

theorem GapsBelow.behind {n : Nat} {body : Option (List α)} (front : List α)
    {tail : List α} (h : GapsBelow start stop n body (front ++ tail)) :
    GapsBelow start stop n (after start stop body front) tail := by
  rintro before gap behind rfl hBetween hStart
  refine h (front ++ before) gap behind ?_ ?_ hStart
  · simp only [List.append_assoc]
  · rw [after_append]
    exact hBetween

theorem GapsBelow.front {n : Nat} {body : Option (List α)} {front tail : List α}
    (h : GapsBelow start stop n body (front ++ tail)) : GapsBelow start stop n body front := by
  rintro before gap behind rfl hBetween hStart
  exact h before gap (behind ++ tail) (by simp only [List.append_assoc]) hBetween hStart

theorem gapsBelow_of_length_lt {n : Nat} {body : Option (List α)} {bytes : List α}
    (h : bytes.length < n) : GapsBelow start stop n body bytes := by
  rintro before gap behind rfl - -
  simp only [List.length_append] at h
  omega

end Scan

/-- The calls of a receive loop on one chunk after the other: the frames found and the buffer left.
`join` puts a chunk behind the buffer. -/
def receive (parse : List α → Int × β) (join : List α → List α → List α) (rx : List α) :
    List (List α) → List β × List α
  | [] => ([], rx)
  | chunk :: chunks =>
    let later := receive parse join (Drain.rest parse (join rx chunk)) chunks
    (Drain.frames parse (join rx chunk) ++ later.1, later.2)

omit [DecidableEq α] in
theorem receive_append (parse : List α → Int × β) (join : List α → List α → List α) (rx : List α)
    (xs ys : List (List α)) :
    receive parse join rx (xs ++ ys) =
      ((receive parse join rx xs).1 ++ (receive parse join (receive parse join rx xs).2 ys).1,
        (receive parse join (receive parse join rx xs).2 ys).2) := by
  induction xs generalizing rx with
  | nil => rfl
  | cons x xs ih => simp only [List.cons_append, receive, ih, List.append_assoc]

/-- What a buffer looks like to a parser that anchors on its first start byte. -/
inductive Shape (start stop : α) : List α → Prop
  | nil : Shape start stop []
  | gap (gap : List α) : gap ≠ [] → start ∉ gap → Shape start stop gap
  | skip (gap tail : List α) : gap ≠ [] → start ∉ gap → Shape start stop (gap ++ start :: tail)
  | begun (body : List α) : stop ∉ body → Shape start stop (start :: body)
  | closed (body tail : List α) : stop ∉ body → Shape start stop (start :: (body ++ stop :: tail))

theorem shape (start stop : α) (buf : List α) : Shape start stop buf := by
  by_cases hStart : start ∈ buf
  · obtain ⟨gap, tail, rfl, hGap⟩ := List.eq_append_cons_of_mem hStart
    by_cases hEmpty : gap = []
    · subst hEmpty
      by_cases hStop : stop ∈ tail
      · obtain ⟨body, rest, rfl, hBody⟩ := List.eq_append_cons_of_mem hStop
        exact .closed body rest hBody
      · exact .begun tail hStop
    · exact .skip gap tail hEmpty hGap
  · by_cases hEmpty : buf = []
    · subst hEmpty
      exact .nil
    · exact .gap buf hEmpty hStart

/-- The contract of a parser of delimited frames whose results are exact below `limit`, and which
waits for the rest of a frame of up to `room` bytes. -/
structure Parses (parse : List α → Int × β) (start stop : α) (decode : List α → Option β)
    (limit room : Nat) : Prop where
  gap : ∀ gap, gap ≠ [] → start ∉ gap → gap.length < limit → (parse gap).1 = -(gap.length : Int)
  skip : ∀ gap tail, gap ≠ [] → start ∉ gap → gap.length < limit →
    (parse (gap ++ start :: tail)).1 = -(gap.length : Int)
  begun : ∀ body, stop ∉ body → body.length < room → (parse (start :: body)).1 = 0
  frame : ∀ body tail f, stop ∉ body → body.length + 2 < limit → decode body = some f →
    parse (start :: (body ++ stop :: tail)) = (((body.length + 2 : Nat) : Int), f)
  reject : ∀ body tail, stop ∉ body → body.length + 2 < limit → decode body = none →
    (parse (start :: (body ++ stop :: tail))).1 = -((body.length + 2 : Nat) : Int)

omit [DecidableEq α] in
theorem frames_rest {rx rx' : List α} {fs : List β}
    (h : Drain.drain parse (fun (gs : List β) f => gs ++ [f]) [] rx = (fs, rx')) :
    Drain.frames parse rx = fs ∧ Drain.rest parse rx = rx' :=
  ⟨congrArg Prod.fst h, congrArg Prod.snd h⟩

section Receive

variable {parse : List α → Int × β} {start stop : α} {decode : List α → Option β}
  {limit room : Nat} (hParses : Parses parse start stop decode limit room)

include hParses

omit [DecidableEq α] in
theorem drain_gap (handle : σ → β → σ) (s : σ) {gap : List α} (hStart : start ∉ gap)
    (hLimit : gap.length < limit) : Drain.drain parse handle s gap = (s, []) := by
  by_cases hEmpty : gap = []
  · rw [hEmpty, Drain.drain_nil]
  · have hParse := hParses.gap gap hEmpty hStart hLimit
    have hPos := List.length_pos_iff.mpr hEmpty
    rw [Drain.drain_junk hEmpty (by omega), hParse, Int.neg_neg, Int.toNat_natCast, Nat.min_self,
      List.drop_length, Drain.drain_nil]

omit [DecidableEq α] in
theorem drain_skip (handle : σ → β → σ) (s : σ) {gap : List α} (tail : List α)
    (hStart : start ∉ gap) (hLimit : gap.length < limit) :
    Drain.drain parse handle s (gap ++ start :: tail) =
      Drain.drain parse handle s (start :: tail) := by
  by_cases hEmpty : gap = []
  · rw [hEmpty, List.nil_append]
  · have hParse := hParses.skip gap tail hEmpty hStart hLimit
    have hPos := List.length_pos_iff.mpr hEmpty
    rw [Drain.drain_junk (List.append_ne_nil_of_left_ne_nil hEmpty _) (by omega), hParse,
      Int.neg_neg, Int.toNat_natCast, Nat.min_eq_left (by rw [List.length_append]; omega),
      List.drop_left]

omit [DecidableEq α] in
theorem drain_closed (handle : σ → β → σ) (s : σ) {body : List α} (tail : List α)
    (hStop : stop ∉ body) (hLimit : body.length + 2 < limit) :
    Drain.drain parse handle s (start :: (body ++ stop :: tail)) =
      Drain.drain parse handle ((decode body).toList.foldl handle s) tail := by
  have hDrop : (start :: (body ++ stop :: tail)).drop (body.length + 2) = tail := by
    rw [List.drop_succ_cons, List.drop_append, List.drop_of_length_le (by omega),
      Nat.add_sub_cancel_left]
    rfl
  cases hDecode : decode body with
  | none =>
    have hParse := hParses.reject body tail hStop hLimit hDecode
    rw [Drain.drain_junk (List.cons_ne_nil _ _) (by omega), hParse, Int.neg_neg, Int.toNat_natCast,
      Nat.min_eq_left (by simp only [List.length_cons, List.length_append]; omega), hDrop]
    rfl
  | some f =>
    have hParse := hParses.frame body tail f hStop hLimit hDecode
    rw [Drain.drain_frame (List.cons_ne_nil _ _) (by rw [hParse]; simp only; omega), hParse]
    simp only [Int.toNat_natCast, hDrop]
    rfl

/-- The receive loop on what it holds of a frame and the bytes of a chunk behind it: it handles the
frames that a receiver of single bytes would find, and holds what that one would. -/
theorem drain_held (hNe : start ≠ stop) (hRoom : room + 1 < limit) (handle : σ → β → σ) (s : σ)
    (body : Option (List α)) (data : List α) (hBody : ∀ b ∈ body, stop ∉ b)
    (hRuns : RunsAtMost stop room (held start body ++ data))
    (hGaps : GapsBelow start stop limit body data) :
    Drain.drain parse handle s (held start body ++ data) =
      (((bodies start stop body data).filterMap decode).foldl handle s,
        held start (after start stop body data)) := by
  induction hn : data.length using Nat.strongRecOn generalizing s body data with
  | _ n ih =>
  subst hn
  cases body with
  | none =>
    rw [held, List.nil_append] at hRuns ⊢
    by_cases hStart : start ∈ data
    · obtain ⟨gap, tail, rfl, hGap⟩ := List.eq_append_cons_of_mem hStart
      have hLimit := hGaps [] gap (start :: tail) rfl rfl hGap
      obtain ⟨hAfter, hBodies⟩ := scan_start stop gap tail hGap
      have hTail : GapsBelow start stop limit (some []) tail := by
        have hBehind := GapsBelow.behind (gap ++ [start]) (by rwa [List.append_assoc])
        rwa [after_append, (scan_gap stop hGap).1, after_cons, step, if_pos rfl] at hBehind
      rw [drain_skip hParses handle s tail hGap hLimit, hAfter, hBodies]
      refine ih tail.length ?_ s (some []) tail ?_ ?_ hTail rfl
      · simp only [List.length_append, List.length_cons]
        omega
      · rintro b hb
        obtain rfl := Option.some.inj hb
        exact List.not_mem_nil
      · exact hRuns.part (List.suffix_append gap _).isInfix
    · obtain ⟨hAfter, hBodies⟩ := scan_gap stop hStart
      have hLimit := hGaps [] data [] (by simp) rfl hStart
      rw [drain_gap hParses handle s hStart hLimit, hAfter, hBodies]
      rfl
  | some body =>
    have hBody := hBody body rfl
    rw [held, List.cons_append] at hRuns ⊢
    by_cases hStop : stop ∈ data
    · obtain ⟨more, tail, rfl, hMore⟩ := List.eq_append_cons_of_mem hStop
      obtain ⟨hAfter, hBodies⟩ := scan_stop start body more tail hMore
      have hClosed := notMem_append hBody hMore
      have hLimit : (body ++ more).length + 2 < limit := by
        have hRun := hRuns (start :: (body ++ more)) ⟨[], stop :: tail, by simp⟩
          (notMem_begun hNe hClosed)
        rw [List.length_cons] at hRun
        omega
      have hTail : GapsBelow start stop limit none tail := by
        have hBehind := GapsBelow.behind (more ++ [stop]) (by rwa [List.append_assoc])
        rwa [after_append, (scan_body start body hMore).1, after_cons, step, if_pos rfl] at hBehind
      rw [← List.append_assoc, drain_closed hParses handle s tail hClosed hLimit, hAfter, hBodies,
        List.filterMap_cons]
      have hNext (s : σ) := ih tail.length (by simp only [List.length_append, List.length_cons]; omega)
        s none tail (by rintro b hb; cases hb)
        (hRuns.part ⟨start :: (body ++ more ++ [stop]), [], by simp [held]⟩) hTail rfl
      rw [held, List.nil_append] at hNext
      rw [hNext]
      cases decode (body ++ more) <;> rfl
    · obtain ⟨hAfter, hBodies⟩ := scan_body start body hStop
      have hOpen := notMem_append hBody hStop
      have hRun := hRuns (start :: (body ++ data)) (List.infix_refl _) (notMem_begun hNe hOpen)
      rw [List.length_cons] at hRun
      rw [Drain.drain_more (hParses.begun _ hOpen (by omega)), hAfter, hBodies]
      rfl

/-- Between the chunks nothing is lost: whatever the chunks of a stream, the loop finds the frames of
the stream, as long as the buffer holds `n` bytes at most and no gap inside a chunk is too long. -/
theorem receive_eq (hNe : start ≠ stop) (hRoom : room + 1 < limit) {n : Nat} (hn : n ≤ room)
    (join : List α → List α → List α) (body : Option (List α)) (chunks : List (List α))
    (hJoin : ∀ rx, ∀ chunk ∈ chunks, rx.length ≤ n → join rx chunk = rx ++ chunk)
    (hBody : ∀ b ∈ body, stop ∉ b)
    (hRuns : RunsAtMost stop n (held start body ++ chunks.flatten))
    (hGaps : ∀ front chunk behind, chunks = front ++ chunk :: behind →
      GapsBelow start stop limit (after start stop body front.flatten) chunk) :
    receive parse join (held start body) chunks =
      ((bodies start stop body chunks.flatten).filterMap decode,
        held start (after start stop body chunks.flatten)) := by
  induction chunks generalizing body with
  | nil => rfl
  | cons chunk chunks ih =>
    have hHeld : stop ∉ held start body := by
      cases body with
      | none => exact List.not_mem_nil
      | some b => exact notMem_begun hNe (hBody b rfl)
    have hLen : (held start body).length ≤ n :=
      hRuns _ (List.prefix_append _ _).isInfix hHeld
    rw [List.flatten_cons, ← List.append_assoc] at hRuns
    have hRun : RunsAtMost stop room (held start body ++ chunk) := fun run hRun hStop =>
      Nat.le_trans (hRuns run (hRun.trans (List.prefix_append _ _).isInfix) hStop) hn
    have hDrain := drain_held hParses hNe hRoom (fun (gs : List β) f => gs ++ [f]) [] body chunk
      hBody hRun (hGaps [] chunk chunks rfl)
    obtain ⟨hFrames, hRest⟩ := frames_rest hDrain
    have hFold : ((bodies start stop body chunk).filterMap decode).foldl
        (fun (gs : List β) f => gs ++ [f]) [] = (bodies start stop body chunk).filterMap decode := by
      rw [List.foldl_append_eq_append, List.nil_append, ← List.flatMap_def,
        List.flatMap_singleton']
    obtain ⟨hAfter, hSuffix⟩ := after_held start hBody chunk
    have hLater := ih (after start stop body chunk)
      (fun rx c hc => hJoin rx c (List.mem_cons_of_mem _ hc)) ?_ ?_ ?_
    · simp only [receive]
      rw [hJoin _ chunk (List.mem_cons_self ..) hLen, hFrames, hRest, hFold, hLater,
        List.flatten_cons, bodies_append, after_append, List.filterMap_append]
    · exact hAfter
    · apply hRuns.part
      obtain ⟨front, hFront⟩ := hSuffix
      exact ⟨front, [], by rw [List.append_nil, ← List.append_assoc, hFront]⟩
    · intro front c behind hSplit
      rw [← after_append, ← List.flatten_cons]
      exact hGaps (chunk :: front) c behind (by rw [hSplit]; rfl)

/-- A stream whose bytes come one at a time. -/
theorem receive_bytes (hNe : start ≠ stop) (hRoom : room + 1 < limit) {n : Nat} (hn : n ≤ room)
    (bytes : List α) (hRuns : RunsAtMost stop n bytes) :
    receive parse (· ++ ·) [] (bytes.map fun b => [b]) =
      ((bodies start stop none bytes).filterMap decode, held start (after start stop none bytes)) := by
  have hFlat : (bytes.map fun b => [b]).flatten = bytes := by
    rw [← List.flatMap_def, List.flatMap_singleton']
  have hReceive := receive_eq hParses hNe hRoom hn (· ++ ·) none
    (bytes.map fun b => [b]) (fun _ _ _ _ => rfl) (by rintro b hb; cases hb)
    (by rw [hFlat]; exact hRuns) ?_
  · rwa [hFlat] at hReceive
  · rintro front chunk behind hSplit
    have hMem : chunk ∈ bytes.map fun b => [b] := by
      rw [hSplit]
      exact List.mem_append_right _ (List.mem_cons_self ..)
    obtain ⟨b, -, rfl⟩ := List.mem_map.mp hMem
    exact gapsBelow_of_length_lt (by rw [List.length_singleton]; omega)

end Receive

end Delimited
