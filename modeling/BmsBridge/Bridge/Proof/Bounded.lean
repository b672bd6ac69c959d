import BmsBridge.Bridge.Inverter
import BmsBridge.Lib.Runs
import BmsBridge.Pylontech.Master
import BmsBridge.Pylontech.Proof.Parser

/-! The receive loops of the two Pylontech receivers end, and what they leave in the buffer is the
beginning of one frame. -/

namespace BmsBridge

open Delimited Words

/-! ### Progress -/

theorem castInt_natAbs_le (n : Nat) : (castInt n).natAbs ≤ n := by
  have hMod := Nat.mod_le n 4294967296
  rw [castInt]
  split <;> omega

/-- A result other than zero removes at least one byte, and no more than there are. -/
def Progress (buf : List UInt8) : Prop :=
  (tryParsePylontech buf).1 ≠ 0 →
    1 ≤ (tryParsePylontech buf).1.natAbs ∧ (tryParsePylontech buf).1.natAbs ≤ buf.length

theorem tryParse_progress (buf : List UInt8) : Progress buf := by
  intro hNonzero
  refine ⟨Int.natAbs_pos.mpr hNonzero, ?_⟩
  clear hNonzero
  cases shape kSOI kEOI buf with
  | nil => exact Nat.le_refl _
  | gap _ hNe hSoi =>
    rw [tryParse_gap _ hNe hSoi, Int.natAbs_neg]
    exact castInt_natAbs_le _
  | skip gap tail hNe hSoi =>
    rw [tryParse_skip _ tail hNe hSoi, Int.natAbs_neg, List.length_append]
    exact Nat.le_trans (castInt_natAbs_le _) (Nat.le_add_right _ _)
  | begun body hEoi =>
    rw [tryParse_begun _ hEoi, List.length_cons]
    split
    · exact Nat.le_add_left _ _
    · exact Nat.zero_le _
  | closed body tail hEoi =>
    have hLe : (castInt (body.length + 2)).natAbs ≤ (kSOI :: (body ++ kEOI :: tail)).length := by
      have := castInt_natAbs_le (body.length + 2)
      simp only [List.length_cons, List.length_append]
      omega
    rcases tryParse_closed {} tail hEoi with h | h
    · rw [h]
      exact hLe
    · rw [h, Int.natAbs_neg]
      exact hLe

/-! ### What stays -/

/-- A buffer between two calls: empty, or the beginning of one frame. -/
def Bounded (rx : List UInt8) : Prop :=
  rx = [] ∨ (rx.head? = some kSOI ∧ kEOI ∉ rx ∧ rx.length ≤ kMaxFrameLen)

/-- What is before the loop in the course of taking a buffer to pieces: it takes off junk, a frame up to
its EOI, and the SOI of a frame that has no EOI and is too long for one. -/
inductive Looks (buf : List UInt8) : List UInt8 → Prop
  | whole : Looks buf buf
  | junk {gap rest : List UInt8} : Looks buf (gap ++ rest) → kSOI ∉ gap → Looks buf rest
  | frame {body rest : List UInt8} : Looks buf (kSOI :: (body ++ kEOI :: rest)) → kEOI ∉ body →
    Looks buf rest
  | begun {body : List UInt8} : Looks buf (kSOI :: body) → kEOI ∉ body → kMaxFrameLen ≤ body.length →
    Looks buf body

/-- What the parser measures is not too long for an `int`: no frame is, and junk may be as long as the
cast does not take its length for zero. -/
structure Countable (buf : List UInt8) : Prop where
  junk : ∀ gap rest, Looks buf (gap ++ rest) → kSOI ∉ gap → gap.length < 4294967296
  frame : ∀ body rest, Looks buf (kSOI :: (body ++ kEOI :: rest)) → kEOI ∉ body →
    body.length + 2 < kIntLimit

theorem Looks.length_le {buf rx : List UInt8} (h : Looks buf rx) : rx.length ≤ buf.length := by
  induction h with
  | whole => exact Nat.le_refl _
  | junk _ _ ih =>
    rw [List.length_append] at ih
    omega
  | frame _ _ ih =>
    simp only [List.length_cons, List.length_append] at ih
    omega
  | begun _ _ _ ih =>
    rw [List.length_cons] at ih
    omega

theorem countable_of_length_lt {buf : List UInt8} (h : buf.length < kIntLimit) : Countable buf where
  junk gap rest hLooks _ := by
    have hLe := hLooks.length_le
    rw [List.length_append] at hLe
    rw [kIntLimit] at h
    omega
  frame body rest hLooks _ := by
    have hLe := hLooks.length_le
    simp only [List.length_cons, List.length_append] at hLe
    omega

theorem castInt_ne_zero {n : Nat} (hPos : 0 < n) (hFits : n < 4294967296) : castInt n ≠ 0 := by
  rw [castInt]
  split <;> omega

section Loop

variable {buf rx : List UInt8}

/-- A part of the junk in front is junk. -/
theorem Looks.drop_junk {gap rest : List UInt8} {k : Nat} (hLooks : Looks buf (gap ++ rest))
    (hSoi : kSOI ∉ gap) (hk : k ≤ gap.length) : Looks buf ((gap ++ rest).drop k) := by
  rw [List.drop_append_of_le_length hk]
  rw [← List.take_append_drop k gap, List.append_assoc] at hLooks
  exact hLooks.junk fun hMem => hSoi (List.mem_of_mem_take hMem)

/-- Where the parser counts right, the loop takes off junk and frames. -/
theorem Looks.next (hCount : Countable buf) (hLooks : Looks buf rx) :
    Looks buf (rx.drop (tryParsePylontech rx).1.natAbs) := by
  cases shape kSOI kEOI rx with
  | nil =>
    rw [List.drop_nil]
    exact hLooks
  | gap _ hNe hSoi =>
    rw [tryParse_gap _ hNe hSoi, Int.natAbs_neg]
    rw [← List.append_nil rx] at hLooks ⊢
    exact hLooks.drop_junk hSoi (by simpa using castInt_natAbs_le rx.length)
  | skip gap tail hNe hSoi =>
    rw [tryParse_skip _ tail hNe hSoi, Int.natAbs_neg]
    exact hLooks.drop_junk hSoi (castInt_natAbs_le _)
  | begun body hEoi =>
    rw [tryParse_begun _ hEoi]
    split
    · rename_i hLong
      exact hLooks.begun hEoi (Nat.le_of_lt_succ hLong)
    · exact hLooks
  | closed body tail hEoi =>
    have hFits := hCount.frame body tail hLooks hEoi
    have hDrop : (kSOI :: (body ++ kEOI :: tail)).drop (body.length + 2) = tail := by
      rw [List.drop_succ_cons, List.drop_length_add_append]
      rfl
    have hTaken : (tryParsePylontech (kSOI :: (body ++ kEOI :: tail))).1.natAbs = body.length + 2 := by
      rcases tryParse_closed {} tail hEoi with h | h
      · rw [h, castInt_fits hFits]
        rfl
      · rw [h, Int.natAbs_neg, castInt_fits hFits]
        rfl
    rw [hTaken, hDrop]
    exact hLooks.frame hEoi

/-- It asks for more only behind the beginning of a frame. -/
theorem Looks.bounded_of_more (hCount : Countable buf) (hLooks : Looks buf rx)
    (hMore : (tryParsePylontech rx).1 = 0) : Bounded rx := by
  cases shape kSOI kEOI rx with
  | nil => exact .inl rfl
  | gap _ hNe hSoi =>
    have hFits := hCount.junk rx [] (by rwa [List.append_nil]) hSoi
    rw [tryParse_gap _ hNe hSoi] at hMore
    have := castInt_ne_zero (List.length_pos_iff.mpr hNe) hFits
    omega
  | skip gap tail hNe hSoi =>
    have hFits := hCount.junk gap _ hLooks hSoi
    rw [tryParse_skip _ tail hNe hSoi] at hMore
    have := castInt_ne_zero (List.length_pos_iff.mpr hNe) hFits
    omega
  | begun body hEoi =>
    rw [tryParse_begun _ hEoi] at hMore
    split at hMore
    · cases hMore
    · rename_i hShort
      exact .inr ⟨rfl, notMem_begun (by decide) hEoi, Nat.le_of_not_lt hShort⟩
  | closed body tail hEoi =>
    have hFits := hCount.frame body tail hLooks hEoi
    have := castInt_fits hFits
    rcases tryParse_closed {} tail hEoi with h | h
    · omega
    · omega

theorem Looks.rest_bounded (hCount : Countable buf) (hLooks : Looks buf rx) :
    Bounded (Drain.rest (tryParsePylontech ·) rx) := by
  induction hn : rx.length using Nat.strongRecOn generalizing rx with
  | _ n ih =>
  subst hn
  by_cases hEmpty : rx = []
  · rw [hEmpty, Drain.rest, Drain.drain_nil]
    exact .inl rfl
  by_cases hMore : (tryParsePylontech rx).1 = 0
  · rw [Drain.rest, Drain.drain_more hMore]
    exact hLooks.bounded_of_more hCount hMore
  · have hPos := List.length_pos_iff.mpr hEmpty
    have hTaken := Int.natAbs_pos.mpr hMore
    rw [Drain.rest_drop hEmpty hMore]
    exact ih _ (by rw [List.length_drop]; omega) (hLooks.next hCount) rfl

end Loop

theorem rest_bounded {buf : List UInt8} (hCount : Countable buf) :
    Bounded (Drain.rest (tryParsePylontech ·) buf) := Looks.whole.rest_bounded hCount

/-! ### Runs -/

structure Receivers where
  master : PylontechMasterProtocol
  rxBuf : List UInt8 := []

inductive ReceiverCall where
  /-- `PylontechMasterProtocol::feed`. -/
  | feed (data : List UInt8)
  | reset
  /-- `Inverter::on_bytes`. -/
  | onBytes (batteries : Batteries) (now : Int) (data : List UInt8)

namespace Receivers

def call (slots : List Slot) (r : Receivers) : ReceiverCall → Option Receivers
  | .feed data => some { r with master := (r.master.feed data).2 }
  | .reset => some { r with master := r.master.reset }
  | .onBytes b now data => some { r with rxBuf := (onBytes slots b now r.rxBuf data).2 }

/-- The parser can count what a call puts before it. -/
def Counts (r : Receivers) : ReceiverCall → Prop
  | .feed data => Countable (r.master.rx ++ data)
  | .reset => True
  | .onBytes _ _ data => Countable (appendRx r.rxBuf data)

theorem call_bounded {slots : List Slot} {r r' : Receivers} {c : ReceiverCall}
    (hBounded : Bounded r.master.rx ∧ Bounded r.rxBuf) (hCounts : r.Counts c)
    (hCall : r.call slots c = some r') : Bounded r'.master.rx ∧ Bounded r'.rxBuf := by
  obtain ⟨hMaster, hInverter⟩ := hBounded
  cases c with
  | feed data =>
    obtain rfl := Option.some.inj hCall
    refine ⟨?_, hInverter⟩
    rw [PylontechMasterProtocol.feed, Drain.drain_eq]
    exact rest_bounded hCounts
  | reset =>
    obtain rfl := Option.some.inj hCall
    exact ⟨.inl rfl, hInverter⟩
  | onBytes b now data =>
    obtain rfl := Option.some.inj hCall
    refine ⟨hMaster, ?_⟩
    rw [onBytes_eq]
    exact rest_bounded hCounts

end Receivers

/-- The loops of `feed` and `process_buffer` end on every buffer, whatever they do with a frame. -/
def LoopsEnd : Prop :=
  ∀ {σ : Type} (handle : σ → PylontechFrame → σ) (s : σ) (buf : List UInt8),
    Drain.loop (tryParsePylontech ·) handle (buf.length + 1) s buf =
      some (Drain.drain (tryParsePylontech ·) handle s buf)

/-- The loops end and move on with every turn, and in a run whose calls the parser can count, each
call leaves bounded buffers. -/
theorem receivers_bounded {slots : List Slot} {wireAdr : UInt8} {calls : List ReceiverCall}
    {r : Receivers}
    (hCounts : Runs.Meets (Receivers.call slots) Receivers.Counts { master := { wireAdr } } calls)
    (hRun : Runs.run (Receivers.call slots) { master := { wireAdr } } calls = some r) :
    LoopsEnd ∧ (∀ buf, Progress buf) ∧ Bounded r.master.rx ∧ Bounded r.rxBuf := by
  refine ⟨?_, tryParse_progress, ?_⟩
  · intro σ handle s buf
    exact Drain.loop_ends _ handle s (Nat.lt_succ_self _)
  · exact Runs.invariant_of_meets (I := fun r => Bounded r.master.rx ∧ Bounded r.rxBuf)
      (fun _ _ _ hBounded hMeets hCall => Receivers.call_bounded hBounded hMeets hCall)
      ⟨.inl rfl, .inl rfl⟩ hCounts hRun

/-- One request: a master gets its beginning, and an inverter its end. -/
def requestCalls : List ReceiverCall :=
  [.feed ((buildAnalogRequest 2).take 7),
    .onBytes { configs := [], states := fun _ => {} } 0 ((buildAnalogRequest 2).drop 7)]

theorem receivers_bounded_request :
    LoopsEnd ∧ (∀ buf, Progress buf) ∧
      Bounded (Drain.rest (tryParsePylontech ·) ((buildAnalogRequest 2).take 7)) ∧
      Bounded (Drain.rest (tryParsePylontech ·) ((buildAnalogRequest 2).drop 7)) := by
  have hMeets : Runs.Meets (Receivers.call []) Receivers.Counts { master := { wireAdr := 2 } }
      requestCalls :=
    ⟨countable_of_length_lt (by decide), countable_of_length_lt (by decide), trivial⟩
  have hBounded := receivers_bounded hMeets rfl
  simpa only [PylontechMasterProtocol.feed, Drain.drain_eq, onBytes_eq, List.nil_append,
    appendRx_nil] using hBounded

/-- Junk whose length the cast to `int` takes for zero. -/
theorem rest_uncounted {gap : List UInt8} (hSoi : kSOI ∉ gap) (hLen : gap.length = 4294967296) :
    Drain.rest (tryParsePylontech ·) gap = gap := by
  have hNe : gap ≠ [] := by
    intro hEmpty
    rw [hEmpty, List.length_nil] at hLen
    omega
  have hCast : castInt 4294967296 = 0 := by decide
  have hMore : (tryParsePylontech gap).1 = 0 := by
    rw [tryParse_gap _ hNe hSoi, hLen, hCast]
    exact Int.neg_zero
  rw [Drain.rest, Drain.drain_more hMore]

/-- Four gigabytes without SOI, in one chunk, stay in the buffer. -/
theorem uncounted_junk_stays :
    ¬∀ calls : List ReceiverCall,
      ∀ r ∈ Runs.run (Receivers.call []) { master := { wireAdr := 2 } } calls,
        Bounded r.master.rx := by
  intro hAll
  obtain ⟨gap, hSoi, hLen⟩ : ∃ gap : List UInt8, kSOI ∉ gap ∧ gap.length = 4294967296 :=
    ⟨List.replicate 4294967296 0, fun h => absurd (List.eq_of_mem_replicate h) (by decide),
      List.length_replicate⟩
  have hBounded := hAll [.feed gap] _ rfl
  rw [PylontechMasterProtocol.feed, Drain.drain_eq] at hBounded
  simp only [List.nil_append, rest_uncounted hSoi hLen] at hBounded
  rcases hBounded with hEmpty | ⟨hHead, -, -⟩
  · rw [hEmpty, List.length_nil] at hLen
    omega
  · exact hSoi (List.mem_of_mem_head? hHead)

end BmsBridge
