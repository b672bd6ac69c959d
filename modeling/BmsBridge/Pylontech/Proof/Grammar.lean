import BmsBridge.Pylontech.Proof.Parser
import Mathlib.Algebra.Ring.Nat

/-! The language of the Pylontech parser: the frames that the protocol describes, apart from the
value of LENGTH.  The parser takes exactly these as long as its counts survive the cast to `int`. -/

namespace BmsBridge

open Delimited Words

/-! ### Frames -/

/-- The two's complement of the sum of the ASCII bytes, in 16 bits. -/
def asciiChecksum (digits : List UInt8) : Nat :=
  (65536 - (digits.map UInt8.toNat).sum % 65536) % 65536

theorem toNat_foldl_add (p : List UInt8) (acc : UInt32) :
    (p.foldl (fun (sum : UInt32) b => sum + b.toUInt32) acc).toNat =
      (acc.toNat + (p.map UInt8.toNat).sum) % 4294967296 := by
  induction p generalizing acc with
  | nil => exact (Nat.mod_eq_of_lt acc.toNat_lt).symm
  | cons b p ih =>
    rw [List.foldl_cons, ih, UInt32.toNat_add, UInt8.toNat_toUInt32, List.map_cons, List.sum_cons]
    omega

theorem toNat_chksumOver (p : List UInt8) : (chksumOver p).toNat = asciiChecksum p := by
  have hSum := toNat_foldl_add p 0
  unfold chksumOver asciiChecksum
  rw [UInt16.toNat_add, UInt16.toNat_not, UInt32.toNat_toUInt16, hSum]
  show (65535 - (0 + _) % 4294967296 % 65536 + 1) % 65536 = _
  omega

/-- Hex digits, of an even count of at least 16, that spell the bytes of a frame: VER, ADR, CID1,
CID2, two bytes of any LENGTH, INFO, and the checksum of the digits before it. -/
def SpellsFrame (digits : List UInt8) (f : PylontechFrame) : Prop :=
  ∃ lenHi lenLo csHi csLo,
    Spells digits ([f.ver, f.adr, f.cid1, f.cid2, lenHi, lenLo] ++ f.info ++ [csHi, csLo]) ∧
      256 * csHi.toNat + csLo.toNat = asciiChecksum (digits.take (digits.length - 4))

/-- The first `n` bytes of the buffer are the frame `f`, from SOI to the first EOI. -/
def BeginsWithFrame (buf : List UInt8) (n : Nat) (f : PylontechFrame) : Prop :=
  ∃ digits tail, buf = kSOI :: (digits ++ kEOI :: tail) ∧ kEOI ∉ digits ∧ n = digits.length + 2 ∧
    SpellsFrame digits f

section Closed

variable {digits : List UInt8} (tail : List UInt8) (out : PylontechFrame)

theorem tryParse_frame {f : PylontechFrame} (h : SpellsFrame digits f) :
    tryParsePylontech (kSOI :: (digits ++ kEOI :: tail)) out = (castInt (digits.length + 2), f) := by
  obtain ⟨lenHi, lenLo, csHi, csLo, hSpells, hChksum⟩ := h
  have hLen := hSpells.length
  simp only [List.length_append, List.length_cons, List.length_nil] at hLen
  have hFront : digits.length - 4 = 12 + 2 * f.info.length := by omega
  have hBack : digits.length + 2 = 18 + 2 * f.info.length := by omega
  rw [hFront] at hChksum
  rw [tryParse_spells hSpells, hBack, if_pos]
  apply UInt16.toNat_inj.mp
  rw [toNat_chksumOver, ofBytes_toNat, hChksum]

/-- What is closed and no frame is rejected as a whole. -/
theorem tryParse_no_frame (hEoi : kEOI ∉ digits) (h : ¬∃ f, SpellsFrame digits f) :
    (tryParsePylontech (kSOI :: (digits ++ kEOI :: tail)) out).1 = -castInt (digits.length + 2) := by
  rcases tryParse_unspelled out tail hEoi with hReject | ⟨bytes, hBytes, hLong⟩
  · exact hReject
  · obtain ⟨ver, adr, cid1, cid2, lenHi, lenLo, info, csHi, csLo, rfl⟩ := frame_split hLong
    have hLen := hBytes.length
    simp only [List.length_append, List.length_cons, List.length_nil] at hLen
    have hFront : digits.length - 4 = 12 + 2 * info.length := by omega
    have hBack : digits.length + 2 = 18 + 2 * info.length := by omega
    rw [tryParse_spells hBytes, hBack, if_neg]
    intro hChksum
    refine h ⟨{ ver, adr, cid1, cid2, info }, lenHi, lenLo, csHi, csLo, hBytes, ?_⟩
    rw [← ofBytes_toNat, ← hChksum, toNat_chksumOver, hFront]

end Closed

/-! ### Whole buffers -/

/-- More bytes can make a frame of the buffer. -/
def CanBegin (buf : List UInt8) : Prop :=
  buf = [] ∨ (buf.head? = some kSOI ∧ kEOI ∉ buf ∧ buf.length ≤ 4096)

/-- What the parser owes a buffer, whatever its output frame held before: a positive result and a
frame exactly for a frame of the grammar, and zero only where more bytes can make one. -/
def AcceptsGrammar (buf : List UInt8) : Prop :=
  ∀ out, (∀ (n : Nat) f, 0 < n →
      (tryParsePylontech buf out = ((n : Int), f) ↔ BeginsWithFrame buf n f)) ∧
    ((tryParsePylontech buf out).1 = 0 → CanBegin buf)

/-- A count that the cast to `int` leaves positive. -/
def CastsPositive (n : Nat) : Prop := 0 < n % 4294967296 ∧ n % 4294967296 < 2147483648

theorem castInt_pos_iff {n : Nat} : 0 < castInt n ↔ CastsPositive n := by
  unfold castInt CastsPositive
  split <;> omega

theorem castInt_eq_iff {n : Nat} : castInt n = n ↔ n < 2147483648 := by
  unfold castInt
  split <;> omega

/-- The counts of a buffer fit: of the bytes in front of its first SOI, or else of the bytes up to
its first EOI, which must be exact when they are a frame. -/
def CountsFit (buf : List UInt8) : Prop :=
  let soi := buf.findIdx (· == kSOI)
  let eoi := buf.findIdx (· == kEOI)
  (0 < soi → CastsPositive soi) ∧
    (soi = 0 → eoi < buf.length → CastsPositive (eoi + 1) ∧
      ((∃ f, BeginsWithFrame buf (eoi + 1) f) → eoi + 1 < 2147483648))

theorem no_frame_without_start {buf : List UInt8} (h : buf.head? ≠ some kSOI) (n : Nat)
    (f : PylontechFrame) : ¬BeginsWithFrame buf n f := by
  rintro ⟨digits, tail, rfl, -⟩
  exact h rfl

theorem beginsWithFrame_closed {digits tail : List UInt8} (hEoi : kEOI ∉ digits) {n : Nat}
    {f : PylontechFrame} : BeginsWithFrame (kSOI :: (digits ++ kEOI :: tail)) n f ↔
      n = digits.length + 2 ∧ SpellsFrame digits f := by
  constructor
  · rintro ⟨digits', tail', hBuf, hEoi', rfl, hSpells⟩
    have hSplit := List.tail_eq_of_cons_eq hBuf
    have hLen := congrArg (·.findIdx (· == kEOI)) hSplit
    simp only [findIdx_append_cons tail hEoi, findIdx_append_cons tail' hEoi'] at hLen
    obtain ⟨rfl, -⟩ := List.append_inj hSplit hLen
    exact ⟨rfl, hSpells⟩
  · rintro ⟨rfl, hSpells⟩
    exact ⟨digits, tail, rfl, hEoi, rfl, hSpells⟩

section Verdict

variable {buf : List UInt8} {n : Nat}

/-- A rejection keeps its sign exactly when the cast keeps the count positive. -/
theorem acceptsGrammar_rejected (hResult : ∀ out, (tryParsePylontech buf out).1 = -castInt n)
    (hNone : ∀ n f, ¬BeginsWithFrame buf n f) (hMore : ¬CanBegin buf) :
    AcceptsGrammar buf ↔ CastsPositive n := by
  rw [← castInt_pos_iff]
  constructor
  · intro h
    obtain ⟨hFrame, hZero⟩ := h {}
    have hBuf := hResult {}
    by_contra hNot
    rcases Int.lt_or_eq_of_le (Int.not_lt.mp hNot) with hNeg | hEq
    · have hTaken := hFrame (-castInt n).toNat (tryParsePylontech buf {}).2 (by omega)
      refine hNone _ _ (hTaken.mp (Prod.ext ?_ rfl))
      rw [hBuf, Int.toNat_of_nonneg (by omega)]
    · exact hMore (hZero (by rw [hBuf, hEq]; rfl))
  · intro hPos out
    have hBuf := hResult out
    refine ⟨fun m f hm => ⟨fun h => ?_, fun h => absurd h (hNone m f)⟩, fun h => by omega⟩
    rw [h] at hBuf
    have hInt : (m : Int) = -castInt n := hBuf
    omega

/-- A frame is taken at its length exactly when the cast keeps that. -/
theorem acceptsGrammar_taken {f : PylontechFrame}
    (hResult : ∀ out, tryParsePylontech buf out = (castInt n, f))
    (hOnly : ∀ m g, BeginsWithFrame buf m g ↔ m = n ∧ g = f) (hPos : 0 < n) :
    AcceptsGrammar buf ↔ n < 2147483648 := by
  rw [← castInt_eq_iff]
  constructor
  · intro h
    have hTaken := (((h {}).1 n f hPos).mpr ((hOnly n f).mpr ⟨rfl, rfl⟩))
    rw [hResult] at hTaken
    exact (Prod.mk.inj hTaken).1
  · intro hEq out
    rw [hResult out, hEq]
    refine ⟨fun m g _ => ?_, fun h => absurd h (by show ¬(n : Int) = 0; omega)⟩
    rw [hOnly, Prod.mk.injEq]
    constructor
    · rintro ⟨h, rfl⟩
      exact ⟨Int.ofNat_inj.mp h.symm, rfl⟩
    · rintro ⟨rfl, rfl⟩
      exact ⟨rfl, rfl⟩

theorem acceptsGrammar_gap {gap : List UInt8} (hNe : gap ≠ []) (hSoi : kSOI ∉ gap) :
    AcceptsGrammar gap ↔ CastsPositive gap.length := by
  have hHead : gap.head? ≠ some kSOI := fun h => hSoi (List.mem_of_head? h)
  refine acceptsGrammar_rejected (fun out => congrArg Prod.fst (tryParse_gap out hNe hSoi))
    (no_frame_without_start hHead) ?_
  rintro (h | h)
  · exact hNe h
  · exact hHead h.1

end Verdict

/-- The parser accepts exactly its grammar on the buffers whose counts fit. -/
theorem acceptsGrammar_iff (buf : List UInt8) : AcceptsGrammar buf ↔ CountsFit buf := by
  unfold CountsFit
  cases shape kSOI kEOI buf with
  | nil =>
    refine iff_of_true (fun out => ⟨fun n f hn => iff_of_false ?_ ?_, fun _ => .inl rfl⟩) ⟨?_, ?_⟩
    · intro h
      have hInt : (0 : Int) = n := (Prod.mk.inj h).1
      omega
    · exact no_frame_without_start (by decide) n f
    · exact fun h => absurd h (by decide)
    · exact fun _ h => absurd h (by decide)
  | gap _ hNe hSoi =>
    have hPos := List.length_pos_iff.mpr hNe
    rw [acceptsGrammar_gap hNe hSoi]
    simp only [findIdx_notMem hSoi]
    exact ⟨fun h => ⟨fun _ => h, fun h0 => by omega⟩, fun h => h.1 hPos⟩
  | skip gap tail hNe hSoi =>
    have hPos := List.length_pos_iff.mpr hNe
    have hHead : (gap ++ kSOI :: tail).head? ≠ some kSOI := by
      rw [List.head?_append_of_ne_nil _ hNe]
      exact fun h => hSoi (List.mem_of_head? h)
    rw [acceptsGrammar_rejected (fun out => congrArg Prod.fst (tryParse_skip out tail hNe hSoi))
      (no_frame_without_start hHead) (by rintro (h | h); exacts [by simp at h, hHead h.1])]
    simp only [findIdx_append_cons tail hSoi]
    exact ⟨fun h => ⟨fun _ => h, fun h0 => by omega⟩, fun h => h.1 hPos⟩
  | begun body hEoi =>
    have hBegun : kEOI ∉ kSOI :: body := notMem_begun (by decide) hEoi
    simp only [findIdx_kSOI, findIdx_notMem hBegun]
    refine iff_of_true (fun out => ?_) ⟨fun h => absurd h (by decide), fun _ h => by omega⟩
    rw [tryParse_begun out hEoi]
    refine ⟨fun n f hn => iff_of_false ?_ ?_, ?_⟩
    · split
      all_goals
        intro h
        have hInt := (Prod.mk.inj h).1
        omega
    · rintro ⟨digits, tail, hBuf, -⟩
      exact hBegun (hBuf ▸ by simp)
    · split
      · exact fun h => absurd (show (-1 : Int) = 0 from h) (by decide)
      · rename_i hShort
        exact fun _ => .inr ⟨rfl, hBegun, Nat.le_of_not_lt hShort⟩
  | closed digits tail hEoi =>
    have hIdx : (kSOI :: (digits ++ kEOI :: tail)).findIdx (· == kEOI) = digits.length + 1 :=
      findIdx_append_cons tail (notMem_begun (by decide) hEoi)
    have hFrame (f : PylontechFrame) :
        BeginsWithFrame (kSOI :: (digits ++ kEOI :: tail)) (digits.length + 1 + 1) f ↔
          SpellsFrame digits f := by
      rw [beginsWithFrame_closed hEoi]
      exact and_iff_right rfl
    have hInside : digits.length + 1 < (kSOI :: (digits ++ kEOI :: tail)).length := by
      simp only [List.length_cons, List.length_append]
      omega
    simp only [findIdx_kSOI, hIdx, hFrame, hInside, Nat.lt_irrefl, false_implies, true_implies,
      true_and]
    by_cases hSome : ∃ f, SpellsFrame digits f
    · obtain ⟨f, hf⟩ := hSome
      rw [acceptsGrammar_taken (fun out => tryParse_frame tail out hf) _ (Nat.succ_pos _)]
      · constructor
        · exact fun h => ⟨⟨by omega, by omega⟩, fun _ => h⟩
        · exact fun h => h.2 ⟨f, hf⟩
      · intro m g
        rw [beginsWithFrame_closed hEoi]
        refine and_congr_right fun _ => ⟨fun hg => ?_, fun hg => hg ▸ hf⟩
        exact congrArg Prod.snd ((tryParse_frame tail {} hg).symm.trans (tryParse_frame tail {} hf))
    · rw [acceptsGrammar_rejected (fun out => tryParse_no_frame tail out hEoi hSome)]
      · exact ⟨fun h => ⟨h, fun hf => absurd hf hSome⟩, fun h => h.1⟩
      · intro n f h
        exact hSome ⟨f, ((beginsWithFrame_closed hEoi).mp h).2⟩
      · rintro (h | ⟨-, h, -⟩)
        · cases h
        · exact h (by simp)

/-- Of junk of `2 ^ 32` bytes the parser says that more bytes can make it a frame. -/
theorem junk_taken_for_a_beginning : ¬∀ buf : List UInt8, AcceptsGrammar buf := by
  intro hAll
  have hNe : List.replicate 4294967296 (0 : UInt8) ≠ [] :=
    List.ne_nil_of_length_pos (by rw [List.length_replicate]; decide)
  have hSoi : kSOI ∉ List.replicate 4294967296 (0 : UInt8) :=
    fun h => absurd (List.eq_of_mem_replicate h) (by decide)
  have hCount := ((acceptsGrammar_gap hNe hSoi).mp (hAll _)).1
  rw [List.length_replicate] at hCount
  exact absurd hCount (by decide)

end BmsBridge
