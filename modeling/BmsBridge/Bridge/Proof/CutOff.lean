import BmsBridge.Bridge.Proof.Chunks
import BmsBridge.Bridge.Proof.Run

/-! A request that breaks off on the line, and the complete request behind it.  The parser anchors on
the first SOI and rejects everything up to the next EOI, which is the end of the second request; only
where the beginning of the first one has been given up before does the second one get through. -/

namespace BmsBridge

open Delimited Words

/-! ### A SOI inside a frame -/

theorem decodeByte_kSOI {buf : List UInt8} {k : Nat}
    (h : buf.getD (1 + k * 2) 0 = kSOI ∨ buf.getD (1 + k * 2 + 1) 0 = kSOI) :
    decodeByte buf k = none := by
  have hVal : hexVal kSOI = none := by decide
  rw [decodeByte]
  rcases h with h | h
  · rw [h, hVal]
    rfl
  · rw [h, hVal]
    cases hexVal (buf.getD (1 + k * 2) 0) <;> rfl

theorem decodeHeader_some {buf : List UInt8} {r : UInt8 × UInt8 × UInt8 × UInt8}
    (h : decodeHeader buf = some r) {k : Nat} (hk : k < 6) : decodeByte buf k ≠ none := by
  intro hNone
  simp only [decodeHeader, Option.bind_eq_bind, Option.bind_eq_some_iff] at h
  obtain ⟨v0, h0, v1, h1, v2, h2, v3, h3, v4, h4, v5, h5, -⟩ := h
  rcases (show k = 0 ∨ k = 1 ∨ k = 2 ∨ k = 3 ∨ k = 4 ∨ k = 5 by omega) with
    rfl | rfl | rfl | rfl | rfl | rfl
  · cases hNone.symm.trans h0
  · cases hNone.symm.trans h1
  · cases hNone.symm.trans h2
  · cases hNone.symm.trans h3
  · cases hNone.symm.trans h4
  · cases hNone.symm.trans h5

theorem decodeWord_some {buf : List UInt8} {k : Nat} {w : UInt16} (h : decodeWord buf k = some w) :
    decodeByte buf k ≠ none ∧ decodeByte buf (k + 1) ≠ none := by
  simp only [decodeWord, Option.bind_eq_bind, Option.bind_eq_some_iff] at h
  obtain ⟨hi, hHi, lo, hLo, -⟩ := h
  rw [hHi, hLo]
  exact ⟨Option.some_ne_none hi, Option.some_ne_none lo⟩

theorem decodeInfo_true {buf : List UInt8} {n i : Nat} {info info' : List UInt8}
    (h : decodeInfo buf i n info = (true, info')) {k : Nat} (hLow : 6 + i ≤ k)
    (hHigh : k < 6 + i + n) : decodeByte buf k ≠ none := by
  induction n generalizing i info with
  | zero => omega
  | succ n ih =>
    rw [decodeInfo] at h
    split at h
    · cases h
    · rename_i b hByte
      by_cases hk : k = 6 + i
      · rw [hk, hByte]
        exact Option.some_ne_none b
      · exact ih h (by omega) (by omega)

/-- A frame with SOI in its body is rejected, with its EOI. -/
theorem tryParse_reject (out : PylontechFrame) {body : List UInt8} (tail : List UInt8)
    (hEoi : kEOI ∉ body) (hSoi : kSOI ∈ body) :
    (tryParsePylontech (kSOI :: (body ++ kEOI :: tail)) out).1 = -castInt (body.length + 2) := by
  obtain ⟨i, hi, hGet⟩ := List.mem_iff_getElem.mp hSoi
  have hBad : decodeByte (kSOI :: (body ++ kEOI :: tail)) (i / 2) = none := by
    have hAt : (kSOI :: (body ++ kEOI :: tail)).getD (1 + i) 0 = kSOI := by
      rw [Nat.add_comm 1 i, List.getD_cons_succ, List.getD_eq_getElem?_getD,
        List.getElem?_append_left hi, List.getElem?_eq_getElem hi, hGet]
      rfl
    apply decodeByte_kSOI
    rcases Nat.mod_two_eq_zero_or_one i with hEven | hOdd
    · left
      rwa [show 1 + i / 2 * 2 = 1 + i by omega]
    · right
      rwa [show 1 + i / 2 * 2 + 1 = 1 + i by omega]
  have hEnd : 1 + body.length + 1 = body.length + 2 := by omega
  rw [tryParsePylontech]
  simp only [findIdx_kSOI, List.drop_succ_cons, List.drop_zero, findIdx_append_cons tail hEoi,
    List.length_cons, List.length_append, Nat.add_sub_cancel_left, hEnd]
  rw [if_neg (by omega), if_neg (by omega), if_neg (by omega), if_neg (by omega)]
  split
  · rfl
  · rename_i hLen
    simp only [kMinBodyLen] at hLen
    split
    · rfl
    · rename_i hHeader
      split
      · rfl
      · rename_i hWord
        split
        · rfl
        · split
          · rfl
          · rename_i hInfo
            -- Every pair of the body has been decoded, also the one with SOI.
            exfalso
            simp only [kMinBodyLen] at hWord hInfo
            by_cases hFront : i / 2 < 6
            · exact decodeHeader_some hHeader hFront hBad
            by_cases hMiddle : i / 2 < 6 + (body.length - 16) / 2
            · exact decodeInfo_true hInfo (by omega) (by omega) hBad
            obtain ⟨hHi, hLo⟩ := decodeWord_some hWord
            rcases (show i / 2 = 6 + (body.length - 16) / 2 ∨
                i / 2 = 6 + (body.length - 16) / 2 + 1 by omega) with hk | hk
            · exact hHi (hk ▸ hBad)
            · exact hLo (hk ▸ hBad)

/-! ### Frames on the wire -/

/-- The bytes of one frame, as the parser takes them. -/
structure ValidWire (wire : List UInt8) (f : PylontechFrame) : Prop where
  parses : tryParsePylontech wire = ((wire.length : Int), f)
  nonempty : wire ≠ []
  fits : wire.length < kIntLimit

theorem ValidWire.shape {wire : List UInt8} {f : PylontechFrame} (h : ValidWire wire f) :
    ∃ body, wire = kSOI :: (body ++ [kEOI]) ∧ kEOI ∉ body ∧ kSOI ∉ body := by
  obtain ⟨hParses, hNonempty, hFits⟩ := h
  have hCount := congrArg Prod.fst hParses
  have hPos := List.length_pos_iff.mpr hNonempty
  cases Delimited.shape kSOI kEOI wire with
  | nil => exact absurd rfl hNonempty
  | gap _ hNe hSoi =>
    rw [tryParse_gap _ hNe hSoi, castInt_fits hFits] at hCount
    simp only at hCount
    omega
  | skip gap tail hNe hSoi =>
    rw [List.length_append] at hFits
    rw [tryParse_skip _ tail hNe hSoi, castInt_fits (by omega)] at hCount
    simp only at hCount
    omega
  | begun body hEoi =>
    rw [tryParse_begun _ hEoi] at hCount
    split at hCount
    · simp only at hCount
      omega
    · simp only at hCount
      omega
  | closed body tail hEoi =>
    simp only [List.length_cons, List.length_append] at hFits hCount
    have hCast := castInt_fits (show body.length + 2 < kIntLimit by omega)
    obtain rfl : tail = [] := by
      apply List.length_eq_zero_iff.mp
      rcases tryParse_closed {} tail hEoi with h | h
      · omega
      · omega
    refine ⟨body, rfl, hEoi, fun hSoi => ?_⟩
    rw [tryParse_reject _ [] hEoi hSoi] at hCount
    omega

section Behind

variable {slots : List Slot} {b : Batteries} {now : Int} {wire : List UInt8} {f : PylontechFrame}

/-- What an inverter sends for a frame: its response, where there is one. -/
def sentFor (slots : List Slot) (b : Batteries) (now : Int) (f : PylontechFrame) :
    Except Fault (List (List UInt8)) :=
  Option.toList <$> respond slots b now f

theorem onBytes_wire (hWire : ValidWire wire f) : (onBytes slots b now [] wire).1 =
    sentFor slots b now f := by
  have hPos := List.length_pos_iff.mpr hWire.nonempty
  have hParse := hWire.parses
  rw [onBytes, appendRx_nil, processBuffer,
    Drain.drain_frame hWire.nonempty (by simp only [hParse]; omega)]
  simp only [hParse, Int.toNat_natCast, List.drop_length, Drain.drain_nil, sentFor]
  cases respond slots b now f <;> rfl

variable {slot : Slot} {cells : JkCellInfo} {pack : JkPackInfo} {lim : JkSettings}

/-- A slot that is ready is not silent on a supported request. -/
theorem sentFor_ne_nil (hBase : ¬f.adr < kBaseAddress)
    (hSlot : slots[(f.adr - kBaseAddress).toNat]? = some slot)
    (hReady : Ready (b.states slot.source) now cells pack lim)
    (hCid : f.cid2 ∈ [0x42, 0x44, 0x47, 0x92]) : sentFor slots b now f ≠ .ok [] := by
  intro hSilent
  rw [sentFor, respond_ready hBase hSlot hReady] at hSilent
  obtain ⟨resp, hAnswer, hEmpty⟩ := Faults.bind_ok hSilent
  obtain ⟨⟨pack', lim'⟩, -, hBuild⟩ := Faults.bind_ok hAnswer
  rcases buildResponse_ok hBuild with ⟨hNot, -⟩ | ⟨-, bytes, rfl, -⟩
  · exact hNot hCid
  · cases hEmpty

end Behind

theorem validWire_built (f : PylontechFrame) (hInfo : f.info.length ≤ 1024) :
    ValidWire (buildPylontech f) f where
  parses := tryParse_built f hInfo
  nonempty := by
    apply List.ne_nil_of_length_pos
    rw [length_buildPylontech]
    omega
  fits := by
    rw [length_buildPylontech, kIntLimit]
    omega

end BmsBridge
