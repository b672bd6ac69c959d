import BmsBridge.Lib.Delimited
import BmsBridge.Pylontech.Frame

/-! The Pylontech codec round-trips: the parser takes a built frame off the head of any stream. -/

namespace BmsBridge

open Words

/-! ### Hex digits -/

def hexPair (b : UInt8) : List UInt8 := [hexChar (b >>> 4), hexChar (b &&& 0xF)]

def hexes (bs : List UInt8) : List UInt8 := bs.flatMap hexPair

@[simp] theorem hexes_nil : hexes [] = [] := rfl

@[simp] theorem hexes_cons (b : UInt8) (bs : List UInt8) :
    hexes (b :: bs) = hexChar (b >>> 4) :: hexChar (b &&& 0xF) :: hexes bs := rfl

@[simp] theorem hexes_append (as bs : List UInt8) : hexes (as ++ bs) = hexes as ++ hexes bs :=
  List.flatMap_append

@[simp] theorem length_hexes (bs : List UInt8) : (hexes bs).length = 2 * bs.length := by
  induction bs with
  | nil => rfl
  | cons b bs ih =>
    simp only [hexes_cons, List.length_cons, ih]
    omega

theorem putHex8_eq (out : List UInt8) (v : UInt8) : putHex8 out v = out ++ hexes [v] := rfl

theorem foldl_putHex8 (out bs : List UInt8) : bs.foldl putHex8 out = out ++ hexes bs := by
  induction bs generalizing out with
  | nil => simp
  | cons b bs ih => rw [List.foldl_cons, ih, putHex8_eq, List.append_assoc, ← hexes_append]; rfl

theorem putHex16Be_eq (out : List UInt8) (v : UInt16) :
    putHex16Be out v = out ++ hexes [(v >>> 8).toUInt8, (v &&& 0xFF).toUInt8] := by
  simp only [putHex16Be, putHex8_eq, List.append_assoc, ← hexes_append]
  rfl

/-! ### Spelling -/

/-- The character `c` is a hex digit, of either case, with the value `v`. -/
def HexDigit (c : UInt8) (v : Nat) : Prop :=
  (0x30 ≤ c.toNat ∧ c.toNat ≤ 0x39 ∧ c.toNat = 0x30 + v) ∨
    (0x41 ≤ c.toNat ∧ c.toNat ≤ 0x46 ∧ c.toNat + 10 = 0x41 + v) ∨
    (0x61 ≤ c.toNat ∧ c.toNat ≤ 0x66 ∧ c.toNat + 10 = 0x61 + v)

instance (c : UInt8) (v : Nat) : Decidable (HexDigit c v) := inferInstanceAs (Decidable (_ ∨ _ ∨ _))

theorem HexDigit.lt {c : UInt8} {v : Nat} (h : HexDigit c v) : v < 16 := by
  unfold HexDigit at h
  omega

theorem HexDigit.ne_kEOI {c : UInt8} {v : Nat} (h : HexDigit c v) : c ≠ kEOI := by
  rintro rfl
  have hEoi : kEOI.toNat = 0x0D := rfl
  unfold HexDigit at h
  omega

theorem HexDigit.unique {c : UInt8} {v w : Nat} (hv : HexDigit c v) (hw : HexDigit c w) : v = w := by
  unfold HexDigit at hv hw
  omega

theorem digit_of_hexVal {c v : UInt8} (h : hexVal c = some v) : HexDigit c v.toNat := by
  have hByte := c.toNat_lt
  simp only [hexVal, UInt8.le_iff_toNat_le, UInt8.reduceToNat] at h
  unfold HexDigit
  split at h
  · obtain rfl := Option.some.inj h
    simp only [UInt8.toNat_sub, UInt8.reduceToNat]
    omega
  split at h
  · obtain rfl := Option.some.inj h
    simp only [UInt8.toNat_add, UInt8.toNat_sub, UInt8.reduceToNat]
    omega
  split at h
  · obtain rfl := Option.some.inj h
    simp only [UInt8.toNat_add, UInt8.toNat_sub, UInt8.reduceToNat]
    omega
  · cases h

theorem hexVal_digit {c : UInt8} {v : Nat} (h : HexDigit c v) : hexVal c = some (UInt8.ofNat v) := by
  cases hVal : hexVal c with
  | some w => rw [h.unique (digit_of_hexVal hVal), UInt8.ofNat_toNat]
  | none =>
    simp only [hexVal, UInt8.le_iff_toNat_le, UInt8.reduceToNat] at hVal
    unfold HexDigit at h
    split at hVal
    · cases hVal
    split at hVal
    · cases hVal
    split at hVal
    · cases hVal
    · omega

/-- Hex digits spell bytes, two digits a byte with the high one first. -/
inductive Spells : List UInt8 → List UInt8 → Prop
  | nil : Spells [] []
  | cons {hi lo b : UInt8} {h l : Nat} {digits bytes : List UInt8} (hHi : HexDigit hi h)
      (hLo : HexDigit lo l) (hByte : b.toNat = 16 * h + l) (hRest : Spells digits bytes) :
      Spells (hi :: lo :: digits) (b :: bytes)

theorem Spells.length {digits bytes : List UInt8} (h : Spells digits bytes) :
    digits.length = 2 * bytes.length := by
  induction h with
  | nil => rfl
  | cons _ _ _ _ ih =>
    simp only [List.length_cons, ih]
    omega

theorem Spells.kEOI_notMem {digits bytes : List UInt8} (h : Spells digits bytes) :
    kEOI ∉ digits := by
  induction h with
  | nil => exact List.not_mem_nil
  | cons hHi hLo _ _ ih =>
    simp only [List.mem_cons, not_or]
    exact ⟨hHi.ne_kEOI.symm, hLo.ne_kEOI.symm, ih⟩

theorem Spells.unique {digits bytes bytes' : List UInt8} (h : Spells digits bytes)
    (h' : Spells digits bytes') : bytes = bytes' := by
  induction h generalizing bytes' with
  | nil =>
    cases h'
    rfl
  | cons hHi hLo hByte _ ih =>
    cases h' with
    | cons hHi' hLo' hByte' hRest' =>
      rw [hHi.unique hHi', hLo.unique hLo', ← hByte'] at hByte
      rw [UInt8.toNat_inj.mp hByte, ih hRest']

theorem Spells.take {digits bytes : List UInt8} (h : Spells digits bytes) (k : Nat) :
    Spells (digits.take (2 * k)) (bytes.take k) := by
  induction h generalizing k with
  | nil =>
    rw [List.take_nil, List.take_nil]
    exact .nil
  | cons hHi hLo hByte _ ih =>
    cases k with
    | zero => exact .nil
    | succ k => exact .cons hHi hLo hByte (ih k)

theorem spells_hexes (bs : List UInt8) : Spells (hexes bs) bs := by
  have hPair : ∀ b : UInt8, HexDigit (hexChar (b >>> 4)) (b.toNat / 16) ∧
      HexDigit (hexChar (b &&& 0xF)) (b.toNat % 16) := forall_byte (by decide +kernel)
  induction bs with
  | nil => exact .nil
  | cons b bs ih => exact .cons (hPair b).1 (hPair b).2 (by omega) ih

theorem toNat_pair {h l : Nat} (hh : h < 16) (hl : l < 16) :
    ((UInt8.ofNat h <<< 4) ||| UInt8.ofNat l).toNat = 16 * h + l := by
  have hHigh : (UInt8.ofNat h).toNat = h := by
    rw [UInt8.toNat_ofNat']
    omega
  have hLow : (UInt8.ofNat l).toNat = l := by
    rw [UInt8.toNat_ofNat']
    omega
  have hFour : (4 : UInt8).toNat % 8 = 4 := rfl
  have hShift : h <<< 4 % 2 ^ 8 = h <<< 4 := by
    rw [Nat.mod_eq_of_lt]
    rw [Nat.shiftLeft_eq]
    omega
  rw [UInt8.toNat_or, UInt8.toNat_shiftLeft, hHigh, hLow, hFour, hShift, Nat.or_comm, or_shiftLeft hl]
  omega

theorem decodeByte_succ (s s' hi lo : UInt8) (rest : List UInt8) (k : Nat) :
    decodeByte (s :: hi :: lo :: rest) (k + 1) = decodeByte (s' :: rest) k := by
  have hHi : 1 + (k + 1) * 2 = k * 2 + 1 + 1 + 1 := by omega
  have hLo : 1 + k * 2 = k * 2 + 1 := by omega
  unfold decodeByte
  simp only [hHi, hLo, List.getD_cons_succ]

/-- The parser's pairs are the bytes that the digits behind SOI spell. -/
theorem decodeByte_spells {digits bytes : List UInt8} (h : Spells digits bytes) (tail : List UInt8)
    {k : Nat} {b : UInt8} (hk : bytes[k]? = some b) :
    decodeByte (kSOI :: (digits ++ tail)) k = some b := by
  induction h generalizing k with
  | nil => cases hk
  | cons hHi hLo hByte _ ih =>
    cases k with
    | zero =>
      obtain rfl := Option.some.inj hk
      have hPair := toNat_pair hHi.lt hLo.lt
      rw [← hByte] at hPair
      simp only [decodeByte, List.cons_append, Nat.zero_mul, Nat.add_zero, List.getD_cons_succ,
        List.getD_cons_zero, hexVal_digit hHi, hexVal_digit hLo, Option.bind_eq_bind,
        Option.bind_some, pure, UInt8.toNat_inj.mp hPair]
    | succ k => exact (decodeByte_succ _ _ _ _ _ k).trans (ih hk)

/-- Digits whose pairs all decode spell bytes. -/
theorem spells_of_decodeByte {digits : List UInt8} {n : Nat} (hLen : digits.length = 2 * n)
    (tail : List UInt8) (h : ∀ k < n, (decodeByte (kSOI :: (digits ++ tail)) k).isSome) :
    ∃ bytes, Spells digits bytes := by
  induction n generalizing digits with
  | zero =>
    obtain rfl := List.eq_nil_of_length_eq_zero hLen
    exact ⟨[], .nil⟩
  | succ n ih =>
    obtain ⟨hi, lo, rest, rfl⟩ : ∃ hi lo rest, digits = hi :: lo :: rest := by
      match digits with
      | [] => cases hLen
      | [_] => exact absurd hLen (by simp only [List.length_singleton]; omega)
      | hi :: lo :: rest => exact ⟨hi, lo, rest, rfl⟩
    obtain ⟨bytes, hBytes⟩ : ∃ bytes, Spells rest bytes := by
      apply ih
      · simp only [List.length_cons] at hLen
        omega
      · intro k hk
        rw [← decodeByte_succ kSOI kSOI hi lo]
        exact h (k + 1) (by omega)
    have hFirst := h 0 (Nat.succ_pos n)
    simp only [decodeByte, List.cons_append, Nat.zero_mul, Nat.add_zero, List.getD_cons_succ,
      List.getD_cons_zero] at hFirst
    cases hHi : hexVal hi with
    | none => rw [hHi] at hFirst; cases hFirst
    | some v =>
      cases hLo : hexVal lo with
      | none => rw [hHi, hLo] at hFirst; cases hFirst
      | some w =>
        have hv := (digit_of_hexVal hHi).lt
        have hw := (digit_of_hexVal hLo).lt
        refine ⟨UInt8.ofNat (16 * v.toNat + w.toNat) :: bytes,
          .cons (digit_of_hexVal hHi) (digit_of_hexVal hLo) ?_ hBytes⟩
        rw [UInt8.toNat_ofNat']
        omega

/-! ### Built frames -/

/-- The bytes that the hex digits of a frame spell, up to CHKSUM. -/
def wireBody (f : PylontechFrame) : List UInt8 :=
  let length := lengthField (UInt16.ofNat (f.info.length * 2))
  [f.ver, f.adr, f.cid1, f.cid2, (length >>> 8).toUInt8, (length &&& 0xFF).toUInt8] ++ f.info

def wireChksum (f : PylontechFrame) : UInt16 := chksumOver (hexes (wireBody f))

@[simp] theorem length_wireBody (f : PylontechFrame) :
    (wireBody f).length = 6 + f.info.length := by
  simp [wireBody]
  omega

/-- All hex digits of a frame. -/
def wireDigits (f : PylontechFrame) : List UInt8 :=
  hexes (wireBody f ++ [(wireChksum f >>> 8).toUInt8, (wireChksum f &&& 0xFF).toUInt8])

theorem buildPylontech_eq (f : PylontechFrame) :
    buildPylontech f = kSOI :: (wireDigits f ++ [kEOI]) := by
  have hBody : f.info.foldl putHex8 (putHex16Be
      (putHex8 (putHex8 (putHex8 (putHex8 [] f.ver) f.adr) f.cid1) f.cid2)
      (lengthField (UInt16.ofNat (f.info.length * 2)))) = hexes (wireBody f) := by
    simp only [foldl_putHex8, putHex16Be_eq, putHex8_eq, List.append_assoc, ← hexes_append]
    rfl
  rw [buildPylontech, hBody, putHex16Be_eq, wireDigits, hexes_append]
  rfl

@[simp] theorem length_wireDigits (f : PylontechFrame) :
    (wireDigits f).length = 16 + 2 * f.info.length := by
  simp [wireDigits]
  omega

@[simp] theorem length_buildPylontech (f : PylontechFrame) :
    (buildPylontech f).length = 18 + 2 * f.info.length := by
  simp [buildPylontech_eq]
  omega

theorem wireDigits_spells (f : PylontechFrame) : Spells (wireDigits f)
    (wireBody f ++ [(wireChksum f >>> 8).toUInt8, (wireChksum f &&& 0xFF).toUInt8]) :=
  spells_hexes _

theorem wireDigits_front (f : PylontechFrame) :
    (wireDigits f).take (12 + 2 * f.info.length) = hexes (wireBody f) := by
  rw [wireDigits, hexes_append, List.take_left' (by rw [length_hexes, length_wireBody]; omega)]

/-! ### Parsing -/

theorem decodeInfo_spells {digits header info acc after : List UInt8} (hHeader : header.length = 6)
    (h : Spells digits (header ++ info ++ after)) (tail : List UInt8) (n i : Nat)
    (hn : i + n = info.length) :
    decodeInfo (kSOI :: (digits ++ tail)) i n acc = (true, acc ++ info.drop i) := by
  induction n generalizing i acc with
  | zero => simp [decodeInfo, List.drop_of_length_le (show info.length ≤ i by omega)]
  | succ n ih =>
    have hi : i < info.length := by omega
    have hGet : (header ++ info ++ after)[6 + i]? = some info[i] := by
      rw [List.append_assoc, List.getElem?_append_right (by omega),
        List.getElem?_append_left (by omega), hHeader, Nat.add_sub_cancel_left,
        List.getElem?_eq_getElem hi]
    rw [decodeInfo, decodeByte_spells h tail hGet]
    simp only
    rw [ih (i + 1) (by omega), List.drop_eq_getElem_cons hi, List.append_assoc]
    rfl

/-- The parser on hex digits that spell six header bytes, INFO and two checksum bytes: it takes the
frame when the checksum is that of the digits before it, and rejects the digits otherwise. -/
theorem tryParse_spells {digits : List UInt8} {ver adr cid1 cid2 lenHi lenLo csHi csLo : UInt8}
    {info : List UInt8}
    (h : Spells digits ([ver, adr, cid1, cid2, lenHi, lenLo] ++ info ++ [csHi, csLo]))
    (tail : List UInt8) (out : PylontechFrame) :
    tryParsePylontech (kSOI :: (digits ++ kEOI :: tail)) out =
      if chksumOver (digits.take (12 + 2 * info.length)) = ofBytes csHi csLo then
        (castInt (18 + 2 * info.length), { ver, adr, cid1, cid2, info })
      else (-castInt (18 + 2 * info.length), out) := by
  let header := [ver, adr, cid1, cid2, lenHi, lenLo]
  let buf := kSOI :: (digits ++ kEOI :: tail)
  have hDigits : digits.length = 16 + 2 * info.length := by
    rw [h.length]
    simp
    omega
  have hSoi : buf.findIdx (· == kSOI) = 0 := by simp [buf, List.findIdx_cons]
  have hEoi : (buf.drop 1).findIdx (· == kEOI) = 16 + 2 * info.length := by
    rw [← hDigits]
    exact Delimited.findIdx_append_cons tail h.kEOI_notMem
  have hLen : buf.length = 18 + 2 * info.length + tail.length := by
    simp [buf, hDigits]; omega
  have hPair {k : Nat} {b : UInt8} (hk : (header ++ info ++ [csHi, csLo])[k]? = some b) :
      decodeByte buf k = some b := decodeByte_spells h _ hk
  have hHeader : decodeHeader buf = some (ver, adr, cid1, cid2) := by
    rw [decodeHeader, hPair (k := 0) rfl, hPair (k := 1) rfl, hPair (k := 2) rfl,
      hPair (k := 3) rfl, hPair (k := 4) rfl, hPair (k := 5) rfl]
    rfl
  have hFront : (header ++ info).length = 6 + info.length := by simp [header]; omega
  have hWord : decodeWord buf (6 + info.length) = some (ofBytes csHi csLo) := by
    have hHi : (header ++ info ++ [csHi, csLo])[6 + info.length]? = some csHi := by
      rw [List.getElem?_append_right (by omega), hFront, Nat.sub_self]
      rfl
    have hLo : (header ++ info ++ [csHi, csLo])[6 + info.length + 1]? = some csLo := by
      rw [List.getElem?_append_right (by omega), hFront, Nat.add_sub_cancel_left]
      rfl
    rw [decodeWord, hPair hHi, hPair hLo]
    rfl
  have hSum : (buf.drop 1).take (16 + 2 * info.length - 4) =
      digits.take (12 + 2 * info.length) := by
    show (digits ++ kEOI :: tail).take _ = _
    rw [List.take_append_of_le_length (by omega)]
    congr 1
    omega
  have hInfo : decodeInfo buf 0 info.length [] = (true, info) :=
    decodeInfo_spells (show header.length = 6 from rfl) h (kEOI :: tail) info.length 0 (by omega)
  show tryParsePylontech buf out = _
  have hEnd : 1 + (16 + 2 * info.length) + 1 = 18 + 2 * info.length := by omega
  have hInfoBytes : 2 * info.length / 2 = info.length := by omega
  simp only [tryParsePylontech, hSoi, hEoi, Nat.add_sub_cancel_left, hHeader, kMinBodyLen, hEnd,
    hInfoBytes, hWord, hSum, hInfo]
  rw [if_neg (by omega), if_neg (by omega), if_neg (by omega), if_neg (by omega),
    if_neg (by omega), ite_not]

/-- The parser takes a built frame off the head of any stream. -/
theorem tryParse_buildPylontech (f : PylontechFrame) (tail : List UInt8) (out : PylontechFrame) :
    tryParsePylontech (buildPylontech f ++ tail) out =
      (castInt (buildPylontech f).length, f) := by
  rw [length_buildPylontech, buildPylontech_eq, List.cons_append, List.append_assoc,
    List.singleton_append, tryParse_spells (wireDigits_spells f), wireDigits_front, ofBytes_split]
  exact if_pos rfl

/-- The codec round-trips in a stream: a built frame whose length fits an `int`, with any bytes
behind it, parses to its own length and to the frame. -/
theorem frame_round_trip (f : PylontechFrame) (tail : List UInt8) (out : PylontechFrame)
    (hFits : (buildPylontech f).length < 2147483648) :
    tryParsePylontech (buildPylontech f ++ tail) out = (((buildPylontech f).length : Int), f) := by
  rw [tryParse_buildPylontech, castInt_of_lt hFits]

/-- The captured analog request, with the first bytes of the next frame behind it. -/
theorem frame_round_trip_request :
    tryParsePylontech (buildPylontech { adr := 2, cid2 := 0x42, info := [2] } ++ [0x7E, 0x32]) =
      (20, { adr := 2, cid2 := 0x42, info := [2] }) :=
  frame_round_trip { adr := 2, cid2 := 0x42, info := [2] } [0x7E, 0x32] {} (by decide)

end BmsBridge
