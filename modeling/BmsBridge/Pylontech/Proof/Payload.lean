import BmsBridge.Pylontech.Payload

/-! The payload readers undo the payload writers.  `Reads` says what a reader takes off the head of
any bytes, and composes along the reader's own sequence of reads. -/

namespace BmsBridge

open Words

def wordBytes (w : UInt16) : List UInt8 := [(w >>> 8).toUInt8, (w &&& 0xFF).toUInt8]

theorem length_words (ws : List UInt16) : (ws.flatMap wordBytes).length = 2 * ws.length := by
  induction ws with
  | nil => rfl
  | cons w ws ih =>
    rw [List.flatMap_cons, List.length_append, ih, List.length_cons]
    show 2 + _ = _
    omega

/-! ### Writing -/

namespace BeWriter

theorem u16_eq (out : List UInt8) (v : UInt16) : u16 out v = out ++ wordBytes v := rfl

theorem foldl_u8 (out vs : List UInt8) : vs.foldl u8 out = out ++ vs := by
  induction vs generalizing out with
  | nil => rw [List.foldl_nil, List.append_nil]
  | cons v vs ih => rw [List.foldl_cons, ih, u8, List.append_assoc]; rfl

theorem i16_eq (out : List UInt8) (v : Int16) : i16 out v = out ++ wordBytes v.toUInt16 := rfl

theorem foldl_u16 (out : List UInt8) (vs : List UInt16) :
    vs.foldl u16 out = out ++ vs.flatMap wordBytes := by
  induction vs generalizing out with
  | nil => simp
  | cons v vs ih => rw [List.foldl_cons, ih, u16_eq, List.append_assoc]; rfl

end BeWriter

/-! ### Reading -/

namespace BeReader

variable {α β : Type}

/-- `m` takes `bytes` off the head of what is unread and returns `a`. -/
def Reads (m : StateM BeReader α) (bytes : List UInt8) (a : α) : Prop :=
  ∀ rest ok, m { rest := bytes ++ rest, ok } = (a, { rest, ok })

theorem Reads.pure (a : α) : Reads (pure a) [] a := fun _ _ => rfl

theorem Reads.bind {m : StateM BeReader α} {f : α → StateM BeReader β} {bs bs' : List UInt8}
    {a : α} {b : β} (hm : Reads m bs a) (hf : Reads (f a) bs' b) :
    Reads (m >>= f) (bs ++ bs') b := by
  intro rest ok
  rw [List.append_assoc]
  show f (m _).1 (m _).2 = _
  rw [hm]
  exact hf rest ok

theorem Reads.bind_pure {m : StateM BeReader α} {bs : List UInt8} {a : α} (hm : Reads m bs a)
    (f : α → β) : Reads (m >>= fun x => Pure.pure (f x)) bs (f a) := by
  have h : Reads (m >>= fun x => Pure.pure (f x)) (bs ++ []) (f a) := Reads.bind hm (Reads.pure _)
  rwa [List.append_nil] at h

theorem reads_u8 (v : UInt8) : Reads u8 [v] v := fun _ _ => rfl

theorem reads_u16 (v : UInt16) : Reads u16 (wordBytes v) v := by
  intro rest ok
  show (ofBytes _ _, _) = _
  rw [ofBytes_split]
  rfl

theorem reads_i16 (v : Int16) : Reads i16 (wordBytes v.toUInt16) v := by
  have h := (reads_u16 v.toUInt16).bind_pure UInt16.toInt16
  rwa [Int16.toInt16_toUInt16] at h

theorem reads_u16s {n : Nat} (vs : List UInt16) (hn : n = vs.length) :
    Reads (u16s n) (vs.flatMap wordBytes) vs := by
  induction vs generalizing n with
  | nil =>
    subst hn
    exact Reads.pure []
  | cons v vs ih =>
    subst hn
    refine Reads.bind (reads_u16 v) ?_
    exact Reads.bind_pure (ih rfl) (v :: ·)

/-- A run of `m` that finds all of its bytes takes some off the head of what is unread, and `P` says
of them what the result is; no earlier read has failed. -/
def Takes (m : StateM BeReader α) (P : List UInt8 → α → Prop) : Prop :=
  ∀ r, (m r).2.ok = true → r.ok = true ∧ ∃ bytes, r.rest = bytes ++ (m r).2.rest ∧ P bytes (m r).1

theorem Takes.pure {P : List UInt8 → α → Prop} {a : α} (h : P [] a) : Takes (pure a) P :=
  fun _ hOk => ⟨hOk, [], rfl, h⟩

/-- Of the bytes that the first reader takes, only what `P` says of them is left for the second. -/
theorem Takes.bind {m : StateM BeReader α} {f : α → StateM BeReader β} {P : List UInt8 → α → Prop}
    {Q : List UInt8 → β → Prop} (hm : Takes m P)
    (hf : ∀ a first, Takes (f a) fun last b => P first a → Q (first ++ last) b) :
    Takes (m >>= f) Q := by
  intro r hOk
  obtain ⟨hMid, -⟩ := hf (m r).1 [] (m r).2 hOk
  obtain ⟨hStart, first, hFirst, hP⟩ := hm r hMid
  obtain ⟨-, last, hLast, hQ⟩ := hf (m r).1 first (m r).2 hOk
  refine ⟨hStart, first ++ last, ?_, hQ hP⟩
  rw [hFirst, hLast, List.append_assoc]
  rfl

theorem takes_u8 : Takes u8 fun bytes b => bytes = [b] := by
  intro ⟨rest, ok⟩ hOk
  cases rest with
  | nil => cases hOk
  | cons b rest => exact ⟨hOk, [b], rfl, rfl⟩

theorem takes_u16 : Takes u16 fun bytes w => bytes = wordBytes w := by
  intro ⟨rest, ok⟩ hOk
  match rest with
  | [] => cases hOk
  | [b] => cases hOk
  | hi :: lo :: rest =>
    obtain ⟨hHi, hLo⟩ := split_ofBytes hi lo
    refine ⟨hOk, [hi, lo], rfl, ?_⟩
    show [hi, lo] = wordBytes (ofBytes hi lo)
    rw [wordBytes, hHi, hLo]

theorem takes_i16 : Takes i16 fun bytes v => bytes = wordBytes v.toUInt16 := by
  refine takes_u16.bind fun w _ => Takes.pure ?_
  rintro rfl
  rw [UInt16.toUInt16_toInt16, List.append_nil]

theorem takes_u16s (n : Nat) :
    Takes (u16s n) fun bytes ws => bytes = ws.flatMap wordBytes ∧ ws.length = n := by
  induction n with
  | zero => exact Takes.pure ⟨rfl, rfl⟩
  | succ n ih =>
    refine takes_u16.bind fun w _ => ih.bind fun ws _ => Takes.pure ?_
    rintro ⟨rfl, hLen⟩ rfl
    exact ⟨by rw [List.append_nil]; rfl, congrArg (· + 1) hLen⟩

end BeReader

open BeReader

/-! ### Records -/

theorem toNat_countByte {n : Nat} (hn : n ≤ 255) : (UInt8.ofNat n).toNat = n := by
  rw [UInt8.toNat_ofNat']
  omega

theorem BeReader.length_u16s (n : Nat) (r : BeReader) : (u16s n r).1.length = n := by
  induction n generalizing r with
  | zero => rfl
  | succ n ih => exact congrArg (· + 1) (ih (u16 r).2)

theorem AnalogResponse.length_cells_le {info : List UInt8} {ok : Bool} {a : AnalogResponse}
    (h : deserialize info = (ok, a)) : a.cellVoltagesMv.length ≤ 255 := by
  obtain rfl : (read { rest := info }).1 = a := congrArg Prod.snd h
  let r := (u8 (u8 { rest := info }).2).2
  have hCells : (read { rest := info }).1.cellVoltagesMv = (u16s (u8 r).1.toNat (u8 r).2).1 := rfl
  have hByte := (u8 r).1.toNat_lt
  rw [hCells, length_u16s]
  omega

theorem AnalogResponse.serialize_eq (r : AnalogResponse) (info : List UInt8) :
    r.serialize info = info ++ ([r.infoflag] ++ ([r.command] ++
      ([UInt8.ofNat r.cellVoltagesMv.length] ++ (r.cellVoltagesMv.flatMap wordBytes ++
      ([UInt8.ofNat r.temperaturesK10.length] ++ (r.temperaturesK10.flatMap wordBytes ++
      (wordBytes r.current01a.toUInt16 ++ (wordBytes r.moduleVoltageMv ++
      (wordBytes r.remainCapacityMah ++ ([r.userDefinedCount] ++
      (wordBytes r.totalCapacityMah ++ wordBytes r.cycleCount))))))))))) := by
  simp only [serialize, BeWriter.u8, BeWriter.u16_eq, BeWriter.i16_eq, BeWriter.foldl_u16,
    List.append_assoc]

theorem AnalogResponse.length_serialize (r : AnalogResponse) : r.serialize.length =
    15 + 2 * r.cellVoltagesMv.length + 2 * r.temperaturesK10.length := by
  simp only [AnalogResponse.serialize_eq, List.length_append, length_words, wordBytes,
    List.length_cons, List.length_nil]
  omega

/-- The master-side decoder undoes the slave-side encoder, whatever follows the payload. -/
theorem AnalogResponse.deserialize_serialize (r : AnalogResponse) (tail : List UInt8)
    (hCells : r.cellVoltagesMv.length ≤ 255) (hTemps : r.temperaturesK10.length ≤ 255) :
    deserialize (r.serialize ++ tail) = (true, r) := by
  have h : Reads read r.serialize r := by
    rw [serialize_eq, List.nil_append]
    refine Reads.bind (reads_u8 r.infoflag) ?_
    refine Reads.bind (reads_u8 r.command) ?_
    refine Reads.bind (reads_u8 (UInt8.ofNat r.cellVoltagesMv.length)) ?_
    refine Reads.bind (reads_u16s r.cellVoltagesMv (toNat_countByte hCells)) ?_
    refine Reads.bind (reads_u8 (UInt8.ofNat r.temperaturesK10.length)) ?_
    refine Reads.bind (reads_u16s r.temperaturesK10 (toNat_countByte hTemps)) ?_
    refine Reads.bind (reads_i16 r.current01a) ?_
    refine Reads.bind (reads_u16 r.moduleVoltageMv) ?_
    refine Reads.bind (reads_u16 r.remainCapacityMah) ?_
    refine Reads.bind (reads_u8 r.userDefinedCount) ?_
    refine Reads.bind (reads_u16 r.totalCapacityMah) ?_
    exact (reads_u16 r.cycleCount).bind_pure _
  rw [deserialize, StateT.run, h]

theorem AnalogResponse.takes_read : Takes read fun bytes r => bytes = r.serialize ∧
    r.cellVoltagesMv.length ≤ 255 ∧ r.temperaturesK10.length ≤ 255 := by
  unfold read
  refine takes_u8.bind fun infoflag _ => takes_u8.bind fun command _ => takes_u8.bind fun nCells _ =>
    (takes_u16s nCells.toNat).bind fun cells _ => takes_u8.bind fun nTemps _ =>
    (takes_u16s nTemps.toNat).bind fun temps _ => takes_i16.bind fun current _ =>
    takes_u16.bind fun voltage _ => takes_u16.bind fun remain _ => takes_u8.bind fun userDefined _ =>
    takes_u16.bind fun total _ => takes_u16.bind fun cycles _ => Takes.pure ?_
  rintro rfl rfl rfl rfl rfl rfl ⟨rfl, hTemps⟩ rfl ⟨rfl, hCells⟩ rfl rfl rfl
  have hCellsByte := nCells.toNat_lt
  have hTempsByte := nTemps.toNat_lt
  refine ⟨?_, by show cells.length ≤ 255; omega, by show temps.length ≤ 255; omega⟩
  rw [serialize_eq, hCells, hTemps, UInt8.ofNat_toNat, UInt8.ofNat_toNat, List.append_nil]
  rfl

/-- The decoder accepts exactly what the encoder writes, with any bytes behind it. -/
theorem AnalogResponse.deserialize_iff (info : List UInt8) (r : AnalogResponse) :
    deserialize info = (true, r) ↔
      r.cellVoltagesMv.length ≤ 255 ∧ r.temperaturesK10.length ≤ 255 ∧
        ∃ tail, info = r.serialize ++ tail := by
  constructor
  · intro h
    have hOk : (read { rest := info }).2.ok = true := congrArg Prod.fst h
    have hRecord : (read { rest := info }).1 = r := congrArg Prod.snd h
    have hTakes := takes_read { rest := info } hOk
    rw [hRecord] at hTakes
    obtain ⟨-, bytes, hBytes, rfl, hCells, hTemps⟩ := hTakes
    exact ⟨hCells, hTemps, _, hBytes⟩
  · rintro ⟨hCells, hTemps, tail, rfl⟩
    exact deserialize_serialize r tail hCells hTemps

theorem AlarmResponse.serialize_eq (r : AlarmResponse) : r.serialize =
    [r.dataflag, r.command] ++ [UInt8.ofNat r.cellVoltageStates.length] ++ r.cellVoltageStates ++
      [UInt8.ofNat r.temperatureStates.length] ++ r.temperatureStates ++
      [r.chargeCurrentState, r.moduleVoltageState, r.dischargeCurrentState, r.statusByte1,
        r.statusByte2, r.statusByte3, r.cellErrorStates1To8, r.cellErrorStates9To16] := by
  unfold serialize
  simp only [BeWriter.foldl_u8]
  simp only [BeWriter.u8, List.append_assoc]
  rfl

theorem SystemParameterResponse.serialize_eq (r : SystemParameterResponse) (info : List UInt8) :
    r.serialize info = info ++ ([r.infoflag] ++ (wordBytes r.cellHighVoltageLimitMv ++
      (wordBytes r.cellLowVoltageLimitMv ++ (wordBytes r.cellUnderVoltageLimitMv ++
      (wordBytes r.chargeHighTempK10 ++ (wordBytes r.chargeLowTempK10 ++
      (wordBytes r.chargeCurrentLimit01a.toUInt16 ++ (wordBytes r.moduleHighVoltageLimitMv ++
      (wordBytes r.moduleLowVoltageLimitMv ++ (wordBytes r.moduleUnderVoltageLimitMv ++
      (wordBytes r.dischargeHighTempK10 ++ (wordBytes r.dischargeLowTempK10 ++
      wordBytes r.dischargeCurrentLimit01a.toUInt16)))))))))))) := by
  simp only [serialize, BeWriter.u8, BeWriter.u16_eq, BeWriter.i16_eq, List.append_assoc]

theorem SystemParameterResponse.deserialize_serialize (r : SystemParameterResponse)
    (tail : List UInt8) : deserialize (r.serialize ++ tail) = (true, r) := by
  have h : Reads read r.serialize r := by
    rw [serialize_eq, List.nil_append]
    refine Reads.bind (reads_u8 r.infoflag) ?_
    refine Reads.bind (reads_u16 r.cellHighVoltageLimitMv) ?_
    refine Reads.bind (reads_u16 r.cellLowVoltageLimitMv) ?_
    refine Reads.bind (reads_u16 r.cellUnderVoltageLimitMv) ?_
    refine Reads.bind (reads_u16 r.chargeHighTempK10) ?_
    refine Reads.bind (reads_u16 r.chargeLowTempK10) ?_
    refine Reads.bind (reads_i16 r.chargeCurrentLimit01a) ?_
    refine Reads.bind (reads_u16 r.moduleHighVoltageLimitMv) ?_
    refine Reads.bind (reads_u16 r.moduleLowVoltageLimitMv) ?_
    refine Reads.bind (reads_u16 r.moduleUnderVoltageLimitMv) ?_
    refine Reads.bind (reads_u16 r.dischargeHighTempK10) ?_
    refine Reads.bind (reads_u16 r.dischargeLowTempK10) ?_
    exact (reads_i16 r.dischargeCurrentLimit01a).bind_pure _
  rw [deserialize, StateT.run, h]

namespace ChargeManagementResponse

def withStatus (r : ChargeManagementResponse) (status : UInt8) : ChargeManagementResponse :=
  { r with
    chargeEnabled := status &&& 0x80 != 0
    dischargeEnabled := status &&& 0x40 != 0
    requestChargeImmediately := status &&& 0x20 != 0
    requestChargeImmediatelyLow := status &&& 0x10 != 0
    requestFullCharge := status &&& 0x08 != 0 }

/-- What a master reads out of a charge-management payload. -/
def read : StateM BeReader ChargeManagementResponse := do
  let command ← u8
  let chargeVoltageLimitMv ← u16
  let dischargeVoltageLimitMv ← u16
  let chargeCurrentLimit01a ← i16
  let dischargeCurrentLimit01a ← i16
  let status ← u8
  let r : ChargeManagementResponse := {
    command, chargeVoltageLimitMv, dischargeVoltageLimitMv, chargeCurrentLimit01a
    dischargeCurrentLimit01a }
  return r.withStatus status

def decode (info : List UInt8) : Bool × ChargeManagementResponse :=
  let (r, rd) := read.run { rest := info }
  (rd.ok, r)

theorem status_bits : ∀ b7 b6 b5 b4 b3 : Bool,
    let s := status {
      chargeEnabled := b7, dischargeEnabled := b6, requestChargeImmediately := b5
      requestChargeImmediatelyLow := b4, requestFullCharge := b3 }
    (s &&& 0x80 != 0) = b7 ∧ (s &&& 0x40 != 0) = b6 ∧ (s &&& 0x20 != 0) = b5 ∧
      (s &&& 0x10 != 0) = b4 ∧ (s &&& 0x08 != 0) = b3 := by
  decide

theorem withStatus_status (r : ChargeManagementResponse) : r.withStatus r.status = r := by
  have h := status_bits r.chargeEnabled r.dischargeEnabled r.requestChargeImmediately
    r.requestChargeImmediatelyLow r.requestFullCharge
  obtain ⟨h7, h6, h5, h4, h3⟩ : (r.status &&& 0x80 != 0) = r.chargeEnabled ∧
    (r.status &&& 0x40 != 0) = r.dischargeEnabled ∧
    (r.status &&& 0x20 != 0) = r.requestChargeImmediately ∧
    (r.status &&& 0x10 != 0) = r.requestChargeImmediatelyLow ∧
    (r.status &&& 0x08 != 0) = r.requestFullCharge := h
  rw [withStatus, h7, h6, h5, h4, h3]

theorem serialize_eq (r : ChargeManagementResponse) (info : List UInt8) :
    r.serialize info = info ++ ([r.command] ++ (wordBytes r.chargeVoltageLimitMv ++
      (wordBytes r.dischargeVoltageLimitMv ++ (wordBytes r.chargeCurrentLimit01a.toUInt16 ++
      (wordBytes r.dischargeCurrentLimit01a.toUInt16 ++ [r.status]))))) := by
  simp only [serialize, BeWriter.u8, BeWriter.u16_eq, BeWriter.i16_eq, List.append_assoc]

theorem decode_serialize (r : ChargeManagementResponse) (tail : List UInt8) :
    decode (r.serialize ++ tail) = (true, r) := by
  have h : Reads read r.serialize (r.withStatus r.status) := by
    rw [serialize_eq, List.nil_append]
    refine Reads.bind (reads_u8 r.command) ?_
    refine Reads.bind (reads_u16 r.chargeVoltageLimitMv) ?_
    refine Reads.bind (reads_u16 r.dischargeVoltageLimitMv) ?_
    refine Reads.bind (reads_i16 r.chargeCurrentLimit01a) ?_
    refine Reads.bind (reads_i16 r.dischargeCurrentLimit01a) ?_
    exact (reads_u8 r.status).bind_pure _
  rw [decode, StateT.run, h, withStatus_status]

end ChargeManagementResponse

end BmsBridge
