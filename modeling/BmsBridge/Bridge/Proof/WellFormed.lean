import BmsBridge.Bridge.Proof.CutOff
import BmsBridge.Bridge.Proof.Polls
import BmsBridge.Pylontech.Proof.Master
import BmsBridge.Pylontech.Proof.Parser

/-! Every response on the wire is well formed: LENGTH has 12 bits and a count has 8, which is enough
for the cell lists that the drivers report. -/

namespace BmsBridge

open Words

/-! ### LENGTH -/

def nibbleSum (w : UInt16) : Nat :=
  w.toNat / 4096 + w.toNat / 256 % 16 + w.toNat / 16 % 16 + w.toNat % 16

theorem toNat_nibble (w : UInt16) {k : UInt16} (hk : k.toNat < 16) :
    (((w >>> k) &&& 0xF).toUInt8).toNat = w.toNat / 2 ^ k.toNat % 16 := by
  have hMask : (0xF : UInt16).toNat = 2 ^ 4 - 1 := rfl
  rw [UInt16.toNat_toUInt8, UInt16.toNat_and, hMask, Nat.and_two_pow_sub_one_eq_mod,
    UInt16.toNat_shiftRight, Nat.mod_eq_of_lt hk, Nat.shiftRight_eq_div_pow]
  omega

/-- The checksum in the top nibble cancels the nibbles of LENID. -/
theorem toNat_lengthField {w : UInt16} (hw : w.toNat < 4096) :
    ∃ c < 16, (lengthField w).toNat = 4096 * c + w.toNat ∧
      (c + w.toNat / 256 + w.toNat / 16 % 16 + w.toNat % 16) % 16 = 0 := by
  have hCheck : ∀ s : UInt8, ((~~~s + 1) &&& 0xF).toNat < 16 ∧
      (((~~~s + 1) &&& 0xF).toNat + s.toNat) % 16 = 0 := forall_byte (by decide +kernel)
  let s := ((w >>> 8) &&& 0xF).toUInt8 + ((w >>> 4) &&& 0xF).toUInt8 + ((w >>> 0) &&& 0xF).toUInt8
  obtain ⟨hLt, hSum⟩ := hCheck s
  refine ⟨((~~~s + 1) &&& 0xF).toNat, hLt, ?_, ?_⟩
  · have hMask : (0x0FFF : UInt16).toNat = 2 ^ 12 - 1 := rfl
    have hTwelve : (12 : UInt16).toNat % 16 = 12 := rfl
    have hLow : w.toNat % 2 ^ 12 = w.toNat := Nat.mod_eq_of_lt hw
    have hHigh : ((~~~s + 1) &&& 0xF).toNat <<< 12 % 2 ^ 16 = ((~~~s + 1) &&& 0xF).toNat <<< 12 := by
      rw [Nat.mod_eq_of_lt]
      rw [Nat.shiftLeft_eq]
      omega
    show ((((~~~s + 1) &&& 0xF).toUInt16 <<< 12) ||| (w &&& 0x0FFF)).toNat = _
    rw [UInt16.toNat_or, UInt16.toNat_and, hMask, Nat.and_two_pow_sub_one_eq_mod, hLow,
      UInt16.toNat_shiftLeft, hTwelve, UInt8.toNat_toUInt16, hHigh, Nat.or_comm, or_shiftLeft hw]
    omega
  · have h8 := toNat_nibble w (k := 8) (by decide)
    have h4 := toNat_nibble w (k := 4) (by decide)
    have h0 := toNat_nibble w (k := 0) (by decide)
    have hS : s.toNat = w.toNat / 256 % 16 + w.toNat / 16 % 16 + w.toNat % 16 := by
      rw [UInt8.toNat_add, UInt8.toNat_add, h8, h4, h0]
      simp only [UInt16.reduceToNat, Nat.reducePow]
      omega
    omega
/-- The LENGTH field keeps a count of up to 12 bits, and its nibbles cancel. -/
theorem lengthField_spec {n : Nat} (hn : n < 4096) :
    (lengthField (UInt16.ofNat n)).toNat % 4096 = n ∧
      nibbleSum (lengthField (UInt16.ofNat n)) % 16 = 0 := by
  have hWord : (UInt16.ofNat n).toNat = n := by
    rw [UInt16.toNat_ofNat']
    omega
  obtain ⟨c, hLt, hField, hCancel⟩ := toNat_lengthField (show (UInt16.ofNat n).toNat < 4096 by omega)
  rw [hWord] at hField hCancel
  have hTop : (4096 * c + n) / 4096 = c := by omega
  have hThird : (4096 * c + n) / 256 % 16 = n / 256 := by
    have hDiv : (4096 * c + n) / 256 = 16 * c + n / 256 := by omega
    have hSmall : n / 256 < 16 := by omega
    omega
  have hSecond : (4096 * c + n) / 16 % 16 = n / 16 % 16 := by
    have hDiv : (4096 * c + n) / 16 = 256 * c + n / 16 := by omega
    omega
  have hFirst : (4096 * c + n) % 16 = n % 16 := by omega
  rw [nibbleSum, hField, hTop, hThird, hSecond, hFirst]
  exact ⟨by omega, hCancel⟩

theorem decodeWord_length (f : PylontechFrame) :
    decodeWord (buildPylontech f) 4 = some (lengthField (UInt16.ofNat (f.info.length * 2))) := by
  have hSpells := wireDigits_spells f
  rw [buildPylontech_eq, decodeWord, decodeByte_spells hSpells [kEOI] (k := 4) rfl,
    decodeByte_spells hSpells [kEOI] (k := 5) rfl]
  exact congrArg some (ofBytes_split _)

/-! ### Frames -/

/-- The bytes are one frame, in answer to a request: the parser takes them whole, and LENGTH is the
count of the INFO characters, two a byte. -/
structure AnswerFrame (req f : PylontechFrame) (resp : List UInt8) : Prop where
  whole : ∀ out, tryParsePylontech resp out = ((resp.length : Int), f)
  ver : f.ver = req.ver
  adr : f.adr = req.adr
  cid1 : f.cid1 = 0x46
  cid2 : f.cid2 = 0x00
  length : ∃ w, decodeWord resp 4 = some w ∧ w.toNat % 4096 = 2 * f.info.length ∧
    nibbleSum w % 16 = 0

/-- INFO of two lists behind a flag and the command: a count in front of each, `width` bytes an
entry, and `rest` bytes at the end. -/
def Counted (width rest : Nat) (info : List UInt8) (m n : Nat) : Prop :=
  ∃ (flag command countM : UInt8) (cells : List UInt8) (countN : UInt8) (temps tail : List UInt8),
    info = [flag, command] ++ [countM] ++ cells ++ [countN] ++ temps ++ tail ∧
      countM.toNat = m ∧ cells.length = width * m ∧ countN.toNat = n ∧
      temps.length = width * n ∧ tail.length = rest

/-- A well-formed response about a snapshot with these cells.  The analog and the alarm response have
the same counts. -/
def WellFormedAnswer (req : PylontechFrame) (cells : JkCellInfo) (resp : List UInt8) : Prop :=
  ∃ f, AnswerFrame req f resp ∧
    (req.cid2 = 0x42 → Counted 2 11 f.info cells.voltagesMv.length 3) ∧
    (req.cid2 = 0x44 → Counted 1 8 f.info cells.voltagesMv.length 3)

theorem answerFrame_built (req : PylontechFrame) {info : List UInt8} (hInfo : info.length ≤ 1024) :
    AnswerFrame req { okResponse req with info } (buildPylontech { okResponse req with info }) where
  whole out := by
    have hParse := tryParse_buildPylontech { okResponse req with info } [] out
    have hLen := length_buildPylontech { okResponse req with info }
    rw [List.append_nil] at hParse
    rw [hParse, castInt_of_lt (by rw [hLen]; show 18 + 2 * info.length < _; omega)]
  ver := rfl
  adr := rfl
  cid1 := rfl
  cid2 := rfl
  length := by
    refine ⟨_, decodeWord_length _, ?_⟩
    rw [Nat.mul_comm 2]
    exact lengthField_spec (show info.length * 2 < 4096 by omega)

theorem counted_analog (req : PylontechFrame) {cells : JkCellInfo}
    (hCells : cells.voltagesMv.length ≤ 255) (pack : JkPackInfo) (cap : ScaledCapacity) :
    Counted 2 11 (analogResponse req cells pack cap).serialize cells.voltagesMv.length 3 := by
  let r := analogResponse req cells pack cap
  refine ⟨r.infoflag, r.command, UInt8.ofNat cells.voltagesMv.length,
    cells.voltagesMv.flatMap wordBytes, 3, r.temperaturesK10.flatMap wordBytes,
    wordBytes r.current01a.toUInt16 ++ wordBytes r.moduleVoltageMv ++
      wordBytes r.remainCapacityMah ++ [r.userDefinedCount] ++ wordBytes r.totalCapacityMah ++
      wordBytes r.cycleCount, ?_, toNat_countByte hCells, length_words _, rfl, length_words _, rfl⟩
  rw [AnalogResponse.serialize_eq]
  simp only [List.nil_append, List.append_assoc]
  rfl

theorem counted_alarm (req : PylontechFrame) {cells : JkCellInfo}
    (hCells : cells.voltagesMv.length ≤ 255) :
    Counted 1 8 (alarmResponse req cells).serialize cells.voltagesMv.length 3 := by
  refine ⟨_, _, _, _, _, _, _, AlarmResponse.serialize_eq _, ?_, ?_, rfl, rfl, rfl⟩
  · show (UInt8.ofNat (List.replicate cells.voltagesMv.length _).length).toNat = _
    rw [List.length_replicate, toNat_countByte hCells]
  · show (List.replicate cells.voltagesMv.length _).length = _
    rw [List.length_replicate, Nat.one_mul]

theorem buildResponse_wellFormed {req : PylontechFrame} {cells : JkCellInfo} {pack : JkPackInfo}
    {lim : JkSettings} {resp : List UInt8} (hCells : cells.voltagesMv.length ≤ 255)
    (h : buildResponse req cells pack lim = .ok (some resp)) : WellFormedAnswer req cells resp := by
  unfold buildResponse at h
  split at h
  · rename_i hCid
    cases hBuilt : buildAnalogResponse req cells pack with
    | error fault =>
      rw [hBuilt] at h
      cases h
    | ok built =>
      obtain ⟨cap, -, rfl⟩ := buildAnalogResponse_ok hBuilt
      rw [hBuilt] at h
      obtain rfl := Option.some.inj (Except.ok.inj h)
      refine ⟨_, answerFrame_built req (by rw [length_analogResponse]; omega),
        fun _ => counted_analog req hCells pack cap, fun hAlarm => ?_⟩
      rw [hCid] at hAlarm
      exact absurd hAlarm (by decide)
  · rename_i hNotAnalog
    split at h
    · obtain rfl := Option.some.inj (Except.ok.inj h)
      exact ⟨_, answerFrame_built req (by rw [length_alarmResponse]; omega),
        fun hCid => absurd hCid hNotAnalog, fun _ => counted_alarm req hCells⟩
    · rename_i hNotAlarm
      have hOther (info : List UInt8) (hInfo : info.length ≤ 1024) :
          WellFormedAnswer req cells (buildPylontech { okResponse req with info }) :=
        ⟨_, answerFrame_built req hInfo, fun hCid => absurd hCid hNotAnalog,
          fun hCid => absurd hCid hNotAlarm⟩
      split at h
      · obtain rfl := Option.some.inj (Except.ok.inj h)
        exact hOther _ (by rw [length_systemParameterResponse]; omega)
      · split at h
        · obtain rfl := Option.some.inj (Except.ok.inj h)
          exact hOther _ (by rw [length_chargeManagementResponse]; omega)
        · cases h

/-! ### What is sent -/

/-- The cell lists that reach a snapshot: of a cell-info frame, or of a master's telemetry. -/
def DriverCells (cells : JkCellInfo) : Prop :=
  (∃ frame pack, parseCellInfo frame = some (cells, pack)) ∨
    ∃ (p : PylontechMasterProtocol) (data : List UInt8) (t : Telemetry),
      (p.feed data).1.telemetry = some t ∧ t.cells = cells

theorem DriverCells.reported {cells : JkCellInfo} (h : DriverCells cells) : ReportedCells cells := by
  rcases h with hFrame | ⟨p, data, t, hFeed, rfl⟩
  · exact .inl hFrame
  · obtain ⟨info, a, hRead, rfl⟩ := PylontechMasterProtocol.feed_telemetry hFeed
    exact .inr ⟨info, a, hRead, fillCellStats_voltages _⟩

/-- An answer is that of a slot whose source is ready. -/
theorem respond_some {slots : List Slot} {b : Batteries} {now : Int} {req : PylontechFrame}
    {resp : List UInt8} (h : respond slots b now req = .ok (some resp)) :
    ∃ slot cells pack lim, slots[(req.adr - kBaseAddress).toNat]? = some slot ∧
      (b.states slot.source).cells = some cells ∧
        buildResponse req cells pack lim = .ok (some resp) := by
  unfold respond at h
  split at h
  · cases h
  · split at h
    · cases h
    · rename_i slot hSlot
      simp only at h
      split at h
      · split at h
        · rename_i cells pack lim hCells hPack hLim
          obtain ⟨⟨pack', lim'⟩, -, hResp⟩ := Faults.bind_ok h
          exact ⟨slot, cells, pack', lim', hSlot, hCells, hResp⟩
        · cases h
      · cases h

/-- A request on its own is taken out of the buffer, and gets the answer that it has. -/
theorem processBuffer_wire {slots : List Slot} {b : Batteries} {now : Int} {wire : List UInt8}
    {req : PylontechFrame} (hWire : ValidWire wire req) :
    processBuffer slots b now wire = (sentFor slots b now req, []) := by
  have hSent : (onBytes slots b now [] wire).1 = sentFor slots b now req := onBytes_wire hWire
  rw [onBytes, appendRx_nil] at hSent
  refine Prod.ext hSent ?_
  have hPos := List.length_pos_iff.mpr hWire.nonempty
  have hParse := hWire.parses
  rw [processBuffer, Drain.drain_frame hWire.nonempty (by simp only [hParse]; omega)]
  simp only [hParse, Int.toNat_natCast, List.drop_length, Drain.drain_nil]

/-- The divisions behind an answer are defined: of the pack by the slot's modules, and of a module's
total by its scale, which an analog response takes modulo 2^32. -/
def Divides (slot : Slot) (capacity : Int32) (pack : JkPackInfo) (lim : JkSettings)
    (cid2 : UInt8) : Prop :=
  slot.moduleCount ≠ 0 ∧ (cid2 = 0x42 →
    (slotPack slot capacity pack lim).1.totalCapacityMah.toNat / slot.moduleCount.toNat < 4294902297)

section Respond

variable {slots : List Slot} {b : Batteries} {now : Int} {req : PylontechFrame} {slot : Slot}
  {cells : JkCellInfo} {pack : JkPackInfo} {lim : JkSettings}

theorem Divides.respond_ne_fault (hBase : ¬req.adr < kBaseAddress)
    (hSlot : slots[(req.adr - kBaseAddress).toNat]? = some slot)
    (hReady : Ready (b.states slot.source) now cells pack lim)
    (hDiv : Divides slot (ownerCapacity b.configs slot) pack lim req.cid2) :
    respond slots b now req ≠ .error .divByZero := by
  obtain ⟨hCount, hTotal⟩ := hDiv
  rw [respond_ready hBase hSlot hReady, answer_eq hCount, Ne, buildResponse_fault]
  rintro ⟨hAnalog, hTop⟩
  have hSmall := hTotal hAnalog
  rw [slicedPack, UInt32.toNat_div, UInt8.toNat_toUInt32] at hTop
  omega

/-- A slot that is ready answers a supported request, if its divisions are defined. -/
theorem respond_supported (hBase : ¬req.adr < kBaseAddress)
    (hSlot : slots[(req.adr - kBaseAddress).toNat]? = some slot)
    (hReady : Ready (b.states slot.source) now cells pack lim)
    (hCid : req.cid2 ∈ [0x42, 0x44, 0x47, 0x92])
    (hDiv : Divides slot (ownerCapacity b.configs slot) pack lim req.cid2) :
    ∃ resp, respond slots b now req = .ok (some resp) := by
  cases hAnswer : respond slots b now req with
  | error fault =>
    cases fault
    exact absurd hAnswer (hDiv.respond_ne_fault hBase hSlot hReady)
  | ok answer =>
    cases answer with
    | none =>
      have hSilent : sentFor slots b now req = .ok [] := by
        rw [sentFor, hAnswer]
        rfl
      exact absurd hSilent (sentFor_ne_nil hBase hSlot hReady hCid)
    | some resp => exact ⟨resp, rfl⟩

end Respond

/-- A supported request to a slot that is ready gets one response, and a well-formed one, where the
divisions are defined.  Of the frames in a buffer, each gets the answer that it has, in order, and every answer
is well formed. -/
theorem responses_wellFormed (slots : List Slot) (b : Batteries) (now : Int)
    (hCells : ∀ i cells, (b.states i).cells = some cells → DriverCells cells) :
    (∀ req wire slot cells pack lim, ValidWire wire req → ¬req.adr < kBaseAddress →
      slots[(req.adr - kBaseAddress).toNat]? = some slot →
      Ready (b.states slot.source) now cells pack lim → req.cid2 ∈ [0x42, 0x44, 0x47, 0x92] →
      Divides slot (ownerCapacity b.configs slot) pack lim req.cid2 →
      ∃ resp, processBuffer slots b now wire = (.ok [resp], []) ∧ WellFormedAnswer req cells resp) ∧
    (∀ rxBuf sent, (processBuffer slots b now rxBuf).1 = .ok sent ↔
      (∀ req ∈ Drain.frames (tryParsePylontech ·) rxBuf, ∃ answer, respond slots b now req = .ok answer) ∧
        sent = (Drain.frames (tryParsePylontech ·) rxBuf).filterMap fun req =>
          (respond slots b now req).toOption.join) ∧
    (∀ req resp, respond slots b now req = .ok (some resp) →
      ∃ slot cells, slots[(req.adr - kBaseAddress).toNat]? = some slot ∧
        (b.states slot.source).cells = some cells ∧ WellFormedAnswer req cells resp) := by
  have hAnswers {req : PylontechFrame} {resp : List UInt8}
      (hResp : respond slots b now req = .ok (some resp)) :
      ∃ slot cells, slots[(req.adr - kBaseAddress).toNat]? = some slot ∧
        (b.states slot.source).cells = some cells ∧ WellFormedAnswer req cells resp := by
    obtain ⟨slot, cells, pack, lim, hSlot, hSource, hBuilt⟩ := respond_some hResp
    exact ⟨slot, cells, hSlot, hSource,
      buildResponse_wellFormed (hCells _ cells hSource).reported.length_le hBuilt⟩
  refine ⟨?_, ?_, fun req resp => hAnswers⟩
  · intro req wire slot cells pack lim hWire hBase hSlot hReady hCid hDiv
    obtain ⟨resp, hResp⟩ := respond_supported hBase hSlot hReady hCid hDiv
    refine ⟨resp, ?_, ?_⟩
    · rw [processBuffer_wire hWire, sentFor, hResp]
      rfl
    · obtain ⟨slot', cells', hSlot', hSource, hForm⟩ := hAnswers hResp
      obtain rfl := Option.some.inj (hSlot.symm.trans hSlot')
      obtain rfl := Option.some.inj (hReady.cells.symm.trans hSource)
      exact hForm
  · intro rxBuf sent
    rw [processBuffer, Drain.drain_eq]
    exact Faults.foldl_collect_eq_ok

def ascii (text : String) : List UInt8 := text.toList.map fun c => UInt8.ofNat c.toNat

/-- The analog request for the first address, and the answer of a battery at half charge. -/
def analogRequest : List UInt8 := ascii "~20024642E00202FD33\r"

def analogAnswer : List UInt8 :=
  ascii "~20024600303A0002040CE40CEE0CF80CDA030BA50BA00BD7003233A461A802C350000CF0F8\r"

theorem responses_wellFormed_one_module :
    processBuffer [{ battery := 0 }] readyBatteries 0 analogRequest = (.ok [analogAnswer], []) ∧
      WellFormedAnswer { adr := 2, cid2 := 0x42, info := [2] } readyCells analogAnswer := by
  have hRequest : analogRequest = buildPylontech { adr := 2, cid2 := 0x42, info := [2] } := by
    decide +kernel
  have hWire : ValidWire analogRequest { adr := 2, cid2 := 0x42, info := [2] } :=
    hRequest ▸ validWire_built _ (by decide)
  have hDriver (i : Nat) (cells : JkCellInfo) (h : (readyBatteries.states i).cells = some cells) :
      DriverCells cells := by
    obtain rfl := Option.some.inj h
    exact .inl ⟨halfCharged, readyPack, halfCharged_parsed⟩
  have hAnswer : respond [{ battery := 0 }] readyBatteries 0 { adr := 2, cid2 := 0x42, info := [2] } =
      .ok (some analogAnswer) := by
    decide +kernel
  obtain ⟨resp, hSent, hForm⟩ := (responses_wellFormed [{ battery := 0 }] readyBatteries 0 hDriver).1
    _ _ _ _ _ _ hWire (by decide) rfl readyState_ready (by decide) ⟨by decide, by decide⟩
  have hSame : resp = analogAnswer := by
    have hList := congrArg Prod.fst hSent
    rw [processBuffer_wire hWire, sentFor, hAnswer] at hList
    exact (List.singleton_inj.mp (Except.ok.inj hList)).symm
  rw [hSame] at hSent hForm
  exact ⟨hSent, hForm⟩

end BmsBridge
