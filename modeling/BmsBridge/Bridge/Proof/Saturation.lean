import BmsBridge.Bridge.Proof.Polls
import BmsBridge.Pylontech.Proof.Scaling

/-! The numbers of an analog response against the exact ones.  A field saturates where its conversion
clamps; the temperatures and the remaining capacity are cast as they stand, and wrap. -/

namespace BmsBridge

open Words

/-! ### Ranges -/

/-- The value of a 16-bit field that saturates. -/
def toWord16 (v : Int) : Int := max 0 (min v 65535)

def toSigned16 (v : Int) : Int := max (-32768) (min v 32767)

/-- The exact values, each clamped to its field: of a module that is one of `n`. -/
structure Saturated (n : Nat) (cells : JkCellInfo) (pack : JkPackInfo) (a : AnalogResponse) :
    Prop where
  cells : a.cellVoltagesMv = cells.voltagesMv
  temperatures : a.temperaturesK10.map (fun t => (t.toNat : Int)) =
    [pack.batteryTemp1DC, pack.batteryTemp2DC, pack.powerTubeTempDC].map fun dC =>
      toWord16 (dC.toInt + 2731)
  current : a.current01a.toInt = toSigned16 ((pack.currentMa.toInt.tdiv n).tdiv 100)
  voltage : (a.moduleVoltageMv.toNat : Int) = toWord16 pack.voltageMv.toInt
  remain : (a.remainCapacityMah.toNat : Int) = toWord16 (pack.remainingCapacityMah.toNat / n /
    capScale (pack.totalCapacityMah.toNat / n) : Nat)
  total : (a.totalCapacityMah.toNat : Int) = toWord16 (pack.totalCapacityMah.toNat / n /
    capScale (pack.totalCapacityMah.toNat / n) : Nat)
  cycles : (a.cycleCount.toNat : Int) = toWord16 pack.cycleCount.toNat

/-- No conversion wraps: no temperature is below absolute zero, and the scaled remaining capacity is
within 16 bits, or a multiple of 65536 away from the largest word. -/
structure InRange (n : Nat) (pack : JkPackInfo) : Prop where
  temperature1 : -2731 ≤ pack.batteryTemp1DC.toInt
  temperature2 : -2731 ≤ pack.batteryTemp2DC.toInt
  powerTube : -2731 ≤ pack.powerTubeTempDC.toInt
  remain :
    let remain := pack.remainingCapacityMah.toNat / n / capScale (pack.totalCapacityMah.toNat / n)
    remain ≤ 65535 ∨ remain % 65536 = 65535

/-! ### Conversions -/

/-- A 16-bit signed value cast to an unsigned one. -/
theorem toNat_toUInt16 (x : Int16) : (x.toUInt16.toNat : Int) = x.toInt % 65536 := by
  have hInt : x.toInt = x.toBitVec.toInt := rfl
  have hNat : x.toUInt16.toNat = x.toBitVec.toNat := rfl
  have hLt := x.toBitVec.isLt
  rw [hInt, hNat, BitVec.toInt_eq_toNat_cond]
  show _ = (if 2 * x.toBitVec.toNat < 65536 then (x.toBitVec.toNat : Int)
    else x.toBitVec.toNat - 65536) % 65536
  split <;> omega

theorem toNat_dCToK10 (dC : Int16) : ((dCToK10 dC).toNat : Int) = (dC.toInt + 2731) % 65536 := by
  have hLow := dC.le_toInt
  have hHigh := dC.toInt_lt
  have hSum : (dC.toInt32 + 2731).toInt = dC.toInt + 2731 := by
    rw [Int32.toInt_add, Int16.toInt_toInt32]
    exact Int.bmod_eq_of_le (by show -2147483648 ≤ dC.toInt + 2731; omega)
      (by show dC.toInt + 2731 < 2147483648; omega)
  rw [dCToK10, toNat_toUInt16, Int32.toInt_toInt16, hSum]
  exact Int.bmod_emod

theorem dCToK10_saturates_iff (dC : Int16) :
    ((dCToK10 dC).toNat : Int) = toWord16 (dC.toInt + 2731) ↔ -2731 ≤ dC.toInt := by
  have hLow := dC.le_toInt
  have hHigh := dC.toInt_lt
  rw [toNat_dCToK10, toWord16]
  omega

theorem voltage_saturates (v : Int32) :
    ((clampU16 (max v 0).toUInt32).toNat : Int) = toWord16 v.toInt := by
  have hLow := v.le_toInt
  have hHigh := v.toInt_lt
  have hMax : (max v 0).toInt = max v.toInt 0 := by
    have hLe : v ≤ 0 ↔ v.toInt ≤ 0 := Int32.le_iff_toInt_le
    show (if v ≤ 0 then 0 else v).toInt = _
    split
    · rename_i h
      exact (max_eq_right (hLe.mp h)).symm
    · rename_i h
      exact (max_eq_left (Int.not_le.mp (mt hLe.mpr h)).le).symm
  have hCast := toNat_toUInt32 (max v 0)
  rw [toNat_clampU16, toWord16]
  omega

theorem cycles_saturate (v : UInt32) : ((clampU16 v).toNat : Int) = toWord16 v.toNat := by
  rw [toNat_clampU16, toWord16]
  omega

theorem current_saturates (c : Int32) (n : UInt8) :
    (clampI16 (c / n.toUInt32.toInt32 / 100)).toInt =
      toSigned16 ((c.toInt.tdiv n.toNat).tdiv 100) := by
  rw [toInt_clampI16, toInt_shareCurrent, toSigned16]
  exact congrArg (fun t => max (-32768) (min t 32767)) (Shares.tdiv_tdiv c.toInt n.toNat 100).symm

/-- The remaining capacity is cut to 16 bits, which is the clamped value only in range. -/
theorem remain_saturates_iff (remain : Nat) :
    ((remain % 65536 : Nat) : Int) = toWord16 remain ↔ remain ≤ 65535 ∨ remain % 65536 = 65535 := by
  rw [toWord16]
  omega

/-! ### The response -/

theorem saturated_iff {n : UInt8} (req : PylontechFrame) (cells : JkCellInfo)
    (pack : JkPackInfo) {cap : ScaledCapacity}
    (hCap : scaleCapacityToU16 (pack.totalCapacityMah / n.toUInt32)
      (pack.remainingCapacityMah / n.toUInt32) = .ok cap) :
    Saturated n.toNat cells pack (analogResponse req cells (slicedPack n pack) cap) ↔
      InRange n.toNat pack := by
  have hShare (w : UInt32) : (w / n.toUInt32).toNat = w.toNat / n.toNat := by
    rw [UInt32.toNat_div, UInt8.toNat_toUInt32]
  have hFits : (pack.totalCapacityMah / n.toUInt32).toNat ≤ 4294902296 := by
    by_contra hWrap
    rw [(scaleCapacityToU16_fault _ _).mpr (by omega)] at hCap
    cases hCap
  obtain ⟨cap', hCap', hTotal, hRemain⟩ := scaleCapacityToU16_eq _ _ hFits
  obtain rfl := Except.ok.inj (hCap.symm.trans hCap')
  rw [hShare] at hTotal
  rw [hShare, hShare] at hRemain
  constructor
  · intro h
    have hTemps := h.temperatures
    simp only [analogResponse, slicedPack, List.map_cons, List.map_nil, List.cons.injEq, and_true,
      dCToK10_saturates_iff] at hTemps
    have hCut := h.remain
    simp only [analogResponse, hRemain] at hCut
    exact ⟨hTemps.1, hTemps.2.1, hTemps.2.2, (remain_saturates_iff _).mp hCut⟩
  · intro h
    refine ⟨rfl, ?_, current_saturates _ _, voltage_saturates _, ?_, ?_, cycles_saturate _⟩
    · simp only [analogResponse, slicedPack, List.map_cons, List.map_nil, List.cons.injEq, and_true,
        dCToK10_saturates_iff]
      exact ⟨h.temperature1, h.temperature2, h.powerTube⟩
    · simp only [analogResponse, hRemain]
      exact (remain_saturates_iff _).mpr h.remain
    · have hLe := div_capScale_le (pack.totalCapacityMah.toNat / n.toNat)
      simp only [analogResponse, hTotal, toWord16]
      omega

/-- The 0x42 answer of a slot, decoded, saturates in every field. -/
def AnswersSaturated (slot : Slot) (capacity : Int32) (cells : JkCellInfo) (pack : JkPackInfo)
    (lim : JkSettings) (req : PylontechFrame) : Prop :=
  ∃ resp f a, answer slot capacity cells pack lim req = .ok (some resp) ∧
    tryParsePylontech resp = ((resp.length : Int), f) ∧
    AnalogResponse.deserialize f.info = (true, a) ∧
    Saturated slot.moduleCount.toNat cells (slotPack slot capacity pack lim).1 a

theorem answersSaturated_iff {slot : Slot} (hCount : slot.moduleCount ≠ 0) (capacity : Int32)
    {cells : JkCellInfo} (hCells : cells.voltagesMv.length ≤ 255) (pack : JkPackInfo)
    (lim : JkSettings) {req : PylontechFrame} (hReq : req.cid2 = 0x42)
    (hOk : answer slot capacity cells pack lim req ≠ .error .divByZero) :
    AnswersSaturated slot capacity cells pack lim req ↔
      InRange slot.moduleCount.toNat (slotPack slot capacity pack lim).1 := by
  rw [AnswersSaturated]
  rw [answer_eq hCount, buildResponse, if_pos hReq] at hOk ⊢
  generalize (slotPack slot capacity pack lim).1 = source at hOk ⊢
  cases hBuilt : buildAnalogResponse req cells (slicedPack slot.moduleCount source) with
  | error fault =>
    cases fault
    exact absurd (congrArg (some <$> ·) hBuilt) hOk
  | ok resp =>
    obtain ⟨cap, hCap, rfl⟩ := buildAnalogResponse_ok hBuilt
    let r := analogResponse req cells (slicedPack slot.moduleCount source) cap
    have hParse := tryParse_built { okResponse req with info := r.serialize } (by
      show r.serialize.length ≤ 1024
      rw [length_analogResponse]
      omega)
    have hRead := r.deserialize_serialize [] hCells (by decide : 3 ≤ 255)
    rw [List.append_nil] at hRead
    rw [← saturated_iff req cells source hCap]
    constructor
    · rintro ⟨resp, f, a, hResp, hF, hA, hSat⟩
      obtain rfl := Option.some.inj (Except.ok.inj hResp)
      obtain rfl := congrArg Prod.snd (hParse.symm.trans hF)
      obtain rfl := congrArg Prod.snd (hRead.symm.trans hA)
      exact hSat
    · exact fun hSat => ⟨_, _, _, rfl, hParse, hRead, hSat⟩

/-- For every cell-info frame and every slot, the answer to an analog poll saturates exactly when
what it is taken from is in range. -/
theorem analog_saturates_iff (frame : List UInt8) (cells : JkCellInfo) (pack : JkPackInfo)
    (hFrame : parseCellInfo frame = some (cells, pack)) (slot : Slot)
    (hCount : slot.moduleCount ≠ 0) (capacity : Int32) (lim : JkSettings) (req : PylontechFrame)
    (hReq : req.cid2 = 0x42) (hOk : answer slot capacity cells pack lim req ≠ .error .divByZero) :
    AnswersSaturated slot capacity cells pack lim req ↔
      InRange slot.moduleCount.toNat (slotPack slot capacity pack lim).1 :=
  answersSaturated_iff hCount capacity ((parseCellInfo_length_cells hFrame).trans (by decide)) pack
    lim hReq hOk

/-- The frame of a pack of 100 Ah at 90 % that discharges at 12.345 A. -/
def twoModuleFrame : List UInt8 :=
  fourCells [0xC7, 0xCF, 0xFF, 0xFF] [90, 0x90, 0x5F, 1, 0, 0xA0, 0x86, 1, 0] 0xED

def twoModulePack : JkPackInfo :=
  { readyPack with
    currentMa := -12345
    stateOfChargePct := 90
    remainingCapacityMah := 90000
    totalCapacityMah := 100000 }

/-- Each of two modules answers with its half. -/
theorem analog_saturates_iff_two_modules :
    AnswersSaturated { battery := 0, moduleCount := 2 } 100 readyCells twoModulePack readySettings
      { adr := 2, cid2 := 0x42 } := by
  have hFrame : parseCellInfo twoModuleFrame = some (readyCells, twoModulePack) := by decide +kernel
  have hOk : answer { battery := 0, moduleCount := 2 } 100 readyCells twoModulePack readySettings
      { adr := 2, cid2 := 0x42 } ≠ .error .divByZero := by
    decide +kernel
  refine (analog_saturates_iff twoModuleFrame _ _ hFrame { battery := 0, moduleCount := 2 } (by decide)
    100 readySettings _ rfl hOk).mpr ?_
  exact ⟨by decide, by decide, by decide, by decide⟩

/-- A cell-info frame with 65536 mAh left of 65000 mAh. -/
def overfull : List UInt8 :=
  kJkResponseMagic ++ [0x02] ++ List.replicate 169 0 ++ [0x00, 0x00, 0x01, 0x00] ++
    [0xE8, 0xFD, 0x00, 0x00] ++ List.replicate 117 0 ++ [0x62]

def overfullPack : JkPackInfo where
  remainingCapacityMah := 65536
  totalCapacityMah := 65000

/-- An overfull battery near the 16-bit limit is shown as empty. -/
theorem overfull_shown_empty :
    ¬∀ (frame : List UInt8) (cells : JkCellInfo) (pack : JkPackInfo) (slot : Slot) (capacity : Int32)
        (lim : JkSettings) (req : PylontechFrame), parseCellInfo frame = some (cells, pack) →
      slot.moduleCount ≠ 0 → req.cid2 = 0x42 →
      answer slot capacity cells pack lim req ≠ .error .divByZero →
        AnswersSaturated slot capacity cells pack lim req := by
  intro hAll
  have hOk : answer { battery := 0 } 65 {} overfullPack {} { adr := 2, cid2 := 0x42 } ≠
    .error .divByZero := fun h => nomatch h
  have hSat := hAll overfull {} overfullPack { battery := 0 } 65 {} { adr := 2, cid2 := 0x42 }
    (by decide +kernel) (by decide) rfl hOk
  have hRange := (answersSaturated_iff (by decide) 65 (by decide) overfullPack {} rfl hOk).mp hSat
  exact absurd hRange.remain (by decide)

end BmsBridge
