import BmsBridge.Bridge.Proof.Answer
import BmsBridge.Lib.Shares
import BmsBridge.Pylontech.Proof.Receive

/-! The limits that the bridge advertises.  Each module of a monitored battery carries a share of the
BMS's current limits, so the modules together never allow more than the BMS does. -/

namespace BmsBridge

open Words

/-! ### One module's current limits -/

theorem toNat_pos {n : UInt8} (hn : n ≠ 0) : 0 < n.toNat := by
  rcases Nat.eq_zero_or_pos n.toNat with h | h
  · exact absurd (UInt8.toNat_inj.mp h) hn
  · exact h

/-- A limit in 0.1 A, before it is clamped. -/
theorem toInt_limit (maMax : UInt32) (n : UInt8) :
    (maMax / n.toUInt32 / 100).toInt32.toInt = (maMax.toNat / (n.toNat * 100) : Nat) := by
  have hMax := maMax.toNat_lt
  have hShare := Nat.div_le_self maMax.toNat n.toNat
  have hWord : (maMax / n.toUInt32 / 100).toNat = maMax.toNat / n.toNat / 100 := by
    rw [UInt32.toNat_div, UInt32.toNat_div, UInt8.toNat_toUInt32]
    rfl
  rw [toInt_toInt32, hWord, ← Nat.div_div_eq_div_mul, if_pos (by omega)]

theorem toInt_chargeLimit (maMax : UInt32) (n : UInt8) :
    (clampI16 (maMax / n.toUInt32 / 100).toInt32).toInt =
      (min (maMax.toNat / (n.toNat * 100)) 32767 : Nat) := by
  rw [toInt_clampI16, toInt_limit]
  generalize maMax.toNat / (n.toNat * 100) = q
  omega

theorem toInt_dischargeLimit (maMax : UInt32) (n : UInt8) :
    (clampI16 (-(maMax / n.toUInt32 / 100).toInt32)).toInt =
      -(min (maMax.toNat / (n.toNat * 100)) 32768 : Nat) := by
  have hMax := maMax.toNat_lt
  have hLe : maMax.toNat / (n.toNat * 100) ≤ maMax.toNat / 100 := by
    rw [Nat.mul_comm, ← Nat.div_div_eq_div_mul]
    exact Nat.div_le_self _ _
  rw [toInt_clampI16, Int32.toInt_neg, toInt_limit]
  generalize maMax.toNat / (n.toNat * 100) = q at hLe
  rw [Int.bmod_eq_of_le (by omega) (by omega)]
  omega

/-! ### What the inverter sees -/

/-- The limits in the 0x47 and the 0x92 payload of one of `n` modules, against those of the BMS. -/
structure WithinLimits (n : Nat) (lim : JkSettings) (sp : SystemParameterResponse)
    (cm : ChargeManagementResponse) : Prop where
  chargeSame : sp.chargeCurrentLimit01a = cm.chargeCurrentLimit01a
  chargeLe : n * 100 * sp.chargeCurrentLimit01a.toInt ≤ lim.maxChargeCurrentMa.toNat
  chargeNear : sp.chargeCurrentLimit01a.toInt = 32767 ∨
    lim.maxChargeCurrentMa.toNat - n * 100 * sp.chargeCurrentLimit01a.toInt < 100 * n
  dischargeSame : sp.dischargeCurrentLimit01a = cm.dischargeCurrentLimit01a
  dischargeNonpos : sp.dischargeCurrentLimit01a.toInt ≤ 0
  dischargeLe : n * 100 * sp.dischargeCurrentLimit01a.toInt.natAbs ≤ lim.maxDischargeCurrentMa.toNat
  dischargeNear : sp.dischargeCurrentLimit01a.toInt = -32768 ∨
    (lim.maxDischargeCurrentMa.toNat : Int) - n * 100 * sp.dischargeCurrentLimit01a.toInt.natAbs <
      100 * n
  voltageLe : cm.chargeVoltageLimitMv.toNat ≤ lim.cellOvpMv.toNat * lim.cellCount.toNat

theorem withinLimits_sliced {n : UInt8} (hn : n ≠ 0) (req : PylontechFrame) (pack : JkPackInfo)
    (lim : JkSettings) : WithinLimits n.toNat lim (systemParameterResponse (slicedLimits n lim))
      (chargeManagementResponse req pack (slicedLimits n lim)) := by
  have hCharge : (systemParameterResponse (slicedLimits n lim)).chargeCurrentLimit01a.toInt =
      (min (lim.maxChargeCurrentMa.toNat / (n.toNat * 100)) 32767 : Nat) :=
    toInt_chargeLimit lim.maxChargeCurrentMa n
  have hDischarge : (systemParameterResponse (slicedLimits n lim)).dischargeCurrentLimit01a.toInt =
      -(min (lim.maxDischargeCurrentMa.toNat / (n.toNat * 100)) 32768 : Nat) :=
    toInt_dischargeLimit lim.maxDischargeCurrentMa n
  have hPos : 0 < n.toNat * 100 := Nat.mul_pos (toNat_pos hn) (by decide)
  have hChargeShare := Shares.capped_share lim.maxChargeCurrentMa.toNat 32767 hPos
  have hDischargeShare := Shares.capped_share lim.maxDischargeCurrentMa.toNat 32768 hPos
  generalize min (lim.maxChargeCurrentMa.toNat / (n.toNat * 100)) 32767 = c
    at hCharge hChargeShare
  generalize min (lim.maxDischargeCurrentMa.toNat / (n.toNat * 100)) 32768 = d
    at hDischarge hDischargeShare
  obtain ⟨hChargeLe, hChargeNear⟩ := hChargeShare
  obtain ⟨hDischargeLe, hDischargeNear⟩ := hDischargeShare
  refine ⟨rfl, ?_, ?_, rfl, ?_, ?_, ?_, moduleVoltageFromCell_le lim.cellOvpMv lim.cellCount⟩
  · rw [hCharge]
    exact_mod_cast hChargeLe
  · rw [hCharge]
    rcases hChargeNear with rfl | hLt
    · exact .inl rfl
    · right
      have hLt' : (lim.maxChargeCurrentMa.toNat : Int) < n.toNat * 100 * c + n.toNat * 100 := by
        exact_mod_cast hLt
      omega
  · omega
  · rw [hDischarge, Int.natAbs_neg, Int.natAbs_natCast]
    exact hDischargeLe
  · rw [hDischarge, Int.natAbs_neg, Int.natAbs_natCast]
    rcases hDischargeNear with rfl | hLt
    · exact .inl rfl
    · right
      have hLt' : (lim.maxDischargeCurrentMa.toNat : Int) < n.toNat * 100 * d + n.toNat * 100 := by
        exact_mod_cast hLt
      omega

theorem slotPack_monitored {slot : Slot} (hMonitored : slot.mirror = none) (capacity : Int32)
    (pack : JkPackInfo) (lim : JkSettings) : slotPack slot capacity pack lim = (pack, lim) := by
  rw [slotPack, hMonitored]
  rfl

section Answers

variable {slot : Slot} (hCount : slot.moduleCount ≠ 0) (capacity : Int32) (cells : JkCellInfo)
  (pack : JkPackInfo) (lim : JkSettings) {req : PylontechFrame}

include hCount

theorem answer_systemParam (hReq : req.cid2 = 0x47) :
    let sp := systemParameterResponse
      (slicedLimits slot.moduleCount (slotPack slot capacity pack lim).2)
    let f : PylontechFrame := { okResponse req with info := sp.serialize }
    answer slot capacity cells pack lim req = .ok (some (buildPylontech f)) ∧
      tryParsePylontech (buildPylontech f) = (((buildPylontech f).length : Int), f) ∧
      SystemParameterResponse.deserialize f.info = (true, sp) := by
  intro sp f
  have hRead := sp.deserialize_serialize []
  rw [List.append_nil] at hRead
  refine ⟨?_, tryParse_built f ?_, hRead⟩
  · rw [answer_eq hCount, buildResponse, hReq]
    rfl
  · show sp.serialize.length ≤ 1024
    rw [length_systemParameterResponse]
    omega

theorem answer_chgmgmt (hReq : req.cid2 = 0x92) :
    let cm := chargeManagementResponse req
      (slicedPack slot.moduleCount (slotPack slot capacity pack lim).1)
      (slicedLimits slot.moduleCount (slotPack slot capacity pack lim).2)
    let f : PylontechFrame := { okResponse req with info := cm.serialize }
    answer slot capacity cells pack lim req = .ok (some (buildPylontech f)) ∧
      tryParsePylontech (buildPylontech f) = (((buildPylontech f).length : Int), f) ∧
      ChargeManagementResponse.decode f.info = (true, cm) := by
  intro cm f
  have hRead := cm.decode_serialize []
  rw [List.append_nil] at hRead
  refine ⟨?_, tryParse_built f ?_, hRead⟩
  · rw [answer_eq hCount, buildResponse, hReq]
    rfl
  · show cm.serialize.length ≤ 1024
    rw [length_chargeManagementResponse]
    omega

end Answers

/-- A monitored battery's module answers 0x47 and 0x92 with limits that, over all its modules, stay
within the limits of the BMS. -/
theorem advertised_within_limits (slot : Slot) (hMonitored : slot.mirror = none)
    (hCount : slot.moduleCount ≠ 0) (capacity : Int32) (cells : JkCellInfo) (pack : JkPackInfo)
    (lim : JkSettings) (req47 req92 : PylontechFrame) (h47 : req47.cid2 = 0x47)
    (h92 : req92.cid2 = 0x92) :
    ∃ resp47 f47 sp resp92 f92 cm,
      answer slot capacity cells pack lim req47 = .ok (some resp47) ∧
      tryParsePylontech resp47 = ((resp47.length : Int), f47) ∧
      SystemParameterResponse.deserialize f47.info = (true, sp) ∧
      answer slot capacity cells pack lim req92 = .ok (some resp92) ∧
      tryParsePylontech resp92 = ((resp92.length : Int), f92) ∧
      ChargeManagementResponse.decode f92.info = (true, cm) ∧
      WithinLimits slot.moduleCount.toNat lim sp cm := by
  have h47' := answer_systemParam hCount capacity cells pack lim h47
  have h92' := answer_chgmgmt hCount capacity cells pack lim h92
  rw [slotPack_monitored hMonitored] at h47' h92'
  obtain ⟨hResp47, hParse47, hRead47⟩ := h47'
  obtain ⟨hResp92, hParse92, hRead92⟩ := h92'
  exact ⟨_, _, _, _, _, _, hResp47, hParse47, hRead47, hResp92, hParse92, hRead92,
    withinLimits_sliced hCount req92 (slicedPack slot.moduleCount pack) lim⟩

/-- Three modules of a battery that allows 100 A of charge and 200 A of discharge. -/
theorem advertised_within_limits_three_modules :
    ∃ resp47 f47 sp resp92 f92 cm,
      answer { battery := 0, moduleCount := 3 } 150 {} {}
        { maxChargeCurrentMa := 100000, maxDischargeCurrentMa := 200000 }
        { adr := 2, cid2 := 0x47 } = .ok (some resp47) ∧
      tryParsePylontech resp47 = ((resp47.length : Int), f47) ∧
      SystemParameterResponse.deserialize f47.info = (true, sp) ∧
      answer { battery := 0, moduleCount := 3 } 150 {} {}
        { maxChargeCurrentMa := 100000, maxDischargeCurrentMa := 200000 }
        { adr := 2, cid2 := 0x92 } = .ok (some resp92) ∧
      tryParsePylontech resp92 = ((resp92.length : Int), f92) ∧
      ChargeManagementResponse.decode f92.info = (true, cm) ∧
      WithinLimits 3 { maxChargeCurrentMa := 100000, maxDischargeCurrentMa := 200000 } sp cm :=
  advertised_within_limits { battery := 0, moduleCount := 3 } rfl (by decide) 150 {} {}
    { maxChargeCurrentMa := 100000, maxDischargeCurrentMa := 200000 } { adr := 2, cid2 := 0x47 }
    { adr := 2, cid2 := 0x92 } rfl rfl

end BmsBridge
