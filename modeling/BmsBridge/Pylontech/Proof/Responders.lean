import BmsBridge.Pylontech.Proof.Payload
import BmsBridge.Pylontech.Responders

/-! The unit conversions of the responders as arithmetic. -/

namespace BmsBridge

open Words

/-! ### Clamping -/

theorem toNat_clampU16 (v : UInt32) : (clampU16 v).toNat = min v.toNat 65535 := by
  rw [clampU16, UInt32.toNat_toUInt16, toNat_min]
  show min _ 65535 % 65536 = min _ 65535
  omega

theorem toInt_clampI16 (v : Int32) : (clampI16 v).toInt = max (-32768) (min v.toInt 32767) := by
  have hHigh : 32767 < v ↔ 32767 < v.toInt := Int32.lt_iff_toInt_lt
  have hLow : v < -32768 ↔ v.toInt < -32768 := Int32.lt_iff_toInt_lt
  simp only [clampI16, hHigh, hLow]
  split
  · show (32767 : Int) = _
    omega
  · split
    · show (-32768 : Int) = _
      omega
    · rw [Int32.toInt_toInt16, Int.bmod_eq_of_le (by omega) (by omega)]
      omega

theorem toNat_moduleVoltageFromCell (cellMv : UInt16) (cellCount : UInt8) :
    (moduleVoltageFromCell cellMv cellCount).toNat = min 65535 (cellMv.toNat * cellCount.toNat) := by
  have hMv := cellMv.toNat_lt
  have hCount := cellCount.toNat_lt
  have hProduct : cellMv.toNat * cellCount.toNat ≤ 65535 * 255 :=
    Nat.mul_le_mul (by omega) (by omega)
  rw [moduleVoltageFromCell, toNat_clampU16, UInt32.toNat_mul, UInt16.toNat_toUInt32,
    UInt8.toNat_toUInt32, Nat.mod_eq_of_lt (by omega), Nat.min_comm]

theorem moduleVoltageFromCell_le (cellMv : UInt16) (cellCount : UInt8) :
    (moduleVoltageFromCell cellMv cellCount).toNat ≤ cellMv.toNat * cellCount.toNat := by
  rw [toNat_moduleVoltageFromCell]
  exact Nat.min_le_right _ _

/-! ### Capacities -/

theorem toNat_ceilCap (t : UInt32) : ((t + kCapU16Max - 1) / kCapU16Max).toNat =
    (t.toNat + 64999) % 4294967296 / 65000 := by
  have ht := t.toNat_lt
  simp only [UInt32.toNat_div, UInt32.toNat_sub, UInt32.toNat_add, kCapU16Max,
    UInt32.reduceToNat]
  omega

theorem le_kCapU16Max (t : UInt32) : t ≤ kCapU16Max ↔ t.toNat ≤ 65000 := UInt32.le_iff_toNat_le

theorem toNat_moduleCountForCapacity (t : UInt32) : (moduleCountForCapacity t).toNat =
    if t.toNat ≤ 65000 then 1 else min ((t.toNat + 64999) % 4294967296 / 65000) 255 := by
  simp only [moduleCountForCapacity, le_kCapU16Max]
  split
  · rfl
  · rw [UInt32.toNat_toUInt8, toNat_min, toNat_ceilCap]
    show min _ 255 % 256 = min _ 255
    omega

/-- The scale wraps to zero only for the top 64999 totals. -/
theorem scaleCapacityToU16_fault (total remain : UInt32) :
    scaleCapacityToU16 total remain = .error .divByZero ↔ 4294902297 ≤ total.toNat := by
  have hTotal := total.toNat_lt
  have hScale := toNat_ceilCap total
  simp only [scaleCapacityToU16, le_kCapU16Max]
  by_cases hZero : (total + kCapU16Max - 1) / kCapU16Max = 0
  · have hNat : (total.toNat + 64999) % 4294967296 / 65000 = 0 := by
      rw [← hScale, hZero]
      rfl
    rw [hZero, udiv_zero]
    split
    · exact ⟨fun h => (nomatch h), fun h => by omega⟩
    · exact ⟨fun _ => by omega, fun _ => rfl⟩
  · have hNat : (total.toNat + 64999) % 4294967296 / 65000 ≠ 0 := by
      intro h
      rw [← hScale] at h
      exact hZero (UInt32.toNat_inj.mp h)
    rw [udiv_ok hZero, udiv_ok hZero]
    split
    · exact ⟨fun h => (nomatch h), fun h => by omega⟩
    · exact ⟨fun h => (nomatch h), fun h => by omega⟩

theorem scaleCapacityToU16_small {total remain : UInt32} (h : total.toNat ≤ 65000) :
    scaleCapacityToU16 total remain =
      .ok { totalMah := total.toUInt16, remainMah := remain.toUInt16 } := by
  rw [scaleCapacityToU16, if_pos ((le_kCapU16Max total).mpr h)]

/-! ### Records -/

theorem length_analogResponse {req : PylontechFrame} {cells : JkCellInfo} {pack : JkPackInfo}
    {cap : ScaledCapacity} :
    (analogResponse req cells pack cap).serialize.length = 21 + 2 * cells.voltagesMv.length := by
  rw [AnalogResponse.length_serialize]
  show 15 + 2 * cells.voltagesMv.length + 2 * 3 = _
  omega

theorem length_alarmResponse (req : PylontechFrame) (cells : JkCellInfo) :
    (alarmResponse req cells).serialize.length = 15 + cells.voltagesMv.length := by
  have hCells : (alarmResponse req cells).cellVoltageStates.length = cells.voltagesMv.length :=
    List.length_replicate
  have hTemps : (alarmResponse req cells).temperatureStates.length = 3 := rfl
  rw [AlarmResponse.serialize_eq]
  simp only [List.length_append, List.length_cons, List.length_nil, hCells, hTemps]
  omega

theorem length_systemParameterResponse (limits : JkSettings) :
    (systemParameterResponse limits).serialize.length = 25 := by
  simp only [SystemParameterResponse.serialize_eq, List.length_append, wordBytes, List.length_cons,
    List.length_nil]

theorem length_chargeManagementResponse (req : PylontechFrame) (pack : JkPackInfo)
    (limits : JkSettings) : (chargeManagementResponse req pack limits).serialize.length = 10 := rfl

end BmsBridge
