import BmsBridge.History.Database
import Mathlib.Data.List.TakeDrop

/-! The rows of a sample give back what `append` put in them. -/

namespace BmsBridge

/-! ### Columns -/

theorem columnInt_natCast (n : Nat) : (columnInt n).toUInt32 = UInt32.ofNat n := by
  unfold columnInt
  rw [Int32.ofInt_eq_ofNat]
  exact Int32.toUInt32_ofNat'

theorem columnInt_uint8 (x : UInt8) : (columnInt x.toNat).toUInt32.toUInt8 = x := by
  simp [columnInt_natCast]

theorem columnInt_uint16 (x : UInt16) : (columnInt x.toNat).toUInt32.toUInt16 = x := by
  simp [columnInt_natCast]

theorem columnInt_int16 (x : Int16) : (columnInt x.toInt).toInt16 = x := by
  simp [columnInt]

theorem columnInt64_uint32 (x : UInt32) : UInt32.ofInt x.toNat = x := by
  have hLt := x.toNat_lt
  unfold UInt32.ofInt
  rw [← UInt32.toNat_inj, UInt32.toNat_ofNat']
  omega

theorem columnInt_flags (flags : UInt32) : (columnInt flags.toInt32.toInt).toUInt32 = flags := by
  simp [columnInt]

/-- Each flag has a bit of its own. -/
theorem packFlags_bits (p : JkPackInfo) :
    decide (packFlags p &&& 0x1 ≠ 0) = p.chargingEnabled ∧
      decide (packFlags p &&& 0x2 ≠ 0) = p.dischargingEnabled ∧
      decide (packFlags p &&& 0x4 ≠ 0) = p.balancerEnabled := by
  unfold packFlags
  cases p.chargingEnabled <;> cases p.dischargingEnabled <;> cases p.balancerEnabled <;> decide

theorem pack_ofSample (batteryId tsMs : Int) (cells : JkCellInfo) (pack : JkPackInfo) :
    (SampleRow.ofSample batteryId tsMs cells pack).pack = pack := by
  obtain ⟨hCharging, hDischarging, hBalancer⟩ := packFlags_bits pack
  unfold SampleRow.pack SampleRow.ofSample
  simp only [columnInt_flags, columnInt_uint8, columnInt_uint16, columnInt_int16, columnInt64_uint32,
    Int32.ofInt_toInt, hCharging, hDischarging, hBalancer]

/-! ### Cells -/

theorem getElem_takeD {α : Type} (l : List α) (a : α) (n k : Nat) (h : k < (l.takeD n a).length) :
    (l.takeD n a)[k] = l.getD k a := by
  induction n generalizing l k with
  | zero => cases h
  | succ n ih =>
    cases k with
    | zero => cases l <;> simp
    | succ k =>
      cases l with
      | nil => simp
      | cons x l => simpa using ih l k (by simpa using h)

theorem cellRows_ascending (sampleId : Int) (cells : JkCellInfo) :
    (cellRows sampleId cells).Pairwise fun a b => a.cellIdx ≤ b.cellIdx := by
  rw [List.pairwise_iff_getElem]
  intro j k hj hk hLt
  simp only [cellRows, List.getElem_mapIdx]
  omega

/-- The cells come back with a resistance for each voltage. -/
theorem cells_ofSample (batteryId tsMs sampleId : Int) (cells : JkCellInfo) (pack : JkPackInfo) :
    (SampleRow.ofSample batteryId tsMs cells pack).cells (cellRows sampleId cells) = { cells with
      resistanceUohm := cells.resistanceUohm.takeD cells.voltagesMv.length 0 } := by
  have hVoltages : (cellRows sampleId cells).map (fun c => (columnInt c.voltageMv).toUInt32.toUInt16) =
      cells.voltagesMv := by
    refine List.ext_getElem (by simp [cellRows]) fun k hk _ => ?_
    simp only [cellRows, List.getElem_map, List.getElem_mapIdx, columnInt_uint16]
  have hResistances :
      (cellRows sampleId cells).map (fun c => (columnInt c.resistanceUohm).toUInt32.toUInt16) =
        cells.resistanceUohm.takeD cells.voltagesMv.length 0 := by
    refine List.ext_getElem (by simp [cellRows]) fun k hk _ => ?_
    simp only [cellRows, List.getElem_map, List.getElem_mapIdx, columnInt_uint16, getElem_takeD]
  unfold SampleRow.cells
  rw [hVoltages, hResistances]
  simp only [SampleRow.ofSample, columnInt_uint8, columnInt_uint16]

end BmsBridge
