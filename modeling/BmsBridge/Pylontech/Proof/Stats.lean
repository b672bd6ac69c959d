import BmsBridge.Lib.Extremes
import BmsBridge.Pylontech.Proof.Master
import BmsBridge.Pylontech.Proof.Payload
import Mathlib.Algebra.Ring.Nat

/-! What `fill_cell_stats` adds to the cells of an analog response: the average, the spread, and the
first cells of the highest and of the lowest voltage. -/

namespace BmsBridge

open Extremes

theorem ranks_lt : Ranks fun a b : UInt16 => a < b where
  asymm := by
    intro a b h
    rw [UInt16.lt_iff_toNat_lt] at h ⊢
    omega
  split := by
    intro a b c h
    rw [UInt16.lt_iff_toNat_lt] at h
    rw [UInt16.lt_iff_toNat_lt, UInt16.lt_iff_toNat_lt]
    omega

theorem ranks_gt : Ranks fun a b : UInt16 => b < a where
  asymm h := ranks_lt.asymm h
  split c h := (ranks_lt.split c h).symm

def voltageSum (cells : List UInt16) : Nat := (cells.map UInt16.toNat).sum

/-- What the loop has seen of the cells so far. -/
structure CellScan.Tracks (s : CellScan) (cells : List UInt16) : Prop where
  sum : s.sum.toNat = voltageSum cells % 4294967296
  lowest : ∃ i, FirstBest (fun a b : UInt16 => a < b) cells i s.lo ∧ s.loIdx = UInt8.ofNat i
  highest : ∃ i, FirstBest (fun a b : UInt16 => b < a) cells i s.hi ∧ s.hiIdx = UInt8.ofNat i

theorem CellScan.Tracks.first (v : UInt16) :
    (({ lo := v, hi := v } : CellScan).step v 0).Tracks [v] := by
  have hNot : ¬ v < v := fun h => ranks_lt.asymm h h
  have hStep : ({ lo := v, hi := v } : CellScan).step v 0 =
      { sum := 0 + v.toUInt32, lo := v, hi := v } := by
    simp only [CellScan.step, if_neg hNot]
  rw [hStep]
  refine ⟨?_, ⟨0, .singleton ranks_lt v, rfl⟩, ⟨0, .singleton ranks_gt v, rfl⟩⟩
  have hv := v.toNat_lt
  simp only [voltageSum, List.map_cons, List.map_nil, List.sum_singleton, UInt32.toNat_add,
    UInt16.toNat_toUInt32, UInt32.toNat_zero]
  omega

theorem CellScan.Tracks.step {s : CellScan} {cells : List UInt16} (h : s.Tracks cells) (v : UInt16) :
    (s.step v cells.length).Tracks (cells ++ [v]) := by
  obtain ⟨hSum, ⟨lo, hLo, hLoIdx⟩, ⟨hi, hHi, hHiIdx⟩⟩ := h
  refine ⟨?_, ?_, ?_⟩
  · simp only [CellScan.step, voltageSum, List.map_append, List.map_cons, List.map_nil, List.sum_append,
      List.sum_singleton, UInt32.toNat_add, UInt16.toNat_toUInt32, hSum]
    omega
  · by_cases hv : v < s.lo
    · refine ⟨cells.length, ?_, ?_⟩
      · simp only [CellScan.step, if_pos hv]
        exact hLo.improved ranks_lt hv
      · simp only [CellScan.step, if_pos hv]
    · refine ⟨lo, ?_, ?_⟩
      · simp only [CellScan.step, if_neg hv]
        exact hLo.kept hv
      · simp only [CellScan.step, if_neg hv, hLoIdx]
  · by_cases hv : s.hi < v
    · refine ⟨cells.length, ?_, ?_⟩
      · simp only [CellScan.step, if_pos hv]
        exact hHi.improved ranks_gt hv
      · simp only [CellScan.step, if_pos hv]
    · refine ⟨hi, ?_, ?_⟩
      · simp only [CellScan.step, if_neg hv]
        exact hHi.kept hv
      · simp only [CellScan.step, if_neg hv, hHiIdx]

theorem CellScan.Tracks.loop {s : CellScan} {cells : List UInt16} (h : s.Tracks cells)
    (more : List UInt16) :
    ((more.zipIdx cells.length).foldl (fun (s : CellScan) (v, i) => s.step v i) s).Tracks
      (cells ++ more) := by
  induction more generalizing s cells with
  | nil =>
    rw [List.append_nil]
    exact h
  | cons v more ih =>
    have hNext := ih (h.step v)
    rw [List.append_assoc, List.length_append, List.length_singleton] at hNext
    exact hNext

/-- The statistics of cells, with the highest and the lowest voltage. -/
structure ExactStats (c : JkCellInfo) (hi lo : UInt16) : Prop where
  average : c.averageVoltageMv.toNat = voltageSum c.voltagesMv / c.voltagesMv.length
  diff : c.voltageDiffMv.toNat + lo.toNat = hi.toNat
  highest : FirstBest (fun a b : UInt16 => b < a) c.voltagesMv c.maxVoltageCellIdx.toNat hi
  lowest : FirstBest (fun a b : UInt16 => a < b) c.voltagesMv c.minVoltageCellIdx.toNat lo

theorem voltageSum_le (cells : List UInt16) : voltageSum cells ≤ 65535 * cells.length := by
  induction cells with
  | nil => exact Nat.zero_le _
  | cons v cells ih =>
    have hv := v.toNat_lt
    simp only [voltageSum, List.map_cons, List.sum_cons, List.length_cons] at ih ⊢
    omega

/-- Of up to 256 cells neither the sum nor an index wraps. -/
theorem fillCellStats_exact {c : JkCellInfo} (hSome : c.voltagesMv ≠ [])
    (hFew : c.voltagesMv.length ≤ 256) : ∃ hi lo, ExactStats (fillCellStats c) hi lo := by
  cases hCells : c.voltagesMv with
  | nil => exact absurd hCells hSome
  | cons v more =>
    let s := c.voltagesMv.zipIdx.foldl (fun (s : CellScan) (v, i) => s.step v i) { lo := v, hi := v }
    have hStats : fillCellStats c = { c with
        averageVoltageMv := UInt16.ofNat (s.sum.toNat / c.voltagesMv.length)
        voltageDiffMv := s.hi - s.lo
        maxVoltageCellIdx := s.hiIdx
        minVoltageCellIdx := s.loIdx } := by
      simp only [fillCellStats]
      split
      · rename_i hNone
        exact absurd hNone hSome
      · rename_i first rest hSplit
        obtain ⟨rfl, -⟩ := List.cons.inj (hSplit.symm.trans hCells)
        rfl
    have hTracks : s.Tracks c.voltagesMv := by
      have hLoop := (CellScan.Tracks.first v).loop more
      simp only [s, hCells]
      exact hLoop
    obtain ⟨hSum, ⟨lo, hLo, hLoIdx⟩, ⟨hi, hHi, hHiIdx⟩⟩ := hTracks
    have hLoLow := (List.getElem?_eq_some_iff.mp hLo.found).1
    have hHiLow := (List.getElem?_eq_some_iff.mp hHi.found).1
    have hBound := voltageSum_le c.voltagesMv
    have hIdx {i : Nat} (hi : i < c.voltagesMv.length) : (UInt8.ofNat i).toNat = i :=
      toNat_countByte (by omega)
    refine ⟨s.hi, s.lo, ?_⟩
    rw [hStats]
    have hDiv : s.sum.toNat / c.voltagesMv.length ≤ 65535 := by
      rw [hSum, Nat.mod_eq_of_lt (by omega)]
      exact Nat.div_le_of_le_mul (by rw [Nat.mul_comm]; exact hBound)
    have hOrder : s.lo.toNat ≤ s.hi.toNat := by
      have hNot := hHi.bound s.lo (List.mem_of_getElem? hLo.found)
      rw [UInt16.lt_iff_toNat_lt] at hNot
      omega
    refine ⟨?_, ?_, ?_, ?_⟩
    · rw [UInt16.toNat_ofNat', Nat.mod_eq_of_lt (by omega), hSum, Nat.mod_eq_of_lt (by omega)]
    · rw [UInt16.toNat_sub_of_le _ _ (UInt16.le_iff_toNat_le.mpr hOrder)]
      omega
    · simp only [hHiIdx, hIdx hHiLow]
      exact hHi
    · simp only [hLoIdx, hIdx hLoLow]
      exact hLo

/-- Cells that have been counted out exactly; without cells all statistics are zero. -/
def HasStats (c : JkCellInfo) : Prop :=
  if c.voltagesMv = [] then c = {} else ∃ hi lo, ExactStats c hi lo

/-- Whatever bytes the master has got, now and before: the cells that it reports have exact
statistics. -/
theorem feed_hasStats {p : PylontechMasterProtocol} {data : List UInt8} {t : Telemetry}
    (h : (p.feed data).1.telemetry = some t) : HasStats t.cells := by
  obtain ⟨info, a, hRead, rfl⟩ := p.feed_telemetry h
  have hFew := AnalogResponse.length_cells_le hRead
  have hCells : (PylontechMasterProtocol.telemetryOfAnalog a).cells =
      fillCellStats { voltagesMv := a.cellVoltagesMv } := rfl
  rw [HasStats, hCells, fillCellStats_voltages]
  split
  · rename_i hNone
    simp only at hNone
    rw [hNone]
    rfl
  · rename_i hSome
    exact fillCellStats_exact hSome (Nat.le_succ_of_le hFew)

end BmsBridge
