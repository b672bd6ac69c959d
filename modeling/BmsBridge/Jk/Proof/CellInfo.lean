import BmsBridge.Jk.Proof.Assembler
import BmsBridge.Lib.Words
import Mathlib.Data.List.TakeWhile

/-! The two layouts of the cell-info frame.  `parse_cell_info` reads a frame by the layout that
bytes 54..57 suggest: a mask of the enabled cells there means 24 slots, anything else 32.  A 32S
frame has the voltages of cells 24 and 25 in these bytes, so the guess is wrong exactly when they
spell a mask.  The cell table ends at its first zero, whatever the mask says. -/

namespace BmsBridge

/-! ### Little-endian words -/

theorem le16_toNat (frame : List UInt8) (off : Nat) :
    (le16 frame off).toNat = (byteAt frame off).toNat + 256 * (byteAt frame (off + 1)).toNat := by
  have hLow := (byteAt frame off).toNat_lt
  have hHigh := (byteAt frame (off + 1)).toNat_lt
  have hShift : (byteAt frame (off + 1)).toNat <<< 8 % 65536 =
      (byteAt frame (off + 1)).toNat <<< 8 := by
    rw [Nat.shiftLeft_eq]
    omega
  simp only [le16, UInt16.toNat_or, UInt16.toNat_shiftLeft, UInt8.toNat_toUInt16]
  simp only [UInt16.reduceToNat, Nat.reduceMod, Nat.reducePow, hShift]
  exact Words.or_shiftLeft hLow

theorem le32_toNat (frame : List UInt8) (off : Nat) :
    (le32 frame off).toNat = (le16 frame off).toNat + 65536 * (le16 frame (off + 2)).toNat := by
  have h0 := (byteAt frame off).toNat_lt
  have h1 := (byteAt frame (off + 1)).toNat_lt
  have h2 := (byteAt frame (off + 2)).toNat_lt
  have h3 := (byteAt frame (off + 3)).toNat_lt
  have hShift {b k : Nat} (hb : b < 256) (hk : k ≤ 24) : b <<< k % 4294967296 = b <<< k := by
    have hPow : 2 ^ k ≤ 2 ^ 24 := Nat.pow_le_pow_right (by decide) hk
    have hMul := Nat.mul_le_mul (Nat.le_of_lt_succ hb) hPow
    rw [Nat.shiftLeft_eq]
    omega
  have hLow : (byteAt frame off).toNat + 2 ^ 8 * (byteAt frame (off + 1)).toNat < 2 ^ 16 := by
    omega
  have hMid : (byteAt frame off).toNat + 2 ^ 8 * (byteAt frame (off + 1)).toNat +
      2 ^ 16 * (byteAt frame (off + 2)).toNat < 2 ^ 24 := by omega
  rw [le16_toNat, le16_toNat, show off + 2 + 1 = off + 3 from rfl]
  simp only [le32, UInt32.toNat_or, UInt32.toNat_shiftLeft, UInt8.toNat_toUInt32]
  simp only [UInt32.reduceToNat, Nat.reduceMod, Nat.reducePow, hShift h1 (show 8 ≤ 24 by decide),
    hShift h2 (show 16 ≤ 24 by decide), hShift h3 (show 24 ≤ 24 by decide)]
  rw [Words.or_shiftLeft h0, Words.or_shiftLeft hLow, Words.or_shiftLeft hMid]
  omega

theorem looksLikeBitmask_iff (v : UInt32) :
    looksLikeBitmask v ↔ ∃ k, 4 ≤ k ∧ v.toNat = 2 ^ k - 1 := by
  have hSmall : 0x0F ≤ v ↔ 2 ^ 4 ≤ v.toNat + 1 := by
    rw [UInt32.le_iff_toNat_le]
    show 15 ≤ v.toNat ↔ 16 ≤ v.toNat + 1
    omega
  unfold looksLikeBitmask
  rw [decide_eq_true_iff, Words.succ_and_self_eq_zero, hSmall]
  have hExp {k : Nat} (hk : v.toNat = 2 ^ k - 1) : 2 ^ 4 ≤ v.toNat + 1 ↔ 4 ≤ k := by
    have hPos := Nat.two_pow_pos k
    rw [hk, Nat.sub_add_cancel hPos]
    exact Nat.pow_le_pow_iff_right (by decide)
  constructor
  · rintro ⟨hLow, k, hk⟩
    exact ⟨k, (hExp hk).mp hLow, hk⟩
  · rintro ⟨k, hLow, hk⟩
    exact ⟨(hExp hk).mpr hLow, k, hk⟩

/-- A mask wider than 16 bits has all of its low half set. -/
theorem low_half_of_mask {low high k : Nat} (hLow : low < 65536) (hHigh : 0 < high)
    (h : low + 65536 * high = 2 ^ k - 1) : low = 65535 := by
  have hPos := Nat.two_pow_pos k
  have hWide : 16 ≤ k := by
    apply Decidable.byContradiction
    intro hNarrow
    have hPow : 2 ^ k ≤ 2 ^ 15 := Nat.pow_le_pow_right (by decide) (by omega)
    omega
  obtain ⟨j, rfl⟩ := Nat.exists_eq_add_of_le hWide
  rw [Nat.pow_add] at h hPos
  omega

/-! ### Tables that end at their first zero -/

/-- The number of slots before the first zero of `f`, among the first `m`. -/
def usedSlots (f : Nat → UInt16) (m : Nat) : Nat :=
  (((List.range m).map f).takeWhile (· ≠ 0)).length

section Slots

variable {f : Nat → UInt16} {m n : Nat}

theorem usedSlots_le (f : Nat → UInt16) (m : Nat) : usedSlots f m ≤ m := by
  have hPrefix := List.takeWhile_prefix (l := (List.range m).map f) (· ≠ 0)
  rw [usedSlots]
  exact Nat.le_trans hPrefix.length_le (by simp)

theorem takeWhile_slots (f : Nat → UInt16) (m : Nat) :
    ((List.range m).map f).takeWhile (· ≠ 0) = (List.range (usedSlots f m)).map f := by
  have hPrefix := List.takeWhile_prefix (l := (List.range m).map f) (· ≠ 0)
  have hLen : usedSlots f m ≤ m := usedSlots_le f m
  have hTake := List.prefix_iff_eq_take.mp hPrefix
  rw [← List.map_take, List.take_range] at hTake
  rw [hTake]
  exact congrArg (fun k => (List.range k).map f) (Nat.min_eq_left hLen)

theorem usedSlots_ne_zero {i : Nat} (hi : i < usedSlots f m) : f i ≠ 0 := by
  have hMem : f i ∈ (List.range (usedSlots f m)).map f :=
    List.mem_map_of_mem (List.mem_range.mpr hi)
  rw [← takeWhile_slots] at hMem
  simpa using List.mem_takeWhile_imp hMem

theorem usedSlots_eq (hLen : n ≤ m) (hUsed : ∀ i < n, f i ≠ 0) (hRest : ∀ i < m, n ≤ i → f i = 0) :
    usedSlots f m = n := by
  have hSplit : (List.range m).map f =
      (List.range n).map f ++ List.replicate (m - n) 0 := by
    obtain ⟨k, rfl⟩ := Nat.exists_eq_add_of_le hLen
    rw [List.range_add, List.map_append, List.map_map, Nat.add_sub_cancel_left]
    refine congrArg (_ ++ ·) (List.eq_replicate_iff.mpr ⟨by simp, ?_⟩)
    intro v hv
    obtain ⟨i, hi, rfl⟩ := List.mem_map.mp hv
    rw [List.mem_range] at hi
    exact hRest (n + i) (by omega) (by omega)
  unfold usedSlots
  rw [hSplit, List.takeWhile_append_of_pos (by simpa using hUsed)]
  simp

/-- Of `n` slots with zeros behind them, all are used exactly when none of them is zero. -/
theorem usedSlots_eq_iff (hLen : n ≤ m) (hRest : ∀ i < m, n ≤ i → f i = 0) :
    usedSlots f m = n ↔ ∀ i < n, f i ≠ 0 :=
  ⟨fun h _ hi => usedSlots_ne_zero (h ▸ hi), fun hUsed => usedSlots_eq hLen hUsed hRest⟩

end Slots

/-! ### The two layouts -/

/-- Where a layout keeps what `parse_cell_info` reads, apart from the cell voltages, which stand at
6 in both. -/
structure CellInfoLayout where
  cellSlots : Nat
  resistance : Nat
  averageVoltage : Nat
  voltageDiff : Nat
  maxVoltageCell : Nat
  minVoltageCell : Nat
  voltage : Nat
  current : Nat
  batteryTemp1 : Nat
  batteryTemp2 : Nat
  powerTubeTemp : Nat
  errors : Nat
  balanceCurrent : Nat
  balancer : Nat
  stateOfCharge : Nat
  remainingCapacity : Nat
  totalCapacity : Nat
  cycleCount : Nat
  charging : Nat
  discharging : Nat

def layout24s : CellInfoLayout where
  cellSlots := 24
  resistance := 64
  averageVoltage := 58
  voltageDiff := 60
  maxVoltageCell := 62
  minVoltageCell := 63
  voltage := 118
  current := 126
  batteryTemp1 := 130
  batteryTemp2 := 132
  powerTubeTemp := 134
  errors := 136
  balanceCurrent := 138
  balancer := 140
  stateOfCharge := 141
  remainingCapacity := 142
  totalCapacity := 146
  cycleCount := 150
  charging := 166
  discharging := 167

def layout32s : CellInfoLayout where
  cellSlots := 32
  resistance := 80
  averageVoltage := 74
  voltageDiff := 76
  maxVoltageCell := 78
  minVoltageCell := 79
  voltage := 150
  current := 158
  batteryTemp1 := 162
  batteryTemp2 := 164
  powerTubeTemp := 144
  errors := 166
  balanceCurrent := 170
  balancer := 172
  stateOfCharge := 173
  remainingCapacity := 174
  totalCapacity := 178
  cycleCount := 182
  charging := 198
  discharging := 199

def cellVoltage (frame : List UInt8) (i : Nat) : UInt16 := le16 frame (6 + i * 2)

/-- A 1-based cell number of the frame as a 0-based index; 0 stays 0. -/
def cellIndex (b : UInt8) : UInt8 := if b ≠ 0 then b - 1 else 0

/-- The per-cell part of a frame that holds `n` cells in this layout. -/
def CellInfoLayout.cells (l : CellInfoLayout) (frame : List UInt8) (n : Nat) : JkCellInfo where
  voltagesMv := (List.range n).map (cellVoltage frame)
  resistanceUohm := (List.range n).map fun i => le16 frame (l.resistance + i * 2)
  averageVoltageMv := le16 frame l.averageVoltage
  voltageDiffMv := le16 frame l.voltageDiff
  maxVoltageCellIdx := cellIndex (byteAt frame l.maxVoltageCell)
  minVoltageCellIdx := cellIndex (byteAt frame l.minVoltageCell)

def CellInfoLayout.pack (l : CellInfoLayout) (frame : List UInt8) : JkPackInfo where
  voltageMv := le32s frame l.voltage
  currentMa := le32s frame l.current
  stateOfChargePct := byteAt frame l.stateOfCharge
  remainingCapacityMah := le32 frame l.remainingCapacity
  totalCapacityMah := le32 frame l.totalCapacity
  cycleCount := le32 frame l.cycleCount
  batteryTemp1DC := le16s frame l.batteryTemp1
  batteryTemp2DC := le16s frame l.batteryTemp2
  powerTubeTempDC := le16s frame l.powerTubeTemp
  chargingEnabled := byteAt frame l.charging ≠ 0
  dischargingEnabled := byteAt frame l.discharging ≠ 0
  balancerEnabled := byteAt frame l.balancer ≠ 0
  balanceCurrentMa := le16s frame l.balanceCurrent
  errorsBitmask := le16 frame l.errors

/-- A frame that passes the checks is read by the layout that bytes 54..57 suggest, with as many
cells as stand before the first zero of its table. -/
theorem parseCellInfo_eq {frame : List UInt8} (hFrame : ValidFrame frame)
    (hType : byteAt frame 4 = kJkFrameTypeCellInfo) :
    parseCellInfo frame =
      let l := if looksLikeBitmask (le32 frame 54) then layout24s else layout32s
      some (l.cells frame (usedSlots (cellVoltage frame) l.cellSlots), l.pack frame) := by
  obtain ⟨body, hBody⟩ := hFrame.magic
  have hMagic : startsWithResponseMagic frame := by
    rw [← hBody]
    simp [startsWithResponseMagic, byteAt, kJkResponseMagic]
  unfold parseCellInfo
  rw [if_neg (by rw [hFrame.length]; omega), if_neg (by simp [hMagic]), if_neg (by simp [hType])]
  have hTable (m : Nat) :
      ((List.range m).map fun i => le16 frame (6 + i * 2)).takeWhile (· ≠ 0) =
        (List.range (usedSlots (cellVoltage frame) m)).map (cellVoltage frame) :=
    takeWhile_slots (cellVoltage frame) m
  cases looksLikeBitmask (le32 frame 54) with
  | false | true =>
    simp only [hTable, List.length_map, List.length_range]
    rfl

/-! ### Frames in the 32S layout -/

/-- A 32S frame with `n` cells: voltages from 1 mV to 5 V in the first `n` slots and zeros in the
others. -/
structure Frame32s (frame : List UInt8) (n : Nat) : Prop where
  valid : ValidFrame frame
  type : byteAt frame 4 = kJkFrameTypeCellInfo
  low : 1 ≤ n
  high : n ≤ 32
  cell : ∀ i < n, 1 ≤ (cellVoltage frame i).toNat ∧ (cellVoltage frame i).toNat ≤ 5000
  rest : ∀ i < 32, n ≤ i → cellVoltage frame i = 0

theorem Frame32s.usedSlots {frame : List UInt8} {n : Nat} (h : Frame32s frame n) :
    usedSlots (cellVoltage frame) 32 = n := by
  refine usedSlots_eq h.high (fun i hi h0 => ?_) h.rest
  have hPos := (h.cell i hi).1
  rw [h0] at hPos
  cases hPos

/-- A 32S frame spells a mask in bytes 54..57 exactly when it holds 25 cells and the voltage of the
last is all ones. -/
theorem Frame32s.looksLikeBitmask {frame : List UInt8} {n : Nat} (h : Frame32s frame n) :
    looksLikeBitmask (le32 frame 54) ↔
      n = 25 ∧ ∃ k, 4 ≤ k ∧ (cellVoltage frame 24).toNat = 2 ^ k - 1 := by
  have hWord : (le32 frame 54).toNat =
      (cellVoltage frame 24).toNat + 65536 * (cellVoltage frame 25).toNat := le32_toNat frame 54
  have hMask {k : Nat} (hk : 4 ≤ k) : 15 ≤ 2 ^ k - 1 :=
    Nat.sub_le_sub_right (Nat.pow_le_pow_right (n := 2) (by decide) hk) 1
  have hEmpty (i : Nat) (hi : i < 32) (hn : n ≤ i) : (cellVoltage frame i).toNat = 0 := by
    rw [h.rest i hi hn]
    rfl
  rw [looksLikeBitmask_iff, hWord]
  by_cases hShort : n ≤ 24
  · -- Both cells are absent, and a mask is never zero.
    rw [hEmpty 24 (by decide) hShort, hEmpty 25 (by decide) (by omega)]
    constructor
    · rintro ⟨k, hk, hZero⟩
      have := hMask hk
      omega
    · rintro ⟨rfl, -⟩
      exact absurd hShort (by decide)
  by_cases hLong : 26 ≤ n
  · -- Cell 25 makes the word wider than 16 bits, and then cell 24 would be all ones.
    have hLow := (h.cell 24 (by omega)).2
    have hHigh := (h.cell 25 (by omega)).1
    constructor
    · rintro ⟨k, -, hk⟩
      have := low_half_of_mask (by omega) hHigh hk
      omega
    · rintro ⟨rfl, -⟩
      exact absurd hLong (by decide)
  · obtain rfl : n = 25 := by omega
    rw [hEmpty 25 (by decide) (by decide), Nat.mul_zero, Nat.add_zero]
    exact (and_iff_right rfl).symm

/-- A 32S frame is read as one, field by field, exactly when it does not hold 25 cells of which the
last has a voltage of the form `2 ^ k - 1` with at least four ones; otherwise it is taken for a 24S
frame. -/
theorem parseCellInfo_32s (frame : List UInt8) (n : Nat) (h : Frame32s frame n) :
    parseCellInfo frame = some (layout32s.cells frame n, layout32s.pack frame) ↔
      ¬(n = 25 ∧ ∃ k, 4 ≤ k ∧ (cellVoltage frame 24).toNat = 2 ^ k - 1) := by
  rw [← h.looksLikeBitmask, parseCellInfo_eq h.valid h.type]
  by_cases hMask : BmsBridge.looksLikeBitmask (le32 frame 54)
  · -- A 24S table has no room for the 25 voltages.
    rw [if_pos hMask]
    have hLen := usedSlots_le (cellVoltage frame) 24
    have hFull := (h.looksLikeBitmask.mp hMask).1
    refine iff_of_false (fun hEq => ?_) (not_not_intro hMask)
    have hCount := congrArg (fun r => r.map fun x => x.1.voltagesMv.length) hEq
    simp only [CellInfoLayout.cells, Option.map_some, List.length_map, List.length_range,
      Option.some.injEq] at hCount
    exact absurd (hCount ▸ hLen : n ≤ 24) (by omega)
  · rw [if_neg hMask]
    refine iff_of_true ?_ hMask
    show some (layout32s.cells frame (BmsBridge.usedSlots (cellVoltage frame) 32), _) = _
    rw [h.usedSlots]

/-- 16 cells at 3300 mV. -/
def cells16 : List UInt8 :=
  kJkResponseMagic ++ [0x02, 0x00] ++ (List.replicate 16 [0xE4, 0x0C]).flatten ++
    List.replicate 261 0 ++ [0x7C]

theorem parseCellInfo_32s_cells16 :
    parseCellInfo cells16 = some (layout32s.cells cells16 16, layout32s.pack cells16) ↔
      ¬(16 = 25 ∧ ∃ k, 4 ≤ k ∧ (cellVoltage cells16 24).toNat = 2 ^ k - 1) :=
  parseCellInfo_32s cells16 16 ⟨by decide +kernel, by decide +kernel, by decide, by decide,
    by decide +kernel, by decide +kernel⟩

/-- 25 cells at 4095 mV. -/
def cells25 : List UInt8 :=
  kJkResponseMagic ++ [0x02, 0x00] ++ (List.replicate 25 [0xFF, 0x0F]).flatten ++
    List.replicate 243 0 ++ [0xDA]

theorem parseCellInfo_32s_taken_for_24s :
    ¬∀ (frame : List UInt8) (n : Nat), Frame32s frame n →
      parseCellInfo frame = some (layout32s.cells frame n, layout32s.pack frame) := by
  intro hAll
  have hEq := hAll cells25 25 ⟨by decide +kernel, by decide +kernel, by decide, by decide,
    by decide +kernel, by decide +kernel⟩
  exact absurd hEq (by decide +kernel)

/-! ### Frames in the 24S layout -/

/-- A 24S frame whose mask enables the first `n` cells; the other slots hold zeros, and the cells
with the extreme voltages are enabled ones. -/
structure Frame24s (frame : List UInt8) (n : Nat) : Prop where
  valid : ValidFrame frame
  type : byteAt frame 4 = kJkFrameTypeCellInfo
  low : 4 ≤ n
  high : n ≤ 24
  mask : (le32 frame 54).toNat = 2 ^ n - 1
  rest : ∀ i < 24, n ≤ i → cellVoltage frame i = 0
  maxCell : 1 ≤ (byteAt frame 62).toNat ∧ (byteAt frame 62).toNat ≤ n
  minCell : 1 ≤ (byteAt frame 63).toNat ∧ (byteAt frame 63).toNat ≤ n

theorem cellIndex_toNat_lt {b : UInt8} {n : Nat} (h : 1 ≤ b.toNat ∧ b.toNat ≤ n) :
    (cellIndex b).toNat < n := by
  have hNe : b ≠ 0 := by
    rintro rfl
    exact absurd h.1 (by decide)
  have hOne : (1 : UInt8) ≤ b := UInt8.le_iff_toNat_le.mpr h.1
  rw [cellIndex, if_pos hNe, UInt8.toNat_sub_of_le b 1 hOne]
  show b.toNat - 1 < n
  omega

/-- What a reader of the cell list relies on: one voltage and one resistance for each of the `n`
enabled cells, and extreme cells that are among them. -/
def AllCells (r : Option (JkCellInfo × JkPackInfo)) (n : Nat) : Prop :=
  ∃ cells pack, r = some (cells, pack) ∧
    cells.voltagesMv.length = n ∧ cells.resistanceUohm.length = n ∧
      cells.maxVoltageCellIdx.toNat < cells.voltagesMv.length ∧
        cells.minVoltageCellIdx.toNat < cells.voltagesMv.length

/-- No enabled cell of a 24S frame is missing exactly when none of them reports 0 mV: the first
that does ends the list. -/
theorem parseCellInfo_24s (frame : List UInt8) (n : Nat) (h : Frame24s frame n) :
    AllCells (parseCellInfo frame) n ↔ ∀ i < n, cellVoltage frame i ≠ 0 := by
  have hMask : looksLikeBitmask (le32 frame 54) :=
    (looksLikeBitmask_iff _).mpr ⟨n, h.low, h.mask⟩
  rw [parseCellInfo_eq h.valid h.type, if_pos hMask, ← usedSlots_eq_iff h.high h.rest]
  show AllCells (some (layout24s.cells frame (usedSlots (cellVoltage frame) 24), _)) n ↔ _
  generalize usedSlots (cellVoltage frame) 24 = m
  constructor
  · rintro ⟨cells, pack, hEq, hLen, -⟩
    obtain ⟨rfl, -⟩ := Prod.mk.inj (Option.some.inj hEq)
    simpa [CellInfoLayout.cells] using hLen
  · rintro rfl
    refine ⟨_, _, rfl, ?_⟩
    simp only [CellInfoLayout.cells, List.length_map, List.length_range, true_and]
    exact ⟨cellIndex_toNat_lt h.maxCell, cellIndex_toNat_lt h.minCell⟩

/-- Four enabled cells of which the third reports 0 mV; the fourth has the highest voltage. -/
def deadCell : List UInt8 :=
  kJkResponseMagic ++ [0x02, 0x00, 0xE4, 0x0C, 0xE4, 0x0C, 0x00, 0x00, 0xE4, 0x0C] ++
    List.replicate 40 0 ++ [0x0F, 0, 0, 0, 0, 0, 0, 0, 4, 1] ++ List.replicate 235 0 ++ [0x60]

theorem deadCell_24s : Frame24s deadCell 4 :=
  ⟨by decide +kernel, by decide +kernel, by decide, by decide, by decide +kernel,
    by decide +kernel, by decide +kernel, by decide +kernel⟩

theorem parseCellInfo_24s_deadCell :
    AllCells (parseCellInfo deadCell) 4 ↔ ∀ i < 4, cellVoltage deadCell i ≠ 0 :=
  parseCellInfo_24s deadCell 4 deadCell_24s

theorem parseCellInfo_24s_cell_lost :
    ¬∀ (frame : List UInt8) (n : Nat), Frame24s frame n → AllCells (parseCellInfo frame) n := by
  intro hAll
  obtain ⟨cells, pack, hEq, hLen, -⟩ := hAll deadCell 4 deadCell_24s
  have hCount : (parseCellInfo deadCell).map (fun r => r.1.voltagesMv.length) = some 2 := by
    decide +kernel
  rw [hEq, Option.map_some, hLen] at hCount
  cases hCount

end BmsBridge
