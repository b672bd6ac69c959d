import BmsBridge.Bridge.Proof.AddressMap
import BmsBridge.Jk.Proof.Slicing

/-! The answer of one slot: when its divisions fault, and what it is when they do not. -/

namespace BmsBridge

open Words

/-! ### Divisions -/

theorem toUInt32_ne_zero {n : UInt8} (hn : n ≠ 0) : n.toUInt32 ≠ 0 := by
  intro h
  apply hn
  apply UInt8.toNat_inj.mp
  have := congrArg UInt32.toNat h
  rwa [UInt8.toNat_toUInt32] at this

def slicedPack (n : UInt8) (pack : JkPackInfo) : JkPackInfo :=
  { pack with
    currentMa := pack.currentMa / n.toUInt32.toInt32
    remainingCapacityMah := pack.remainingCapacityMah / n.toUInt32
    totalCapacityMah := pack.totalCapacityMah / n.toUInt32 }

def slicedLimits (n : UInt8) (lim : JkSettings) : JkSettings :=
  { lim with
    maxChargeCurrentMa := lim.maxChargeCurrentMa / n.toUInt32
    maxDischargeCurrentMa := lim.maxDischargeCurrentMa / n.toUInt32 }

theorem moduleSlice_ok {n : UInt8} (hn : n ≠ 0) (pack : JkPackInfo) (lim : JkSettings) :
    moduleSlice n pack lim = .ok (slicedPack n pack, slicedLimits n lim) := by
  have hWord := toUInt32_ne_zero hn
  have hInt : n.toUInt32.toInt32 ≠ 0 := by
    intro h
    apply hWord
    rw [← UInt32.toUInt32_toInt32 n.toUInt32, h]
    rfl
  simp only [moduleSlice, sdiv_ok hInt, udiv_ok hWord]
  rfl

/-- What a slot takes its slice from. -/
def slotPack (slot : Slot) (capacity : Int32) (pack : JkPackInfo) (lim : JkSettings) :
    JkPackInfo × JkSettings :=
  if slot.mirror.isSome then reserveOverride capacity pack lim else (pack, lim)

theorem answer_eq {slot : Slot} (hCount : slot.moduleCount ≠ 0) (capacity : Int32)
    (cells : JkCellInfo) (pack : JkPackInfo) (lim : JkSettings) (f : PylontechFrame) :
    answer slot capacity cells pack lim f =
      buildResponse f cells (slicedPack slot.moduleCount (slotPack slot capacity pack lim).1)
        (slicedLimits slot.moduleCount (slotPack slot capacity pack lim).2) := by
  rw [answer, slotPack]
  generalize (if slot.mirror.isSome then reserveOverride capacity pack lim else (pack, lim)) = slice
  cases slice
  simp only [moduleSlice_ok hCount]
  rfl

/-! ### Readiness -/

/-- A battery that is ready to be shown: its data is fresh and complete. -/
structure Ready (s : SharedState) (now : Int) (cells : JkCellInfo) (pack : JkPackInfo)
    (lim : JkSettings) : Prop where
  fresh : s.isFresh now kFreshFor
  cells : s.cells = some cells
  pack : s.pack = some pack
  settings : s.settings = some lim

theorem ready_iff {s : SharedState} {now : Int} :
    (∃ cells pack lim, Ready s now cells pack lim) ↔ s.isFresh now kFreshFor ∧ s.settings.isSome := by
  constructor
  · rintro ⟨cells, pack, lim, hReady⟩
    exact ⟨hReady.fresh, by rw [hReady.settings]; rfl⟩
  · rintro ⟨hFresh, hSettings⟩
    obtain ⟨-, hCells, hPack, -⟩ := of_decide_eq_true hFresh
    obtain ⟨cells, hCells⟩ := Option.isSome_iff_exists.mp hCells
    obtain ⟨pack, hPack⟩ := Option.isSome_iff_exists.mp hPack
    obtain ⟨lim, hLim⟩ := Option.isSome_iff_exists.mp hSettings
    exact ⟨cells, pack, lim, hFresh, hCells, hPack, hLim⟩

section Respond

variable {slots : List Slot} {b : Batteries} {now : Int} {f : PylontechFrame} {slot : Slot}

theorem respond_ready {cells : JkCellInfo} {pack : JkPackInfo} {lim : JkSettings}
    (hBase : ¬f.adr < kBaseAddress) (hSlot : slots[(f.adr - kBaseAddress).toNat]? = some slot)
    (hReady : Ready (b.states slot.source) now cells pack lim) :
    respond slots b now f = answer slot (ownerCapacity b.configs slot) cells pack lim f := by
  rw [respond, if_neg hBase, hSlot]
  simp only [hReady.fresh, hReady.cells, hReady.pack, hReady.settings, ↓reduceIte]

theorem respond_not_ready (hBase : ¬f.adr < kBaseAddress)
    (hSlot : slots[(f.adr - kBaseAddress).toNat]? = some slot)
    (hNot : ¬∃ cells pack lim, Ready (b.states slot.source) now cells pack lim) :
    respond slots b now f = .ok none := by
  rw [respond, if_neg hBase, hSlot]
  simp only
  split
  · rename_i hFresh
    split
    · rename_i cells pack lim hCells hPack hLim
      exact absurd ⟨cells, pack, lim, hFresh, hCells, hPack, hLim⟩ hNot
    · rfl
  · rfl

end Respond

/-! ### Faults -/

theorem buildResponse_fault (f : PylontechFrame) (cells : JkCellInfo) (pack : JkPackInfo)
    (lim : JkSettings) : buildResponse f cells pack lim = .error .divByZero ↔
      f.cid2 = 0x42 ∧ 4294902297 ≤ pack.totalCapacityMah.toNat := by
  rw [← scaleCapacityToU16_fault pack.totalCapacityMah pack.remainingCapacityMah, buildResponse]
  by_cases hAnalog : f.cid2 = 0x42
  · rw [if_pos hAnalog, buildAnalogResponse]
    cases hCap : scaleCapacityToU16 pack.totalCapacityMah pack.remainingCapacityMah with
    | error fault => cases fault; exact ⟨fun _ => ⟨hAnalog, rfl⟩, fun _ => rfl⟩
    | ok cap => exact ⟨fun h => (nomatch h), fun h => (nomatch h.2)⟩
  · rw [if_neg hAnalog]
    constructor
    · intro h
      split at h
      · cases h
      · split at h
        · cases h
        · split at h <;> cases h
    · rintro ⟨hCid, -⟩
      exact absurd hCid hAnalog

/-- The total of a reserve's slice is far below the faulting totals. -/
theorem reserve_total_lt {capMah : UInt32} {n : UInt8} (hCount : n = moduleCountForCapacity capMah)
    (hNe : n.toNat ≠ 0) : capMah.toNat / n.toNat < 4294902297 := by
  have hCap := capMah.toNat_lt
  have hDiv := Nat.div_le_self capMah.toNat n.toNat
  rw [hCount, toNat_moduleCountForCapacity] at hNe
  split at hNe <;> omega

/-- Answering divides by zero exactly when a monitored battery's only module reports, to an analog
request, a total capacity that wraps the scale. -/
theorem answer_fault_iff (batteries : List BatteryConfig) (slot : Slot)
    (hSlot : slot ∈ buildAddressMap batteries) (cells : JkCellInfo) (pack : JkPackInfo)
    (lim : JkSettings) (f : PylontechFrame) :
    answer slot (ownerCapacity batteries slot) cells pack lim f ≠ .error .divByZero ↔
      ¬(slot.mirror = none ∧ slot.moduleCount = 1 ∧ f.cid2 = 0x42 ∧
        4294902297 ≤ pack.totalCapacityMah.toNat) := by
  obtain ⟨b, hOwner, -, hCount, hNe⟩ := mem_buildAddressMap hSlot
  have hCapacity : ownerCapacity batteries slot = b.capacity := by
    rw [ownerCapacity, hOwner]
    rfl
  have hCountNe : slot.moduleCount ≠ 0 := fun h => hNe (by rw [h]; rfl)
  rw [answer_eq hCountNe, hCapacity, Ne, buildResponse_fault, not_iff_not]
  cases hMirror : slot.mirror with
  | none =>
    have hTotal := pack.totalCapacityMah.toNat_lt
    simp only [slotPack, hMirror, slicedPack, UInt32.toNat_div, UInt8.toNat_toUInt32,
      Option.isSome_none, Bool.false_eq_true, ↓reduceIte, true_and]
    constructor
    · rintro ⟨hCid, hTop⟩
      have hOne : slot.moduleCount.toNat = 1 := by
        by_contra hMany
        have := Nat.div_le_div_left (show 2 ≤ slot.moduleCount.toNat by omega) (by omega)
          (a := pack.totalCapacityMah.toNat)
        omega
      rw [hOne, Nat.div_one] at hTop
      exact ⟨UInt8.toNat_inj.mp hOne, hCid, hTop⟩
    · rintro ⟨hOne, hCid, hTop⟩
      refine ⟨hCid, ?_⟩
      rw [hOne]
      simpa using hTop
  | some mirror =>
    have hReserve := reserve_total_lt hCount hNe
    simp only [slotPack, hMirror, slicedPack, reserveOverride, UInt32.toNat_div,
      UInt8.toNat_toUInt32, Option.isSome_some, ↓reduceIte]
    constructor
    · rintro ⟨-, hTop⟩
      exact absurd hReserve (Nat.not_lt.mpr hTop)
    · rintro ⟨hNone, -⟩
      cases hNone

/-- A monitored battery of 50 Ah, which is one module. -/
def oneModule : BatteryConfig where
  name := "main"
  link := .bluetooth
  address := "C8:47:8C:E1:00:01"
  capacity := 50
  protocol := "jk_bt"

/-- A cell-info frame with four cells: the current, then the state of charge with the remaining and the
total capacity. -/
def fourCells (current charge : List UInt8) (checksum : UInt8) : List UInt8 :=
  kJkResponseMagic ++ [0x02, 0x00, 0xE4, 0x0C, 0xEE, 0x0C, 0xF8, 0x0C, 0xDA, 0x0C] ++
    List.replicate 40 0 ++ [0x0F, 0, 0, 0, 0xE9, 0x0C, 0x1E, 0, 3, 4, 90, 0, 91, 0, 92, 0, 93] ++
    List.replicate 47 0 ++ [0xA4, 0x33] ++ List.replicate 6 0 ++ current ++
    [0xFA, 0, 0xF5, 0, 0x2C, 0x01] ++ List.replicate 5 0 ++ charge ++ [12] ++ List.replicate 15 0 ++
    [1, 1] ++ List.replicate 131 0 ++ [checksum]

/-- A battery of 50 Ah at half charge, charging at 5 A. -/
def halfCharged : List UInt8 :=
  fourCells [0x88, 0x13, 0, 0] [50, 0xA8, 0x61, 0, 0, 0x50, 0xC3, 0, 0] 0xD1

def readyCells : JkCellInfo where
  voltagesMv := [3300, 3310, 3320, 3290]
  resistanceUohm := [90, 91, 92, 93]
  averageVoltageMv := 3305
  voltageDiffMv := 30
  maxVoltageCellIdx := 2
  minVoltageCellIdx := 3

def readyPack : JkPackInfo where
  voltageMv := 13220
  currentMa := 5000
  stateOfChargePct := 50
  remainingCapacityMah := 25000
  totalCapacityMah := 50000
  cycleCount := 12
  batteryTemp1DC := 250
  batteryTemp2DC := 245
  powerTubeTempDC := 300
  chargingEnabled := true
  dischargingEnabled := true

theorem halfCharged_parsed : parseCellInfo halfCharged = some (readyCells, readyPack) := by
  decide +kernel

def readySettings : JkSettings where
  cellUvpMv := 2800
  cellOvpMv := 3650
  maxChargeCurrentMa := 25000
  maxDischargeCurrentMa := 50000

/-- A battery that has reported everything just now. -/
def readyState : SharedState where
  connected := true
  cells := some readyCells
  pack := some readyPack
  settings := some readySettings

theorem readyState_ready : Ready readyState 0 readyCells readyPack readySettings :=
  ⟨by decide, rfl, rfl, rfl⟩

def readyBatteries : Batteries where
  configs := [oneModule]
  states := fun _ => readyState

theorem answer_fault_iff_one_module :
    answer { battery := 0 } (ownerCapacity [oneModule] { battery := 0 }) {}
        { totalCapacityMah := 65000 } {} { adr := 2, cid2 := 0x42 } ≠ .error .divByZero ↔
      ¬((none : Option Nat) = none ∧ (1 : UInt8) = 1 ∧ (0x42 : UInt8) = 0x42 ∧
        4294902297 ≤ (65000 : UInt32).toNat) :=
  answer_fault_iff [oneModule] { battery := 0 } (by decide) {} { totalCapacityMah := 65000 } {}
    { adr := 2, cid2 := 0x42 }

/-- A valid cell-info frame whose total capacity is all ones. -/
def wrappingTotal : List UInt8 :=
  kJkResponseMagic ++ [0x02] ++ List.replicate 173 0 ++ [0xFF, 0xFF, 0xFF, 0xFF] ++
    List.replicate 117 0 ++ [0x78]

theorem answer_faults_on_wrapping_total :
    ¬∀ (batteries : List BatteryConfig) (slot : Slot), slot ∈ buildAddressMap batteries →
      ∀ (frame : List UInt8) (cells : JkCellInfo) (pack : JkPackInfo),
        parseCellInfo frame = some (cells, pack) → ∀ (settingsFrame : List UInt8) (lim : JkSettings),
          parseSettings settingsFrame = some lim → ∀ f : PylontechFrame,
            answer slot (ownerCapacity batteries slot) cells pack lim f ≠ .error .divByZero := by
  intro h
  refine h [oneModule] { battery := 0 } (by decide) wrappingTotal {}
    { totalCapacityMah := 0xFFFFFFFF } (by decide +kernel) emptySettings
    ((parseSettings emptySettings).get (by decide +kernel)) (Option.some_get _).symm
    { adr := 2, cid2 := 0x42 } ?_
  rfl

end BmsBridge
