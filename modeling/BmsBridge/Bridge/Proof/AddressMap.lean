import BmsBridge.Bridge.Inverter
import BmsBridge.Pylontech.Proof.Responders
import Mathlib.Algebra.Order.BigOperators.Group.List
import Mathlib.Algebra.Order.Group.Nat
import Mathlib.Algebra.Order.Ring.Int

/-! The address map.  A battery takes as many slots as its configured capacity needs modules, in
32-bit arithmetic and up to 255, so the map is sound exactly when no capacity leaves 32 bits and the
modules of all batteries fit the addresses from 2 to 255. -/

namespace BmsBridge

open Words

/-! ### Module counts -/

def modulesNeeded (b : BatteryConfig) : Nat := max 1 ((b.capMah.toNat + 64999) / 65000)

/-- Up to 254, the slots of a battery are the modules that it needs, or there are none. -/
theorem moduleCount_eq {b : BatteryConfig} :
    let n := (moduleCountForCapacity b.capMah).toNat
    (n = 0 ∨ n = 255 ∨ n = modulesNeeded b) ∧ (modulesNeeded b ≤ 254 → n = modulesNeeded b) := by
  have hCap := b.capMah.toNat_lt
  simp only [toNat_moduleCountForCapacity, modulesNeeded]
  split <;> omega

theorem toNat_capMah (b : BatteryConfig) :
    (b.capMah.toNat : Int) = b.capacity.toInt * 1000 % 4294967296 := by
  have hWord := toNat_toUInt32 b.capacity
  rw [BatteryConfig.capMah, UInt32.toNat_mul]
  simp only [UInt32.reduceToNat]
  omega

/-! ### The map -/

theorem length_slotsOf (batteries : List BatteryConfig) (i : Nat) (b : BatteryConfig) :
    (slotsOf batteries i b).length = (moduleCountForCapacity b.capMah).toNat := by
  rw [slotsOf, List.length_replicate]

theorem length_buildAddressMap (batteries : List BatteryConfig) :
    (buildAddressMap batteries).length =
      (batteries.map fun b => (moduleCountForCapacity b.capMah).toNat).sum := by
  rw [buildAddressMap, List.length_flatten, List.mapIdx_eq_zipIdx_map, List.map_map]
  congr 1
  have hMap := congrArg (List.map fun b : BatteryConfig => (moduleCountForCapacity b.capMah).toNat)
    (List.zipIdx_map_fst 0 batteries)
  rw [List.map_map] at hMap
  rw [← hMap]
  exact List.map_congr_left fun p _ => length_slotsOf batteries p.2 p.1

theorem mem_buildAddressMap {batteries : List BatteryConfig} {slot : Slot}
    (h : slot ∈ buildAddressMap batteries) :
    ∃ b, batteries[slot.battery]? = some b ∧ slot.mirror = findMirror batteries b ∧
      slot.moduleCount = moduleCountForCapacity b.capMah ∧ slot.moduleCount.toNat ≠ 0 := by
  obtain ⟨block, hBlock, hSlot⟩ := List.mem_flatten.mp h
  obtain ⟨i, hi, rfl⟩ := List.mem_mapIdx.mp hBlock
  obtain ⟨hNe, rfl⟩ := List.mem_replicate.mp hSlot
  exact ⟨batteries[i], List.getElem?_eq_getElem hi, rfl, rfl, hNe⟩

/-! ### Soundness -/

/-- A sound map: the slots are one block after the other, a block for each battery in the order of
the configuration.  Each block is as long as each of its slots says, holds its battery's capacity in
modules of 65000 mAh unless it has 255 slots, and every slot has an 8-bit address. -/
structure SoundMap (batteries : List BatteryConfig) (blocks : List (List Slot)) : Prop where
  slots : buildAddressMap batteries = blocks.flatten
  count : blocks.length = batteries.length
  owner : ∀ (i : Nat) (block : List Slot), blocks[i]? = some block →
    ∀ slot ∈ block, slot.battery = i ∧ slot.moduleCount.toNat = block.length
  nonempty : ∀ block ∈ blocks, 1 ≤ block.length
  capacity : ∀ (i : Nat) (b : BatteryConfig) (block : List Slot), batteries[i]? = some b →
    blocks[i]? = some block →
      block.length = 255 ∨ b.capacity.toInt * 1000 ≤ block.length * 65000
  reach : ∀ k < (buildAddressMap batteries).length, kBaseAddress.toNat + k ≤ 255

def Fits (batteries : List BatteryConfig) : Prop :=
  (∀ b ∈ batteries, b.capacity.toInt * 1000 < 4294967296) ∧
    (batteries.map modulesNeeded).sum ≤ 254

theorem Fits.count {batteries : List BatteryConfig} (h : Fits batteries) {b : BatteryConfig}
    (hb : b ∈ batteries) : (moduleCountForCapacity b.capMah).toNat = modulesNeeded b ∧
      1 ≤ modulesNeeded b ∧ modulesNeeded b ≤ 254 := by
  have hLe : modulesNeeded b ≤ 254 :=
    (List.le_sum_of_mem (List.mem_map_of_mem hb)).trans h.2
  refine ⟨moduleCount_eq.2 hLe, ?_, hLe⟩
  rw [modulesNeeded]
  omega

theorem Fits.soundMap {batteries : List BatteryConfig} (h : Fits batteries) :
    SoundMap batteries (batteries.mapIdx (slotsOf batteries)) where
  slots := rfl
  count := List.length_mapIdx
  owner := by
    intro i block hBlock slot hSlot
    rw [List.getElem?_mapIdx] at hBlock
    obtain ⟨b, -, rfl⟩ := Option.map_eq_some_iff.mp hBlock
    obtain ⟨-, rfl⟩ := List.mem_replicate.mp hSlot
    exact ⟨rfl, (length_slotsOf batteries i b).symm⟩
  nonempty := by
    intro block hBlock
    obtain ⟨i, hi, rfl⟩ := List.mem_mapIdx.mp hBlock
    obtain ⟨hCount, hLow, -⟩ := h.count (List.getElem_mem hi)
    rw [length_slotsOf, hCount]
    exact hLow
  capacity := by
    intro i b block hb hBlock
    rw [List.getElem?_mapIdx, hb] at hBlock
    obtain rfl : slotsOf batteries i b = block := by simpa using hBlock
    have hMem := List.mem_of_getElem? hb
    obtain ⟨hCount, -, hHigh⟩ := h.count hMem
    have hCap := toNat_capMah b
    have hBound := h.1 b hMem
    rw [length_slotsOf, hCount]
    right
    rcases Int.lt_or_le (b.capacity.toInt * 1000) 0 with hNeg | hNonneg
    · omega
    · rw [Int.emod_eq_of_lt hNonneg hBound] at hCap
      rw [modulesNeeded]
      omega
  reach := by
    intro k hk
    have hSum : (batteries.map fun b => (moduleCountForCapacity b.capMah).toNat) =
        batteries.map modulesNeeded := List.map_congr_left fun b hb => (h.count hb).1
    rw [length_buildAddressMap, hSum] at hk
    have hTotal := h.2
    show 2 + k ≤ 255
    omega

section SoundMap

variable {batteries : List BatteryConfig} {blocks : List (List Slot)}

theorem SoundMap.length_le (h : SoundMap batteries blocks) :
    (buildAddressMap batteries).length ≤ 254 := by
  have hReach : ∀ k < (buildAddressMap batteries).length, 2 + k ≤ 255 := h.reach
  by_cases h0 : (buildAddressMap batteries).length = 0
  · omega
  · have := hReach ((buildAddressMap batteries).length - 1) (by omega)
    omega

/-- A block is as long as its battery's module count, which any of its slots carries. -/
theorem SoundMap.count_eq (h : SoundMap batteries blocks) {i : Nat} {b : BatteryConfig}
    {block : List Slot} (hb : batteries[i]? = some b) (hBlock : blocks[i]? = some block) :
    (moduleCountForCapacity b.capMah).toNat = block.length ∧ 1 ≤ block.length := by
  have hNe := h.nonempty block (List.mem_of_getElem? hBlock)
  obtain ⟨slot, hSlot⟩ := List.exists_mem_of_length_pos hNe
  obtain ⟨hOwner, hCount⟩ := h.owner i block hBlock slot hSlot
  have hMem : slot ∈ buildAddressMap batteries := by
    rw [h.slots]
    exact List.mem_flatten.mpr ⟨block, List.mem_of_getElem? hBlock, hSlot⟩
  obtain ⟨b', hb', -, hModules, -⟩ := mem_buildAddressMap hMem
  rw [hOwner, hb] at hb'
  obtain rfl := Option.some.inj hb'
  exact ⟨by rw [← hModules, hCount], hNe⟩

theorem SoundMap.fits (h : SoundMap batteries blocks) : Fits batteries := by
  have hLen := h.length_le
  have hEach : ∀ b ∈ batteries, (moduleCountForCapacity b.capMah).toNat = modulesNeeded b ∧
      b.capacity.toInt * 1000 < 4294967296 := by
    intro b hb
    obtain ⟨i, hi, rfl⟩ := List.getElem_of_mem hb
    have hGet := List.getElem?_eq_getElem hi
    have hBound : i < blocks.length := by
      rw [h.count]
      exact hi
    have hGet' : blocks[i]? = some blocks[i] := List.getElem?_eq_getElem hBound
    obtain ⟨hCount, hLow⟩ := h.count_eq hGet hGet'
    have hLe : (moduleCountForCapacity batteries[i].capMah).toNat ≤ 254 := by
      rw [length_buildAddressMap] at hLen
      exact (List.le_sum_of_mem (List.mem_map_of_mem (List.getElem_mem hi))).trans hLen
    have hCapacity := h.capacity i _ _ hGet hGet'
    obtain ⟨hCases, -⟩ := moduleCount_eq (b := batteries[i])
    constructor
    · omega
    · omega
  refine ⟨fun b hb => (hEach b hb).2, ?_⟩
  rw [← List.map_congr_left fun b hb => (hEach b hb).1, ← length_buildAddressMap]
  exact hLen

end SoundMap

/-- `build_address_map` gives a sound map exactly when the configured capacities fit. -/
theorem addressMap_sound_iff (batteries : List BatteryConfig) :
    (∃ blocks, SoundMap batteries blocks) ↔ Fits batteries :=
  ⟨fun ⟨_, h⟩ => h.fits, fun h => ⟨_, h.soundMap⟩⟩

def negativeCapacity : CfgTree where
  inverter := some { uart := some "/dev/ttyUSB0" }
  batteries := [{
    title := some "main", type := some "bluetooth", address := some "C8:47:8C:E1:00:01"
    capacity := some (-1), protocol := some "jk_bt" }]

/-- `load_config` accepts a negative capacity of a monitored battery, and the battery gets no
slot. -/
theorem accepted_without_slots :
    ¬∀ (path : String) (parse : CfgParse) (stale : Nat → BatteryLink) (cfg : AppConfig),
      loadConfig path parse stale = .ok cfg → ∃ blocks, SoundMap cfg.batteries blocks := by
  intro h
  obtain ⟨blocks, hSound⟩ := h "bms_bridge.conf" (.tree negativeCapacity) (fun _ => .reserve) _ rfl
  have hTotal := hSound.fits.2
  revert hTotal
  decide

end BmsBridge
