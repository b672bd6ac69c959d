import BmsBridge.Bridge.Proof.Limits

/-! Polling a whole battery.  The slots of a battery are one block of the map, each answers with the
same share, and the shares sum back to what the battery reported. -/

namespace BmsBridge

open Words

/-! ### A battery's block -/

def blockAddresses (batteries : List BatteryConfig) (i : Nat) : List UInt8 :=
  ((buildAddressMap batteries).zipIdx.filter fun p => p.1.battery = i).map fun p =>
    kBaseAddress + UInt8.ofNat p.2

theorem filter_blocks (batteries bs : List BatteryConfig) (i k : Nat) :
    ((bs.zipIdx k).map fun p => slotsOf batteries p.2 p.1).flatten.filter
        (fun slot => slot.battery = i) =
      if k ≤ i then (bs[i - k]?.map (slotsOf batteries i)).getD [] else [] := by
  induction bs generalizing k with
  | nil => simp
  | cons b bs ih =>
    have hHead : (slotsOf batteries k b).filter (fun slot => slot.battery = i) =
        if k = i then slotsOf batteries k b else [] := by
      rw [slotsOf, List.filter_replicate]
      simp
    rw [List.zipIdx_cons, List.map_cons, List.flatten_cons, List.filter_append, ih, hHead]
    rcases Nat.lt_trichotomy k i with h | h | h
    · have hIndex : (b :: bs)[i - k]? = bs[i - (k + 1)]? := by
        rw [show i - k = i - (k + 1) + 1 by omega, List.getElem?_cons_succ]
      rw [if_neg (by omega), if_pos (by omega), if_pos (by omega), hIndex, List.nil_append]
    · subst h
      simp
    · rw [if_neg (by omega), if_neg (by omega), if_neg (by omega), List.nil_append]

theorem length_blockAddresses {batteries : List BatteryConfig} {i : Nat} {b : BatteryConfig}
    (hb : batteries[i]? = some b) : (blockAddresses batteries i).length =
      (moduleCountForCapacity b.capMah).toNat := by
  have hOwner : (fun p : Slot × Nat => decide (p.1.battery = i)) =
      (fun slot : Slot => decide (slot.battery = i)) ∘ Prod.fst := rfl
  rw [blockAddresses, List.length_map, ← List.length_map (f := Prod.fst), hOwner,
    ← List.filter_map, List.zipIdx_map_fst, buildAddressMap, List.mapIdx_eq_zipIdx_map,
    filter_blocks, if_pos (Nat.zero_le i), Nat.sub_zero, hb]
  exact length_slotsOf batteries i b

theorem mem_blockAddresses {batteries : List BatteryConfig} {i : Nat} {adr : UInt8}
    (h : adr ∈ blockAddresses batteries i) : ∃ k slot,
      (buildAddressMap batteries)[k]? = some slot ∧ slot.battery = i ∧
        adr = kBaseAddress + UInt8.ofNat k := by
  obtain ⟨⟨slot, k⟩, hMem, rfl⟩ := List.mem_map.mp h
  obtain ⟨hSlot, hOwner⟩ := List.mem_filter.mp hMem
  exact ⟨k, slot, List.mk_mem_zipIdx_iff_getElem?.mp hSlot, of_decide_eq_true hOwner, rfl⟩

theorem address_slot {k : Nat} (hk : 2 + k ≤ 255) :
    ¬kBaseAddress + UInt8.ofNat k < kBaseAddress ∧
      (kBaseAddress + UInt8.ofNat k - kBaseAddress).toNat = k := by
  have hWord : (kBaseAddress + UInt8.ofNat k).toNat = 2 + k := by
    rw [UInt8.toNat_add, UInt8.toNat_ofNat']
    show (2 + k % 256) % 256 = 2 + k
    omega
  refine ⟨?_, ?_⟩
  · rw [UInt8.lt_iff_toNat_lt, hWord]
    show ¬2 + k < 2
    omega
  · rw [UInt8.toNat_sub, hWord]
    show (256 - 2 + (2 + k)) % 256 = k
    omega

/-! ### Shares -/

theorem toInt_moduleCount (n : UInt8) : n.toUInt32.toInt32.toInt = n.toNat := by
  have hn := n.toNat_lt
  rw [toInt_toInt32, UInt8.toNat_toUInt32, if_pos (by omega)]

/-- A module's current in 0.1 A, before it is clamped. -/
theorem toInt_shareCurrent (c : Int32) (n : UInt8) :
    (c / n.toUInt32.toInt32 / 100).toInt = c.toInt.tdiv (n.toNat * 100 : Nat) := by
  have hLow := c.le_toInt
  have hHigh := c.toInt_lt
  have hShare := Shares.tdiv_between c.toInt n.toNat
  have hModule : (c / n.toUInt32.toInt32).toInt = c.toInt.tdiv n.toNat := by
    rw [Int32.toInt_div, toInt_moduleCount, Int.bmod_eq_of_le (by omega) (by omega)]
  have hTenth := Shares.tdiv_between (c.toInt.tdiv n.toNat) 100
  rw [Int32.toInt_div, hModule]
  show (Int.tdiv _ (100 : Nat)).bmod _ = _
  rw [Int.bmod_eq_of_le (by omega) (by omega), Shares.tdiv_tdiv, Int.natCast_mul]

/-- A module's current is the share itself while the pack stays within the range of `n` modules. -/
theorem toInt_moduleCurrent {c : Int32} {n : UInt8} (hRange : c.toInt.natAbs ≤ 3276700 * n.toNat) :
    (clampI16 (c / n.toUInt32.toInt32 / 100)).toInt = c.toInt.tdiv (n.toNat * 100 : Nat) := by
  have hAbs : (c.toInt.tdiv (n.toNat * 100 : Nat)).natAbs ≤ 32767 := by
    rw [Int.natAbs_tdiv]
    exact Nat.div_le_of_le_mul (by rw [Int.natAbs_natCast]; omega)
  rw [toInt_clampI16, toInt_shareCurrent]
  omega

/-- The capacities of one of `n` modules, where a module carries at most 65000 mAh. -/
theorem moduleCapacity {total remain : UInt32} {n : UInt8} (hn : n ≠ 0)
    (hTotal : total.toNat ≤ 65000 * n.toNat) (hRemain : remain.toNat ≤ total.toNat) :
    ∃ cap, scaleCapacityToU16 (total / n.toUInt32) (remain / n.toUInt32) = .ok cap ∧
      cap.totalMah.toNat = total.toNat / n.toNat ∧
      cap.remainMah.toNat = remain.toNat / n.toNat := by
  have hPos := toNat_pos hn
  have hShare (w : UInt32) (hw : w.toNat ≤ 65000 * n.toNat) :
      (w / n.toUInt32).toNat = w.toNat / n.toNat ∧ w.toNat / n.toNat ≤ 65000 := by
    refine ⟨by rw [UInt32.toNat_div, UInt8.toNat_toUInt32], ?_⟩
    exact Nat.div_le_of_le_mul (by rw [Nat.mul_comm]; exact hw)
  obtain ⟨hTotalShare, hTotalLe⟩ := hShare total hTotal
  obtain ⟨hRemainShare, hRemainLe⟩ := hShare remain (hRemain.trans hTotal)
  refine ⟨_, scaleCapacityToU16_small (by omega), ?_, ?_⟩
  · rw [UInt32.toNat_toUInt16, hTotalShare]
    omega
  · rw [UInt32.toNat_toUInt16, hRemainShare]
    omega

/-! ### Cell lists -/

theorem parseCellInfo_length_cells {frame : List UInt8} {cells : JkCellInfo} {pack : JkPackInfo}
    (h : parseCellInfo frame = some (cells, pack)) : cells.voltagesMv.length ≤ 32 := by
  simp only [parseCellInfo] at h
  split at h
  · cases h
  · split at h
    · cases h
    · split at h
      · cases h
      · obtain ⟨rfl, -⟩ := Prod.mk.inj (Option.some.inj h)
        refine (List.takeWhile_prefix _).length_le.trans ?_
        rw [List.length_map, List.length_range]
        split <;> decide

/-- The cell lists that the drivers report: of a cell-info frame, or of an analog payload. -/
def ReportedCells (cells : JkCellInfo) : Prop :=
  (∃ frame pack, parseCellInfo frame = some (cells, pack)) ∨
    ∃ info a, AnalogResponse.deserialize info = (true, a) ∧ cells.voltagesMv = a.cellVoltagesMv

theorem ReportedCells.length_le {cells : JkCellInfo} (h : ReportedCells cells) :
    cells.voltagesMv.length ≤ 255 := by
  rcases h with ⟨frame, pack, h⟩ | ⟨info, a, h, hCells⟩
  · exact (parseCellInfo_length_cells h).trans (by decide)
  · rw [hCells]
    exact AnalogResponse.length_cells_le h

/-! ### Polling the block -/

/-- The modules of 65000 mAh that a capacity needs, in exact arithmetic. -/
def exactModules (b : BatteryConfig) : Nat := (b.capacity.toInt.toNat * 1000 + 64999) / 65000

theorem modulesNeeded_exact {b : BatteryConfig} (hLow : 1 ≤ b.capacity.toInt)
    (hHigh : exactModules b ≤ 254) :
    modulesNeeded b = exactModules b ∧ b.capacity.toInt * 1000 < 4294967296 := by
  rw [exactModules] at hHigh
  have hMah : b.capacity.toInt * 1000 < 4294967296 := by omega
  have hCap := toNat_capMah b
  rw [Int.emod_eq_of_lt (by omega) hMah] at hCap
  refine ⟨?_, hMah⟩
  rw [modulesNeeded, exactModules]
  omega

theorem fits_of_exactModules {batteries : List BatteryConfig}
    (hCapacity : ∀ b ∈ batteries, 1 ≤ b.capacity.toInt)
    (hTotal : (batteries.map exactModules).sum ≤ 254) : Fits batteries := by
  have hEach := fun b (hb : b ∈ batteries) => modulesNeeded_exact (hCapacity b hb)
    ((List.le_sum_of_mem (List.mem_map_of_mem hb)).trans hTotal)
  refine ⟨fun b hb => (hEach b hb).2, ?_⟩
  rwa [List.map_congr_left fun b hb => (hEach b hb).1]

/-- The request `f` is answered, and the INFO of the answer decodes to `r`. -/
def Polled (slots : List Slot) (b : Batteries) (now : Int) (f : PylontechFrame)
    (r : AnalogResponse) : Prop :=
  ∃ resp frame, respond slots b now f = .ok (some resp) ∧
    tryParsePylontech resp = ((resp.length : Int), frame) ∧
    AnalogResponse.deserialize frame.info = (true, r)

section Slot

variable {slots : List Slot} {b : Batteries} {now : Int} {f : PylontechFrame} {k : Nat} {slot : Slot}
  {cells : JkCellInfo} {pack : JkPackInfo} {lim : JkSettings}

theorem respond_slot (hSlot : slots[k]? = some slot) (hk : 2 + k ≤ 255)
    (hAdr : f.adr = kBaseAddress + UInt8.ofNat k)
    (hReady : Ready (b.states slot.source) now cells pack lim) :
    respond slots b now f = answer slot (ownerCapacity b.configs slot) cells pack lim f := by
  obtain ⟨hBase, hIndex⟩ := address_slot hk
  rw [← hAdr] at hBase hIndex
  rw [← hIndex] at hSlot
  exact respond_ready hBase hSlot hReady

theorem polled_analog {cap : ScaledCapacity} (hSlot : slots[k]? = some slot) (hk : 2 + k ≤ 255)
    (hAdr : f.adr = kBaseAddress + UInt8.ofNat k) (hCid : f.cid2 = 0x42)
    (hCount : slot.moduleCount ≠ 0) (hReady : Ready (b.states slot.source) now cells pack lim)
    (hCells : cells.voltagesMv.length ≤ 255) {source : JkPackInfo}
    (hSource : (slotPack slot (ownerCapacity b.configs slot) pack lim).1 = source)
    (hCap : scaleCapacityToU16 (source.totalCapacityMah / slot.moduleCount.toUInt32)
      (source.remainingCapacityMah / slot.moduleCount.toUInt32) = .ok cap) :
    Polled slots b now f (analogResponse f cells (slicedPack slot.moduleCount source) cap) := by
  let r := analogResponse f cells (slicedPack slot.moduleCount source) cap
  have hRead := r.deserialize_serialize [] hCells (by decide : 3 ≤ 255)
  rw [List.append_nil] at hRead
  refine ⟨_, { okResponse f with info := r.serialize }, ?_, tryParse_built _ ?_, hRead⟩
  · rw [respond_slot hSlot hk hAdr hReady, answer_eq hCount, hSource, buildResponse, if_pos hCid,
      buildAnalogResponse]
    show some <$> (scaleCapacityToU16 _ _ >>= _) = _
    rw [slicedPack, hCap]
    rfl
  · show r.serialize.length ≤ 1024
    rw [length_analogResponse]
    omega

end Slot

/-- A whole block, polled for analog data: every module answers with the same share. -/
theorem polled_block {batteries : List BatteryConfig} (hFits : Fits batteries) {i : Nat}
    {b : BatteryConfig} (hb : batteries[i]? = some b) (hMonitored : b.monitored)
    {states : Nat → SharedState} {now : Int} {cells : JkCellInfo} {pack : JkPackInfo}
    {lim : JkSettings} (hReady : Ready (states i) now cells pack lim) (hCells : ReportedCells cells)
    {n : UInt8} (hn : moduleCountForCapacity b.capMah = n) (hNe : n ≠ 0) {cap : ScaledCapacity}
    (hCap : scaleCapacityToU16 (pack.totalCapacityMah / n.toUInt32)
      (pack.remainingCapacityMah / n.toUInt32) = .ok cap)
    {f : PylontechFrame} (hAdr : f.adr ∈ blockAddresses batteries i) (hCid : f.cid2 = 0x42) :
    Polled (buildAddressMap batteries) { configs := batteries, states } now f
      (analogResponse f cells (slicedPack n pack) cap) := by
  obtain ⟨k, slot, hSlot, hOwner, hAdrEq⟩ := mem_blockAddresses hAdr
  obtain ⟨b', hb', hMirror, hModules, -⟩ := mem_buildAddressMap (List.mem_of_getElem? hSlot)
  rw [hOwner, hb] at hb'
  obtain rfl := Option.some.inj hb'
  rw [hn] at hModules
  rw [← hModules] at hNe hCap ⊢
  have hReach : 2 + k ≤ 255 := hFits.soundMap.reach k (List.getElem?_eq_some_iff.mp hSlot).1
  have hNone : slot.mirror = none := by
    rw [hMirror, findMirror, if_pos hMonitored]
  have hSource : slot.source = i := by
    rw [Slot.source, hNone]
    exact hOwner
  rw [← hSource] at hReady
  exact polled_analog hSlot hReach hAdrEq hCid hNe hReady hCells.length_le
    (congrArg Prod.fst (slotPack_monitored hNone _ pack lim)) hCap

/-! What the inverter adds up over the modules. -/

def sumCurrentMa (rs : List AnalogResponse) : Int := (rs.map fun r => 100 * r.current01a.toInt).sum
def sumTotalMah (rs : List AnalogResponse) : Nat := (rs.map fun r => r.totalCapacityMah.toNat).sum
def sumRemainMah (rs : List AnalogResponse) : Nat := (rs.map fun r => r.remainCapacityMah.toNat).sum

/-- The records of `n` modules sum back to a pack: the current up to 0.1 A for each module and never
beyond it, the capacities up to 1 mAh for each module and never beyond them. -/
structure SumsBack (n : Nat) (pack : JkPackInfo) (rs : List AnalogResponse) : Prop where
  count : rs.length = n
  currentLe : (sumCurrentMa rs).natAbs ≤ pack.currentMa.toInt.natAbs
  currentNear : (pack.currentMa.toInt - sumCurrentMa rs).natAbs < 100 * n
  totalLe : sumTotalMah rs ≤ pack.totalCapacityMah.toNat
  totalNear : pack.totalCapacityMah.toNat < sumTotalMah rs + n
  remainLe : sumRemainMah rs ≤ pack.remainingCapacityMah.toNat
  remainNear : pack.remainingCapacityMah.toNat < sumRemainMah rs + n

theorem sumsBack_shares {n : UInt8} (hn : n ≠ 0) {pack : JkPackInfo} {rs : List AnalogResponse}
    (hLen : rs.length = n.toNat)
    (hCurrent : ∀ r ∈ rs, r.current01a.toInt = pack.currentMa.toInt.tdiv (n.toNat * 100 : Nat))
    (hTotal : ∀ r ∈ rs, r.totalCapacityMah.toNat = pack.totalCapacityMah.toNat / n.toNat)
    (hRemain : ∀ r ∈ rs, r.remainCapacityMah.toNat = pack.remainingCapacityMah.toNat / n.toNat) :
    SumsBack n.toNat pack rs := by
  obtain ⟨hCurrentLe, hCurrentNear⟩ := Shares.tdiv_share pack.currentMa.toInt
    (Nat.mul_pos (toNat_pos hn) (by decide : 0 < 100))
  obtain ⟨hTotalLe, hTotalNear⟩ := Shares.div_share pack.totalCapacityMah.toNat (toNat_pos hn)
  obtain ⟨hRemainLe, hRemainNear⟩ :=
    Shares.div_share pack.remainingCapacityMah.toNat (toNat_pos hn)
  have hSumCurrent : sumCurrentMa rs =
      (n.toNat * 100 : Nat) * pack.currentMa.toInt.tdiv (n.toNat * 100 : Nat) := by
    have hMap := List.map_congr_left fun r hr => congrArg (100 * ·) (hCurrent r hr)
    rw [sumCurrentMa, hMap, List.map_const', List.sum_replicate_int, hLen, ← Int.mul_assoc,
      Int.natCast_mul]
    rfl
  have hSumTotal : sumTotalMah rs = n.toNat * (pack.totalCapacityMah.toNat / n.toNat) := by
    rw [sumTotalMah, Shares.sum_equal hTotal, hLen]
  have hSumRemain : sumRemainMah rs = n.toNat * (pack.remainingCapacityMah.toNat / n.toNat) := by
    rw [sumRemainMah, Shares.sum_equal hRemain, hLen]
  refine ⟨hLen, ?_, ?_, ?_, ?_, ?_, ?_⟩
  · rw [hSumCurrent]
    exact hCurrentLe
  · rw [hSumCurrent, Nat.mul_comm 100]
    exact hCurrentNear
  · exact hSumTotal.trans_le hTotalLe
  · rw [hSumTotal]
    exact hTotalNear
  · exact hSumRemain.trans_le hRemainLe
  · rw [hSumRemain]
    exact hRemainNear

/-- The modules of a monitored battery sum back to its pack. -/
theorem module_sums (batteries : List BatteryConfig)
    (hCapacity : ∀ b ∈ batteries, 1 ≤ b.capacity.toInt)
    (hTotalModules : (batteries.map exactModules).sum ≤ 254)
    (i : Nat) (b : BatteryConfig) (hb : batteries[i]? = some b) (hMonitored : b.monitored)
    (states : Nat → SharedState) (now : Int) (cells : JkCellInfo) (pack : JkPackInfo)
    (lim : JkSettings) (hReady : Ready (states i) now cells pack lim)
    (hCells : ReportedCells cells)
    (hRemain : pack.remainingCapacityMah.toNat ≤ pack.totalCapacityMah.toNat)
    (hTotal : pack.totalCapacityMah.toNat ≤ 65000 * exactModules b)
    (hCurrent : pack.currentMa.toInt.natAbs ≤ 3276700 * exactModules b)
    (req : UInt8 → PylontechFrame) (hReq : ∀ adr, (req adr).adr = adr ∧ (req adr).cid2 = 0x42) :
    ∃ r : UInt8 → AnalogResponse,
      (∀ adr ∈ blockAddresses batteries i, Polled (buildAddressMap batteries)
        { configs := batteries, states } now (req adr) (r adr)) ∧
      SumsBack (exactModules b) pack ((blockAddresses batteries i).map r) := by
  have hMem := List.mem_of_getElem? hb
  have hFits := fits_of_exactModules hCapacity hTotalModules
  have hExact := (modulesNeeded_exact (hCapacity b hMem)
    ((List.le_sum_of_mem (List.mem_map_of_mem hMem)).trans hTotalModules)).1
  obtain ⟨hCount, hLow, -⟩ := hFits.count hMem
  generalize hn : moduleCountForCapacity b.capMah = n at hCount
  rw [hExact] at hCount hLow
  rw [← hCount] at hTotal hCurrent hLow ⊢
  have hNe : n ≠ 0 := by
    rintro rfl
    exact absurd hLow (by decide)
  have hLen : (blockAddresses batteries i).length = n.toNat := by
    rw [length_blockAddresses hb, hn]
  obtain ⟨cap, hCap, hCapTotal, hCapRemain⟩ := moduleCapacity hNe hTotal hRemain
  refine ⟨fun adr => analogResponse (req adr) cells (slicedPack n pack) cap, ?_, ?_⟩
  · intro adr hAdr
    obtain ⟨hAdrEq, hCid⟩ := hReq adr
    rw [← hAdrEq] at hAdr
    exact polled_block hFits hb hMonitored hReady hCells hn hNe hCap hAdr hCid
  · apply sumsBack_shares hNe
    · rw [List.length_map, hLen]
    · intro r hr
      obtain ⟨adr, -, rfl⟩ := List.mem_map.mp hr
      exact toInt_moduleCurrent hCurrent
    · intro r hr
      obtain ⟨adr, -, rfl⟩ := List.mem_map.mp hr
      exact hCapTotal
    · intro r hr
      obtain ⟨adr, -, rfl⟩ := List.mem_map.mp hr
      exact hCapRemain

/-- A monitored battery of 130 Ah, which is two modules. -/
def twoModules : BatteryConfig := { oneModule with capacity := 130 }

/-- A pack of 100 Ah at half charge that discharges at 12.345 A. -/
def dischargingPack : JkPackInfo where
  currentMa := -12345
  remainingCapacityMah := 50000
  totalCapacityMah := 100000

theorem module_sums_two_modules :
    ∃ r : UInt8 → AnalogResponse,
      (∀ adr ∈ blockAddresses [twoModules] 0, Polled (buildAddressMap [twoModules])
        { configs := [twoModules]
          states := fun _ => { connected := true, cells := some {}, pack := some dischargingPack
                               settings := some {}, updatedAt := 7 } } 9
        { adr, cid2 := 0x42 } (r adr)) ∧
      SumsBack 2 dischargingPack ((blockAddresses [twoModules] 0).map r) :=
  module_sums [twoModules] (by decide) (by decide) 0 twoModules rfl rfl _ 9 {} dischargingPack {}
    ⟨rfl, rfl, rfl, rfl⟩ (.inl ⟨emptyCellInfo, {}, by decide +kernel⟩) (by decide) (by decide)
    (by decide)
    (fun adr => { adr, cid2 := 0x42 }) fun _ => ⟨rfl, rfl⟩

end BmsBridge
