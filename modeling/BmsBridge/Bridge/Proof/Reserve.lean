import BmsBridge.Bridge.Proof.Polls

/-! A reserve.  Its modules repeat what the mirror measures, and together they carry the reserve's own
capacity, at the mirror's percentage of charge, with limits of 0.5C. -/

namespace BmsBridge

open Words

/-- A reserve of the configuration with a capacity of up to 255 modules, each of its addresses within
8 bits, and the index of its mirror. -/
structure ReserveAt (batteries : List BatteryConfig) (i m : Nat) (b : BatteryConfig) : Prop where
  owner : batteries[i]? = some b
  mirror : findMirror batteries b = some m
  low : 1 ≤ b.capacity.toInt
  high : b.capacity.toInt ≤ 16575
  reach : ∀ k slot, (buildAddressMap batteries)[k]? = some slot → slot.battery = i → 2 + k ≤ 255

theorem ReserveAt.not_monitored {batteries : List BatteryConfig} {i m : Nat} {b : BatteryConfig}
    (h : ReserveAt batteries i m b) : b.monitored = false := by
  have hMirror := h.mirror
  unfold findMirror at hMirror
  split at hMirror
  · cases hMirror
  · rename_i hNot
    exact Bool.eq_false_iff.mpr hNot

/-- The configured capacity in Ah. -/
def BatteryConfig.capAh (b : BatteryConfig) : Nat := b.capacity.toInt.toNat

/-! ### The overridden fields -/

section Override

variable {b : BatteryConfig} (hLow : 1 ≤ b.capacity.toInt) (hHigh : b.capacity.toInt ≤ 16575)

include hLow hHigh

theorem capAh_bounds : 1 ≤ b.capAh ∧ b.capAh ≤ 16575 := by
  rw [BatteryConfig.capAh]
  omega

theorem toNat_capacity : b.capacity.toUInt32.toNat = b.capAh := by
  have hWord := toNat_toUInt32 b.capacity
  rw [BatteryConfig.capAh]
  omega

theorem toNat_reserveTotal : (b.capacity.toUInt32 * 1000).toNat = 1000 * b.capAh := by
  have hCap := toNat_capacity hLow hHigh
  obtain ⟨-, hBound⟩ := capAh_bounds hLow hHigh
  rw [UInt32.toNat_mul, hCap]
  show b.capAh * 1000 % 4294967296 = _
  omega

theorem toNat_reserveRemain {soc : UInt8} (hSoc : soc.toNat ≤ 100) :
    (b.capacity.toUInt32 * 1000 * soc.toUInt32 / 100).toNat = 10 * b.capAh * soc.toNat := by
  have hTotal := toNat_reserveTotal hLow hHigh
  obtain ⟨-, hBound⟩ := capAh_bounds hLow hHigh
  have hProduct : b.capAh * soc.toNat ≤ 16575 * 100 := Nat.mul_le_mul hBound hSoc
  rw [UInt32.toNat_div, UInt32.toNat_mul, hTotal, UInt8.toNat_toUInt32, Nat.mul_assoc, Nat.mul_assoc]
  show 1000 * (b.capAh * soc.toNat) % 4294967296 / 100 = _
  omega

theorem toNat_reserveLimit :
    (b.capacity.toUInt32 * 1000 * kReserveCRateTenths / 10).toNat = 500 * b.capAh := by
  have hTotal := toNat_reserveTotal hLow hHigh
  obtain ⟨-, hBound⟩ := capAh_bounds hLow hHigh
  rw [UInt32.toNat_div, UInt32.toNat_mul, hTotal]
  show 1000 * b.capAh * 5 % 4294967296 / 10 = _
  omega

theorem reserveModules : let n := (moduleCountForCapacity b.capMah).toNat
    0 < n ∧ 1000 * b.capAh ≤ 65000 * n := by
  have hTotal : b.capMah.toNat = 1000 * b.capAh := toNat_reserveTotal hLow hHigh
  obtain ⟨-, hBound⟩ := capAh_bounds hLow hHigh
  intro n
  have hCount := toNat_moduleCountForCapacity b.capMah
  rw [hTotal, Nat.mod_eq_of_lt (by omega)] at hCount
  show 0 < (moduleCountForCapacity b.capMah).toNat ∧
    _ ≤ 65000 * (moduleCountForCapacity b.capMah).toNat
  rw [hCount]
  split <;> omega

end Override

/-! ### One module -/

/-- The slot of a reserve's address. -/
theorem ReserveAt.slot {batteries : List BatteryConfig} {i m : Nat} {b : BatteryConfig}
    (h : ReserveAt batteries i m b) {adr : UInt8} (hAdr : adr ∈ blockAddresses batteries i) :
    ∃ k slot, (buildAddressMap batteries)[k]? = some slot ∧ 2 + k ≤ 255 ∧
      adr = kBaseAddress + UInt8.ofNat k ∧ slot.source = m ∧
      slot.moduleCount = moduleCountForCapacity b.capMah ∧
      ∀ pack lim, slotPack slot (ownerCapacity batteries slot) pack lim =
        reserveOverride b.capacity pack lim := by
  obtain ⟨k, slot, hSlot, hOwner, hEq⟩ := mem_blockAddresses hAdr
  obtain ⟨b', hb', hMirror, hCount, -⟩ := mem_buildAddressMap (List.mem_of_getElem? hSlot)
  rw [hOwner, h.owner] at hb'
  obtain rfl := Option.some.inj hb'
  rw [h.mirror] at hMirror
  refine ⟨k, slot, hSlot, h.reach k slot hSlot hOwner, hEq, ?_, hCount, fun pack lim => ?_⟩
  · rw [Slot.source, hMirror]
    rfl
  · rw [slotPack, hMirror, ownerCapacity, hOwner, h.owner]
    rfl

/-- The request `f` is answered, and the INFO of the answer decodes to `r`. -/
def PolledBy {α : Type} (decode : List UInt8 → Bool × α) (slots : List Slot) (b : Batteries)
    (now : Int) (f : PylontechFrame) (r : α) : Prop :=
  ∃ resp frame, respond slots b now f = .ok (some resp) ∧
    tryParsePylontech resp = ((resp.length : Int), frame) ∧ decode frame.info = (true, r)

/-- A poll has one answer. -/
theorem PolledBy.unique {α : Type} {decode : List UInt8 → Bool × α} {slots : List Slot}
    {b : Batteries} {now : Int} {f : PylontechFrame} {r r' : α}
    (h : PolledBy decode slots b now f r) (h' : PolledBy decode slots b now f r') : r = r' := by
  obtain ⟨resp, frame, hResp, hParse, hRead⟩ := h
  obtain ⟨resp', frame', hResp', hParse', hRead'⟩ := h'
  obtain rfl := Option.some.inj (Except.ok.inj (hResp.symm.trans hResp'))
  obtain rfl := congrArg Prod.snd (hParse.symm.trans hParse')
  exact congrArg Prod.snd (hRead.symm.trans hRead')

theorem Polled.unique {slots : List Slot} {b : Batteries} {now : Int} {f : PylontechFrame}
    {r r' : AnalogResponse} (h : Polled slots b now f r) (h' : Polled slots b now f r') : r = r' :=
  @PolledBy.unique _ AnalogResponse.deserialize _ _ _ _ _ _ h h'

/-- The pack and the limits of one module of a reserve. -/
def reservePack (b : BatteryConfig) (pack : JkPackInfo) (lim : JkSettings) : JkPackInfo :=
  slicedPack (moduleCountForCapacity b.capMah) (reserveOverride b.capacity pack lim).1

def reserveLimits (b : BatteryConfig) (pack : JkPackInfo) (lim : JkSettings) : JkSettings :=
  slicedLimits (moduleCountForCapacity b.capMah) (reserveOverride b.capacity pack lim).2

section Module

variable {batteries : List BatteryConfig} {i m : Nat} {b : BatteryConfig}
  (h : ReserveAt batteries i m b) {states : Nat → SharedState} {now : Int} {cells : JkCellInfo}
  {pack : JkPackInfo} {lim : JkSettings}

include h

theorem ReserveAt.length_block : (blockAddresses batteries i).length =
    (moduleCountForCapacity b.capMah).toNat := length_blockAddresses h.owner

theorem ReserveAt.count_ne : moduleCountForCapacity b.capMah ≠ 0 := by
  intro h0
  have hPos := (reserveModules h.low h.high).1
  rw [h0] at hPos
  exact absurd hPos (by decide)

theorem ReserveAt.capacities (lim : JkSettings) (hSoc : pack.stateOfChargePct.toNat ≤ 100) :
    let n := moduleCountForCapacity b.capMah
    let source := (reserveOverride b.capacity pack lim).1
    ∃ cap, scaleCapacityToU16 (source.totalCapacityMah / n.toUInt32)
        (source.remainingCapacityMah / n.toUInt32) = .ok cap ∧
      cap.totalMah.toNat = 1000 * b.capAh / n.toNat ∧
      cap.remainMah.toNat = 10 * b.capAh * pack.stateOfChargePct.toNat / n.toNat := by
  intro n source
  have hTotal : source.totalCapacityMah.toNat = 1000 * b.capAh := toNat_reserveTotal h.low h.high
  have hRemain : source.remainingCapacityMah.toNat =
      10 * b.capAh * pack.stateOfChargePct.toNat := toNat_reserveRemain h.low h.high hSoc
  have hModules := (reserveModules h.low h.high).2
  have hLe : 10 * b.capAh * pack.stateOfChargePct.toNat ≤ 10 * b.capAh * 100 :=
    Nat.mul_le_mul_left _ hSoc
  rw [← hTotal, ← hRemain]
  exact moduleCapacity h.count_ne (by rw [hTotal]; exact hModules) (by rw [hTotal, hRemain]; omega)

variable (hReady : Ready (states m) now cells pack lim) {req : PylontechFrame}
  (hAdr : req.adr ∈ blockAddresses batteries i)

include hReady hAdr

theorem ReserveAt.polled_analog (hCells : cells.voltagesMv.length ≤ 255) (hCid : req.cid2 = 0x42)
    {cap : ScaledCapacity} (hCap : scaleCapacityToU16
      (reservePack b pack lim).totalCapacityMah (reservePack b pack lim).remainingCapacityMah =
        .ok cap) :
    Polled (buildAddressMap batteries) { configs := batteries, states } now req
      (analogResponse req cells (reservePack b pack lim) cap) := by
  obtain ⟨k, slot, hSlot, hk, hEq, hSource, hCount, hPack⟩ := h.slot hAdr
  have hCountNe := h.count_ne
  rw [← hCount] at hCountNe
  rw [← hSource] at hReady
  have hSlotPack := congrArg Prod.fst (hPack pack lim)
  unfold reservePack at hCap ⊢
  rw [← hCount] at hCap ⊢
  exact BmsBridge.polled_analog hSlot hk hEq hCid hCountNe hReady hCells hSlotPack hCap

theorem ReserveAt.polled_systemParam (hCid : req.cid2 = 0x47) :
    PolledBy SystemParameterResponse.deserialize (buildAddressMap batteries)
      { configs := batteries, states } now req (systemParameterResponse (reserveLimits b pack lim)) := by
  obtain ⟨k, slot, hSlot, hk, hEq, hSource, hCount, hPack⟩ := h.slot hAdr
  have hCountNe := h.count_ne
  rw [← hCount] at hCountNe
  rw [← hSource] at hReady
  have hAnswer := answer_systemParam hCountNe (ownerCapacity batteries slot) cells pack lim hCid
  rw [hPack, hCount] at hAnswer
  obtain ⟨hResp, hParse, hRead⟩ := hAnswer
  exact ⟨_, _, (respond_slot hSlot hk hEq hReady).trans hResp, hParse, hRead⟩

theorem ReserveAt.polled_chgmgmt (hCid : req.cid2 = 0x92) :
    PolledBy ChargeManagementResponse.decode (buildAddressMap batteries)
      { configs := batteries, states } now req
      (chargeManagementResponse req (reservePack b pack lim) (reserveLimits b pack lim)) := by
  obtain ⟨k, slot, hSlot, hk, hEq, hSource, hCount, hPack⟩ := h.slot hAdr
  have hCountNe := h.count_ne
  rw [← hCount] at hCountNe
  rw [← hSource] at hReady
  have hAnswer := answer_chgmgmt hCountNe (ownerCapacity batteries slot) cells pack lim hCid
  rw [hPack, hCount] at hAnswer
  obtain ⟨hResp, hParse, hRead⟩ := hAnswer
  exact ⟨_, _, (respond_slot hSlot hk hEq hReady).trans hResp, hParse, hRead⟩

end Module

/-- Polled at all of its addresses, a reserve answers with one share from each of them. -/
theorem ReserveAt.polled {batteries : List BatteryConfig} {i m : Nat} {b : BatteryConfig}
    (h : ReserveAt batteries i m b) {states : Nat → SharedState} {now : Int} {cells : JkCellInfo}
    {pack : JkPackInfo} {lim : JkSettings} (hReady : Ready (states m) now cells pack lim)
    (hCells : cells.voltagesMv.length ≤ 255) {req42 req47 req92 : UInt8 → PylontechFrame}
    (h42 : ∀ adr, (req42 adr).adr = adr ∧ (req42 adr).cid2 = 0x42)
    (h47 : ∀ adr, (req47 adr).adr = adr ∧ (req47 adr).cid2 = 0x47)
    (h92 : ∀ adr, (req92 adr).adr = adr ∧ (req92 adr).cid2 = 0x92) {cap : ScaledCapacity}
    (hCap : scaleCapacityToU16
      (reservePack b pack lim).totalCapacityMah (reservePack b pack lim).remainingCapacityMah =
        .ok cap) :
    let slots := buildAddressMap batteries
    let src : Batteries := { configs := batteries, states }
    ∀ adr ∈ blockAddresses batteries i,
      Polled slots src now (req42 adr)
        (analogResponse (req42 adr) cells (reservePack b pack lim) cap) ∧
      PolledBy SystemParameterResponse.deserialize slots src now (req47 adr)
        (systemParameterResponse (reserveLimits b pack lim)) ∧
      PolledBy ChargeManagementResponse.decode slots src now (req92 adr)
        (chargeManagementResponse (req92 adr) (reservePack b pack lim)
          (reserveLimits b pack lim)) := by
  intro slots src adr hAdr
  refine ⟨h.polled_analog hReady ?_ hCells (h42 adr).2 hCap,
    h.polled_systemParam hReady ?_ (h47 adr).2, h.polled_chgmgmt hReady ?_ (h92 adr).2⟩
  · rwa [(h42 adr).1]
  · rwa [(h47 adr).1]
  · rwa [(h92 adr).1]

/-- What a slot's answer to an analog poll decodes to. -/
theorem polled_inv {slots : List Slot} {b : Batteries} {now : Int} {f : PylontechFrame} {k : Nat}
    {slot : Slot} {cells : JkCellInfo} {pack : JkPackInfo} {lim : JkSettings} {r : AnalogResponse}
    (hSlot : slots[k]? = some slot) (hk : 2 + k ≤ 255) (hAdr : f.adr = kBaseAddress + UInt8.ofNat k)
    (hCid : f.cid2 = 0x42) (hCount : slot.moduleCount ≠ 0)
    (hReady : Ready (b.states slot.source) now cells pack lim)
    (hCells : cells.voltagesMv.length ≤ 255) (h : Polled slots b now f r) :
    ∃ cap, r = analogResponse f cells (slicedPack slot.moduleCount
      (slotPack slot (ownerCapacity b.configs slot) pack lim).1) cap := by
  have hAnswer := h
  obtain ⟨resp, -, hResp, -⟩ := hAnswer
  rw [respond_slot hSlot hk hAdr hReady, answer_eq hCount, buildResponse, if_pos hCid] at hResp
  cases hBuilt : buildAnalogResponse f cells (slicedPack slot.moduleCount
      (slotPack slot (ownerCapacity b.configs slot) pack lim).1) with
  | error fault =>
    rw [hBuilt] at hResp
    cases hResp
  | ok built =>
    obtain ⟨cap, hCap, -⟩ := buildAnalogResponse_ok hBuilt
    exact ⟨cap, h.unique (polled_analog hSlot hk hAdr hCid hCount hReady hCells rfl hCap)⟩

/-! ### All modules -/

theorem shareCurrent_zero (n : UInt8) : clampI16 ((0 : Int32) / n.toUInt32.toInt32 / 100) = 0 := by
  apply Int16.toInt_inj.mp
  rw [toInt_moduleCurrent (by show 0 ≤ _; omega)]
  exact Int.zero_tdiv _

/-- What a module of a reserve repeats of its mirror's own payload. -/
structure MirrorsModule (r own : AnalogResponse) : Prop where
  cells : r.cellVoltagesMv = own.cellVoltagesMv
  temperatures : r.temperaturesK10 = own.temperaturesK10
  voltage : r.moduleVoltageMv = own.moduleVoltageMv
  cycles : r.cycleCount = own.cycleCount

/-- The records of the modules of a reserve of `capacity` Ah sum to its capacity and to `soc` percent
of that, up to 1 mAh for each module and never beyond. -/
structure ReserveSums (capacity soc : Nat) (rs : List AnalogResponse) : Prop where
  current : ∀ r ∈ rs, r.current01a = 0
  totalLe : sumTotalMah rs ≤ 1000 * capacity
  totalNear : 1000 * capacity < sumTotalMah rs + rs.length
  remainLe : sumRemainMah rs ≤ 10 * capacity * soc
  remainNear : 10 * capacity * soc < sumRemainMah rs + rs.length

theorem reserveSums_shares {capacity soc n : Nat} (hn : 0 < n) {rs : List AnalogResponse}
    (hLen : rs.length = n) (hCurrent : ∀ r ∈ rs, r.current01a = 0)
    (hTotal : ∀ r ∈ rs, r.totalCapacityMah.toNat = 1000 * capacity / n)
    (hRemain : ∀ r ∈ rs, r.remainCapacityMah.toNat = 10 * capacity * soc / n) :
    ReserveSums capacity soc rs := by
  obtain ⟨hTotalLe, hTotalNear⟩ := Shares.div_share (1000 * capacity) hn
  obtain ⟨hRemainLe, hRemainNear⟩ := Shares.div_share (10 * capacity * soc) hn
  have hSumTotal : sumTotalMah rs = n * (1000 * capacity / n) := by
    rw [sumTotalMah, Shares.sum_equal hTotal, hLen]
  have hSumRemain : sumRemainMah rs = n * (10 * capacity * soc / n) := by
    rw [sumRemainMah, Shares.sum_equal hRemain, hLen]
  refine ⟨hCurrent, ?_, ?_, ?_, ?_⟩
  · rwa [hSumTotal]
  · rwa [hSumTotal, hLen]
  · rwa [hSumRemain]
  · rwa [hSumRemain, hLen]

/-- The magnitudes of the current limits of the modules, in mA. -/
def sumLimitMa (limits : List Int16) : Nat := (limits.map fun l => 100 * l.toInt.natAbs).sum

/-- The limits of the modules of a reserve of `capacity` Ah sum to 0.5C, up to 100 mA for each module
and never beyond. -/
structure LimitSums (capacity : Nat) (limits : List Int16) : Prop where
  le : sumLimitMa limits ≤ 500 * capacity
  near : 500 * capacity < sumLimitMa limits + 100 * limits.length

theorem limitSums_shares {capacity n : Nat} (hn : 0 < n) {limits : List Int16}
    (hLen : limits.length = n) (hEach : ∀ l ∈ limits, l.toInt.natAbs = 500 * capacity / (n * 100)) :
    LimitSums capacity limits := by
  obtain ⟨hLe, hNear⟩ := Shares.div_share (500 * capacity) (Nat.mul_pos hn (by decide : 0 < 100))
  have hSum : sumLimitMa limits = n * 100 * (500 * capacity / (n * 100)) := by
    rw [sumLimitMa, Shares.sum_equal fun l hl => congrArg (100 * ·) (hEach l hl), hLen,
      Nat.mul_assoc]
  constructor
  · rwa [hSum]
  · rw [hSum, hLen, Nat.mul_comm 100 n]
    exact hNear

/-- Each of a module's two current limits, in tenths of 1 A. -/
theorem ReserveAt.limits {batteries : List BatteryConfig} {i m : Nat} {b : BatteryConfig}
    (h : ReserveAt batteries i m b) (pack : JkPackInfo) (lim : JkSettings) :
    let n := (moduleCountForCapacity b.capMah).toNat
    let sp := systemParameterResponse (reserveLimits b pack lim)
    sp.chargeCurrentLimit01a.toInt.natAbs = 500 * b.capAh / (n * 100) ∧
      sp.dischargeCurrentLimit01a.toInt.natAbs = 500 * b.capAh / (n * 100) := by
  intro n sp
  have hMax := toNat_reserveLimit h.low h.high
  have hModules := (reserveModules h.low h.high).2
  have hSmall : 500 * b.capAh / (n * 100) ≤ 325 := Nat.div_le_of_le_mul (by omega)
  have hCharge : sp.chargeCurrentLimit01a.toInt = (min
      ((b.capacity.toUInt32 * 1000 * kReserveCRateTenths / 10).toNat / (n * 100)) 32767 : Nat) :=
    toInt_chargeLimit _ (moduleCountForCapacity b.capMah)
  have hDischarge : sp.dischargeCurrentLimit01a.toInt = -(min
      ((b.capacity.toUInt32 * 1000 * kReserveCRateTenths / 10).toNat / (n * 100)) 32768 : Nat) :=
    toInt_dischargeLimit _ (moduleCountForCapacity b.capMah)
  rw [hMax] at hCharge hDischarge
  constructor
  · rw [hCharge, Nat.min_eq_left (by omega), Int.natAbs_natCast]
  · rw [hDischarge, Nat.min_eq_left (by omega), Int.natAbs_neg, Int.natAbs_natCast]

theorem ReserveAt.limitSums {batteries : List BatteryConfig} {i m : Nat} {b : BatteryConfig}
    (h : ReserveAt batteries i m b) {limit : UInt8 → Int16} (hEach : ∀ adr, (limit adr).toInt.natAbs =
      500 * b.capAh / ((moduleCountForCapacity b.capMah).toNat * 100)) :
    LimitSums b.capAh ((blockAddresses batteries i).map limit) := by
  refine limitSums_shares (reserveModules h.low h.high).1 ?_ fun l hl => ?_
  · rw [List.length_map, h.length_block]
  · obtain ⟨adr, -, rfl⟩ := List.mem_map.mp hl
    exact hEach adr

/-- What a monitored battery answers to an analog poll of one of its own modules. -/
def OwnPayload (batteries : List BatteryConfig) (states : Nat → SharedState) (now : Int) (m : Nat)
    (own : AnalogResponse) : Prop :=
  ∃ k slot req, (buildAddressMap batteries)[k]? = some slot ∧ slot.battery = m ∧ 2 + k ≤ 255 ∧
    req.adr = kBaseAddress + UInt8.ofNat k ∧ req.cid2 = 0x42 ∧
    Polled (buildAddressMap batteries) { configs := batteries, states } now req own

theorem OwnPayload.fields {batteries : List BatteryConfig} {states : Nat → SharedState} {now : Int}
    {m : Nat} {mb : BatteryConfig} (hMirror : batteries[m]? = some mb) (hMonitored : mb.monitored)
    {cells : JkCellInfo} {pack : JkPackInfo} {lim : JkSettings}
    (hReady : Ready (states m) now cells pack lim) (hCells : cells.voltagesMv.length ≤ 255)
    {own : AnalogResponse} (h : OwnPayload batteries states now m own) :
    ∃ req n cap, own = analogResponse req cells (slicedPack n pack) cap := by
  obtain ⟨k, slot, req, hSlot, hOwner, hk, hAdr, hCid, hPolled⟩ := h
  obtain ⟨b', hb', hNone, -, hNe⟩ := mem_buildAddressMap (List.mem_of_getElem? hSlot)
  rw [hOwner, hMirror] at hb'
  obtain rfl := Option.some.inj hb'
  rw [findMirror, if_pos hMonitored] at hNone
  have hSource : slot.source = m := by
    rw [Slot.source, hNone]
    exact hOwner
  rw [← hSource] at hReady
  obtain ⟨cap, hOwn⟩ := polled_inv hSlot hk hAdr hCid (fun h0 => hNe (by rw [h0]; rfl)) hReady hCells
    hPolled
  rw [slotPack_monitored hNone] at hOwn
  exact ⟨req, slot.moduleCount, cap, hOwn⟩

/-- A reserve polled at all of its addresses: its modules repeat their mirror, carry no current, and
sum to the reserve's capacity, charge and limits. -/
theorem reserve_consistent (batteries : List BatteryConfig) (i m : Nat) (b mb : BatteryConfig)
    (hReserve : ReserveAt batteries i m b) (hMirror : batteries[m]? = some mb)
    (hMonitored : mb.monitored) (states : Nat → SharedState) (now : Int) (cells : JkCellInfo)
    (pack : JkPackInfo) (lim : JkSettings) (hReady : Ready (states m) now cells pack lim)
    (hCells : ReportedCells cells) (hSoc : pack.stateOfChargePct.toNat ≤ 100)
    (req42 req47 req92 : UInt8 → PylontechFrame)
    (h42 : ∀ adr, (req42 adr).adr = adr ∧ (req42 adr).cid2 = 0x42)
    (h47 : ∀ adr, (req47 adr).adr = adr ∧ (req47 adr).cid2 = 0x47)
    (h92 : ∀ adr, (req92 adr).adr = adr ∧ (req92 adr).cid2 = 0x92) :
    let slots := buildAddressMap batteries
    let src : Batteries := { configs := batteries, states }
    let block := blockAddresses batteries i
    ∃ (r : UInt8 → AnalogResponse) (sp : UInt8 → SystemParameterResponse)
      (cm : UInt8 → ChargeManagementResponse),
      (∀ adr ∈ block, Polled slots src now (req42 adr) (r adr) ∧
        PolledBy SystemParameterResponse.deserialize slots src now (req47 adr) (sp adr) ∧
        PolledBy ChargeManagementResponse.decode slots src now (req92 adr) (cm adr)) ∧
      (∀ adr ∈ block, ∀ own, OwnPayload batteries states now m own → MirrorsModule (r adr) own) ∧
      ReserveSums b.capAh pack.stateOfChargePct.toNat (block.map r) ∧
      LimitSums b.capAh (block.map fun adr => (sp adr).chargeCurrentLimit01a) ∧
      LimitSums b.capAh (block.map fun adr => (sp adr).dischargeCurrentLimit01a) ∧
      LimitSums b.capAh (block.map fun adr => (cm adr).chargeCurrentLimit01a) ∧
      LimitSums b.capAh (block.map fun adr => (cm adr).dischargeCurrentLimit01a) := by
  intro slots src block
  have hLe := hCells.length_le
  have hLen : block.length = (moduleCountForCapacity b.capMah).toNat := hReserve.length_block
  have hPos := (reserveModules hReserve.low hReserve.high).1
  obtain ⟨cap, hCap, hTotal, hRemain⟩ := hReserve.capacities lim hSoc
  obtain ⟨hCharge, hDischarge⟩ := hReserve.limits pack lim
  refine ⟨fun adr => analogResponse (req42 adr) cells (reservePack b pack lim) cap,
    fun _ => systemParameterResponse (reserveLimits b pack lim),
    fun adr => chargeManagementResponse (req92 adr) (reservePack b pack lim)
      (reserveLimits b pack lim), hReserve.polled hReady hLe h42 h47 h92 hCap, ?_, ?_,
    hReserve.limitSums fun _ => hCharge, hReserve.limitSums fun _ => hDischarge,
    hReserve.limitSums fun _ => hCharge, hReserve.limitSums fun _ => hDischarge⟩
  · intro adr _ own hOwn
    obtain ⟨req, n, cap', rfl⟩ := hOwn.fields hMirror hMonitored hReady hLe
    exact ⟨rfl, rfl, rfl, rfl⟩
  · refine reserveSums_shares hPos (by rw [List.length_map, hLen]) ?_ ?_ ?_
    all_goals
      intro r hr
      obtain ⟨adr, -, rfl⟩ := List.mem_map.mp hr
    · exact shareCurrent_zero _
    · exact hTotal
    · exact hRemain

/-- A monitored battery of 50 Ah, and a reserve of 100 Ah that mirrors it. -/
def mirrored : List BatteryConfig := [
  oneModule,
  { name := "spare", link := .reserve, mirror := "main", capacity := 100 }]

theorem reserveAt_mirrored :
    ReserveAt mirrored 1 0 { name := "spare", link := .reserve, mirror := "main", capacity := 100 } where
  owner := rfl
  mirror := by decide
  low := by decide
  high := by decide
  reach k slot hSlot _ := by
    have hLt := (List.getElem?_eq_some_iff.mp hSlot).1
    have hLen : (buildAddressMap mirrored).length = 3 := by decide
    omega

theorem reserve_consistent_hundred_ah :
    let slots := buildAddressMap mirrored
    let src : Batteries := { configs := mirrored, states := fun _ => readyState }
    let block := blockAddresses mirrored 1
    ∃ (r : UInt8 → AnalogResponse) (sp : UInt8 → SystemParameterResponse)
      (cm : UInt8 → ChargeManagementResponse),
      (∀ adr ∈ block, Polled slots src 0 { adr, cid2 := 0x42 } (r adr) ∧
        PolledBy SystemParameterResponse.deserialize slots src 0 { adr, cid2 := 0x47 } (sp adr) ∧
        PolledBy ChargeManagementResponse.decode slots src 0 { adr, cid2 := 0x92 } (cm adr)) ∧
      (∀ adr ∈ block, ∀ own, OwnPayload mirrored (fun _ => readyState) 0 0 own →
        MirrorsModule (r adr) own) ∧
      ReserveSums 100 50 (block.map r) ∧
      LimitSums 100 (block.map fun adr => (sp adr).chargeCurrentLimit01a) ∧
      LimitSums 100 (block.map fun adr => (sp adr).dischargeCurrentLimit01a) ∧
      LimitSums 100 (block.map fun adr => (cm adr).chargeCurrentLimit01a) ∧
      LimitSums 100 (block.map fun adr => (cm adr).dischargeCurrentLimit01a) :=
  reserve_consistent mirrored 1 0 _ oneModule reserveAt_mirrored rfl rfl (fun _ => readyState) 0
    readyCells readyPack readySettings readyState_ready (.inl ⟨halfCharged, readyPack, halfCharged_parsed⟩)
    (by decide)
    (fun adr => { adr, cid2 := 0x42 }) (fun adr => { adr, cid2 := 0x47 })
    (fun adr => { adr, cid2 := 0x92 }) (fun _ => ⟨rfl, rfl⟩) (fun _ => ⟨rfl, rfl⟩)
    fun _ => ⟨rfl, rfl⟩

end BmsBridge
