import BmsBridge.Bridge.Proof.Config
import BmsBridge.Bridge.Proof.Reserve
import BmsBridge.Http.Info

/-! What the dashboard shows of a reserve, against what the inverter adds up over its modules.  Both
compute capacity and limits from the configuration; the dashboard has the charge pinned at 100 %, and
the inverter gets the mirror's. -/

namespace BmsBridge

open Words HttpServer

/-- The figures of the dashboard are those of the modules: less than 1 mAh of capacity and 100 mA of
a limit apart for each module, and a percentage of charge that is 1 or less apart. -/
structure DashboardFigures (info : ReserveInfo) (rs : List AnalogResponse)
    (sps : List SystemParameterResponse) (cms : List ChargeManagementResponse) : Prop where
  capacity : ((info.capacityMah.toNat : Int) - sumTotalMah rs).natAbs < rs.length
  charge47 : ((info.chargeCurrentLimitMa.toNat : Int) -
    sumLimitMa (sps.map (·.chargeCurrentLimit01a))).natAbs < 100 * sps.length
  discharge47 : ((info.dischargeCurrentLimitMa.toNat : Int) -
    sumLimitMa (sps.map (·.dischargeCurrentLimit01a))).natAbs < 100 * sps.length
  charge92 : ((info.chargeCurrentLimitMa.toNat : Int) -
    sumLimitMa (cms.map (·.chargeCurrentLimit01a))).natAbs < 100 * cms.length
  discharge92 : ((info.dischargeCurrentLimitMa.toNat : Int) -
    sumLimitMa (cms.map (·.dischargeCurrentLimit01a))).natAbs < 100 * cms.length
  current : info.currentMa = sumCurrentMa rs
  soc : ((100 * sumRemainMah rs : Int) - info.socPct * sumTotalMah rs).natAbs ≤ sumTotalMah rs

/-- The dashboard's answer about a battery agrees with the inverter's polls of all its modules. -/
def DashboardAgrees (s : HttpServer) (src : Batteries) (id : Int) (i : Nat) (now : Int)
    (req42 req47 req92 : UInt8 → PylontechFrame) : Prop :=
  let slots := buildAddressMap src.configs
  let block := blockAddresses src.configs i
  ∃ (info : ReserveInfo) (r : UInt8 → AnalogResponse) (sp : UInt8 → SystemParameterResponse)
    (cm : UInt8 → ChargeManagementResponse),
    s.handleInfo src id = .reserve info ∧
      (∀ adr ∈ block, Polled slots src now (req42 adr) (r adr) ∧
        PolledBy SystemParameterResponse.deserialize slots src now (req47 adr) (sp adr) ∧
        PolledBy ChargeManagementResponse.decode slots src now (req92 adr) (cm adr)) ∧
      DashboardFigures info (block.map r) (block.map sp) (block.map cm)

/-! ### The dashboard's figures -/

theorem find_battery {bs : List BatteryConfig} (hDistinct : (bs.map BatteryConfig.name).Nodup)
    {b : BatteryConfig} (hb : b ∈ bs) : (bs.find? fun c => c.name = b.name) = some b := by
  cases hFind : bs.find? fun c => c.name = b.name with
  | none => exact absurd (decide_eq_true rfl) (List.find?_eq_none.mp hFind b hb)
  | some c =>
    have hOnly := find_name_unique hDistinct hFind
    have hMem : b ∈ bs.filter (·.name = b.name) := List.mem_filter.mpr ⟨hb, by simp⟩
    rw [hOnly, List.mem_singleton] at hMem
    rw [hMem]

theorem handleInfo_reserve {s : HttpServer} {src : Batteries} {id : Int} {b : BatteryConfig}
    (hDistinct : (src.configs.map BatteryConfig.name).Nodup) (hb : b ∈ src.configs)
    (hReserve : b.monitored = false) (hName : s.history.batteryName id = b.name) :
    s.handleInfo src id = .reserve (reserveInfo b) := by
  unfold handleInfo
  simp only [hName, find_battery hDistinct hb, hReserve, Bool.not_false, ↓reduceIte]

/-- A percentage of 100 is at most 1 off what `n` equal modules hold exactly when each of them holds
99 %. -/
theorem full_near_iff {n total remain : Nat} (hn : 0 < n) (hLe : remain ≤ total) :
    ((100 * (n * remain : Nat) : Int) - (100 : Nat) * (n * total : Nat)).natAbs ≤ n * total ↔
      99 * total ≤ 100 * remain := by
  obtain ⟨missing, rfl⟩ := Nat.exists_eq_add_of_le hLe
  have hSplit : n * (remain + missing) = n * remain + n * missing := Nat.mul_add ..
  have hScale : 99 * (remain + missing) ≤ 100 * remain ↔ n * (99 * missing) ≤ n * remain := by
    rw [Nat.mul_le_mul_left_iff hn]
    omega
  have hAssoc : n * (99 * missing) = 99 * (n * missing) := by
    rw [Nat.mul_left_comm]
  rw [hScale, hAssoc, hSplit]
  omega

/-- Of the percentages of charge, only 100 and sometimes 99 come close enough to 100: a module has
at least 1000 mAh, so the truncated shares cannot hide two. -/
theorem share_near_full_iff {capacity n soc : Nat} (hn : 0 < n) (hEnough : n ≤ capacity)
    (hSoc : soc ≤ 100) :
    99 * (1000 * capacity / n) ≤ 100 * (10 * capacity * soc / n) ↔
      soc = 100 ∨ (soc = 99 ∧ 99 * (1000 * capacity / n) ≤ 100 * (990 * capacity / n)) := by
  have hHundred : 10 * capacity * 100 = 1000 * capacity := by omega
  have hNinetyNine : 10 * capacity * 99 = 990 * capacity := by omega
  rcases Nat.lt_or_ge soc 99 with hLow | hHigh
  · have hMono : 10 * capacity * soc / n ≤ 980 * capacity / n := by
      apply Nat.div_le_div_right
      have := Nat.mul_le_mul_left (10 * capacity) (show soc ≤ 98 by omega)
      omega
    obtain ⟨-, hTotal⟩ := Shares.div_share (1000 * capacity) hn
    obtain ⟨hRemain, -⟩ := Shares.div_share (980 * capacity) hn
    refine iff_of_false ?_ (by omega)
    intro hNear
    have hProduct := Nat.mul_le_mul_left n (hNear.trans (Nat.mul_le_mul_left 100 hMono))
    have hLeft : n * (99 * (1000 * capacity / n)) = 99 * (n * (1000 * capacity / n)) :=
      Nat.mul_left_comm ..
    have hRight : n * (100 * (980 * capacity / n)) = 100 * (n * (980 * capacity / n)) :=
      Nat.mul_left_comm ..
    omega
  · obtain rfl | rfl : soc = 99 ∨ soc = 100 := by omega
    · rw [hNinetyNine]
      constructor
      · exact fun h => .inr ⟨rfl, h⟩
      · rintro (h | ⟨-, h⟩)
        · cases h
        · exact h
    · rw [hHundred]
      exact iff_of_true (by omega) (.inl rfl)

/-! ### Agreement -/

theorem near_of_limitSums {capacity : Nat} {limits : List Int16} (h : LimitSums capacity limits) :
    ((500 * capacity : Nat) - sumLimitMa limits : Int).natAbs < 100 * limits.length := by
  have hLe := h.le
  have hNear := h.near
  omega

/-- The figures agree exactly when the state of charge of the modules is close enough to 100 %. -/
theorem dashboardFigures_iff {capacity soc n : Nat} (hn : 0 < n) (hEnough : n ≤ capacity)
    (hSoc : soc ≤ 100) {info : ReserveInfo} (hCapacity : info.capacityMah.toNat = 1000 * capacity)
    (hCharge : info.chargeCurrentLimitMa.toNat = 500 * capacity)
    (hDischarge : info.dischargeCurrentLimitMa.toNat = 500 * capacity) (hCurrent : info.currentMa = 0)
    (hPinned : info.socPct = 100) {rs : List AnalogResponse} {sps : List SystemParameterResponse}
    {cms : List ChargeManagementResponse} (hLen : rs.length = n)
    (hRs : ∀ r ∈ rs, r.current01a = 0 ∧ r.totalCapacityMah.toNat = 1000 * capacity / n ∧
      r.remainCapacityMah.toNat = 10 * capacity * soc / n)
    (h47 : LimitSums capacity (sps.map (·.chargeCurrentLimit01a)) ∧
      LimitSums capacity (sps.map (·.dischargeCurrentLimit01a)))
    (h92 : LimitSums capacity (cms.map (·.chargeCurrentLimit01a)) ∧
      LimitSums capacity (cms.map (·.dischargeCurrentLimit01a))) :
    DashboardFigures info rs sps cms ↔ soc = 100 ∨ (soc = 99 ∧
      99 * (1000 * capacity / n) ≤ 100 * (990 * capacity / n)) := by
  have hTotal : sumTotalMah rs = n * (1000 * capacity / n) := by
    rw [sumTotalMah, Shares.sum_equal fun r hr => (hRs r hr).2.1, hLen]
  have hRemain : sumRemainMah rs = n * (10 * capacity * soc / n) := by
    rw [sumRemainMah, Shares.sum_equal fun r hr => (hRs r hr).2.2, hLen]
  have hLe : 10 * capacity * soc / n ≤ 1000 * capacity / n := by
    apply Nat.div_le_div_right
    have := Nat.mul_le_mul_left (10 * capacity) hSoc
    omega
  have hNear : ((100 * sumRemainMah rs : Int) - info.socPct * sumTotalMah rs).natAbs ≤
      sumTotalMah rs ↔ 99 * (1000 * capacity / n) ≤ 100 * (10 * capacity * soc / n) := by
    rw [hTotal, hRemain, hPinned]
    exact full_near_iff hn hLe
  rw [← share_near_full_iff hn hEnough hSoc, ← hNear]
  constructor
  · exact fun h => h.soc
  · intro h
    have h47Charge := near_of_limitSums h47.1
    have h47Discharge := near_of_limitSums h47.2
    have h92Charge := near_of_limitSums h92.1
    have h92Discharge := near_of_limitSums h92.2
    rw [List.length_map] at h47Charge h47Discharge h92Charge h92Discharge
    refine ⟨?_, ?_, ?_, ?_, ?_, ?_, h⟩
    · have hShare := Shares.div_share (1000 * capacity) hn
      rw [hCapacity, hTotal, hLen]
      omega
    · rwa [hCharge]
    · rwa [hDischarge]
    · rwa [hCharge]
    · rwa [hDischarge]
    · have hZero : ∀ r ∈ rs, 100 * r.current01a.toInt = 0 := fun r hr => by
        rw [(hRs r hr).1]
        rfl
      rw [hCurrent, sumCurrentMa, List.map_congr_left hZero, List.map_const', List.sum_replicate_int,
        Int.mul_zero]

theorem reserveModules_le {b : BatteryConfig} (hLow : 1 ≤ b.capacity.toInt)
    (hHigh : b.capacity.toInt ≤ 16575) : (moduleCountForCapacity b.capMah).toNat ≤ b.capAh := by
  have hTotal : b.capMah.toNat = 1000 * b.capAh := toNat_reserveTotal hLow hHigh
  obtain ⟨hPos, -⟩ := capAh_bounds hLow hHigh
  rw [toNat_moduleCountForCapacity, hTotal]
  split
  · exact hPos
  · have hMod := Nat.mod_le (1000 * b.capAh + 64999) 4294967296
    omega

/-- The answer about a reserve agrees with the inverter's polls exactly when the state of charge of
its mirror is 100 %, or 99 % and the rounding of the modules hides the rest. -/
theorem dashboardAgrees_iff {batteries : List BatteryConfig}
    (hDistinct : (batteries.map BatteryConfig.name).Nodup) {i m : Nat} {b : BatteryConfig}
    (hReserve : ReserveAt batteries i m b) {s : HttpServer} {id : Int}
    (hName : s.history.batteryName id = b.name) {states : Nat → SharedState} {now : Int}
    {cells : JkCellInfo} {pack : JkPackInfo} {lim : JkSettings}
    (hReady : Ready (states m) now cells pack lim) (hCells : cells.voltagesMv.length ≤ 255)
    (hSoc : pack.stateOfChargePct.toNat ≤ 100) {req42 req47 req92 : UInt8 → PylontechFrame}
    (h42 : ∀ adr, (req42 adr).adr = adr ∧ (req42 adr).cid2 = 0x42)
    (h47 : ∀ adr, (req47 adr).adr = adr ∧ (req47 adr).cid2 = 0x47)
    (h92 : ∀ adr, (req92 adr).adr = adr ∧ (req92 adr).cid2 = 0x92) :
    let n := (blockAddresses batteries i).length
    DashboardAgrees s { configs := batteries, states } id i now req42 req47 req92 ↔
      pack.stateOfChargePct.toNat = 100 ∨ (pack.stateOfChargePct.toNat = 99 ∧
        99 * (1000 * b.capAh / n) ≤ 100 * (990 * b.capAh / n)) := by
  intro n
  have hLen : n = (moduleCountForCapacity b.capMah).toNat := hReserve.length_block
  have hInfo : s.handleInfo { configs := batteries, states } id = .reserve (reserveInfo b) :=
    handleInfo_reserve hDistinct (List.mem_of_getElem? hReserve.owner) hReserve.not_monitored hName
  obtain ⟨cap, hCap, hTotal, hRemain⟩ := hReserve.capacities lim hSoc
  obtain ⟨hCharge, hDischarge⟩ := hReserve.limits pack lim
  have hPolled := hReserve.polled hReady hCells h42 h47 h92 hCap
  have hRs : ∀ r ∈ (blockAddresses batteries i).map fun adr =>
      analogResponse (req42 adr) cells (reservePack b pack lim) cap,
      r.current01a = 0 ∧
        r.totalCapacityMah.toNat = 1000 * b.capAh / (moduleCountForCapacity b.capMah).toNat ∧
        r.remainCapacityMah.toNat = 10 * b.capAh * pack.stateOfChargePct.toNat /
          (moduleCountForCapacity b.capMah).toNat := by
    intro r hr
    obtain ⟨adr, -, rfl⟩ := List.mem_map.mp hr
    exact ⟨shareCurrent_zero _, hTotal, hRemain⟩
  have hLimits := And.intro (hReserve.limitSums fun _ => hCharge)
    (hReserve.limitSums fun _ => hDischarge)
  have hFigures : DashboardFigures (reserveInfo b)
      ((blockAddresses batteries i).map fun adr =>
        analogResponse (req42 adr) cells (reservePack b pack lim) cap)
      ((blockAddresses batteries i).map fun _ =>
        systemParameterResponse (reserveLimits b pack lim))
      ((blockAddresses batteries i).map fun adr =>
        chargeManagementResponse (req92 adr) (reservePack b pack lim) (reserveLimits b pack lim)) ↔ _ :=
    dashboardFigures_iff (reserveModules hReserve.low hReserve.high).1
      (reserveModules_le hReserve.low hReserve.high) hSoc
      (toNat_reserveTotal hReserve.low hReserve.high) (toNat_reserveLimit hReserve.low hReserve.high)
      (toNat_reserveLimit hReserve.low hReserve.high) rfl rfl (by rw [List.length_map, ← hLen]) hRs
      (by rw [List.map_map, List.map_map]; exact hLimits)
      (by rw [List.map_map, List.map_map]; exact hLimits)
  rw [hLen, ← hFigures]
  constructor
  · -- A poll has one answer.
    rintro ⟨info, r, sp, cm, hReply, hPolls, hAgree⟩
    rw [hInfo] at hReply
    obtain rfl := InfoReply.reserve.inj hReply
    have hR := List.map_congr_left fun adr hAdr =>
      Polled.unique (hPolls adr hAdr).1 (hPolled adr hAdr).1
    have hSp := List.map_congr_left fun adr hAdr =>
      (hPolls adr hAdr).2.1.unique (hPolled adr hAdr).2.1
    have hCm := List.map_congr_left fun adr hAdr =>
      (hPolls adr hAdr).2.2.unique (hPolled adr hAdr).2.2
    rwa [hR, hSp, hCm] at hAgree
  · exact fun h => ⟨_, _, _, _, hInfo, hPolled, h⟩

theorem names_nodup {path : String} {parse : CfgParse} {stale : Nat → BatteryLink} {app : AppConfig}
    (hAccept : loadConfig path parse stale = .ok app) :
    (app.batteries.map BatteryConfig.name).Nodup := by
  obtain ⟨cfg, rfl, -, -⟩ := loadConfig_ok hAccept
  exact (loadConfig_wellFormed hAccept).distinct

/-- About a reserve of an accepted configuration, the dashboard and the inverter agree exactly when
the mirror is full, or at 99 % where the rounding of the modules hides the rest. -/
theorem dashboard_agrees_iff (path : String) (parse : CfgParse) (stale : Nat → BatteryLink)
    (app : AppConfig) (hAccept : loadConfig path parse stale = .ok app) (i m : Nat)
    (b : BatteryConfig) (hReserve : ReserveAt app.batteries i m b) (s : HttpServer) (id : Int)
    (hName : s.history.batteryName id = b.name) (states : Nat → SharedState) (now : Int)
    (cells : JkCellInfo) (pack : JkPackInfo) (lim : JkSettings)
    (hReady : Ready (states m) now cells pack lim) (hCells : ReportedCells cells)
    (hSoc : pack.stateOfChargePct.toNat ≤ 100) (req42 req47 req92 : UInt8 → PylontechFrame)
    (h42 : ∀ adr, (req42 adr).adr = adr ∧ (req42 adr).cid2 = 0x42)
    (h47 : ∀ adr, (req47 adr).adr = adr ∧ (req47 adr).cid2 = 0x47)
    (h92 : ∀ adr, (req92 adr).adr = adr ∧ (req92 adr).cid2 = 0x92) :
    let n := (blockAddresses app.batteries i).length
    DashboardAgrees s { configs := app.batteries, states } id i now req42 req47 req92 ↔
      pack.stateOfChargePct.toNat = 100 ∨ (pack.stateOfChargePct.toNat = 99 ∧
        99 * (1000 * b.capAh / n) ≤ 100 * (990 * b.capAh / n)) :=
  dashboardAgrees_iff (names_nodup hAccept) hReserve hName hReady hCells.length_le hSoc h42 h47 h92

/-- The reserve of 100 Ah in the file with a pair of batteries. -/
theorem reserveAt_pair : ReserveAt (loaded pairTree .ttl).batteries 1 0
    { name := "spare", link := .reserve, linkRaw := "reserve", address := "none", capacity := 100
      mirror := "main" } where
  owner := by decide +kernel
  mirror := by decide
  low := by decide
  high := by decide
  reach k slot hSlot _ := by
    have hLt := (List.getElem?_eq_some_iff.mp hSlot).1
    have hLen : (buildAddressMap (loaded pairTree .ttl).batteries).length = 3 := by decide +kernel
    omega

/-- A battery that has just reported a state of charge. -/
def chargedState (soc : UInt8) : SharedState :=
  { readyState with pack := some { readyPack with stateOfChargePct := soc } }

/-- The dashboard's server, once the history knows the reserve by the id 2. -/
def pairServer : HttpServer where
  history := { batteryIdCache := [("spare", 2)] }

theorem dashboard_agrees_iff_full :
    DashboardAgrees pairServer
        { configs := (loaded pairTree .ttl).batteries, states := fun _ => chargedState 100 } 2 1 0
        (fun adr => { adr, cid2 := 0x42 }) (fun adr => { adr, cid2 := 0x47 })
        (fun adr => { adr, cid2 := 0x92 }) ↔
      (100 : UInt8).toNat = 100 ∨ ((100 : UInt8).toNat = 99 ∧
        99 * (1000 * 100 / 2) ≤ 100 * (990 * 100 / 2)) :=
  dashboard_agrees_iff "bms_bridge.conf" (.tree pairTree) (fun _ => .ttl) (loaded pairTree .ttl)
    (by decide +kernel) 1 0 _ reserveAt_pair pairServer 2 (by decide) (fun _ => chargedState 100) 0
    readyCells { readyPack with stateOfChargePct := 100 } readySettings ⟨by decide, rfl, rfl, rfl⟩
    (.inl ⟨halfCharged, readyPack, halfCharged_parsed⟩) (by decide) (fun adr => { adr, cid2 := 0x42 })
    (fun adr => { adr, cid2 := 0x47 }) (fun adr => { adr, cid2 := 0x92 }) (fun _ => ⟨rfl, rfl⟩)
    (fun _ => ⟨rfl, rfl⟩) fun _ => ⟨rfl, rfl⟩

/-- Of a reserve at half charge the dashboard says that it is full. -/
theorem half_charged_shown_full :
    ¬∀ (path : String) (parse : CfgParse) (stale : Nat → BatteryLink) (app : AppConfig) (i m : Nat)
        (b : BatteryConfig) (s : HttpServer) (id : Int) (states : Nat → SharedState) (now : Int)
        (cells : JkCellInfo) (pack : JkPackInfo) (lim : JkSettings)
        (req42 req47 req92 : UInt8 → PylontechFrame), loadConfig path parse stale = .ok app →
      ReserveAt app.batteries i m b → s.history.batteryName id = b.name →
      Ready (states m) now cells pack lim → ReportedCells cells →
      pack.stateOfChargePct.toNat ≤ 100 → (∀ adr, (req42 adr).adr = adr ∧ (req42 adr).cid2 = 0x42) →
      (∀ adr, (req47 adr).adr = adr ∧ (req47 adr).cid2 = 0x47) →
      (∀ adr, (req92 adr).adr = adr ∧ (req92 adr).cid2 = 0x92) →
        DashboardAgrees s { configs := app.batteries, states } id i now req42 req47 req92 := by
  intro hAll
  have hLoaded : loadConfig "bms_bridge.conf" (.tree pairTree) (fun _ => .ttl) =
      .ok (loaded pairTree .ttl) := by decide +kernel
  have hReady : Ready (chargedState 50) 0 readyCells readyPack readySettings :=
    ⟨by decide, rfl, rfl, rfl⟩
  have hName : pairServer.history.batteryName 2 = "spare" := by decide
  have h42 (adr : UInt8) : ({ adr, cid2 := 0x42 } : PylontechFrame).adr = adr ∧
    ({ adr, cid2 := 0x42 } : PylontechFrame).cid2 = 0x42 := ⟨rfl, rfl⟩
  have h47 (adr : UInt8) : ({ adr, cid2 := 0x47 } : PylontechFrame).adr = adr ∧
    ({ adr, cid2 := 0x47 } : PylontechFrame).cid2 = 0x47 := ⟨rfl, rfl⟩
  have h92 (adr : UInt8) : ({ adr, cid2 := 0x92 } : PylontechFrame).adr = adr ∧
    ({ adr, cid2 := 0x92 } : PylontechFrame).cid2 = 0x92 := ⟨rfl, rfl⟩
  have hAgrees := hAll _ _ _ _ 1 0 _ pairServer 2 (fun _ => chargedState 50) 0 readyCells _ readySettings
    _ _ _ hLoaded reserveAt_pair hName hReady (.inl ⟨halfCharged, readyPack, halfCharged_parsed⟩)
    (by decide) h42 h47 h92
  have hSoc := (dashboardAgrees_iff (names_nodup hLoaded) reserveAt_pair hName hReady (by decide)
    (by decide) h42 h47 h92).mp hAgrees
  revert hSoc
  decide

end BmsBridge
