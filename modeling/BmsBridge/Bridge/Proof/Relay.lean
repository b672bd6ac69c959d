import BmsBridge.Bridge.Proof.Limits
import BmsBridge.Pylontech.Proof.Master

/-! A battery on a Pylontech line, shown to the inverter over another: what the master decodes of
the battery's frames is what the slave answers with.  The units change on the way in and back again
on the way out.  Temperatures and currents survive both changes; a current limit keeps its size only
where the master looks at its sign. -/

namespace BmsBridge

open Words PylontechMasterProtocol

/-! ### Units -/

/-- Both changes wrap at 16 bits, and they cancel there. -/
theorem dCToK10_k10ToDC (k10 : UInt16) : dCToK10 (k10ToDC k10) = k10 := by
  unfold dCToK10 k10ToDC
  have hOffset : kKelvinOffsetDK.toInt16 = (2731 : Int32).toInt16 := rfl
  rw [Int32.toInt16_add, Int16.toInt16_toInt32, Int32.toInt16_sub, hOffset, Int16.sub_add_cancel]
  apply UInt16.toBitVec_inj.mp
  show (k10.toBitVec.setWidth 32).signExtend 16 = k10.toBitVec
  rw [BitVec.signExtend_eq_setWidth_of_le _ (by decide)]
  simp

theorem clampI16_tenths (x : Int16) : clampI16 (x.toInt32 * 100 / 100) = x := by
  have hLow := x.le_toInt
  have hHigh := x.toInt_lt
  have hMul : (x.toInt32 * 100).toInt = x.toInt * 100 := by
    rw [Int32.toInt_mul, Int16.toInt_toInt32]
    exact Int.bmod_eq_of_le (by show -2147483648 ≤ x.toInt * 100; omega)
      (by show x.toInt * 100 < 2147483648; omega)
  have hDiv : (x.toInt32 * 100 / 100).toInt = x.toInt := by
    rw [Int32.toInt_div_of_ne_right _ _ (by decide), hMul]
    exact Int.mul_tdiv_cancel _ (by decide)
  apply Int16.toInt_inj.mp
  rw [toInt_clampI16, hDiv]
  omega

theorem clampU16_toUInt32 (x : UInt16) : clampU16 x.toUInt32 = x := by
  apply UInt16.toNat_inj.mp
  have hx := x.toNat_lt
  rw [toNat_clampU16, UInt16.toNat_toUInt32]
  omega

/-- A 16-bit value is never negative as an `int`. -/
theorem max_toInt32_zero (x : UInt16) : (max x.toUInt32.toInt32 0).toUInt32 = x.toUInt32 := by
  have hx := x.toNat_lt
  have hInt : x.toUInt32.toInt32.toInt = x.toNat := by
    rw [toInt_toInt32, UInt16.toNat_toUInt32, if_pos (by omega)]
  show (if x.toUInt32.toInt32 ≤ 0 then 0 else x.toUInt32.toInt32).toUInt32 = _
  split
  · rename_i hZero
    have hNat : x.toNat = 0 := by
      have hLe := Int32.le_iff_toInt_le.mp hZero
      rw [hInt] at hLe
      exact Int.ofNat_eq_zero.mp (Int.le_antisymm hLe (Int.natCast_nonneg _))
    obtain rfl : x = 0 := UInt16.toNat_inj.mp hNat
    rfl
  · exact UInt32.toUInt32_toInt32 _

/-! ### Telemetry -/

/-- The record that the slave builds from the master's telemetry: the battery's own, apart from the
fields that the bridge fills by itself. -/
theorem analogResponse_relayed {a : AnalogResponse} (hTemps : a.temperaturesK10.length = 3)
    (req : PylontechFrame) :
    analogResponse req (telemetryOfAnalog a).cells (slicedPack 1 (telemetryOfAnalog a).pack)
        { totalMah := a.totalCapacityMah, remainMah := a.remainCapacityMah } =
      { a with
        infoflag := 0
        command := echoedCmdValue req
        userDefinedCount := kUserDefinedUS2000B } := by
  obtain ⟨t0, t1, t2, hThree⟩ : ∃ t0 t1 t2, a.temperaturesK10 = [t0, t1, t2] :=
    List.length_eq_three.mp hTemps
  have hCurrent : (slicedPack 1 (telemetryOfAnalog a).pack).currentMa = a.current01a.toInt32 * 100 :=
    Int32.div_one
  have hVoltage : clampU16 (max a.moduleVoltageMv.toUInt32.toInt32 0).toUInt32 =
      a.moduleVoltageMv := by
    rw [max_toInt32_zero, clampU16_toUInt32]
  unfold analogResponse
  simp only [hCurrent, clampI16_tenths]
  simp only [slicedPack, telemetryOfAnalog, fillCellStats_voltages, hThree, hVoltage,
    clampU16_toUInt32, List.getElem?_cons_zero, List.getElem?_cons_succ, Option.map_some,
    Option.getD_some, dCToK10_k10ToDC]

/-- A frame of the battery at the master's address, with INFO `info`. -/
def batteryFrame (p : PylontechMasterProtocol) (ver cid1 cid2 : UInt8) (info : List UInt8) :
    PylontechFrame :=
  { ver, adr := p.wireAdr, cid1, cid2, info }

/-- An analog response that comes in over a Pylontech line goes out again, to the inverter's analog
poll of the battery's only module, with the same measurements. -/
theorem relayed_transparently (p : PylontechMasterProtocol) (hRx : p.rx = []) (a : AnalogResponse)
    (hCells : a.cellVoltagesMv.length ≤ 255) (hTemps : a.temperaturesK10.length = 3)
    (hTotal : a.totalCapacityMah.toNat ≤ 65000) (ver cid1 : UInt8) (slot : Slot)
    (hMonitored : slot.mirror = none) (hCount : slot.moduleCount = 1) (capacity : Int32)
    (lim : JkSettings) (req : PylontechFrame) (hReq : req.cid2 = 0x42) :
    ∃ t resp f a',
      (p.feed (buildPylontech (batteryFrame p ver cid1 0x42 a.serialize))).1.telemetry = some t ∧
      answer slot capacity t.cells t.pack lim req = .ok (some resp) ∧
      tryParsePylontech resp = ((resp.length : Int), f) ∧
      AnalogResponse.deserialize f.info = (true, a') ∧
      a'.cellVoltagesMv = a.cellVoltagesMv ∧
      a'.temperaturesK10 = a.temperaturesK10 ∧
      a'.current01a = a.current01a ∧
      a'.moduleVoltageMv = a.moduleVoltageMv ∧
      a'.remainCapacityMah = a.remainCapacityMah ∧
      a'.totalCapacityMah = a.totalCapacityMah ∧
      a'.cycleCount = a.cycleCount := by
  have hRead := a.deserialize_serialize [] hCells (by omega)
  rw [List.append_nil] at hRead
  let a' : AnalogResponse := { a with
    infoflag := 0
    command := echoedCmdValue req
    userDefinedCount := kUserDefinedUS2000B }
  have hRead' := a'.deserialize_serialize [] hCells (by show a.temperaturesK10.length ≤ 255; omega)
  rw [List.append_nil] at hRead'
  have hLen := a.length_serialize
  refine ⟨telemetryOfAnalog a, _, { okResponse req with info := a'.serialize }, a', ?_, ?_,
    tryParse_built _ ?_, hRead', rfl, rfl, rfl, rfl, rfl, rfl, rfl⟩
  · rw [feed_built hRx (by show a.serialize.length ≤ 1024; rw [hLen]; omega)]
    simp [onFrame, batteryFrame, hRead]
  · have hCount' : slot.moduleCount ≠ 0 := by
      rw [hCount]
      decide
    have hCap : scaleCapacityToU16 a.totalCapacityMah.toUInt32 a.remainCapacityMah.toUInt32 =
        .ok { totalMah := a.totalCapacityMah, remainMah := a.remainCapacityMah } := by
      rw [scaleCapacityToU16_small (by rwa [UInt16.toNat_toUInt32]), UInt16.toUInt16_toUInt32,
        UInt16.toUInt16_toUInt32]
    rw [answer_eq hCount', slotPack_monitored hMonitored, hCount, buildResponse, if_pos hReq,
      buildAnalogResponse]
    have hTotal' : (slicedPack 1 (telemetryOfAnalog a).pack).totalCapacityMah =
        a.totalCapacityMah.toUInt32 := UInt32.div_one
    have hRemain' : (slicedPack 1 (telemetryOfAnalog a).pack).remainingCapacityMah =
        a.remainCapacityMah.toUInt32 := UInt32.div_one
    rw [hTotal', hRemain', hCap]
    show some <$> Except.ok _ = _
    rw [analogResponse_relayed hTemps]
    rfl
  · show a'.serialize.length ≤ 1024
    have hLen' : a'.serialize.length =
      15 + 2 * a.cellVoltagesMv.length + 2 * a.temperaturesK10.length := a'.length_serialize
    omega

/-- Two cells, with a temperature whose 0.1 °C value wraps. -/
def twoCells : AnalogResponse where
  cellVoltagesMv := [3300, 3310]
  temperaturesK10 := [2981, 65535, 0]
  current01a := -125
  moduleVoltageMv := 6610
  remainCapacityMah := 40000
  totalCapacityMah := 50000
  cycleCount := 65535

theorem relayed_transparently_two_cells :
    ∃ t resp f a',
      (PylontechMasterProtocol.feed { wireAdr := 3 } (buildPylontech
        (batteryFrame { wireAdr := 3 } 0x20 0x46 0x42 twoCells.serialize))).1.telemetry = some t ∧
      answer { battery := 0 } 50 t.cells t.pack {} { adr := 2, cid2 := 0x42 } = .ok (some resp) ∧
      tryParsePylontech resp = ((resp.length : Int), f) ∧
      AnalogResponse.deserialize f.info = (true, a') ∧
      a'.cellVoltagesMv = twoCells.cellVoltagesMv ∧
      a'.temperaturesK10 = twoCells.temperaturesK10 ∧
      a'.current01a = twoCells.current01a ∧
      a'.moduleVoltageMv = twoCells.moduleVoltageMv ∧
      a'.remainCapacityMah = twoCells.remainCapacityMah ∧
      a'.totalCapacityMah = twoCells.totalCapacityMah ∧
      a'.cycleCount = twoCells.cycleCount :=
  relayed_transparently { wireAdr := 3 } rfl twoCells (by decide) rfl (by decide) 0x20 0x46
    { battery := 0 } rfl rfl 50 {} { adr := 2, cid2 := 0x42 } rfl

/-! ### Limits -/

/-- The master converts a charge limit as it stands, so a negative one becomes a huge unsigned
value. -/
theorem toNat_relayedCharge (sp : SystemParameterResponse) (count : UInt8) :
    (settingsOfSystemParam sp count).maxChargeCurrentMa.toNat =
      if 0 ≤ sp.chargeCurrentLimit01a.toInt then sp.chargeCurrentLimit01a.toInt.natAbs * 100
      else 4294967296 - sp.chargeCurrentLimit01a.toInt.natAbs * 100 := by
  have hLow := sp.chargeCurrentLimit01a.le_toInt
  have hHigh := sp.chargeCurrentLimit01a.toInt_lt
  have hCast := toNat_toUInt32 sp.chargeCurrentLimit01a.toInt32
  rw [Int16.toInt_toInt32] at hCast
  show (sp.chargeCurrentLimit01a.toInt32.toUInt32 * 100).toNat = _
  rw [UInt32.toNat_mul]
  show _ * 100 % 4294967296 = _
  split <;> omega

/-- It takes the size of a discharge limit. -/
theorem toNat_relayedDischarge (sp : SystemParameterResponse) (count : UInt8) :
    (settingsOfSystemParam sp count).maxDischargeCurrentMa.toNat =
      sp.dischargeCurrentLimit01a.toInt.natAbs * 100 := by
  have hLow := sp.dischargeCurrentLimit01a.le_toInt
  have hHigh := sp.dischargeCurrentLimit01a.toInt_lt
  have hNeg : sp.dischargeCurrentLimit01a < 0 ↔ sp.dischargeCurrentLimit01a.toInt < 0 :=
    Int16.lt_iff_toInt_lt
  have hAbs : (if sp.dischargeCurrentLimit01a < 0 then -sp.dischargeCurrentLimit01a.toInt32
      else sp.dischargeCurrentLimit01a.toInt32).toInt =
        sp.dischargeCurrentLimit01a.toInt.natAbs := by
    split
    · rename_i h
      rw [hNeg] at h
      rw [Int32.toInt_neg, Int16.toInt_toInt32, Int.bmod_eq_of_le (by omega) (by omega)]
      omega
    · rename_i h
      rw [hNeg] at h
      rw [Int16.toInt_toInt32]
      omega
  have hCast := toNat_toUInt32 (if sp.dischargeCurrentLimit01a < 0 then
    -sp.dischargeCurrentLimit01a.toInt32 else sp.dischargeCurrentLimit01a.toInt32)
  rw [hAbs] at hCast
  unfold settingsOfSystemParam
  rw [UInt32.toNat_mul]
  show _ * 100 % 4294967296 = _
  omega

/-- A charge limit on the way out stays within the battery's own exactly when that one is not
negative, or so large that no 16-bit value exceeds it. -/
theorem relayedCharge_iff (sp : SystemParameterResponse) (count : UInt8) {n : UInt8} (hn : n ≠ 0) :
    let c := (clampI16 ((settingsOfSystemParam sp count).maxChargeCurrentMa /
      n.toUInt32 / 100).toInt32).toInt
    (0 ≤ c ∧ c ≤ sp.chargeCurrentLimit01a.toInt.natAbs) ↔
      0 ≤ sp.chargeCurrentLimit01a.toInt ∨ sp.chargeCurrentLimit01a.toInt ≤ -32767 := by
  have hLow := sp.chargeCurrentLimit01a.le_toInt
  have hPos := toNat_pos hn
  have hTop := n.toNat_lt
  intro c
  have hc : c = (min ((settingsOfSystemParam sp count).maxChargeCurrentMa.toNat /
      (n.toNat * 100)) 32767 : Nat) := toInt_chargeLimit _ n
  rw [toNat_relayedCharge] at hc
  split at hc
  · rename_i hSign
    have hLe : sp.chargeCurrentLimit01a.toInt.natAbs * 100 / (n.toNat * 100) ≤
        sp.chargeCurrentLimit01a.toInt.natAbs := by
      rw [Nat.mul_div_mul_right _ _ (by decide)]
      exact Nat.div_le_self _ _
    generalize sp.chargeCurrentLimit01a.toInt.natAbs * 100 / (n.toNat * 100) = q at hc hLe
    exact iff_of_true ⟨by omega, by omega⟩ (.inl hSign)
  · -- What wraps is more than 255 modules can bring below the largest limit.
    rename_i hSign
    have hBig : 32767 ≤ (4294967296 - sp.chargeCurrentLimit01a.toInt.natAbs * 100) /
        (n.toNat * 100) := by
      rw [Nat.le_div_iff_mul_le (by omega)]
      omega
    generalize (4294967296 - sp.chargeCurrentLimit01a.toInt.natAbs * 100) / (n.toNat * 100) = q
      at hc hBig
    omega

theorem relayedDischarge_within (sp : SystemParameterResponse) (count : UInt8) {n : UInt8} :
    let d := (clampI16 (-((settingsOfSystemParam sp count).maxDischargeCurrentMa /
      n.toUInt32 / 100).toInt32)).toInt
    d ≤ 0 ∧ -d ≤ sp.dischargeCurrentLimit01a.toInt.natAbs := by
  intro d
  have hd : d = -(min ((settingsOfSystemParam sp count).maxDischargeCurrentMa.toNat /
      (n.toNat * 100)) 32768 : Nat) := toInt_dischargeLimit _ n
  have hLe : sp.dischargeCurrentLimit01a.toInt.natAbs * 100 / (n.toNat * 100) ≤
      sp.dischargeCurrentLimit01a.toInt.natAbs := by
    rw [Nat.mul_div_mul_right _ _ (by decide)]
    exact Nat.div_le_self _ _
  rw [toNat_relayedDischarge] at hd
  generalize sp.dischargeCurrentLimit01a.toInt.natAbs * 100 / (n.toNat * 100) = q at hd hLe
  omega

/-- What the inverter reads in the 0x47 and the 0x92 payload, against the battery's own limits. -/
structure NotMorePermissive (sp sp' : SystemParameterResponse) (cm : ChargeManagementResponse) :
    Prop where
  cellHigh : sp'.cellHighVoltageLimitMv = sp.cellHighVoltageLimitMv
  cellLow : sp'.cellLowVoltageLimitMv = sp.cellLowVoltageLimitMv
  cellUnder : sp'.cellUnderVoltageLimitMv = sp.cellUnderVoltageLimitMv
  chargeHighTemp : sp'.chargeHighTempK10 = sp.chargeHighTempK10
  chargeLowTemp : sp'.chargeLowTempK10 = sp.chargeLowTempK10
  dischargeHighTemp : sp'.dischargeHighTempK10 = sp.dischargeHighTempK10
  charge47 : 0 ≤ sp'.chargeCurrentLimit01a.toInt ∧
    sp'.chargeCurrentLimit01a.toInt ≤ sp.chargeCurrentLimit01a.toInt.natAbs
  discharge47 : sp'.dischargeCurrentLimit01a.toInt ≤ 0 ∧
    -sp'.dischargeCurrentLimit01a.toInt ≤ sp.dischargeCurrentLimit01a.toInt.natAbs
  charge92 : 0 ≤ cm.chargeCurrentLimit01a.toInt ∧
    cm.chargeCurrentLimit01a.toInt ≤ sp.chargeCurrentLimit01a.toInt.natAbs
  discharge92 : cm.dischargeCurrentLimit01a.toInt ≤ 0 ∧
    -cm.dischargeCurrentLimit01a.toInt ≤ sp.dischargeCurrentLimit01a.toInt.natAbs

theorem notMorePermissive_iff (sp : SystemParameterResponse) (count : UInt8) {n : UInt8}
    (hn : n ≠ 0) (req : PylontechFrame) (pack : JkPackInfo) :
    NotMorePermissive sp (systemParameterResponse (slicedLimits n (settingsOfSystemParam sp count)))
        (chargeManagementResponse req pack (slicedLimits n (settingsOfSystemParam sp count))) ↔
      0 ≤ sp.chargeCurrentLimit01a.toInt ∨ sp.chargeCurrentLimit01a.toInt ≤ -32767 := by
  have hCharge := relayedCharge_iff sp count hn
  have hDischarge := relayedDischarge_within sp count (n := n)
  exact ⟨fun h => hCharge.mp h.charge47, fun h => ⟨rfl, rfl, rfl, dCToK10_k10ToDC _,
    dCToK10_k10ToDC _, dCToK10_k10ToDC _, hCharge.mpr h, hDischarge, hCharge.mpr h, hDischarge⟩⟩

/-- A system-parameter response comes in over a Pylontech line, and the inverter polls a module of
the battery for its limits by 0x47 and 0x92: both polls are answered, and with nothing more
permissive. -/
def LimitsRelayed (p : PylontechMasterProtocol) (ver cid1 : UInt8) (sp : SystemParameterResponse)
    (slot : Slot) (capacity : Int32) (cells : JkCellInfo) (pack : JkPackInfo)
    (req47 req92 : PylontechFrame) : Prop :=
  ∃ lim resp47 f47 sp' resp92 f92 cm,
    (p.feed (buildPylontech (batteryFrame p ver cid1 0x47 sp.serialize))).1.settings = some lim ∧
    answer slot capacity cells pack lim req47 = .ok (some resp47) ∧
    tryParsePylontech resp47 = ((resp47.length : Int), f47) ∧
    SystemParameterResponse.deserialize f47.info = (true, sp') ∧
    answer slot capacity cells pack lim req92 = .ok (some resp92) ∧
    tryParsePylontech resp92 = ((resp92.length : Int), f92) ∧
    ChargeManagementResponse.decode f92.info = (true, cm) ∧
    NotMorePermissive sp sp' cm

theorem limitsRelayed_eq {p : PylontechMasterProtocol} (hRx : p.rx = []) (ver cid1 : UInt8)
    (sp : SystemParameterResponse) {slot : Slot} (hMonitored : slot.mirror = none)
    (hCount : slot.moduleCount ≠ 0) (capacity : Int32) (cells : JkCellInfo) (pack : JkPackInfo)
    {req47 req92 : PylontechFrame} (h47 : req47.cid2 = 0x47) (h92 : req92.cid2 = 0x92) :
    let lim := slicedLimits slot.moduleCount (settingsOfSystemParam sp p.lastCellCount)
    LimitsRelayed p ver cid1 sp slot capacity cells pack req47 req92 ↔
      NotMorePermissive sp (systemParameterResponse lim)
        (chargeManagementResponse req92 (slicedPack slot.moduleCount pack) lim) := by
  intro lim
  have hRead := sp.deserialize_serialize []
  rw [List.append_nil] at hRead
  have hFeed : (p.feed (buildPylontech (batteryFrame p ver cid1 0x47 sp.serialize))).1.settings =
      some (settingsOfSystemParam sp p.lastCellCount) := by
    rw [feed_built hRx (by show sp.serialize.length ≤ 1024; exact (by decide : 25 ≤ 1024))]
    simp [onFrame, batteryFrame, hRead]
  have h47' := answer_systemParam hCount capacity cells pack
    (settingsOfSystemParam sp p.lastCellCount) h47
  have h92' := answer_chgmgmt hCount capacity cells pack
    (settingsOfSystemParam sp p.lastCellCount) h92
  rw [slotPack_monitored hMonitored] at h47' h92'
  obtain ⟨hResp47, hParse47, hRead47⟩ := h47'
  obtain ⟨hResp92, hParse92, hRead92⟩ := h92'
  constructor
  · -- Every step of the relay has one outcome.
    rintro ⟨lim, resp47, f47, sp', resp92, f92, cm, hLim, hAns47, hP47, hR47, hAns92, hP92, hR92, h⟩
    obtain rfl := Option.some.inj (hFeed.symm.trans hLim)
    obtain rfl := Option.some.inj (Except.ok.inj (hResp47.symm.trans hAns47))
    obtain rfl := Option.some.inj (Except.ok.inj (hResp92.symm.trans hAns92))
    obtain rfl := congrArg Prod.snd (hParse47.symm.trans hP47)
    obtain rfl := congrArg Prod.snd (hParse92.symm.trans hP92)
    obtain rfl := congrArg Prod.snd (hRead47.symm.trans hR47)
    obtain rfl := congrArg Prod.snd (hRead92.symm.trans hR92)
    exact h
  · exact fun h => ⟨_, _, _, _, _, _, _, hFeed, hResp47, hParse47, hRead47, hResp92, hParse92,
      hRead92, h⟩

/-- The relay is never more permissive exactly when the battery's own charge limit is not negative,
or at the very bottom of its range: the master loses the sign of a negative one. -/
theorem limits_relayed_iff (p : PylontechMasterProtocol) (hRx : p.rx = []) (ver cid1 : UInt8)
    (sp : SystemParameterResponse) (slot : Slot) (hMonitored : slot.mirror = none)
    (hCount : slot.moduleCount ≠ 0) (capacity : Int32) (cells : JkCellInfo) (pack : JkPackInfo)
    (req47 req92 : PylontechFrame) (h47 : req47.cid2 = 0x47) (h92 : req92.cid2 = 0x92) :
    LimitsRelayed p ver cid1 sp slot capacity cells pack req47 req92 ↔
      0 ≤ sp.chargeCurrentLimit01a.toInt ∨ sp.chargeCurrentLimit01a.toInt ≤ -32767 :=
  (limitsRelayed_eq hRx ver cid1 sp hMonitored hCount capacity cells pack h47 h92).trans
    (notMorePermissive_iff sp p.lastCellCount hCount req92 (slicedPack slot.moduleCount pack))

/-- One module of a battery that allows 60 A each way. -/
theorem limits_relayed_sixty_amps :
    LimitsRelayed { wireAdr := 3 } 0x20 0x46
        { chargeCurrentLimit01a := 600, dischargeCurrentLimit01a := -600 } { battery := 0 } 50 {} {}
        { adr := 2, cid2 := 0x47 } { adr := 2, cid2 := 0x92 } ↔
      0 ≤ (600 : Int16).toInt ∨ (600 : Int16).toInt ≤ -32767 :=
  limits_relayed_iff { wireAdr := 3 } rfl 0x20 0x46
    { chargeCurrentLimit01a := 600, dischargeCurrentLimit01a := -600 } { battery := 0 } rfl
    (by decide) 50 {} {} { adr := 2, cid2 := 0x47 } { adr := 2, cid2 := 0x92 } rfl rfl

/-- A battery that sends its charge limit of 60 A with a minus sign. -/
theorem negative_charge_limit_relayed :
    ¬∀ (p : PylontechMasterProtocol) (ver cid1 : UInt8) (sp : SystemParameterResponse) (slot : Slot)
        (capacity : Int32) (cells : JkCellInfo) (pack : JkPackInfo) (req47 req92 : PylontechFrame),
      p.rx = [] → slot.mirror = none → slot.moduleCount ≠ 0 → req47.cid2 = 0x47 →
      req92.cid2 = 0x92 → LimitsRelayed p ver cid1 sp slot capacity cells pack req47 req92 := by
  intro hAll
  have hRelayed := hAll { wireAdr := 3 } 0x20 0x46 { chargeCurrentLimit01a := -600 } { battery := 0 }
    50 {} {} { adr := 2, cid2 := 0x47 } { adr := 2, cid2 := 0x92 } rfl rfl (by decide) rfl rfl
  have hRecord := (limitsRelayed_eq rfl _ _ _ rfl (by decide) _ _ _ rfl rfl).mp hRelayed
  exact absurd hRecord.charge47.2 (by decide)

end BmsBridge
