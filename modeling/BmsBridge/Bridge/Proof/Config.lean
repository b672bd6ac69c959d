import BmsBridge.Bridge.Config
import BmsBridge.Lib.Faults
import BmsBridge.Lib.Paired

/-! What `load_config` promises of a configuration that it accepts. -/

namespace BmsBridge

theorem loadTree_ok {cfg : CfgTree} {stale : Nat → BatteryLink} {app : AppConfig}
    (h : loadTree cfg stale = .ok app) :
    loadBatteries stale [] cfg.batteries = .ok app.batteries ∧
      app.batteries.forM (checkMirror app.batteries) = .ok () := by
  simp only [loadTree] at h
  split at h
  · split at h
    · cases h
    · split at h
      · cases h
      · obtain ⟨batteries, hBatteries, h⟩ := Faults.bind_ok h
        obtain ⟨⟨⟩, hMirrors, h⟩ := Faults.bind_ok h
        cases h
        exact ⟨hBatteries, hMirrors⟩
  · cases h

theorem loadConfig_ok {path : String} {parse : CfgParse} {stale : Nat → BatteryLink}
    {app : AppConfig} (h : loadConfig path parse stale = .ok app) :
    ∃ cfg, parse = .tree cfg ∧ cfg.batteries.forM validate = .ok () ∧
      loadTree cfg stale = .ok app := by
  cases parse with
  | fileError reason => cases h
  | syntaxError => cases h
  | tree cfg =>
    simp only [loadConfig] at h
    split at h
    · cases h
    · rename_i hValid
      exact ⟨cfg, rfl, hValid, h⟩

/-- A reserve of an accepted configuration names a battery, and that battery is monitored. -/
theorem loadConfig_mirror {path : String} {parse : CfgParse} {stale : Nat → BatteryLink}
    {app : AppConfig} (h : loadConfig path parse stale = .ok app) {b : BatteryConfig}
    (hb : b ∈ app.batteries) (hReserve : b.monitored = false) :
    ∃ o, app.batteries.find? (fun o => o.name = b.mirror) = some o ∧ o.monitored = true := by
  obtain ⟨cfg, -, -, hTree⟩ := loadConfig_ok h
  have hCheck := Faults.forM_ok (loadTree_ok hTree).2 b hb
  simp only [checkMirror, hReserve, Bool.not_false, ↓reduceIte] at hCheck
  split at hCheck
  · cases hCheck
  · rename_i o hFind
    refine ⟨o, hFind, ?_⟩
    cases hMonitored : o.monitored with
    | true => rfl
    | false =>
      rw [hMonitored] at hCheck
      cases hCheck

/-! ### The checks one by one -/

/-- What the validators let through of one section. -/
structure Validated (o : BatteryOpts) : Prop where
  type : ∀ t, o.type = some t → (linkFromStr t).isSome
  protocol : o.protocol.getD "" ≠ "" → isSupportedProtocol (o.protocol.getD "")
  address : o.protocol = some "pylontech" →
    1 ≤ o.pylontechAddress.getD 0 ∧ o.pylontechAddress.getD 0 ≤ 16

theorem vfType_ok {o : BatteryOpts} (h : vfType o = .ok ()) : (o.type.bind linkFromStr).isSome := by
  unfold vfType at h
  split at h
  · cases h
  · rename_i l hLink
    rw [hLink]
    rfl

theorem vfProtocol_ok {o : BatteryOpts} (h : vfProtocol o = .ok ())
    (hNe : o.protocol.getD "" ≠ "") : isSupportedProtocol (o.protocol.getD "") := by
  simp only [vfProtocol] at h
  split at h
  · cases h
  · rename_i hBoth
    simpa [hNe] using hBoth

theorem vfBattery_ok {o : BatteryOpts} (h : vfBattery o = .ok ())
    (hProtocol : o.protocol = some "pylontech") :
    1 ≤ o.pylontechAddress.getD 0 ∧ o.pylontechAddress.getD 0 ≤ 16 := by
  unfold vfBattery at h
  rw [if_pos hProtocol] at h
  obtain ⟨hRange, -⟩ := Faults.check_ok h
  rw [not_or] at hRange
  exact ⟨Int64.not_lt.mp hRange.1, Int64.not_lt.mp hRange.2⟩

theorem validate_ok {o : BatteryOpts} (h : validate o = .ok ()) : Validated o := by
  unfold validate at h
  obtain ⟨hType, h⟩ := Faults.when_ok h
  obtain ⟨hProtocol, h⟩ := Faults.when_ok h
  refine ⟨fun t ht => ?_, fun hNe => vfProtocol_ok (hProtocol ?_) hNe, vfBattery_ok h⟩
  · have hLink := vfType_ok (hType (by rw [ht]; rfl))
    rwa [ht] at hLink
  · cases hNone : o.protocol with
    | none =>
      rw [hNone] at hNe
      exact absurd rfl hNe
    | some p => rfl

theorem toInt32_address {a : Int64} (h : 1 ≤ a ∧ a ≤ 16) : 1 ≤ a.toInt32 ∧ a.toInt32 ≤ 16 := by
  have hLow : 1 ≤ a.toInt := Int64.le_iff_toInt_le.mp h.1
  have hHigh : a.toInt ≤ 16 := Int64.le_iff_toInt_le.mp h.2
  have hSame : a.toInt32.toInt = a.toInt := by
    rw [Int64.toInt_toInt32]
    exact Int.bmod_eq_of_le (by omega) (by omega)
  exact ⟨Int32.le_iff_toInt_le.mpr (by rwa [hSame]), Int32.le_iff_toInt_le.mpr (by rwa [hSame])⟩

/-- What `load_config` checks of one battery against those before it. -/
structure Checked (before : List BatteryConfig) (b : BatteryConfig) : Prop where
  name : b.name ≠ ""
  fresh : b.name ∉ before.map BatteryConfig.name
  address : b.address ≠ ""
  protocol : b.monitored → b.protocol ≠ ""
  capacity : ¬b.monitored → 0 < b.capacity

theorem checkBattery_ok {before : List BatteryConfig} {b : BatteryConfig}
    (h : checkBattery before b = .ok ()) : Checked before b := by
  unfold checkBattery at h
  obtain ⟨hName, h⟩ := Faults.check_ok h
  obtain ⟨hFresh, h⟩ := Faults.check_ok h
  obtain ⟨hAddress, h⟩ := Faults.check_ok h
  obtain ⟨hProtocol, h⟩ := Faults.check_ok h
  have hCapacity := Faults.last_check_ok h
  refine ⟨hName, hFresh, hAddress, fun hm hp => hProtocol ⟨hm, hp⟩, fun hm => ?_⟩
  refine Int32.not_le.mp fun hLe => hCapacity ⟨?_, hLe⟩
  simpa using hm

/-! ### The list of batteries -/

/-- What holds of the batteries loaded so far. -/
structure Sound (bs : List BatteryConfig) : Prop where
  names : ∀ b ∈ bs, b.name ≠ ""
  distinct : (bs.map BatteryConfig.name).Nodup
  addresses : ∀ b ∈ bs, b.address ≠ ""
  protocols : ∀ b ∈ bs, b.monitored → b.protocol ≠ ""
  capacities : ∀ b ∈ bs, ¬b.monitored → 0 < b.capacity

theorem sound_nil : Sound [] :=
  ⟨by simp, List.nodup_nil, by simp, by simp, by simp⟩

theorem Sound.append {before : List BatteryConfig} (h : Sound before) {b : BatteryConfig}
    (hb : Checked before b) : Sound (before ++ [b]) := by
  have hAll {P : BatteryConfig → Prop} (hBefore : ∀ c ∈ before, P c) (hP : P b) :
      ∀ c ∈ before ++ [b], P c := by
    intro c hc
    rcases List.mem_append.mp hc with hc | hc
    · exact hBefore c hc
    · exact List.mem_singleton.mp hc ▸ hP
  refine ⟨hAll h.names hb.name, ?_, hAll h.addresses hb.address, hAll h.protocols hb.protocol,
    hAll h.capacities hb.capacity⟩
  rw [List.map_append, List.map_singleton]
  refine List.nodup_append.mpr ⟨h.distinct, by simp, fun n hn m hm hEq => hb.fresh ?_⟩
  rwa [← List.mem_singleton.mp hm, ← hEq]

/-- Every section makes one battery, in order, and none of them is in the way of another. -/
theorem loadBatteries_ok {stale : Nat → BatteryLink} {before bs : List BatteryConfig}
    {os : List BatteryOpts} (h : loadBatteries stale before os = .ok bs) (hSound : Sound before) :
    Sound bs ∧ ∃ new, bs = before ++ new ∧
      List.Forall₂ (fun o b => ∃ link, b = batteryConfig o link) os new := by
  induction os generalizing before with
  | nil =>
    obtain rfl := Except.ok.inj h
    exact ⟨hSound, [], (List.append_nil before).symm, .nil⟩
  | cons o os ih =>
    obtain ⟨⟨⟩, hCheck, hRest⟩ := Faults.bind_ok h
    obtain ⟨hSound', new, rfl, hNew⟩ := ih hRest (hSound.append (checkBattery_ok hCheck))
    exact ⟨hSound', _, List.append_assoc .., .cons ⟨_, rfl⟩ hNew⟩

/-! ### Accepted configurations -/

/-- What the rest of the program relies on, apart from the links. -/
structure WellFormed (bs : List BatteryConfig) : Prop where
  names : ∀ b ∈ bs, b.name ≠ ""
  distinct : (bs.map BatteryConfig.name).Nodup
  addresses : ∀ b ∈ bs, b.address ≠ ""
  protocols : ∀ b ∈ bs, b.monitored → isSupportedProtocol b.protocol ∧
    (b.protocol = "pylontech" → 1 ≤ b.pylontechAddress ∧ b.pylontechAddress ≤ 16)
  reserves : ∀ b ∈ bs, ¬b.monitored → 0 < b.capacity ∧
    ∃ o, bs.filter (·.name = b.mirror) = [o] ∧ o.monitored

/-- The battery's link is the one that its section's type string denotes. -/
def LinkDenoted (o : BatteryOpts) (b : BatteryConfig) : Prop :=
  ∃ t, o.type = some t ∧ linkFromStr t = some b.link

theorem find_name_unique {bs : List BatteryConfig} (hDistinct : (bs.map BatteryConfig.name).Nodup)
    {name : String} {o : BatteryConfig} (hFind : bs.find? (·.name = name) = some o) :
    bs.filter (·.name = name) = [o] := by
  have hNodup := (List.filter_sublist (l := bs) (p := (·.name = name))).map BatteryConfig.name
    |>.nodup hDistinct
  have hNames : ∀ c ∈ bs.filter (·.name = name), c.name = name := fun c hc => by
    simpa using (List.mem_filter.mp hc).2
  rw [← List.head?_filter] at hFind
  cases hRest : bs.filter (·.name = name) with
  | nil =>
    rw [hRest] at hFind
    cases hFind
  | cons c rest =>
    rw [hRest] at hFind hNodup hNames
    obtain rfl := Option.some.inj hFind
    cases rest with
    | nil => rfl
    | cons d rest =>
      have hHead := (List.nodup_cons.mp hNodup).1
      rw [hNames c List.mem_cons_self, ← hNames d (by simp)] at hHead
      exact absurd List.mem_cons_self hHead

section Accepted

variable {path : String} {cfg : CfgTree} {stale : Nat → BatteryLink} {app : AppConfig}

/-- Each battery is made of the section at its place, which the validators have seen. -/
theorem loadConfig_sections (h : loadConfig path (.tree cfg) stale = .ok app) :
    Sound app.batteries ∧ List.Forall₂
      (fun o b => Validated o ∧ ∃ link, b = batteryConfig o link) cfg.batteries app.batteries := by
  obtain ⟨cfg', hTree, hValid, hLoad⟩ := loadConfig_ok h
  obtain rfl := CfgParse.tree.inj hTree
  obtain ⟨hSound, new, hNew, hSections⟩ := loadBatteries_ok (loadTree_ok hLoad).1 sound_nil
  rw [List.nil_append] at hNew
  refine ⟨hSound, ?_⟩
  rw [hNew, List.forall₂_and_left]
  exact ⟨fun o ho => validate_ok (Faults.forM_ok hValid o ho), hSections⟩

theorem loadConfig_wellFormed (h : loadConfig path (.tree cfg) stale = .ok app) :
    WellFormed app.batteries := by
  obtain ⟨hSound, hSections⟩ := loadConfig_sections h
  have hSection (b : BatteryConfig) (hb : b ∈ app.batteries) :
      ∃ o link, Validated o ∧ b = batteryConfig o link := by
    obtain ⟨o, -, hValid, link, hEq⟩ := Paired.exists_left hSections hb
    exact ⟨o, link, hValid, hEq⟩
  refine ⟨hSound.names, hSound.distinct, hSound.addresses, fun b hb hMonitored => ?_,
    fun b hb hReserve => ⟨hSound.capacities b hb hReserve, ?_⟩⟩
  · have hNe := hSound.protocols b hb hMonitored
    obtain ⟨o, link, hValid, rfl⟩ := hSection b hb
    refine ⟨hValid.protocol hNe, fun hProtocol => toInt32_address (hValid.address ?_)⟩
    exact Option.getD_eq_iff.mp hProtocol |>.resolve_right fun hNone => absurd hNone.2 (by decide)
  · obtain ⟨o, hFind, hMonitored⟩ := loadConfig_mirror h hb (by simpa using hReserve)
    exact ⟨o, find_name_unique hSound.distinct hFind, hMonitored⟩

theorem linkDenoted_of_type {o : BatteryOpts} {b : BatteryConfig} (hType : o.type.isSome)
    (hSection : Validated o ∧ ∃ link, b = batteryConfig o link) : LinkDenoted o b := by
  obtain ⟨hValid, link, rfl⟩ := hSection
  obtain ⟨t, ht⟩ := Option.isSome_iff_exists.mp hType
  obtain ⟨l, hl⟩ := Option.isSome_iff_exists.mp (hValid.type t ht)
  refine ⟨t, ht, ?_⟩
  simp [batteryConfig, ht, hl]

end Accepted

/-- An accepted configuration is what the rest of the program relies on exactly when every battery's
section sets `type`. -/
theorem loadConfig_relied_iff (path : String) (cfg : CfgTree) (stale : Nat → BatteryLink)
    (app : AppConfig) (h : loadConfig path (.tree cfg) stale = .ok app) :
    (List.Forall₂ LinkDenoted cfg.batteries app.batteries ∧ WellFormed app.batteries) ↔
      ∀ o ∈ cfg.batteries, o.type.isSome := by
  constructor
  · rintro ⟨hLinks, -⟩ o ho
    obtain ⟨b, -, t, ht, -⟩ := Paired.exists_right hLinks ho
    rw [ht]
    rfl
  · intro hTypes
    have hSections := (List.forall₂_and_left _ _).mpr ⟨hTypes, (loadConfig_sections h).2⟩
    exact ⟨hSections.imp fun o b hb => linkDenoted_of_type hb.1 hb.2, loadConfig_wellFormed h⟩

/-- A bluetooth battery and a reserve that mirrors it. -/
def pairTree : CfgTree where
  batteries := [
    { title := some "main", type := some "bluetooth", address := some "C8:47:80:00:00:01"
      protocol := some "jk_bt" },
    { title := some "spare", type := some "reserve", address := some "none"
      capacity := some 100, mirror := some "main" }]
  inverter := some { uart := some "/dev/ttyUSB0" }

/-- What is loaded of `cfg` when the link of every section without a `type` stays `stale`. -/
def loaded (cfg : CfgTree) (stale : BatteryLink) : AppConfig where
  batteries := cfg.batteries.map fun o => batteryConfig o stale
  inverter := { uartDevice := "/dev/ttyUSB0" }

theorem loadConfig_relied_pair :
    (List.Forall₂ LinkDenoted pairTree.batteries (loaded pairTree .ttl).batteries ∧
      WellFormed (loaded pairTree .ttl).batteries) ↔ ∀ o ∈ pairTree.batteries, o.type.isSome :=
  loadConfig_relied_iff "bms_bridge.conf" pairTree (fun _ => .ttl) (loaded pairTree .ttl)
    (by decide +kernel)

/-- A battery without a `type`. -/
def untypedTree : CfgTree where
  batteries := [{ title := some "main", address := some "C8:47:80:00:00:01"
                  protocol := some "jk_bt" }]
  inverter := some { uart := some "/dev/ttyUSB0" }

theorem loadConfig_untyped_accepted :
    ¬∀ (path : String) (cfg : CfgTree) (stale : Nat → BatteryLink) (app : AppConfig),
      loadConfig path (.tree cfg) stale = .ok app →
      List.Forall₂ LinkDenoted cfg.batteries app.batteries ∧ WellFormed app.batteries := by
  intro hAll
  obtain ⟨hLinks, -⟩ := hAll "bms_bridge.conf" untypedTree (fun _ => .ttl) (loaded untypedTree .ttl)
    (by decide +kernel)
  obtain ⟨b, -, t, ht, -⟩ := Paired.exists_right hLinks List.mem_cons_self
  cases ht

end BmsBridge
