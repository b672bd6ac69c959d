import BmsBridge.Bridge.Proof.Config
import BmsBridge.History.Proof.Registry
import BmsBridge.Http.Batteries

/-! The list of the batteries, and what the dashboard gets about each of them. -/

namespace BmsBridge

namespace History

variable {h : History} {name : String} {id : Int}

/-! ### What stays known -/

/-- A call forgets no battery unless the program is started anew. -/
def Call.keepsCache : Call → Bool
  | .reopen _ _ => false
  | _ => true

theorem Registry.cache_lookUp (hRegistry : h.Registry) (fails : AppendCall → Bool) (name : String)
    (create : Bool) : h.batteryIdCache ⊆ (h.batteryRowId fails name create).2.batteryIdCache := by
  have hLookup := hRegistry.lookup fails name create
  generalize h.batteryRowId fails name create = found at hLookup ⊢
  cases hLookup with
  | known _ _ => exact List.Subset.refl _
  | unknown _ => exact List.Subset.refl _
  | found id _ _ => exact List.subset_cons_self ..
  | created _ _ _ => exact List.subset_cons_self ..

theorem Registry.cache_call (hRegistry : h.Registry) (sql : OrderBy (Int × SampleRow)) {c : Call}
    (hKeeps : c.keepsCache) : h.batteryIdCache ⊆ (h.call sql c).batteryIdCache := by
  cases c with
  | append args =>
    have hRemembered : (h.remember args.now args.sample).Registry := hRegistry.congr rfl rfl
    have hLookUp := hRemembered.cache_lookUp args.fails args.batteryId true
    rw [call, appendCall, append, ← AppendArgs.sample]
    generalize (h.remember args.now args.sample).batteryRowId args.fails args.batteryId true = found
      at hLookUp ⊢
    obtain ⟨batId, h'⟩ := found
    simp only
    split
    · exact hLookUp
    · rw [(insertSample_batteries ..).2]
      exact hLookUp
  | ensureBatteryId fails name => exact hRegistry.cache_lookUp fails name true
  | lookUp fails name => exact hRegistry.cache_lookUp fails name false
  | aggregatePending fails now =>
    rw [call, aggregatePending_batteries.2]
    exact List.Subset.refl _
  | reopen count ramWindow => cases hKeeps

theorem Registry.cache_calls (hRegistry : h.Registry) (sql : OrderBy (Int × SampleRow)) {cs : List Call}
    (hKeeps : ∀ c ∈ cs, c.keepsCache) : h.batteryIdCache ⊆ (h.calls sql cs).batteryIdCache := by
  induction cs generalizing h with
  | nil => exact List.Subset.refl _
  | cons c cs ih =>
    obtain ⟨hHead, hTail⟩ := List.forall_mem_cons.mp hKeeps
    exact List.Subset.trans (hRegistry.cache_call sql hHead) (ih (hRegistry.extends_call sql c).registry hTail)

/-- What has been resolved is in the cache. -/
theorem Registry.cached_of_lookUp (hRegistry : h.Registry) {fails : AppendCall → Bool} {create : Bool}
    (hFound : 0 ≤ (h.batteryRowId fails name create).1) :
    (name, (h.batteryRowId fails name create).1) ∈ (h.batteryRowId fails name create).2.batteryIdCache := by
  have hLookup := hRegistry.lookup fails name create
  generalize h.batteryRowId fails name create = found at hFound hLookup ⊢
  cases hLookup with
  | known id hKnown => exact mem_of_lookup hKnown
  | unknown _ => exact absurd hFound (show ¬(0 : Int) ≤ -1 by decide)
  | found id _ _ => exact List.mem_cons_self
  | created _ _ _ => exact List.mem_cons_self

/-- The name of a battery in the list. -/
theorem Registry.batteryName_of_list (hRegistry : h.Registry) {ref : BatteryRef}
    (hRef : ref ∈ h.batteryList) : h.batteryName ref.id = ref.name := by
  refine (hRegistry.batteryName_of_row (hRegistry.batteryList_row hRef)).resolve_right ?_
  rintro ⟨-, hNone⟩
  exact hNone _ (mem_batteryList.mp hRef) rfl

theorem batteryName_unknown (hNone : ∀ ref ∈ h.batteryList, ref.id ≠ id) : h.batteryName id = "" := by
  have hFind : (h.batteryIdCache.find? fun entry => entry.2 = id) = none := by
    rw [List.find?_eq_none]
    intro entry hEntry hId
    exact hNone { id := entry.2, name := entry.1 } (mem_batteryList.mpr hEntry) (of_decide_eq_true hId)
  rw [batteryName, hFind]
  rfl

end History

namespace HttpServer

variable {s : HttpServer} {b : Batteries}

/-- What the dashboard gets about a battery with an entry in the list. -/
structure Matches (s : HttpServer) (b : Batteries) (x : BatteryJson) : Prop where
  legacy : x.legacy ↔ ∀ c ∈ b.configs, c.name ≠ x.name
  unknown : x.legacy ↔ s.handleInfo b x.id = .notFound "battery not in config"
  reserve : (∃ info, s.handleInfo b x.id = .reserve info) ↔ x.legacy = false ∧ x.monitored = false
  capacity : ∀ info, s.handleInfo b x.id = .reserve info → info.capacityMah = x.capacity.toUInt32 * 1000
  live : s.handleInfo b x.id ≠ .notFound "no live data for this battery"

theorem stateFor_isSome {c : BatteryConfig} {name : String}
    (hFind : (b.configs.find? fun c => c.name = name) = some c) : (stateFor b name).isSome := by
  have hName := List.find?_some hFind
  rw [stateFor, Option.isSome_map, List.findIdx?_isSome, List.any_eq_true]
  exact ⟨c, List.mem_of_find?_eq_some hFind, hName⟩

theorem matches_json (ref : BatteryRef) (hName : s.history.batteryName ref.id = ref.name) :
    s.Matches b (ref.json b.configs) := by
  cases hFind : b.configs.find? fun c => c.name = ref.name with
  | none =>
    have hJson : ref.json b.configs = { id := ref.id, name := ref.name, link := kLegacyLink
                                        protocol := kLegacyProtocol, monitored := false, capacity := 0
                                        legacy := true } := by
      rw [BatteryRef.json, hFind]
    have hInfo : s.handleInfo b ref.id = .notFound "battery not in config" := by
      simp only [handleInfo, hName, hFind]
    have hNone : ∀ c ∈ b.configs, c.name ≠ ref.name := by simpa using hFind
    rw [hJson]
    exact ⟨iff_of_true rfl hNone, iff_of_true rfl hInfo, by simp [hInfo], by simp [hInfo], by simp [hInfo]⟩
  | some c =>
    have hJson : ref.json b.configs = { id := ref.id, name := ref.name, link := c.linkRaw
                                        protocol := c.protocol, monitored := c.monitored
                                        capacity := c.capacity, legacy := false } := by
      rw [BatteryRef.json, hFind]
    have hOwn := List.find?_some hFind
    rw [decide_eq_true_eq] at hOwn
    have hNot : ¬∀ c ∈ b.configs, c.name ≠ ref.name :=
      fun hAll => hAll c (List.mem_of_find?_eq_some hFind) hOwn
    rw [hJson]
    cases hMonitored : c.monitored with
    | false =>
      have hInfo : s.handleInfo b ref.id = .reserve (reserveInfo c) := by
        simp only [handleInfo, hName, hFind, hMonitored, Bool.not_false, ↓reduceIte]
      exact ⟨iff_of_false (by simp) hNot, by simp [hInfo], by simp [hInfo], by simp [hInfo, reserveInfo],
        by simp [hInfo]⟩
    | true =>
      obtain ⟨st, hState⟩ := Option.isSome_iff_exists.mp (stateFor_isSome hFind)
      have hInfo : s.handleInfo b ref.id = .notFound "settings not yet received" ∨
          ∃ settings, s.handleInfo b ref.id = .settings settings := by
        simp only [handleInfo, hName, hFind, hMonitored, Bool.not_true, Bool.false_eq_true, ↓reduceIte, hState]
        cases st.settings with
        | none => exact .inl rfl
        | some settings => exact .inr ⟨settings, rfl⟩
      rcases hInfo with hInfo | ⟨settings, hInfo⟩
      all_goals exact ⟨iff_of_false (by simp) hNot, by simp [hInfo], by simp [hInfo], by simp [hInfo],
        by simp [hInfo]⟩

/-- In every state of the history that calls can lead to, the list goes by the ids, each entry agrees
with what the dashboard gets about its id, and an id that is not listed gets an error.  A battery of the
configuration is in the list, as such, once its id has been made sure of. -/
theorem batteries_agree_with_info {path : String} {parse : CfgParse} {stale : Nat → BatteryLink}
    {app : AppConfig} (hAccept : loadConfig path parse stale = .ok app) (sql : OrderBy (Int × SampleRow))
    (ramWindow : Int) (cs : List History.Call) (s : HttpServer)
    (hHistory : s.history = ({ ramWindow } : History).calls sql cs) (b : Batteries)
    (hConfigs : b.configs = app.batteries) :
    ((s.handleBatteries b).Pairwise fun x y => x.id < y.id) ∧
      (∀ x ∈ s.handleBatteries b, s.Matches b x) ∧
      (∀ id, (∀ x ∈ s.handleBatteries b, x.id ≠ id) →
        s.handleInfo b id = .notFound "battery not in config") ∧
      ∀ c ∈ b.configs, ∀ before fails after, cs = before ++ .ensureBatteryId fails c.name :: after →
        0 ≤ ((({ ramWindow } : History).calls sql before).ensureBatteryId fails c.name).1 →
        (∀ call ∈ after, call.keepsCache) → ∃ x ∈ s.handleBatteries b, x.name = c.name ∧ x.legacy = false := by
  have hRegistry : s.history.Registry := by
    rw [hHistory]
    exact ((History.Registry.initial ramWindow).extends_calls sql cs).registry
  have hId (ref : BatteryRef) : (ref.json b.configs).id = ref.id ∧ (ref.json b.configs).name = ref.name := by
    rw [BatteryRef.json]
    split <;> exact ⟨rfl, rfl⟩
  refine ⟨?_, fun x hx => ?_, fun id hNone => ?_, fun c hc before fails after hCalls hFound hKeeps => ?_⟩
  · rw [handleBatteries, List.pairwise_map]
    simp only [hId]
    exact hRegistry.batteryList_ascending
  · obtain ⟨ref, hRef, rfl⟩ := List.mem_map.mp hx
    exact matches_json ref (hRegistry.batteryName_of_list hRef)
  · have hUnknown : s.history.batteryName id = "" := History.batteryName_unknown fun ref hRef hSame =>
      hNone _ (List.mem_map_of_mem hRef) ((hId ref).1.trans hSame)
    have hNoName : (b.configs.find? fun c => c.name = "") = none := by
      obtain ⟨cfg, rfl, -, -⟩ := loadConfig_ok hAccept
      rw [hConfigs, List.find?_eq_none]
      intro c hc hEmpty
      exact (loadConfig_wellFormed hAccept).names c hc (of_decide_eq_true hEmpty)
    simp only [handleInfo, hUnknown, hNoName]
  · have hBefore := ((History.Registry.initial ramWindow).extends_calls sql before).registry
    have hEnsured := hBefore.cached_of_lookUp hFound
    have hRest := (hBefore.extends_lookUp fails c.name true).registry.cache_calls sql hKeeps hEnsured
    have hAll : s.history = (((({ ramWindow } : History).calls sql before).batteryRowId fails c.name true).2.calls
        sql after) := by
      rw [hHistory, hCalls, History.calls, List.foldl_append]
      rfl
    rw [← hAll] at hRest
    have hRef : { id := _, name := c.name } ∈ s.history.batteryList := History.mem_batteryList.mpr hRest
    refine ⟨_, List.mem_map_of_mem hRef, (hId _).2, ?_⟩
    have hMatches := matches_json (b := b) _ (hRegistry.batteryName_of_list hRef)
    rw [Bool.eq_false_iff, ne_eq, hMatches.legacy]
    exact fun hNo => hNo c hc (by rw [(hId _).2])

/-- A database of the time before a battery has got its name, and the program started with a new
configuration. -/
def renamed : List History.Call := [
  .ensureBatteryId (fun _ => false) "", .reopen 1 0, .ensureBatteryId (fun _ => false) "main",
  .ensureBatteryId (fun _ => false) "spare"]

theorem batteries_agree_with_info_renamed :
    let s : HttpServer := { history := ({ ramWindow := 0 } : History).calls .stable renamed }
    let b : Batteries := { configs := (loaded pairTree .ttl).batteries, states := fun _ => {} }
    (s.handleBatteries b).map BatteryJson.name = ["", "main", "spare"] ∧
      s.handleInfo b 1 = .notFound "battery not in config" := by
  intro s b
  refine ⟨by decide, ?_⟩
  have hAccept : loadConfig "bms_bridge.conf" (.tree pairTree) (fun _ => .ttl) = .ok (loaded pairTree .ttl) := by
    decide +kernel
  have hAgree := (batteries_agree_with_info hAccept .stable 0 renamed s rfl b rfl).2.1
  exact ((hAgree (BatteryRef.json b.configs { id := 1, name := "" }) (by decide)).unknown).mp (by decide)

end HttpServer

end BmsBridge
