import BmsBridge.History.Life
import BmsBridge.History.Proof.Append
import BmsBridge.History.Proof.Daily

/-! The batteries' ids.  Whatever calls of SQLite fail, and however often the program is started anew, a
name keeps the id that it has got, and no other name gets it. -/

namespace BmsBridge

namespace History

variable {h : History} {name : String} {id : Int}

/-- The table gives each name one id, and the cache tells of the table only. -/
structure Registry (h : History) : Prop where
  seq : 0 ≤ h.db.batteries.seq
  positive : ∀ row ∈ h.db.batteries.rows, 0 < row.1
  names : (h.db.batteries.rows.map Prod.snd).Nodup
  cached : ∀ entry ∈ h.batteryIdCache, (entry.2, entry.1) ∈ h.db.batteries.rows
  once : (h.batteryIdCache.map Prod.fst).Nodup

theorem Registry.initial (ramWindow : Int) : Registry { ramWindow } where
  seq := Int.le_refl _
  positive := nofun
  names := .nil
  cached := nofun
  once := .nil

theorem Registry.congr {h' : History} (hRegistry : h.Registry)
    (hBatteries : h'.db.batteries = h.db.batteries) (hCache : h'.batteryIdCache = h.batteryIdCache) :
    h'.Registry := by
  obtain ⟨hSeq, hPositive, hNames, hCached, hOnce⟩ := hRegistry
  rw [← hBatteries] at hSeq hPositive hNames hCached
  rw [← hCache] at hCached hOnce
  exact ⟨hSeq, hPositive, hNames, hCached, hOnce⟩

theorem mem_of_lookup (hLookup : h.batteryIdCache.lookup name = some id) :
    (name, id) ∈ h.batteryIdCache := by
  obtain ⟨front, back, hCache, -⟩ := List.lookup_eq_some_iff.mp hLookup
  rw [hCache]
  exact List.mem_append_right _ List.mem_cons_self

theorem not_mem_of_lookup (hLookup : h.batteryIdCache.lookup name = none) :
    name ∉ h.batteryIdCache.map Prod.fst := by
  intro hMem
  obtain ⟨entry, hEntry, rfl⟩ := List.mem_map.mp hMem
  rw [List.lookup_eq_none_iff] at hLookup
  simpa using hLookup entry hEntry

/-- One name has one id. -/
theorem Registry.id_unique (hRegistry : h.Registry) {id' : Int} (hRow : (id, name) ∈ h.db.batteries.rows)
    (hRow' : (id', name) ∈ h.db.batteries.rows) : id = id' := by
  have hSame := List.inj_on_of_nodup_map hRegistry.names hRow hRow' rfl
  exact congrArg Prod.fst hSame

/-- One id has one name. -/
theorem name_unique {name' : String} (hRow : (id, name) ∈ h.db.batteries.rows)
    (hRow' : (id, name') ∈ h.db.batteries.rows) : name = name' := by
  have hIds : (h.db.batteries.rows.map Prod.fst).Nodup :=
    List.pairwise_map.mpr (h.db.batteries.ascending.imp fun hLess => Int.ne_of_lt hLess)
  have hSame := List.inj_on_of_nodup_map hIds hRow hRow' rfl
  exact congrArg Prod.snd hSame

/-! ### Resolving a name -/

/-- The row of a battery becomes known to the cache. -/
def withCached (h : History) (name : String) (id : Int) : History :=
  { h with batteryIdCache := (name, id) :: h.batteryIdCache }

/-- What becomes of a name that is looked up: it is known, it stays unknown, its row is found, or it
gets a row. -/
inductive Lookup (h : History) (name : String) (create : Bool) : Int × History → Prop where
  | known (id : Int) : h.batteryIdCache.lookup name = some id → Lookup h name create (id, h)
  | unknown : h.batteryIdCache.lookup name = none → Lookup h name create (-1, h)
  | found (id : Int) : h.batteryIdCache.lookup name = none → (id, name) ∈ h.db.batteries.rows →
    Lookup h name create (id, h.withCached name id)
  | created : create → h.batteryIdCache.lookup name = none → (∀ row ∈ h.db.batteries.rows, row.2 ≠ name) →
    Lookup h name create (h.db.batteries.seq + 1, h.withBattery name)

/-- A name is not found, or it is, or it gets a row. -/
theorem findBattery_cases {db : Database} (hPositive : ∀ row ∈ db.batteries.rows, 0 < row.1)
    (fails : AppendCall → Bool) (name : String) (create : Bool) :
    db.findBattery fails name create = (-1, db) ∨
      (∃ id, 0 < id ∧ (id, name) ∈ db.batteries.rows ∧ db.findBattery fails name create = (id, db)) ∨
      (create ∧ (∀ row ∈ db.batteries.rows, row.2 ≠ name) ∧ db.findBattery fails name create =
        (db.batteries.seq + 1, { db with batteries := db.batteries.insert name })) := by
  unfold Database.findBattery
  cases hFind : db.batteries.rows.find? fun row => row.2 = name with
  | some row =>
    have hRow := List.mem_of_find?_eq_some hFind
    have hName := List.find?_some hFind
    rw [decide_eq_true_eq] at hName
    have hId := hPositive row hRow
    cases fails .selectBattery with
    | true =>
      -- The row stays unseen, and a second one of its name is refused.
      left
      simp
    | false =>
      refine .inr (.inl ⟨row.1, hId, hName ▸ hRow, ?_⟩)
      simp only [Bool.false_eq_true, ↓reduceIte, Option.map_some, Option.getD_some]
      rw [if_neg (by omega)]
  | none =>
    have hNew : ∀ row ∈ db.batteries.rows, row.2 ≠ name := by simpa using hFind
    simp only [Option.map_none, Option.getD_none, ite_self, Option.isSome_none, Bool.false_eq_true,
      or_false]
    cases create with
    | false => exact .inl (if_neg (by simp))
    | true =>
      cases fails .insertBattery with
      | true =>
        left
        simp
      | false =>
        refine .inr (.inr ⟨rfl, hNew, ?_⟩)
        simp

theorem Registry.lookup (hRegistry : h.Registry) (fails : AppendCall → Bool) (name : String)
    (create : Bool) : h.Lookup name create (h.batteryRowId fails name create) := by
  rw [batteryRowId]
  cases hLookup : h.batteryIdCache.lookup name with
  | some id => exact .known id hLookup
  | none =>
    have hSeq := hRegistry.seq
    simp only
    rcases findBattery_cases hRegistry.positive fails name create with
      hNone | ⟨id, hId, hRow, hFound⟩ | ⟨hCreate, hNew, hCreated⟩
    · rw [hNone, if_neg (show ¬(0 : Int) ≤ -1 by decide)]
      exact .unknown hLookup
    · rw [hFound, if_pos (by omega)]
      exact .found id hLookup hRow
    · rw [hCreated, if_pos (by omega)]
      exact .created hCreate hLookup hNew

theorem Registry.withCached (hRegistry : h.Registry) (hNew : h.batteryIdCache.lookup name = none)
    (hRow : (id, name) ∈ h.db.batteries.rows) : (h.withCached name id).Registry where
  seq := hRegistry.seq
  positive := hRegistry.positive
  names := hRegistry.names
  cached := List.forall_mem_cons.mpr ⟨hRow, hRegistry.cached⟩
  once := List.nodup_cons.mpr ⟨not_mem_of_lookup hNew, hRegistry.once⟩

theorem Registry.withBattery (hRegistry : h.Registry) (hUnknown : h.batteryIdCache.lookup name = none)
    (hNew : ∀ row ∈ h.db.batteries.rows, row.2 ≠ name) : (h.withBattery name).Registry where
  seq := Int.le_add_one hRegistry.seq
  positive := by
    have hSeq := hRegistry.seq
    refine List.forall_mem_append.mpr ⟨hRegistry.positive, fun row hRow => ?_⟩
    rw [List.mem_singleton.mp hRow]
    omega
  names := by
    show ((h.db.batteries.rows ++ [(h.db.batteries.seq + 1, name)]).map Prod.snd).Nodup
    rw [List.map_append]
    refine hRegistry.names.append (List.nodup_singleton _) ?_
    simpa using fun id hRow => hNew (id, name) hRow rfl
  cached := by
    refine List.forall_mem_cons.mpr ⟨?_, fun entry hEntry => ?_⟩
    · exact List.mem_append_right _ (List.mem_singleton_self _)
    · exact List.mem_append_left _ (hRegistry.cached entry hEntry)
  once := List.nodup_cons.mpr ⟨not_mem_of_lookup hUnknown, hRegistry.once⟩

/-! ### The calls -/

/-- What a call does to the batteries: the table grows, or stays. -/
structure Extends (h h' : History) : Prop where
  registry : h'.Registry
  rows : h.db.batteries.rows <+: h'.db.batteries.rows

theorem Registry.extends_lookUp (hRegistry : h.Registry) (fails : AppendCall → Bool) (name : String)
    (create : Bool) : h.Extends (h.batteryRowId fails name create).2 := by
  have hLookup := hRegistry.lookup fails name create
  generalize h.batteryRowId fails name create = found at hLookup ⊢
  cases hLookup with
  | known _ _ => exact ⟨hRegistry, List.prefix_refl _⟩
  | unknown _ => exact ⟨hRegistry, List.prefix_refl _⟩
  | found id hNone hRow => exact ⟨hRegistry.withCached hNone hRow, List.prefix_refl _⟩
  | created _ hNone hNew => exact ⟨hRegistry.withBattery hNone hNew, List.prefix_append ..⟩

theorem insertSample_batteries (h : History) (fails : AppendCall → Bool) (batId tsMs : Int)
    (cells : JkCellInfo) (pack : JkPackInfo) :
    (h.insertSample fails batId tsMs cells pack).db.batteries = h.db.batteries ∧
      (h.insertSample fails batId tsMs cells pack).batteryIdCache = h.batteryIdCache := by
  rw [insertSample_eq]
  split <;> exact ⟨rfl, rfl⟩

theorem Extends.congr {h' h'' : History} (hExtends : h.Extends h')
    (hSame : h''.db.batteries = h'.db.batteries ∧ h''.batteryIdCache = h'.batteryIdCache) :
    h.Extends h'' := by
  refine ⟨hExtends.registry.congr hSame.1 hSame.2, ?_⟩
  rw [hSame.1]
  exact hExtends.rows

theorem Registry.extends_append (hRegistry : h.Registry) (a : AppendArgs) :
    h.Extends (h.appendCall a) := by
  have hRemembered : (h.remember a.now a.sample).Registry := hRegistry.congr rfl rfl
  have hExtends := hRemembered.extends_lookUp a.fails a.batteryId true
  rw [appendCall, append, ← AppendArgs.sample]
  generalize (h.remember a.now a.sample).batteryRowId a.fails a.batteryId true = found at hExtends ⊢
  obtain ⟨batId, h'⟩ := found
  simp only
  split
  · exact ⟨hExtends.registry, hExtends.rows⟩
  · exact Extends.congr ⟨hExtends.registry, hExtends.rows⟩ (insertSample_batteries ..)

theorem Registry.extends_reopen (hRegistry : h.Registry) (count : Nat) (ramWindow : Int) :
    h.Extends (h.reopen count ramWindow) := by
  have hCache : (h.reopen count ramWindow).batteryIdCache =
      (h.db.batteries.rows.take count).map fun row => (row.2, row.1) := List.append_nil _
  refine ⟨⟨hRegistry.seq, hRegistry.positive, hRegistry.names, ?_, ?_⟩, List.prefix_refl _⟩
  · intro entry hEntry
    rw [hCache] at hEntry
    obtain ⟨row, hRow, rfl⟩ := List.mem_map.mp hEntry
    exact List.mem_of_mem_take hRow
  · rw [hCache, List.map_map]
    exact ((List.take_sublist _ _).map Prod.snd).nodup hRegistry.names

theorem Registry.extends_call (hRegistry : h.Registry) (sql : OrderBy (Int × SampleRow)) (c : Call) :
    h.Extends (h.call sql c) := by
  cases c with
  | append args => exact hRegistry.extends_append args
  | ensureBatteryId fails name => exact hRegistry.extends_lookUp fails name true
  | lookUp fails name => exact hRegistry.extends_lookUp fails name false
  | aggregatePending fails now =>
    exact Extends.congr ⟨hRegistry, List.prefix_refl _⟩ aggregatePending_batteries
  | reopen count ramWindow => exact hRegistry.extends_reopen count ramWindow

theorem Registry.extends_calls (hRegistry : h.Registry) (sql : OrderBy (Int × SampleRow))
    (cs : List Call) : h.Extends (h.calls sql cs) := by
  induction cs generalizing h with
  | nil => exact ⟨hRegistry, List.prefix_refl _⟩
  | cons c cs ih =>
    have hCall := hRegistry.extends_call sql c
    have hRest := ih hCall.registry
    exact ⟨hRest.registry, hCall.rows.trans hRest.rows⟩

/-! ### The answers -/

theorem Registry.row_of_lookUp (hRegistry : h.Registry) {fails : AppendCall → Bool} {create : Bool}
    (hFound : 0 ≤ (h.batteryRowId fails name create).1) :
    ((h.batteryRowId fails name create).1, name) ∈ (h.batteryRowId fails name create).2.db.batteries.rows := by
  have hLookup := hRegistry.lookup fails name create
  generalize h.batteryRowId fails name create = found at hFound hLookup ⊢
  cases hLookup with
  | known id hKnown => exact hRegistry.cached _ (mem_of_lookup hKnown)
  | unknown _ => exact absurd hFound (show ¬(0 : Int) ≤ -1 by decide)
  | found id _ hRow => exact hRow
  | created _ _ _ => exact List.mem_append_right _ (List.mem_singleton_self _)

theorem mem_batteryList {ref : BatteryRef} : ref ∈ h.batteryList ↔ (ref.name, ref.id) ∈ h.batteryIdCache := by
  rw [batteryList, (List.perm_insertionSort _ _).mem_iff, List.mem_map]
  constructor
  · rintro ⟨entry, hEntry, rfl⟩
    exact hEntry
  · exact fun hEntry => ⟨_, hEntry, rfl⟩

theorem Registry.batteryList_row (hRegistry : h.Registry) {ref : BatteryRef} (hRef : ref ∈ h.batteryList) :
    (ref.id, ref.name) ∈ h.db.batteries.rows := hRegistry.cached _ (mem_batteryList.mp hRef)

/-- The list is in the order of the ids, and no id comes twice. -/
theorem Registry.batteryList_ascending (hRegistry : h.Registry) :
    h.batteryList.Pairwise fun a b => a.id < b.id := by
  have hTotal : Std.Total fun a b : BatteryRef => a.id ≤ b.id := ⟨fun a b => Int.le_total a.id b.id⟩
  have hTrans : IsTrans BatteryRef fun a b => a.id ≤ b.id := ⟨fun _ _ _ => Int.le_trans⟩
  have hIds : (h.batteryIdCache.map Prod.snd).Nodup := by
    refine List.Nodup.map_on (fun a ha b hb hId => ?_) hRegistry.once.of_map
    have hb' := hRegistry.cached b hb
    rw [← hId] at hb'
    exact Prod.ext (name_unique (hRegistry.cached a ha) hb') hId
  have hDistinct : h.batteryList.Pairwise fun a b => a.id ≠ b.id := by
    refine ((List.perm_insertionSort _ _).pairwise_iff fun h => h.symm).mpr ?_
    rw [List.pairwise_map]
    exact List.pairwise_map.mp hIds
  exact ((List.pairwise_insertionSort _ _).and hDistinct).imp fun hOrder =>
    Int.lt_iff_le_and_ne.mpr hOrder

theorem reopen_cache {count : Nat} {ramWindow : Int} (hCount : h.db.batteries.rows.length ≤ count) :
    (h.reopen count ramWindow).batteryIdCache = h.db.batteries.rows.map fun row => (row.2, row.1) := by
  refine (List.append_nil _).trans ?_
  show (h.db.batteries.rows.take count).map _ = _
  rw [List.take_of_length_le hCount]

/-- A cache that has been read back whole lists the whole table. -/
theorem batteryList_reopen {count ramWindow} (hCount : h.db.batteries.rows.length ≤ count) :
    (h.reopen count ramWindow).batteryList =
      h.db.batteries.rows.map fun row => { id := row.1, name := row.2 } := by
  rw [batteryList, reopen_cache hCount, List.map_map]
  refine List.Pairwise.insertionSort_eq ?_
  rw [List.pairwise_map]
  exact h.db.batteries.ascending.imp fun hLess => Int.le_of_lt hLess

theorem Registry.batteryName_of_row (hRegistry : h.Registry) (hRow : (id, name) ∈ h.db.batteries.rows) :
    h.batteryName id = name ∨ h.batteryName id = "" ∧ ∀ entry ∈ h.batteryIdCache, entry.2 ≠ id := by
  rw [batteryName]
  cases hFind : h.batteryIdCache.find? fun entry => entry.2 = id with
  | none => exact .inr ⟨rfl, by simpa using hFind⟩
  | some entry =>
    have hId := List.find?_some hFind
    rw [decide_eq_true_eq] at hId
    have hEntry := hRegistry.cached entry (List.mem_of_find?_eq_some hFind)
    rw [hId] at hEntry
    exact .inl (name_unique hEntry hRow)

/-- Once a name has got an id, whatever calls fail from then on and however often the database is opened
again, it gets no other one, and no other name gets this one.  What is listed goes by the ids; a cache
that has been read back whole lists all names that have ever got one. -/
theorem battery_ids_kept (sql : OrderBy (Int × SampleRow)) (ramWindow : Int) (before after : List Call)
    (fails : AppendCall → Bool) (name : String) (create : Bool)
    (hAnswer : 0 ≤ ((({ ramWindow } : History).calls sql before).batteryRowId fails name create).1) :
    let answer := (({ ramWindow } : History).calls sql before).batteryRowId fails name create
    let h := answer.2.calls sql after
    (∀ fails' name' create', 0 ≤ (h.batteryRowId fails' name' create').1 →
      ((h.batteryRowId fails' name' create').1 = answer.1 ↔ name' = name)) ∧
    (h.batteryList.Pairwise fun a b => a.id < b.id) ∧
    (∀ ref ∈ h.batteryList, ref.id = answer.1 ↔ ref.name = name) ∧
    (h.batteryName answer.1 = name ∨ h.batteryName answer.1 = "" ∧ ∀ ref ∈ h.batteryList, ref.id ≠ answer.1) ∧
    ∀ count window, h.db.batteries.rows.length ≤ count →
      { id := answer.1, name } ∈ (h.reopen count window).batteryList ∧
        ∀ ref ∈ h.batteryList, ref ∈ (h.reopen count window).batteryList := by
  have hStart := ((Registry.initial ramWindow).extends_calls sql before).registry
  have hRow := hStart.row_of_lookUp hAnswer
  have hResolved := (hStart.extends_lookUp fails name create).registry
  generalize (({ ramWindow } : History).calls sql before).batteryRowId fails name create = answer at *
  have hAfter := hResolved.extends_calls sql after
  have hKept : (answer.1, name) ∈ (answer.2.calls sql after).db.batteries.rows := hAfter.rows.subset hRow
  have hRegistry := hAfter.registry
  simp only
  generalize answer.2.calls sql after = h at hKept hRegistry ⊢
  have hSame {id' : Int} {name' : String} (hRow' : (id', name') ∈ h.db.batteries.rows) :
      id' = answer.1 ↔ name' = name := by
    constructor
    · rintro rfl
      exact name_unique hRow' hKept
    · rintro rfl
      exact hRegistry.id_unique hRow' hKept
  refine ⟨fun fails' name' create' hFound => ?_, hRegistry.batteryList_ascending, fun ref hRef => ?_, ?_,
    fun count window hCount => ?_⟩
  · have hOld := (hRegistry.extends_lookUp fails' name' create').rows.subset hKept
    have hNew := hRegistry.row_of_lookUp hFound
    have hLater := (hRegistry.extends_lookUp fails' name' create').registry
    constructor
    · intro hId
      rw [hId] at hNew
      exact name_unique hNew hOld
    · rintro rfl
      exact hLater.id_unique hNew hOld
  · exact hSame (hRegistry.batteryList_row hRef)
  · refine (hRegistry.batteryName_of_row hKept).imp_right fun ⟨hName, hNone⟩ => ⟨hName, fun ref hRef => ?_⟩
    exact hNone _ (mem_batteryList.mp hRef)
  · rw [batteryList_reopen hCount]
    refine ⟨List.mem_map.mpr ⟨_, hKept, rfl⟩, fun ref hRef => ?_⟩
    exact List.mem_map.mpr ⟨_, hRegistry.batteryList_row hRef, rfl⟩

/-- A name is resolved; a second one cannot be inserted at first; then the program is started anew and
reads nothing back. -/
theorem battery_ids_kept_reopened :
    let h := (({ ramWindow := 0 } : History).batteryRowId (fun _ => false) "jk" true).2.calls .stable
      [.ensureBatteryId (fun call => call = .insertBattery) "spare", .ensureBatteryId (fun _ => false) "spare",
        .reopen 0 0]
    h.batteryList = [] ∧ (h.batteryRowId (fun _ => false) "jk" true).1 = 1 := by
  refine ⟨by decide, ?_⟩
  exact ((battery_ids_kept .stable 0 [] [.ensureBatteryId (fun call => call = .insertBattery) "spare",
    .ensureBatteryId (fun _ => false) "spare", .reopen 0 0] (fun _ => false) "jk" true (by decide)).1
    (fun _ => false) "jk" true (by decide)).mpr rfl

end History

end BmsBridge
