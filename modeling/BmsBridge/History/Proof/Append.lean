import BmsBridge.History.Store

/-! What `append` does to the tables: nothing, or one more sample with its cells. -/

namespace BmsBridge

theorem mem_cellRows {sampleId : Int} {cells : JkCellInfo} {c : CellRow}
    (h : c ∈ cellRows sampleId cells) : c.sampleId = sampleId := by
  obtain ⟨k, hk, rfl⟩ := List.mem_mapIdx.mp h
  rfl

/-- What resolving a battery leaves alone. -/
structure Database.SameSamples (db db' : Database) : Prop where
  samples : db'.samples = db.samples
  sampleCells : db'.sampleCells = db.sampleCells
  dailyEnergy : db'.dailyEnergy = db.dailyEnergy

theorem Database.findBattery_same (db : Database) (fails : AppendCall → Bool) (name : String)
    (create : Bool) : db.SameSamples (db.findBattery fails name create).2 := by
  simp only [findBattery]
  split_ifs <;> exact ⟨rfl, rfl, rfl⟩

namespace History

variable (h : History) (fails : AppendCall → Bool) (name : String)

theorem batteryRowId_same (create : Bool) :
    h.db.SameSamples (h.batteryRowId fails name create).2.db := by
  rw [batteryRowId]
  cases h.batteryIdCache.lookup name with
  | some id => exact ⟨rfl, rfl, rfl⟩
  | none =>
    simp only
    split <;> exact h.db.findBattery_same fails name create

/-- A sample with its cells in the tables. -/
def withSample (batId tsMs : Int) (cells : JkCellInfo) (pack : JkPackInfo) : History :=
  { h with db := { h.db with
    samples := h.db.samples.insert (.ofSample batId tsMs cells pack)
    sampleCells := h.db.sampleCells ++ cellRows (h.db.samples.seq + 1) cells } }

/-- A battery in its table and in the cache. -/
def withBattery : History :=
  { h with
    db := { h.db with batteries := h.db.batteries.insert name }
    batteryIdCache := (name, h.db.batteries.seq + 1) :: h.batteryIdCache }

theorem insertSample_eq (batId tsMs : Int) (cells : JkCellInfo) (pack : JkPackInfo) :
    h.insertSample fails batId tsMs cells pack =
      if aborts fails cells.voltagesMv.length then h else h.withSample batId tsMs cells pack := by
  unfold insertSample aborts
  cases fails .begin with
  | true => rfl
  | false =>
    cases fails .insertSample with
    | true => rfl
    | false =>
      cases (List.range cells.voltagesMv.length).any fun k => fails (.insertCell k) with
      | true => rfl
      | false => cases fails .commit <;> rfl

/-- An append adds a sample to what resolving the battery leaves, or nothing. -/
theorem append_cases (ts now : Int) (cells : JkCellInfo) (pack : JkPackInfo) :
    ∃ h' : History, h.db.SameSamples h'.db ∧ (h.append fails name ts now cells pack = h' ∨
      ∃ batId, h.append fails name ts now cells pack = h'.withSample batId (toMs ts) cells pack) := by
  have hSame := (h.remember now { batteryId := name, ts, cells, pack }).batteryRowId_same fails name true
  rw [append]
  generalize (h.remember now { batteryId := name, ts, cells, pack }).batteryRowId fails name true =
    found at *
  obtain ⟨batId, h'⟩ := found
  refine ⟨h', hSame, ?_⟩
  simp only
  split
  · exact .inl rfl
  · rw [insertSample_eq]
    split
    · exact .inl rfl
    · exact .inr ⟨batId, rfl⟩

theorem append_tables (ts now : Int) (cells : JkCellInfo) (pack : JkPackInfo) :
    ((h.append fails name ts now cells pack).db.samples = h.db.samples ∧
      (h.append fails name ts now cells pack).db.sampleCells = h.db.sampleCells) ∨
    ∃ batId, (h.append fails name ts now cells pack).db.samples =
        h.db.samples.insert (.ofSample batId (toMs ts) cells pack) ∧
      (h.append fails name ts now cells pack).db.sampleCells =
        h.db.sampleCells ++ cellRows (h.db.samples.seq + 1) cells := by
  obtain ⟨h', ⟨hSamples, hCells, -⟩, hNone | ⟨batId, hInsert⟩⟩ := h.append_cases fails name ts now cells pack
  · rw [hNone]
    exact .inl ⟨hSamples, hCells⟩
  · rw [hInsert, withSample, hSamples, hCells]
    exact .inr ⟨batId, rfl, rfl⟩

theorem append_daily (ts now : Int) (cells : JkCellInfo) (pack : JkPackInfo) :
    (h.append fails name ts now cells pack).db.dailyEnergy = h.db.dailyEnergy := by
  obtain ⟨h', ⟨-, -, hDaily⟩, hNone | ⟨batId, hInsert⟩⟩ := h.append_cases fails name ts now cells pack
  · rw [hNone, hDaily]
  · rw [hInsert, withSample, hDaily]

/-- The cells of the samples that were there before stay as they are. -/
theorem withSample_cellsOf (batId tsMs : Int) (cells : JkCellInfo) (pack : JkPackInfo)
    {row : Int × SampleRow} (hRow : row ∈ h.db.samples.rows) :
    (h.withSample batId tsMs cells pack).db.cellsOf row.1 = h.db.cellsOf row.1 := by
  have hNew : (cellRows (h.db.samples.seq + 1) cells).filter (fun c => c.sampleId = row.1) = [] := by
    rw [List.filter_eq_nil_iff]
    intro c hc
    rw [mem_cellRows hc, decide_eq_true_eq]
    exact (h.db.samples.seq_fresh hRow).symm
  rw [withSample, Database.cellsOf, List.filter_append, hNew, List.append_nil, ← Database.cellsOf]

theorem append_cellsOf (ts now : Int) (cells : JkCellInfo) (pack : JkPackInfo) {row : Int × SampleRow}
    (hRow : row ∈ h.db.samples.rows) :
    (h.append fails name ts now cells pack).db.cellsOf row.1 = h.db.cellsOf row.1 := by
  obtain ⟨h', ⟨hSamples, hCells, -⟩, hNone | ⟨batId, hInsert⟩⟩ := h.append_cases fails name ts now cells pack
  · rw [hNone, Database.cellsOf, hCells, ← Database.cellsOf]
  · rw [hInsert, h'.withSample_cellsOf _ _ _ _ (hSamples ▸ hRow), Database.cellsOf, hCells,
      ← Database.cellsOf]

/-! ### The batteries -/

/-- The cache knows the batteries of the table and no others, and gives no id to two of them. -/
structure Registered (h : History) : Prop where
  seq : 0 ≤ h.db.batteries.seq
  cached : ∀ row ∈ h.db.batteries.rows, h.batteryIdCache.lookup row.2 = some row.1
  stored : ∀ name id, h.batteryIdCache.lookup name = some id → (id, name) ∈ h.db.batteries.rows
  bounds : ∀ name id, h.batteryIdCache.lookup name = some id → 0 ≤ id ∧ id ≤ h.db.batteries.seq
  distinct : ∀ name name' id, h.batteryIdCache.lookup name = some id →
    h.batteryIdCache.lookup name' = some id → name = name'

/-- What resolving a battery that may have to be created does to the cache. -/
structure Resolved (h : History) (name : String) (id : Int) (h' : History) : Prop where
  registered : h'.Registered
  self : h'.batteryIdCache.lookup name = some id
  others : ∀ name', name' ≠ name → h'.batteryIdCache.lookup name' = h.batteryIdCache.lookup name'
  same : h.batteryIdCache.lookup name = some id ∨ h.batteryIdCache.lookup name = none

variable {h}

theorem registered_initial (ramWindow : Int) : Registered { ramWindow } where
  seq := Int.le_refl _
  cached := fun _ hRow => absurd hRow List.not_mem_nil
  stored := fun _ _ hLookup => by cases hLookup
  bounds := fun _ _ hLookup => by cases hLookup
  distinct := fun _ _ _ hLookup => by cases hLookup

/-- What does not touch the batteries leaves them registered. -/
theorem Registered.congr {h' : History} (hRegistered : h.Registered)
    (hBatteries : h'.db.batteries = h.db.batteries) (hCache : h'.batteryIdCache = h.batteryIdCache) :
    h'.Registered := by
  obtain ⟨hSeq, hCached, hStored, hBounds, hDistinct⟩ := hRegistered
  rw [← hBatteries] at hSeq hCached hStored hBounds
  rw [← hCache] at hCached hStored hBounds hDistinct
  exact ⟨hSeq, hCached, hStored, hBounds, hDistinct⟩

theorem Resolved.keeps {h' : History} {name : String} {id : Int} (hResolved : h.Resolved name id h')
    {name' : String} {id' : Int} (hLookup : h.batteryIdCache.lookup name' = some id') :
    h'.batteryIdCache.lookup name' = some id' := by
  by_cases hName : name' = name
  · subst hName
    rcases hResolved.same with hSame | hNew
    · rw [hResolved.self, ← hSame, hLookup]
    · rw [hNew] at hLookup
      cases hLookup
  · rw [hResolved.others name' hName, hLookup]

theorem lookup_withBattery (h : History) (name name' : String) :
    (h.withBattery name).batteryIdCache.lookup name' =
      if name' = name then some (h.db.batteries.seq + 1) else h.batteryIdCache.lookup name' := by
  rw [withBattery, List.lookup_cons]
  split <;> simp_all

/-- A battery that is new to the cache is inserted with the next id. -/
theorem Registered.insert (hRegistered : h.Registered) {name : String}
    (hNew : h.batteryIdCache.lookup name = none) :
    h.Resolved name (h.db.batteries.seq + 1) (h.withBattery name) := by
  obtain ⟨hSeq, hCached, hStored, hBounds, hDistinct⟩ := hRegistered
  refine ⟨⟨?_, ?_, ?_, ?_, ?_⟩, ?_, ?_, .inr hNew⟩
  · exact Int.le_add_one hSeq
  · intro row hRow
    rcases List.mem_append.mp hRow with hRow | hRow
    · have hFound := hCached row hRow
      have hName : row.2 ≠ name := by
        intro hName
        rw [hName, hNew] at hFound
        cases hFound
      exact (h.lookup_withBattery name row.2).trans ((if_neg hName).trans hFound)
    · rw [List.mem_singleton.mp hRow]
      exact (h.lookup_withBattery name name).trans (if_pos rfl)
  · intro name' id hId
    rw [lookup_withBattery] at hId
    split at hId
    · rename_i hName
      cases hId
      exact List.mem_append_right _ (List.mem_singleton.mpr (congrArg _ hName))
    · exact List.mem_append_left _ (hStored name' id hId)
  · intro name' id hId
    rw [lookup_withBattery] at hId
    have hNext : (h.withBattery name).db.batteries.seq = h.db.batteries.seq + 1 := rfl
    split at hId
    · cases hId
      omega
    · have hOld := hBounds name' id hId
      omega
  · intro name' name'' id hId hId'
    rw [lookup_withBattery] at hId hId'
    split at hId <;> split at hId'
    · rename_i hSame hSame'
      rw [hSame, hSame']
    · cases hId
      have hOld := (hBounds _ _ hId').2
      omega
    · cases hId'
      have hOld := (hBounds _ _ hId).2
      omega
    · exact hDistinct name' name'' id hId hId'
  · exact (h.lookup_withBattery name name).trans (if_pos rfl)
  · exact fun name' hName => (h.lookup_withBattery name name').trans (if_neg hName)

theorem batteryRowId_known {id : Int} (hLookup : h.batteryIdCache.lookup name = some id)
    (create : Bool) : h.batteryRowId fails name create = (id, h) := by
  rw [batteryRowId, hLookup]

/-- A battery that the cache does not know is not in the table either. -/
theorem Registered.findBattery (hRegistered : h.Registered)
    (hLookup : h.batteryIdCache.lookup name = none) :
    h.db.batteries.rows.find? (fun row => row.2 = name) = none := by
  rw [List.find?_eq_none]
  intro row hRow hName
  have hFound := hRegistered.cached row hRow
  rw [of_decide_eq_true hName, hLookup] at hFound
  cases hFound

theorem batteryRowId_unknown (hRegistered : h.Registered)
    (hLookup : h.batteryIdCache.lookup name = none) : (h.batteryRowId fails name false).1 = -1 := by
  have hFind := hRegistered.findBattery name hLookup
  rw [batteryRowId, hLookup]
  simp [Database.findBattery, hFind]

theorem batteryRowId_new (hRegistered : h.Registered)
    (hLookup : h.batteryIdCache.lookup name = none) : h.batteryRowId fails name true =
      if fails .insertBattery then (-1, h) else (h.db.batteries.seq + 1, h.withBattery name) := by
  have hFind := hRegistered.findBattery name hLookup
  have hSeq := hRegistered.seq
  rw [batteryRowId, hLookup]
  cases hFails : fails .insertBattery with
  | true => simp [Database.findBattery, hFind, hFails]
  | false =>
    simp only [Database.findBattery, hFind, hFails, Option.map_none, Option.getD_none, ite_self]
    rw [if_pos ⟨by decide, trivial⟩, if_neg (by decide), if_pos (by omega)]
    rfl

/-! ### Without failures -/

theorem batteryRowId_resolved (hRegistered : h.Registered) :
    h.Resolved name (h.batteryRowId (fun _ => false) name true).1
      (h.batteryRowId (fun _ => false) name true).2 := by
  cases hLookup : h.batteryIdCache.lookup name with
  | some id =>
    rw [batteryRowId_known _ name hLookup]
    exact ⟨hRegistered, hLookup, fun _ _ => rfl, .inl hLookup⟩
  | none =>
    rw [batteryRowId_new _ name hRegistered hLookup]
    exact hRegistered.insert hLookup

/-- An append that succeeds adds one sample under the battery's id. -/
theorem append_succeeds (hRegistered : h.Registered) (ts now : Int) (cells : JkCellInfo)
    (pack : JkPackInfo) :
    ∃ id, h.Resolved name id (h.append (fun _ => false) name ts now cells pack) ∧
      (h.append (fun _ => false) name ts now cells pack).db.samples =
        h.db.samples.insert (.ofSample id (toMs ts) cells pack) := by
  have hRemembered : (h.remember now { batteryId := name, ts, cells, pack }).Registered :=
    hRegistered.congr rfl rfl
  have hResolved := batteryRowId_resolved name hRemembered
  have hSame := (h.remember now { batteryId := name, ts, cells, pack }).batteryRowId_same
    (fun _ => false) name true
  have hCommits : aborts (fun _ => false) cells.voltagesMv.length = false := by
    simp [aborts]
  rw [append]
  generalize (h.remember now { batteryId := name, ts, cells, pack }).batteryRowId (fun _ => false) name
    true = found at *
  obtain ⟨id, h'⟩ := found
  have hId := (hResolved.registered.bounds name id hResolved.self).1
  simp only
  rw [if_neg (by omega), insertSample_eq, hCommits]
  refine ⟨id, ⟨?_, hResolved.self, hResolved.others, hResolved.same⟩, ?_⟩
  · exact hResolved.registered.congr rfl rfl
  · have hSamples : h'.db.samples = h.db.samples := hSame.samples
    exact congrArg (fun t => Table.insert t _) hSamples

end History

end BmsBridge
