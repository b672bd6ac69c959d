import BmsBridge.History.Life
import BmsBridge.History.Proof.Registry
import BmsBridge.History.Proof.Store
import BmsBridge.Lib.Runs

/-! The samples over the whole life of the history: appends, aggregations that purge what is old, and the
program started anew, with any of the modelled calls of SQLite failing. -/

namespace BmsBridge

namespace Store

def purge (s : Store) (before : Int) : Store :=
  { s with samples := s.samples.filter fun x => !(x.tsMs < before) }

/-- What a call does to the list of samples if nothing is ever purged. -/
def call (s : Store) : History.Call → Store
  | .append args => s.append args
  | .ensureBatteryId fails name =>
    if name ∉ s.known ∧ fails .insertBattery then s else { s with known := insert name s.known }
  | _ => s

end Store

namespace History

variable {h h' : History} {s : Store} {sql : OrderBy (Int × SampleRow)}

/-- What a store knows is in the tables that it can see, the daily rows apart. -/
theorem Refines.congr (hRefines : h.Refines s) (hBatteries : h'.db.batteries = h.db.batteries)
    (hCache : h'.batteryIdCache = h.batteryIdCache) (hSamples : h'.db.samples = h.db.samples)
    (hCells : h'.db.sampleCells = h.db.sampleCells) : h'.Refines s where
  registered := hRefines.registered.congr hBatteries hCache
  positive := by rw [hCache]; exact hRefines.positive
  entries := by rw [hCache]; exact hRefines.entries
  known := by rw [hCache]; exact hRefines.known
  cells := by rw [hCells, hSamples]; exact hRefines.cells
  samples := by
    rw [hSamples]
    refine hRefines.samples.imp fun row x ⟨id, hLookup, hRow, hOwn⟩ => ⟨id, ?_, hRow, ?_⟩
    · rw [hCache, hLookup]
    · rw [Database.cellsOf, hCells, ← Database.cellsOf, hOwn]

/-! ### The purge -/

/-- The cells of a sample that stays, stay. -/
theorem deleteSamples_cellsOf {db : Database} {p : SampleRow → Bool} {row : Int × SampleRow}
    (hRow : row ∈ db.samples.rows) (hStays : p row.2 = false) :
    (db.deleteSamples p).cellsOf row.1 = db.cellsOf row.1 := by
  rw [Database.cellsOf, Database.cellsOf, Database.deleteSamples, List.filter_filter]
  refine congrArg _ (List.filter_congr fun c _ => ?_)
  by_cases hOwn : c.sampleId = row.1
  · rw [decide_eq_true hOwn, Bool.true_and, Bool.not_eq_true', List.any_eq_false]
    intro row' hRow'
    rw [hOwn, Bool.and_eq_true, not_and, decide_eq_true_eq]
    intro hSame
    have hIds : (db.samples.rows.map Prod.fst).Nodup :=
      List.pairwise_map.mpr (db.samples.ascending.imp fun hLess => Int.ne_of_lt hLess)
    rw [List.inj_on_of_nodup_map hIds hRow' hRow hSame, hStays]
    exact Bool.false_ne_true
  · rw [decide_eq_false hOwn, Bool.false_and]

theorem Refines.deleteSamples (hRefines : h.Refines s) (before : Int) :
    ({ h with db := h.db.deleteSamples fun s => s.tsMs < before } : History).Refines
      (s.purge before) where
  registered := hRefines.registered.congr rfl rfl
  positive := hRefines.positive
  entries := hRefines.entries
  known := hRefines.known
  cells := fun c hc => hRefines.cells c (List.mem_filter.mp hc).1
  samples := by
    have hKept := List.rel_filter (p := fun row : Int × SampleRow => !(row.2.tsMs < before))
      (q := fun x : TelemetrySample => !(x.tsMs < before))
      (fun row x hHolds => by simp only [hHolds.tsMs]) hRefines.samples
    refine (Paired.with_mem hKept).imp fun row x ⟨⟨id, hLookup, hRow, hCells⟩, hMem, _⟩ => ?_
    obtain ⟨hOld, hStays⟩ := List.mem_filter.mp hMem
    refine ⟨id, hLookup, hRow, ?_⟩
    rw [deleteSamples_cellsOf hOld (by simpa using hStays), hCells]

theorem loop_sampleCells {fails : AggregateCall → Bool} {days : List PendingDay} :
    (days.foldl (aggregateDay sql fails) h).db.sampleCells = h.db.sampleCells := by
  induction days generalizing h with
  | nil => rfl
  | cons day days ih =>
    rw [List.foldl_cons, ih, aggregateDay_eq]
    split <;> rfl

variable (sql) in
/-- An aggregation leaves the samples as they are, or purges those before its bound. -/
theorem Refines.aggregatePending (hRefines : h.Refines s) (fails : AggregateCall → Bool) (now : Int) :
    (h.aggregatePending sql fails now).Refines s ∨ fails .prepareFind = false ∧
      (h.aggregatePending sql fails now).Refines (s.purge (purgeMs now)) := by
  rw [History.aggregatePending]
  split
  · exact .inl hRefines
  · rename_i hFind
    simp only
    split
    · exact .inl hRefines
    · have hLoop : (((h.findPending (todayMs now)).foldl (aggregateDay sql fails) h)).Refines s :=
        hRefines.congr loop_batteries.1 loop_batteries.2 loop_samples loop_sampleCells
      rw [History.purge]
      split
      · exact .inl hLoop
      · exact .inr ⟨Bool.eq_false_of_not_eq_true hFind, hLoop.deleteSamples (purgeMs now)⟩

/-! ### The other calls -/

theorem Refines.ensureBatteryId (hRefines : h.Refines s) (fails : AppendCall → Bool) (name : String) :
    (h.ensureBatteryId fails name).2.Refines (s.call (.ensureBatteryId fails name)) := by
  rw [History.ensureBatteryId, Store.call]
  cases hLookup : h.batteryIdCache.lookup name with
  | some id =>
    have hKnown : name ∈ s.known := by
      rw [hRefines.known, hLookup]
      simp
    rw [batteryRowId_known _ _ hLookup, if_neg fun h => h.1 hKnown, Finset.insert_eq_of_mem hKnown]
    exact hRefines
  | none =>
    have hUnknown : name ∉ s.known := by
      rw [hRefines.known, hLookup]
      simp
    rw [batteryRowId_new _ _ hRefines.registered hLookup]
    cases hFails : fails .insertBattery with
    | true =>
      rw [if_pos (Eq.refl true), if_pos ⟨hUnknown, rfl⟩]
      exact hRefines
    | false =>
      rw [if_neg Bool.false_ne_true, if_neg fun h => Bool.false_ne_true h.2]
      exact hRefines.withBattery hLookup

theorem Refines.lookUp (hRefines : h.Refines s) (fails : AppendCall → Bool) (name : String) :
    (h.batteryRowId fails name false).2.Refines s := by
  cases hLookup : h.batteryIdCache.lookup name with
  | some id =>
    rw [batteryRowId_known _ _ hLookup]
    exact hRefines
  | none =>
    have hFind := hRefines.registered.findBattery name hLookup
    have hSame : (h.batteryRowId fails name false).2 = h := by
      rw [batteryRowId, hLookup]
      simp [Database.findBattery, hFind]
    rw [hSame]
    exact hRefines

/-- A cache that is read back whole knows what the one before did. -/
theorem reopen_lookup (hRegistered : h.Registered) {count : Nat} {ramWindow : Int}
    (hCount : h.db.batteries.rows.length ≤ count) (name : String) :
    (h.reopen count ramWindow).batteryIdCache.lookup name = h.batteryIdCache.lookup name := by
  have hBack {id : Int} (hLookup : (h.reopen count ramWindow).batteryIdCache.lookup name = some id) :
      h.batteryIdCache.lookup name = some id := by
    have hEntry := mem_of_lookup hLookup
    rw [reopen_cache hCount, List.mem_map] at hEntry
    obtain ⟨row, hRow, hEq⟩ := hEntry
    cases hEq
    exact hRegistered.cached row hRow
  cases hLookup : (h.reopen count ramWindow).batteryIdCache.lookup name with
  | some id => exact (hBack hLookup).symm
  | none =>
    cases hOld : h.batteryIdCache.lookup name with
    | none => rfl
    | some id =>
      refine absurd ?_ (not_mem_of_lookup hLookup)
      rw [reopen_cache hCount, List.map_map]
      exact List.mem_map.mpr ⟨_, hRegistered.stored name id hOld, rfl⟩

theorem Registered.reopen (hRegistered : h.Registered) {count : Nat} {ramWindow : Int}
    (hCount : h.db.batteries.rows.length ≤ count) : (h.reopen count ramWindow).Registered where
  seq := hRegistered.seq
  cached := fun row hRow => (reopen_lookup hRegistered hCount row.2).trans (hRegistered.cached row hRow)
  stored := fun name id hLookup => hRegistered.stored name id
    ((reopen_lookup hRegistered hCount name).symm.trans hLookup)
  bounds := fun name id hLookup => hRegistered.bounds name id
    ((reopen_lookup hRegistered hCount name).symm.trans hLookup)
  distinct := fun name name' id hLookup hLookup' => hRegistered.distinct name name' id
    ((reopen_lookup hRegistered hCount name).symm.trans hLookup)
    ((reopen_lookup hRegistered hCount name').symm.trans hLookup')

theorem Refines.reopen (hRefines : h.Refines s) {count : Nat} {ramWindow : Int}
    (hCount : h.db.batteries.rows.length ≤ count) : (h.reopen count ramWindow).Refines s where
  registered := hRefines.registered.reopen hCount
  positive := fun name id hLookup => hRefines.positive name id
    ((reopen_lookup hRefines.registered hCount name).symm.trans hLookup)
  entries := fun entry hEntry => by
    rw [reopen_cache hCount, List.mem_map] at hEntry
    obtain ⟨row, hRow, rfl⟩ := hEntry
    exact (hRefines.registered.reopen hCount).cached row hRow
  known := fun name => by rw [reopen_lookup hRefines.registered hCount, hRefines.known]
  cells := hRefines.cells
  samples := hRefines.samples.imp fun row x ⟨id, hLookup, hRow⟩ =>
    ⟨id, (reopen_lookup hRefines.registered hCount _).trans hLookup, hRow⟩

/-! ### Whole lives -/

/-- A store without the samples before a bound. -/
structure Keeps (bound : Int) (s t : Store) : Prop where
  known : t.known = s.known
  sublist : t.samples.Sublist s.samples
  kept : (t.samples.filter fun x => bound ≤ x.tsMs) = s.samples.filter fun x => bound ≤ x.tsMs

variable {bound : Int} {t : Store}

theorem Keeps.refl (bound : Int) (s : Store) : Keeps bound s s := ⟨rfl, .refl _, rfl⟩

theorem Keeps.append (hKeeps : Keeps bound s t) (a : AppendArgs) :
    Keeps bound (s.append a) (t.append a) := by
  rw [Store.append, Store.append, hKeeps.known]
  split
  · exact hKeeps
  · refine ⟨rfl, ?_, ?_⟩
    · simp only
      split
      · exact hKeeps.sublist
      · exact hKeeps.sublist.append_right _
    · simp only
      split
      · exact hKeeps.kept
      · rw [List.filter_append, List.filter_append, hKeeps.kept]

theorem Keeps.ensureBatteryId (hKeeps : Keeps bound s t) (fails : AppendCall → Bool) (name : String) :
    Keeps bound (s.call (.ensureBatteryId fails name)) (t.call (.ensureBatteryId fails name)) := by
  rw [Store.call, Store.call, hKeeps.known]
  split
  · exact hKeeps
  · exact ⟨rfl, hKeeps.sublist, hKeeps.kept⟩

theorem Keeps.purge (hKeeps : Keeps bound s t) {before : Int} (hBefore : before ≤ bound) :
    Keeps bound s (t.purge before) where
  known := hKeeps.known
  sublist := List.filter_sublist.trans hKeeps.sublist
  kept := by
    rw [← hKeeps.kept, Store.purge, List.filter_filter]
    refine List.filter_congr fun x _ => ?_
    by_cases hLow : bound ≤ x.tsMs
    · simp [hLow, Int.le_trans hBefore hLow]
    · simp [hLow]

/-- The purges take nothing behind the bound. -/
def PurgesBelow (bound : Int) : Call → Prop
  | .aggregatePending _ now => purgeMs now ≤ bound
  | _ => True

instance (bound : Int) : DecidablePred (PurgesBelow bound)
  | .aggregatePending _ now => inferInstanceAs (Decidable (purgeMs now ≤ bound))
  | .append _ | .ensureBatteryId .. | .lookUp .. | .reopen .. => inferInstanceAs (Decidable True)

/-- The cache is read back whole. -/
def ReadsBack (h : History) : Call → Prop
  | .reopen count _ => h.db.batteries.rows.length ≤ count
  | _ => True

variable (sql) in
theorem refines_call (hRefines : h.Refines t) (hKeeps : Keeps bound s t) {c : Call}
    (hPurges : PurgesBelow bound c) (hReads : h.ReadsBack c) :
    ∃ t', (h.call sql c).Refines t' ∧ Keeps bound (s.call c) t' := by
  cases c with
  | append args => exact ⟨_, hRefines.step args, hKeeps.append args⟩
  | ensureBatteryId fails name =>
    exact ⟨_, hRefines.ensureBatteryId fails name, hKeeps.ensureBatteryId fails name⟩
  | lookUp fails name => exact ⟨_, hRefines.lookUp fails name, hKeeps⟩
  | aggregatePending fails now =>
    rcases hRefines.aggregatePending sql fails now with hSame | ⟨-, hPurged⟩
    · exact ⟨_, hSame, hKeeps⟩
    · exact ⟨_, hPurged, hKeeps.purge hPurges⟩
  | reopen count ramWindow => exact ⟨_, hRefines.reopen hReads, hKeeps⟩

theorem refines_calls (hRefines : h.Refines t) (hKeeps : Keeps bound s t) {cs : List Call}
    (hPurges : ∀ c ∈ cs, PurgesBelow bound c)
    (hReads : Runs.Meets (fun h c => some (h.call sql c)) ReadsBack h cs) :
    ∃ t', (h.calls sql cs).Refines t' ∧ Keeps bound (cs.foldl Store.call s) t' := by
  induction cs generalizing h s t with
  | nil => exact ⟨t, hRefines, hKeeps⟩
  | cons c cs ih =>
    obtain ⟨hRead, hReads⟩ := hReads
    obtain ⟨hPurge, hPurges⟩ := List.forall_mem_cons.mp hPurges
    obtain ⟨t', hRefines', hKeeps'⟩ := refines_call sql hRefines hKeeps hPurge hRead
    exact ih hRefines' hKeeps' hPurges hReads

/-! ### Reading -/

/-- The appends among the calls. -/
def appends? : Call → Option AppendArgs
  | .append args => some args
  | _ => none

theorem samples_append (s : Store) (a : AppendArgs) :
    (s.append a).samples.Sublist (s.samples ++ [a.sample]) := by
  rw [Store.append]
  split
  · exact List.sublist_append_left ..
  · simp only
    split
    · exact List.sublist_append_left ..
    · exact .refl _

theorem samples_calls (cs : List Call) (s : Store) : (cs.foldl Store.call s).samples.Sublist
    (s.samples ++ (cs.filterMap appends?).map AppendArgs.sample) := by
  induction cs generalizing s with
  | nil => rw [List.filterMap_nil, List.map_nil, List.append_nil]; exact .refl _
  | cons c cs ih =>
    have hRest := ih (s.call c)
    cases c with
    | append args =>
      refine hRest.trans ?_
      have hOne := (samples_append s args).append_right ((cs.filterMap appends?).map AppendArgs.sample)
      rwa [List.append_assoc] at hOne
    | ensureBatteryId fails name =>
      refine hRest.trans ?_
      rw [Store.call]
      split <;> exact .refl _
    | _ => exact hRest

theorem Keeps.range (hKeeps : Keeps bound s t) (name : String) {fromMs : Int} (hFrom : bound ≤ fromMs)
    (stopMs lim stepMs : Int) :
    t.range name fromMs stopMs lim stepMs = s.range name fromMs stopMs lim stepMs := by
  have hWindow (u : Store) : Paging.window TelemetrySample.tsMs fromMs stopMs (u.samplesOf name) =
      Paging.window TelemetrySample.tsMs fromMs stopMs
        ((u.samples.filter fun x => bound ≤ x.tsMs).filter fun x => x.batteryId = name) := by
    rw [Paging.window, Paging.window, Store.samplesOf, List.filter_filter, List.filter_filter,
      List.filter_filter]
    refine List.filter_congr fun x _ => ?_
    by_cases hLow : fromMs ≤ x.tsMs
    · simp [Int.le_trans hFrom hLow]
    · simp [hLow]
  rw [Store.range, Store.range, hWindow t, hWindow s, hKeeps.kept]

/-- The appends for a battery that has been resolved, unless they are rolled back. -/
def committedOf (name : String) (appends : List AppendArgs) : List AppendArgs :=
  appends.filter fun a => a.batteryId = name ∧ ¬aborts a.fails a.cells.voltagesMv.length

theorem samplesOf_append {name : String} (hKnown : name ∈ s.known) (a : AppendArgs) :
    name ∈ (s.append a).known ∧
      (s.append a).samplesOf name = s.samplesOf name ++ (committedOf name [a]).map AppendArgs.sample := by
  rw [Store.append]
  by_cases hName : a.batteryId = name
  · rw [if_neg (by rw [hName]; exact fun h => h.1 hKnown)]
    refine ⟨Finset.mem_insert_of_mem hKnown, ?_⟩
    by_cases hAborts : aborts a.fails a.cells.voltagesMv.length
    · simp [committedOf, Store.samplesOf, hAborts]
    · simp [committedOf, Store.samplesOf, hAborts, hName, AppendArgs.sample]
  · have hNone : committedOf name [a] = [] := by simp [committedOf, hName]
    rw [hNone, List.map_nil, List.append_nil]
    split
    · exact ⟨hKnown, rfl⟩
    · refine ⟨Finset.mem_insert_of_mem hKnown, ?_⟩
      simp only [Store.samplesOf]
      split
      · rfl
      · simp [hName, AppendArgs.sample]

theorem samplesOf_calls {name : String} (hKnown : name ∈ s.known) (cs : List Call) :
    (cs.foldl Store.call s).samplesOf name =
      s.samplesOf name ++ (committedOf name (cs.filterMap appends?)).map AppendArgs.sample := by
  induction cs generalizing s with
  | nil => exact (List.append_nil _).symm
  | cons c cs ih =>
    cases c with
    | append args =>
      obtain ⟨hKnown', hOne⟩ := samplesOf_append hKnown args
      have hRest := ih hKnown'
      rw [hOne, List.append_assoc, ← List.map_append] at hRest
      exact hRest.trans (by rw [committedOf, committedOf, ← List.filter_append]; rfl)
    | ensureBatteryId fails other =>
      refine (ih ?_).trans ?_
      · rw [Store.call]
        split
        · exact hKnown
        · exact Finset.mem_insert_of_mem hKnown
      · rw [Store.call]
        split <;> rfl
    | _ => exact ih hKnown

/-- Samples that are newer than all others come first. -/
theorem range_append {name : String} {s' : Store} {new : List TelemetrySample}
    (hSamples : s'.samplesOf name = s.samplesOf name ++ new)
    (hAscending : new.Pairwise fun a b => a.tsMs < b.tsMs)
    (hNewer : ∀ x ∈ s.samplesOf name, ∀ y ∈ new, x.tsMs < y.tsMs) (fromMs stopMs : Int) :
    s'.range name fromMs stopMs 0 0 =
      (Paging.window TelemetrySample.tsMs fromMs stopMs new).reverse.map TelemetrySample.stored ++
        s.range name fromMs stopMs 0 0 := by
  simp only [Store.range, Int.lt_irrefl, if_false]
  rw [hSamples, Paging.window, List.filter_append, Paging.sort_append_newer, List.map_append]
  · rfl
  · exact hAscending.filter _
  · exact fun x hx y hy => hNewer x (List.mem_filter.mp hx).1 y (List.mem_filter.mp hy).1

theorem exists_bound (cs : List Call) : ∃ bound, ∀ c ∈ cs, PurgesBelow bound c := by
  induction cs with
  | nil => exact ⟨0, nofun⟩
  | cons c cs ih =>
    obtain ⟨bound, hRest⟩ := ih
    have hWeaker {bound' : Int} (hLe : bound ≤ bound') (c : Call) (hc : c ∈ cs) : PurgesBelow bound' c := by
      have hOld := hRest c hc
      cases c with
      | aggregatePending fails now => exact Int.le_trans hOld hLe
      | _ => trivial
    cases c with
    | aggregatePending fails now =>
      refine ⟨max bound (purgeMs now), List.forall_mem_cons.mpr ⟨?_, hWeaker (Int.le_max_left ..)⟩⟩
      exact Int.le_max_right ..
    | _ => exact ⟨bound, List.forall_mem_cons.mpr ⟨trivial, hRest⟩⟩

theorem calls_append (h : History) (sql : OrderBy (Int × SampleRow)) (cs cs' : List Call) :
    h.calls sql (cs ++ cs') = (h.calls sql cs).calls sql cs' := List.foldl_append

section Lives

variable {cs : List Call} {ramWindow : Int}

theorem distinctMs_calls (hDistinct : (cs.filterMap appends?).Pairwise fun a b =>
    a.batteryId = b.batteryId → toMs a.ts ≠ toMs b.ts) : DistinctMs (cs.foldl Store.call {}).samples := by
  have hAll : DistinctMs ((cs.filterMap appends?).map AppendArgs.sample) :=
    List.pairwise_map.mpr hDistinct
  have hSublist := samples_calls cs {}
  rw [List.nil_append] at hSublist
  exact List.Pairwise.sublist hSublist hAll

/-- For a window behind all purges. -/
theorem range_calls (hReads : Runs.Meets (fun h c => some (h.call sql c)) ReadsBack { ramWindow } cs)
    (hDistinct : (cs.filterMap appends?).Pairwise fun a b =>
      a.batteryId = b.batteryId → toMs a.ts ≠ toMs b.ts) {start : Int}
    (hPurges : ∀ c ∈ cs, PurgesBelow (toMs start) c) (name : String) (stop lim stepMs : Int) :
    ((({ ramWindow } : History).calls sql cs).range sql name start stop lim stepMs).1 =
        (cs.foldl Store.call {}).range name (toMs start) (toMs stop) lim stepMs ∧
      ∀ id, (id, name) ∈ (({ ramWindow } : History).calls sql cs).db.batteries.rows →
        (({ ramWindow } : History).calls sql cs).rangeById sql id start stop lim stepMs =
          (cs.foldl Store.call {}).range name (toMs start) (toMs stop) lim stepMs := by
  obtain ⟨t, hRefines, hKeeps⟩ := refines_calls (refines_empty ramWindow)
    (Keeps.refl (toMs start) {}) hPurges hReads
  have hMsKept := List.Pairwise.sublist hKeeps.sublist (distinctMs_calls hDistinct)
  have hSame := hKeeps.range name (Int.le_refl (toMs start)) (toMs stop) lim stepMs
  refine ⟨?_, fun id hBattery => ?_⟩
  · rw [hRefines.range sql hMsKept, hSame]
  · rw [hRefines.rangeById sql hMsKept hBattery, hSame]

theorem known_calls (hReads : Runs.Meets (fun h c => some (h.call sql c)) ReadsBack { ramWindow } cs)
    {id : Int} {name : String}
    (hBattery : (id, name) ∈ (({ ramWindow } : History).calls sql cs).db.batteries.rows) :
    name ∈ (cs.foldl Store.call {}).known := by
  obtain ⟨bound, hPurges⟩ := exists_bound cs
  obtain ⟨t, hRefines, hKeeps⟩ := refines_calls (refines_empty ramWindow) (Keeps.refl bound {}) hPurges
    hReads
  rw [← hKeeps.known, hRefines.known, hRefines.registered.cached _ hBattery]
  exact Option.some_ne_none id

/-- Over any number of processes and with any of the modelled calls of SQLite failing: what the queries
return are committed samples; and where no two appends for a battery fall into one millisecond, for a window
behind all purges they return what the list of the committed samples holds, whatever has been aggregated and
however often the database has been opened again. -/
theorem samples_survive (sql : OrderBy (Int × SampleRow)) (ramWindow : Int) (cs : List Call)
    (hReads : Runs.Meets (fun h c => some (h.call sql c)) ReadsBack { ramWindow } cs) (name : String)
    (start stop lim stepMs : Int) :
    let h := ({ ramWindow } : History).calls sql cs
    let committed := cs.foldl Store.call {}
    (∀ y ∈ (h.range sql name start stop lim stepMs).1, ∃ x ∈ committed.samplesOf name, y = x.stored) ∧
      (∀ id, (id, name) ∈ h.db.batteries.rows → ∀ y ∈ h.rangeById sql id start stop lim stepMs,
        ∃ x ∈ committed.samplesOf name, y = x.stored) ∧
      (((cs.filterMap appends?).Pairwise fun a b => a.batteryId = b.batteryId → toMs a.ts ≠ toMs b.ts) →
        (∀ c ∈ cs, PurgesBelow (toMs start) c) →
        (h.range sql name start stop lim stepMs).1 =
            committed.range name (toMs start) (toMs stop) lim stepMs ∧
          ∀ id, (id, name) ∈ h.db.batteries.rows → h.rangeById sql id start stop lim stepMs =
            committed.range name (toMs start) (toMs stop) lim stepMs) := by
  obtain ⟨bound, hPurges⟩ := exists_bound cs
  obtain ⟨t, hRefines, hKeeps⟩ := refines_calls (refines_empty ramWindow) (Keeps.refl bound {}) hPurges
    hReads
  have hCommitted {y : TelemetrySample} (hy : ∃ x ∈ t.samplesOf name, y = x.stored) :
      ∃ x ∈ (cs.foldl Store.call {}).samplesOf name, y = x.stored := by
    obtain ⟨x, hx, rfl⟩ := hy
    exact ⟨x, (hKeeps.sublist.filter _).subset hx, rfl⟩
  refine ⟨fun y hy => hCommitted (hRefines.mem_range hy),
    fun id hBattery y hy => hCommitted (hRefines.mem_rangeById hBattery hy), ?_⟩
  exact fun hDistinct hPurges => range_calls hReads hDistinct hPurges name stop lim stepMs

end Lives

/-- Two samples, with the program started anew between them and an aggregation behind them. -/
def twoLives : List Call := [
  .append { fails := fun _ => false, batteryId := "jk", ts := 3000000, now := 3000000, cells := {}, pack := {} },
  .reopen 1 0,
  .append { fails := fun _ => false, batteryId := "jk", ts := 5000000, now := 5000000, cells := {}, pack := {} },
  .aggregatePending (fun _ => false) 86400000000000]

theorem samples_survive_two : (((({ ramWindow := 0 } : History).calls .stable twoLives).range .stable "jk" 0
    9000000 0 0).1.map TelemetrySample.ts) = [5000000, 3000000] := by
  have hRange := ((samples_survive .stable 0 twoLives ⟨trivial, Nat.le_refl 1, trivial, trivial, trivial⟩
    "jk" 0 9000000 0 0).2.2 (by decide) (by
      intro c hc
      simp only [twoLives, List.mem_cons, List.not_mem_nil, or_false] at hc
      rcases hc with rfl | rfl | rfl | rfl
      all_goals simp only [PurgesBelow]
      decide)).1
  rw [hRange]
  decide

end History

end BmsBridge
