import BmsBridge.History.Store
import BmsBridge.Lib.Expiry

/-! The samples in RAM.  Every append drops old samples from the front, as far as the first one that is
not too old, so that old ones behind that one stay: the clock may have been stepped back. -/

namespace BmsBridge

open Expiry

namespace History

/-- Samples from before this are too old. -/
def cutoff (ramWindow : Int) (a : AppendArgs) : Int := a.now - ramWindow

/-- What the RAM holds after appends: the samples of the newest calls `kept`, among which are all that
have not been too old at any append since their own. -/
structure Remembers (h : History) (calls kept : List AppendArgs) : Prop where
  ram : h.ram = kept.map AppendArgs.sample
  newest : kept <:+ calls
  undropped : ∀ a since, a :: since <:+ calls →
    (∀ c ∈ a :: since, cutoff h.ramWindow c ≤ a.ts) → a :: since <:+ kept
  recent : ∀ name, h.recent name = (kept.filter fun a => a.batteryId = name).map AppendArgs.sample

/-- The RAM after an append is that of the last while. -/
structure InWindow (h : History) (calls : List AppendArgs) (last : AppendArgs)
    (kept : List AppendArgs) : Prop extends h.Remembers (calls ++ [last]) kept where
  fresh : ∀ s ∈ h.ram, cutoff h.ramWindow last ≤ s.ts

/-- A sample gets too old only when those that were appended before it do or have done so. -/
def ExpiresInOrder (ramWindow : Int) (calls : List AppendArgs) : Prop :=
  InOrder AppendArgs.ts (cutoff ramWindow) calls

/-! ### One append -/

variable (h : History) (a : AppendArgs)

/-- The calls of SQLite leave the RAM alone. -/
theorem batteryRowId_ram (fails : AppendCall → Bool) (name : String) (create : Bool) :
    (h.batteryRowId fails name create).2.ram = h.ram ∧
      (h.batteryRowId fails name create).2.ramWindow = h.ramWindow := by
  rw [batteryRowId]
  cases h.batteryIdCache.lookup name with
  | some id => exact ⟨rfl, rfl⟩
  | none =>
    simp only
    split <;> exact ⟨rfl, rfl⟩

theorem insertSample_ram (fails : AppendCall → Bool) (batId tsMs : Int) (cells : JkCellInfo)
    (pack : JkPackInfo) : (h.insertSample fails batId tsMs cells pack).ram = h.ram ∧
      (h.insertSample fails batId tsMs cells pack).ramWindow = h.ramWindow := by
  unfold insertSample
  split_ifs <;> exact ⟨rfl, rfl⟩

theorem appendCall_ram : (h.appendCall a).ram = (h.remember a.now a.sample).ram ∧
    (h.appendCall a).ramWindow = h.ramWindow := by
  have hBattery := (h.remember a.now a.sample).batteryRowId_ram a.fails a.batteryId true
  rw [appendCall, append, ← AppendArgs.sample]
  generalize (h.remember a.now a.sample).batteryRowId a.fails a.batteryId true = found at *
  obtain ⟨batId, h'⟩ := found
  simp only at hBattery ⊢
  split
  · exact hBattery
  · have hSample := h'.insertSample_ram a.fails batId (toMs a.ts) a.cells a.pack
    exact ⟨hSample.1.trans hBattery.1, hSample.2.trans hBattery.2⟩

/-! ### All appends -/

/-- The history when it has been opened, with nothing in RAM. -/
def opened (db : Database) (batteryIdCache : List (String × Int)) (ramWindow : Int) : History :=
  { db, batteryIdCache, ramWindow }

def appends (h : History) (calls : List AppendArgs) : History := calls.foldl appendCall h

theorem appends_ramWindow (calls : List AppendArgs) :
    (h.appends calls).ramWindow = h.ramWindow := by
  induction calls generalizing h with
  | nil => rfl
  | cons a calls ih => exact (ih (h.appendCall a)).trans (h.appendCall_ram a).2

variable (db : Database) (cache : List (String × Int)) (ramWindow : Int) (calls : List AppendArgs)

/-- The RAM is a queue that drops from its front. -/
theorem appends_ram : ((opened db cache ramWindow).appends calls).ram =
    (pushAll AppendArgs.ts (cutoff ramWindow) calls).map AppendArgs.sample := by
  induction calls using List.reverseRecOn with
  | nil => rfl
  | append_singleton calls a ih =>
    have hLast : (opened db cache ramWindow).appends (calls ++ [a]) =
        ((opened db cache ramWindow).appends calls).appendCall a := by
      rw [appends, List.foldl_append]
      rfl
    have hQueue : (pushAll AppendArgs.ts (cutoff ramWindow) calls ++ [a]).map AppendArgs.sample =
        (pushAll AppendArgs.ts (cutoff ramWindow) calls).map AppendArgs.sample ++ [a.sample] :=
      List.map_append
    rw [hLast, (appendCall_ram _ a).1, remember, appends_ramWindow, ih, pushAll_concat, push, ← hQueue,
      List.dropWhile_map]
    rfl

/-- Whatever the clock does, an append keeps what has never been too old, and queries read what is
kept. -/
theorem appends_remember : ((opened db cache ramWindow).appends calls).Remembers calls
    (pushAll AppendArgs.ts (cutoff ramWindow) calls) where
  ram := appends_ram db cache ramWindow calls
  newest := pushAll_suffix calls
  undropped a since hSince hFresh := by
    rw [appends_ramWindow] at hFresh
    refine kept_of_not_expired hSince ?_
    rintro ⟨c, hc, hBefore⟩
    have hNot : cutoff ramWindow c ≤ a.ts := hFresh c hc
    omega
  recent name := by
    rw [recent, appends_ram, List.filter_map]
    rfl

/-- The RAM stays inside its window in all of a run if and only if the samples of the run get too old
in the order of their appends. -/
theorem ram_in_window_iff :
    (∀ before last, before ++ [last] <+: calls →
      ∃ kept, ((opened db cache ramWindow).appends (before ++ [last])).InWindow before last kept) ↔
    ExpiresInOrder ramWindow calls := by
  rw [ExpiresInOrder, ← fresh_iff_inOrder]
  refine forall₃_congr fun before last hPrefix => ?_
  have hRemembers := appends_remember db cache ramWindow (before ++ [last])
  constructor
  · rintro ⟨kept, hWindow⟩ a ha
    have hFresh := hWindow.fresh a.sample (hRemembers.ram ▸ List.mem_map_of_mem ha)
    rwa [appends_ramWindow] at hFresh
  · intro hFresh
    refine ⟨_, hRemembers, fun s hs => ?_⟩
    rw [hRemembers.ram] at hs
    obtain ⟨a, ha, rfl⟩ := List.mem_map.mp hs
    rw [appends_ramWindow]
    exact hFresh a ha

/-- As long as the time stamps do not go back, the RAM stays inside its window. -/
theorem ExpiresInOrder.of_sorted (h : calls.Pairwise fun a b => a.ts ≤ b.ts) :
    ExpiresInOrder ramWindow calls := InOrder.of_sorted h

/-- The clock is on the tenth day, is set to the first one, and reaches the third one. -/
def steppedBack : List AppendArgs := [777600000000000, 0, 172800000000000].map fun now =>
  { fails := fun _ => false, batteryId := "jk", ts := now, now, cells := {}, pack := {} }

/-- With a window of a day, the sample of the first day is still there on the third one. -/
theorem old_sample_behind_new : ¬∀ (db : Database) (cache : List (String × Int)) (ramWindow : Int)
    (calls : List AppendArgs) (before : List AppendArgs) (last : AppendArgs),
    before ++ [last] <+: calls →
      ∃ kept, ((opened db cache ramWindow).appends (before ++ [last])).InWindow before last kept := by
  intro h
  obtain ⟨kept, hWindow⟩ := h {} [] 86400000000000 steppedBack (steppedBack.take 2)
    { fails := fun _ => false, batteryId := "jk", ts := 172800000000000, now := 172800000000000
      cells := {}, pack := {} } ⟨[], rfl⟩
  have hFresh := hWindow.fresh { batteryId := "jk", ts := 0, cells := {}, pack := {} } (by decide)
  exact absurd hFresh (by decide)

end History

end BmsBridge
