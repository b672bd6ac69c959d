import Mathlib.Data.List.Nodup

/-! Batches of events that are handled one after the other, each of them about a key.  The meaning of
the keys may change while a batch is handled. -/

namespace Batch

variable {κ δ : Type}

/-- Each event that is left is about a key of its own, and the key still means what it did. -/
structure Current (table : κ → Option δ) (events : List (κ × δ)) : Prop where
  distinct : (events.map Prod.fst).Nodup
  means : ∀ e ∈ events, table e.1 = some e.2

variable {table table' : κ → Option δ} {e : κ × δ} {events : List (κ × δ)}

theorem Current.tail (h : Current table (e :: events)) : Current table events where
  distinct := (List.nodup_cons.mp h.distinct).2
  means := fun x hx => h.means x (List.mem_cons_of_mem _ hx)

/-- What only gives a meaning to keys without one, or takes it from keys that no event is about, leaves
a batch current. -/
theorem Current.congr (h : Current table events)
    (hSame : ∀ e ∈ events, table e.1 ≠ none → table' e.1 = table e.1) : Current table' events where
  distinct := h.distinct
  means := fun e he => by
    have hMeans := h.means e he
    rw [hSame e he (by rw [hMeans]; exact Option.some_ne_none _), hMeans]

/-- A handler may give its own event's key another meaning, and a meaning to keys without one. -/
theorem Current.handled (h : Current table (e :: events))
    (hSame : ∀ k, k ≠ e.1 → table k ≠ none → table' k = table k) : Current table' events := by
  refine h.tail.congr fun x hx hSome => hSame x.1 ?_ hSome
  have hFirst := (List.nodup_cons.mp h.distinct).1
  intro hKey
  exact hFirst (hKey ▸ List.mem_map_of_mem hx)

/-- A batch of distinct keys is current when it is taken. -/
theorem current_taken {keys : List κ} (hKeys : keys.Nodup) :
    Current table (keys.filterMap fun k => (table k).map fun d => (k, d)) where
  distinct := by
    rw [List.map_filterMap]
    refine hKeys.filterMap fun k k' key hk hk' => ?_
    simp only [Option.mem_def, Option.map_map, Option.map_eq_some_iff, Function.comp_apply] at hk hk'
    obtain ⟨d, -, rfl⟩ := hk
    obtain ⟨d', -, rfl⟩ := hk'
    rfl
  means := fun x hx => by
    obtain ⟨k, -, hk⟩ := List.mem_filterMap.mp hx
    obtain ⟨d, hd, rfl⟩ := Option.map_eq_some_iff.mp hk
    exact hd

end Batch
