import Mathlib.Data.List.Pairwise
import Mathlib.Data.List.Sort

/-! The clauses of a query that order its rows by a number.  In which order the rows of one number
come is left open. -/

/-- `ORDER BY`, ascending. -/
structure OrderBy (α : Type) where
  sort : (α → Int) → List α → List α
  perm : ∀ key rows, (sort key rows).Perm rows
  sorted : ∀ key rows, (sort key rows).Pairwise fun a b => key a ≤ key b

namespace OrderBy

variable {α : Type}

/-- `LIMIT`, without effect if it is negative. -/
def limit (n : Int) (rows : List α) : List α := if 0 ≤ n then rows.take n.toNat else rows

theorem limit_of_pos (n : Int) (rows : List α) :
    limit (if 0 < n then n else -1) rows = if 0 < n then rows.take n.toNat else rows := by
  rw [limit]
  split
  · exact if_pos (by omega)
  · exact if_neg (by omega)

theorem map_limit {β : Type} (f : α → β) (n : Int) (rows : List α) :
    (limit n rows).map f = limit n (rows.map f) := by
  rw [limit, limit]
  split
  · exact List.map_take
  · rfl

theorem mem_of_mem_limit {n : Int} {rows : List α} {r : α} (h : r ∈ limit n rows) : r ∈ rows := by
  rw [limit] at h
  split at h
  · exact List.mem_of_mem_take h
  · exact h

/-- Rows of one number stay as they are. -/
def stable : OrderBy α where
  sort key rows := rows.insertionSort fun a b => key a ≤ key b
  perm _ rows := rows.perm_insertionSort _
  sorted key rows :=
    have : Std.Total fun a b : α => key a ≤ key b := ⟨fun a b => Int.le_total (key a) (key b)⟩
    have : IsTrans α fun a b => key a ≤ key b := ⟨fun _ _ _ => Int.le_trans⟩
    rows.pairwise_insertionSort _

variable (sql : OrderBy α) {key : α → Int} {rows : List α} {r : α}

/-- The first row of each partition: `ROW_NUMBER() OVER (PARTITION BY part ORDER BY key) = 1`. -/
def firsts [DecidableEq α] (part key : α → Int) (rows : List α) : List α :=
  rows.filter fun r => (sql.sort key (rows.filter fun x => part x = part r)).head? = some r

@[simp] theorem mem_sort : r ∈ sql.sort key rows ↔ r ∈ rows := (sql.perm key rows).mem_iff

@[simp] theorem length_sort : (sql.sort key rows).length = rows.length := (sql.perm key rows).length_eq

/-- Numbers that are all different can be put in order in one way only. -/
theorem map_sort_eq {β : Type} {f : α → β} (key' : β → Int) {sorted : List β}
    (hKey : ∀ r ∈ rows, key' (f r) = key r) (hPerm : sorted.Perm (rows.map f))
    (hSorted : sorted.Pairwise fun a b => key' a < key' b) : (sql.sort key rows).map f = sorted := by
  have hSame : ((sql.sort key rows).map f).Perm sorted :=
    ((sql.perm key rows).map f).trans hPerm.symm
  have hMapped : ((sql.sort key rows).map f).Pairwise fun a b => key' a ≤ key' b := by
    rw [List.pairwise_map]
    refine (sql.sorted key rows).imp_of_mem fun {a b} ha hb h => ?_
    rw [hKey a ((sql.perm key rows).mem_iff.mp ha), hKey b ((sql.perm key rows).mem_iff.mp hb)]
    exact h
  refine hSame.eq_of_pairwise (fun a b ha hb hle hge => ?_) hMapped (hSorted.imp Int.le_of_lt)
  by_contra hNe
  have : Std.Symm fun a b => key' a ≠ key' b := ⟨fun _ _ h => h.symm⟩
  exact (hSorted.imp fun h => Int.ne_of_lt h).forall (hSame.mem_iff.mp ha) hb hNe
    (Int.le_antisymm hle hge)

theorem sort_eq_nil : sql.sort key rows = [] ↔ rows = [] := by
  rw [← List.length_eq_zero_iff, length_sort, List.length_eq_zero_iff]

section Distinct

variable (hDistinct : rows.Pairwise fun a b => key a ≠ key b)

include hDistinct

theorem eq_of_key {a b : α} (ha : a ∈ rows) (hb : b ∈ rows) (h : key a = key b) : a = b :=
  have : Std.Symm fun a b => key a ≠ key b := ⟨fun _ _ h => h.symm⟩
  not_not.mp fun hNe => hDistinct.forall ha hb hNe h

theorem sort_strict : (sql.sort key rows).Pairwise fun a b => key a < key b := by
  have hSorted := sql.sorted key rows
  have hNe : (sql.sort key rows).Pairwise fun a b => key a ≠ key b :=
    ((sql.perm key rows).pairwise_iff fun h => h.symm).mpr hDistinct
  exact (hSorted.and hNe).imp fun h => by omega

theorem head_sort : (sql.sort key rows).head? = some r ↔ r ∈ rows ∧ ∀ x ∈ rows, key r ≤ key x := by
  have hSorted := sql.sorted key rows
  have hMem {x : α} : x ∈ sql.sort key rows ↔ x ∈ rows := sql.mem_sort
  cases hSort : sql.sort key rows with
  | nil =>
    rw [hSort] at hMem
    refine ⟨nofun, fun h => ?_⟩
    cases hMem.mpr h.1
  | cons y ys =>
    rw [hSort] at hMem hSorted
    have hFirst := (List.pairwise_cons.mp hSorted).1
    have hLeast : ∀ x ∈ rows, key y ≤ key x := by
      intro x hx
      rcases List.mem_cons.mp (hMem.mpr hx) with rfl | hx
      · exact Int.le_refl _
      · exact hFirst x hx
    have hy : y ∈ rows := hMem.mp (List.mem_cons_self ..)
    rw [List.head?_cons, Option.some.injEq]
    constructor
    · rintro rfl
      exact ⟨hy, hLeast⟩
    · rintro ⟨hr, hMin⟩
      exact eq_of_key hDistinct hy hr (Int.le_antisymm (hLeast r hr) (hMin y hy))

theorem mem_firsts [DecidableEq α] {part : α → Int} : r ∈ sql.firsts part key rows ↔
    r ∈ rows ∧ ∀ x ∈ rows, part x = part r → key r ≤ key x := by
  rw [firsts, List.mem_filter, decide_eq_true_eq, sql.head_sort (hDistinct.filter _)]
  simp only [List.mem_filter, decide_eq_true_eq, and_true, and_imp]
  exact ⟨fun h => ⟨h.1, h.2.2⟩, fun h => ⟨h.1, h.1, h.2⟩⟩

end Distinct

end OrderBy
