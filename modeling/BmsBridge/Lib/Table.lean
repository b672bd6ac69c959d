/-! Tables whose rows get their numbers from a counter (`INTEGER PRIMARY KEY AUTOINCREMENT`), and
the order that a query puts rows in. -/

/-- The rows with their numbers, in the order of these.  The counter is not behind any of them. -/
structure Table (ρ : Type) where
  rows : List (Int × ρ)
  seq : Int
  ascending : rows.Pairwise fun a b => a.1 < b.1
  bounded : ∀ r ∈ rows, r.1 ≤ seq

namespace Table

variable {ρ : Type}

instance : EmptyCollection (Table ρ) where
  emptyCollection := { rows := [], seq := 0, ascending := .nil, bounded := nofun }

def insert (t : Table ρ) (row : ρ) : Table ρ where
  rows := t.rows ++ [(t.seq + 1, row)]
  seq := t.seq + 1
  ascending := List.pairwise_append.mpr ⟨t.ascending, List.pairwise_singleton .., fun a ha b hb => by
    have hBounded := t.bounded a ha
    rw [List.mem_singleton.mp hb]
    exact Int.lt_add_one_of_le hBounded⟩
  bounded r hr := by
    rcases List.mem_append.mp hr with h | h
    · have hBounded := t.bounded r h
      omega
    · exact Int.le_of_eq (congrArg Prod.fst (List.mem_singleton.mp h))

/-- The rows that a `DELETE` leaves. -/
def keep (t : Table ρ) (p : Int × ρ → Bool) : Table ρ where
  rows := t.rows.filter p
  seq := t.seq
  ascending := t.ascending.filter p
  bounded r hr := t.bounded r ((List.mem_filter.mp hr).1)

@[simp] theorem rows_insert (t : Table ρ) (row : ρ) :
    (t.insert row).rows = t.rows ++ [(t.seq + 1, row)] := rfl

@[simp] theorem rows_keep (t : Table ρ) (p : Int × ρ → Bool) : (t.keep p).rows = t.rows.filter p := rfl

theorem seq_fresh (t : Table ρ) {r : Int × ρ} (h : r ∈ t.rows) : r.1 ≠ t.seq + 1 := by
  have hBounded := t.bounded r h
  omega

end Table
