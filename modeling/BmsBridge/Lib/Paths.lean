import Mathlib.Data.List.Basic

/-! Absolute paths as names behind separators, and when the text of one is a prefix of another's. -/

namespace Paths

variable {α : Type} (sep : α)

/-- Every name behind a separator. -/
def spell (names : List (List α)) : List α := names.flatMap fun name => sep :: name

/-- The root is a separator alone. -/
def text (names : List (List α)) : List α := if names = [] then [sep] else spell sep names

/-- A name that a separator can stand before and behind. -/
def Proper (name : List α) : Prop := name ≠ [] ∧ sep ∉ name

/-- What begins at the last `a`. -/
def fromLast [DecidableEq α] (a : α) : List α → Option (List α)
  | [] => none
  | x :: xs => (fromLast a xs).or (if x = a then some (x :: xs) else none)

variable {sep}

@[simp] theorem spell_cons (name : List α) (names : List (List α)) :
    spell sep (name :: names) = sep :: (name ++ spell sep names) := List.flatMap_cons

@[simp] theorem spell_append (xs ys : List (List α)) :
    spell sep (xs ++ ys) = spell sep xs ++ spell sep ys := List.flatMap_append

theorem fromLast_append [DecidableEq α] (a : α) (xs ys : List α) :
    fromLast a (xs ++ ys) = (fromLast a ys).or ((fromLast a xs).map (· ++ ys)) := by
  induction xs with
  | nil => simp [fromLast]
  | cons x xs ih =>
    rw [List.cons_append, fromLast, fromLast, ih, Option.or_assoc]
    congr 1
    cases fromLast a xs with
    | some found => rfl
    | none => split <;> rfl

theorem fromLast_cons_ne [DecidableEq α] {a x : α} (h : x ≠ a) (xs : List α) :
    fromLast a (x :: xs) = fromLast a xs := by
  rw [fromLast, if_neg h, Option.or_none]

/-- Up to the next separator two names are the same. -/
theorem name_eq {a b more tail : List α} (ha : sep ∉ a) (hb : sep ∉ b)
    (hTail : tail = [] ∨ ∃ rest, tail = sep :: rest) (h : a ++ sep :: more <+: b ++ tail) :
    a = b ∧ sep :: more <+: tail := by
  induction a generalizing b with
  | nil =>
    cases b with
    | nil => exact ⟨rfl, h⟩
    | cons y b =>
      have hHead := (List.cons_prefix_cons.mp h).1
      exact absurd (hHead ▸ List.mem_cons_self) hb
  | cons x a ih =>
    cases b with
    | nil =>
      rcases hTail with rfl | ⟨rest, rfl⟩
      · cases List.prefix_nil.mp h
      · have hHead := (List.cons_prefix_cons.mp h).1
        exact absurd (hHead ▸ List.mem_cons_self) ha
    | cons y b =>
      obtain ⟨rfl, hRest⟩ := List.cons_prefix_cons.mp h
      obtain ⟨rfl, hMore⟩ := ih (fun hMem => ha (List.mem_cons_of_mem _ hMem))
        (fun hMem => hb (List.mem_cons_of_mem _ hMem)) hRest
      exact ⟨rfl, hMore⟩

variable (sep) in
theorem spell_tail (names : List (List α)) :
    spell sep names = [] ∨ ∃ rest, spell sep names = sep :: rest := by
  cases names with
  | nil => exact .inl rfl
  | cons name names => exact .inr ⟨_, spell_cons name names⟩

theorem spell_prefix {root file : List (List α)} (hRoot : ∀ name ∈ root, Proper sep name)
    (hFile : ∀ name ∈ file, Proper sep name) (h : spell sep root ++ [sep] <+: spell sep file) :
    ∃ rest, rest ≠ [] ∧ file = root ++ rest := by
  induction root generalizing file with
  | nil =>
    refine ⟨file, ?_, rfl⟩
    rintro rfl
    cases List.prefix_nil.mp h
  | cons name root ih =>
    cases file with
    | nil => cases List.prefix_nil.mp h
    | cons first file =>
      obtain ⟨⟨-, hName⟩, hRootRest⟩ := List.forall_mem_cons.mp hRoot
      obtain ⟨⟨-, hFirst⟩, hFileRest⟩ := List.forall_mem_cons.mp hFile
      rw [spell_cons, spell_cons, List.cons_append, List.append_assoc] at h
      have hBehind := (List.cons_prefix_cons.mp h).2
      obtain ⟨more, hMore⟩ : ∃ more, spell sep root ++ [sep] = sep :: more := by
        rcases spell_tail sep root with hNil | ⟨rest, hRest⟩
        · exact ⟨[], by rw [hNil, List.nil_append]⟩
        · exact ⟨rest ++ [sep], by rw [hRest, List.cons_append]⟩
      rw [hMore] at hBehind
      obtain ⟨rfl, hTail⟩ := name_eq hName hFirst (spell_tail sep file) hBehind
      rw [← hMore] at hTail
      obtain ⟨rest, hSome, rfl⟩ := ih hRootRest hFileRest hTail
      exact ⟨rest, hSome, rfl⟩

/-- With a separator behind it the text of a path is a prefix exactly of the texts below the path.
Nothing is below the root in this sense, whose text ends in a separator already. -/
theorem text_prefix_iff {root file : List (List α)} (hRoot : ∀ name ∈ root, Proper sep name)
    (hFile : ∀ name ∈ file, Proper sep name) : text sep root ++ [sep] <+: text sep file ↔
      root ≠ [] ∧ ∃ rest, rest ≠ [] ∧ file = root ++ rest := by
  by_cases hEmpty : root = []
  · refine iff_of_false (fun h => ?_) (fun h => h.1 hEmpty)
    rw [text, if_pos hEmpty] at h
    cases file with
    | nil =>
      rw [text, if_pos rfl] at h
      exact absurd h.length_le (by simp)
    | cons first file =>
      obtain ⟨⟨hSome, hFirst⟩, -⟩ := List.forall_mem_cons.mp hFile
      rw [text, if_neg (List.cons_ne_nil _ _), spell_cons] at h
      cases first with
      | nil => exact hSome rfl
      | cons x first =>
        have hHead := (List.cons_prefix_cons.mp (List.cons_prefix_cons.mp h).2).1
        exact hFirst (hHead ▸ List.mem_cons_self)
  rw [text, if_neg hEmpty]
  constructor
  · intro h
    refine ⟨hEmpty, ?_⟩
    by_cases hNone : file = []
    · rw [text, if_pos hNone] at h
      rcases spell_tail sep root with hNil | ⟨rest, hRest⟩
      · cases root with
        | nil => exact absurd rfl hEmpty
        | cons name root => cases hNil
      · rw [hRest] at h
        exact absurd h.length_le (by simp)
    · rw [text, if_neg hNone] at h
      exact spell_prefix hRoot hFile h
  · rintro ⟨-, rest, hSome, rfl⟩
    rw [text, if_neg (by simp [hEmpty]), spell_append]
    refine (List.prefix_append_right_inj _).mpr ?_
    cases rest with
    | nil => exact absurd rfl hSome
    | cons name rest =>
      rw [spell_cons]
      exact List.cons_prefix_cons.mpr ⟨rfl, List.nil_prefix⟩

end Paths
