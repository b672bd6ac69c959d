import Mathlib.Data.List.Infix

/-! A queue that drops entries from its front only: those whose time is before the cutoff of an entry
that comes in.  Times and cutoffs come in any order. -/

namespace Expiry

variable {ι : Type} (time cutoff : ι → Int)

def push (queue : List ι) (c : ι) : List ι := (queue ++ [c]).dropWhile fun a => time a < cutoff c

def pushAll (log : List ι) : List ι := log.foldl (push time cutoff) []

/-- The time of an entry has been before the cutoff of itself or of one that has come in since. -/
def Expired (a : ι) (since : List ι) : Prop := ∃ c ∈ a :: since, time a < cutoff c

/-- When an entry has expired, those that came in before it have expired then or earlier. -/
def InOrder (log : List ι) : Prop :=
  ∀ a since c, a :: (since ++ [c]) <:+: log → (∃ b ∈ since ++ [c], time b < cutoff c) →
    Expired time cutoff a (since ++ [c])

variable {time cutoff} {queue log since : List ι} {a c : ι}

theorem pushAll_concat : pushAll time cutoff (log ++ [c]) =
    push time cutoff (pushAll time cutoff log) c := by
  rw [pushAll, List.foldl_append]
  rfl

theorem push_suffix : push time cutoff queue c <:+ queue ++ [c] := List.dropWhile_suffix _

/-- What is kept is the newest part of what has come in. -/
theorem pushAll_suffix (log : List ι) : pushAll time cutoff log <:+ log := by
  induction log using List.reverseRecOn with
  | nil => exact List.suffix_refl _
  | append_singleton log c ih =>
    rw [pushAll_concat]
    exact push_suffix.trans (List.suffix_append_self_iff.mpr ih)

/-! ### What is not dropped -/

theorem cons_suffix_concat : a :: since <:+ log ++ [c] ↔
    a = c ∧ since = [] ∨ ∃ older, since = older ++ [c] ∧ a :: older <:+ log := by
  rw [List.suffix_concat_iff]
  constructor
  · rintro (hNil | ⟨older, hOlder, hSuffix⟩)
    · cases hNil
    · cases older with
      | nil =>
        obtain ⟨rfl, rfl⟩ := List.cons.inj hOlder
        exact .inl ⟨rfl, rfl⟩
      | cons b older =>
        obtain ⟨rfl, rfl⟩ := List.cons.inj hOlder
        exact .inr ⟨older, rfl, hSuffix⟩
  · rintro (⟨rfl, rfl⟩ | ⟨older, rfl, hSuffix⟩)
    · exact .inr ⟨[], rfl, List.nil_suffix⟩
    · exact .inr ⟨a :: older, rfl, hSuffix⟩

theorem suffix_dropWhile {p : ι → Bool} (ha : p a = false) {xs : List ι} (h : a :: since <:+ xs) :
    a :: since <:+ xs.dropWhile p := by
  obtain ⟨front, rfl⟩ := h
  induction front with
  | nil =>
    rw [List.nil_append, List.dropWhile_cons_of_neg (by simp [ha])]
  | cons b front ih =>
    rw [List.cons_append, List.dropWhile_cons]
    split
    · exact ih
    · exact List.suffix_append (b :: front) _

/-- An entry that has not expired is kept, with all that has come in since. -/
theorem kept_of_not_expired (h : a :: since <:+ log) (hFresh : ¬Expired time cutoff a since) :
    a :: since <:+ pushAll time cutoff log := by
  induction log using List.reverseRecOn generalizing since with
  | nil => cases List.suffix_nil.mp h
  | append_singleton log c ih =>
    have hQueue : a :: since <:+ pushAll time cutoff log ++ [c] := by
      rcases cons_suffix_concat.mp h with ⟨rfl, rfl⟩ | ⟨older, rfl, hOlder⟩
      · exact List.suffix_append _ _
      · have hKept : a :: older <:+ pushAll time cutoff log := by
          apply ih hOlder
          rintro ⟨d, hd, hBefore⟩
          exact hFresh ⟨d, List.mem_append_left [c] hd, hBefore⟩
        exact List.suffix_append_self_iff.mpr hKept
    have hLast : c ∈ a :: since := by
      rcases cons_suffix_concat.mp h with ⟨rfl, rfl⟩ | ⟨older, rfl, -⟩
      · exact List.mem_singleton_self a
      · simp
    have hTime : ¬time a < cutoff c := fun hBefore => hFresh ⟨c, hLast, hBefore⟩
    rw [pushAll_concat]
    exact suffix_dropWhile (by simpa using hTime) hQueue

/-! ### What is dropped -/

/-- What is kept was kept before. -/
theorem kept_before {kept later : List ι} (h : kept ++ later <:+ pushAll time cutoff (log ++ later)) :
    kept <:+ pushAll time cutoff log := by
  induction later using List.reverseRecOn with
  | nil => simpa using h
  | append_singleton later c ih =>
    rw [← List.append_assoc, ← List.append_assoc, pushAll_concat] at h
    exact ih (List.suffix_append_self_iff.mp (h.trans push_suffix))

theorem head_fresh (h : push time cutoff queue c = a :: since) : cutoff c ≤ time a := by
  have hHead := List.head?_dropWhile_not (fun a => decide (time a < cutoff c)) (queue ++ [c])
  rw [← push, h] at hHead
  simpa using hHead

/-- What comes in to a queue in which everything has been fresh. -/
theorem fresh_concat (hFresh : ∀ log' c, log' ++ [c] <+: log →
      ∀ a ∈ pushAll time cutoff (log' ++ [c]), cutoff c ≤ time a)
    (hOrder : InOrder time cutoff (log ++ [c])) {b : ι} (hb : b ∈ pushAll time cutoff (log ++ [c])) :
    cutoff c ≤ time b := by
  have hSuffix : pushAll time cutoff (log ++ [c]) <:+ log ++ [c] := pushAll_suffix _
  cases hQueue : pushAll time cutoff (log ++ [c]) with
  | nil =>
    rw [hQueue] at hb
    cases hb
  | cons a since =>
    have hHead : cutoff c ≤ time a := head_fresh (pushAll_concat.symm.trans hQueue)
    rw [hQueue] at hb hSuffix
    rcases List.mem_cons.mp hb with rfl | hb
    · exact hHead
    rcases cons_suffix_concat.mp hSuffix with ⟨-, rfl⟩ | ⟨older, rfl, hOlder⟩
    · cases hb
    by_contra hStale
    -- The entry in front has expired too, so that it was not kept at that time.
    obtain ⟨d, hd, hBefore⟩ := hOrder a older c hSuffix.isInfix ⟨b, hb, by omega⟩
    have hEarlier : d ∈ a :: older := by
      rcases List.mem_append.mp (List.cons_append ▸ hd) with hd | hd
      · exact hd
      · cases List.mem_singleton.mp hd
        omega
    obtain ⟨mid, newer, hSplit⟩ := List.append_of_mem hEarlier
    obtain ⟨front, rfl⟩ := hOlder
    have hSince : mid ++ [d] ++ (newer ++ [c]) = a :: (older ++ [c]) := by
      rw [← List.cons_append, hSplit]
      simp
    have hNow : mid ++ [d] ++ (newer ++ [c]) <:+
        pushAll time cutoff (front ++ mid ++ [d] ++ (newer ++ [c])) := by
      have hLog : front ++ mid ++ [d] ++ (newer ++ [c]) = front ++ a :: older ++ [c] := by
        simp [hSplit]
      rw [hLog, hSince, hQueue]
    have hKept := kept_before hNow
    have hFront : a ∈ mid ++ [d] := by
      cases mid with
      | nil => exact List.mem_singleton.mpr (List.cons.inj hSplit).1
      | cons b mid => exact List.mem_cons.mpr (.inl (List.cons.inj hSplit).1)
    have hLow := hFresh (front ++ mid) d ⟨newer, by simp [hSplit]⟩ a (hKept.subset hFront)
    omega

/-- Nothing that has expired is ever kept if and only if the entries expire in order. -/
theorem fresh_iff_inOrder : (∀ log' c, log' ++ [c] <+: log →
      ∀ a ∈ pushAll time cutoff (log' ++ [c]), cutoff c ≤ time a) ↔ InOrder time cutoff log := by
  constructor
  · rintro hFresh a since c ⟨older, newer, rfl⟩ ⟨b, hb, hBefore⟩
    by_contra hKept
    have hSuffix : a :: (since ++ [c]) <:+ older ++ a :: since ++ [c] := ⟨older, by simp⟩
    have hFound := (kept_of_not_expired hSuffix hKept).subset (List.mem_cons_of_mem _ hb)
    have hLow := hFresh (older ++ a :: since) c ⟨newer, by simp⟩ b hFound
    omega
  · intro hOrder
    induction log using List.reverseRecOn with
    | nil => exact fun log' c h => absurd (List.prefix_nil.mp h) (by simp)
    | append_singleton log d ih =>
      have hFresh := ih fun a since c h => hOrder a since c (h.trans (List.prefix_append _ _).isInfix)
      intro log' c hPrefix
      rcases List.prefix_concat_iff.mp hPrefix with hSame | hPrefix
      · obtain ⟨rfl, hLast⟩ := List.append_inj' hSame rfl
        cases hLast
        exact fun b hb => fresh_concat hFresh hOrder hb
      · exact hFresh log' c hPrefix

/-- Entries in the order of their times expire in order. -/
theorem InOrder.of_sorted (h : log.Pairwise fun a b => time a ≤ time b) : InOrder time cutoff log := by
  rintro a since c hInfix ⟨b, hb, hBefore⟩
  have hTimes := List.rel_of_pairwise_cons (h.sublist hInfix.sublist) hb
  exact ⟨c, by simp, by omega⟩

end Expiry
