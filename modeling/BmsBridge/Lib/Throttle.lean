import Mathlib.Order.Basic

/-! What gets through a throttle: of the entries that come in, the first one an interval after a given
time, and then each that comes an interval or more after the last one that got through. -/

namespace Throttle

variable {ι : Type} (time : ι → Int) (interval : Int)

def passed (last : Int) : List ι → List ι
  | [] => []
  | x :: xs => if interval ≤ time x - last then x :: passed (time x) xs else passed last xs

/-- The time of the last entry that got through. -/
def lastTime (last : Int) (xs : List ι) : Int := ((passed time interval last xs).getLast?.map time).getD last

/-- Each entry is an interval or more behind the one before it. -/
def Spaced (last : Int) : List ι → Prop
  | [] => True
  | x :: xs => interval ≤ time x - last ∧ Spaced (time x) xs

/-- The entries come in order of their times, none before a given one. -/
def Ordered (last : Int) : List ι → Prop
  | [] => True
  | x :: xs => last ≤ time x ∧ Ordered (time x) xs

variable {time interval} {last : Int} {x y : ι} {xs ys zs : List ι}

/-! ### One more entry -/

theorem lastTime_cons_pass (h : interval ≤ time x - last) :
    lastTime time interval last (x :: xs) = lastTime time interval (time x) xs := by
  rw [lastTime, passed, if_pos h, List.getLast?_cons, lastTime]
  cases (passed time interval (time x) xs).getLast? <;> rfl

theorem lastTime_cons_drop (h : ¬interval ≤ time x - last) :
    lastTime time interval last (x :: xs) = lastTime time interval last xs := by
  rw [lastTime, passed, if_neg h, lastTime]

theorem passed_append : passed time interval last (xs ++ ys) =
    passed time interval last xs ++ passed time interval (lastTime time interval last xs) ys := by
  induction xs generalizing last with
  | nil => rfl
  | cons x xs ih =>
    rw [List.cons_append, passed, passed]
    split
    · rename_i hPass
      rw [ih, lastTime_cons_pass hPass]
      rfl
    · rename_i hDrop
      rw [ih, lastTime_cons_drop hDrop]

theorem lastTime_singleton : lastTime time interval last [x] =
    if interval ≤ time x - last then time x else last := by
  rw [lastTime, passed]
  split <;> rfl

theorem lastTime_append : lastTime time interval last (xs ++ ys) =
    lastTime time interval (lastTime time interval last xs) ys := by
  induction xs generalizing last with
  | nil => rfl
  | cons x xs ih =>
    by_cases hPass : interval ≤ time x - last
    · rw [List.cons_append, lastTime_cons_pass hPass, lastTime_cons_pass hPass, ih]
    · rw [List.cons_append, lastTime_cons_drop hPass, lastTime_cons_drop hPass, ih]

/-! ### What gets through -/

theorem passed_sublist (last : Int) (xs : List ι) : (passed time interval last xs).Sublist xs := by
  induction xs generalizing last with
  | nil => exact .slnil
  | cons x xs ih =>
    rw [passed]
    split
    · exact (ih (time x)).cons_cons x
    · exact (ih last).cons x

theorem passed_spaced (last : Int) (xs : List ι) :
    Spaced time interval last (passed time interval last xs) := by
  induction xs generalizing last with
  | nil => exact trivial
  | cons x xs ih =>
    rw [passed]
    split
    · rename_i hPass
      exact ⟨hPass, ih (time x)⟩
    · exact ih last

theorem Spaced.mem (hSpaced : Spaced time interval last xs) (hInterval : 0 ≤ interval) (hx : x ∈ xs) :
    interval ≤ time x - last := by
  induction xs generalizing last with
  | nil => cases hx
  | cons y ys ih =>
    obtain ⟨hHead, hTail⟩ := hSpaced
    rcases List.mem_cons.mp hx with rfl | hx
    · exact hHead
    · have hLater := ih hTail hx
      omega

theorem Spaced.pairwise (hSpaced : Spaced time interval last xs) (hInterval : 0 ≤ interval) :
    xs.Pairwise fun a b => interval ≤ time b - time a := by
  induction xs generalizing last with
  | nil => exact .nil
  | cons x xs ih => exact .cons (fun y hy => hSpaced.2.mem hInterval hy) (ih hSpaced.2)

theorem Ordered.mem (hOrdered : Ordered time last xs) (hx : x ∈ xs) : last ≤ time x := by
  induction xs generalizing last with
  | nil => cases hx
  | cons y ys ih =>
    obtain ⟨hHead, hTail⟩ := hOrdered
    rcases List.mem_cons.mp hx with rfl | hx
    · exact hHead
    · exact Int.le_trans hHead (ih hTail hx)

/-- An entry that does not get through is less than an interval behind one that has, or behind the
time at first. -/
theorem passed_covers (hOrdered : Ordered time last xs) (hInterval : 0 < interval) (hx : x ∈ xs) :
    ∃ t ∈ last :: (passed time interval last xs).map time, t ≤ time x ∧ time x - t < interval := by
  induction xs generalizing last with
  | nil => cases hx
  | cons y ys ih =>
    obtain ⟨hHead, hTail⟩ := hOrdered
    rw [passed]
    split
    · rcases List.mem_cons.mp hx with rfl | hx
      · exact ⟨time x, by simp, Int.le_refl _, by omega⟩
      · obtain ⟨t, ht, hNear⟩ := ih hTail hx
        exact ⟨t, List.mem_cons_of_mem _ ht, hNear⟩
    · rename_i hDrop
      rcases List.mem_cons.mp hx with rfl | hx
      · exact ⟨last, List.mem_cons_self, hHead, by omega⟩
      · refine ih ?_ hx
        cases ys with
        | nil => exact trivial
        | cons z zs => exact ⟨Int.le_trans hHead hTail.1, hTail.2⟩

theorem Ordered.weaken {earlier : Int} (hOrdered : Ordered time last xs) (hEarlier : earlier ≤ last) :
    Ordered time earlier xs := by
  cases xs with
  | nil => exact trivial
  | cons x xs => exact ⟨Int.le_trans hEarlier hOrdered.1, hOrdered.2⟩

/-- No choice of entries that keeps the interval is longer. -/
theorem length_le_passed {later : Int} (hOrdered : Ordered time last xs) (hLater : last ≤ later)
    (hSub : zs.Sublist xs) (hSpaced : Spaced time interval later zs) :
    zs.length ≤ (passed time interval last xs).length := by
  induction xs generalizing last later zs with
  | nil =>
    rw [List.sublist_nil.mp hSub]
    exact Nat.zero_le _
  | cons x xs ih =>
    obtain ⟨hHead, hTail⟩ := hOrdered
    rw [passed]
    split
    · -- The rest of the choice comes behind `x`, whatever its first entry is.
      cases zs with
      | nil => exact Nat.zero_le _
      | cons z zs =>
        obtain ⟨hFirst, hRest⟩ := hSpaced
        have hSubRest : zs.Sublist xs := hSub.of_cons_cons
        have hz : time x ≤ time z := by
          rcases List.mem_cons.mp (hSub.subset List.mem_cons_self) with rfl | hz
          · exact Int.le_refl _
          · exact hTail.mem hz
        exact Nat.succ_le_succ (ih hTail hz hSubRest hRest)
    · rename_i hDrop
      refine ih (hTail.weaken hHead) hLater ?_ hSpaced
      cases hSub with
      | cons _ hSub => exact hSub
      | cons_cons _ hSub =>
        obtain ⟨hFirst, -⟩ := hSpaced
        omega

end Throttle
