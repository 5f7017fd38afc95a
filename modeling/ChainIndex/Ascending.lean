/-
Sorted lists. `ascending` sorts a list and leaves each element in it once.
-/

namespace ChainIndex

variable {α : Type} [LE α] [DecidableLE α] [DecidableEq α]

/-- Drops an element that stands right before an equal one. -/
def dropRepeats (xs : List α) : List α :=
  xs.foldr (fun x kept => if kept.head? = some x then kept else x :: kept) []

/-- The elements in ascending order, each once. -/
def ascending (xs : List α) : List α :=
  dropRepeats (xs.mergeSort fun x y => decide (x ≤ y))

omit [LE α] [DecidableLE α] in
theorem mem_dropRepeats {x : α} {xs : List α} : x ∈ dropRepeats xs ↔ x ∈ xs := by
  induction xs with
  | nil => simp [dropRepeats]
  | cons y ys ih =>
    have step : dropRepeats (y :: ys) =
        if (dropRepeats ys).head? = some y then dropRepeats ys else y :: dropRepeats ys := rfl
    rw [step]
    split
    · next h =>
      rw [ih, List.mem_cons]
      constructor
      · exact Or.inr
      · rintro (rfl | h')
        · exact ih.mp (List.mem_of_head? h)
        · exact h'
    · rw [List.mem_cons, List.mem_cons, ih]

theorem mem_ascending {x : α} {xs : List α} : x ∈ ascending xs ↔ x ∈ xs := by
  rw [ascending, mem_dropRepeats, List.mem_mergeSort]

variable [LT α] [Std.IsLinearOrder α] [Std.LawfulOrderLT α]

omit [DecidableLE α] in
theorem pairwise_dropRepeats {xs : List α} (sorted : xs.Pairwise (· ≤ ·)) :
    (dropRepeats xs).Pairwise (· < ·) := by
  induction xs with
  | nil => exact .nil
  | cons y ys ih =>
    obtain ⟨least, sorted⟩ := List.pairwise_cons.mp sorted
    have step : dropRepeats (y :: ys) =
        if (dropRepeats ys).head? = some y then dropRepeats ys else y :: dropRepeats ys := rfl
    rw [step]
    split
    · exact ih sorted
    · next first =>
      refine List.pairwise_cons.mpr ⟨fun x hx => ?_, ih sorted⟩
      have le : y ≤ x := least x (mem_dropRepeats.mp hx)
      -- An element equal to `y` would stand first.
      cases kept : dropRepeats ys with
      | nil =>
        rw [kept] at hx
        cases hx
      | cons z zs =>
        have smaller : y ≤ z := least z (mem_dropRepeats.mp (kept ▸ List.mem_cons_self))
        have other : y ≠ z := fun same => first (by rw [kept, same]; rfl)
        have before : y < z := Std.lt_of_le_of_ne smaller other
        have order := ih sorted
        rw [kept] at hx order
        rcases List.mem_cons.mp hx with rfl | hx
        · exact before
        · exact Std.lt_trans before ((List.pairwise_cons.mp order).1 x hx)

theorem pairwise_ascending (xs : List α) : (ascending xs).Pairwise (· < ·) := by
  refine pairwise_dropRepeats ?_
  have sorted : (xs.mergeSort fun x y => decide (x ≤ y)).Pairwise fun x y => decide (x ≤ y) = true := by
    refine List.pairwise_mergeSort (fun x y z xy yz => ?_) (fun x y => ?_) xs
    · exact decide_eq_true (Std.le_trans (of_decide_eq_true xy) (of_decide_eq_true yz))
    · rw [Bool.or_eq_true, decide_eq_true_eq, decide_eq_true_eq]
      exact Std.le_total
  exact sorted.imp fun h => of_decide_eq_true h

end ChainIndex
