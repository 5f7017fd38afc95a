/-
Lists that are put together out of shares. `Shares R xs es`: for each element of
`xs` there is a list that `R` allows for it, and `es` is all of these together in
some order. The order of the elements does not matter either, and shares of two
lists go together.
-/
import Mathlib.Data.List.Basic

namespace ChainIndex

variable {α ε : Type} {R R' : α → List ε → Prop} {xs ys : List α} {es fs gs : List ε}

/-- `es` is in some order what `R` gives for each element. -/
inductive Shares (R : α → List ε → Prop) : List α → List ε → Prop
  | nil : Shares R [] []
  | cons {x xs es fs gs} (head : R x es) (tail : Shares R xs fs) (all : gs.Perm (es ++ fs)) :
    Shares R (x :: xs) gs

namespace Shares

theorem of_perm (h : Shares R xs es) (order : fs.Perm es) : Shares R xs fs := by
  cases h with
  | nil =>
    rw [order.eq_nil]
    exact .nil
  | cons head tail all => exact .cons head tail (order.trans all)

theorem append (hx : Shares R xs es) (hy : Shares R ys fs) (all : gs.Perm (es ++ fs)) :
    Shares R (xs ++ ys) gs := by
  induction hx generalizing gs with
  | nil => exact hy.of_perm all
  | cons head tail first ih =>
    refine .cons head (ih (List.Perm.refl _)) ?_
    rw [← List.append_assoc]
    exact all.trans (first.append_right fs)

theorem of_append (h : Shares R (xs ++ ys) gs) :
    ∃ es fs, Shares R xs es ∧ Shares R ys fs ∧ gs.Perm (es ++ fs) := by
  induction xs generalizing gs with
  | nil => exact ⟨[], gs, .nil, h, List.Perm.refl _⟩
  | cons x xs ih =>
    cases h with
    | cons head tail all =>
      obtain ⟨es, fs, hx, hy, rest⟩ := ih tail
      refine ⟨_, fs, .cons head hx (List.Perm.refl _), hy, ?_⟩
      rw [List.append_assoc]
      exact all.trans (rest.append_left _)

theorem reorder (h : Shares R xs es) (order : xs.Perm ys) : Shares R ys es := by
  induction order generalizing es with
  | nil => exact h
  | cons x _ ih =>
    cases h with
    | cons head tail all => exact .cons head (ih tail) all
  | swap x y xs =>
    cases h with
    | cons first rest all =>
      cases rest with
      | cons second tail all' =>
        refine .cons second (.cons first tail (List.Perm.refl _)) ?_
        refine all.trans ((all'.append_left _).trans ?_)
        rw [← List.append_assoc, ← List.append_assoc]
        exact List.perm_append_comm.append_right _
  | trans _ _ ih ih' => exact ih' (ih h)

theorem mono (h : Shares R xs es) (imp : ∀ x ∈ xs, ∀ es, R x es → R' x es) : Shares R' xs es := by
  induction h with
  | nil => exact .nil
  | cons head tail all ih =>
    exact .cons (imp _ List.mem_cons_self _ head)
      (ih fun x hx => imp x (List.mem_cons_of_mem _ hx)) all

theorem singleton {x : α} (h : R x es) : Shares R [x] es :=
  .cons h .nil (by rw [List.append_nil])

theorem of_singleton {x : α} (h : Shares R [x] gs) : ∃ es, R x es ∧ gs.Perm es := by
  cases h with
  | cons head tail all =>
    cases tail
    exact ⟨_, head, by rwa [List.append_nil] at all⟩

theorem map {β : Type} {f : β → α} {xs : List β} :
    Shares R (xs.map f) es ↔ Shares (fun x => R (f x)) xs es := by
  constructor
  · intro h
    induction xs generalizing es with
    | nil =>
      cases h
      exact .nil
    | cons x xs ih =>
      cases h with
      | cons head tail all => exact .cons head (ih tail) all
  · intro h
    induction h with
    | nil => exact .nil
    | cons head _ all ih => exact .cons head ih all

/-- The share of an element is among all of them. -/
theorem share_of_mem (h : Shares R xs es) {x : α} (hx : x ∈ xs) : ∃ part, R x part ∧ part ⊆ es := by
  induction h with
  | nil => exact absurd hx List.not_mem_nil
  | cons head tail all ih =>
    rcases List.mem_cons.mp hx with rfl | hx
    · exact ⟨_, head, fun e he => all.mem_iff.mpr (List.mem_append_left _ he)⟩
    · obtain ⟨part, hpart, sub⟩ := ih hx
      exact ⟨part, hpart, fun e he => all.mem_iff.mpr (List.mem_append_right _ (sub he))⟩

/-- Everything is in the share of some element. -/
theorem exists_share (h : Shares R xs es) {e : ε} (he : e ∈ es) :
    ∃ x ∈ xs, ∃ part, R x part ∧ e ∈ part := by
  induction h with
  | nil => exact absurd he List.not_mem_nil
  | cons head tail all ih =>
    rcases List.mem_append.mp (all.mem_iff.mp he) with he | he
    · exact ⟨_, List.mem_cons_self, _, head, he⟩
    · obtain ⟨x, hx, part, hpart, mem⟩ := ih he
      exact ⟨x, List.mem_cons_of_mem _ hx, part, hpart, mem⟩

/-- If the shares of each element are the same up to their order, then so is
everything together. -/
theorem perm_of_unique (h : Shares R xs es) (h' : Shares R xs fs)
    (unique : ∀ x ∈ xs, ∀ es fs, R x es → R x fs → es.Perm fs) : es.Perm fs := by
  induction h generalizing fs with
  | nil =>
    cases h'
    exact List.Perm.refl _
  | cons head tail all ih =>
    cases h' with
    | cons head' tail' all' =>
      have first := unique _ List.mem_cons_self _ _ head head'
      have rest := ih tail' fun x hx => unique x (List.mem_cons_of_mem _ hx)
      exact all.trans ((first.append rest).trans all'.symm)

end Shares

end ChainIndex
