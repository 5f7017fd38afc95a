/-
Steps that may fail, one after another. A step that goes well is followed by the
next, and a whole that goes well is put together out of steps that did. The first
step that fails is the end of it.
-/
import ChainIndex.Task
import Mathlib.Data.List.Forall2

namespace ChainIndex

theorem bind_eq_ok_iff {ε α β : Type} {x : Except ε α} {f : α → Except ε β} {b : β} :
    (x >>= f) = .ok b ↔ ∃ a, x = .ok a ∧ f a = .ok b := by
  constructor
  · intro h
    cases x with
    | error e => cases h
    | ok a => exact ⟨a, rfl, h⟩
  · rintro ⟨a, rfl, h⟩
    exact h

theorem bind_eq_ok {ε α β : Type} {x : Except ε α} {f : α → Except ε β} {b : β}
    (h : (x >>= f) = .ok b) : ∃ a, x = .ok a ∧ f a = .ok b :=
  bind_eq_ok_iff.mp h

theorem mapError_bind_of_ok {ε ε' α β : Type} {x : Except ε α} {a : α} (h : x = .ok a)
    {wrap : ε → ε'} {f : α → Except ε' β} : (x.mapError wrap >>= f) = f a := by
  subst h
  rfl

theorem mapError_bind_of_error {ε ε' α β : Type} {x : Except ε α} {e : ε} (h : x = .error e)
    {wrap : ε → ε'} {f : α → Except ε' β} : (x.mapError wrap >>= f) = .error (wrap e) := by
  subst h
  rfl

theorem mapError_eq_ok_iff {ε ε' α : Type} {wrap : ε → ε'} {x : Except ε α} {a : α} :
    x.mapError wrap = .ok a ↔ x = .ok a := by
  cases x <;> simp [Except.mapError]

theorem mapError_eq_ok {ε ε' α : Type} {wrap : ε → ε'} {x : Except ε α} {a : α}
    (h : x.mapError wrap = .ok a) : x = .ok a :=
  mapError_eq_ok_iff.mp h

theorem mapError_id {ε α : Type} (result : Except ε α) : result.mapError id = result := by
  cases result <;> rfl

theorem toOption_eq_some_iff {ε α : Type} {x : Except ε α} {a : α} :
    x.toOption = some a ↔ x = .ok a := by
  cases x <;> simp [Except.toOption]

theorem toOption_eq_none_iff {ε α : Type} {x : Except ε α} :
    x.toOption = none ↔ ∃ e, x = .error e := by
  cases x <;> simp [Except.toOption]

/-- Steps that all go well go well together. -/
theorem mapM_map_eq_pure {m : Type → Type} [Monad m] [LawfulMonad m] {α β γ : Type}
    {f : β → m γ} {g : α → β} {h : α → γ} {xs : List α} (each : ∀ x ∈ xs, f (g x) = pure (h x)) :
    (xs.map g).mapM f = pure (xs.map h) := by
  induction xs with
  | nil => simp
  | cons x xs ih =>
    have head := each x List.mem_cons_self
    have tail := ih fun y hy => each y (List.mem_cons_of_mem x hy)
    simp [List.mapM_cons, head, tail]

/-! ## The steps of a list -/

section

variable {ε α β : Type} {f : α → Except ε β} {xs : List α}

/-- A traversal goes well exactly if every step does. -/
theorem mapM_eq_ok_iff {ys : List β} :
    xs.mapM f = .ok ys ↔ List.Forall₂ (fun x y => f x = .ok y) xs ys := by
  induction xs generalizing ys with
  | nil =>
    rw [List.forall₂_nil_left_iff]
    constructor
    · intro h
      cases h
      rfl
    · rintro rfl
      rfl
  | cons x xs ih =>
    rw [List.mapM_cons, List.forall₂_cons_left_iff]
    constructor
    · intro h
      obtain ⟨y, head, h⟩ := bind_eq_ok h
      obtain ⟨rest, tail, h⟩ := bind_eq_ok h
      cases h
      exact ⟨y, rest, head, ih.mp tail, rfl⟩
    · rintro ⟨y, rest, head, tail, rfl⟩
      rw [head, ih.mpr tail]
      rfl

/-- Steps that undo a translation undo it for a whole list. -/
theorem mapM_eq_ok_iff_eq_map {g : β → α} (undoes : ∀ x y, f x = .ok y ↔ x = g y) {ys : List β} :
    xs.mapM f = .ok ys ↔ xs = ys.map g := by
  rw [mapM_eq_ok_iff]
  simp only [undoes]
  rw [← List.forall₂_map_right_iff, List.forall₂_eq_eq_eq]

/-- What a traversal gives, one of its steps has given. -/
theorem exists_of_mem_mapM {ys : List β} (whole : xs.mapM f = .ok ys) {y : β} (mem : y ∈ ys) :
    ∃ x ∈ xs, f x = .ok y := by
  have each := mapM_eq_ok_iff.mp whole
  obtain ⟨i, short, rfl⟩ := List.getElem_of_mem mem
  have inside : i < xs.length := each.length_eq ▸ short
  exact ⟨xs[i], List.getElem_mem inside, each.get inside short⟩

/-- A traversal fails exactly with its first step that does. -/
theorem mapM_eq_error_iff {e : ε} :
    xs.mapM f = .error e ↔ ∃ before x after, xs = before ++ x :: after ∧
      (∀ y ∈ before, ∃ b, f y = .ok b) ∧ f x = .error e := by
  induction xs with
  | nil =>
    refine iff_of_false (fun h => ?_) ?_
    · cases h
    · rintro ⟨before, x, after, split, -⟩
      cases before <;> cases split
  | cons x xs ih =>
    rw [List.mapM_cons]
    cases head : f x with
    | error e' =>
      constructor
      · intro h
        cases h
        exact ⟨[], x, xs, rfl, fun _ h => absurd h List.not_mem_nil, head⟩
      · rintro ⟨before, y, after, split, goes, fails⟩
        cases before with
        | nil =>
          cases split
          cases head.symm.trans fails
          rfl
        | cons z before =>
          cases split
          obtain ⟨b, well⟩ := goes x List.mem_cons_self
          cases head.symm.trans well
    | ok b =>
      have rest : (.ok b >>= fun b => do return b :: (← xs.mapM f)) = .error e ↔
          xs.mapM f = .error e := by
        cases xs.mapM f <;> simp [bind, Except.bind, pure, Except.pure]
      rw [rest, ih]
      constructor
      · rintro ⟨before, y, after, rfl, goes, fails⟩
        exact ⟨x :: before, y, after, rfl, List.forall_mem_cons.mpr ⟨⟨b, head⟩, goes⟩, fails⟩
      · rintro ⟨before, y, after, split, goes, fails⟩
        cases before with
        | nil =>
          cases split
          cases head.symm.trans fails
        | cons z before =>
          cases split
          exact ⟨before, y, after, rfl, (List.forall_mem_cons.mp goes).2, fails⟩

/-- A traversal of which each step gives back what it takes, or fails for one reason. -/
theorem mapM_self_or_error {check : α → Except ε α} {e : ε}
    (each : ∀ x ∈ xs, check x = .error e ∨ check x = .ok x) :
    xs.mapM check = .error e ∨ xs.mapM check = .ok xs := by
  induction xs with
  | nil => exact .inr rfl
  | cons x xs ih =>
    obtain ⟨here, others⟩ := List.forall_mem_cons.mp each
    rw [List.mapM_cons]
    rcases here with here | here
    · rw [here]
      exact .inl rfl
    · rw [here]
      rcases ih others with rest | rest
      · rw [rest]
        exact .inl rfl
      · rw [rest]
        exact .inr rfl

/-- A traversal comes to some values exactly if every step does to one. -/
theorem exists_mapM_eq_ok_iff : (∃ ys, xs.mapM f = .ok ys) ↔ ∀ x ∈ xs, ∃ y, f x = .ok y := by
  constructor
  · rintro ⟨ys, whole⟩ x mem
    obtain ⟨i, short, rfl⟩ := List.getElem_of_mem mem
    have each := mapM_eq_ok_iff.mp whole
    exact ⟨_, each.get short (each.length_eq ▸ short)⟩
  · intro each
    cases whole : xs.mapM f with
    | ok ys => exact ⟨ys, rfl⟩
    | error e =>
      obtain ⟨before, x, after, rfl, -, fails⟩ := mapM_eq_error_iff.mp whole
      obtain ⟨y, goes⟩ := each x (by simp)
      cases fails.symm.trans goes

end

namespace Call

variable {σ ε α β : Type} {call : Call σ ε α} {f : α → Call σ ε β} {s s' : σ}

theorem run_get : (get : Call σ ε σ).run.run s = (.ok s, s) := rfl

theorem run_modify (g : σ → σ) : (modify g : Call σ ε PUnit).run.run s = (.ok ⟨⟩, g s) := rfl

theorem run_bind_ok {a : α} (h : call.run.run s = (.ok a, s')) :
    (call >>= f).run.run s = (f a).run.run s' := by
  rw [ExceptT.run_bind, StateT.run_bind, h]
  rfl

theorem run_bind_error {e : ε} (h : call.run.run s = (.error e, s')) :
    (call >>= f).run.run s = (.error e, s') := by
  rw [ExceptT.run_bind, StateT.run_bind, h]
  rfl

/-- What goes on after a call depends on what comes of the call. -/
theorem run_bind_congr {other : Call σ ε α} (h : call.run.run s = other.run.run s)
    (f : α → Call σ ε β) : (call >>= f).run.run s = (other >>= f).run.run s := by
  rw [ExceptT.run_bind, ExceptT.run_bind, StateT.run_bind, StateT.run_bind, h]

/-- What goes well in two parts goes well in the first and then in the second. -/
theorem run_bind_eq_ok {b : β} {s'' : σ} (h : (call >>= f).run.run s = (.ok b, s'')) :
    ∃ a s', call.run.run s = (.ok a, s') ∧ (f a).run.run s' = (.ok b, s'') := by
  cases result : (call.run.run s).1 with
  | error e =>
    have ran : call.run.run s = (.error e, (call.run.run s).2) := Prod.ext result rfl
    rw [run_bind_error ran] at h
    cases h
  | ok a =>
    have ran : call.run.run s = (.ok a, (call.run.run s).2) := Prod.ext result rfl
    rw [run_bind_ok ran] at h
    exact ⟨a, _, ran, h⟩

theorem run_map_ok {a : α} (h : call.run.run s = (.ok a, s')) (g : α → β) :
    (g <$> call).run.run s = (.ok (g a), s') := by
  rw [map_eq_pure_bind, run_bind_ok h]
  rfl

/-- Other errors change nothing of what goes well. -/
theorem run_mapError_eq_ok {ε' : Type} {wrap : ε → ε'} {a : α} :
    (ExceptT.mk (Except.mapError wrap <$> call.run) : Call σ ε' α).run.run s = (.ok a, s') ↔
      call.run.run s = (.ok a, s') := by
  have ran : (ExceptT.mk (Except.mapError wrap <$> call.run) : Call σ ε' α).run.run s =
      ((call.run.run s).1.mapError wrap, (call.run.run s).2) := rfl
  rw [ran]
  obtain ⟨result, after⟩ := call.run.run s
  cases result with
  | error e => constructor <;> (intro h; cases h)
  | ok b => constructor <;> (intro h; cases h; rfl)

theorem run_mapError_of_error {ε' : Type} {wrap : ε → ε'} {e : ε}
    (h : call.run.run s = (.error e, s')) :
    (ExceptT.mk (Except.mapError wrap <$> call.run) : Call σ ε' α).run.run s =
      (.error (wrap e), s') := by
  have ran : (ExceptT.mk (Except.mapError wrap <$> call.run) : Call σ ε' α).run.run s =
      ((call.run.run s).1.mapError wrap, (call.run.run s).2) := rfl
  rw [ran, h]
  rfl

end Call

end ChainIndex
