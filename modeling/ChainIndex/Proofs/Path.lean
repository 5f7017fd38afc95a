/-
A run as a path of steps: turns of the workers, the processor and the writer in
any order, pushes of the enqueuer, and its calls on the node, the clock and the
store, which leave the store as it is. What every step preserves, a run preserves.
-/
import ChainIndex.Proofs.Enqueuer
import ChainIndex.Proofs.Turn

namespace ChainIndex

namespace Pipeline

variable {σ : Type}

/-- One step of a run. `quiet` says what the enqueuer's calls do to the world. -/
inductive Step (p : Pipeline σ) (quiet : σ → σ → Prop) : RunState σ → RunState σ → Prop
  | act (a s) : Step p quiet s (p.act a s)
  | push (r) (s : RunState σ) :
    Step p quiet s { s with requests := s.requests.push r, pushed := s.pushed ++ [r] }
  | world {s world} (h : quiet s.world world) : Step p quiet s { s with world }
  | schedule (s) (schedule : List (List Action)) : Step p quiet s { s with schedule }

/-- Any number of steps. -/
abbrev Path (p : Pipeline σ) (quiet : σ → σ → Prop) : RunState σ → RunState σ → Prop :=
  Relation.ReflTransGen (p.Step quiet)

/-- The calls of the enqueuer are quiet. -/
structure Asks (p : Pipeline σ) (quiet : σ → σ → Prop) : Prop where
  client : p.client.Always quiet
  highest : ∀ chainId s, quiet s ((p.store.highest chainId).run.run s).2
  status : ∀ chainId low high s, quiet s ((p.store.status chainId low high).run.run s).2
  heights : ∀ chainId typeUrl low high s,
    quiet s ((p.store.heightsWithMessage chainId typeUrl low high).run.run s).2
  unresolved : ∀ chainId s, quiet s ((p.store.unresolved chainId).run.run s).2

variable {p : Pipeline σ} {quiet : σ → σ → Prop}

/-! ## The others' turns -/

/-- A path on which nothing is pushed. -/
def Drift (p : Pipeline σ) (quiet : σ → σ → Prop) (s s' : RunState σ) : Prop :=
  p.Path quiet s s' ∧ s'.pushed = s.pushed

theorem Drift.refl (s : RunState σ) : p.Drift quiet s s := ⟨.refl, rfl⟩

theorem Drift.trans {s s' s'' : RunState σ} (h : p.Drift quiet s s') (h' : p.Drift quiet s' s'') :
    p.Drift quiet s s'' :=
  ⟨h.1.trans h'.1, h'.2.trans h.2⟩

theorem drift_act (a : Action) (s : RunState σ) : p.Drift quiet s (p.act a s) :=
  ⟨.single (.act a s), (act_frame a s).1⟩

theorem drift_actAll (actions : List Action) (s : RunState σ) :
    p.Drift quiet s (p.actAll actions s) := by
  induction actions generalizing s with
  | nil => exact .refl s
  | cons a actions ih => exact (drift_act a s).trans (ih (p.act a s))

theorem drift_settleIn (turns : Nat) (s : RunState σ) : p.Drift quiet s (p.settleIn turns s) := by
  induction turns generalizing s with
  | zero => exact .refl s
  | succ turns ih =>
    unfold settleIn
    split
    · next a _ =>
      split
      · exact .refl s
      · exact (drift_act a s).trans (ih (p.act a s))
    · exact .refl s

theorem drift_schedule (s : RunState σ) (schedule : List (List Action)) :
    p.Drift quiet s { s with schedule } :=
  ⟨.single (.schedule s schedule), rfl⟩

theorem drift_before (s : RunState σ) : p.Drift quiet s (p.before s) := by
  unfold before
  split
  · next turns schedule _ => exact (drift_schedule s schedule).trans (drift_actAll turns _)
  · exact .refl s

theorem drift_meanwhile (s : RunState σ) : p.Drift quiet s (p.meanwhile s) := by
  unfold meanwhile
  split
  · exact drift_settleIn _ s
  · exact .refl s

theorem drift_finish (s : RunState σ) : p.Drift quiet s (p.finish s) := by
  have rest : p.Drift quiet s (p.actAll s.schedule.flatten { s with schedule := [] }) :=
    (drift_schedule s []).trans (drift_actAll _ _)
  exact rest.trans ((drift_settleIn _ _).trans ((drift_act .tick _).trans (drift_settleIn _ _)))

/-! ## The enqueuer's calls -/

theorem drift_world {s : RunState σ} {world : σ} (h : quiet s.world world) :
    p.Drift quiet s { s with world } :=
  ⟨.single (.world h), rfl⟩

theorem path_offer (r : Request) (s : RunState σ) : p.Path quiet s (offer r s).2 := by
  unfold offer
  split
  · exact .single (.push r s)
  · exact .refl

theorem always_push (r : Request) (rounds : Nat) : (p.push r rounds).Always (p.Path quiet) := by
  induction rounds with
  | zero => exact Unending.always_never
  | succ rounds ih =>
    refine Unending.always_bind (Unending.always_ofState (path_offer r)) fun pushed => ?_
    split
    · exact Unending.always_done _
    · exact Unending.always_bind (Unending.always_ofState fun s => (drift_meanwhile s).1)
        fun _ => ih

/-- While the enqueuer asks the node or lets time pass, nothing is pushed. -/
theorem always_drift (h : p.client.Always quiet) :
    p.enqueuer.client.Always (p.Drift quiet) where
  node := {
    status := fun s => drift_world (h.node.status s.world)
    block := fun height s => drift_world (h.node.block height s.world)
    blockResults := fun height s => drift_world (h.node.blockResults height s.world)
    txPage := fun height offset limit s =>
      drift_world (h.node.txPage height offset limit s.world) }
  pause span := by
    refine Unending.always_bind (Unending.always_ofState drift_meanwhile) fun _ => ?_
    exact Unending.always_onPart (h.pause span) fun s world quiet => drift_world quiet

theorem always_enqueuer (h : p.Asks quiet) : p.enqueuer.Always (p.Path quiet) where
  client := (always_drift h.client).mono fun _ _ drift => drift.1
  push r := always_push r _
  waiting _ := .refl
  closed _ := .refl
  highest chainId s := .single (.world (h.highest chainId s.world))
  status chainId low high s := .single (.world (h.status chainId low high s.world))
  heights chainId typeUrl low high s :=
    .single (.world (h.heights chainId typeUrl low high s.world))
  unresolved chainId s := .single (.world (h.unresolved chainId s.world))

/-! ## Runs -/

theorem path_drive {α : Type} {x : Unending (RunState σ) α} (h : x.Always (p.Path quiet))
    (s : RunState σ) : p.Path quiet s (p.drive x s).2 := by
  induction x generalizing s with
  | done a => exact .refl
  | never => exact .refl
  | call rest effect ih =>
    have first : p.Path quiet s (p.before s) := (drift_before s).1
    unfold drive
    dsimp only
    split
    · exact first
    · exact first.trans (.trans (h (p.before s)).1 (ih _ (h (p.before s)).2 _))

/-- What the others and the enqueuer's calls preserve holds where the enqueuer has ended
or was dropped, and if it has ended then also what it ensures. -/
theorem drive_ensures {α : Type} {P : RunState σ → Prop} {rely : RunState σ → RunState σ → Prop}
    {post : α → RunState σ → Prop} {x : Unending (RunState σ) α} {s : RunState σ}
    (hx : x.Ensures rely (fun _ s' => P s') post s) (before : ∀ s, rely s (p.before s))
    (others : ∀ s s', rely s s' → P s → P s') (here : P s) :
    P (p.drive x s).2 ∧ ∀ a, (p.drive x s).1 = some a → post a (p.drive x s).2 := by
  induction x generalizing s with
  | done a =>
    refine ⟨here, fun b value => ?_⟩
    cases value
    exact hx
  | never => exact ⟨here, fun b value => by cases value⟩
  | call rest effect ih =>
    unfold drive
    dsimp only
    split
    · exact ⟨others s _ (before s) here, fun _ value => by cases value⟩
    · obtain ⟨there, later⟩ := hx _ (before s)
      exact ih _ later there

/-- **A run is a path of steps.** -/
theorem path_runState (h : p.Asks quiet) (s : RunState σ) :
    p.Path quiet s (p.runState s).2 :=
  (path_drive (always_enqueuer h).runAll s).trans (drift_finish _).1

/-- What every step preserves holds at the end of a path. -/
theorem Path.preserves {P : RunState σ → Prop} {s s' : RunState σ} (path : p.Path quiet s s')
    (step : ∀ s s', p.Step quiet s s' → P s → P s') (h : P s) : P s' := by
  induction path with
  | refl => exact h
  | tail _ last ih => exact step _ _ last ih

end Pipeline

end ChainIndex
