/-
What computations come to when nobody else acts on their state. `x.Gives s a s'`: from the
state `s` the computation comes to the value `a` and leaves the state `s'`. There is at most
one such value, and none if the computation never ends. A computation on a part of a larger
state does there what it does alone, and leaves alone what is beside it.
-/
import ChainIndex.Proofs.Outcomes
import ChainIndex.Proofs.Unending

namespace ChainIndex

namespace Unending

variable {σ τ α β : Type}

/-- With nobody else on the state, the computation comes to the value and leaves the state. -/
def Gives (x : Unending σ α) (s : σ) (a : α) (s' : σ) : Prop :=
  x.run.run s = (some a, s')

theorem gives_of_run {x : Unending σ α} {s : σ} {a : α} (ends : (x.run.run s).1 = some a) :
    x.Gives s a (x.run.run s).2 :=
  Prod.ext ends rfl

theorem gives_done (a : α) (s : σ) : (.done a : Unending σ α).Gives s a s := rfl

theorem Gives.bind {x : Unending σ α} {f : α → Unending σ β} {s s' s'' : σ} {a : α} {b : β}
    (first : x.Gives s a s') (later : (f a).Gives s' b s'') : (x >>= f).Gives s b s'' := by
  induction x generalizing s with
  | done a' =>
    cases first
    exact later
  | never => cases first
  | call rest effect ih => exact ih s first

theorem gives_ofState {m : StateM σ α} {s s' : σ} {a : α} (ran : m.run s = (a, s')) :
    (ofState m).Gives s a s' :=
  congrArg (fun result : α × σ => (some result.1, result.2)) ran

theorem gives_bind_iff {x : Unending σ α} {f : α → Unending σ β} {s s'' : σ} {b : β} :
    (x >>= f).Gives s b s'' ↔ ∃ a s', x.Gives s a s' ∧ (f a).Gives s' b s'' := by
  constructor
  · intro h
    induction x generalizing s with
    | done a => exact ⟨a, s, rfl, h⟩
    | never => cases h
    | call rest effect ih => exact ih s h
  · rintro ⟨a, s', first, later⟩
    exact first.bind later

theorem gives_done_iff {a b : α} {s s' : σ} :
    (.done a : Unending σ α).Gives s b s' ↔ b = a ∧ s' = s := by
  constructor
  · intro h
    cases h
    exact ⟨rfl, rfl⟩
  · rintro ⟨rfl, rfl⟩
    rfl

theorem gives_ofState_iff {m : StateM σ α} {s s' : σ} {a : α} :
    (ofState m).Gives s a s' ↔ m.run s = (a, s') := by
  constructor
  · intro h
    cases h
    rfl
  · exact gives_ofState

/-- What every call does to the state, in one step or in several, the whole does. -/
theorem Always.gives {R : σ → σ → Prop} (refl : ∀ s, R s s)
    (trans : ∀ s s' s'', R s s' → R s' s'' → R s s'') {x : Unending σ α} (always : x.Always R)
    {s s' : σ} {a : α} (gives : x.Gives s a s') : R s s' := by
  induction x generalizing s with
  | done b =>
    cases gives
    exact refl _
  | never => cases gives
  | call rest effect ih => exact trans _ _ _ (always s).1 (ih s (always s).2 gives)

/-- It comes to its end from every state. -/
def Ends (x : Unending σ α) : Prop :=
  ∀ s, ∃ a s', x.Gives s a s'

theorem ends_done (a : α) : (.done a : Unending σ α).Ends := fun s => ⟨a, s, rfl⟩

theorem ends_ofState (m : StateM σ α) : (ofState m).Ends := fun _ => ⟨_, _, rfl⟩

theorem Ends.bind {x : Unending σ α} {f : α → Unending σ β} (hx : x.Ends)
    (hf : ∀ a, (f a).Ends) : (x >>= f).Ends := by
  intro s
  obtain ⟨a, s', first⟩ := hx s
  obtain ⟨b, s'', later⟩ := hf a s'
  exact ⟨b, s'', first.bind later⟩

/-! ## A part of a larger state -/

variable {get : τ → σ} {put : σ → τ → τ}

theorem onPart_bind (x : Unending σ α) (f : α → Unending σ β) :
    (x >>= f).onPart get put = x.onPart get put >>= fun a => (f a).onPart get put := by
  induction x with
  | done a => rfl
  | never => rfl
  | call rest effect ih => exact congrArg (Unending.call · _) (funext fun t => ih (get t))

/-- Beside something else a computation does what it does alone. -/
theorem gives_beside_iff {x : Unending σ α} {s : σ} {beside : τ} {a : α} {t : σ × τ} :
    (x.onPart Prod.fst fun s t => (s, t.2)).Gives (s, beside) a t ↔
      ∃ s', x.Gives s a s' ∧ t = (s', beside) := by
  induction x generalizing s with
  | done b =>
    constructor
    · intro h
      cases h
      exact ⟨s, rfl, rfl⟩
    · rintro ⟨s', h, rfl⟩
      cases h
      rfl
  | never =>
    constructor
    · intro h
      cases h
    · rintro ⟨s', h, -⟩
      cases h
  | call rest effect ih => exact ih s

theorem Ends.beside {x : Unending σ α} (hx : x.Ends) :
    (x.onPart Prod.fst fun s (t : σ × τ) => (s, t.2)).Ends := by
  rintro ⟨s, beside⟩
  obtain ⟨a, s', gives⟩ := hx s
  exact ⟨a, _, gives_beside_iff.mpr ⟨s', gives, rfl⟩⟩

end Unending

namespace Task

variable {σ τ ε α β : Type}

section

variable {x : Task σ ε α} {f : α → Task σ ε β} {s s' s'' : σ}

theorem gives_bind_ok {a : α} {r : Except ε β} (first : x.outcome.Gives s (.ok a) s')
    (later : (f a).outcome.Gives s' r s'') : (x >>= f).outcome.Gives s r s'' :=
  Unending.Gives.bind first later

theorem gives_bind_error {e : ε} (first : x.outcome.Gives s (.error e) s') :
    (x >>= f).outcome.Gives s (.error e) s' :=
  Unending.Gives.bind first (Unending.gives_done _ s')

/-- What two parts come to, the first fails with, or else the second comes to it. -/
theorem gives_bind_cases {r : Except ε β} (h : (x >>= f).outcome.Gives s r s'') :
    (∃ e, r = .error e ∧ x.outcome.Gives s (.error e) s'') ∨
      ∃ a s', x.outcome.Gives s (.ok a) s' ∧ (f a).outcome.Gives s' r s'' := by
  rw [outcome_bind, Unending.gives_bind_iff] at h
  obtain ⟨result, s', first, later⟩ := h
  cases result with
  | ok a => exact .inr ⟨a, s', first, later⟩
  | error e =>
    obtain ⟨rfl, rfl⟩ := Unending.gives_done_iff.mp later
    exact .inl ⟨e, rfl, first⟩

theorem gives_ofUnending {x : Unending σ α} {a : α} (ran : x.Gives s a s') :
    (ofUnending x : Task σ ε α).outcome.Gives s (.ok a) s' :=
  ran.bind (Unending.gives_done _ s')

theorem gives_ofTask {ε' : Type} {wrap : ε' → ε} {x : Task σ ε' α} {r : Except ε' α}
    (ran : x.outcome.Gives s r s') : (ofTask wrap x).outcome.Gives s (r.mapError wrap) s' :=
  Unending.Gives.bind ran (Unending.gives_done _ s')

theorem gives_ofCall_wrapped {ε' : Type} {wrap : ε' → ε} {call : Call σ ε' α} {r : Except ε' α}
    (ran : call.run.run s = (r, s')) : (ofCall wrap call).outcome.Gives s (r.mapError wrap) s' :=
  Unending.gives_ofState (congrArg (fun t : Except ε' α × σ => (t.1.mapError wrap, t.2)) ran)

theorem gives_ofTask_iff {ε' : Type} {wrap : ε' → ε} {x : Task σ ε' α} {r : Except ε α} :
    (ofTask wrap x).outcome.Gives s r s' ↔
      ∃ r', x.outcome.Gives s r' s' ∧ r = r'.mapError wrap := by
  rw [outcome_ofTask, Unending.map_def, Unending.gives_bind_iff]
  simp [Unending.gives_done_iff]

theorem gives_ofCall_iff {ε' : Type} {wrap : ε' → ε} {call : Call σ ε' α} {r : Except ε α} :
    (ofCall wrap call).outcome.Gives s r s' ↔
      ∃ r', call.run.run s = (r', s') ∧ r = r'.mapError wrap := by
  constructor
  · intro gives
    cases gives
    exact ⟨_, rfl, rfl⟩
  · rintro ⟨r', ran, rfl⟩
    exact gives_ofCall_wrapped ran

theorem gives_ofCall {call : Call σ ε α} {r : Except ε α} (ran : call.run.run s = (r, s')) :
    (ofCall id call).outcome.Gives s r s' := by
  have asked : (ofCall id call).outcome.Gives s (r.mapError id) s' := gives_ofCall_wrapped ran
  rwa [mapError_id] at asked

end

theorem outcome_ofUnending_bind (x : Unending σ α) (f : α → Task σ ε β) :
    (ofUnending x >>= f).outcome = x >>= fun a => (f a).outcome := by
  induction x with
  | done a => rfl
  | never => rfl
  | call rest effect ih => exact congrArg (Unending.call · effect) (funext ih)

theorem ends_bind {x : Task σ ε α} {f : α → Task σ ε β} (hx : x.outcome.Ends)
    (hf : ∀ a, (f a).outcome.Ends) : (x >>= f).outcome.Ends := by
  rw [outcome_bind]
  refine hx.bind fun answer => ?_
  cases answer with
  | ok a => exact hf a
  | error e => exact Unending.ends_done _

theorem ends_ofCall (call : Call σ ε α) : (ofCall id call).outcome.Ends :=
  Unending.ends_ofState _

variable {get : τ → σ} {put : σ → τ → τ}

/-- A task as a part of a larger state, call by call. -/
def IsOnPart (get : τ → σ) (put : σ → τ → τ) (task' : Task τ ε α) (task : Task σ ε α) : Prop :=
  task'.outcome = task.outcome.onPart get put

theorem IsOnPart.bind {x' : Task τ ε α} {x : Task σ ε α} {f' : α → Task τ ε β}
    {f : α → Task σ ε β} (hx : IsOnPart get put x' x) (hf : ∀ a, IsOnPart get put (f' a) (f a)) :
    IsOnPart get put (x' >>= f') (x >>= f) := by
  rw [IsOnPart, outcome_bind, outcome_bind, Unending.onPart_bind, hx]
  refine congrArg _ (funext fun answer => ?_)
  cases answer with
  | ok a => exact hf a
  | error e => rfl

theorem isOnPart_ofCall (call : Call σ ε α) :
    IsOnPart get put (ofCall id (call.onPart get put)) (ofCall id call) :=
  rfl

end Task

end ChainIndex
