/-
What is said of computations that go call by call while others act on the same
state. `x.Always R`: every call of `x`, from whatever state, changes it as `R`
says. `x.Ensures rely grant post s`: if the others change the state between two
calls as `rely` says, then every call changes it as `grant` says, and where `x`
comes to its end from `s` its value and the state are as `post` says. `x.Finishes`:
it does come to its end. Each has a rule for what computations are made of, so that
no proof about a computation looks at its calls.
-/
import ChainIndex.Task

namespace ChainIndex

namespace Unending

variable {σ τ α β : Type}

@[simp] theorem pure_def (a : α) : (pure a : Unending σ α) = .done a := rfl

@[simp] theorem done_bind (a : α) (f : α → Unending σ β) : (.done a >>= f) = f a := rfl

@[simp] theorem never_bind (f : α → Unending σ β) : (.never >>= f) = .never := rfl

@[simp] theorem call_bind (rest : σ → Unending σ α) (effect : σ → σ) (f : α → Unending σ β) :
    (.call rest effect >>= f) = .call (fun s => rest s >>= f) effect := rfl

theorem map_def (f : α → β) (x : Unending σ α) : f <$> x = x >>= fun a => .done (f a) := rfl

@[simp] theorem onPart_done (get : τ → σ) (put : σ → τ → τ) (a : α) :
    (.done a : Unending σ α).onPart get put = .done a := rfl

/-! ## Every call -/

/-- Every call changes the state as `R` says. -/
def Always (R : σ → σ → Prop) : Unending σ α → Prop
  | .done _ => True
  | .never => True
  | .call rest effect => ∀ s, R s (effect s) ∧ Always R (rest s)

variable {R : σ → σ → Prop}

@[simp] theorem always_done (a : α) : (.done a : Unending σ α).Always R := trivial

@[simp] theorem always_never : (.never : Unending σ α).Always R := trivial

theorem always_bind {x : Unending σ α} {f : α → Unending σ β} (hx : x.Always R)
    (hf : ∀ a, (f a).Always R) : (x >>= f).Always R := by
  induction x with
  | done a => exact hf a
  | never => trivial
  | call rest effect ih => exact fun s => ⟨(hx s).1, ih s (hx s).2⟩

theorem Always.mono {R' : σ → σ → Prop} {x : Unending σ α} (hx : x.Always R)
    (h : ∀ s s', R s s' → R' s s') : x.Always R' := by
  induction x with
  | done a => trivial
  | never => trivial
  | call rest effect ih => exact fun s => ⟨h s _ (hx s).1, ih s (hx s).2⟩

theorem always_map {x : Unending σ α} (f : α → β) (hx : x.Always R) : (f <$> x).Always R :=
  always_bind hx fun _ => trivial

theorem always_ofState {m : StateM σ α} (h : ∀ s, R s (m.run s).2) : (ofState m).Always R :=
  fun s => ⟨h s, trivial⟩

/-- Nothing is said of the calls. -/
theorem always_true (x : Unending σ α) : x.Always fun _ _ => True := by
  induction x with
  | done a => trivial
  | never => trivial
  | call rest effect ih => exact fun s => ⟨trivial, ih s⟩

theorem always_onPart {get : τ → σ} {put : σ → τ → τ} {R' : τ → τ → Prop} {x : Unending σ α}
    (hx : x.Always R) (h : ∀ t s, R (get t) s → R' t (put s t)) :
    (x.onPart get put).Always R' := by
  induction x with
  | done a => trivial
  | never => trivial
  | call rest effect ih =>
    exact fun t => ⟨h t _ (hx (get t)).1, ih (get t) (hx (get t)).2⟩

/-! ## What a computation ensures -/

/-- Whatever the others do that `rely` allows, every call does what `grant`
says, and the value comes with a state as `post` says. -/
def Ensures (rely grant : σ → σ → Prop) (post : α → σ → Prop) : Unending σ α → σ → Prop
  | .done a, s => post a s
  | .never, _ => True
  | .call rest effect, s =>
    ∀ s', rely s s' → grant s' (effect s') ∧ Ensures rely grant post (rest s') (effect s')

variable {rely grant : σ → σ → Prop}

@[simp] theorem ensures_done (post : α → σ → Prop) (a : α) (s : σ) :
    (.done a : Unending σ α).Ensures rely grant post s ↔ post a s := Iff.rfl

@[simp] theorem ensures_never (post : α → σ → Prop) (s : σ) :
    (.never : Unending σ α).Ensures rely grant post s := trivial

/-- If the others do less, the calls may do more, and the end says less. -/
theorem Ensures.weaken {rely' grant' : σ → σ → Prop} {post post' : α → σ → Prop}
    {x : Unending σ α} {s : σ} (hx : x.Ensures rely grant post s)
    (less : ∀ s s', rely' s s' → rely s s') (more : ∀ s s', grant s s' → grant' s s')
    (ends : ∀ a s, post a s → post' a s) : x.Ensures rely' grant' post' s := by
  induction x generalizing s with
  | done a => exact ends a s hx
  | never => trivial
  | call rest effect ih =>
    intro s' hs
    obtain ⟨grants, later⟩ := hx s' (less s s' hs)
    exact ⟨more _ _ grants, ih s' later⟩

theorem Ensures.mono {post post' : α → σ → Prop} {x : Unending σ α} {s : σ}
    (hx : x.Ensures rely grant post s) (h : ∀ a s, post a s → post' a s) :
    x.Ensures rely grant post' s :=
  hx.weaken (fun _ _ => id) (fun _ _ => id) h

theorem Ensures.bind {post : β → σ → Prop} {mid : α → σ → Prop} {x : Unending σ α}
    {f : α → Unending σ β} {s : σ} (hx : x.Ensures rely grant mid s)
    (hf : ∀ a s, mid a s → (f a).Ensures rely grant post s) :
    (x >>= f).Ensures rely grant post s := by
  induction x generalizing s with
  | done a => exact hf a s hx
  | never => trivial
  | call rest effect ih => exact fun s' hs => ⟨(hx s' hs).1, ih s' (hx s' hs).2⟩

theorem Ensures.map {post : β → σ → Prop} {x : Unending σ α} {f : α → β} {s : σ}
    (hx : x.Ensures rely grant (fun a s => post (f a) s) s) :
    (f <$> x).Ensures rely grant post s :=
  hx.bind fun _ _ ends => ends

/-- What the others and all calls preserve holds at every call and at the end. -/
theorem Always.ensures {R : σ → σ → Prop} {P : σ → Prop} {x : Unending σ α} {s : σ}
    (hx : x.Always R) (others : ∀ s s', rely s s' → P s → P s')
    (calls : ∀ s s', R s s' → P s → P s') (here : P s) :
    x.Ensures rely (fun _ s' => P s') (fun _ s' => P s') s := by
  induction x generalizing s with
  | done a => exact here
  | never => trivial
  | call rest effect ih =>
    intro s' hs
    have there := calls s' _ (hx s').1 (others s s' hs here)
    exact ⟨there, ih s' (hx s').2 there⟩

theorem ensures_ofState {post : α → σ → Prop} {m : StateM σ α} {s : σ}
    (h : ∀ s', rely s s' → grant s' (m.run s').2 ∧ post (m.run s').1 (m.run s').2) :
    (ofState m).Ensures rely grant post s :=
  h

/-! ## Coming to an end -/

/-- Comes to its end whatever the others do. -/
def Finishes : Unending σ α → Prop
  | .done _ => True
  | .never => False
  | .call rest _ => ∀ s, Finishes (rest s)

theorem finishes_done (a : α) : (.done a : Unending σ α).Finishes := trivial

theorem finishes_ofState (m : StateM σ α) : (ofState m).Finishes := fun _ => trivial

theorem Finishes.bind {x : Unending σ α} {f : α → Unending σ β} (hx : x.Finishes)
    (hf : ∀ a, (f a).Finishes) : (x >>= f).Finishes := by
  induction x with
  | done a => exact hf a
  | never => exact hx.elim
  | call rest effect ih => exact fun s => ih s (hx s)

theorem Finishes.map {x : Unending σ α} (f : α → β) (hx : x.Finishes) : (f <$> x).Finishes :=
  hx.bind fun _ => trivial

end Unending

namespace Task

variable {σ ε ε' α β : Type}

/-! ## Outcomes of tasks -/

theorem outcome_bind (x : Task σ ε α) (f : α → Task σ ε β) :
    (x >>= f).outcome = x.outcome >>= fun
      | .ok a => (f a).outcome
      | .error e => .done (.error e) :=
  rfl

@[simp] theorem outcome_pure (a : α) : (pure a : Task σ ε α).outcome = .done (.ok a) := rfl

@[simp] theorem outcome_throw (e : ε) : (throw e : Task σ ε α).outcome = .done (.error e) := rfl

theorem outcome_ofUnending (x : Unending σ α) :
    (ofUnending x : Task σ ε α).outcome = Except.ok <$> x := rfl

theorem outcome_ofState (m : StateM σ α) :
    (ofState m : Task σ ε α).outcome = Except.ok <$> Unending.ofState m := rfl

theorem outcome_ofCall (wrap : ε' → ε) (call : Call σ ε' α) :
    (ofCall wrap call).outcome = Unending.ofState (Except.mapError wrap <$> call.run) := rfl

theorem outcome_ofTask (wrap : ε' → ε) (x : Task σ ε' α) :
    (ofTask wrap x).outcome = Except.mapError wrap <$> x.outcome := rfl

theorem finishes_bind {x : Task σ ε α} {f : α → Task σ ε β} (hx : x.outcome.Finishes)
    (hf : ∀ a, (f a).outcome.Finishes) : (x >>= f).outcome.Finishes := by
  rw [outcome_bind]
  refine hx.bind fun result => ?_
  cases result with
  | ok a => exact hf a
  | error e => exact Unending.finishes_done _

variable {R : σ → σ → Prop}

theorem always_bind {x : Task σ ε α} {f : α → Task σ ε β} (hx : x.outcome.Always R)
    (hf : ∀ a, (f a).outcome.Always R) : (x >>= f).outcome.Always R := by
  rw [outcome_bind]
  refine Unending.always_bind hx fun result => ?_
  cases result with
  | ok a => exact hf a
  | error e => exact Unending.always_done _

theorem always_ofUnending {x : Unending σ α} (hx : x.Always R) :
    (ofUnending x : Task σ ε α).outcome.Always R := by
  rw [outcome_ofUnending]
  exact Unending.always_map _ hx

theorem always_ofState {m : StateM σ α} (h : ∀ s, R s (m.run s).2) :
    (ofState m : Task σ ε α).outcome.Always R := by
  rw [outcome_ofState]
  exact Unending.always_map _ (Unending.always_ofState h)

theorem always_ofCall {wrap : ε' → ε} {call : Call σ ε' α} (h : ∀ s, R s (call.run.run s).2) :
    (ofCall wrap call).outcome.Always R :=
  Unending.always_ofState h

theorem always_ofTask {wrap : ε' → ε} {x : Task σ ε' α} (hx : x.outcome.Always R) :
    (ofTask wrap x).outcome.Always R := by
  rw [outcome_ofTask]
  exact Unending.always_map _ hx

end Task

end ChainIndex
