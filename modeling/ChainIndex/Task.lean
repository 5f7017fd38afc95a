/-
Computations that act on a state and may fail or never come to an end. A `Call`
always ends, with an error or a value, and nothing comes between its parts. An
`Unending` computation goes call by call, and others may act on the state between
two of its calls; `run` is what it does when nobody else acts. A `Task` without
an outcome is one that was dropped or that has spent its patience: the number of
rounds that a loop without a bound of its own may take. What holds of every
outcome under every patience holds of the unbounded loop.
-/
import ChainIndex.Span

namespace ChainIndex

/-- Acts on a state, and gives an error or a value. -/
abbrev Call (σ ε : Type) := ExceptT ε (StateM σ)

/-- What is left of a computation: its value, nothing that ever ends, or a call
on the state with what is left after it. -/
inductive Unending (σ α : Type) where
  | done (a : α)
  | never
  | call (rest : σ → Unending σ α) (effect : σ → σ)

/-- Acts on a state call by call, and gives an error or a value if it has an
outcome. -/
abbrev Task (σ ε : Type) := ExceptT ε (Unending σ)

namespace Unending

variable {σ τ α β : Type}

/-- Goes on with what comes after the value. -/
def bind (f : α → Unending σ β) : Unending σ α → Unending σ β
  | .done a => f a
  | .never => .never
  | .call rest effect => .call (fun s => bind f (rest s)) effect

instance : Monad (Unending σ) where
  pure := .done
  bind x f := bind f x

/-- One call. -/
def ofState (part : StateM σ α) : Unending σ α :=
  .call (fun s => .done (part.run s).1) fun s => (part.run s).2

instance : MonadStateOf σ (Unending σ) where
  get := ofState get
  set s := ofState (set s)
  modifyGet f := ofState (modifyGet f)

/-- All calls one after another. -/
def run : Unending σ α → StateM σ (Option α)
  | .done a => return some a
  | .never => return none
  | .call rest effect => fun s => run (rest s) (effect s)

/-- Acts on a part of a larger state. -/
def onPart (get : τ → σ) (put : σ → τ → τ) : Unending σ α → Unending τ α
  | .done a => .done a
  | .never => .never
  | .call rest effect =>
    .call (fun t => onPart get put (rest (get t))) fun t => put (effect (get t)) t

end Unending

namespace Call

variable {σ τ ε ε' α : Type}

/-- The error or value of a call as its value. -/
def outcome (call : Call σ ε α) : StateM σ (Except ε α) :=
  call.run

/-- An error or a value, with no effect on the state. -/
def ofExcept (result : Except ε α) : Call σ ε α :=
  ExceptT.mk (pure result)

/-- Acts on a part of a larger state. -/
def onPart (get : τ → σ) (put : σ → τ → τ) (call : Call σ ε α) : Call τ ε α :=
  ExceptT.mk fun t =>
    let (result, part) := call.run (get t)
    (result, put part t)

end Call

namespace Task

variable {σ ε ε' α : Type}

/-- A call that can fail. -/
def ofCall (wrap : ε' → ε) (call : Call σ ε' α) : Task σ ε α :=
  ExceptT.mk (Unending.ofState (Except.mapError wrap <$> call.run))

/-- A part that fails with other errors. -/
def ofTask (wrap : ε' → ε) (task : Task σ ε' α) : Task σ ε α :=
  ExceptT.mk (Except.mapError wrap <$> task.run)

/-- A part that has no errors. -/
def ofUnending (part : Unending σ α) : Task σ ε α :=
  ExceptT.lift part

def ofState (part : StateM σ α) : Task σ ε α :=
  ofUnending (Unending.ofState part)

/-- The error or value of a task as its value. -/
def outcome (task : Task σ ε α) : Unending σ (Except ε α) :=
  task.run

end Task

end ChainIndex
