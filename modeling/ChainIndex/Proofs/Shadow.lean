/-
Computations on a larger state that do what others do on a part of it. `x'.Shadows get x`:
call by call `x'` does to the part what `x` does, and sees the same answers, but in between
it may make calls of its own that leave the part alone. An enqueuer whose calls shadow
those of another one is its shadow as a whole, whatever strategy is configured.
-/
import ChainIndex.Enqueue.Strategy
import ChainIndex.Proofs.Unending

namespace ChainIndex

/-- A call does to a part of its state what another one does, with the same answer. -/
def Echoes {σ τ α : Type} (get : τ → σ) (m' : StateM τ α) (m : StateM σ α) : Prop :=
  ∀ t, (m'.run t).1 = (m.run (get t)).1 ∧ get (m'.run t).2 = (m.run (get t)).2

namespace Unending

variable {σ τ α β : Type}

/-- One does to a part of its state what the other does, with calls aside. -/
inductive Shadows (get : τ → σ) : Unending τ α → Unending σ α → Prop
  | done (a) : Shadows get (.done a) (.done a)
  | never : Shadows get .never .never
  | call {rest' effect' rest effect} (same : ∀ t, get (effect' t) = effect (get t))
    (later : ∀ t, Shadows get (rest' t) (rest (get t))) :
    Shadows get (.call rest' effect') (.call rest effect)
  | aside {rest' effect' x} (same : ∀ t, get (effect' t) = get t)
    (later : ∀ t, Shadows get (rest' t) x) : Shadows get (.call rest' effect') x

variable {get : τ → σ}

theorem Shadows.bind {x' : Unending τ α} {x : Unending σ α} {f' : α → Unending τ β}
    {f : α → Unending σ β} (hx : x'.Shadows get x) (hf : ∀ a, (f' a).Shadows get (f a)) :
    (x' >>= f').Shadows get (x >>= f) := by
  induction hx with
  | done a => exact hf a
  | never => exact .never
  | call same later ih => exact .call same ih
  | aside same later ih => exact .aside same ih

/-- After a shadow there may be calls aside. -/
theorem Shadows.then_aside {x' : Unending τ α} {x : Unending σ α} {f' : α → Unending τ α}
    (hx : x'.Shadows get x) (hf : ∀ a, (f' a).Shadows get (.done a)) :
    (x' >>= f').Shadows get x := by
  induction hx with
  | done a => exact hf a
  | never => exact .never
  | call same later ih => exact .call same ih
  | aside same later ih => exact .aside same ih

theorem shadows_ofState {m' : StateM τ α} {m : StateM σ α} (h : Echoes get m' m) :
    (ofState m').Shadows get (ofState m) := by
  refine .call (fun t => (h t).2) fun t => ?_
  rw [(h t).1]
  exact .done _

theorem shadows_onPart {put : σ → τ → τ} (back : ∀ s t, get (put s t) = s) (x : Unending σ α) :
    (x.onPart get put).Shadows get x := by
  induction x with
  | done a => exact .done a
  | never => exact .never
  | call rest effect ih => exact .call (fun t => back _ t) fun t => ih (get t)

/-- With nobody else at work the outcome is the same, and the part of the state. -/
theorem Shadows.run {x' : Unending τ α} {x : Unending σ α} (h : x'.Shadows get x) (t : τ) :
    (x'.run.run t).1 = (x.run.run (get t)).1 ∧ get (x'.run.run t).2 = (x.run.run (get t)).2 := by
  induction h generalizing t with
  | done a => exact ⟨rfl, rfl⟩
  | never => exact ⟨rfl, rfl⟩
  | @call rest' effect' rest effect same later ih =>
    have after := ih t (effect' t)
    rw [same] at after
    exact after
  | @aside rest' effect' x same later ih =>
    have after := ih t (effect' t)
    rw [same] at after
    exact after

end Unending

namespace Task

variable {σ τ ε ε' α β : Type} {get : τ → σ}

/-- A task does to a part of its state what another one does. -/
abbrev Shadows (get : τ → σ) (x' : Task τ ε α) (x : Task σ ε α) : Prop :=
  x'.outcome.Shadows get x.outcome

theorem shadows_pure (a : α) : Shadows get (pure a : Task τ ε α) (pure a) := .done _

theorem shadows_throw (e : ε) : Shadows get (throw e : Task τ ε α) (throw e) := .done _

theorem shadows_never : Shadows get (ofUnending .never : Task τ ε α) (ofUnending .never) := .never

theorem Shadows.bind {x' : Task τ ε α} {x : Task σ ε α} {f' : α → Task τ ε β}
    {f : α → Task σ ε β} (hx : Shadows get x' x) (hf : ∀ a, Shadows get (f' a) (f a)) :
    Shadows get (x' >>= f') (x >>= f) := by
  refine Unending.Shadows.bind hx fun o => ?_
  cases o with
  | ok a => exact hf a
  | error e => exact .done _

/-- Both decide alike. -/
theorem shadows_ite {p : Prop} [Decidable p] {x' y' : Task τ ε α} {x y : Task σ ε α}
    (yes : Shadows get x' x) (no : Shadows get y' y) :
    Shadows get (if p then x' else y') (if p then x else y) := by
  split
  · exact yes
  · exact no

theorem shadows_ofUnending {x' : Unending τ α} {x : Unending σ α} (h : x'.Shadows get x) :
    Shadows get (ofUnending x' : Task τ ε α) (ofUnending x) :=
  h.bind fun _ => .done _

theorem shadows_ofTask {wrap : ε' → ε} {x' : Task τ ε' α} {x : Task σ ε' α}
    (h : Shadows get x' x) : Shadows get (ofTask wrap x') (ofTask wrap x) :=
  Unending.Shadows.bind h fun _ => .done _

theorem shadows_ofState {m' : StateM τ α} {m : StateM σ α} (h : Echoes get m' m) :
    Shadows get (ofState m' : Task τ ε α) (ofState m) :=
  shadows_ofUnending (Unending.shadows_ofState h)

theorem shadows_ofCall {wrap : ε' → ε} {call' : Call τ ε' α} {call : Call σ ε' α}
    (h : Echoes get call'.run call.run) :
    Shadows get (ofCall wrap call') (ofCall wrap call) :=
  Unending.shadows_ofState fun t => ⟨congrArg (Except.mapError wrap) (h t).1, (h t).2⟩

end Task

variable {σ τ : Type} {get : τ → σ}

/-! ## Clients -/

/-- What an enqueuer uses of its client shadows another client. -/
structure Client.Shadows (get : τ → σ) (c' : Client τ) (c : Client σ) : Prop where
  retry : c'.retry = c.retry
  patience : c'.patience = c.patience
  status : Echoes get c'.node.status.run c.node.status.run
  pause : ∀ span, (c'.pause span).Shadows get (c.pause span)

theorem RetryPolicy.shadows_retryFrom (p : RetryPolicy) {pause' : Span → Unending τ Unit}
    {pause : Span → Unending σ Unit} {task' : Task τ ε α} {task : Task σ ε α}
    (hp : ∀ span, (pause' span).Shadows get (pause span)) (ht : Task.Shadows get task' task)
    (tries attempt : Nat) : Task.Shadows get (p.retryFrom pause' task' tries attempt)
      (p.retryFrom pause task tries attempt) := by
  induction tries generalizing attempt with
  | zero => exact Task.shadows_never
  | succ tries ih =>
    refine (Task.shadows_ofUnending ht).bind fun tried => ?_
    cases tried with
    | ok a => exact Task.shadows_pure a
    | error e =>
      refine Task.shadows_ite (Task.shadows_throw e) ?_
      exact (Task.shadows_ofUnending (hp _)).bind fun _ => ih (attempt + 1)

theorem Client.Shadows.statusTask {c' : Client τ} {c : Client σ} (h : c'.Shadows get c) :
    Task.Shadows get c'.status c.status := by
  unfold Client.status Client.retrying RetryPolicy.retry
  rw [h.retry, h.patience]
  exact c.retry.shadows_retryFrom h.pause (Task.shadows_ofCall h.status) _ _

/-! ## Enqueuers -/

namespace Enqueuer

/-- Each call of an enqueuer shadows that of another one with the same configuration. -/
structure Shadows (get : τ → σ) (q' : Enqueuer τ) (q : Enqueuer σ) : Prop where
  config : q'.config = q.config
  fileText : q'.fileText = q.fileText
  capacity : q'.queue.capacity = q.queue.capacity
  client : q'.client.Shadows get q.client
  push : ∀ r, (q'.queue.push r).Shadows get (q.queue.push r)
  waiting : Echoes get q'.queue.waiting q.queue.waiting
  closed : Echoes get q'.queue.closed q.queue.closed
  highest : ∀ chainId, Echoes get (q'.store.highest chainId).run (q.store.highest chainId).run
  status : ∀ chainId low high,
    Echoes get (q'.store.status chainId low high).run (q.store.status chainId low high).run
  heights : ∀ chainId typeUrl low high,
    Echoes get (q'.store.heightsWithMessage chainId typeUrl low high).run
      (q.store.heightsWithMessage chainId typeUrl low high).run
  unresolved : ∀ chainId,
    Echoes get (q'.store.unresolved chainId).run (q.store.unresolved chainId).run

variable {q' : Enqueuer τ} {q : Enqueuer σ}

theorem Shadows.chainId (h : q'.Shadows get q) : q'.chainId = q.chainId :=
  congrArg (·.chain.chainId) h.config

theorem Shadows.pause (h : q'.Shadows get q) (span : Span) :
    Task.Shadows get (q'.pause span) (q.pause span) :=
  Task.shadows_ofUnending (h.client.pause span)

theorem Shadows.throttle (h : q'.Shadows get q) : Task.Shadows get q'.throttle q.throttle := by
  unfold Enqueuer.throttle
  rw [h.config]
  exact Task.shadows_ite (Task.shadows_pure ()) (h.pause _)

theorem Shadows.pushOne (h : q'.Shadows get q) (r : Request) :
    Task.Shadows get (Enqueuer.push q' r) (Enqueuer.push q r) :=
  (Task.shadows_ofUnending (h.push r)).bind fun _ =>
    Task.shadows_ite (Task.shadows_pure ()) (Task.shadows_throw _)

theorem Shadows.pushListed (h : q'.Shadows get q) (rs : List Request) :
    Task.Shadows get (q'.pushListed rs) (q.pushListed rs) := by
  induction rs with
  | nil => exact Task.shadows_pure []
  | cons r rs ih =>
    unfold Enqueuer.pushListed
    rw [h.config]
    refine Task.shadows_ite (Task.shadows_pure []) ?_
    refine (h.pushOne r).bind fun _ => h.throttle.bind fun _ => ih.bind fun new => ?_
    exact Task.shadows_pure (r :: new)

theorem Shadows.pushAll (h : q'.Shadows get q) (rs : List Request) :
    Task.Shadows get (q'.pushAll rs) (q.pushAll rs) := by
  induction rs with
  | nil => exact Task.shadows_pure ()
  | cons r rs ih => exact (h.pushOne r).bind fun _ => ih

theorem Shadows.waitForRefill (h : q'.Shadows get q) (rounds : Nat) :
    Task.Shadows get (q'.waitForRefill rounds) (q.waitForRefill rounds) := by
  induction rounds with
  | zero => exact Task.shadows_never
  | succ rounds ih =>
    unfold Enqueuer.waitForRefill
    rw [h.capacity]
    refine (Task.shadows_ofState h.waiting).bind fun waiting => ?_
    refine Task.shadows_ite (Task.shadows_pure ()) ?_
    refine (Task.shadows_ofState h.closed).bind fun closed => ?_
    exact Task.shadows_ite (Task.shadows_throw _) ((h.pause _).bind fun _ => ih)

theorem Shadows.nodeStatus (h : q'.Shadows get q) :
    Task.Shadows get (Task.ofTask EnqueueError.node q'.client.status)
      (Task.ofTask EnqueueError.node q.client.status) :=
  Task.shadows_ofTask h.client.statusTask

theorem Shadows.latestHeight (h : q'.Shadows get q) :
    Task.Shadows get (Task.ofTask EnqueueError.node q'.client.latestHeight)
      (Task.ofTask EnqueueError.node q.client.latestHeight) :=
  Task.shadows_ofTask (h.client.statusTask.bind fun status => Task.shadows_pure status.latest)

theorem Shadows.waitForChain (h : q'.Shadows get q) (delay : Span) (rounds : Nat) :
    Task.Shadows get (q'.waitForChain delay rounds) (q.waitForChain delay rounds) := by
  induction rounds with
  | zero => exact Task.shadows_never
  | succ rounds ih =>
    refine h.nodeStatus.bind fun status => ?_
    exact Task.shadows_ite ((h.pause _).bind fun _ => ih) (Task.shadows_pure ())

theorem Shadows.awaitChain (h : q'.Shadows get q) :
    Task.Shadows get q'.awaitChain q.awaitChain := by
  unfold Enqueuer.awaitChain
  rw [h.config, h.client.patience]
  exact Task.shadows_ite (h.waitForChain _ _) (Task.shadows_pure ())

theorem Shadows.windowRequests (h : q'.Shadows get q) (inFlight : List Request) (low high : Int) :
    Task.Shadows get (q'.windowRequests inFlight low high) (q.windowRequests inFlight low high) := by
  unfold Enqueuer.windowRequests
  rw [h.config, h.chainId]
  exact (Task.shadows_ofCall (h.status _ low high)).bind fun _ => Task.shadows_pure _

theorem Shadows.scan (h : q'.Shadows get q) (inFlight : List Request) (rounds : Nat)
    (current : Int) :
    Task.Shadows get (q'.scan inFlight rounds current) (q.scan inFlight rounds current) := by
  induction rounds generalizing current with
  | zero => exact Task.shadows_never
  | succ rounds ih =>
    unfold Enqueuer.scan
    rw [h.config, h.capacity, h.client.patience]
    refine Task.shadows_ite (Task.shadows_pure []) (h.latestHeight.bind fun latest => ?_)
    refine Task.shadows_ite ?_ ?_
    · exact Task.shadows_ite (Task.shadows_pure []) ((h.pause _).bind fun _ => ih current)
    · refine (h.windowRequests _ _ _).bind fun requests => (h.pushAll requests).bind fun _ => ?_
      refine (h.waitForRefill _).bind fun _ => h.throttle.bind fun _ => (ih _).bind fun later => ?_
      exact Task.shadows_pure (requests ++ later)

theorem Shadows.runFailedBlocks (h : q'.Shadows get q) :
    Task.Shadows get q'.runFailedBlocks q.runFailedBlocks := by
  unfold Enqueuer.runFailedBlocks
  rw [h.config, h.chainId]
  exact (Task.shadows_ofCall (h.unresolved _)).bind fun _ => h.pushListed _

theorem Shadows.runMessageType (h : q'.Shadows get q) (typeUrl : String) :
    Task.Shadows get (q'.runMessageType typeUrl) (q.runMessageType typeUrl) := by
  have last : Task.Shadows get q'.lastKnown q.lastKnown := by
    unfold Enqueuer.lastKnown
    rw [h.config, h.chainId]
    exact Task.shadows_ite (Task.shadows_ofCall (h.highest _)) (Task.shadows_pure _)
  unfold Enqueuer.runMessageType
  rw [h.config, h.chainId]
  refine last.bind fun last => ?_
  cases last with
  | none => exact Task.shadows_pure []
  | some last => exact (Task.shadows_ofCall (h.heights _ _ _ _)).bind fun _ => h.pushListed _

theorem Shadows.runBlockFile (h : q'.Shadows get q) (path : String) :
    Task.Shadows get (q'.runBlockFile path) (q.runBlockFile path) := by
  unfold Enqueuer.runBlockFile
  rw [h.config, h.fileText]
  split
  · exact Task.shadows_throw _
  · split
    · exact Task.shadows_throw _
    · exact h.nodeStatus.bind fun _ => h.pushListed _

theorem Shadows.run (h : q'.Shadows get q) (strategy : Strategy) :
    Task.Shadows get (q'.run strategy) (q.run strategy) := by
  cases strategy with
  | failedBlocks => exact h.runFailedBlocks
  | messageType typeUrl => exact h.runMessageType typeUrl
  | blockFile path => exact h.runBlockFile path
  | tipFollowing inFlight =>
    unfold Enqueuer.run
    rw [h.config, h.client.patience]
    exact h.scan inFlight _ _

/-- **A whole run is a shadow if each call is one.** -/
theorem Shadows.runAll (h : q'.Shadows get q) : Task.Shadows get q'.runAll q.runAll := by
  have again : Task.Shadows get q'.reattempt q.reattempt := by
    unfold Enqueuer.reattempt
    rw [h.config]
    exact Task.shadows_ite (h.run .failedBlocks) (Task.shadows_pure [])
  unfold Enqueuer.runAll
  rw [h.config]
  refine h.awaitChain.bind fun _ => again.bind fun again => (h.run _).bind fun main => ?_
  exact Task.shadows_pure (again ++ main)

end Enqueuer

end ChainIndex
