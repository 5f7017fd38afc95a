/-
What enqueuing can change. If every call that the enqueuer uses changes the state
as some relation says, then so does every call of a whole run of it, whichever
strategy is configured.
-/
import ChainIndex.Enqueue.Strategy
import ChainIndex.Proofs.Client

namespace ChainIndex

variable {σ : Type} {R : σ → σ → Prop}

/-- Every call that the enqueuer uses to wait for the node or for the queue changes the
state as `R` says. -/
structure Enqueuer.Waits (R : σ → σ → Prop) (q : Enqueuer σ) : Prop where
  client : q.client.Always R
  waiting : ∀ s, R s (q.queue.waiting.run s).2
  closed : ∀ s, R s (q.queue.closed.run s).2

/-- So does every other call that it uses. -/
structure Enqueuer.Always (R : σ → σ → Prop) (q : Enqueuer σ) : Prop extends q.Waits R where
  push : ∀ r, (q.queue.push r).Always R
  highest : ∀ chainId s, R s ((q.store.highest chainId).run.run s).2
  status : ∀ chainId low high s, R s ((q.store.status chainId low high).run.run s).2
  heights : ∀ chainId typeUrl low high s,
    R s ((q.store.heightsWithMessage chainId typeUrl low high).run.run s).2
  unresolved : ∀ chainId s, R s ((q.store.unresolved chainId).run.run s).2

namespace Enqueuer

variable {q : Enqueuer σ}

theorem Waits.pause (h : q.Waits R) (span : Span) : (q.pause span).outcome.Always R :=
  Task.always_ofUnending (h.client.pause span)

theorem Waits.throttle (h : q.Waits R) : q.throttle.outcome.Always R := by
  unfold Enqueuer.throttle
  split
  · exact Unending.always_done _
  · exact h.pause _

theorem Waits.waitForRefill (h : q.Waits R) (rounds : Nat) :
    (q.waitForRefill rounds).outcome.Always R := by
  induction rounds with
  | zero => exact Unending.always_never
  | succ rounds ih =>
    refine Task.always_bind (Task.always_ofState h.waiting) fun waiting => ?_
    split
    · exact Unending.always_done _
    · refine Task.always_bind (Task.always_ofState h.closed) fun closed => ?_
      split
      · exact Unending.always_done _
      · exact Task.always_bind (h.pause _) fun _ => ih

theorem Waits.waitForChain (h : q.Waits R) (delay : Span) (rounds : Nat) :
    (q.waitForChain delay rounds).outcome.Always R := by
  induction rounds with
  | zero => exact Unending.always_never
  | succ rounds ih =>
    refine Task.always_bind (Task.always_ofTask h.client.status) fun status => ?_
    split
    · exact Task.always_bind (h.pause _) fun _ => ih
    · exact Unending.always_done _

theorem Waits.awaitChain (h : q.Waits R) : q.awaitChain.outcome.Always R := by
  unfold Enqueuer.awaitChain
  dsimp only
  split
  · exact h.waitForChain _ _
  · exact Unending.always_done _

theorem Waits.latestHeight (h : q.Waits R) :
    (Task.ofTask EnqueueError.node q.client.latestHeight).outcome.Always R :=
  Task.always_ofTask (Task.always_bind h.client.status fun _ => Unending.always_done _)

theorem Always.pushOne (h : q.Always R) (r : Request) : (Enqueuer.push q r).outcome.Always R := by
  refine Task.always_bind (Task.always_ofUnending (h.push r)) fun pushed => ?_
  split <;> exact Unending.always_done _

theorem Always.pushListed (h : q.Always R) (rs : List Request) :
    (q.pushListed rs).outcome.Always R := by
  induction rs with
  | nil => exact Unending.always_done _
  | cons r rs ih =>
    unfold Enqueuer.pushListed
    split
    · exact Unending.always_done _
    · refine Task.always_bind (h.pushOne r) fun _ => Task.always_bind h.throttle fun _ => ?_
      exact Task.always_bind ih fun _ => Unending.always_done _

theorem Always.pushAll (h : q.Always R) (rs : List Request) : (q.pushAll rs).outcome.Always R := by
  induction rs with
  | nil => exact Unending.always_done _
  | cons r rs ih => exact Task.always_bind (h.pushOne r) fun _ => ih

theorem Always.windowRequests (h : q.Always R) (inFlight : List Request) (low high : Int) :
    (q.windowRequests inFlight low high).outcome.Always R :=
  Task.always_bind (Task.always_ofCall (h.status _ low high)) fun _ => Unending.always_done _

theorem Always.scan (h : q.Always R) (inFlight : List Request) (rounds : Nat) (current : Int) :
    (q.scan inFlight rounds current).outcome.Always R := by
  induction rounds generalizing current with
  | zero => exact Unending.always_never
  | succ rounds ih =>
    unfold Enqueuer.scan
    dsimp only
    split
    · exact Unending.always_done _
    · refine Task.always_bind h.latestHeight fun latest => ?_
      split
      · split
        · exact Unending.always_done _
        · exact Task.always_bind (h.pause _) fun _ => ih current
      · refine Task.always_bind (h.windowRequests _ _ _) fun requests => ?_
        refine Task.always_bind (h.pushAll requests) fun _ => ?_
        refine Task.always_bind (h.waitForRefill _) fun _ => Task.always_bind h.throttle fun _ => ?_
        exact Task.always_bind (ih _) fun _ => Unending.always_done _

theorem Always.run (h : q.Always R) (strategy : Strategy) : (q.run strategy).outcome.Always R := by
  cases strategy with
  | failedBlocks =>
    exact Task.always_bind (Task.always_ofCall (h.unresolved _)) fun _ => h.pushListed _
  | messageType typeUrl =>
    have last : q.lastKnown.outcome.Always R := by
      unfold lastKnown
      split
      · exact Task.always_ofCall (h.highest _)
      · exact Unending.always_done _
    refine Task.always_bind last fun last => ?_
    cases last with
    | none => exact Unending.always_done _
    | some last =>
      exact Task.always_bind (Task.always_ofCall (h.heights _ _ _ _)) fun _ => h.pushListed _
  | blockFile path =>
    change (q.runBlockFile path).outcome.Always R
    unfold runBlockFile
    split
    · exact Unending.always_done _
    · split
      · exact Unending.always_done _
      · exact Task.always_bind (Task.always_ofTask h.client.status) fun _ => h.pushListed _
  | tipFollowing inFlight => exact h.scan inFlight _ _

/-- Every call of a whole run changes the state as the single calls do. -/
theorem Always.runAll (h : q.Always R) : q.runAll.outcome.Always R := by
  have again : q.reattempt.outcome.Always R := by
    unfold reattempt
    split
    · exact h.run .failedBlocks
    · exact Unending.always_done _
  refine Task.always_bind h.awaitChain fun _ => Task.always_bind again fun again => ?_
  exact Task.always_bind (h.run _) fun _ => Unending.always_done _

end Enqueuer

end ChainIndex
