/-
What asking a node can change. If every single call and every pause changes the
state as some relation says, then so does every call of an answer that is put
together out of them: of one that is tried again, and of one that comes in pages.
-/
import ChainIndex.Node.Client
import ChainIndex.Proofs.Outcomes
import ChainIndex.Proofs.Unending

namespace ChainIndex

variable {σ α : Type} {R : σ → σ → Prop}

/-- Every call of the node changes the state as `R` says. -/
structure Node.Always (R : σ → σ → Prop) (node : Node σ) : Prop where
  status : ∀ s, R s (node.status.run.run s).2
  block : ∀ height s, R s ((node.block height).run.run s).2
  blockResults : ∀ height s, R s ((node.blockResults height).run.run s).2
  txPage : ∀ height offset limit s, R s ((node.txPage height offset limit).run.run s).2

/-- So does every call of the client, and every pause. -/
structure Client.Always (R : σ → σ → Prop) (c : Client σ) : Prop where
  node : c.node.Always R
  pause : ∀ span, (c.pause span).Always R

theorem Client.Always.mono {R' : σ → σ → Prop} {c : Client σ} (hc : c.Always R)
    (h : ∀ s s', R s s' → R' s s') : c.Always R' where
  node := {
    status := fun s => h s _ (hc.node.status s)
    block := fun height s => h s _ (hc.node.block height s)
    blockResults := fun height s => h s _ (hc.node.blockResults height s)
    txPage := fun height offset limit s => h s _ (hc.node.txPage height offset limit s) }
  pause span := (hc.pause span).mono h

namespace Node

/-- The results of a block in one form come out of one call. -/
theorem foldedResults_run (node : Node σ) (height : Int) (s : σ) :
    (node.foldedResults height).run.run s =
      (((node.blockResults height).run.run s).1.bind fun results =>
          results.foldFinalize.mapError fun e => .unreadable e.message,
        ((node.blockResults height).run.run s).2) := by
  obtain ⟨answer, s', answered⟩ : ∃ answer s', (node.blockResults height).run.run s = (answer, s') :=
    ⟨_, _, rfl⟩
  rw [foldedResults, answered]
  cases answer with
  | error e => exact Call.run_bind_error answered
  | ok results =>
    rw [Call.run_bind_ok answered]
    cases folded : results.foldFinalize with
    | ok read =>
      change _ = ((results.foldFinalize.mapError _ : Except NodeError BlockResults), s')
      rw [folded]
      rfl
    | error e =>
      change _ = ((results.foldFinalize.mapError _ : Except NodeError BlockResults), s')
      rw [folded]
      rfl

theorem Always.morePages {node : Node σ} (h : node.Always R) (height : Int) (total : Nat)
    (txs : List SearchTx) (results : List SearchResult) :
    (node.morePages height total txs results).outcome.Always R := by
  induction txs, results using Node.morePages.induct total with
  | case1 txs results enough =>
    rw [morePages_of_enough enough]
    exact Unending.always_done _
  | case2 txs results few ih =>
    rw [morePages_of_few few]
    refine Task.always_bind (Task.always_ofCall (h.txPage height txs.length pageLimit))
      fun page => ?_
    split
    · exact Unending.always_done _
    · next some => exact ih page some

theorem Always.txsAt {node : Node σ} (h : node.Always R) (height : Int) :
    (node.txsAt height).outcome.Always R := by
  refine Task.always_bind (Task.always_ofCall (h.txPage height 0 pageLimit)) fun first => ?_
  refine Task.always_bind (h.morePages height _ _ _) fun pages => ?_
  dsimp only
  split <;> exact Unending.always_done _

end Node

theorem RetryPolicy.always_retryFrom (p : RetryPolicy) {pause : Span → Unending σ Unit}
    {task : Task σ ε α} (hp : ∀ span, (pause span).Always R) (ht : task.outcome.Always R)
    (tries attempt : Nat) : (p.retryFrom pause task tries attempt).outcome.Always R := by
  induction tries generalizing attempt with
  | zero => exact Unending.always_map _ Unending.always_never
  | succ tries ih =>
    refine Task.always_bind (Task.always_ofUnending ht) fun tried => ?_
    cases tried with
    | ok a => exact Unending.always_done _
    | error e =>
      dsimp only
      split
      · exact Unending.always_done _
      · exact Task.always_bind (Task.always_ofUnending (hp _)) fun _ => ih (attempt + 1)

namespace Client

theorem Always.retrying {c : Client σ} (h : c.Always R) {task : Task σ NodeError α}
    (ht : task.outcome.Always R) : (c.retrying task).outcome.Always R :=
  c.retry.always_retryFrom h.pause ht _ 0

theorem Always.status {c : Client σ} (h : c.Always R) : c.status.outcome.Always R :=
  h.retrying (Task.always_ofCall h.node.status)

theorem Always.blockResults {c : Client σ} (h : c.Always R) (height : Int) :
    (c.blockResults height).outcome.Always R := by
  refine h.retrying (Task.always_ofCall fun s => ?_)
  rw [Node.foldedResults_run]
  exact h.node.blockResults height s

theorem Always.txsAt {c : Client σ} (h : c.Always R) (height : Int) :
    (c.txsAt height).outcome.Always R :=
  h.retrying (h.node.txsAt height)

end Client

end ChainIndex
