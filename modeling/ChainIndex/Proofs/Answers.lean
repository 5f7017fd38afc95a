/-
Where answers come from. However often a call of the node is tried again, what comes
of it is what came of one of the tries. A node is steady if its answers depend on
nothing but what it is asked; then there is only one answer that a try can have, and
so only one that trying again can come to.
-/
import ChainIndex.Proofs.Journey

namespace ChainIndex

/-- The answers depend on nothing but the questions. -/
structure Node.Steady {σ : Type} (node : Node σ) : Prop where
  status : ∀ s s', (node.status.run.run s).1 = (node.status.run.run s').1
  block : ∀ height s s', ((node.block height).run.run s).1 = ((node.block height).run.run s').1
  blockResults : ∀ height s s',
    ((node.blockResults height).run.run s).1 = ((node.blockResults height).run.run s').1
  txPage : ∀ height offset limit s s',
    ((node.txPage height offset limit).run.run s).1 =
      ((node.txPage height offset limit).run.run s').1

theorem Node.steady_fixed (status : NodeStatus) (block : Int → Except NodeError Block)
    (results : Int → Except NodeError BlockResults) (page : Int → Except NodeError SearchPage) :
    (Node.fixed status block results page).Steady :=
  ⟨fun _ _ => rfl, fun _ _ _ => rfl, fun _ _ _ => rfl, fun _ _ _ _ _ => rfl⟩

/-! ## One value -/

namespace Unending

variable {ω α β : Type}

/-- A computation can come to at most one value. -/
def Fixed (x : Unending (Site ω) α) : Prop :=
  ∀ es es' a a', x.Leaves es a → x.Leaves es' a' → a = a'

theorem fixed_done (a : α) : (.done a : Unending (Site ω) α).Fixed := by
  rintro _ _ b b' ⟨-, rfl⟩ ⟨-, rfl⟩
  rfl

end Unending

namespace Task

variable {ω ε α β : Type}

theorem fixed_bind {x : Task (Site ω) ε α} {f : α → Task (Site ω) ε β} (hx : x.outcome.Fixed)
    (hf : ∀ a, (f a).outcome.Fixed) : (x >>= f).outcome.Fixed := by
  intro es es' o o' h h'
  rcases leaves_bind.mp h with ⟨_, a, later, first, rest, -⟩ | ⟨e, first, rfl⟩ <;>
    rcases leaves_bind.mp h' with ⟨_, a', later', first', rest', -⟩ | ⟨e', first', rfl⟩
  · cases hx _ _ _ _ first first'
    exact hf a _ _ _ _ rest rest'
  · cases hx _ _ _ _ first first'
  · cases hx _ _ _ _ first first'
  · cases hx _ _ _ _ first first'
    rfl

theorem fixed_ofCall {call : Call (Site ω) ε α}
    (steady : ∀ s s', (call.run.run s).1 = (call.run.run s').1) :
    (ofCall id call).outcome.Fixed := by
  intro es es' o o' h h'
  obtain ⟨s, -, rfl⟩ := leaves_ofCall.mp h
  obtain ⟨s', -, rfl⟩ := leaves_ofCall.mp h'
  exact steady s s'

/-- What comes of trying again is what came of one of the tries. -/
theorem leaves_retryFrom {policy : RetryPolicy} {pause : Span → Unending (Site ω) Unit}
    {task : Task (Site ω) ε α} {tries attempt : Nat} {es : List StoreEffect} {o : Except ε α}
    (h : (policy.retryFrom pause task tries attempt).outcome.Leaves es o) :
    ∃ es', task.outcome.Leaves es' o := by
  induction tries generalizing attempt es with
  | zero => exact h.elim
  | succ tries ih =>
    rcases leaves_bind.mp h with ⟨now, tried, later, first, rest, -⟩ | ⟨e, first, -⟩
    · obtain ⟨_, tried, ⟨⟩⟩ := leaves_ofUnending.mp first
      split at rest
      · obtain ⟨-, rfl⟩ := rest
        exact ⟨_, tried⟩
      · split at rest
        · obtain ⟨-, rfl⟩ := rest
          exact ⟨_, tried⟩
        · rcases leaves_bind.mp rest with ⟨_, _, _, _, again, -⟩ | ⟨_, paused, -⟩
          · exact ih again
          · obtain ⟨_, _, impossible⟩ := leaves_ofUnending.mp paused
            cases impossible
    · obtain ⟨_, _, impossible⟩ := leaves_ofUnending.mp first
      cases impossible

end Task

/-! ## Answers of a node -/

theorem Node.Steady.morePages {ω : Type} {node : Node (Site ω)} (h : node.Steady) (height : Int)
    (total : Nat) (txs : List SearchTx) (results : List SearchResult) :
    (node.morePages height total txs results).outcome.Fixed := by
  induction txs, results using Node.morePages.induct total with
  | case1 txs results enough =>
    rw [Node.morePages_of_enough enough]
    exact Unending.fixed_done _
  | case2 txs results few ih =>
    rw [Node.morePages_of_few few]
    refine Task.fixed_bind (Task.fixed_ofCall (h.txPage height txs.length pageLimit)) fun page => ?_
    split
    · exact Unending.fixed_done _
    · next some => exact ih page some

theorem Node.Steady.txsAt {ω : Type} {node : Node (Site ω)} (h : node.Steady) (height : Int) :
    (node.txsAt height).outcome.Fixed := by
  refine Task.fixed_bind (Task.fixed_ofCall (h.txPage height 0 pageLimit)) fun first => ?_
  refine Task.fixed_bind (h.morePages height _ _ _) fun pages => ?_
  dsimp only
  split <;> exact Unending.fixed_done _

namespace Setting

variable {ω : Type} (p : Setting ω) (c : Config)

/-- Asking once for the results of a block can come to this. -/
def ResultsOnce (height : Int) (answer : Except NodeError BlockResults) : Prop :=
  ∃ w, (((p.node.blockResults height).run.run w).1.bind fun results =>
    results.foldFinalize.mapError fun e => .unreadable e.message) = answer

/-- Searching once for the transactions of a height can come to this. -/
def SearchesOnce (height : Int) (answer : Except NodeError SearchAnswer) : Prop :=
  ∃ es, (p.client.node.txsAt height).outcome.Leaves es answer

variable {p c} {height : Int}

theorem Results.once {answer : Except NodeError BlockResults} (h : p.Results height answer) :
    p.ResultsOnce height answer := by
  obtain ⟨es, tried⟩ := Task.leaves_retryFrom h
  obtain ⟨s, -, value⟩ := Task.leaves_ofCall.mp tried
  rw [Node.foldedResults_run] at value
  exact ⟨s.outside, value⟩

/-- Nothing was found because nobody searched, or as some search said. -/
theorem Searches.once {answer : Option SearchAnswer} (h : p.Searches c height answer) :
    c.indexer.skipTxSearch = true ∧ answer = none ∨
      c.indexer.skipTxSearch = false ∧
        ∃ tried, p.SearchesOnce height tried ∧ tried.toOption = answer := by
  unfold Searches Fetcher.search? at h
  split at h
  · next skips => exact .inl ⟨skips, h.2.symm⟩
  · next searches =>
    obtain ⟨_, tried, _, first, ⟨-, rfl⟩, -⟩ := Unending.leaves_bind.mp h
    exact .inr ⟨(Bool.not_eq_true _).mp searches, tried, Task.leaves_retryFrom first, rfl⟩

theorem steady_client (steady : p.node.Steady) : p.client.node.Steady where
  status s s' := steady.status s.outside s'.outside
  block height s s' := steady.block height s.outside s'.outside
  blockResults height s s' := steady.blockResults height s.outside s'.outside
  txPage height offset limit s s' := steady.txPage height offset limit s.outside s'.outside

theorem resultsOnce_unique (steady : p.node.Steady) {answer answer' : Except NodeError BlockResults}
    (h : p.ResultsOnce height answer) (h' : p.ResultsOnce height answer') : answer = answer' := by
  obtain ⟨w, rfl⟩ := h
  obtain ⟨w', rfl⟩ := h'
  rw [steady.blockResults height w w']

theorem searchesOnce_unique (steady : p.node.Steady)
    {answer answer' : Except NodeError SearchAnswer} (h : p.SearchesOnce height answer)
    (h' : p.SearchesOnce height answer') : answer = answer' := by
  obtain ⟨es, left⟩ := h
  obtain ⟨es', left'⟩ := h'
  exact (steady_client steady).txsAt height _ _ _ _ left left'

end Setting

end ChainIndex
