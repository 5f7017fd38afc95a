/-
What each part of the enqueuer pushes, if no call of the store fails. The answers
that it gets from the store are those of a memory that the run may have changed
meanwhile; but following the tip reads the status of a height only before anything
else than failed heights was pushed at or above it, and what those may have changed
it does not ask for. So what is pushed can be told from the memory before the run.
-/
import ChainIndex.Proofs.Pushes

namespace ChainIndex

namespace Setting

variable {ω : Type} {p : Setting ω} {c : Config} {start : Site ω} {plan ps rs : List Request}

/-! ## Questions -/

/-- The node can answer this when it is asked for its status. -/
def Statuses (p : Setting ω) (answer : Except NodeError NodeStatus) : Prop :=
  ∃ w, (p.node.status.run.run w).1 = answer

theorem pushes_pause (honest : p.Honest) (span : Span) :
    p.Pushes c start plan ((p.pipeline c).enqueuer.pause span).outcome ps
      fun o new => new = [] ∧ ∃ u, o = .ok u :=
  pushes_of_drift_ofUnending honest ((Pipeline.always_drift p.always_client).pause span)

theorem pushes_throttle (honest : p.Honest) :
    p.Pushes c start plan (p.pipeline c).enqueuer.throttle.outcome ps
      fun o new => new = [] ∧ ∃ u, o = .ok u := by
  unfold Enqueuer.throttle
  split
  · exact pushes_done ⟨rfl, (), rfl⟩
  · exact pushes_pause honest _

/-- The status is one that the node can answer with, whatever was tried before. -/
theorem pushes_status (honest : p.Honest) :
    p.Pushes c start plan (p.pipeline c).enqueuer.client.status.outcome ps
      fun o new => new = [] ∧ p.Statuses o := by
  refine Pushes.retryFrom honest (Pipeline.always_drift p.always_client).pause ?_ _ _
  refine pushes_ofState honest fun s here => ⟨[], ?_, rfl, s.world.outside, ?_⟩
  · rw [List.append_nil]
    exact here.drift (c := c) honest (Pipeline.drift_world (quiet_setOutside _ _))
  · exact (mapError_id _).symm

/-- The store answers from a memory that can be there. -/
theorem pushes_ask {α : Type} (honest : p.Honest) (sound : ¬p.CanFail) {call : StoreCall}
    {question : MemoryStore → α} :
    p.Pushes c start plan (Task.ofCall EnqueueError.store
        ((Site.ask (p.fault call) question).onPart (·.world)
          fun world (s : RunState (Site ω)) => { s with world })).outcome ps
      fun o new => new = [] ∧ ∃ m, Reached start ps m ∧ o = .ok (question m) := by
  refine pushes_ofState honest fun s here =>
    ⟨[], ?_, rfl, s.world.memory, here.reached, ?_⟩
  · rw [List.append_nil]
    exact here.drift (c := c) honest (Pipeline.drift_world (quiet_ask _ _ _))
  · change Except.mapError _ ((Site.ask (p.fault call) question).run.run s.world).1 = _
    rw [Site.ask, Site.call_run]
    split
    · next e fails =>
      refine absurd ⟨call, s.world.outside, ?_⟩ sound
      rw [fails]
      exact Option.some_ne_none e
    · rfl

/-! ## Pushing -/

theorem pushes_push (honest : p.Honest) (r : Request) (fits : ps ++ [r] <+: plan) (rounds : Nat) :
    p.Pushes c start plan ((p.pipeline c).push r rounds) ps
      fun pushed new => pushed = true ∧ new = [r] := by
  induction rounds with
  | zero => exact fun s _ => Unending.ensures_never _ _
  | succ rounds ih =>
    have offered : p.Pushes c start plan (modifyGet (Pipeline.offer r)) ps
        fun pushed new => pushed = true ∧ new = [r] ∨ pushed = false ∧ new = [] := by
      refine pushes_ofState honest fun s here => ?_
      change ∃ new, p.At start plan (ps ++ new) (Pipeline.offer r s).2 ∧
        ((Pipeline.offer r s).1 = true ∧ new = [r] ∨ (Pipeline.offer r s).1 = false ∧ new = [])
      unfold Pipeline.offer
      split
      · refine ⟨[r], ⟨here.scope.step (c := c) honest (.push r s), ?_, fits⟩, .inl ⟨rfl, rfl⟩⟩
        exact congrArg (· ++ [r]) here.pushed
      · exact ⟨[], by rwa [List.append_nil], .inr ⟨rfl, rfl⟩⟩
    refine offered.bind fun pushed new h => ?_
    rcases h with ⟨rfl, rfl⟩ | ⟨rfl, rfl⟩
    · exact pushes_done ⟨rfl, rfl⟩
    · rw [List.append_nil]
      refine Pushes.bind_quiet (Q := fun _ => True) ?_ fun _ _ => ih
      refine pushes_ofState honest fun s here => ⟨[], ?_, rfl, trivial⟩
      rw [List.append_nil]
      exact here.drift honest (Pipeline.drift_meanwhile s)

theorem pushes_pushOne (honest : p.Honest) (r : Request) (fits : ps ++ [r] <+: plan) :
    p.Pushes c start plan (Enqueuer.push (p.pipeline c).enqueuer r).outcome ps
      fun o new => o = .ok () ∧ new = [r] := by
  refine (pushes_push honest r fits _).ofUnending.task_bind (fun pushed new h => ?_) ?_
  · obtain ⟨_, ⟨⟩, rfl, rfl⟩ := h
    exact pushes_done ⟨rfl, rfl⟩
  · rintro _ _ ⟨_, impossible, -⟩
    cases impossible

theorem pushes_pushAll (honest : p.Honest) (fits : ps ++ rs <+: plan) :
    p.Pushes c start plan ((p.pipeline c).enqueuer.pushAll rs).outcome ps
      fun o new => o = .ok () ∧ new = rs := by
  induction rs generalizing ps with
  | nil => exact pushes_done ⟨rfl, rfl⟩
  | cons r rs ih =>
    rw [List.append_cons] at fits
    refine (pushes_pushOne honest r ((List.prefix_append _ _).trans fits)).task_bind
      (fun _ new h => ?_) fun _ _ h => by cases h.1
    obtain ⟨-, rfl⟩ := h
    exact (ih fits).mono fun o new h => ⟨h.1, by rw [h.2]; rfl⟩

/-- Of listed requests those before the first one behind the end are pushed. -/
theorem pushes_pushListed (honest : p.Honest)
    (fits : ps ++ rs.takeWhile (fun r => !c.indexer.pastEnd r.height) <+: plan) :
    p.Pushes c start plan ((p.pipeline c).enqueuer.pushListed rs).outcome ps fun o new =>
      o = .ok new ∧ new = rs.takeWhile fun r => !c.indexer.pastEnd r.height := by
  induction rs generalizing ps with
  | nil => exact pushes_done ⟨rfl, rfl⟩
  | cons r rs ih =>
    unfold Enqueuer.pushListed
    split
    · next ends =>
      have ends : c.indexer.pastEnd r.height = true := ends
      rw [List.takeWhile_cons_of_neg (by simp [ends])]
      exact pushes_done ⟨rfl, rfl⟩
    · next goes =>
      have goes : c.indexer.pastEnd r.height = false := (Bool.not_eq_true _).mp goes
      have first := List.takeWhile_cons_of_pos (p := fun r : Request => !c.indexer.pastEnd r.height)
        (a := r) (l := rs) (by rw [goes]; rfl)
      rw [first, List.append_cons] at fits
      rw [first]
      refine (pushes_pushOne honest r ((List.prefix_append _ _).trans fits)).task_bind
        (fun _ new h => ?_) fun _ _ h => by cases h.1
      obtain ⟨-, rfl⟩ := h
      refine (pushes_throttle honest).task_then fun _ => ?_
      refine (ih fits).task_bind (fun later new h => ?_) fun _ _ h => by cases h.1
      obtain ⟨⟨⟩, rfl⟩ := h
      exact pushes_done ⟨by rw [List.append_nil]; rfl, by rw [List.append_nil]; rfl⟩

/-! ## Waiting -/

theorem pushes_waitForRefill (honest : p.Honest) (rounds : Nat) :
    p.Pushes c start plan ((p.pipeline c).enqueuer.waitForRefill rounds).outcome ps
      fun o new => new = [] ∧ ∃ u, o = .ok u := by
  induction rounds with
  | zero => exact fun s _ => Unending.ensures_never _ _
  | succ rounds ih =>
    unfold Enqueuer.waitForRefill
    refine Pushes.task_then ?_ fun n => ?_
    · exact pushes_of_drift_ofUnending honest (Unending.always_ofState fun s => .refl s)
    · split
      · exact pushes_done ⟨rfl, (), rfl⟩
      · -- The queue of a run is never closed.
        have open' : p.Pushes c start plan (Unending.ofState (p.pipeline c).queue.closed) ps
            fun closed new => new = [] ∧ closed = false :=
          pushes_ofState honest fun s here => ⟨[], by rwa [List.append_nil], rfl, rfl⟩
        refine Pushes.task_bind_quiet (Q := fun o => o = .ok false) ?_ (fun closed h => ?_)
          fun _ h => by cases h
        · exact open'.ofUnending.mono fun o new ⟨closed, value, nothing, no⟩ => ⟨nothing, no ▸ value⟩
        · cases h
          exact (pushes_pause honest _).task_then fun _ => ih

/-- Waiting for the chain comes to its end only if the node answers at all, and an
error is the node's. -/
theorem pushes_waitForChain (honest : p.Honest) (delay : Span) (rounds : Nat) :
    p.Pushes c start plan ((p.pipeline c).enqueuer.waitForChain delay rounds).outcome ps
      fun o new => new = [] ∧
        ((∃ status, p.Statuses (.ok status)) ∧ o = .ok () ∨
          ∃ e, p.Statuses (.error e) ∧ o = .error (.node e)) := by
  induction rounds with
  | zero => exact fun s _ => Unending.ensures_never _ _
  | succ rounds ih =>
    unfold Enqueuer.waitForChain
    have asked : p.Pushes c start plan (Task.ofTask EnqueueError.node
        (p.pipeline c).enqueuer.client.status).outcome ps
        fun o new => new = [] ∧ ∃ answer, p.Statuses answer ∧ o = answer.mapError .node :=
      ((pushes_status honest).mono fun answer _ h => ⟨h.1, answer, h.2, rfl⟩).map
    refine asked.task_bind_quiet (fun status h => ?_) fun e h => ?_
    · obtain ⟨answer, answered, value⟩ := h
      cases answer with
      | error e => cases value
      | ok status =>
        split
        · exact (pushes_pause honest _).task_then fun _ => ih
        · exact pushes_done ⟨rfl, .inl ⟨⟨status, answered⟩, rfl⟩⟩
    · obtain ⟨answer, answered, value⟩ := h
      cases answer with
      | error e =>
        cases value
        exact ⟨rfl, .inr ⟨e, answered, rfl⟩⟩
      | ok status => cases value

/-! ## Following the tip -/

/-- The last height that is asked for while the chain ends here. -/
def lastHeight (c : IndexerConfig) (latest : Int) : Int :=
  if c.endBlock = -1 then latest else min latest c.endBlock

/-- What following the tip pushes from a height on, while the chain ends here or the
node does not say where. -/
def scanned (c : Config) (m : MemoryStore) (inFlight : List Request) (current : Int) :
    Except NodeError Int → List Request
  | .ok latest => missingRequests c m inFlight current (lastHeight c.indexer latest)
  | .error _ => []

theorem lt_of_pastEnd {i : IndexerConfig} {height : Int} (h : i.pastEnd height = true)
    (latest : Int) : lastHeight i latest < height := by
  unfold IndexerConfig.pastEnd at h
  unfold lastHeight
  have h : i.endBlock ≠ -1 ∧ i.endBlock < height := by simpa using h
  rw [if_neg h.1]
  omega

/-- A window has at least one height and none behind the last. -/
theorem windowEnd_bounds {i : IndexerConfig} {current latest : Int} {capacity : Nat}
    (room : 0 < capacity) (inside : i.pastEnd current = false) (known : current ≤ latest) :
    current ≤ Enqueuer.windowEnd i capacity current latest ∧
      Enqueuer.windowEnd i capacity current latest ≤ lastHeight i latest := by
  have inside : i.endBlock = -1 ∨ current ≤ i.endBlock := by
    simpa [IndexerConfig.pastEnd, Classical.or_iff_not_imp_left] using inside
  unfold Enqueuer.windowEnd lastHeight
  dsimp only
  split <;> omega

theorem height_of_indexes {e : StoreEffect} {key : String × Int × DataKind}
    (h : e.indexes? = some key) : e.height = key.2.1 := by
  cases e with
  | recorded r => cases h
  | missed r => cases h
  | wroteTxs b =>
    change (if b.isComplete then some (b.chainId, b.height, .transactions) else none) = some key at h
    split at h
    · cases h
      rfl
    · cases h
  | wroteEvents b =>
    cases h
    rfl

/-- What the run has done to the memory by the time a window is looked at does not
show in what the window is missing. -/
theorem missingRequests_of_reached (wf : start.memory.WellFormed) {inFlight done : List Request}
    (once : inFlight.Pairwise fun r r' => r.height < r'.height) {low high : Int}
    (behind : ∀ r ∈ done, r.height < low) {m : MemoryStore}
    (reached : Reached start (inFlight ++ done) m) :
    missingRequests c m inFlight low high = missingRequests c start.memory inFlight low high := by
  obtain ⟨es, rfl, covered⟩ := reached
  refine missingRequests_replay wf fun e he height kind above indexes => ?_
  obtain ⟨r, hr, same, asks⟩ := covered e he
  have here : r.height = height := same.trans (height_of_indexes indexes)
  rcases List.mem_append.mp hr with hr | hr
  · exact here ▸ isPending_of_mem once hr (asks _ indexes)
  · have := behind r hr
    omega

theorem pushes_windowRequests (honest : p.Honest) (sound : ¬p.CanFail) (inFlight : List Request)
    (low high : Int) :
    p.Pushes c start plan ((p.pipeline c).enqueuer.windowRequests inFlight low high).outcome ps
      fun o new => new = [] ∧ ∃ m, Reached start ps m ∧
        o = .ok (missingRequests c m inFlight low high) := by
  have asked : p.Pushes c start plan (Task.ofCall EnqueueError.store
      ((p.pipeline c).enqueuer.store.status c.chain.chainId low high)).outcome ps
      fun o new => new = [] ∧ ∃ m, Reached start ps m ∧ o = .ok (m.status c.chain.chainId low high) :=
    pushes_ask honest sound
  refine asked.task_bind_quiet (fun statuses h => ?_) fun e h => ?_
  · obtain ⟨m, reached, value⟩ := h
    cases value
    have same : (heightRange low high).map
          (missingRequest c.indexer inFlight (m.status c.chain.chainId low high)) =
        (heightRange low high).map
          (missingRequest c.indexer inFlight (m.statuses c.chain.chainId)) := by
      refine List.map_congr_left fun height hheight => ?_
      obtain ⟨above, below⟩ := mem_heightRange.mp hheight
      exact missingRequest_status _ _ above below
    exact pushes_done ⟨rfl, m, reached, congrArg (fun rs => Except.ok (rs.filter (!·.isEmpty))) same⟩
  · obtain ⟨_, _, impossible⟩ := h
    cases impossible

theorem pushes_latestHeight (honest : p.Honest) {latest : Except NodeError Int}
    (constant : ∀ answer, p.Statuses answer → answer.map (·.latest) = latest) :
    p.Pushes c start plan (Task.ofTask EnqueueError.node
      (p.pipeline c).enqueuer.client.latestHeight).outcome ps
      fun o new => new = [] ∧ o = latest.mapError .node := by
  refine Pushes.map ((pushes_status honest).task_bind_quiet (fun status h => ?_) fun e h => ?_)
  · exact pushes_done ⟨rfl, congrArg (Except.mapError _) (constant _ h)⟩
  · exact ⟨rfl, congrArg (Except.mapError _) (constant _ h)⟩

/-- A window gives what is missing from it before the run, and what comes after it
goes on from there. -/
theorem pushes_window {ε : Type} (honest : p.Honest) (sound : ¬p.CanFail)
    (wf : start.memory.WellFormed) {inFlight : List Request}
    (once : inFlight.Pairwise fun r r' => r.height < r'.height) {done : List Request}
    {low high : Int} (behind : ∀ r ∈ done, r.height < low)
    (fits : inFlight ++ done ++ missingRequests c start.memory inFlight low high <+: plan)
    {later : List Request → Task (RunState (Site ω)) EnqueueError ε}
    {post : Except EnqueueError ε → List Request → Prop}
    (rest : p.Pushes c start plan (later (missingRequests c start.memory inFlight low high)).outcome
      (inFlight ++ done ++ missingRequests c start.memory inFlight low high)
      fun o new => post o (missingRequests c start.memory inFlight low high ++ new)) :
    p.Pushes c start plan (do
      let requests ← (p.pipeline c).enqueuer.windowRequests inFlight low high
      (p.pipeline c).enqueuer.pushAll requests
      (p.pipeline c).enqueuer.waitForRefill (p.pipeline c).enqueuer.client.patience
      (p.pipeline c).enqueuer.throttle
      later requests).outcome (inFlight ++ done) post := by
  refine (pushes_windowRequests honest sound _ _ _).task_bind_quiet (fun requests h => ?_)
    fun e h => by
      obtain ⟨_, _, impossible⟩ := h
      cases impossible
  obtain ⟨m, reached, ⟨⟩⟩ := h
  rw [missingRequests_of_reached wf once behind reached]
  refine (pushes_pushAll honest fits).task_bind (fun _ new h => ?_) fun _ _ h => by cases h.1
  obtain ⟨-, rfl⟩ := h
  refine (pushes_waitForRefill honest _).task_then fun _ => ?_
  exact (pushes_throttle honest).task_then fun _ => rest

/-- **Following the tip goes by the memory before the run.** While the node reports
the same latest height, what is missing up to there is pushed: neither more nor less
is found missing because of what was written meanwhile. -/
theorem pushes_scan (honest : p.Honest) (sound : ¬p.CanFail) (wf : start.memory.WellFormed)
    {inFlight : List Request} (once : inFlight.Pairwise fun r r' => r.height < r'.height)
    {latest : Except NodeError Int}
    (constant : ∀ answer, p.Statuses answer → answer.map (·.latest) = latest)
    (rounds : Nat) {done : List Request} {current : Int} (behind : ∀ r ∈ done, r.height < current)
    (fits : inFlight ++ done ++ scanned c start.memory inFlight current latest <+: plan) :
    p.Pushes c start plan ((p.pipeline c).enqueuer.scan inFlight rounds current).outcome
      (inFlight ++ done) fun _ new => new = scanned c start.memory inFlight current latest := by
  induction rounds generalizing done current with
  | zero => exact fun s _ => Unending.ensures_never _ _
  | succ rounds ih =>
    have asked : p.Pushes c start plan (Task.ofTask EnqueueError.node
        (p.pipeline c).enqueuer.client.latestHeight).outcome (inFlight ++ done)
        fun o new => new = [] ∧ o = latest.mapError .node := pushes_latestHeight honest constant
    unfold Enqueuer.scan
    dsimp only
    split
    · next ends =>
      cases latest with
      | error e => exact pushes_done rfl
      | ok n => exact pushes_done (missingRequests_of_lt (lt_of_pastEnd ends n)).symm
    · next goes =>
      have goes : c.indexer.pastEnd current = false := (Bool.not_eq_true _).mp goes
      cases latest with
      | error e => exact asked.task_bind_quiet (fun _ h => by cases h) fun _ _ => rfl
      | ok n =>
        refine asked.task_bind_quiet (fun latest h => ?_) fun _ h => by cases h
        cases h
        split
        · next caughtUp =>
          split
          · refine pushes_done (missingRequests_of_lt ?_).symm
            unfold lastHeight
            split <;> omega
          · exact (pushes_pause honest _).task_then fun _ => ih behind fits
        · next known =>
          have room : 0 < Pipeline.requestCapacity := by decide
          obtain ⟨some, inside⟩ := windowEnd_bounds room goes (Int.not_lt.mp known)
          -- What is left is missing in this window or behind it.
          have parts : missingRequests c start.memory inFlight current _ ++ _ = _ :=
            missingRequests_append (Int.le_add_one some) inside
          change inFlight ++ done ++ missingRequests c start.memory inFlight current
            (lastHeight c.indexer n) <+: plan at fits
          rw [← parts, ← List.append_assoc] at fits
          refine pushes_window honest sound wf once behind ((List.prefix_append _ _).trans fits) ?_
          rw [List.append_assoc inFlight done] at fits ⊢
          refine (ih (fun r hr => ?_) fits).task_bind (fun later new h => ?_) fun _ new h => ?_
          · rcases List.mem_append.mp hr with hr | hr
            · have := behind r hr
              omega
            · have := (height_of_mem_missingRequests hr).2
              omega
          · subst h
            exact pushes_done (by rw [List.append_nil]; exact parts)
          · subst h
            exact parts

end Setting

end ChainIndex
