/-
The plan of a run. First come the failed heights that are attempted again, then what
the main strategy gives: all that is missing up to the tip, or the listed heights
that the node serves. The plan is made from the memory before the run. Whatever the
others do, the run never leaves it, and a run that comes to its end has pushed all
of it.
-/
import ChainIndex.Proofs.Planned

namespace ChainIndex

namespace Setting

variable {ω : Type} {p : Setting ω} {c : Config} {start : Site ω} {plan ps : List Request}

/-! ## Before the main strategy -/

/-- Waiting for the chain, where that is configured. -/
theorem pushes_awaitChain (honest : p.Honest) :
    p.Pushes c start plan (p.pipeline c).enqueuer.awaitChain.outcome ps fun o new => new = [] ∧
      (o = .ok () ∧ (c.indexer.waitForChain = true → ∃ status, p.Statuses (.ok status)) ∨
        c.indexer.waitForChain = true ∧ ∃ e, p.Statuses (.error e) ∧ o = .error (.node e)) := by
  unfold Enqueuer.awaitChain
  dsimp only
  split
  · next waits =>
    refine (pushes_waitForChain honest _ _).mono fun o new h => ⟨h.1, ?_⟩
    rcases h.2 with ⟨answered, value⟩ | refused
    · exact .inl ⟨value, fun _ => answered⟩
    · exact .inr ⟨waits, refused⟩
  · next hurries => exact pushes_done ⟨rfl, .inl ⟨rfl, fun waits => absurd waits hurries⟩⟩

theorem pushes_reattempt (honest : p.Honest) (sound : ¬p.CanFail)
    (fits : retried c start.memory <+: plan) :
    p.Pushes c start plan (p.pipeline c).enqueuer.reattempt.outcome [] fun o new =>
      o = .ok new ∧ new = retried c start.memory := by
  unfold retried at fits ⊢
  unfold Enqueuer.reattempt
  split
  · next again =>
    rw [if_pos (show c.indexer.reattemptFailedBlocks = true from again)] at fits ⊢
    have asked : p.Pushes c start plan (Task.ofCall EnqueueError.store
        ((p.pipeline c).enqueuer.store.unresolved c.chain.chainId)).outcome []
        fun o new => new = [] ∧ ∃ m, Reached start [] m ∧ o = .ok (m.unresolved c.chain.chainId) :=
      pushes_ask honest sound
    refine asked.task_bind_quiet (fun records h => ?_) fun e h => ?_
    · obtain ⟨m, reached, value⟩ := h
      cases value
      rw [eq_of_reached_nil reached]
      exact pushes_pushListed honest fits
    · obtain ⟨_, _, impossible⟩ := h
      cases impossible
  · next once =>
    rw [if_neg (show ¬c.indexer.reattemptFailedBlocks = true from once)]
    exact pushes_done ⟨rfl, rfl⟩

/-! ## Listed heights -/

/-- What a file with heights gives while the node reports one status: the listed
heights that it serves, up to the configured end. -/
def listed (p : Setting ω) (c : Config) (path : String)
    (reported : Except NodeError NodeStatus) : List Request :=
  match p.fileText path with
  | none => []
  | some content =>
    match HeightList.parse content, reported with
    | .ok heights, .ok status =>
      ((heights.filter fun h => status.earliest ≤ h && h ≤ status.latest).map
        c.indexer.fullRequest).takeWhile fun r => !c.indexer.pastEnd r.height
    | _, _ => []

theorem pushes_runBlockFile (honest : p.Honest) {reported : Except NodeError NodeStatus}
    (steady : ∀ answer, p.Statuses answer → answer = reported) (path : String)
    (fits : ps ++ p.listed c path reported <+: plan) :
    p.Pushes c start plan ((p.pipeline c).enqueuer.runBlockFile path).outcome ps fun _ new =>
      new = p.listed c path reported := by
  have asked : p.Pushes c start plan (Task.ofTask EnqueueError.node
      (p.pipeline c).enqueuer.client.status).outcome ps
      fun o new => new = [] ∧ o = reported.mapError .node :=
    ((pushes_status honest).mono fun answer _ h =>
      ⟨h.1, congrArg (Except.mapError _) (steady _ h.2)⟩).map
  unfold listed at fits ⊢
  unfold Enqueuer.runBlockFile
  rw [show (p.pipeline c).enqueuer.fileText path = p.fileText path from rfl]
  cases text : p.fileText path with
  | none => exact pushes_done rfl
  | some content =>
    rw [text] at fits
    dsimp only at fits ⊢
    cases parsed : HeightList.parse content with
    | error e => exact pushes_done rfl
    | ok heights =>
      rw [parsed] at fits
      cases reported with
      | error e => exact asked.task_bind_quiet (fun _ h => by cases h) fun _ _ => rfl
      | ok status =>
        refine asked.task_bind_quiet (fun answer h => ?_) fun _ h => by cases h
        cases h
        exact (pushes_pushListed honest fits).mono fun _ _ h => h.2

/-! ## Whole runs -/

/-- What the main strategy pushes comes after what is attempted again. -/
theorem pushes_runAll (honest : p.Honest) (sound : ¬p.CanFail) {main : List Request}
    (answers : c.indexer.waitForChain = true → ∀ e, ¬p.Statuses (.error e))
    (fits : retried c start.memory <+: plan)
    (then' : p.Pushes c start plan ((p.pipeline c).enqueuer.run
        (Strategy.select c.indexer (retried c start.memory))).outcome
      (retried c start.memory) fun _ new => new = main) :
    p.Pushes c start plan (p.pipeline c).enqueuer.runAll.outcome [] fun _ new =>
      new = retried c start.memory ++ main := by
  unfold Enqueuer.runAll
  refine (pushes_awaitChain honest).task_bind_quiet (fun _ _ => ?_) fun e h => ?_
  · refine (pushes_reattempt honest sound fits).task_bind (fun again new h => ?_)
      fun _ _ h => by cases h.1
    obtain ⟨⟨⟩, rfl⟩ := h
    rw [List.nil_append]
    refine then'.task_bind (fun later new h => ?_) fun _ new h => ?_
    · subst h
      exact pushes_done (by rw [List.append_nil])
    · exact congrArg _ h
  · rcases h with ⟨impossible, -⟩ | ⟨waits, e, refused, -⟩
    · cases impossible
    · exact absurd refused (answers waits e)

/-- If the node gives nothing but errors to one who waits for it, then nothing is
pushed. -/
theorem pushes_runAll_refused (honest : p.Honest) (waits : c.indexer.waitForChain = true)
    (refuses : ∀ status, ¬p.Statuses (.ok status)) :
    p.Pushes c start plan (p.pipeline c).enqueuer.runAll.outcome [] fun _ new => new = [] := by
  unfold Enqueuer.runAll
  refine (pushes_awaitChain honest).task_bind_quiet (fun _ h => ?_) fun _ _ => rfl
  rcases h with ⟨-, answered⟩ | ⟨-, e, -, impossible⟩
  · obtain ⟨status, answered⟩ := answered waits
    exact absurd answered (refuses status)
  · cases impossible

/-- The plan of a run that follows the tip while the node reports one latest height. -/
theorem pushes_runAll_tip (honest : p.Honest) (sound : ¬p.CanFail)
    (wf : start.memory.WellFormed) {latest : Except NodeError Int}
    (constant : ∀ answer, p.Statuses answer → answer.map (·.latest) = latest)
    (follows : c.indexer.reindexMessageType.isEmpty = true ∧ c.indexer.blockInputFile.isEmpty = true)
    (answers : c.indexer.waitForChain = true → ∀ e, ¬p.Statuses (.error e)) :
    let whole := retried c start.memory ++
      scanned c start.memory (retried c start.memory) c.indexer.start latest
    p.Pushes c start whole (p.pipeline c).enqueuer.runAll.outcome [] fun _ new => new = whole := by
  intro whole
  have strategy : Strategy.select c.indexer (retried c start.memory) =
      .tipFollowing (retried c start.memory) := by
    simp [Strategy.select, follows.1, follows.2]
  refine pushes_runAll honest sound answers (List.prefix_append _ _) ?_
  rw [strategy]
  have nothing : ∀ r ∈ ([] : List Request), r.height < c.indexer.start :=
    fun _ h => absurd h List.not_mem_nil
  have fits : retried c start.memory ++ [] ++
      scanned c start.memory (retried c start.memory) c.indexer.start latest <+: whole :=
    (List.append_nil (retried c start.memory)).symm ▸ List.prefix_refl _
  have scan := pushes_scan honest sound wf (pairwise_retried c start.memory) constant p.patience
    nothing fits
  rwa [List.append_nil] at scan

/-- The plan of a run over listed heights while the node reports one status. -/
theorem pushes_runAll_listed (honest : p.Honest) (sound : ¬p.CanFail)
    {reported : Except NodeError NodeStatus}
    (steady : ∀ answer, p.Statuses answer → answer = reported)
    (listed : c.indexer.reindexMessageType.isEmpty = true ∧ c.indexer.blockInputFile.isEmpty = false)
    (answers : c.indexer.waitForChain = true → ∀ e, ¬p.Statuses (.error e)) :
    let whole := retried c start.memory ++ p.listed c c.indexer.blockInputFile reported
    p.Pushes c start whole (p.pipeline c).enqueuer.runAll.outcome [] fun _ new => new = whole := by
  intro whole
  have strategy : Strategy.select c.indexer (retried c start.memory) =
      .blockFile c.indexer.blockInputFile := by
    simp [Strategy.select, listed.1, listed.2]
  refine pushes_runAll honest sound answers (List.prefix_append _ _) ?_
  rw [strategy]
  exact pushes_runBlockFile honest steady _ (List.prefix_refl _)

/-- The plan of a run while the node reports one status: nothing if it waits for a
node that gives errors, or else what is attempted again and what the main strategy
gives after that. -/
def wholePlan (p : Setting ω) (c : Config) (m : MemoryStore)
    (reported : Except NodeError NodeStatus) : List Request :=
  if c.indexer.waitForChain = true ∧ reported.toOption = none then []
  else if c.indexer.blockInputFile.isEmpty then
    retried c m ++ scanned c m (retried c m) c.indexer.start (reported.map (·.latest))
  else retried c m ++ p.listed c c.indexer.blockInputFile reported

theorem pushes_runAll_steady (honest : p.Honest) (sound : ¬p.CanFail)
    (wf : start.memory.WellFormed) {reported : Except NodeError NodeStatus}
    (steady : ∀ answer, p.Statuses answer → answer = reported)
    (whole : c.indexer.reindexMessageType.isEmpty = true) :
    p.Pushes c start (p.wholePlan c start.memory reported) (p.pipeline c).enqueuer.runAll.outcome []
      fun _ new => new = p.wholePlan c start.memory reported := by
  unfold wholePlan
  split
  · next refused =>
    refine pushes_runAll_refused honest refused.1 fun status answered => ?_
    rw [← steady _ answered] at refused
    cases refused.2
  · next served =>
    have answers : c.indexer.waitForChain = true → ∀ e, ¬p.Statuses (.error e) := by
      intro waits e answered
      rw [← steady _ answered] at served
      exact served ⟨waits, rfl⟩
    split
    · next follows =>
      exact pushes_runAll_tip honest sound wf (fun answer answered =>
        congrArg (Except.map _) (steady answer answered)) ⟨whole, follows⟩ answers
    · next lists =>
      exact pushes_runAll_listed honest sound steady
        ⟨whole, (Bool.not_eq_true _).mp lists⟩ answers

/-! ## Keeping to the plan -/

/-- Without faults of the store no run fails. -/
theorem alive_of_sound (honest : p.Honest) (sound : ¬p.CanFail) {schedule : List (List Action)}
    {result : Option (Except PipelineError RunSummary)} {s : RunState (Site ω)}
    (run : (p.pipeline c).runState (.start start schedule) = (result, s)) : s.failure = none := by
  cases failed : s.failure with
  | none => rfl
  | some e => exact absurd ((inScope_of_run honest run).failure (by rw [failed]; rfl)) sound

/-- **A run keeps to its plan**, and one that has come to its end has pushed all of
it. -/
theorem pushed_of_run (honest : p.Honest) (sound : ¬p.CanFail)
    (planned : p.Pushes c start plan (p.pipeline c).enqueuer.runAll.outcome [] fun _ new =>
      new = plan)
    {schedule : List (List Action)} {result : Option (Except PipelineError RunSummary)}
    {s : RunState (Site ω)}
    (run : (p.pipeline c).runState (.start start schedule) = (result, s)) :
    s.pushed <+: plan ∧ (result.isSome = true → s.pushed = plan) := by
  have alive := alive_of_sound honest sound run
  have at_start : p.At start plan [] (.start start schedule) :=
    ⟨inScope_start _ _, rfl, List.nil_prefix⟩
  obtain ⟨follows, ends⟩ := Pipeline.drive_ensures (planned _ at_start) Pipeline.drift_before
    (fun _ _ drift follows => drift.2 ▸ follows) List.nil_prefix
  cases run
  have finish : (p.pipeline c).Drift Quiet _ ((p.pipeline c).finish ((p.pipeline c).drive
      (p.pipeline c).enqueuer.runAll.outcome (.start start schedule)).2) :=
    Pipeline.drift_finish _
  have finished := finish.2
  refine ⟨finished ▸ follows, fun some => finished.trans ?_⟩
  cases value : ((p.pipeline c).drive (p.pipeline c).enqueuer.runAll.outcome
      (.start start schedule)).1 with
  | none =>
    unfold Pipeline.result at some
    rw [alive, value] at some
    cases some
  | some o =>
    obtain ⟨new, there, rfl⟩ := ends o value
    exact there.pushed

end Setting

end ChainIndex
