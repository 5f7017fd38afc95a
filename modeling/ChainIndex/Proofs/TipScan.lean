/-
A scan visits every height once. Whatever latest heights the node reports and whatever the
store answers, the windows that a scan reads follow one another without a gap, from its
first height to a cursor that lies behind the end or behind the tip; and what it pushes is
what the status of each of these heights leaves to be asked for. While the tip stays where
it is and the queue is emptied, each round takes the scan at least one height further.
-/
import ChainIndex.Proofs.EnqueueLog
import ChainIndex.Proofs.PushedOnce

namespace ChainIndex

/-- Where no height stands twice, what is pending is what some request asks for. -/
theorem isPending_eq_false_iff {inFlight : List Request}
    (once : (inFlight.map (·.height)).Nodup) (height : Int) (kind : DataKind) :
    isPending inFlight height kind = false ↔
      ∀ r ∈ inFlight, r.height = height → r.asks kind = false := by
  constructor
  · rintro free r mem rfl
    have unique : ∀ r' ∈ inFlight.reverse, (r'.height == r.height) = true → r' = r := by
      intro r' mem' same
      exact List.inj_on_of_nodup_map once (List.mem_reverse.mp mem') mem (by simpa using same)
    rwa [isPending, find?_of_unique (List.mem_reverse.mpr mem) (by simp) unique] at free
  · intro free
    by_contra pending
    obtain ⟨r, mem, same, asks⟩ := exists_of_isPending ((Bool.not_eq_false _).mp pending)
    rw [free r mem same] at asks
    cases asks

namespace Enqueuer

open EnqueueLog

variable {σ : Type} {q : Enqueuer σ} {c : IndexerConfig} {inFlight requests : List Request}
  {start cursor : Int} {log : EnqueueLog σ}

/-! ## One window after another -/

/-- What a scan has done that started at one height and has stopped at another. -/
structure Scanned (c : IndexerConfig) (inFlight : List Request) (start cursor : Int)
    (log : EnqueueLog σ) (requests : List Request) : Prop where
  forward : start ≤ cursor
  some : ∀ w ∈ log.windows, w.low ≤ w.high
  covered : (log.windows.flatMap fun w => heightRange w.low w.high) = heightRange start (cursor - 1)
  asked : requests = log.windows.flatMap fun w => windowed c inFlight w.low w.high w.statuses
  pushed : log.pushes = requests
  inside : ∀ w ∈ log.windows,
    c.pastEnd w.high = false ∧ ∃ status ∈ log.reports, w.high ≤ status.latest
  stopped : c.pastEnd cursor = true ∨ c.exitWhenCaughtUp = true ∧
    ∃ status, log.reports.getLast? = Option.some status ∧ status.latest < cursor

/-- A scan that stops where it starts. -/
theorem scanned_nothing (unread : log.windows = []) (unpushed : log.pushes = [])
    (stopped : c.pastEnd start = true ∨ c.exitWhenCaughtUp = true ∧
      ∃ status, log.reports.getLast? = Option.some status ∧ status.latest < start) :
    Scanned c inFlight start start log [] where
  forward := Int.le_refl _
  some w mem := by
    rw [unread] at mem
    cases mem
  covered := by
    rw [unread, heightRange_of_lt (by omega)]
    rfl
  asked := by rw [unread]; rfl
  pushed := unpushed
  inside w mem := by
    rw [unread] at mem
    cases mem
  stopped := stopped

section

variable (errors : List NodeError) (status : NodeStatus)

/-- A report before the last one is not the last. -/
theorem Scanned.stopped_after (h : Scanned c inFlight start cursor log requests) :
    c.pastEnd cursor = true ∨ c.exitWhenCaughtUp = true ∧ ∃ last,
      (status :: log.reports).getLast? = Option.some last ∧ last.latest < cursor := by
  rcases h.stopped with past | ⟨exits, last, reported, behind⟩
  · exact .inl past
  · refine .inr ⟨exits, last, ?_, behind⟩
    rw [List.getLast?_cons, reported]
    rfl

/-- A look at a tip that the scan has passed. -/
theorem Scanned.waited (h : Scanned c inFlight start cursor log requests) :
    Scanned c inFlight start cursor (ofStatus errors status ++ log) requests where
  forward := h.forward
  some := by simpa using h.some
  covered := by simpa using h.covered
  asked := by simpa using h.asked
  pushed := by simpa using h.pushed
  inside := by
    rw [windows_append, windows_ofStatus, reports_append, reports_ofStatus]
    intro w mem
    obtain ⟨inside, last, reported, below⟩ := h.inside w mem
    exact ⟨inside, last, List.mem_cons_of_mem _ reported, below⟩
  stopped := by
    rw [reports_append, reports_ofStatus]
    exact h.stopped_after status

variable {low high : Int} {statuses : List BlockStatus}

/-- The entries of a window, from the look at the tip to the pushes. -/
def ofWindow (errors : List NodeError) (status : NodeStatus) (low high : Int)
    (statuses : List BlockStatus) (rs : List Request) : EnqueueLog σ :=
  ofStatus errors status ++ ([.window low high (.ok statuses)] ++ ofPushes rs)

theorem windows_ofWindow (rs : List Request) (log : EnqueueLog σ) :
    windows (ofWindow errors status low high statuses rs ++ log) =
      ⟨low, high, statuses⟩ :: log.windows := by
  simp [ofWindow]

theorem reports_ofWindow (rs : List Request) (log : EnqueueLog σ) :
    reports (ofWindow errors status low high statuses rs ++ log) = status :: log.reports := by
  simp [ofWindow]

theorem pushes_ofWindow (rs : List Request) (log : EnqueueLog σ) :
    pushes (ofWindow errors status low high statuses rs ++ log) = rs ++ log.pushes := by
  simp [ofWindow]

/-- A window, and the scan that goes on behind it. -/
theorem Scanned.window (h : Scanned c inFlight (high + 1) cursor log requests)
    (statuses : List BlockStatus) (some : low ≤ high) (inside : c.pastEnd high = false)
    (known : high ≤ status.latest) :
    let new := windowed c inFlight low high statuses
    Scanned c inFlight low cursor (ofWindow errors status low high statuses new ++ log)
      (new ++ requests) where
  forward := by
    have := h.forward
    omega
  some := by
    rw [windows_ofWindow]
    exact List.forall_mem_cons.mpr ⟨some, h.some⟩
  covered := by
    have forward := h.forward
    rw [windows_ofWindow, List.flatMap_cons, h.covered]
    exact heightRange_append (show low ≤ high + 1 by omega) (show high ≤ cursor - 1 by omega)
  asked := by rw [windows_ofWindow, List.flatMap_cons, ← h.asked]
  pushed := by rw [pushes_ofWindow, h.pushed]
  inside := by
    rw [windows_ofWindow, reports_ofWindow]
    refine List.forall_mem_cons.mpr ⟨⟨inside, status, List.mem_cons_self, known⟩, fun w mem => ?_⟩
    obtain ⟨inside, last, reported, below⟩ := h.inside w mem
    exact ⟨inside, last, List.mem_cons_of_mem _ reported, below⟩
  stopped := by
    rw [reports_ofWindow]
    exact h.stopped_after status

end

/-- Windows do not go further than the node has reported. -/
theorem lastHeight_le (c : IndexerConfig) (latest : Int) :
    Setting.lastHeight c latest ≤ latest := by
  unfold Setting.lastHeight
  split <;> omega

theorem logsOk_latestHeight (q : Enqueuer σ) :
    Task.LogsOk (Task.ofTask EnqueueError.node q.logged.client.latestHeight) fun latest new =>
      ∃ errors status, new = ofStatus errors status ∧ status.latest = latest := by
  refine Task.LogsOk.ofTask (q.logsOk_status.bind ?_)
  rintro status _ ⟨errors, rfl⟩
  exact Task.logsOk_pure ⟨errors, status, List.append_nil _, rfl⟩

theorem logsOk_windowRequests (q : Enqueuer σ) (inFlight : List Request) (low high : Int) :
    Task.LogsOk (q.logged.windowRequests inFlight low high) fun requests new => ∃ statuses,
      new = [.window low high (.ok statuses)] ∧
        requests = windowed q.config.indexer inFlight low high statuses := by
  have read : Task.LogsOk (Task.ofCall EnqueueError.store
      (q.logged.store.status q.logged.chainId low high)) fun statuses new =>
        ∃ s, ((q.store.status q.chainId low high).run.run s).1 = .ok statuses ∧
          new = [.window low high (.ok statuses)] :=
    Task.logsOk_ofCall
  refine read.bind ?_
  rintro statuses _ ⟨-, -, rfl⟩
  exact Task.logsOk_pure ⟨statuses, rfl, rfl⟩

/-- A scan that goes well goes from window to window until it stops. -/
theorem logsOk_scan (q : Enqueuer σ) (inFlight : List Request) (room : 1 ≤ q.queue.capacity)
    (rounds : Nat) (start : Int) :
    Task.LogsOk (q.logged.scan inFlight rounds start) fun requests log =>
      ∃ cursor, Scanned q.config.indexer inFlight start cursor log requests := by
  induction rounds generalizing start with
  | zero => exact Task.logsOk_never
  | succ rounds ih =>
    unfold Enqueuer.scan
    dsimp only
    split
    · next past => exact Task.logsOk_pure ⟨start, scanned_nothing rfl rfl (.inl past)⟩
    · next goes =>
      have goes : q.config.indexer.pastEnd start = false := (Bool.not_eq_true _).mp goes
      refine q.logsOk_latestHeight.bind ?_
      rintro latest _ ⟨errors, status, rfl, rfl⟩
      split
      · next behind =>
        split
        · next exits =>
          have last : (ofStatus errors status : EnqueueLog σ).reports.getLast? =
              Option.some status := by rw [reports_ofStatus]; rfl
          refine Task.logsOk_pure ⟨start, ?_⟩
          rw [List.append_nil]
          exact scanned_nothing (windows_ofStatus _ _) (pushes_ofStatus _ _)
            (.inr ⟨exits, status, last, behind⟩)
        · refine (q.quiet_pause _).quiet_bind fun _ => (ih start).mono ?_
          rintro requests log ⟨cursor, scanned⟩
          exact ⟨cursor, scanned.waited errors status⟩
      · next known =>
        obtain ⟨some, below⟩ := Setting.windowEnd_bounds room goes (Int.not_lt.mp known)
        have inside := (windowEnd_spec q.queue.capacity goes (Int.not_lt.mp known)).2
        refine (q.logsOk_windowRequests inFlight _ _).bind ?_
        rintro new _ ⟨statuses, rfl, rfl⟩
        refine (q.logsOk_pushAll _).bind ?_
        rintro _ _ rfl
        refine (q.quiet_waitForRefill _).quiet_bind fun _ => q.quiet_throttle.quiet_bind fun _ => ?_
        refine (ih _).bind ?_
        rintro later log ⟨cursor, scanned⟩
        have whole := scanned.window errors status statuses some
          (inside _ (Int.le_refl _)) (below.trans (lastHeight_le _ _))
        refine Task.logsOk_pure ⟨cursor, ?_⟩
        simpa [ofWindow] using whole

/-! ## What a scan comes to -/

/-- The scan of the heights from `start` up to `cursor`. Its windows have each of them once, and
what it pushes of a height is what the status in its window leaves to be asked for and no
request in flight asks for. -/
structure VisitsOnce (c : IndexerConfig) (inFlight : List Request) (start cursor : Int)
    (log : EnqueueLog σ) (requests : List Request) : Prop where
  forward : start ≤ cursor
  some : ∀ w ∈ log.windows, w.low ≤ w.high
  covered : (log.windows.flatMap fun w => heightRange w.low w.high) = heightRange start (cursor - 1)
  pushed : log.pushes = requests
  ascending : requests.Pairwise fun r r' => r.height < r'.height
  asked : ∀ r, r ∈ requests ↔ ∃ w ∈ log.windows, w.low ≤ r.height ∧ r.height ≤ w.high ∧
    (∃ kind, r.asks kind = true) ∧ ∀ kind, r.asks kind = true ↔ c.indexes kind = true ∧
      (c.reindex = true ∨ marks w.statuses r.height kind = false) ∧
      ∀ r' ∈ inFlight, r'.height = r.height → r'.asks kind = false
  bounded : ∀ r ∈ requests,
    c.pastEnd r.height = false ∧ ∃ status ∈ log.reports, r.height ≤ status.latest
  stopped : c.pastEnd cursor = true ∨ c.exitWhenCaughtUp = true ∧
    ∃ status, log.reports.getLast? = Option.some status ∧ status.latest < cursor

/-- A request of a window asks for what its status leaves and no request in flight asks for. -/
theorem mem_windowed_iff (once : (inFlight.map (·.height)).Nodup) {low high : Int}
    {statuses : List BlockStatus} {r : Request} :
    r ∈ windowed c inFlight low high statuses ↔ low ≤ r.height ∧ r.height ≤ high ∧
      (∃ kind, r.asks kind = true) ∧ ∀ kind, r.asks kind = true ↔ c.indexes kind = true ∧
        (c.reindex = true ∨ marks statuses r.height kind = false) ∧
        ∀ r' ∈ inFlight, r'.height = r.height → r'.asks kind = false := by
  have asks (height : Int) (kind : DataKind) :
      (missingRequest c inFlight statuses height).asks kind = true ↔ c.indexes kind = true ∧
        (c.reindex = true ∨ marks statuses height kind = false) ∧
        ∀ r' ∈ inFlight, r'.height = height → r'.asks kind = false := by
    rw [asks_missingRequest, ← isPending_eq_false_iff once]
    simp [marks, and_assoc]
  constructor
  · intro mem
    obtain ⟨above, below⟩ := height_of_mem_windowed mem
    refine ⟨above, below, some_of_mem_windowed mem, fun kind => ?_⟩
    obtain ⟨height, -, rfl⟩ := List.mem_map.mp (List.mem_filter.mp mem).1
    rw [height_missingRequest]
    exact asks height kind
  · rintro ⟨above, below, some, same⟩
    have is : missingRequest c inFlight statuses r.height = r := by
      refine Request.eq_of_asks (height_missingRequest _ _ _ _) fun kind => ?_
      rw [Bool.eq_iff_iff, asks, same]
    refine List.mem_filter.mpr ⟨?_, by simpa using (Request.isEmpty_eq_false_iff r).mpr some⟩
    exact List.mem_map.mpr ⟨r.height, mem_heightRange.mpr ⟨above, below⟩, is⟩

/-- Windows that follow one another give requests that do. -/
theorem Scanned.ascending (h : Scanned c inFlight start cursor log requests) :
    requests.Pairwise fun r r' => r.height < r'.height := by
  have apart : (log.windows.flatMap fun w => heightRange w.low w.high).Pairwise (· < ·) :=
    h.covered ▸ pairwise_heightRange _ _
  rw [h.asked, List.pairwise_flatMap]
  refine ⟨fun w _ => pairwise_windowed _ _ _ _ _, (List.pairwise_flatMap.mp apart).2.imp ?_⟩
  intro w w' before r mem r' mem'
  exact before r.height (mem_heightRange.mpr (height_of_mem_windowed mem)) r'.height
    (mem_heightRange.mpr (height_of_mem_windowed mem'))

theorem Scanned.visitsOnce (h : Scanned c inFlight start cursor log requests)
    (once : (inFlight.map (·.height)).Nodup) :
    VisitsOnce c inFlight start cursor log requests where
  forward := h.forward
  some := h.some
  covered := h.covered
  pushed := h.pushed
  ascending := h.ascending
  asked r := by
    rw [h.asked, List.mem_flatMap]
    exact exists_congr fun w => and_congr_right fun _ => mem_windowed_iff once
  bounded r mem := by
    rw [h.asked, List.mem_flatMap] at mem
    obtain ⟨w, read, mem⟩ := mem
    have below := (height_of_mem_windowed mem).2
    obtain ⟨inside, status, reported, known⟩ := h.inside w read
    refine ⟨?_, status, reported, below.trans known⟩
    simp only [IndexerConfig.pastEnd, Bool.and_eq_false_iff, bne_eq_false_iff_eq,
      decide_eq_false_iff_not] at inside ⊢
    omega
  stopped := h.stopped

/-! ## Progress -/

/-- Nothing is in the way of a scan in the states that are as `P` says: the node reports one
latest height, what is pushed is taken, and while more than a quarter of the queue is in use,
each look at it leaves fewer to come, `left` of them, than the scan has patience for. -/
structure Steady (q : Enqueuer σ) (latest : Int) (left : σ → Nat) (P : σ → Prop) : Prop where
  latestHeight : ∀ s, P s → ∃ s', q.client.latestHeight.outcome.Gives s (.ok latest) s' ∧ P s'
  status : ∀ low high s, P s → P ((q.store.status q.chainId low high).run.run s).2
  push : ∀ r s, P s → ∃ s', (q.queue.push r).Gives s true s' ∧ P s'
  pause : ∀ span s, P s → ∃ s', (q.client.pause span).Gives s () s' ∧ P s'
  waiting : ∀ s, P s → (q.queue.waiting.run s).2 = s
  closed : ∀ s, P s → q.queue.closed.run s = (false, s)
  patient : ∀ s, P s → left s < q.client.patience
  drains : ∀ s s', P s → refillThreshold q.queue.capacity < (q.queue.waiting.run s).1 →
    (q.client.pause refillPoll).Gives s () s' → left s' < left s

section

variable {latest : Int} {left : σ → Nat} {P : σ → Prop} {s : σ}

theorem Steady.pausing (h : q.Steady latest left P) (span : Span) (here : P s) :
    ∃ s', (q.pause span).outcome.Gives s (.ok ()) s' ∧ P s' := by
  obtain ⟨s', paused, there⟩ := h.pause span s here
  exact ⟨s', Task.gives_ofUnending paused, there⟩

theorem Steady.throttled (h : q.Steady latest left P) (here : P s) :
    ∃ s', q.throttle.outcome.Gives s (.ok ()) s' ∧ P s' := by
  unfold Enqueuer.throttle
  split
  · exact ⟨s, Unending.gives_done _ s, here⟩
  · exact h.pausing _ here

theorem Steady.pushing (h : q.Steady latest left P) (rs : List Request) (here : P s) :
    ∃ s', (q.pushAll rs).outcome.Gives s (.ok ()) s' ∧ P s' := by
  induction rs generalizing s with
  | nil => exact ⟨s, Unending.gives_done _ s, here⟩
  | cons r rs ih =>
    obtain ⟨s', pushed, there⟩ := h.push r s here
    obtain ⟨s'', later, end'⟩ := ih there
    have taken : (Enqueuer.push q r).outcome.Gives s (.ok ()) s' :=
      Task.gives_bind_ok (Task.gives_ofUnending pushed) (Unending.gives_done _ s')
    exact ⟨s'', Task.gives_bind_ok taken later, end'⟩

/-- The queue empties before the patience is spent. -/
theorem Steady.refills (h : q.Steady latest left P) (rounds : Nat) (here : P s)
    (enough : left s < rounds) :
    ∃ s', (q.waitForRefill rounds).outcome.Gives s (.ok ()) s' ∧ P s' := by
  induction rounds generalizing s with
  | zero => omega
  | succ rounds ih =>
    have asked {α : Type} {m : StateM σ α} (same : (m.run s).2 = s) :
        (Task.ofState m : Task σ EnqueueError α).outcome.Gives s (.ok (m.run s).1) s :=
      Task.gives_ofUnending (Unending.gives_ofState (Prod.ext rfl same))
    have open' : (q.queue.closed.run s).1 = false := by rw [h.closed s here]
    by_cases room : (q.queue.waiting.run s).1 ≤ refillThreshold q.queue.capacity
    · refine ⟨s, Task.gives_bind_ok (asked (h.waiting s here)) ?_, here⟩
      rw [if_pos room]
      exact Unending.gives_done _ s
    · obtain ⟨s', paused, there⟩ := h.pause refillPoll s here
      have fewer := h.drains s s' here (by omega) paused
      obtain ⟨s'', refilled, end'⟩ := ih there (by omega)
      refine ⟨s'', Task.gives_bind_ok (asked (h.waiting s here)) ?_, end'⟩
      rw [if_neg room]
      refine Task.gives_bind_ok (asked (by rw [h.closed s here])) ?_
      rw [open']
      exact Task.gives_bind_ok (Task.gives_ofUnending paused) refilled

/-- The task comes to its end, with a value or with an error of the store. -/
def Served (s : σ) (x : Task σ EnqueueError (List Request)) : Prop :=
  ∃ o s', x.outcome.Gives s o s' ∧ ∀ e, o = .error e → ∃ cause, e = .store cause

theorem served_pure (s : σ) (rs : List Request) : Served s (pure rs : Task σ _ _) :=
  ⟨.ok rs, s, Unending.gives_done _ s, fun _ same => by cases same⟩

theorem served_bind {α : Type} {x : Task σ EnqueueError α}
    {f : α → Task σ EnqueueError (List Request)} {a : α} {s' : σ}
    (first : x.outcome.Gives s (.ok a) s') (later : Served s' (f a)) :
    Served s (x >>= f) := by
  obtain ⟨o, s'', ran, store⟩ := later
  exact ⟨o, s'', Task.gives_bind_ok first ran, store⟩

/-- Each round takes the scan at least one height further, so that it needs no more rounds than
there are heights up to the tip, and one to find that it has caught up. -/
theorem Steady.scans (h : q.Steady latest left P) (inFlight : List Request)
    (room : 1 ≤ q.queue.capacity) (exits : q.config.indexer.exitWhenCaughtUp = true)
    {rounds : Nat} {start : Int} (enough : (latest + 1 - start).toNat < rounds) (here : P s) :
    Served s (q.scan inFlight rounds start) := by
  induction rounds generalizing start s with
  | zero => omega
  | succ rounds ih =>
    unfold Enqueuer.scan
    dsimp only
    by_cases past : q.config.indexer.pastEnd start = true
    · rw [if_pos past]
      exact served_pure s []
    rw [if_neg past]
    obtain ⟨s₁, reported, here⟩ := h.latestHeight s here
    refine served_bind (Task.gives_ofTask reported) ?_
    by_cases behind : latest < start
    · rw [if_pos behind, if_pos exits]
      exact served_pure s₁ []
    rw [if_neg behind]
    have some := (Setting.windowEnd_bounds room ((Bool.not_eq_true _).mp past)
      (Int.not_lt.mp behind)).1
    generalize windowEnd q.config.indexer q.queue.capacity start latest = last at some
    have there := h.status start last s₁ here
    obtain ⟨answer, s₂, read⟩ : ∃ answer s₂,
        (q.store.status q.chainId start last).run.run s₁ = (answer, s₂) := ⟨_, _, rfl⟩
    rw [read] at there
    have asked : (Task.ofCall EnqueueError.store
        (q.store.status q.chainId start last)).outcome.Gives s₁ (answer.mapError .store) s₂ :=
      Task.gives_ofCall_wrapped read
    cases answer with
    | error cause =>
      refine ⟨_, s₂, Task.gives_bind_error (Task.gives_bind_error asked), fun e same => ?_⟩
      cases same
      exact ⟨cause, rfl⟩
    | ok statuses =>
      refine served_bind (Task.gives_bind_ok asked (Unending.gives_done _ s₂)) ?_
      obtain ⟨s₃, pushed, there⟩ := h.pushing _ there
      obtain ⟨s₄, refilled, there⟩ := h.refills _ there (h.patient s₃ there)
      obtain ⟨s₅, throttled, there⟩ := h.throttled there
      refine served_bind pushed (served_bind refilled (served_bind throttled ?_))
      have fewer : (latest + 1 - (last + 1)).toNat < rounds := by omega
      obtain ⟨o, s₆, ran, store⟩ := ih fewer there
      cases o with
      | ok later => exact served_bind ran (served_pure s₆ _)
      | error e => exact ⟨.error e, s₆, Task.gives_bind_error ran, fun _ same => by
          cases same
          exact store e rfl⟩

end

/-- **A scan visits every height once.** A scan that keeps a log does what it does without one.
Whatever the node and the store answer, and whatever the others do to the state meanwhile, a
scan that goes well has visited, once and in order, the heights from its start up to a cursor
behind the end or behind the tip, and has pushed of each what was missing. Where the tip stays
and the queue is emptied, it ends, with no more rounds than there are heights and one. -/
theorem scan_visits_once (q : Enqueuer σ) {inFlight : List Request}
    (once : (inFlight.map (·.height)).Nodup) (room : 1 ≤ q.queue.capacity) (rounds : Nat)
    (start : Int) :
    Task.Shadows Prod.fst (q.logged.scan inFlight rounds start) (q.scan inFlight rounds start) ∧
    (Task.LogsOk (q.logged.scan inFlight rounds start) fun requests log =>
      ∃ cursor, VisitsOnce q.config.indexer inFlight start cursor log requests) ∧
    ∀ (latest : Int) (left : σ → Nat) (P : σ → Prop), q.Steady latest left P →
      q.config.indexer.exitWhenCaughtUp = true → (latest + 1 - start).toNat < rounds →
      ∀ s, P s → Served s (q.scan inFlight rounds start) := by
  refine ⟨q.shadows_logged.scan inFlight rounds start, ?_, ?_⟩
  · refine (q.logsOk_scan inFlight room rounds start).mono ?_
    rintro requests log ⟨cursor, scanned⟩
    exact ⟨cursor, scanned.visitsOnce once⟩
  · intro latest left P steady exits enough s here
    exact steady.scans inFlight room exits enough here

/-- An enqueuer whose queue has four places. The state is how many are in use, and one request
is taken out whenever the enqueuer pauses, or when it pushes and all are in use. -/
def emptying : Enqueuer Nat where
  config := .plain (-1)
  client := {
    node := .reporting ⟨1, 7, false⟩
    retry := .ofSeconds 1 2
    pause := fun _ => modify fun n => n - 1
    patience := 8 }
  store := {
    highest := fun _ => .ofExcept (.ok none)
    status := fun _ low high => .ofExcept (.ok
      ([⟨2, true, false⟩, ⟨3, true, true⟩].filter fun s : BlockStatus =>
        low ≤ s.height && s.height ≤ high))
    heightsWithMessage := fun _ _ _ _ => .ofExcept (.ok [])
    unresolved := fun _ => .ofExcept (.ok [])
    recordFailure := fun _ => .ofExcept (.ok ())
    writeTxs := fun _ => .ofExcept (.ok ())
    writeEvents := fun _ => .ofExcept (.ok ()) }
  queue := {
    capacity := 4
    push := fun _ => modifyGet fun n => (true, min 4 (n + 1))
    waiting := get
    closed := return false }
  fileText _ := none

theorem steady_emptying : emptying.Steady 7 id (· ≤ 4) where
  latestHeight s here := ⟨s, rfl, here⟩
  status _ _ _ here := here
  push _ s here := ⟨min 4 (s + 1), rfl, Nat.min_le_left _ _⟩
  pause _ s here := ⟨s - 1, rfl, show s - 1 ≤ 4 by omega⟩
  waiting _ _ := rfl
  closed _ _ := rfl
  patient s here := show s < 8 by omega
  drains s s' here full paused := by
    cases paused
    have full : 1 < s := full
    exact show s - 1 < s by omega

/-- Of seven heights the events of one and all of another are indexed, and those of a third are
in flight. -/
theorem scan_visits_once_emptying :
    let inFlight : List Request := [⟨5, true, false⟩]
    (inFlight.map (·.height)).Nodup ∧ 1 ≤ emptying.queue.capacity ∧
      emptying.Steady 7 id (· ≤ 4) ∧ Served 0 (emptying.scan inFlight 8 1) ∧
      ((emptying.scan inFlight 8 1).outcome.run.run 0).1 = some (.ok [⟨1, true, true⟩,
        ⟨2, true, false⟩, ⟨4, true, true⟩, ⟨5, false, true⟩, ⟨6, true, true⟩,
        ⟨7, true, true⟩]) := by
  intro inFlight
  have once : (inFlight.map (·.height)).Nodup := by decide
  have room : 1 ≤ emptying.queue.capacity := by decide
  refine ⟨once, room, steady_emptying, ?_, by decide +kernel⟩
  exact (emptying.scan_visits_once once room 8 1).2.2 7 id _ steady_emptying rfl (by decide) 0
    (by decide)

end Enqueuer

end ChainIndex
