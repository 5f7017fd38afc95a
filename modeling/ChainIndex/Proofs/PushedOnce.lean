/-
No kind of a height is pushed twice in one run that follows the tip. Failed heights are
attempted again in ascending order, so that the last request for a height is the only one;
the scan leaves out what these asked for, and goes on behind whatever it has pushed. None
of this depends on what the store or the node answers, or on what happens meanwhile.
-/
import ChainIndex.Proofs.HealthyRun
import ChainIndex.Proofs.Journal
import ChainIndex.Proofs.Shadow

namespace ChainIndex

namespace Journal

/-- Failed heights are attempted again: `done` was pushed, and no window was read. -/
structure Retrying (records : List FailureRecord) (done : List Request) (j : Journal) : Prop where
  pushed : j.pushes = done
  unread : j.window? = none
  told : .failures records ∈ j

/-- After `again` only heights below the current one were pushed. -/
def Scanned (again : List Request) (current : Int) (j : Journal) : Prop :=
  ∃ done, j.pushes = again ++ done ∧ ∀ r ∈ done, r.height < current

variable {c : IndexerConfig} {j : Journal} {r : Request} {records : List FailureRecord}
  {done again : List Request} {low high current : Int} {statuses : List BlockStatus}

theorem Retrying.push (h : j.Retrying records done) (r : Request) :
    Retrying records (done ++ [r]) (j ++ [.pushed r]) where
  pushed := (pushes_push j r).trans (congrArg (· ++ [r]) h.pushed)
  unread := (window?_push j r).trans h.unread
  told := List.mem_append_left _ h.told

/-- The next failed height may be pushed. -/
theorem Retrying.justifies {rest : List Request} (h : j.Retrying records done)
    (retries : c.reattemptFailedBlocks = true)
    (order : done ++ r :: rest = retryRequests c records) (inside : c.pastEnd r.height = false) :
    j.Justifies c r := by
  have mem : r ∈ retryRequests c records := order ▸ List.mem_append_right _ List.mem_cons_self
  have asks := asks_of_mem_retryRequests mem
  have pairs : (done ++ r :: rest).Pairwise fun r r' => r.height < r'.height :=
    order ▸ pairwise_retryRequests c records
  refine ⟨?_, ?_, ?_, inside, ?_, fun _ => ⟨retries, records, h.told, ?_⟩⟩
  · intro r' hr' same
    rw [h.pushed] at hr'
    have := (List.pairwise_append.mp pairs).2.2 r' hr' r List.mem_cons_self
    omega
  · have some : r.isEmpty = false := by simpa using (List.mem_filter.mp mem).2
    exact (Request.isEmpty_eq_false_iff r).mp some
  · intro kind asked
    rw [asks, Bool.and_eq_true] at asked
    exact asked.1
  · intro low high statuses read
    rw [h.unread] at read
    cases read
  · intro kind asked
    rw [asks, Bool.and_eq_true] at asked
    obtain ⟨f, hf, same⟩ := List.any_eq_true.mp asked.2
    exact ⟨f, hf, by simpa using same⟩

theorem Scanned.mono {current' : Int} (h : j.Scanned again current) (up : current ≤ current') :
    j.Scanned again current' := by
  obtain ⟨done, pushed, behind⟩ := h
  refine ⟨done, pushed, fun r hr => ?_⟩
  have := behind r hr
  omega

theorem Scanned.push (h : j.Scanned again current) (ahead : current ≤ r.height) :
    Scanned again (r.height + 1) (j ++ [.pushed r]) := by
  obtain ⟨done, pushed, behind⟩ := h
  refine ⟨done ++ [r], ?_, fun r' hr' => ?_⟩
  · rw [pushes_push, pushed, List.append_assoc]
  · rcases List.mem_append.mp hr' with hr' | hr'
    · have := behind r' hr'
      omega
    · obtain rfl := List.mem_singleton.mp hr'
      omega

/-- What is asked for of the window that was read last may be pushed. -/
theorem Scanned.justifies (h : j.Scanned again current)
    (once : again.Pairwise fun r r' => r.height < r'.height)
    (read : j.window? = some (low, high, statuses)) (mem : r ∈ windowed c again low high statuses)
    (ahead : current ≤ r.height) (inside : c.pastEnd r.height = false) : j.Justifies c r := by
  obtain ⟨done, pushed, behind⟩ := h
  obtain ⟨above, below⟩ := height_of_mem_windowed mem
  refine ⟨?_, some_of_mem_windowed mem, fun _ asks => (asks_of_mem_windowed mem asks).1, inside,
    ?_, ?_⟩
  · intro r' hr' same kind asked
    rw [pushed] at hr'
    rcases List.mem_append.mp hr' with hr' | hr'
    · have pending : isPending again r.height kind = true := same ▸ isPending_of_mem once hr' asked
      by_contra asks
      rw [Bool.not_eq_false] at asks
      rw [(asks_of_mem_windowed mem asks).2.2] at pending
      cases pending
    · have := behind r' hr'
      omega
  · intro low' high' statuses' read'
    rw [read] at read'
    cases read'
    exact ⟨above, below, fun _ asks => (asks_of_mem_windowed mem asks).2.1⟩
  · intro unread
    rw [read] at unread
    cases unread

end Journal

namespace Enqueuer

open Journal

variable {σ : Type}

/-- Whatever the store tells the enqueuer and whatever it pushes is noted in the journal
that goes with the state, and nothing else is. -/
structure Noted (Tells : Journal → σ → Prop) (q : Enqueuer σ) : Prop extends
    q.Waits (Keeps Tells) where
  unresolved : ∀ chainId j s, Tells j s → Tells
    (j.told .failures ((q.store.unresolved chainId).run.run s).1)
    ((q.store.unresolved chainId).run.run s).2
  status : ∀ chainId low high j s, Tells j s → Tells
    (j.told (.status low high) ((q.store.status chainId low high).run.run s).1)
    ((q.store.status chainId low high).run.run s).2
  push : ∀ r j s, Tells j s → (q.queue.push r).Ensures (Keeps Tells)
    (fun _ s' => Tells j s' ∨ Tells (j ++ [.pushed r]) s')
    (fun pushed s' => Tells (if pushed then j ++ [.pushed r] else j) s') s

variable {Tells : Journal → σ → Prop} {q : Enqueuer σ} {pre : Journal → Prop}

/-- A justified request is pushed. -/
theorem Noted.pushOne (h : q.Noted Tells) {c : IndexerConfig} {r : Request}
    (justified : ∀ j, pre j → j.Justifies c r) :
    Tracks Tells c pre (Enqueuer.push q r) fun _ j => ∃ j', pre j' ∧ j = j' ++ [.pushed r] := by
  intro s j tells sound starts
  have sound' := sound.push (justified j starts)
  have pushed : (Task.ofUnending (q.queue.push r) : Task σ EnqueueError Bool).outcome.Ensures
      (Keeps Tells) (fun _ s' => ∃ j', Tells j' s' ∧ j'.Sound c)
      (fun o s' => ∃ pushed, o = .ok pushed ∧
        Tells (if pushed then j ++ [.pushed r] else j) s') s := by
    rw [Task.outcome_ofUnending]
    refine Unending.Ensures.map ?_
    refine (h.push r j s tells).weaken (fun _ _ => id) ?_ ?_
    · rintro _ s' (tells' | tells')
      · exact ⟨j, tells', sound⟩
      · exact ⟨_, tells', sound'⟩
    · exact fun pushed s' tells' => ⟨pushed, rfl, tells'⟩
  unfold Enqueuer.push
  rw [Task.outcome_bind]
  refine pushed.bind fun o s' ⟨pushed, value, tells'⟩ => ?_
  cases value
  cases pushed with
  | true => exact ⟨_, tells', sound', fun _ _ => ⟨j, starts, rfl⟩⟩
  | false => exact ⟨j, tells', sound, fun _ same => by cases same⟩

/-! ## Failed heights -/

theorem Noted.pushListed (h : q.Noted Tells)
    (retries : q.config.indexer.reattemptFailedBlocks = true) {records : List FailureRecord}
    {done rs : List Request} (order : done ++ rs = retryRequests q.config.indexer records) :
    Tracks Tells q.config.indexer (Retrying records done) (q.pushListed rs) fun new j =>
      j.Retrying records (done ++ new) ∧
        (done ++ new) <+: retryRequests q.config.indexer records := by
  induction rs generalizing done with
  | nil =>
    refine tracks_pure fun j starts => ?_
    rw [List.append_nil] at order ⊢
    exact ⟨starts, order ▸ List.prefix_refl _⟩
  | cons r rs ih =>
    unfold Enqueuer.pushListed
    split
    · refine tracks_pure fun j starts => ?_
      rw [List.append_nil]
      exact ⟨starts, order ▸ List.prefix_append _ _⟩
    · next goes =>
      have inside : q.config.indexer.pastEnd r.height = false := (Bool.not_eq_true _).mp goes
      have pushed := h.pushOne fun j (starts : j.Retrying records done) =>
        starts.justifies retries order inside
      refine pushed.bind fun _ => (tracks_of_keeps h.throttle).bind fun _ => ?_
      rw [List.append_cons] at order
      refine Tracks.bind (Tracks.weaken (ih order) ?_ fun _ _ ends => ends) fun new => ?_
      · rintro _ ⟨j, starts, rfl⟩
        exact starts.push r
      · refine tracks_pure fun j ends => ?_
        rwa [← List.append_cons] at ends

/-- What was attempted again stands in ascending order, and nothing else was pushed. -/
theorem Noted.reattempt (h : q.Noted Tells) :
    Tracks Tells q.config.indexer (· = []) q.reattempt fun again j =>
      j.pushes = again ∧ again.Pairwise fun r r' => r.height < r'.height := by
  unfold Enqueuer.reattempt
  split
  · next retries =>
    have told : Tracks Tells q.config.indexer (· = [])
        (Task.ofCall EnqueueError.store (q.store.unresolved q.chainId)) fun records j =>
          ∃ j', j' = [] ∧ j = j' ++ [.failures records] :=
      tracks_ofCall (fun _ => rfl) (h.unresolved _)
    refine told.bind fun records => ?_
    refine (h.pushListed retries (List.nil_append _)).weaken ?_ ?_
    · rintro _ ⟨_, rfl, rfl⟩
      exact ⟨rfl, rfl, List.mem_cons_self⟩
    · rintro again j ⟨ends, part⟩
      exact ⟨ends.pushed, (pairwise_retryRequests _ records).sublist part.sublist⟩
  · refine tracks_pure ?_
    rintro _ rfl
    exact ⟨rfl, .nil⟩

/-! ## The scan -/

variable {again : List Request} {low high : Int} {statuses : List BlockStatus}

/-- A window ends where the scan has come to or further on, and has no height behind the
end. -/
theorem windowEnd_spec {c : IndexerConfig} {current latest : Int} (capacity : Nat)
    (inside : c.pastEnd current = false) (known : current ≤ latest) :
    current ≤ windowEnd c capacity current latest + 1 ∧
      ∀ height, height ≤ windowEnd c capacity current latest → c.pastEnd height = false := by
  have inside : c.endBlock = -1 ∨ current ≤ c.endBlock := by
    simpa [IndexerConfig.pastEnd, Classical.or_iff_not_imp_left] using inside
  unfold windowEnd IndexerConfig.pastEnd
  dsimp only
  split
  · next endless => exact ⟨by omega, fun height _ => by simp [endless]⟩
  · refine ⟨by omega, fun height below => ?_⟩
    have : height ≤ c.endBlock := by omega
    simp [this]

/-- The window that is read goes into the journal. -/
theorem Noted.windowRequests (h : q.Noted Tells) {current : Int} :
    Tracks Tells q.config.indexer (Scanned again current) (q.windowRequests again low high)
      fun rs j => ∃ statuses, rs = windowed q.config.indexer again low high statuses ∧
        j.window? = some (low, high, statuses) ∧ j.Scanned again current := by
  have told : Tracks Tells q.config.indexer (Scanned again current)
      (Task.ofCall EnqueueError.store (q.store.status q.chainId low high)) fun statuses j =>
        ∃ j', Scanned again current j' ∧ j = j' ++ [.status low high statuses] :=
    tracks_ofCall (fun _ => rfl) (h.status _ low high)
  refine told.bind fun statuses => tracks_pure ?_
  rintro _ ⟨j, ⟨done, pushed, behind⟩, rfl⟩
  exact ⟨statuses, rfl, window?_status j _ _ _, done, (pushes_snoc rfl).trans pushed, behind⟩

theorem Noted.pushAll (h : q.Noted Tells)
    (once : again.Pairwise fun r r' => r.height < r'.height)
    (inside : ∀ height ≤ high, q.config.indexer.pastEnd height = false) {rs : List Request}
    (order : rs.Pairwise fun r r' => r.height < r'.height)
    (missing : ∀ r ∈ rs, r ∈ windowed q.config.indexer again low high statuses)
    {current : Int} (upto : current ≤ high + 1) (ahead : ∀ r ∈ rs, current ≤ r.height) :
    Tracks Tells q.config.indexer
      (fun j => j.window? = some (low, high, statuses) ∧ j.Scanned again current)
      (q.pushAll rs) fun _ j => j.Scanned again (high + 1) := by
  induction rs generalizing current with
  | nil => exact tracks_pure fun j starts => starts.2.mono upto
  | cons r rs ih =>
    have mem := missing r List.mem_cons_self
    have below := (height_of_mem_windowed mem).2
    have first : current ≤ r.height := ahead r List.mem_cons_self
    obtain ⟨next, later⟩ := List.pairwise_cons.mp order
    have pushed := h.pushOne fun j
        (starts : j.window? = some (low, high, statuses) ∧ j.Scanned again current) =>
      starts.2.justifies once starts.1 mem first (inside r.height below)
    have rest := ih later (fun r hr => missing r (List.mem_cons_of_mem _ hr))
      (show r.height + 1 ≤ high + 1 by omega) fun r' hr' => next r' hr'
    refine pushed.bind fun _ => rest.weaken ?_ fun _ _ ends => ends
    rintro _ ⟨j, ⟨read, scanned⟩, rfl⟩
    exact ⟨(window?_push j r).trans read, scanned.push first⟩

/-- After a window the scan goes on behind it. -/
theorem Noted.pushWindow (h : q.Noted Tells)
    (once : again.Pairwise fun r r' => r.height < r'.height)
    (inside : ∀ height ≤ high, q.config.indexer.pastEnd height = false)
    (upto : low ≤ high + 1) {rs : List Request} :
    Tracks Tells q.config.indexer
      (fun j => ∃ statuses, rs = windowed q.config.indexer again low high statuses ∧
        j.window? = some (low, high, statuses) ∧ j.Scanned again low)
      (q.pushAll rs) fun _ j => j.Scanned again (high + 1) := by
  rintro s j tells sound ⟨statuses, rfl, starts⟩
  exact h.pushAll once inside (pairwise_windowed _ _ _ _ _) (fun _ hr => hr) upto
    (fun _ hr => (height_of_mem_windowed hr).1) s j tells sound starts

/-- **The scan pushes nothing twice**, neither what it has pushed itself nor what was
pushed before it. -/
theorem Noted.scan (h : q.Noted Tells) (once : again.Pairwise fun r r' => r.height < r'.height)
    (rounds : Nat) {current : Int} :
    Tracks Tells q.config.indexer (Scanned again current) (q.scan again rounds current)
      fun _ _ => True := by
  induction rounds generalizing current with
  | zero => exact tracks_never
  | succ rounds ih =>
    unfold Enqueuer.scan
    dsimp only
    split
    · exact tracks_pure fun _ _ => trivial
    · next goes =>
      have inside : q.config.indexer.pastEnd current = false := (Bool.not_eq_true _).mp goes
      refine (tracks_of_keeps h.latestHeight).bind fun latest => ?_
      split
      · split
        · exact tracks_pure fun _ _ => trivial
        · exact (tracks_of_keeps (h.pause _)).bind fun _ => ih
      · next known =>
        obtain ⟨upto, ends⟩ := windowEnd_spec q.queue.capacity inside (Int.not_lt.mp known)
        refine h.windowRequests.bind fun rs => (h.pushWindow once ends upto).bind fun _ => ?_
        refine (tracks_of_keeps (h.waitForRefill _)).bind fun _ => ?_
        refine (tracks_of_keeps h.throttle).bind fun _ => ih.bind fun _ => ?_
        exact tracks_pure fun _ _ => trivial

/-- Whatever an enqueuer that follows the tip does keeps its journal sound. -/
theorem Noted.runAll (h : q.Noted Tells)
    (tip : q.config.indexer.reindexMessageType.isEmpty = true ∧
      q.config.indexer.blockInputFile.isEmpty = true) :
    Tracks Tells q.config.indexer (· = []) q.runAll fun _ _ => True := by
  refine (tracks_of_keeps h.awaitChain).bind fun _ => h.reattempt.bind fun again => ?_
  have strategy : Strategy.select q.config.indexer again = .tipFollowing again := by
    simp [Strategy.select, tip.1, tip.2]
  rw [strategy]
  have main : Tracks Tells q.config.indexer
      (fun j => j.pushes = again ∧ again.Pairwise fun r r' => r.height < r'.height)
      (q.run (.tipFollowing again)) fun _ _ => True := by
    rintro s j tells sound ⟨pushed, once⟩
    refine h.scan once _ s j tells sound ⟨[], ?_, fun r hr => absurd hr List.not_mem_nil⟩
    rw [List.append_nil]
    exact pushed
  exact main.bind fun _ => tracks_pure fun _ _ => trivial

/-! ## An enqueuer with a journal -/

/-- A part of a state beside its journal. -/
def put (s : σ) (t : σ × Journal) : σ × Journal := (s, t.2)

/-- A call that is noted if it does not fail. -/
def noting {ε α : Type} (event : α → EnqueueEvent) (call : Call σ ε α) : Call (σ × Journal) ε α :=
  ExceptT.mk fun t =>
    let (answer, s) := call.run t.1
    (answer, s, t.2.told event answer)

/-- The enqueuer with a journal beside its state, in which it notes what the store tells
it and what it has pushed. -/
def journaled (q : Enqueuer σ) : Enqueuer (σ × Journal) where
  config := q.config
  client := {
    node := q.client.node.onPart Prod.fst put
    retry := q.client.retry
    pause := fun span => (q.client.pause span).onPart Prod.fst put
    patience := q.client.patience }
  store := { q.store.onPart Prod.fst put with
    unresolved := fun chainId => noting .failures (q.store.unresolved chainId)
    status := fun chainId low high => noting (.status low high) (q.store.status chainId low high) }
  queue := {
    capacity := q.queue.capacity
    push := fun r => do
      let pushed ← (q.queue.push r).onPart Prod.fst put
      if pushed then modify fun t => (t.1, t.2 ++ [.pushed r])
      return pushed
    waiting := fun t => ((q.queue.waiting.run t.1).1, put (q.queue.waiting.run t.1).2 t)
    closed := fun t => ((q.queue.closed.run t.1).1, put (q.queue.closed.run t.1).2 t) }
  fileText := q.fileText

/-- The journal changes nothing of what is done. -/
theorem shadows_journaled (q : Enqueuer σ) : q.journaled.Shadows Prod.fst q where
  config := rfl
  fileText := rfl
  capacity := rfl
  client := {
    retry := rfl
    patience := rfl
    status := fun _ => ⟨rfl, rfl⟩
    pause := fun _ => Unending.shadows_onPart (fun _ _ => rfl) _ }
  push r := by
    have first : ((q.queue.push r).onPart Prod.fst put).Shadows Prod.fst (q.queue.push r) :=
      Unending.shadows_onPart (fun _ _ => rfl) _
    refine first.then_aside fun pushed => ?_
    cases pushed with
    | true => exact .aside (fun _ => rfl) fun _ => .done true
    | false => exact .done false
  waiting _ := ⟨rfl, rfl⟩
  closed _ := ⟨rfl, rfl⟩
  highest _ _ := ⟨rfl, rfl⟩
  status _ _ _ _ := ⟨rfl, rfl⟩
  heights _ _ _ _ _ := ⟨rfl, rfl⟩
  unresolved _ _ := ⟨rfl, rfl⟩

theorem noted_journaled (q : Enqueuer σ) : q.journaled.Noted fun j t => t.2 = j where
  client := {
    node := {
      status := fun _ _ => id
      block := fun _ _ _ => id
      blockResults := fun _ _ _ => id
      txPage := fun _ _ _ _ _ => id }
    pause := fun _ => Unending.always_onPart (Unending.always_true _) fun _ _ _ _ => id }
  waiting _ _ := id
  closed _ _ := id
  unresolved chainId j t tells := by
    subst tells
    rfl
  status chainId low high j t tells := by
    subst tells
    rfl
  push r j t tells := by
    have quiet : ((q.queue.push r).onPart Prod.fst put).Always
        (Keeps fun (j : Journal) (t : σ × Journal) => t.2 = j) :=
      Unending.always_onPart (Unending.always_true _) fun _ _ _ _ => id
    have first : ((q.queue.push r).onPart Prod.fst put).Ensures
        (Keeps fun (j : Journal) (t : σ × Journal) => t.2 = j) (fun _ t' => t'.2 = j)
        (fun _ t' => t'.2 = j) t :=
      quiet.ensures (fun _ _ keeps => keeps j) (fun _ _ keeps => keeps j) tells
    refine (first.weaken (fun _ _ => id) (fun _ _ => .inl) fun _ _ => id).bind ?_
    intro pushed t' tells'
    cases pushed with
    | true =>
      intro t'' keeps
      have noted : t''.2 ++ [.pushed r] = j ++ [.pushed r] :=
        congrArg (· ++ [.pushed r]) (keeps j tells')
      exact ⟨.inr noted, noted⟩
    | false => exact tells'

end Enqueuer

namespace Pipeline

open Journal

variable {σ : Type}

/-- A run has pushed what stands in a journal. -/
def Tells (j : Journal) (s : RunState σ) : Prop := s.pushed = j.pushes

/-- The others push nothing, and neither does asking or waiting. -/
theorem keeps_of_drift {quiet : σ → σ → Prop} {p : Pipeline σ} {s s' : RunState σ}
    (drift : p.Drift quiet s s') : Keeps Tells s s' :=
  fun _ tells => drift.2.trans tells

/-- A request is pushed once there is room, and only then. -/
theorem ensures_push (p : Pipeline σ) (r : Request) (rounds : Nat) {j : Journal} {s : RunState σ}
    (tells : Tells j s) :
    (p.push r rounds).Ensures (Keeps Tells) (fun _ s' => Tells j s' ∨ Tells (j ++ [.pushed r]) s')
      (fun pushed s' => Tells (if pushed then j ++ [.pushed r] else j) s') s := by
  induction rounds generalizing s with
  | zero => exact Unending.ensures_never _ _
  | succ rounds ih =>
    have offered : (modifyGet (offer r) : Unending (RunState σ) Bool).Ensures (Keeps Tells)
        (fun _ s' => Tells j s' ∨ Tells (j ++ [.pushed r]) s')
        (fun pushed s' => Tells (if pushed then j ++ [.pushed r] else j) s') s := by
      intro s' keeps
      have here : s'.pushed = j.pushes := keeps j tells
      change (Tells j (offer r s').2 ∨ Tells (j ++ [.pushed r]) (offer r s').2) ∧
        Tells (if (offer r s').1 then j ++ [.pushed r] else j) (offer r s').2
      unfold offer
      split
      · have noted : s'.pushed ++ [r] = pushes (j ++ [.pushed r]) := by rw [pushes_push, here]
        exact ⟨.inr noted, noted⟩
      · exact ⟨.inl here, here⟩
    refine offered.bind fun pushed s' tells' => ?_
    cases pushed with
    | true => exact tells'
    | false =>
      intro s'' keeps
      have drift : p.Drift (fun _ _ => True) s'' (p.meanwhile s'') := drift_meanwhile s''
      have later : Tells j (p.meanwhile s'') := keeps_of_drift drift j (keeps j tells')
      exact ⟨.inl later, ih later⟩

/-- What a run has pushed is what the journal of its enqueuer says, whatever else happens. -/
theorem noted_enqueuer (p : Pipeline σ) : p.enqueuer.Noted Tells where
  client := by
    have anyhow : p.client.Always fun _ _ => True := {
      node := {
        status := fun _ => trivial
        block := fun _ _ => trivial
        blockResults := fun _ _ => trivial
        txPage := fun _ _ _ _ => trivial }
      pause := fun _ => Unending.always_true _ }
    exact (always_drift anyhow).mono fun _ _ => keeps_of_drift
  waiting _ _ := id
  closed _ _ := id
  unresolved chainId j s tells := tells.trans (pushes_told j (fun _ => rfl) _).symm
  status chainId low high j s tells := tells.trans (pushes_told j (fun _ => rfl) _).symm
  push r j s tells := ensures_push p r _ tells

/-- What a run that follows the tip has pushed is orderly. -/
theorem orderly_pushed (p : Pipeline σ)
    (tip : p.config.indexer.reindexMessageType.isEmpty = true ∧
      p.config.indexer.blockInputFile.isEmpty = true) (world : σ) (schedule : List (List Action)) :
    Orderly p.config.indexer (p.runState (.start world schedule)).2.pushed := by
  have tracked := p.noted_enqueuer.runAll tip (.start world schedule) [] rfl sound_nil rfl
  have before : ∀ s, Keeps Tells s (p.before s) := by
    intro s
    have drift : p.Drift (fun _ _ => True) s (p.before s) := drift_before s
    exact keeps_of_drift drift
  obtain ⟨⟨j, tells, sound⟩, -⟩ := drive_ensures tracked before
    (fun _ _ keeps ⟨j, tells, sound⟩ => ⟨j, keeps j tells, sound⟩) ⟨[], rfl, sound_nil⟩
  have finish : p.Drift (fun _ _ => True) _ (p.runState (.start world schedule)).2 := drift_finish _
  have pushed : (p.runState (.start world schedule)).2.pushed = j.pushes := finish.2.trans tells
  rw [pushed]
  exact sound.orderly

end Pipeline

/-- **No kind of a height is pushed twice in one run that follows the tip.** An enqueuer
with a journal does what it does without one; and whatever the store and the node answer,
and whatever the others do to the state meanwhile, by every call of it what it has pushed
is orderly, and follows from what the store has told it. What a run has pushed by its end
is orderly, too. -/
theorem Enqueuer.nothing_pushed_twice {c : Config}
    (tip : c.indexer.reindexMessageType.isEmpty = true ∧ c.indexer.blockInputFile.isEmpty = true) :
    (∀ {σ : Type} (q : Enqueuer σ), q.config = c →
      Task.Shadows Prod.fst q.journaled.runAll q.runAll ∧
      ∀ s, q.journaled.runAll.outcome.Ensures (fun t t' => t'.2 = t.2)
        (fun _ t' => Journal.PushedOnce c.indexer t'.2)
        (fun _ t' => Journal.PushedOnce c.indexer t'.2) (s, [])) ∧
    ∀ {σ : Type} (p : Pipeline σ), p.config = c → ∀ world schedule,
      Orderly c.indexer (p.runState (.start world schedule)).2.pushed := by
  refine ⟨fun q same => ⟨q.shadows_journaled.runAll, fun s => ?_⟩, fun p same world schedule => ?_⟩
  · subst same
    have tracked := q.noted_journaled.runAll tip (s, []) [] rfl Journal.sound_nil rfl
    refine tracked.weaken (fun t t' same j tells => same.trans tells) ?_ ?_
    · rintro _ t' ⟨j, rfl, sound⟩
      exact sound.pushedOnce
    · rintro _ t' ⟨j, rfl, sound, -⟩
      exact sound.pushedOnce
  · subst same
    exact p.orderly_pushed tip world schedule

/-- The transactions of the first height are fetched again, so that only its events are
asked for when the scan comes by. -/
theorem Enqueuer.nothing_pushed_twice_healthyRun :
    let p := (Setting.plain Setting.wholeNode).pipeline Setting.retrying
    let start : RunState (Site Unit) := .start ⟨(), Setting.halfDone, []⟩ []
    Setting.retrying.indexer.reindexMessageType.isEmpty = true ∧
      Setting.retrying.indexer.blockInputFile.isEmpty = true ∧
      p.enqueuer.journaled.runAll.outcome.Ensures (fun t t' => t'.2 = t.2)
        (fun _ t' => Journal.PushedOnce Setting.retrying.indexer t'.2)
        (fun _ t' => Journal.PushedOnce Setting.retrying.indexer t'.2) (start, []) ∧
      (p.runState start).2.pushed =
        [⟨1, false, true⟩, ⟨1, true, false⟩, ⟨2, false, true⟩, ⟨3, true, true⟩] ∧
      Orderly Setting.retrying.indexer (p.runState start).2.pushed := by
  intro p start
  have tip : Setting.retrying.indexer.reindexMessageType.isEmpty = true ∧
      Setting.retrying.indexer.blockInputFile.isEmpty = true := ⟨rfl, rfl⟩
  obtain ⟨enqueuers, runs⟩ := nothing_pushed_twice tip
  exact ⟨tip.1, tip.2, (enqueuers p.enqueuer rfl).2 start, by decide +kernel,
    runs p rfl ⟨(), Setting.halfDone, []⟩ []⟩

end ChainIndex
