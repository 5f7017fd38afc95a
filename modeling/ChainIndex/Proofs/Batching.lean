/-
Requests are written as if there were no batches. However they come in between the ticks
of the timer, and however many are collected before they are written, the writer does what
it would do if it wrote each of them at once: it takes them one after another, each in a
series of tries, until transactions cannot be written or no more requests will come. A log
of the calls that write tells what any store is told and answers.
-/
import ChainIndex.Proofs.Logged
import ChainIndex.Writer

namespace ChainIndex

variable {σ : Type}

/-! ## The turns of a writer -/

/-- What wakes the writer before its queue is closed. -/
inductive WriterTurn where
  | arrives (r : WriteRequest)
  | ticks

/-- The requests that arrive, in order. -/
def arrivals (turns : List WriterTurn) : List WriteRequest :=
  turns.filterMap fun
    | .arrives r => some r
    | .ticks => none

namespace Writer

/-- What the writer does when it wakes. -/
def turn (w : Writer σ) (s : WriterState) : WriterTurn → Task σ PipelineError WriterState
  | .arrives r => w.receive r s
  | .ticks => w.flush s

/-- Writes what still waits, and gives the summary. -/
def close (w : Writer σ) (s : WriterState) : Task σ PipelineError WriterSummary := do
  return (← w.flush s).summary

/-- Takes its turns, and ends when the queue is closed and empty. -/
def session (w : Writer σ) (turns : List WriterTurn) : Task σ PipelineError WriterSummary := do
  w.close (← turns.foldlM w.turn .start)

end Writer

/-- Parts of a computation may be put together in any way. -/
theorem Unending.lawful : LawfulMonad (Unending σ) :=
  LawfulMonad.mk' _
    (fun x => by
      induction x with
      | done a => rfl
      | never => rfl
      | call rest effect ih => exact congrArg (Unending.call · effect) (funext ih))
    (fun _ _ => rfl)
    (fun x f g => by
      induction x with
      | done a => rfl
      | never => rfl
      | call rest effect ih => exact congrArg (Unending.call · effect) (funext ih))

theorem Task.lawful {ε : Type} : LawfulMonad (Task σ ε) :=
  haveI : LawfulMonad (Unending σ) := Unending.lawful
  inferInstance

namespace Writer

variable {w : Writer σ} {turns : List WriterTurn}

theorem close_eq (w : Writer σ) (s : WriterState) :
    w.close s = s.batch.foldlM w.write s.summary := by
  have : LawfulMonad (Task σ PipelineError) := Task.lawful
  simp only [close, flush, bind_assoc, pure_bind, bind_pure]

theorem flush_bind (w : Writer σ) (s : WriterState)
    {f : WriterState → Task σ PipelineError WriterSummary} :
    (w.flush s >>= f) = s.batch.foldlM w.write s.summary >>= fun summary => f ⟨[], summary⟩ := by
  have : LawfulMonad (Task σ PipelineError) := Task.lawful
  simp only [flush, bind_assoc, pure_bind]

/-- From any state, what waits is written and then what arrives. -/
theorem turns_close (w : Writer σ) (turns : List WriterTurn) (s : WriterState) :
    (turns.foldlM w.turn s >>= w.close) =
      (s.batch ++ arrivals turns).foldlM w.write s.summary := by
  have : LawfulMonad (Task σ PipelineError) := Task.lawful
  induction turns generalizing s with
  | nil => rw [List.foldlM_nil, pure_bind, close_eq, arrivals, List.filterMap_nil, List.append_nil]
  | cons turn turns ih =>
    rw [List.foldlM_cons, bind_assoc]
    have flushed (s : WriterState) : (w.flush s >>= fun s => turns.foldlM w.turn s >>= w.close) =
        (s.batch ++ arrivals turns).foldlM w.write s.summary := by
      rw [flush_bind, List.foldlM_append]
      exact congrArg _ (funext fun summary => ih ⟨[], summary⟩)
    cases turn with
    | ticks => exact flushed s
    | arrives r =>
      have waits : s.batch ++ arrivals (.arrives r :: turns) =
          s.batch ++ [r] ++ arrivals turns := by simp [arrivals]
      rw [waits]
      unfold Writer.turn receive
      dsimp only
      split
      · exact ih _
      · exact flushed _

/-- **The writer does what it would do without batches**: it writes the requests that arrive,
one after another, whenever its timer ticks and however many it collects. -/
theorem session_eq (w : Writer σ) (turns : List WriterTurn) :
    w.session turns = (arrivals turns).foldlM w.write .zero :=
  w.turns_close turns .start

theorem run_arrivals (w : Writer σ) (turns : List WriterTurn) :
    w.run (arrivals turns) = w.session turns := by
  have only : arrivals ((arrivals turns).map .arrives) = arrivals turns := by
    rw [arrivals, List.filterMap_map]
    exact List.filterMap_some
  have same : w.run (arrivals turns) = w.session ((arrivals turns).map .arrives) := by
    rw [session, List.foldlM_map]
    rfl
  rw [same, session_eq, session_eq, only]

/-! ## Coming to an end -/

/-- A writer that does not pause for ever gives up in the end. -/
theorem finishes_attempt (pauses : ∀ span, (w.pause span).Finishes)
    {call : Call σ StoreError Unit} (more : Nat) : (w.attempt call more).outcome.Finishes := by
  induction more with
  | zero => exact Unending.finishes_ofState _
  | succ more ih =>
    refine Task.finishes_bind ((Unending.finishes_ofState _).map _) fun answer => ?_
    cases answer with
    | ok _ => exact Unending.finishes_done _
    | error e => exact Task.finishes_bind ((pauses _).map _) fun _ => ih

theorem finishes_write (pauses : ∀ span, (w.pause span).Finishes) (total : WriterSummary)
    (r : WriteRequest) : (w.write total r).outcome.Finishes := by
  cases r with
  | transactions b =>
    exact Task.finishes_bind ((finishes_attempt pauses _).map _) fun _ => Unending.finishes_done _
  | blockEvents b =>
    refine Task.finishes_bind ((finishes_attempt pauses _).map _) fun answer => ?_
    cases answer with
    | ok _ => exact Unending.finishes_done _
    | error e =>
      refine Task.finishes_bind ((Unending.finishes_ofState _).map _) fun _ => ?_
      exact Unending.finishes_done _

theorem finishes_writeAll (pauses : ∀ span, (w.pause span).Finishes) (rs : List WriteRequest)
    (total : WriterSummary) : (rs.foldlM w.write total).outcome.Finishes := by
  induction rs generalizing total with
  | nil => exact Unending.finishes_done _
  | cons r rs ih =>
    rw [List.foldlM_cons]
    exact Task.finishes_bind (finishes_write pauses total r) fun total => ih total

end Writer

/-! ## A log of what is written -/

/-- A call that writes, with the answer of the store. -/
inductive WriteCall where
  | request (r : WriteRequest) (answer : Except StoreError Unit)
  | failure (r : FailureRecord) (answer : Except StoreError Unit)

/-- The store with a log of the calls that write. -/
def IndexStore.logged (store : IndexStore σ) : IndexStore (σ × List WriteCall) :=
  { store.onPart Prod.fst besideLog with
    recordFailure := fun r => (store.recordFailure r).logging fun _ => .failure r
    writeTxs := fun b => (store.writeTxs b).logging fun _ => .request (.transactions b)
    writeEvents := fun b => (store.writeEvents b).logging fun _ => .request (.blockEvents b) }

namespace Writer

variable {w : Writer σ}

/-- The writer with a store that logs. -/
def logged (w : Writer σ) : Writer (σ × List WriteCall) where
  store := w.store.logged
  chain := w.chain
  batchSize := w.batchSize
  maxRetries := w.maxRetries
  retryDelay := w.retryDelay
  pause span := (w.pause span).onPart Prod.fst besideLog

theorem shadows_attempt {call' : Call (σ × List WriteCall) StoreError Unit}
    {call : Call σ StoreError Unit} (same : Echoes Prod.fst call'.run call.run) (more : Nat) :
    Task.Shadows Prod.fst (w.logged.attempt call' more) (w.attempt call more) := by
  induction more with
  | zero => exact Task.shadows_ofCall same
  | succ more ih =>
    refine (Task.shadows_ofState same).bind fun answer => ?_
    cases answer with
    | ok _ => exact Task.shadows_pure ()
    | error e =>
      refine (Task.shadows_ofUnending ?_).bind fun _ => ih
      exact Unending.shadows_onPart (fun _ _ => rfl) _

theorem shadows_write (total : WriterSummary) (r : WriteRequest) :
    Task.Shadows Prod.fst (w.logged.write total r) (w.write total r) := by
  cases r with
  | transactions b =>
    refine Task.Shadows.bind (Task.shadows_ofTask (shadows_attempt ?_ _)) fun _ => ?_
    · exact Call.echoes_logging _ _
    · exact Task.shadows_pure _
  | blockEvents b =>
    refine Task.Shadows.bind (Task.shadows_ofUnending (shadows_attempt ?_ _)) fun answer => ?_
    · exact Call.echoes_logging _ _
    · cases answer with
      | ok _ => exact Task.shadows_pure _
      | error e =>
        refine Task.Shadows.bind (Task.shadows_ofState fun t => ⟨rfl, rfl⟩) fun _ => ?_
        exact Task.shadows_pure _

theorem shadows_session (w : Writer σ) (turns : List WriterTurn) :
    Task.Shadows Prod.fst (w.logged.session turns) (w.session turns) := by
  rw [session_eq, session_eq]
  generalize WriterSummary.zero = total
  induction arrivals turns generalizing total with
  | nil => exact Task.shadows_pure total
  | cons r rs ih =>
    rw [List.foldlM_cons, List.foldlM_cons]
    exact (shadows_write total r).bind ih

end Writer

/-! ## What is written -/

/-- The answers of a store that is called until it goes well, at most `limit` times, and the
last of them. -/
structure Tried (limit : Nat) (answers : List (Except StoreError Unit))
    (result : Except StoreError Unit) : Prop where
  last : answers.getLast? = some result
  failed : ∀ answer ∈ answers.dropLast, answer ≠ .ok ()
  limited : answers.length ≤ limit
  spent : result ≠ .ok () → answers.length = limit

theorem Tried.once {limit : Nat} {answer : Except StoreError Unit}
    (spent : answer ≠ .ok () → limit = 0) : Tried (limit + 1) [answer] answer where
  last := rfl
  failed _ mem := absurd mem List.not_mem_nil
  limited := by simp
  spent fails := by simp [spent fails]

theorem Tried.again {limit : Nat} {answers : List (Except StoreError Unit)}
    {result : Except StoreError Unit} (h : Tried limit answers result) (e : StoreError) :
    Tried (limit + 1) (.error e :: answers) result := by
  have some : answers ≠ [] := by
    rintro rfl
    cases h.last
  obtain ⟨first, answers, rfl⟩ := List.exists_cons_of_ne_nil some
  constructor
  · rw [List.getLast?_cons_cons]
    exact h.last
  · rw [List.dropLast_cons_cons]
    exact List.forall_mem_cons.mpr ⟨by simp, h.failed⟩
  · exact Nat.succ_le_succ h.limited
  · exact fun fails => congrArg (· + 1) (h.spent fails)

/-- What a writer does with a request: the answers to its tries, the last one, and the
failures that it has recorded, with the answers to that. -/
structure WriteAttempt where
  request : WriteRequest
  answers : List (Except StoreError Unit)
  result : Except StoreError Unit
  noted : List (FailureRecord × Except StoreError Unit)

namespace WriteAttempt

/-- The calls of an attempt, one after another. -/
def calls (a : WriteAttempt) : List WriteCall :=
  a.answers.map (.request a.request) ++ a.noted.map fun (r, answer) => .failure r answer

def writtenTxs? (a : WriteAttempt) : Option TxBatch :=
  match a.request, a.result with
  | .transactions b, .ok () => some b
  | _, _ => none

def writtenEvents? (a : WriteAttempt) : Option EventBatch :=
  match a.request, a.result with
  | .blockEvents b, .ok () => some b
  | _, _ => none

/-- Transactions that could not be written, and why. -/
def lostTxs? (a : WriteAttempt) : Option (TxBatch × StoreError) :=
  match a.request, a.result with
  | .transactions b, .error e => some (b, e)
  | _, _ => none

/-- Events that could not be written. -/
def lostEvents? (a : WriteAttempt) : Option EventBatch :=
  match a.request, a.result with
  | .blockEvents b, .error _ => some b
  | _, _ => none

end WriteAttempt

/-- The numbers of what was written, and of the events that were not. -/
def WriterSummary.of (attempts : List WriteAttempt) : WriterSummary where
  txBatches := (attempts.filterMap (·.writtenTxs?)).length
  txs := ((attempts.filterMap (·.writtenTxs?)).flatMap (·.txs)).length
  eventBatches := (attempts.filterMap (·.writtenEvents?)).length
  failedEventBatches := (attempts.filterMap (·.lostEvents?)).length

namespace Writer

/-- The failure that is recorded for events that cannot be written. -/
def eventRecord (w : Writer σ) (b : EventBatch) : FailureRecord where
  height := b.height
  chainId := w.chain.chainId
  chainName := w.chain.chainName
  kind := .blockEvents
  reason := if b.hasEpochData then .rewardIndex else .eventHandling

/-- The attempt tries as often as it may, and has one failure recorded if it loses events. -/
structure Makes (w : Writer σ) (a : WriteAttempt) : Prop where
  tried : Tried (max 1 w.maxRetries) a.answers a.result
  noted : a.noted.map Prod.fst = (a.lostEvents?.map w.eventRecord).toList

/-- The attempts at some requests, and what comes of them: each request is attempted once, in
its turn, up to the first transactions that cannot be written. These are the error. -/
structure Writes (w : Writer σ) (rs : List WriteRequest) (attempts : List WriteAttempt)
    (outcome : Except PipelineError WriterSummary) : Prop where
  inTurn : attempts.map (·.request) <+: rs
  made : ∀ a ∈ attempts, w.Makes a
  written : ∀ summary, outcome = .ok summary → attempts.map (·.request) = rs ∧
    (∀ a ∈ attempts, a.lostTxs? = none) ∧ summary = .of attempts ∧
    summary.txBatches + summary.eventBatches + summary.failedEventBatches = rs.length
  lost : ∀ e, outcome = .error e → ∃ before last b cause, attempts = before ++ [last] ∧
    (∀ a ∈ before, a.lostTxs? = none) ∧ last.lostTxs? = some (b, cause) ∧
    e = .writer ("transactions at height " ++ toString b.height ++ ": " ++ cause.message)

end Writer

/-! ## One attempt after another -/

namespace WriterSummary

def add (s s' : WriterSummary) : WriterSummary where
  txBatches := s.txBatches + s'.txBatches
  txs := s.txs + s'.txs
  eventBatches := s.eventBatches + s'.eventBatches
  failedEventBatches := s.failedEventBatches + s'.failedEventBatches

theorem zero_add (s : WriterSummary) : add .zero s = s := by simp [add, zero]

theorem add_assoc (s s' s'' : WriterSummary) : (s.add s').add s'' = s.add (s'.add s'') := by
  simp only [add, Nat.add_assoc]

theorem of_cons (a : WriteAttempt) (as : List WriteAttempt) :
    of (a :: as) = (of [a]).add (of as) := by
  rw [← List.singleton_append]
  simp only [of, add, List.filterMap_append, List.length_append, List.flatMap_append]

end WriterSummary

namespace Writer

variable {w : Writer σ} {r : WriteRequest} {rs : List WriteRequest} {a : WriteAttempt}
  {as : List WriteAttempt}

theorem writes_nil (w : Writer σ) : w.Writes [] [] (.ok .zero) where
  inTurn := List.prefix_refl _
  made _ mem := absurd mem List.not_mem_nil
  written summary same := by
    cases same
    exact ⟨rfl, fun _ mem => absurd mem List.not_mem_nil, rfl, rfl⟩
  lost e same := by cases same

/-- A request whose attempt loses no transactions is dealt with. -/
theorem writes_kept (made : w.Makes a) (kept : a.lostTxs? = none) :
    w.Writes [a.request] [a] (.ok (.of [a])) where
  inTurn := List.prefix_refl _
  made := by simpa using made
  written summary same := by
    cases same
    refine ⟨rfl, by simpa using kept, rfl, ?_⟩
    obtain ⟨request, answers, result, noted⟩ := a
    cases request <;> cases result
    · cases kept
    · rfl
    · rfl
    · rfl
  lost e same := by cases same

/-- Transactions that cannot be written are an error. -/
theorem writes_lost {b : TxBatch} {cause : StoreError} (made : w.Makes a)
    (lost : a.lostTxs? = some (b, cause)) :
    w.Writes [a.request] [a] (.error (txFailure b.height cause)) where
  inTurn := List.prefix_refl _
  made := by simpa using made
  written summary same := by cases same
  lost e same := by
    cases same
    exact ⟨[], a, b, cause, rfl, fun _ mem => absurd mem List.not_mem_nil, lost, rfl⟩

/-- After a request that was dealt with come the next ones. -/
theorem Writes.cons {summary : WriterSummary} {outcome : Except PipelineError WriterSummary}
    (first : w.Writes [r] [a] (.ok summary)) (later : w.Writes rs as outcome) :
    w.Writes (r :: rs) (a :: as) (outcome.map summary.add) := by
  obtain ⟨same, kept, rfl, one⟩ := first.written summary rfl
  have request : a.request = r := (List.cons.inj same).1
  have kept : a.lostTxs? = none := kept a List.mem_cons_self
  refine ⟨?_, List.forall_mem_cons.mpr ⟨first.made a List.mem_cons_self, later.made⟩, ?_, ?_⟩
  · rw [List.map_cons, request, List.cons_prefix_cons]
    exact ⟨rfl, later.inTurn⟩
  · intro whole sum
    cases outcome with
    | error e => cases sum
    | ok rest =>
      cases sum
      obtain ⟨requests, none, rfl, count⟩ := later.written rest rfl
      refine ⟨by rw [List.map_cons, request, requests], List.forall_mem_cons.mpr ⟨kept, none⟩,
        (WriterSummary.of_cons a as).symm, ?_⟩
      simp only [List.length_cons, List.length_nil] at one
      simp only [WriterSummary.add, List.length_cons]
      omega
  · intro e failed
    cases outcome with
    | ok rest => cases failed
    | error e' =>
      cases failed
      obtain ⟨before, last, b, cause, rfl, none, rest⟩ := later.lost e rfl
      exact ⟨a :: before, last, b, cause, rfl, List.forall_mem_cons.mpr ⟨kept, none⟩, rest⟩

/-- After lost transactions nothing is attempted. -/
theorem Writes.stop {e : PipelineError} (first : w.Writes [r] [a] (.error e))
    (rs : List WriteRequest) : w.Writes (r :: rs) [a] (.error e) where
  inTurn := first.inTurn.trans (List.prefix_append [r] rs)
  made := first.made
  written _ same := by cases same
  lost := first.lost

/-- The tries of a request are logged. -/
theorem logs_withRetries (r : WriteRequest) {call : Call σ StoreError Unit} :
    (w.logged.withRetries (call.logging fun _ => .request r)).outcome.Logs fun o new =>
      ∃ answers, new = answers.map (.request r) ∧ Tried (max 1 w.maxRetries) answers o := by
  have tries (more : Nat) : (w.logged.attempt (call.logging fun _ => .request r) more).outcome.Logs
      fun o new => ∃ answers, new = answers.map (.request r) ∧ Tried (more + 1) answers o := by
    induction more with
    | zero =>
      refine Unending.Logs.mono Task.logs_ofCall_id ?_
      rintro answer _ ⟨-, -, rfl⟩
      exact ⟨[answer], rfl, .once fun _ => rfl⟩
    | succ more ih =>
      have asked : (Unending.ofState (call.logging fun _ => WriteCall.request r).outcome).Logs
          fun answer new => new = [.request r answer] :=
        Unending.logs_ofState fun t => ⟨_, rfl, rfl⟩
      refine Task.logs_ofUnending_bind asked ?_
      rintro answer _ rfl
      cases answer with
      | ok _ => exact Unending.logs_done ⟨[.ok ()], rfl, .once fun fails => absurd rfl fails⟩
      | error e =>
        refine Task.logs_quiet_bind (Unending.always_besideLog _) fun _ => ih.mono ?_
        rintro o _ ⟨answers, rfl, tried⟩
        exact ⟨.error e :: answers, rfl, tried.again e⟩
  have enough : max 1 w.maxRetries - 1 + 1 = max 1 w.maxRetries := by omega
  have whole := tries (max 1 w.maxRetries - 1)
  rw [enough] at whole
  exact whole

/-- One request is one attempt. -/
theorem logs_write (total : WriterSummary) (r : WriteRequest) :
    (w.logged.write total r).outcome.Logs fun o new =>
      ∃ a o', new = a.calls ∧ w.Writes [r] [a] o' ∧ o = o'.map total.add := by
  cases r with
  | transactions b =>
    have tried : (Task.ofTask (txFailure b.height)
        (w.logged.withRetries (w.logged.store.writeTxs b))).outcome.Logs fun o new =>
          ∃ answers result, new = answers.map (.request (.transactions b)) ∧
            Tried (max 1 w.maxRetries) answers result ∧
            o = result.mapError (txFailure b.height) := by
      refine Unending.Logs.map ((logs_withRetries (.transactions b)).mono ?_)
      rintro result new ⟨answers, logged, tried⟩
      exact ⟨answers, result, logged, tried, rfl⟩
    refine Task.logs_bind tried ?_ ?_
    · rintro u _ ⟨answers, result, rfl, tried, value⟩
      cases mapError_eq_ok value.symm
      let a : WriteAttempt := ⟨.transactions b, answers, .ok (), []⟩
      have written : (WriterSummary.of [a]).txs = b.txs.length := by
        simp [WriterSummary.of, WriteAttempt.writtenTxs?, a]
      refine Unending.logs_done ⟨a, _, ?_, writes_kept (a := a) ⟨tried, rfl⟩ rfl, ?_⟩
      · rfl
      · rw [← written]
        rfl
    · rintro e _ ⟨answers, result, rfl, tried, value⟩
      cases result with
      | ok _ => cases value
      | error cause =>
        cases value
        let a : WriteAttempt := ⟨.transactions b, answers, .error cause, []⟩
        exact ⟨a, _, (List.append_nil _).symm, writes_lost (a := a) ⟨tried, rfl⟩ rfl, rfl⟩
  | blockEvents b =>
    refine Task.logs_ofUnending_bind (logs_withRetries (.blockEvents b)) ?_
    rintro result _ ⟨answers, rfl, tried⟩
    cases result with
    | ok _ =>
      let a : WriteAttempt := ⟨.blockEvents b, answers, .ok (), []⟩
      refine Unending.logs_done ⟨a, _, ?_, writes_kept (a := a) ⟨tried, rfl⟩ rfl, rfl⟩
      rfl
    | error e =>
      have noted : (Unending.ofState (w.logged.store.note w.chain b.height .blockEvents
          (eventFailure b))).Logs fun _ new =>
            ∃ answer, new = [.failure (w.eventRecord b) answer] :=
        Unending.logs_ofState fun t => ⟨_, rfl, _, rfl⟩
      refine Task.logs_ofUnending_bind noted ?_
      rintro _ _ ⟨answer, rfl⟩
      let a : WriteAttempt := ⟨.blockEvents b, answers, .error e, [(w.eventRecord b, answer)]⟩
      refine Unending.logs_done ⟨a, _, ?_, writes_kept (a := a) ⟨tried, rfl⟩ rfl, rfl⟩
      rw [List.append_nil]
      rfl

/-- Requests are attempted one after another. -/
theorem logs_writeAll (w : Writer σ) (rs : List WriteRequest) (total : WriterSummary) :
    (rs.foldlM w.logged.write total).outcome.Logs fun o calls => ∃ attempts o',
      calls = attempts.flatMap (·.calls) ∧ w.Writes rs attempts o' ∧ o = o'.map total.add := by
  induction rs generalizing total with
  | nil => exact Unending.logs_done ⟨[], _, rfl, w.writes_nil, rfl⟩
  | cons r rs ih =>
    rw [List.foldlM_cons]
    refine Task.logs_bind (logs_write total r) ?_ ?_
    · rintro sum _ ⟨a, o', rfl, first, value⟩
      cases o' with
      | error e => cases value
      | ok summary =>
        cases value
        refine (ih (total.add summary)).mono ?_
        rintro o _ ⟨as, rest, rfl, later, rfl⟩
        refine ⟨a :: as, _, rfl, first.cons later, ?_⟩
        cases rest with
        | ok rest => exact congrArg Except.ok (WriterSummary.add_assoc total summary rest)
        | error e => rfl
    · rintro e _ ⟨a, o', rfl, first, value⟩
      cases o' with
      | ok summary => cases value
      | error e =>
        cases value
        exact ⟨[a], _, (List.append_nil _).symm, first.stop rs, rfl⟩

/-- **The batches of a writer cannot be told from single requests.** Whatever arrives and
whenever the timer ticks, the writer does what it would do if it wrote each request at once. It
comes to its end if its pauses do. The log of a store that logs, which is told and answers what
it would without, is one of attempts at the requests, each in its turn: it has no others, and
they are what the summary counts. -/
theorem batching_transparent (w : Writer σ) (turns : List WriterTurn) :
    w.session turns = (arrivals turns).foldlM w.write .zero ∧
    w.run (arrivals turns) = w.session turns ∧
    ((∀ span, (w.pause span).Finishes) → (w.session turns).outcome.Finishes) ∧
    Task.Shadows Prod.fst (w.logged.session turns) (w.session turns) ∧
    (w.logged.session turns).outcome.Logs fun outcome calls => ∃ attempts : List WriteAttempt,
      calls = attempts.flatMap (·.calls) ∧ w.Writes (arrivals turns) attempts outcome := by
  refine ⟨w.session_eq turns, w.run_arrivals turns, fun pauses => ?_, w.shadows_session turns, ?_⟩
  · rw [session_eq]
    exact finishes_writeAll pauses _ _
  · rw [session_eq]
    refine (w.logs_writeAll (arrivals turns) .zero).mono ?_
    rintro o calls ⟨attempts, o', rfl, writes, rfl⟩
    refine ⟨attempts, rfl, ?_⟩
    cases o' with
    | ok summary =>
      have same : Except.map (WriterSummary.add .zero) (.ok summary : Except PipelineError _) =
          .ok summary := congrArg Except.ok summary.zero_add
      rwa [same]
    | error e => exact writes

end Writer

/-! ## A scripted store -/

/-- A store that holds nothing. Whatever it is told to write, its answers are those of a
script, and once the script is over all goes well. -/
def IndexStore.scripted : IndexStore (List (Except StoreError Unit)) where
  highest _ := .ofExcept (.ok none)
  status _ _ _ := .ofExcept (.ok [])
  heightsWithMessage _ _ _ _ := .ofExcept (.ok [])
  unresolved _ := .ofExcept (.ok [])
  recordFailure _ := ExceptT.mk fun script => (script.headD (.ok ()), script.tail)
  writeTxs _ := ExceptT.mk fun script => (script.headD (.ok ()), script.tail)
  writeEvents _ := ExceptT.mk fun script => (script.headD (.ok ()), script.tail)

namespace Writer

def scripted : Writer (List (Except StoreError Unit)) where
  store := .scripted
  chain := {
    chainId := "chain-1", chainName := "chain", accountHrp := "cosmos", rpcUrl := "", restUrl := "",
    timeoutSeconds := 1 }
  batchSize := 2
  maxRetries := 2
  retryDelay := defaultRetryDelay
  pause _ := .done ()

/-- The events of one height are lost in two tries and those of the next are not; then come
transactions that are written at the second try, in a batch of their own. -/
theorem batching_transparent_scripted :
    let turns : List WriterTurn := [
      .arrives (.blockEvents { (default : EventBatch) with height := 5 }), .ticks, .ticks,
      .arrives (.blockEvents { (default : EventBatch) with height := 6 }),
      .arrives (.transactions { (default : TxBatch) with height := 6 })]
    let fails : Except StoreError Unit := .error (.database "busy")
    (∀ span, (scripted.pause span).Finishes) ∧ (scripted.session turns).outcome.Finishes ∧
      ((scripted.session turns).outcome.run.run [fails, fails, .ok (), .ok (), fails]).1 =
        some (.ok ⟨1, 0, 1, 1⟩) :=
  ⟨fun _ => trivial, (batching_transparent scripted _).2.2.1 fun _ => trivial, rfl⟩

/-- Transactions that are lost are the end of it, whatever waits behind them. -/
example :
    ((scripted.run [.transactions { (default : TxBatch) with height := 7 },
        .blockEvents { (default : EventBatch) with height := 8 }]).outcome.run.run
      [.error (.database "busy"), .error (.database "full")]) =
      (some (.error (.writer "transactions at height 7: Database error: full")), []) :=
  rfl

end Writer

end ChainIndex
