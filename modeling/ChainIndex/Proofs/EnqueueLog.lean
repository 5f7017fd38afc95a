/-
What an enqueuer asks and pushes, call by call. An enqueuer that keeps a log does what it
does without one, and its log has the answers of the node, the windows of statuses that the
store gives, the states in which the store is asked what it has listed, and the pushes. A
push that goes well is one entry, and asking the node is one answer after as many errors as
there were tries before; waiting has no entries.
-/
import ChainIndex.Proofs.Enqueuer
import ChainIndex.Proofs.Logged

namespace ChainIndex

/-- A call of an enqueuer on a state. -/
inductive EnqueueCall (σ : Type) where
  | status (answer : Except NodeError NodeStatus)
  | window (low high : Int) (answer : Except StoreError (List BlockStatus))
  /-- The store is asked for failures, for its highest height or for heights of a type. -/
  | listing (s : σ)
  | push (r : Request) (taken : Bool)

/-- A window of heights with the statuses that the store has given for it. -/
structure StatusWindow where
  low : Int
  high : Int
  statuses : List BlockStatus

abbrev EnqueueLog (σ : Type) := List (EnqueueCall σ)

namespace EnqueueLog

variable {σ : Type}

/-- What the node has reported. -/
def reports (log : EnqueueLog σ) : List NodeStatus :=
  log.filterMap fun
    | .status (.ok status) => some status
    | _ => none

def windows (log : EnqueueLog σ) : List StatusWindow :=
  log.filterMap fun
    | .window low high (.ok statuses) => some ⟨low, high, statuses⟩
    | _ => none

/-- The states in which the store was asked. -/
def listings (log : EnqueueLog σ) : List σ :=
  log.filterMap fun
    | .listing s => some s
    | _ => none

/-- What was pushed and taken. -/
def pushes (log : EnqueueLog σ) : List Request :=
  log.filterMap fun
    | .push r true => some r
    | _ => none

/-- The entries of pushes that go well. -/
def ofPushes (rs : List Request) : EnqueueLog σ := rs.map (.push · true)

/-- The entries of an answer of the node after some errors. -/
def ofStatus (errors : List NodeError) (status : NodeStatus) : EnqueueLog σ :=
  errors.map (fun e => .status (.error e)) ++ [.status (.ok status)]

section

variable (log log' : EnqueueLog σ) (rs : List Request) (errors : List NodeError)
  (status : NodeStatus) (low high : Int) (answer : Except StoreError (List BlockStatus))
  (statuses : List BlockStatus) (s : σ)

@[simp] theorem reports_append : reports (log ++ log') = log.reports ++ log'.reports :=
  List.filterMap_append

@[simp] theorem windows_append : windows (log ++ log') = log.windows ++ log'.windows :=
  List.filterMap_append

@[simp] theorem listings_append : listings (log ++ log') = log.listings ++ log'.listings :=
  List.filterMap_append

@[simp] theorem pushes_append : pushes (log ++ log') = log.pushes ++ log'.pushes :=
  List.filterMap_append

@[simp] theorem reports_ofPushes : (ofPushes rs : EnqueueLog σ).reports = [] := by
  simp [reports, ofPushes]

@[simp] theorem windows_ofPushes : (ofPushes rs : EnqueueLog σ).windows = [] := by
  simp [windows, ofPushes]

@[simp] theorem pushes_ofPushes : (ofPushes rs : EnqueueLog σ).pushes = rs := by
  simp [pushes, ofPushes, List.filterMap_map]

@[simp] theorem reports_ofStatus : (ofStatus errors status : EnqueueLog σ).reports = [status] := by
  simp [reports, ofStatus, List.filterMap_map]

@[simp] theorem windows_ofStatus : (ofStatus errors status : EnqueueLog σ).windows = [] := by
  simp [windows, ofStatus, List.filterMap_map]

@[simp] theorem pushes_ofStatus : (ofStatus errors status : EnqueueLog σ).pushes = [] := by
  simp [pushes, ofStatus, List.filterMap_map]

@[simp] theorem windows_window :
    windows (.window low high (.ok statuses) :: log) = ⟨low, high, statuses⟩ :: log.windows :=
  rfl

@[simp] theorem reports_window : reports (.window low high answer :: log) = log.reports := rfl

@[simp] theorem pushes_window : pushes (.window low high answer :: log) = log.pushes := rfl

@[simp] theorem listings_listing : listings (.listing s :: log) = s :: log.listings := rfl

end

end EnqueueLog

/-- A node that reports its status and gives nothing else. -/
def Node.reporting {σ : Type} (status : NodeStatus) : Node σ where
  name := "reporting"
  status := .ofExcept (.ok status)
  block _ := .ofExcept (.error (.timeout ""))
  blockResults _ := .ofExcept (.error (.timeout ""))
  txPage _ _ _ := .ofExcept (.error (.timeout ""))

namespace Enqueuer

variable {σ : Type}

/-- The enqueuer with a log. -/
def logged (q : Enqueuer σ) : Enqueuer (σ × EnqueueLog σ) where
  config := q.config
  client := {
    node := { q.client.node.onPart Prod.fst besideLog with
      status := q.client.node.status.logging fun _ => .status }
    retry := q.client.retry
    pause := fun span => (q.client.pause span).onPart Prod.fst besideLog
    patience := q.client.patience }
  store := { q.store.onPart Prod.fst besideLog with
    status := fun chainId low high =>
      (q.store.status chainId low high).logging fun _ => .window low high
    highest := fun chainId => (q.store.highest chainId).logging fun s _ => .listing s
    heightsWithMessage := fun chainId typeUrl low high =>
      (q.store.heightsWithMessage chainId typeUrl low high).logging fun s _ => .listing s
    unresolved := fun chainId => (q.store.unresolved chainId).logging fun s _ => .listing s }
  queue := {
    capacity := q.queue.capacity
    push := fun r => do
      let taken ← (q.queue.push r).onPart Prod.fst besideLog
      modify fun t => (t.1, t.2 ++ [.push r taken])
      return taken
    waiting := fun t => ((q.queue.waiting.run t.1).1, besideLog (q.queue.waiting.run t.1).2 t)
    closed := fun t => ((q.queue.closed.run t.1).1, besideLog (q.queue.closed.run t.1).2 t) }
  fileText := q.fileText

/-- The log changes nothing of what is done. -/
theorem shadows_logged (q : Enqueuer σ) : q.logged.Shadows Prod.fst q where
  config := rfl
  fileText := rfl
  capacity := rfl
  client := {
    retry := rfl
    patience := rfl
    status := Call.echoes_logging _ _
    pause := fun _ => Unending.shadows_onPart (fun _ _ => rfl) _ }
  push r := by
    have first : ((q.queue.push r).onPart Prod.fst besideLog).Shadows
        (Prod.fst : σ × EnqueueLog σ → σ) (q.queue.push r) :=
      Unending.shadows_onPart (fun _ _ => rfl) _
    exact first.then_aside fun taken => .aside (fun _ => rfl) fun _ => .done taken
  waiting _ := ⟨rfl, rfl⟩
  closed _ := ⟨rfl, rfl⟩
  highest _ := Call.echoes_logging _ _
  status _ _ _ := Call.echoes_logging _ _
  heights _ _ _ _ := Call.echoes_logging _ _
  unresolved _ := Call.echoes_logging _ _

open EnqueueLog

variable {q : Enqueuer σ}

/-! ## Waiting -/

theorem quiet_pause (q : Enqueuer σ) (span : Span) :
    Task.LogsOk (q.logged.pause span) fun _ new => new = [] :=
  Task.logsOk_quiet (Task.always_ofUnending (Unending.always_besideLog _))

theorem quiet_throttle (q : Enqueuer σ) : Task.LogsOk q.logged.throttle fun _ new => new = [] := by
  unfold Enqueuer.throttle
  split
  · exact Task.logsOk_pure rfl
  · exact q.quiet_pause _

theorem quiet_waitForRefill (q : Enqueuer σ) (rounds : Nat) :
    Task.LogsOk (q.logged.waitForRefill rounds) fun _ new => new = [] := by
  have quiet {α : Type} {m : StateM (σ × EnqueueLog σ) α} (h : ∀ t, (m.run t).2.2 = t.2) :
      Task.LogsOk (Task.ofState m : Task _ EnqueueError α) fun _ new => new = [] :=
    Task.logsOk_quiet (Task.always_ofState h)
  induction rounds with
  | zero => exact Task.logsOk_never
  | succ rounds ih =>
    refine (quiet (m := q.logged.queue.waiting) fun _ => rfl).quiet_bind fun waiting => ?_
    split
    · exact Task.logsOk_pure rfl
    · refine (quiet (m := q.logged.queue.closed) fun _ => rfl).quiet_bind fun closed => ?_
      split
      · exact Task.logsOk_throw
      · exact (q.quiet_pause _).quiet_bind fun _ => ih

/-! ## Asking and pushing -/

/-- The node is asked until it answers. -/
theorem logsOk_status (q : Enqueuer σ) : Task.LogsOk q.logged.client.status fun status new =>
    ∃ errors, new = ofStatus errors status := by
  have asked : (Task.ofCall id q.logged.client.node.status).outcome.Logs fun answer new =>
      ∃ s, (q.client.node.status.run.run s).1 = answer ∧ new = [.status answer] :=
    Task.logs_ofCall_id
  unfold Client.status Client.retrying RetryPolicy.retry
  generalize q.logged.client.retry.budget?.getD q.logged.client.patience = tries
  generalize 0 = attempt
  induction tries generalizing attempt with
  | zero => exact Task.logsOk_never
  | succ tries ih =>
    unfold RetryPolicy.retryFrom
    refine Task.logs_ofUnending_bind asked ?_
    rintro answer _ ⟨-, -, rfl⟩
    cases answer with
    | ok status => exact (Task.logsOk_pure ⟨[], rfl⟩).mono fun _ _ ends => ends
    | error e =>
      dsimp only
      split
      · exact Task.logsOk_throw
      · refine Task.logs_quiet_bind (Unending.always_besideLog _) fun _ => ?_
        refine (ih (attempt + 1)).mono ?_
        rintro status _ ⟨errors, rfl⟩
        exact ⟨e :: errors, rfl⟩

theorem logsOk_listing {α : Type} (call : Call σ StoreError α) :
    Task.LogsOk (Task.ofCall EnqueueError.store (call.logging fun s _ => EnqueueCall.listing s))
      fun a new => ∃ s, (call.run.run s).1 = .ok a ∧ new = [.listing s] :=
  Task.logsOk_ofCall

theorem logsOk_push (q : Enqueuer σ) (r : Request) :
    Task.LogsOk (Enqueuer.push q.logged r) fun _ new => new = ofPushes [r] := by
  have pushed : (q.logged.queue.push r).Logs fun taken new => new = [.push r taken] := by
    refine (Unending.logs_of_always (Unending.always_besideLog _)).bind ?_
    rintro taken _ rfl
    have noted : (modify fun t => (t.1, t.2 ++ [.push r taken]) :
        Unending (σ × EnqueueLog σ) PUnit).Logs fun _ new => new = [.push r taken] :=
      Unending.logs_ofState fun t => ⟨_, rfl, rfl⟩
    refine noted.bind ?_
    rintro _ _ rfl
    exact Unending.logs_done rfl
  refine (Task.logsOk_ofUnending pushed).bind ?_
  rintro taken _ rfl
  cases taken with
  | true => exact Task.logsOk_pure rfl
  | false => exact Task.logsOk_throw

theorem logsOk_pushAll (q : Enqueuer σ) (rs : List Request) :
    Task.LogsOk (q.logged.pushAll rs) fun _ new => new = ofPushes rs := by
  induction rs with
  | nil => exact Task.logsOk_pure rfl
  | cons r rs ih =>
    refine (q.logsOk_push r).bind ?_
    rintro _ _ rfl
    exact ih.mono fun _ _ logged => congrArg (ofPushes [r] ++ ·) logged

/-- Listed requests are pushed up to the configured end. -/
theorem logsOk_pushListed (q : Enqueuer σ) (rs : List Request) :
    Task.LogsOk (q.logged.pushListed rs) fun pushed new => new = ofPushes pushed ∧
      pushed = rs.takeWhile fun r => !q.config.indexer.pastEnd r.height := by
  induction rs with
  | nil => exact Task.logsOk_pure ⟨rfl, rfl⟩
  | cons r rs ih =>
    unfold Enqueuer.pushListed
    split
    · next past =>
      have past : q.config.indexer.pastEnd r.height = true := past
      exact Task.logsOk_pure ⟨rfl, by simp [past]⟩
    · next inside =>
      refine (q.logsOk_push r).bind ?_
      rintro _ _ rfl
      refine q.quiet_throttle.quiet_bind fun _ => ih.bind ?_
      rintro pushed _ ⟨rfl, rfl⟩
      have inside : q.config.indexer.pastEnd r.height = false := (Bool.not_eq_true _).mp inside
      exact Task.logsOk_pure ⟨by simp [ofPushes], by simp [inside]⟩

end Enqueuer

end ChainIndex
