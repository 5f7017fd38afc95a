/-
Writes of a database as lists of statements. A `Step` is one statement on a table
and what it does to the rows. Every write performs its steps one after another, the
steps of a batch in one transaction; so a write is accepted if all its steps fit the
schema and can be stored and the server fails none of its statements, and then its
steps say what has become of the rows.
-/
import ChainIndex.Proofs.Interchange

namespace ChainIndex.Database

variable {φ α β : Type}

/-- A statement with what it does to the rows. -/
inductive Step where
  /-- The beginning or the end of a transaction. -/
  | border (statement : Statement)
  /-- An insertion, if its rows can be stored. -/
  | insert (table : TableName) (change : Except RowError (Tables → Tables))
  | write (command : Command) (table : TableName) (change : Tables → Tables)

namespace Step

def statement : Step → Statement
  | border statement => statement
  | insert table _ => .on .insert table.text
  | write command table _ => .on command table.text

/-- What the statement does to the rows; nothing if its own cannot be stored. -/
def apply : Step → Tables → Tables
  | border _ => id
  | insert _ (.ok change) => change
  | insert _ (.error _) => id
  | write _ _ change => change

/-- After so many migrations the table is as the statement needs it, and the rows can
be stored. -/
def Fits (applied : Nat) : Step → Prop
  | border _ => True
  | insert table change =>
    (Schema.after applied).table? table = Schema.latest.table? table ∧ change.isOk = true
  | write _ table _ => ((Schema.after applied).table? table).isSome = true

instance (applied : Nat) (step : Step) : Decidable (step.Fits applied) :=
  match step with
  | border _ => .isTrue trivial
  | insert _ _ => inferInstanceAs (Decidable (_ ∧ _))
  | write _ _ _ => inferInstanceAs (Decidable (_ = true))

/-- The steps as one transaction. -/
def asTransaction (steps : List Step) : List Step :=
  border .start :: (steps ++ [border .commit])

end Step

/-- The rows after some steps. -/
def Tables.after (steps : List Step) (t : Tables) : Tables :=
  steps.foldl (fun t step => step.apply t) t

namespace Tables

@[simp] theorem after_nil (t : Tables) : t.after [] = t := rfl

@[simp] theorem after_cons (step : Step) (steps : List Step) (t : Tables) :
    t.after (step :: steps) = (step.apply t).after steps := rfl

@[simp] theorem after_append (steps more : List Step) (t : Tables) :
    t.after (steps ++ more) = (t.after steps).after more :=
  List.foldl_append ..

end Tables

/-! ## Steps of writes -/

namespace Step

/-- The insertion of several rows, if there are any. -/
def insertAll (table : TableName) (rows : List α) (read : α → Except RowError β)
    (change : List β → Tables → Tables) : List Step :=
  if rows.isEmpty then [] else [insert table ((rows.mapM read).map change)]

def upsertBlock (b : BlockHeader) (indexed : Option DataKind) : Step :=
  insert .blocks ((checkTexts [b.chainId, b.hash, b.proposer.getD ""]).map fun _ t =>
    { t with blocks := t.blocks.update (b.chainId, b.height) (BlockRow.written b indexed) })

def backfillDenoms (bases : List String) : List Step :=
  insertAll .denoms (ascending bases)
    (fun base => do
      checkTexts [base]
      return base)
    Tables.addDenoms

/-- The row of a transaction of a chain. -/
def txRow (chainId : String) (tx : TxRecord) : Except RowError TxRow := do
  checkTexts [chainId]
  TxRow.ofRecord tx

/-- First the row of a transaction, then the rows that belong to it in place of the
old ones. -/
def upsertTx (chainId : String) (tx : TxRecord) : List Step :=
  let key := (chainId, tx.hash)
  [insert .txes ((txRow chainId tx).map fun row t =>
      { t with txs := t.txs.update key row.written }),
    write .delete .messages (Tables.onTx key fun row => { row with messages := [] }),
    write .delete .fees (Tables.onTx key fun row => { row with fees := [] }),
    write .delete .messageData (Tables.onTx key fun row => { row with data := [] })] ++
  insertAll .messages tx.messages MessageRow.ofMessage (fun rows =>
    Tables.onTx key fun row => { row with messages := row.messages ++ rows }) ++
  insertAll .fees tx.fees FeeRow.ofFee (fun rows =>
    Tables.onTx key fun row => { row with fees := row.fees ++ rows }) ++
  insertAll .messageData tx.data MessageDataRow.ofData fun rows =>
    Tables.onTx key fun row => { row with data := row.data ++ rows }

/-- The row of an event of a chain. -/
def eventRow (chainId : String) (e : BlockEvent) : Except RowError BlockEventRow := do
  checkTexts [chainId]
  BlockEventRow.ofEvent e

def dataRow (chainId : String) (d : EventData) : Except RowError EventDataRow := do
  checkTexts [chainId]
  EventDataRow.ofData d

def replaceEvents (b : EventBatch) : List Step :=
  let key := (b.chainId, b.height)
  [write .delete .blockEvents (Tables.setEvents key []),
    write .delete .eventData (Tables.setEventData key [])] ++
  insertAll .blockEvents b.events (eventRow b.chainId) (Tables.setEvents key) ++
  insertAll .eventData b.data (dataRow b.chainId) (Tables.setEventData key)

def resolve (chainId : String) (height : Int) (kind : DataKind) : Step :=
  write .update .failedBlocks (Tables.resolveFailure (chainId, height, kind.name))

def recordFailure (r : FailureRecord) : Step :=
  insert .failedBlocks ((checkTexts [r.chainId, r.chainName]).map fun _ t =>
    { t with
      failures := t.failures.update (r.chainId, r.height, r.kind.name) (FailedBlockRow.written r) })

end Step

end Database

open Database

def TxBatch.header (b : TxBatch) : BlockHeader where
  chainId := b.chainId
  height := b.height
  hash := b.blockHash
  time := b.time
  proposer := some b.proposer

def EventBatch.header (b : EventBatch) : BlockHeader where
  chainId := b.chainId
  height := b.height
  hash := b.blockHash
  time := b.time
  proposer := none

/-- The kind of data that a batch of transactions is all there is of. -/
def TxBatch.indexed (b : TxBatch) : Option DataKind :=
  if b.isComplete then some .transactions else none

namespace StoreWrite

def steps : StoreWrite → List Step
  | failure r => [.recordFailure r]
  | txs b =>
    .upsertBlock b.header b.indexed ::
      (Step.backfillDenoms (b.txs.flatMap fun tx => tx.fees.map (·.denom)) ++
        b.txs.flatMap (Step.upsertTx b.chainId) ++
        if b.isComplete then [.resolve b.chainId b.height .transactions] else [])
  | events b =>
    .upsertBlock b.header (some .blockEvents) ::
      (Step.backfillDenoms (b.data.map (·.denom)) ++ Step.replaceEvents b ++
        [.resolve b.chainId b.height .blockEvents])

/-- The steps with the borders of the transaction in which a batch is written. -/
def allSteps : StoreWrite → List Step
  | failure r => steps (.failure r)
  | txs b => Step.asTransaction (steps (.txs b))
  | events b => Step.asTransaction (steps (.events b))

def statements (w : StoreWrite) : List Statement :=
  w.allSteps.map (·.statement)

end StoreWrite

namespace Database.Server

variable {φ α β : Type} (s : Server φ)

def perform : Step → Session φ Unit
  | .border statement => s.execute statement
  | .insert table change => s.insert table change id
  | .write command table change => s.write command table change

theorem insert_eq_perform (table : TableName) (rows : Except RowError α)
    (change : α → Tables → Tables) :
    s.insert table rows change = s.perform (.insert table (rows.map change)) := by
  cases rows <;> rfl

def performAll (steps : List Step) : Session φ Unit := steps.forM s.perform

@[simp] theorem performAll_nil : s.performAll [] = pure () := rfl

@[simp] theorem performAll_cons (step : Step) (steps : List Step) :
    s.performAll (step :: steps) = (do s.perform step; s.performAll steps) := rfl

@[simp] theorem performAll_append (steps more : List Step) :
    s.performAll (steps ++ more) = (do s.performAll steps; s.performAll more) := by
  unfold performAll
  simp only [List.forM_eq_forM, List.forM_append]

theorem performAll_flatMap (xs : List α) (steps : α → List Step) :
    s.performAll (xs.flatMap steps) = xs.forM fun x => s.performAll (steps x) := by
  induction xs with
  | nil => rfl
  | cons x xs ih =>
    rw [List.flatMap_cons, performAll_append, ih]
    rfl

theorem insertMany_eq_performAll (table : TableName) (rows : List α)
    (read : α → Except RowError β) (change : List β → Tables → Tables) :
    s.insertMany table rows read change =
      s.performAll (Step.insertAll table rows read change) := by
  unfold insertMany Step.insertAll
  cases rows with
  | nil => rfl
  | cons row rows =>
    have performed := s.insert_eq_perform table ((row :: rows).mapM read) change
    simpa using performed

theorem upsertBlock_eq_perform (b : BlockHeader) (indexed : Option DataKind) :
    s.upsertBlock b indexed = s.perform (.upsertBlock b indexed) :=
  s.insert_eq_perform _ _ _

theorem backfillDenoms_eq_performAll (bases : List String) :
    s.backfillDenoms bases = s.performAll (Step.backfillDenoms bases) :=
  s.insertMany_eq_performAll _ _ _ _

theorem write_eq_perform (command : Command) (table : TableName) (change : Tables → Tables) :
    s.write command table change = s.perform (.write command table change) := rfl

theorem upsertTx_eq_performAll (chainId : String) (tx : TxRecord) :
    s.upsertTx chainId tx = s.performAll (Step.upsertTx chainId tx) := by
  unfold upsertTx Step.upsertTx
  simp only [insertMany_eq_performAll, insert_eq_perform, write_eq_perform, performAll_append,
    performAll_cons, performAll_nil, bind_assoc, pure_bind]
  rfl

theorem replaceEvents_eq_performAll (b : EventBatch) :
    s.replaceEvents b = s.performAll (Step.replaceEvents b) := by
  unfold replaceEvents Step.replaceEvents
  simp only [insertMany_eq_performAll, write_eq_perform, performAll_append,
    performAll_cons, performAll_nil, bind_assoc, pure_bind]
  rfl

/-- How many failures there were to resolve makes no difference. -/
theorem resolve_eq_perform (chainId : String) (height : Int) (kind : DataKind) :
    (do let _ ← s.resolve chainId height kind) = s.perform (.resolve chainId height kind) := by
  unfold resolve Step.resolve perform write
  simp only [bind_assoc, pure_bind]
  rfl

theorem recordFailure_eq_perform (r : FailureRecord) :
    s.recordFailure r = s.perform (.recordFailure r) :=
  s.insert_eq_perform _ _ _

theorem writeTxs_eq_performAll (b : TxBatch) :
    s.writeTxs b = s.performAll (StoreWrite.txs b).steps := by
  have each : s.performAll (b.txs.flatMap (Step.upsertTx b.chainId)) =
      b.txs.forM (s.upsertTx b.chainId) := by
    rw [performAll_flatMap]
    exact congrArg b.txs.forM (funext fun tx => (s.upsertTx_eq_performAll b.chainId tx).symm)
  have resolved : (if b.isComplete then do
        let _ ← s.resolve b.chainId b.height .transactions
      else pure ()) = s.performAll (if b.isComplete then
        [.resolve b.chainId b.height .transactions] else []) := by
    split
    · rw [resolve_eq_perform, performAll_cons, performAll_nil, bind_pure_unit]
    · rfl
  unfold writeTxs StoreWrite.steps
  simp only [performAll_append, performAll_cons, bind_assoc, each, ← resolved,
    upsertBlock_eq_perform, backfillDenoms_eq_performAll]
  rfl

theorem writeEvents_eq_performAll (b : EventBatch) :
    s.writeEvents b = s.performAll (StoreWrite.events b).steps := by
  have resolved : (do let _ ← s.resolve b.chainId b.height .blockEvents) =
      s.performAll [.resolve b.chainId b.height .blockEvents] := by
    rw [resolve_eq_perform, performAll_cons, performAll_nil, bind_pure_unit]
  unfold writeEvents StoreWrite.steps
  simp only [performAll_append, performAll_cons, bind_assoc, ← resolved,
    upsertBlock_eq_perform, backfillDenoms_eq_performAll, replaceEvents_eq_performAll]
  rfl

/-! ## Performing steps -/

/-- The first of some statements that the server fails, if there is any. -/
def firstFailure : List Statement → StateM φ (Option Statement)
  | [] => return none
  | statement :: rest => do
    if ← s.fails statement then return some statement
    firstFailure rest

theorem run_firstFailure_cons (statement : Statement) (rest : List Statement) (faults : φ) :
    (s.firstFailure (statement :: rest)).run faults =
      if ((s.fails statement).run faults).1 then
        (some statement, ((s.fails statement).run faults).2)
      else (s.firstFailure rest).run ((s.fails statement).run faults).2 := by
  have ran : (s.firstFailure (statement :: rest)).run faults =
      (if ((s.fails statement).run faults).1 then pure (some statement)
        else s.firstFailure rest : StateM φ (Option Statement)).run
        ((s.fails statement).run faults).2 := rfl
  rw [ran]
  split <;> rfl

variable {s} {db after : Database φ} {step : Step} {steps : List Step}

/-- A step that fits changes the rows once its statement is executed. -/
theorem run_perform_of_fits (fits : step.Fits db.applied) :
    (s.perform step).run.run db = (do
      s.execute step.statement
      modify fun db => { db with tables := step.apply db.tables } : Session φ Unit).run.run db := by
  cases step with
  | border statement =>
    have nothing : (modify fun db => { db with tables := (Step.border statement).apply db.tables } :
        Session φ Unit) = pure () := rfl
    rw [nothing, bind_pure_unit]
    rfl
  | insert table change =>
    obtain ⟨columns, stored⟩ := fits
    cases change with
    | error e => cases stored
    | ok change =>
      have there : db.hasColumns table = true := beq_iff_eq.mpr columns
      change (ite ((!db.hasColumns table) = true) (throw _) _ : Session φ Unit).run.run db = _
      rw [there]
      rfl
  | write command table change =>
    have there : db.hasTable table = true := fits
    have queried : (s.query command table).run.run db =
        (s.execute (.on command table.text)).run.run db := by
      change (ite (db.hasTable table = true) _ _ : Session φ Unit).run.run db = _
      rw [there]
      rfl
    exact Call.run_bind_congr queried _

/-- A step that does not fit is refused, and changes no rows. -/
theorem run_perform_refused (misfit : ¬step.Fits db.applied) :
    ∃ e faults, (s.perform step).run.run db = (.error e, { db with faults }) := by
  cases step with
  | border statement => exact absurd trivial misfit
  | insert table change =>
    change ∃ e faults, (ite ((!db.hasColumns table) = true) (throw _) _ :
      Session φ Unit).run.run db = (.error e, { db with faults })
    by_cases columns : (Schema.after db.applied).table? table = Schema.latest.table? table
    · have there : db.hasColumns table = true := beq_iff_eq.mpr columns
      cases change with
      | ok change => exact absurd ⟨columns, rfl⟩ misfit
      | error e =>
        have executed := s.run_execute (.on .insert table.text) db
        rw [there]
        cases failed : ((s.fails (.on .insert table.text)).run db.faults).1 with
        | true =>
          rw [failed, if_pos rfl] at executed
          exact ⟨_, _, Call.run_bind_error executed⟩
        | false =>
          rw [failed, if_neg Bool.false_ne_true] at executed
          exact ⟨_, _, Call.run_bind_ok executed⟩
    · have there : db.hasColumns table = false := beq_eq_false_iff_ne.mpr columns
      rw [there]
      exact ⟨_, _, rfl⟩
  | write command table change =>
    have there : db.hasTable table = false := Bool.eq_false_iff.mpr misfit
    have queried : (s.query command table).run.run db =
        (.error ("no table " ++ table.text), db) := by
      change (ite (db.hasTable table = true) _ _ : Session φ Unit).run.run db = _
      rw [there]
      rfl
    exact ⟨_, _, Call.run_bind_error queried⟩

/-- A step that fits is performed unless the server fails it. -/
theorem run_perform (fits : step.Fits db.applied) :
    (s.perform step).run.run db =
      if ((s.fails step.statement).run db.faults).1 then
        (.error (step.statement.text ++ " failed"),
          { db with faults := ((s.fails step.statement).run db.faults).2 })
      else
        (.ok (), ⟨db.applied, step.apply db.tables,
          ((s.fails step.statement).run db.faults).2⟩) := by
  have executed := s.run_execute step.statement db
  rw [run_perform_of_fits fits]
  split
  · next failed =>
    rw [if_pos failed] at executed
    exact Call.run_bind_error executed
  · next accepted =>
    rw [if_neg accepted] at executed
    exact Call.run_bind_ok executed

/-- Steps are accepted if they all fit and the server fails none of them. -/
theorem run_performAll_eq_ok : (s.performAll steps).run.run db = (.ok (), after) ↔
    (∀ step ∈ steps, step.Fits db.applied) ∧
      (s.firstFailure (steps.map (·.statement))).run db.faults = (none, after.faults) ∧
        after.applied = db.applied ∧ after.tables = db.tables.after steps := by
  induction steps generalizing db with
  | nil =>
    constructor
    · intro h
      cases h
      exact ⟨fun _ mem => absurd mem List.not_mem_nil, rfl, rfl, rfl⟩
    · rintro ⟨-, fails, applied, tables⟩
      obtain ⟨-, faults⟩ := Prod.mk.inj fails
      obtain ⟨n, t, f⟩ := after
      cases applied
      cases tables
      cases faults
      rfl
  | cons step steps ih =>
    rw [performAll_cons, List.map_cons, run_firstFailure_cons, List.forall_mem_cons]
    by_cases fits : step.Fits db.applied
    · have first := run_perform (s := s) fits
      by_cases failed : ((s.fails step.statement).run db.faults).1 = true
      · rw [if_pos failed] at first
        rw [if_pos failed, Call.run_bind_error first]
        constructor
        · intro h
          cases h
        · rintro ⟨-, fails, -⟩
          cases fails
      · rw [if_neg failed] at first
        rw [if_neg failed, Call.run_bind_ok first, ih]
        simp [fits]
    · obtain ⟨e, faults, refused⟩ := run_perform_refused (s := s) fits
      rw [Call.run_bind_error refused]
      constructor
      · intro h
        cases h
      · rintro ⟨⟨fit, -⟩, -⟩
        exact absurd fit fits

/-- Of steps that all fit the first that the server fails is the one that is reported. -/
theorem run_performAll_failed {statement : Statement}
    (fits : ∀ step ∈ steps, step.Fits db.applied)
    (fails : ((s.firstFailure (steps.map (·.statement))).run db.faults).1 = some statement) :
    ((s.performAll steps).run.run db).1 = .error (statement.text ++ " failed") := by
  induction steps generalizing db with
  | nil => cases fails
  | cons step steps ih =>
    have first := run_perform (s := s) (fits step List.mem_cons_self)
    have rest := fun other mem => fits other (List.mem_cons_of_mem step mem)
    rw [List.map_cons, run_firstFailure_cons] at fails
    rw [performAll_cons]
    split at fails
    · next failed =>
      rw [if_pos failed] at first
      rw [Call.run_bind_error first]
      cases fails
      rfl
    · next failed =>
      rw [if_neg failed] at first
      rw [Call.run_bind_ok first]
      exact ih rest fails

end Database.Server

end ChainIndex
