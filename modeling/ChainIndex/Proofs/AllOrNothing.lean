/-
A write is all or nothing. Whatever the state of the database, a write is accepted
with all its rows if they fit and the server fails none of its statements, the first
and the last of its transaction among them. Otherwise its error names it, and every
table is as it was; whatever is written afterwards, it has the rows that it would
have if the failed attempt had never been made.
-/
import ChainIndex.Proofs.Steps

namespace ChainIndex

open Database

/-- The error of a write that was not accepted. -/
def StoreWrite.refusal : StoreWrite → String → StoreError
  | failure r, cause => .failureUpsert r.chainId r.height r.kind cause
  | txs b, cause => .blockWrite b.chainId b.height .transactions (.database cause)
  | events b, cause => .blockWrite b.chainId b.height .blockEvents (.database cause)

namespace Database

variable {φ : Type} {s : Server φ} {db after : Database φ} {steps : List Step} {w : StoreWrite}

/-- The borders of a transaction fit everywhere. -/
theorem Step.fits_asTransaction {applied : Nat} :
    (∀ step ∈ asTransaction steps, step.Fits applied) ↔ ∀ step ∈ steps, step.Fits applied := by
  constructor
  · intro h step mem
    exact h step (List.mem_cons_of_mem _ (List.mem_append_left _ mem))
  · intro h step mem
    rcases List.mem_cons.mp mem with rfl | mem
    · trivial
    · rcases List.mem_append.mp mem with mem | mem
      · exact h step mem
      · obtain rfl := List.mem_singleton.mp mem
        trivial

theorem Tables.after_asTransaction (t : Tables) :
    t.after (Step.asTransaction steps) = t.after steps := by
  simp [Step.asTransaction, Step.apply]

theorem fits_allSteps {applied : Nat} :
    (∀ step ∈ w.allSteps, step.Fits applied) ↔ ∀ step ∈ w.steps, step.Fits applied := by
  cases w with
  | failure r => exact .rfl
  | txs b => exact Step.fits_asTransaction
  | events b => exact Step.fits_asTransaction

theorem Tables.after_allSteps (t : Tables) : t.after w.allSteps = t.after w.steps := by
  cases w with
  | failure r => rfl
  | txs b => exact t.after_asTransaction
  | events b => exact t.after_asTransaction

namespace Server

/-- The statements of a transaction are its steps between its borders. -/
theorem performAll_asTransaction : (do
      s.execute .start
      let result ← s.performAll steps
      s.execute .commit
      return result) = s.performAll (Step.asTransaction steps) := by
  unfold Step.asTransaction
  simp only [performAll_cons, performAll_append, performAll_nil]
  rfl

theorem run_transaction_of_ok
    (h : (s.performAll (Step.asTransaction steps)).run.run db = (.ok (), after)) :
    (s.transaction (s.performAll steps)).run.run db = (.ok (), after) := by
  rw [← performAll_asTransaction] at h
  dsimp only [transaction, ExceptT.run, ExceptT.mk, StateT.run] at h ⊢
  rw [h]

/-- Of a transaction that is refused nothing is kept. -/
theorem run_transaction_of_error {e : String}
    (h : (s.performAll (Step.asTransaction steps)).run.run db = (.error e, after)) :
    (s.transaction (s.performAll steps)).run.run db =
      (.error e, { db with faults := after.faults }) := by
  rw [← performAll_asTransaction] at h
  dsimp only [transaction, ExceptT.run, ExceptT.mk, StateT.run] at h ⊢
  rw [h]

/-- A single step that is refused changes no rows. -/
theorem run_performAll_singleton_of_error {step : Step} {e : String}
    (h : (s.performAll [step]).run.run db = (.error e, after)) :
    after = { db with faults := after.faults } := by
  rw [performAll_cons, performAll_nil, bind_pure_unit] at h
  by_cases fits : step.Fits db.applied
  · rw [run_perform fits] at h
    split at h
    · cases h
      rfl
    · cases h
  · obtain ⟨e', faults, refused⟩ := run_perform_refused (s := s) fits
    rw [refused] at h
    cases h
    rfl

/-- The session of a write. -/
def session (s : Server φ) : StoreWrite → Session φ Unit
  | .failure r => s.performAll (StoreWrite.failure r).steps
  | .txs b => s.transaction (s.performAll (StoreWrite.txs b).steps)
  | .events b => s.transaction (s.performAll (StoreWrite.events b).steps)

theorem write_eq_session (s : Server φ) (w : StoreWrite) :
    s.asStore.write w = ExceptT.mk (Except.mapError w.refusal <$> (s.session w).run) := by
  cases w with
  | failure r =>
    change recording r (s.recordFailure r) = _
    rw [recordFailure_eq_perform, ← bind_pure_unit (x := s.perform _)]
    rfl
  | txs b =>
    change s.writing b.chainId b.height .transactions (s.writeTxs b) = _
    rw [writeTxs_eq_performAll]
    rfl
  | events b =>
    change s.writing b.chainId b.height .blockEvents (s.writeEvents b) = _
    rw [writeEvents_eq_performAll]
    rfl

/-- A write is accepted if its steps are. -/
theorem run_write_of_ok (h : (s.performAll w.allSteps).run.run db = (.ok (), after)) :
    (s.asStore.write w).run.run db = (.ok (), after) := by
  rw [write_eq_session]
  refine Call.run_mapError_eq_ok.mpr ?_
  cases w with
  | failure r => exact h
  | txs b => exact run_transaction_of_ok h
  | events b => exact run_transaction_of_ok h

/-- A write of which a step is refused is refused, and leaves the rows as they were. -/
theorem run_write_of_error {e : String}
    (h : (s.performAll w.allSteps).run.run db = (.error e, after)) :
    (s.asStore.write w).run.run db =
      (.error (w.refusal e), { db with faults := after.faults }) := by
  rw [write_eq_session]
  refine Call.run_mapError_of_error ?_
  cases w with
  | failure r =>
    rw [← run_performAll_singleton_of_error h]
    exact h
  | txs b => exact run_transaction_of_error h
  | events b => exact run_transaction_of_error h

/-- A write is accepted if its rows fit and the server fails none of its statements. -/
theorem run_write_eq_ok : (s.asStore.write w).run.run db = (.ok (), after) ↔
    (∀ step ∈ w.steps, step.Fits db.applied) ∧
      (s.firstFailure w.statements).run db.faults = (none, after.faults) ∧
        after.applied = db.applied ∧ after.tables = db.tables.after w.steps := by
  have performed : (s.performAll w.allSteps).run.run db = (.ok (), after) ↔ _ :=
    run_performAll_eq_ok
  rw [fits_allSteps, Tables.after_allSteps] at performed
  rw [StoreWrite.statements, ← performed]
  constructor
  · intro written
    cases ran : (s.performAll w.allSteps).run.run db with
    | mk result between =>
      cases result with
      | ok u =>
        rw [run_write_of_ok ran] at written
        cases written
        rfl
      | error e =>
        rw [run_write_of_error ran] at written
        cases written
  · exact run_write_of_ok

/-- A write leaves all rows of its steps, or the rows that were there. -/
theorem write_cases (s : Server φ) (w : StoreWrite) (db : Database φ) :
    (∃ faults, (s.asStore.write w).run.run db =
        (.ok (), ⟨db.applied, db.tables.after w.steps, faults⟩) ∧
      ∀ step ∈ w.steps, step.Fits db.applied) ∨
    ∃ e faults, (s.asStore.write w).run.run db = (.error (w.refusal e), { db with faults }) := by
  cases ran : (s.performAll w.allSteps).run.run db with
  | mk result between =>
    cases result with
    | ok u =>
      have written := run_write_of_ok ran
      obtain ⟨fits, -, applied, tables⟩ := run_write_eq_ok.mp written
      refine .inl ⟨between.faults, ?_, fits⟩
      rw [written, ← applied, ← tables]
    | error e => exact .inr ⟨e, between.faults, run_write_of_error ran⟩

/-- Writes that are all accepted leave the rows of all their steps. -/
theorem tables_of_writes {ws : List StoreWrite}
    (h : (ws.forM s.asStore.write).run.run db = (.ok (), after)) :
    after.applied = db.applied ∧ after.tables = db.tables.after (ws.flatMap (·.steps)) := by
  induction ws generalizing db with
  | nil =>
    cases h
    exact ⟨rfl, rfl⟩
  | cons w ws ih =>
    obtain ⟨_, between, written, h⟩ := Call.run_bind_eq_ok h
    obtain ⟨-, -, applied, tables⟩ := run_write_eq_ok.mp written
    obtain ⟨later, rows⟩ := ih h
    refine ⟨later.trans applied, ?_⟩
    rw [rows, tables, List.flatMap_cons, Tables.after_append]

/-- What comes of an attempt to write: all of the write, or nothing. -/
structure AllOrNothing (s : Server φ) (w : StoreWrite) (db : Database φ)
    (result : Except StoreError Unit) (after : Database φ) : Prop where
  /-- The attempt is accepted if all rows fit and no statement fails. -/
  accepted : result = .ok () ↔ (∀ step ∈ w.steps, step.Fits db.applied) ∧
    ((s.firstFailure w.statements).run db.faults).1 = none
  /-- Then the server has seen just these statements, and all rows are there. -/
  all : result = .ok () →
    ((s.firstFailure w.statements).run db.faults).2 = after.faults ∧
      after.tables = db.tables.after w.steps
  /-- A statement that fails, whichever it is, makes the attempt fail. -/
  failed : ∀ statement, ((s.firstFailure w.statements).run db.faults).1 = some statement →
    ∃ cause, result = .error (w.refusal cause)
  /-- If the rows fit, it is the statement that is reported. -/
  reported : ∀ statement, ((s.firstFailure w.statements).run db.faults).1 = some statement →
    (∀ step ∈ w.steps, step.Fits db.applied) →
    result = .error (w.refusal (statement.text ++ " failed"))
  /-- An error of whatever cause names the write, and every table is as it was. -/
  nothing : ∀ e, result = .error e → (∃ cause, e = w.refusal cause) ∧
    after.applied = db.applied ∧ after.tables = db.tables
  /-- Then later writes, of the same batch or of others, leave the same rows as if the
  attempt had not been made. -/
  again : ∀ e, result = .error e → ∀ (ws : List StoreWrite) faults faults' later later',
    (ws.forM s.asStore.write).run.run { after with faults } = (.ok (), later) →
    (ws.forM s.asStore.write).run.run { db with faults := faults' } = (.ok (), later') →
    later.tables = later'.tables

/-- A write that is accepted is there as a whole. -/
theorem allOrNothing_of_ok (written : (s.asStore.write w).run.run db = (.ok (), after)) :
    AllOrNothing s w db (.ok ()) after := by
  obtain ⟨fits, none, -, tables⟩ := run_write_eq_ok.mp written
  have calm : ((s.firstFailure w.statements).run db.faults).1 = .none := congrArg Prod.fst none
  constructor
  case accepted => exact iff_of_true rfl ⟨fits, calm⟩
  case all => exact fun _ => ⟨congrArg Prod.snd none, tables⟩
  case failed =>
    intro statement some
    rw [calm] at some
    cases some
  case reported =>
    intro statement some
    rw [calm] at some
    cases some
  case nothing =>
    intro e refused
    cases refused
  case again =>
    intro e refused
    cases refused

/-- Of a write that is refused there is nothing. -/
theorem allOrNothing_of_error {e : String}
    (ran : (s.performAll w.allSteps).run.run db = (.error e, after)) :
    AllOrNothing s w db (.error (w.refusal e)) { db with faults := after.faults } := by
  constructor
  case accepted =>
    refine iff_of_false (fun h => by cases h) ?_
    rintro ⟨fits, none⟩
    have performed : (s.performAll w.allSteps).run.run db = (.ok (), ⟨db.applied,
        db.tables.after w.allSteps, ((s.firstFailure w.statements).run db.faults).2⟩) :=
      run_performAll_eq_ok.mpr ⟨fits_allSteps.mpr fits, Prod.ext none rfl, rfl, rfl⟩
    rw [performed] at ran
    cases ran
  case all =>
    intro accepted
    cases accepted
  case failed =>
    intro statement fails
    exact ⟨e, rfl⟩
  case reported =>
    intro statement fails fits
    have failed := run_performAll_failed (fits_allSteps.mpr fits) fails
    rw [ran] at failed
    obtain rfl := Except.error.inj failed
    rfl
  case nothing =>
    intro _ refused
    cases refused
    exact ⟨⟨e, rfl⟩, rfl, rfl⟩
  case again =>
    intro _ _ ws faults faults' later later' written written'
    obtain ⟨-, tables⟩ := tables_of_writes written
    obtain ⟨-, tables'⟩ := tables_of_writes written'
    exact tables.trans tables'.symm

/-- **Every write is all or nothing.** -/
theorem write_all_or_nothing (s : Server φ) (w : StoreWrite) (db : Database φ) :
    AllOrNothing s w db ((s.asStore.write w).run.run db).1 ((s.asStore.write w).run.run db).2 := by
  cases ran : (s.performAll w.allSteps).run.run db with
  | mk result between =>
    cases result with
    | ok u =>
      have written := run_write_of_ok ran
      rw [written]
      exact allOrNothing_of_ok written
    | error e =>
      rw [run_write_of_error ran]
      exact allOrNothing_of_error ran

/-- A server that fails one statement: the last of the next few, however many they are. -/
def failsOnce : Server Nat := ⟨fun _ => modifyGet fun left => (left == 1, left - 1)⟩

/-- A transaction with a message, whose height failed before. -/
def retriedBatch : StoreWrite :=
  .txs {
    chainId := "c"
    height := 1
    blockHash := "B1"
    time := default
    proposer := "p"
    txs := [{ (default : TxRecord) with
      hash := "A"
      height := 1
      messages := [⟨0, "/m", .raw [], []⟩] }]
    unprocessable := [] }

/-- The failure of that height. -/
def retriedFailure : Tables :=
  { Tables.empty with failures := [(("c", 1, "tx-data"), ⟨"c", "block_query_error", 1, false⟩)] }

theorem write_all_or_nothing_lateFailure :
    let db : Database Nat := ⟨Migration.all.length, retriedFailure, 8⟩
    let attempt := (failsOnce.asStore.write retriedBatch).run.run db
    retriedBatch.statements.map (·.text) = ["BEGIN", "INSERT blocks", "INSERT txes",
      "DELETE messages", "DELETE fees", "DELETE message_relevant_data", "INSERT messages",
      "UPDATE failed_blocks", "COMMIT"] ∧
    attempt.1 = .error (.blockWrite "c" 1 .transactions (.database "UPDATE failed_blocks failed")) ∧
      attempt.2.tables = db.tables ∧
        ((failsOnce.asStore.write retriedBatch).run.run attempt.2).1 = .ok () := by
  intro db attempt
  have allOrNothing := write_all_or_nothing failsOnce retriedBatch db
  have fails : ((failsOnce.firstFailure retriedBatch.statements).run db.faults).1 =
      some (.on .update "failed_blocks") := by decide +kernel
  have fits : ∀ step ∈ retriedBatch.steps, step.Fits db.applied := by decide +kernel
  have refused := allOrNothing.reported _ fails fits
  obtain ⟨-, -, kept⟩ := allOrNothing.nothing _ refused
  exact ⟨by decide +kernel, refused, kept, by decide +kernel⟩

end Server

end Database

end ChainIndex
