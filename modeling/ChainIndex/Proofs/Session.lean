/-
Sessions of a database. `Does` says what a session does to the view of the tables
wherever all its statements are accepted, with one rule for each way to put a
session together and one for each write of a height. On a server that fails
nothing, `Yields` says that a session is accepted, and what it leaves; a new
database can be migrated there, and has no rows afterwards.
-/
import ChainIndex.Database.Migrate
import ChainIndex.Proofs.Outcomes
import ChainIndex.Proofs.StoreView

namespace ChainIndex.Database

variable {φ α β γ : Type}

theorem Server.run_execute (s : Server φ) (statement : Statement) (db : Database φ) :
    (s.execute statement).run.run db =
      (if ((s.fails statement).run db.faults).1 then .error (statement.text ++ " failed") else .ok (),
        { db with faults := ((s.fails statement).run db.faults).2 }) := by
  have ran : (s.execute statement).run.run db =
      (if ((s.fails statement).run db.faults).1 then
          (throw (statement.text ++ " failed") : Session φ Unit)
        else pure ()).run.run { db with faults := ((s.fails statement).run db.faults).2 } := rfl
  rw [ran]
  split <;> rfl

/-! ## What an accepted session does -/

/-- Where the session is accepted, it changes the view as `f` says, and applies no
migration. -/
def Does (session : Session φ α) (f : StoreView → StoreView) : Prop :=
  ∀ ⦃db a after⦄, session.run.run db = (.ok a, after) →
    after.applied = db.applied ∧ after.tables.view = f db.tables.view

namespace Does

variable {session : Session φ α} {next : α → Session φ β} {f g : StoreView → StoreView}
  {s : Server φ} {table : TableName} {change : Tables → Tables}

theorem congr (h : Does session f) (same : ∀ v, f v = g v) : Does session g :=
  funext same ▸ h

theorem pure (a : α) : Does (Pure.pure a : Session φ α) id := by
  intro db b after h
  cases h
  exact ⟨rfl, rfl⟩

theorem throw (e : String) : Does (MonadExcept.throw e : Session φ α) f := by
  intro db a after h
  cases h

theorem get : Does (MonadState.get : Session φ (Database φ)) id := by
  intro db b after h
  cases h
  exact ⟨rfl, rfl⟩

theorem bind (first : Does session f) (rest : ∀ a, Does (next a) g) :
    Does (session >>= next) fun v => g (f v) := by
  intro db b after h
  obtain ⟨a, between, ran, h⟩ := Call.run_bind_eq_ok h
  obtain ⟨applied, view⟩ := first ran
  obtain ⟨applied', view'⟩ := rest a h
  exact ⟨applied'.trans applied, view'.trans (congrArg g view)⟩

theorem modify (h : ∀ t, (change t).view = f t.view) :
    Does (modify fun db => { db with tables := change db.tables } : Session φ Unit) f := by
  intro db b after ran
  cases ran
  exact ⟨rfl, h db.tables⟩

theorem forM {xs : List α} {body : α → Session φ PUnit} {f : α → StoreView → StoreView}
    (each : ∀ x, Does (body x) (f x)) :
    Does (xs.forM body) fun v => xs.foldl (fun v x => f x v) v := by
  induction xs with
  | nil => exact pure _
  | cons x xs ih => exact (each x).bind fun _ => ih

theorem execute (s : Server φ) (statement : Statement) : Does (s.execute statement) id := by
  intro db b after h
  rw [Server.run_execute] at h
  obtain ⟨-, rfl⟩ := Prod.mk.inj h
  exact ⟨rfl, rfl⟩

theorem query (s : Server φ) (command : Command) (table : TableName) :
    Does (s.query command table) id :=
  get.bind fun db => by
    cases db.hasTable table with
    | true => exact execute s _
    | false => exact throw _

theorem write {change : Tables → Tables} (s : Server φ) (command : Command) (table : TableName)
    (h : ∀ t, (change t).view = f t.view) : Does (s.write command table change) f :=
  (query s command table).bind fun _ => modify h

theorem insert {rows : Except RowError β} {change : β → Tables → Tables} (s : Server φ)
    (table : TableName) (h : ∀ r, rows = .ok r → ∀ t, (change r t).view = f t.view) :
    Does (s.insert table rows change) f := by
  refine get.bind fun db => ?_
  cases db.hasColumns table with
  | false => exact throw _
  | true =>
    refine (execute s _).bind fun _ => ?_
    cases read : rows with
    | ok r => exact modify (h r read)
    | error e => exact throw _

/-- Rows of which there are none are not inserted. -/
theorem insertMany {rows : List β} {read : β → Except RowError γ}
    {change : List γ → Tables → Tables} (s : Server φ) (table : TableName)
    (none : rows = [] → ∀ v, v = f v)
    (h : ∀ r, rows.mapM read = .ok r → ∀ t, (change r t).view = f t.view) :
    Does (s.insertMany table rows read change) f := by
  unfold Server.insertMany
  cases rows with
  | nil => exact (pure _).congr (none rfl)
  | cons row rows => exact insert s table h

theorem transaction (s : Server φ) (body : Does session f) : Does (s.transaction session) f := by
  have statements : Does (do
      s.execute .start
      let result ← session
      s.execute .commit
      return result) f :=
    (execute s _).bind fun _ => body.bind fun _ => (execute s _).bind fun _ => pure _
  intro db a after h
  dsimp only [Server.transaction, ExceptT.run, ExceptT.mk, StateT.run] at h
  split at h
  · next ran =>
    cases h
    exact statements ran
  · cases h

end Does

/-! ## Rows -/

theorem TxRow.ofRecord_spec {tx : TxRecord} {row : TxRow} (h : TxRow.ofRecord tx = .ok row) :
    row.messages = [] ∧ row.height = tx.height := by
  obtain ⟨_, -, h⟩ := bind_eq_ok h
  obtain ⟨_, -, h⟩ := bind_eq_ok h
  cases h
  exact ⟨rfl, rfl⟩

theorem MessageRow.typeUrl_ofMessage {m : TxMessage} {row : MessageRow}
    (h : MessageRow.ofMessage m = .ok row) : row.typeUrl = m.typeUrl := by
  obtain ⟨_, -, h⟩ := bind_eq_ok h
  obtain ⟨_, -, h⟩ := bind_eq_ok h
  rw [← Except.ok.inj h]

theorem MessageRow.typeUrls_ofMessage {ms : List TxMessage} {rows : List MessageRow}
    (h : ms.mapM MessageRow.ofMessage = .ok rows) :
    rows.map (·.typeUrl) = ms.map (·.typeUrl) := by
  induction ms generalizing rows with
  | nil =>
    cases h
    rfl
  | cons m ms ih =>
    rw [List.mapM_cons] at h
    obtain ⟨row, first, h⟩ := bind_eq_ok h
    obtain ⟨rest, later, h⟩ := bind_eq_ok h
    cases h
    rw [List.map_cons, List.map_cons, typeUrl_ofMessage first, ih later]

/-! ## What the writes do -/

namespace Does

variable (s : Server φ)

theorem upsertBlock (b : BlockHeader) (indexed : Option DataKind) :
    Does (s.upsertBlock b indexed) (StoreView.mark b.chainId b.height
      (indexed == some .transactions) (indexed == some .blockEvents)) :=
  insert s .blocks fun _ _ t => t.view_upsertBlock b indexed

theorem backfillDenoms (bases : List String) : Does (s.backfillDenoms bases) id :=
  insertMany s .denoms (fun _ _ => rfl) fun _ _ t => t.view_addDenoms _

theorem upsertTx (chainId : String) (tx : TxRecord) :
    Does (s.upsertTx chainId tx) (StoreView.putTx chainId tx) := by
  let key := (chainId, tx.hash)
  let types := tx.messages.map (·.typeUrl)
  have hidden {f : TxRow → TxRow} (same : ∀ row, (f row).seen = row.seen) (t : Tables) :
      (t.onTx key f).view = id t.view := t.view_onTx_of_seen _ same
  refine congr (f := fun v => ((v.fileTx key tx.height).dropTypes key).addTypes key types) ?_
    (StoreView.addTypes_dropTypes_fileTx chainId tx)
  unfold Server.upsertTx
  -- One step for each statement; those that touch no messages are hidden from the view.
  refine bind (f := StoreView.fileTx key tx.height)
    (g := fun v => (v.dropTypes key).addTypes key types)
    (insert s _ fun row read t => ?_) fun _ => ?_
  · obtain ⟨_, -, read⟩ := bind_eq_ok read
    obtain ⟨bare, height⟩ := TxRow.ofRecord_spec read
    exact height ▸ t.view_fileTx key bare
  refine bind (f := StoreView.dropTypes key) (g := StoreView.addTypes key types)
    (write s _ _ fun t => t.view_onTx _ fun _ => rfl) fun _ => ?_
  refine bind (f := id) (g := StoreView.addTypes key types)
    (write s _ _ (hidden fun _ => rfl)) fun _ => ?_
  refine bind (f := id) (g := StoreView.addTypes key types)
    (write s _ _ (hidden fun _ => rfl)) fun _ => ?_
  refine bind (f := StoreView.addTypes key types) (g := id)
    (insertMany s _ (fun none v => ?_) fun rows read t => ?_) fun _ => ?_
  · rw [show types = [] from congrArg _ none, StoreView.addTypes_nil]
  · rw [show types = rows.map (·.typeUrl) from (MessageRow.typeUrls_ofMessage read).symm]
    exact t.view_onTx _ fun row => by simp [TxRow.seen]
  refine bind (f := id) (g := id)
    (insertMany s _ (fun _ _ => rfl) fun _ _ => hidden fun _ => rfl) fun _ => ?_
  exact insertMany s _ (fun _ _ => rfl) fun _ _ => hidden fun _ => rfl

theorem replaceEvents (b : EventBatch) : Does (s.replaceEvents b) id := by
  unfold Server.replaceEvents
  refine bind (f := id) (g := id) (write s _ _ fun _ => rfl) fun _ => ?_
  refine bind (f := id) (g := id) (write s _ _ fun _ => rfl) fun _ => ?_
  refine bind (f := id) (g := id) (insertMany s _ (fun _ _ => rfl) fun _ _ _ => rfl) fun _ => ?_
  exact insertMany s _ (fun _ _ => rfl) fun _ _ _ => rfl

theorem resolve (chainId : String) (height : Int) (kind : DataKind) :
    Does (s.resolve chainId height kind) (StoreView.resolve chainId height kind) :=
  (query s .update .failedBlocks).bind fun _ => get.bind fun _ =>
    (modify fun t => t.view_resolveFailure chainId height kind).bind fun _ => pure _

theorem recordFailure (r : FailureRecord) :
    Does (s.recordFailure r) (StoreView.recordFailure r) :=
  insert s .failedBlocks fun _ _ t => t.view_recordFailure r

theorem writeTxs (b : TxBatch) : Does (s.writeTxs b) (StoreView.writeTxs b) := by
  unfold Server.writeTxs StoreView.writeTxs
  cases complete : b.isComplete with
  | true =>
    exact (upsertBlock s _ _).bind fun _ => (backfillDenoms s _).bind fun _ =>
      (forM fun tx => upsertTx s b.chainId tx).bind fun _ =>
        (resolve s b.chainId b.height .transactions).bind fun _ => pure _
  | false =>
    exact (upsertBlock s _ _).bind fun _ => (backfillDenoms s _).bind fun _ =>
      (forM fun tx => upsertTx s b.chainId tx).bind fun _ => pure _

theorem writeEvents (b : EventBatch) : Does (s.writeEvents b) (StoreView.writeEvents b) :=
  (upsertBlock s _ _).bind fun _ => (backfillDenoms s _).bind fun _ =>
    (replaceEvents s b).bind fun _ => (resolve s b.chainId b.height .blockEvents).bind fun _ => pure _

end Does

/-! ## Servers that fail nothing -/

/-- No execution of a statement fails. -/
def Server.Reliable (s : Server φ) : Prop :=
  ∀ statement faults, ((s.fails statement).run faults).1 = false

/-- Between two states of the migrations and the rows, the session is accepted with
a value, whatever the server's failing looks like. -/
def Yields (session : Session φ α) (a : α) (before after : Nat × Tables) : Prop :=
  ∀ faults, ∃ faults',
    session.run.run ⟨before.1, before.2, faults⟩ = (.ok a, ⟨after.1, after.2, faults'⟩)

/-- A change of the schema makes no rows. -/
theorem SchemaChange.change_empty (c : SchemaChange) : Tables.empty.change c = .empty := by
  cases c with
  | dropTable name => cases name <;> rfl
  | _ => rfl

namespace Yields

variable {session : Session φ α} {next : α → Session φ β} {a : α} {b : β}
  {x y z : Nat × Tables} {s : Server φ}

theorem pure (a : α) (x : Nat × Tables) : Yields (Pure.pure a : Session φ α) a x x :=
  fun faults => ⟨faults, rfl⟩

theorem bind (first : Yields session a x y) (rest : Yields (next a) b y z) :
    Yields (session >>= next) b x z := by
  intro faults
  obtain ⟨faults', ran⟩ := first faults
  obtain ⟨faults'', ran'⟩ := rest faults'
  exact ⟨faults'', (Call.run_bind_ok ran).trans ran'⟩

theorem get_bind {next : Database φ → Session φ β}
    (rest : ∀ faults, Yields (next ⟨x.1, x.2, faults⟩) b x y) :
    Yields (MonadState.get >>= next) b x y :=
  fun faults => rest faults faults

theorem execute (reliable : s.Reliable) (statement : Statement) (x : Nat × Tables) :
    Yields (s.execute statement) () x x := by
  intro faults
  refine ⟨((s.fails statement).run faults).2, ?_⟩
  rw [Server.run_execute, if_neg (by simp [reliable statement faults])]

/-- A table that is there can be read. -/
theorem read (reliable : s.Reliable) {table : TableName} (rows : Tables → α)
    (there : ((Schema.after x.1).table? table).isSome = true) :
    Yields (s.read table rows) (rows x.2) x x := by
  have query : Yields (s.query .select table) () x x := by
    refine get_bind fun faults => ?_
    rw [if_pos (show hasTable ⟨x.1, x.2, faults⟩ table = true from there)]
    exact execute reliable _ x
  exact query.bind (get_bind fun _ => pure _ x)

theorem transaction (reliable : s.Reliable) (body : Yields session a x y) :
    Yields (s.transaction session) a x y := by
  have statements : Yields (do
      s.execute .start
      let result ← session
      s.execute .commit
      return result) a x y :=
    (execute reliable _ x).bind (body.bind ((execute reliable _ y).bind (pure a y)))
  intro faults
  obtain ⟨faults', ran⟩ := statements faults
  refine ⟨faults', ?_⟩
  dsimp only [Server.transaction, ExceptT.run, ExceptT.mk, StateT.run] at ran ⊢
  rw [ran]

/-! ### Migrating a new database -/

theorem change (reliable : s.Reliable) (c : SchemaChange) (n : Nat) :
    Yields (s.change c) () (n, .empty) (n, .empty) := by
  refine (execute reliable _ _).bind fun faults => ⟨faults, ?_⟩
  have kept := c.change_empty
  exact congrArg (fun t => (Except.ok (), (⟨n, t, faults⟩ : Database φ))) kept

theorem forM {xs : List α} {body : α → Session φ PUnit} (each : ∀ y, Yields (body y) ⟨⟩ x x) :
    Yields (xs.forM body) ⟨⟩ x x := by
  induction xs with
  | nil => exact pure _ x
  | cons y ys ih => exact (each y).bind ih

theorem applyAll (reliable : s.Reliable) (ms : List Migration) (n : Nat) :
    Yields (s.applyAll ms) () (n, .empty) (n + ms.length, .empty) := by
  induction ms generalizing n with
  | nil => exact pure _ _
  | cons m ms ih =>
    have counted : Yields (modify fun db => { db with applied := db.applied + 1 } :
        Session φ Unit) () (n, .empty) (n + 1, .empty) := fun faults => ⟨faults, rfl⟩
    have first : Yields (do
        m.up.forM s.change
        s.execute (.on .insert Server.migrationTable)
        modify fun db => { db with applied := db.applied + 1 }) () (n, .empty) (n + 1, .empty) :=
      (forM fun c => change reliable c n).bind ((execute reliable _ _).bind counted)
    have rest := ih (n + 1)
    rw [Nat.add_right_comm] at rest
    exact first.bind rest

/-- A new database takes all migrations, and has no rows afterwards. -/
theorem migrate (reliable : s.Reliable) :
    Yields (s.migrate (.up none)) () (0, .empty) (Migration.all.length, .empty) := by
  have counted : Yields s.appliedCount 0 (0, .empty) (0, .empty) :=
    (execute reliable _ _).bind ((execute reliable _ _).bind (get_bind fun _ => pure _ _))
  have applied := applyAll reliable Migration.all 0
  exact transaction reliable (counted.bind (Nat.zero_add Migration.all.length ▸ applied))

end Yields

end ChainIndex.Database
