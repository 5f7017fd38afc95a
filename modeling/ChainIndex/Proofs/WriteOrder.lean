/-
Writes in whatever order. In the tables that a migrated database comes to through its
store no two rows have the same key, so the tables are known from what is found under
each key. There a batch that is written twice leaves the rows that it leaves when it
is written once, and independent writes leave the same rows in either order.
-/
import ChainIndex.Proofs.RowWrites
import Mathlib.Data.List.Nodup

namespace ChainIndex

/-- Tables with the same lookups, in which each key stands once, have the same rows. -/
theorem Table.perm_of_get? {κ α : Type} [DecidableEq κ] {t t' : Table κ α}
    (nodup : (t.map (·.1)).Nodup) (nodup' : (t'.map (·.1)).Nodup)
    (same : ∀ key, t.get? key = t'.get? key) : t.Perm t' := by
  have entries : t.Nodup := List.Nodup.of_map _ nodup
  have entries' : t'.Nodup := List.Nodup.of_map _ nodup'
  refine (List.perm_ext_iff_of_nodup entries entries').mpr ?_
  rintro ⟨key, a⟩
  constructor
  · intro mem
    exact mem_of_get? ((same key).symm.trans (get?_of_mem nodup mem))
  · intro mem
    exact mem_of_get? ((same key).trans (get?_of_mem nodup' mem))

namespace Database

/-! ## Keys that stand once -/

namespace Tables

/-- No two rows of a table have the same key. -/
structure Distinct (t : Tables) : Prop where
  blocks : (t.blocks.map (·.1)).Nodup
  txs : (t.txs.map (·.1)).Nodup
  blockEvents : (t.blockEvents.map (·.1)).Nodup
  eventData : (t.eventData.map (·.1)).Nodup
  failures : (t.failures.map (·.1)).Nodup
  denoms : (t.denoms.map (·.1)).Nodup

theorem distinct_empty : Tables.empty.Distinct :=
  ⟨.nil, .nil, .nil, .nil, .nil, .nil⟩

end Tables

theorem nodup_put {κ α : Type} [DecidableEq κ] {t : Table κ α} (nodup : (t.map (·.1)).Nodup)
    (key : κ) (a : α) : ((t.put key a).map (·.1)).Nodup := by
  have filed : t.Filed fun _ _ => True := ⟨nodup, fun _ _ _ => trivial⟩
  exact (filed.put trivial).1

namespace Tables.Distinct

variable {t : Tables}

theorem onTx (h : t.Distinct) (key : String × String) (f : TxRow → TxRow) :
    (t.onTx key f).Distinct := by
  unfold Tables.onTx
  split
  · exact { h with txs := nodup_put h.txs _ _ }
  · exact h

theorem addDenoms (h : t.Distinct) (bases : List String) : (t.addDenoms bases).Distinct := by
  have step (denoms : Table String DenomRow) (nodup : (denoms.map (·.1)).Nodup) :
      ((bases.foldl (fun ds base => Table.update base (·.getD .unnamed) ds) denoms).map
        (·.1)).Nodup := by
    induction bases generalizing denoms with
    | nil => exact nodup
    | cons base bases ih => exact ih _ (nodup_put nodup _ _)
  exact { h with denoms := step t.denoms h.denoms }

theorem resolveFailure (h : t.Distinct) (key : String × Int × String) :
    (t.resolveFailure key).Distinct := by
  unfold Tables.resolveFailure
  split
  · exact { h with failures := nodup_put h.failures _ _ }
  · exact h

end Tables.Distinct

/-- The step puts no key into a table a second time. -/
def Step.Tidy (step : Step) : Prop :=
  ∀ t : Tables, t.Distinct → (step.apply t).Distinct

namespace Step

variable {α β : Type} {table : TableName}

theorem tidy_insert {rows : Except RowError α} {change : α → Tables → Tables}
    (tidy : ∀ r t, t.Distinct → (change r t).Distinct) :
    (insert table (rows.map change)).Tidy := by
  cases rows with
  | error e => exact fun _ h => h
  | ok r => exact tidy r

theorem tidy_insertAll {rows : List α} {read : α → Except RowError β}
    {change : List β → Tables → Tables} (tidy : ∀ r t, t.Distinct → (change r t).Distinct) :
    ∀ step ∈ insertAll table rows read change, step.Tidy := by
  intro step mem
  unfold insertAll at mem
  split at mem
  · cases mem
  · obtain rfl := List.mem_singleton.mp mem
    exact tidy_insert tidy

theorem tidy_upsertBlock (b : BlockHeader) (indexed : Option DataKind) :
    (upsertBlock b indexed).Tidy :=
  tidy_insert fun _ _ h => { h with blocks := nodup_put h.blocks _ _ }

theorem tidy_upsertTx (chainId : String) (tx : TxRecord) :
    ∀ step ∈ upsertTx chainId tx, step.Tidy := by
  unfold upsertTx
  simp only [List.forall_mem_append, List.forall_mem_cons]
  refine ⟨⟨⟨⟨?_, ?_, ?_, ?_, fun _ mem => absurd mem List.not_mem_nil⟩, ?_⟩, ?_⟩, ?_⟩
  · exact tidy_insert fun _ _ h => { h with txs := nodup_put h.txs _ _ }
  · exact fun _ h => h.onTx _ _
  · exact fun _ h => h.onTx _ _
  · exact fun _ h => h.onTx _ _
  · exact tidy_insertAll fun _ _ h => h.onTx _ _
  · exact tidy_insertAll fun _ _ h => h.onTx _ _
  · exact tidy_insertAll fun _ _ h => h.onTx _ _

theorem tidy_replaceEvents (b : EventBatch) : ∀ step ∈ replaceEvents b, step.Tidy := by
  have events (rows : List BlockEventRow) (t : Tables) (h : t.Distinct) :
      (t.setEvents (b.chainId, b.height) rows).Distinct :=
    { h with blockEvents := nodup_put h.blockEvents _ _ }
  have data (rows : List EventDataRow) (t : Tables) (h : t.Distinct) :
      (t.setEventData (b.chainId, b.height) rows).Distinct :=
    { h with eventData := nodup_put h.eventData _ _ }
  unfold replaceEvents
  simp only [List.forall_mem_append, List.forall_mem_cons]
  refine ⟨⟨⟨?_, ?_, fun _ mem => absurd mem List.not_mem_nil⟩, ?_⟩, ?_⟩
  · exact events []
  · exact data []
  · exact tidy_insertAll events
  · exact tidy_insertAll data

theorem tidy_resolve (chainId : String) (height : Int) (kind : DataKind) :
    (resolve chainId height kind).Tidy :=
  fun _ h => h.resolveFailure _

theorem tidy_steps (w : StoreWrite) : ∀ step ∈ w.steps, step.Tidy := by
  have denoms (bases : List String) : ∀ step ∈ backfillDenoms bases, step.Tidy :=
    tidy_insertAll fun _ _ h => h.addDenoms _
  cases w with
  | failure r =>
    intro step mem
    obtain rfl := List.mem_singleton.mp mem
    exact tidy_insert fun _ _ h => { h with failures := nodup_put h.failures _ _ }
  | txs b =>
    unfold StoreWrite.steps
    simp only [List.forall_mem_append, List.forall_mem_cons]
    refine ⟨tidy_upsertBlock _ _, ⟨denoms _, ?_⟩, ?_⟩
    · intro step mem
      obtain ⟨tx, -, mem⟩ := List.mem_flatMap.mp mem
      exact tidy_upsertTx b.chainId tx step mem
    · intro step mem
      split at mem
      · obtain rfl := List.mem_singleton.mp mem
        exact tidy_resolve _ _ _
      · cases mem
  | events b =>
    unfold StoreWrite.steps
    simp only [List.forall_mem_append, List.forall_mem_cons]
    exact ⟨tidy_upsertBlock _ _, ⟨denoms _, tidy_replaceEvents b⟩, tidy_resolve _ _ _,
      fun _ mem => absurd mem List.not_mem_nil⟩

end Step

theorem Tables.Distinct.after {t : Tables} {steps : List Step} (h : t.Distinct)
    (tidy : ∀ step ∈ steps, step.Tidy) : (t.after steps).Distinct := by
  induction steps generalizing t with
  | nil => exact h
  | cons step steps ih =>
    rw [List.forall_mem_cons] at tidy
    exact ih (tidy.1 t h) tidy.2

/-! ## The same rows -/

namespace Tables

/-- The tables have the same rows, in whatever order. -/
structure SameRows (t t' : Tables) : Prop where
  blocks : t.blocks.Perm t'.blocks
  txs : t.txs.Perm t'.txs
  blockEvents : t.blockEvents.Perm t'.blockEvents
  eventData : t.eventData.Perm t'.eventData
  failures : t.failures.Perm t'.failures
  denoms : t.denoms.Perm t'.denoms

theorem SameRows.refl (t : Tables) : t.SameRows t :=
  ⟨.refl _, .refl _, .refl _, .refl _, .refl _, .refl _⟩

variable {t u v u' v' : Tables} {w w' : StoreWrite}

/-- What a batch leaves it leaves again. -/
theorem sameRows_twice (batch : ∀ r, w ≠ .failure r) (du : u.Distinct) (dv : v.Distinct)
    (once : t.Changed w u) (twice : u.Changed w v) : v.SameRows u where
  blocks := Table.perm_of_get? dv.blocks du.blocks fun key => by
    rw [twice.blocks, once.blocks, w.onBlock_twice]
  txs := Table.perm_of_get? dv.txs du.txs fun key => by
    rw [twice.txs, once.txs, w.onTx_twice]
  blockEvents := Table.perm_of_get? dv.blockEvents du.blockEvents fun key => by
    rw [twice.blockEvents, once.blockEvents, w.onEvents_twice]
  eventData := Table.perm_of_get? dv.eventData du.eventData fun key => by
    rw [twice.eventData, once.eventData, w.onEventData_twice]
  failures := Table.perm_of_get? dv.failures du.failures fun key => by
    rw [twice.failures, once.failures, StoreWrite.onFailure_twice batch]
  denoms := Table.perm_of_get? dv.denoms du.denoms fun key => by
    rw [twice.denoms, once.denoms, w.onDenom_twice]

/-- Independent writes leave the same in either order. -/
theorem sameRows_swapped (independent : w.Independent w') (dv : v.Distinct) (dv' : v'.Distinct)
    (first : t.Changed w u) (second : u.Changed w' v)
    (first' : t.Changed w' u') (second' : u'.Changed w v') : v.SameRows v' where
  blocks := Table.perm_of_get? dv.blocks dv'.blocks fun key => by
    rw [second.blocks, first.blocks, second'.blocks, first'.blocks,
      StoreWrite.onBlock_commute independent]
  txs := Table.perm_of_get? dv.txs dv'.txs fun key => by
    rw [second.txs, first.txs, second'.txs, first'.txs, StoreWrite.onTx_commute independent]
  blockEvents := Table.perm_of_get? dv.blockEvents dv'.blockEvents fun key => by
    rw [second.blockEvents, first.blockEvents, second'.blockEvents, first'.blockEvents,
      StoreWrite.onEvents_commute independent]
  eventData := Table.perm_of_get? dv.eventData dv'.eventData fun key => by
    rw [second.eventData, first.eventData, second'.eventData, first'.eventData,
      StoreWrite.onEventData_commute independent]
  failures := Table.perm_of_get? dv.failures dv'.failures fun key => by
    rw [second.failures, first.failures, second'.failures, first'.failures,
      StoreWrite.onFailure_commute independent]
  denoms := Table.perm_of_get? dv.denoms dv'.denoms fun key => by
    rw [second.denoms, first.denoms, second'.denoms, first'.denoms, StoreWrite.onDenom_commute]

end Tables

/-! ## Reachable databases -/

namespace Server

variable {φ : Type} {s : Server φ} {db : Database φ}

/-- The states that a database comes to through its store once it is migrated: writes
are accepted or refused, and questions change nothing but the state of the server's
failing. -/
inductive Reaches (s : Server φ) : Database φ → Prop
  | migrated (faults : φ) : Reaches s ⟨Migration.all.length, .empty, faults⟩
  | wrote {db : Database φ} (w : StoreWrite) :
    Reaches s db → Reaches s ((s.asStore.write w).run.run db).2
  | later {db : Database φ} (faults : φ) : Reaches s db → Reaches s { db with faults }

theorem Reaches.applied (h : s.Reaches db) : db.applied = Migration.all.length := by
  induction h with
  | migrated faults => rfl
  | later faults h ih => exact ih
  | @wrote db w h ih =>
    rcases write_cases s w db with ⟨faults, written, -⟩ | ⟨e, faults, refused⟩
    · rw [written]
      exact ih
    · rw [refused]
      exact ih

theorem Reaches.distinct (h : s.Reaches db) : db.tables.Distinct := by
  induction h with
  | migrated faults => exact Tables.distinct_empty
  | later faults h ih => exact ih
  | @wrote db w h ih =>
    rcases write_cases s w db with ⟨faults, written, -⟩ | ⟨e, faults, refused⟩
    · rw [written]
      exact ih.after (Step.tidy_steps w)
    · rw [refused]
      exact ih

variable {w w' : StoreWrite} {result result' : Except StoreError Unit} {after : Database φ}

/-- An accepted write leaves all its rows. -/
theorem changed_of_ok (h : (s.asStore.write w).run.run db = (.ok (), after)) :
    db.tables.Changed w after.tables ∧ after.tables = db.tables.after w.steps := by
  obtain ⟨fits, -, -, tables⟩ := run_write_eq_ok.mp h
  rw [tables]
  exact ⟨Tables.changed_after w fits db.tables, rfl⟩

/-- A refused write leaves the rows that were there. -/
theorem tables_of_refused (refused : result ≠ .ok ())
    (h : (s.asStore.write w).run.run db = (result, after)) : after.tables = db.tables := by
  rcases write_cases s w db with ⟨faults, written, -⟩ | ⟨e, faults, failed⟩
  · rw [written] at h
    exact absurd (Prod.mk.inj h).1.symm refused
  · rw [failed] at h
    cases h
    rfl

theorem Reaches.write (h : s.Reaches db)
    (ran : (s.asStore.write w).run.run db = (result, after)) : s.Reaches after := by
  have reached := h.wrote w
  rw [ran] at reached
  exact reached

/-- A server that fails nothing fails none of some statements. -/
theorem Reliable.firstFailure (reliable : s.Reliable) (statements : List Statement) (faults : φ) :
    ((s.firstFailure statements).run faults).1 = none := by
  induction statements generalizing faults with
  | nil => rfl
  | cons statement rest ih =>
    have accepted := reliable statement faults
    rw [run_firstFailure_cons, accepted]
    exact ih _

/-- Two writes in either order, each with the same outcome in both. -/
theorem sameRows_of_orders (reached : s.Reaches db) {faults : φ}
    {one two one' two' : Database φ} (independent : w.Independent w')
    (first : (s.asStore.write w).run.run db = (result, one))
    (second : (s.asStore.write w').run.run one = (result', two))
    (first' : (s.asStore.write w').run.run { db with faults } = (result', one'))
    (second' : (s.asStore.write w).run.run one' = (result, two')) :
    two.tables.SameRows two'.tables := by
  by_cases ok : result = .ok () <;> by_cases ok' : result' = .ok ()
  · subst ok ok'
    have distinct := ((reached.write first).write second).distinct
    have distinct' := (((reached.later faults).write first').write second').distinct
    exact Tables.sameRows_swapped independent distinct distinct' (changed_of_ok first).1
      (changed_of_ok second).1 (changed_of_ok first').1 (changed_of_ok second').1
  · subst ok
    have rows : two.tables = two'.tables := by
      rw [tables_of_refused ok' second, (changed_of_ok first).2, (changed_of_ok second').2,
        tables_of_refused ok' first']
    rw [rows]
    exact .refl _
  · subst ok'
    have rows : two.tables = two'.tables := by
      rw [tables_of_refused ok second', (changed_of_ok second).2, (changed_of_ok first').2,
        tables_of_refused ok first]
    rw [rows]
    exact .refl _
  · have rows : two.tables = two'.tables := by
      rw [tables_of_refused ok' second, tables_of_refused ok first,
        tables_of_refused ok second', tables_of_refused ok' first']
    rw [rows]
    exact .refl _

/-- **Batches may be written twice, and independent writes in either order.** In every
state that a migrated database comes to: a batch that is written again leaves the rows
as they are; two independent writes with the same outcomes in both orders leave the
same rows; and the outcome of a write is the same in all states if the server fails
nothing, for it depends on its rows alone. -/
theorem writes_twice_and_swapped (reached : s.Reaches db) :
    (∀ (w : StoreWrite) faults result once twice, (∀ r, w ≠ .failure r) →
      (s.asStore.write w).run.run db = (.ok (), once) →
      (s.asStore.write w).run.run { once with faults } = (result, twice) →
      twice.tables.SameRows once.tables) ∧
    (∀ (w w' : StoreWrite) faults result result' one two one' two', w.Independent w' →
      (s.asStore.write w).run.run db = (result, one) →
      (s.asStore.write w').run.run one = (result', two) →
      (s.asStore.write w').run.run { db with faults } = (result', one') →
      (s.asStore.write w).run.run one' = (result, two') →
      two.tables.SameRows two'.tables) ∧
    (s.Reliable → ∀ w : StoreWrite, ((s.asStore.write w).run.run db).1 = .ok () ↔
      ∀ step ∈ w.steps, step.Fits Migration.all.length) := by
  refine ⟨?_, ?_, ?_⟩
  · intro w faults result once twice batch first second
    have distinct := (reached.write first).distinct
    have distinct' := (((reached.write first).later faults).write second).distinct
    by_cases ok : result = .ok ()
    · subst ok
      exact Tables.sameRows_twice batch distinct distinct' (changed_of_ok first).1
        (changed_of_ok second).1
    · rw [tables_of_refused ok second]
      exact .refl _
  · intro w w' faults result result' one two one' two' independent first second first' second'
    exact sameRows_of_orders reached independent first second first' second'
  · intro reliable w
    rw [← reached.applied]
    constructor
    · intro accepted
      have written : (s.asStore.write w).run.run db =
          (.ok (), ((s.asStore.write w).run.run db).2) := Prod.ext accepted rfl
      exact (run_write_eq_ok.mp written).1
    · intro fits
      have none := reliable.firstFailure w.statements db.faults
      have written : (s.asStore.write w).run.run db = (.ok (), ⟨db.applied,
          db.tables.after w.steps, ((s.firstFailure w.statements).run db.faults).2⟩) :=
        run_write_eq_ok.mpr ⟨fits, Prod.ext none rfl, rfl, rfl⟩
      rw [written]

/-- The two batches of a block; both name a denomination. -/
def siblingTxs : StoreWrite :=
  .txs {
    chainId := "c"
    height := 1
    blockHash := "B1"
    time := default
    proposer := "p"
    txs := [{ (default : TxRecord) with
      hash := "A"
      height := 1
      fees := [{ denom := "d", amount := default, payer := "a" }] }]
    unprocessable := [] }

def siblingEvents : StoreWrite :=
  .events {
    chainId := "c"
    height := 1
    blockHash := "B1"
    time := default
    events := []
    data := [{ (default : EventData) with denom := "d" }]
    hasEpochData := false }

theorem writes_twice_and_swapped_siblings :
    let db : Database Unit := ⟨Migration.all.length, .empty, ()⟩
    sound.Reaches db ∧ sound.Reliable ∧ siblingTxs.Independent siblingEvents ∧
      ∃ one two one' two' twice : Database Unit,
        (sound.asStore.write siblingTxs).run.run db = (.ok (), one) ∧
        (sound.asStore.write siblingEvents).run.run one = (.ok (), two) ∧
        (sound.asStore.write siblingEvents).run.run db = (.ok (), one') ∧
        (sound.asStore.write siblingTxs).run.run one' = (.ok (), two') ∧
        (sound.asStore.write siblingTxs).run.run one = (.ok (), twice) ∧
        two.tables.SameRows two'.tables ∧ twice.tables.SameRows one.tables := by
  intro db
  have reached : sound.Reaches db := .migrated ()
  have reliable : sound.Reliable := fun _ _ => rfl
  have independent : siblingTxs.Independent siblingEvents := .siblings rfl rfl rfl
  have txs : ∀ step ∈ siblingTxs.steps, step.Fits Migration.all.length := by decide +kernel
  have events : ∀ step ∈ siblingEvents.steps, step.Fits Migration.all.length := by decide +kernel
  -- On a sound server what fits is accepted in every state.
  have accepted {w : StoreWrite} (fits : ∀ step ∈ w.steps, step.Fits Migration.all.length)
      {db : Database Unit} (reached : sound.Reaches db) :
      ∃ after, (sound.asStore.write w).run.run db = (.ok (), after) :=
    ⟨_, Prod.ext (((writes_twice_and_swapped reached).2.2 reliable w).mpr fits) rfl⟩
  obtain ⟨one, first⟩ := accepted txs reached
  obtain ⟨two, second⟩ := accepted events (reached.write first)
  obtain ⟨one', first'⟩ := accepted events reached
  obtain ⟨two', second'⟩ := accepted txs (reached.write first')
  obtain ⟨twice, again⟩ := accepted txs (reached.write first)
  have batch (r : FailureRecord) : siblingTxs ≠ .failure r := by
    intro same
    cases same
  obtain ⟨once, either, -⟩ := writes_twice_and_swapped reached
  have swapped := either _ _ () _ _ _ _ _ _ independent first second first' second'
  have same := once _ () _ _ _ batch first again
  exact ⟨reached, reliable, independent, one, two, one', two', twice, first, second, first',
    second', again, swapped, same⟩

end Server

end Database

end ChainIndex
