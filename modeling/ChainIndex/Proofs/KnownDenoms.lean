/-
Which denominations have a row after a write. The rows that were there stay as they
are, with their names and units, and behind them come rows without names for those
that the write names: the denominations of fees, or those of the data of events. The
data of messages name none. So every denomination of a written batch is known if the
batch is one of events, and otherwise exactly if those that stand in data only were
known before.
-/
import ChainIndex.Proofs.RowWrites
import Mathlib.Data.List.Nodup

namespace ChainIndex

open Database

/-- The denominations in the rows of a write: in its fees and in its data. -/
def StoreWrite.usedDenoms : StoreWrite → List String
  | failure _ => []
  | txs b => b.txs.flatMap fun tx => tx.fees.map (·.denom) ++ tx.data.map (·.denom)
  | events b => b.data.map (·.denom)

theorem Table.put_of_absent {κ α : Type} [DecidableEq κ] {key : κ} {t : Table κ α}
    (absent : key ∉ t.map (·.1)) (a : α) : t.put key a = t ++ [(key, a)] := by
  induction t with
  | nil => rfl
  | cons first rest ih =>
    obtain ⟨k, old⟩ := first
    rw [List.map_cons, List.mem_cons, not_or] at absent
    rw [put, if_neg (Ne.symm absent.1), ih absent.2]
    rfl

theorem Table.get?_eq_none_iff {κ α : Type} [DecidableEq κ] {key : κ} {t : Table κ α} :
    t.get? key = none ↔ key ∉ t.map (·.1) := by
  induction t with
  | nil => simp
  | cons first rest ih =>
    obtain ⟨k, old⟩ := first
    rw [get?_cons, List.map_cons, List.mem_cons, not_or, ← ih]
    by_cases same : k = key
    · simp [same]
    · simp [same, Ne.symm same]

/-- A key with a value keeps it, and one without comes last. -/
theorem Table.update_getD {κ α : Type} [DecidableEq κ] (key : κ) (a : α) (t : Table κ α) :
    t.update key (·.getD a) = if key ∈ t.map (·.1) then t else t ++ [(key, a)] := by
  rw [update]
  cases found : t.get? key with
  | none =>
    have absent := get?_eq_none_iff.mp found
    rw [if_neg absent]
    exact put_of_absent absent a
  | some old =>
    have present : key ∈ t.map (·.1) := List.mem_map_of_mem (mem_of_get? found)
    rw [if_pos present]
    exact put_of_get? found

namespace Database

/-- Rows for denominations that nobody has named. -/
def unnamedRows (bases : List String) : Table String DenomRow :=
  bases.map fun base => (base, .unnamed)

/-- The rows stay as they are, and behind them come rows without names, one for each of some
denominations that had none. -/
def Backfilled (bases : List String) (rows rows' : Table String DenomRow) : Prop :=
  ∃ added : List String, added.Nodup ∧
    (∀ base, base ∈ added ↔ base ∈ bases ∧ base ∉ rows.map (·.1)) ∧
    rows' = rows ++ unnamedRows added

namespace Backfilled

variable {bases : List String} {rows rows' : Table String DenomRow}

theorem keys_unnamedRows (added : List String) : (unnamedRows added).map (·.1) = added := by
  rw [unnamedRows, List.map_map]
  exact List.map_id added

theorem mem_iff (h : Backfilled bases rows rows') (base : String) :
    base ∈ rows'.map (·.1) ↔ base ∈ bases ∨ base ∈ rows.map (·.1) := by
  obtain ⟨added, -, new, rfl⟩ := h
  rw [List.map_append, List.mem_append, keys_unnamedRows, new]
  by_cases present : base ∈ rows.map (·.1) <;> simp [present]

theorem nodup (h : Backfilled bases rows rows') (unique : (rows.map (·.1)).Nodup) :
    (rows'.map (·.1)).Nodup := by
  obtain ⟨added, each, new, rfl⟩ := h
  rw [List.map_append, keys_unnamedRows]
  refine List.nodup_append.mpr ⟨unique, each, fun a old b fresh same => ?_⟩
  exact ((new b).mp fresh).2 (same ▸ old)

/-- Denominations are filled in one after another. -/
theorem foldl (bases : List String) (rows : Table String DenomRow) :
    Backfilled bases rows
      (bases.foldl (fun rows base => Table.update base (·.getD .unnamed) rows) rows) := by
  induction bases generalizing rows with
  | nil => exact ⟨[], .nil, by simp, by simp [unnamedRows]⟩
  | cons first rest ih =>
    rw [List.foldl_cons, Table.update_getD]
    by_cases present : first ∈ rows.map (·.1)
    · rw [if_pos present]
      obtain ⟨added, each, new, filled⟩ := ih rows
      refine ⟨added, each, fun base => ?_, filled⟩
      rw [new, List.mem_cons]
      by_cases same : base = first
      · simp [same, present]
      · simp [same]
    · rw [if_neg present]
      obtain ⟨added, each, new, filled⟩ := ih (rows ++ [(first, .unnamed)])
      have absent : first ∉ added := fun mem => ((new first).mp mem).2 (by simp)
      refine ⟨first :: added, List.nodup_cons.mpr ⟨absent, each⟩, fun base => ?_, ?_⟩
      · rw [List.mem_cons, List.mem_cons, new]
        by_cases same : base = first
        · simp [same, present]
        · simp [same]
      · rw [filled, List.append_assoc]
        rfl

end Backfilled

namespace Tables

/-- The denomination has exactly one row. -/
def Knows (t : Tables) (base : String) : Prop := (t.denoms.map (·.1)).count base = 1

instance (t : Tables) (base : String) : Decidable (t.Knows base) :=
  inferInstanceAs (Decidable (_ = _))

variable {t : Tables} {applied : Nat}

theorem knows_iff (unique : (t.denoms.map (·.1)).Nodup) (base : String) :
    t.Knows base ↔ base ∈ t.denoms.map (·.1) := by
  constructor
  · intro once
    exact List.count_pos_iff.mp (once ▸ Nat.one_pos)
  · exact List.count_eq_one_of_mem unique

/-- Of the steps of a batch of transactions one changes the denominations. -/
theorem denoms_after_txs {b : TxBatch}
    (fits : ∀ step ∈ (StoreWrite.txs b).steps, step.Fits applied) :
    (t.after (StoreWrite.txs b).steps).denoms =
      (t.addDenoms (ascending (StoreWrite.txs b).denoms)).denoms := by
  unfold StoreWrite.steps at fits ⊢
  simp only [List.forall_mem_cons, List.forall_mem_append] at fits
  obtain ⟨block, ⟨denoms, txs⟩, -⟩ := fits
  obtain ⟨_, -, upserted⟩ := Step.apply_insert block
  simp only [after_cons, after_append]
  refine (congrArg Tables.denoms (after_lastStep b _).1).trans ?_
  refine (congrArg Tables.denoms (txs_after txs _).1).trans ?_
  rw [Step.upsertBlock, upserted, after_backfillDenoms denoms]
  rfl

theorem denoms_after_events {b : EventBatch}
    (fits : ∀ step ∈ (StoreWrite.events b).steps, step.Fits applied) :
    (t.after (StoreWrite.events b).steps).denoms =
      (t.addDenoms (ascending (StoreWrite.events b).denoms)).denoms := by
  unfold StoreWrite.steps at fits ⊢
  simp only [List.forall_mem_cons, List.forall_mem_append] at fits
  obtain ⟨block, ⟨denoms, events⟩, -⟩ := fits
  obtain ⟨_, -, upserted⟩ := Step.apply_insert block
  let named := addDenoms (ascending (b.data.map (·.denom)))
    { t with
      blocks := t.blocks.update (b.chainId, b.height)
        (BlockRow.written b.header (some .blockEvents)) }
  obtain ⟨_, _, -, -, replaced⟩ := after_replaceEvents events named
  simp only [after_cons, after_append, after_nil]
  rw [Step.upsertBlock, upserted, after_backfillDenoms denoms]
  refine (congrArg Tables.denoms (resolveFailure_rest _ _)).trans ?_
  exact (congrArg Tables.denoms replaced :)

theorem denoms_after (w : StoreWrite) (fits : ∀ step ∈ w.steps, step.Fits applied) :
    (t.after w.steps).denoms = (t.addDenoms (ascending w.denoms)).denoms := by
  cases w with
  | failure r =>
    obtain ⟨_, -, recorded⟩ := Step.apply_insert (fits _ List.mem_cons_self)
    have none : ascending (StoreWrite.failure r).denoms = [] :=
      List.eq_nil_iff_forall_not_mem.mpr fun _ mem => List.not_mem_nil (mem_ascending.mp mem)
    rw [StoreWrite.steps, after_cons, after_nil, Step.recordFailure, recorded, none]
    rfl
  | txs b => exact denoms_after_txs fits
  | events b => exact denoms_after_events fits

end Tables

namespace Server

variable {φ : Type} {s : Server φ} {db after : Database φ} {w : StoreWrite}

/-- A write fills in the denominations that it names, and changes no other row of them. -/
theorem backfilled_of_ok (accepted : (s.asStore.write w).run.run db = (.ok (), after)) :
    Backfilled w.denoms db.tables.denoms after.tables.denoms := by
  obtain ⟨fits, -, -, tables⟩ := run_write_eq_ok.mp accepted
  obtain ⟨added, each, new, filled⟩ := Backfilled.foldl (ascending w.denoms) db.tables.denoms
  refine ⟨added, each, fun base => ?_, ?_⟩
  · rw [new, mem_ascending]
  · rw [tables, Tables.denoms_after w fits]
    exact filled

/-- **What a write leaves of the denominations.** The rows that were there are kept; of the
denominations that a batch of events uses each is known; and of those that any batch uses all are
known exactly if those that it does not name, which stand in the data of messages only, were known
before. -/
theorem denoms_known_iff (unique : (db.tables.denoms.map (·.1)).Nodup)
    (accepted : (s.asStore.write w).run.run db = (.ok (), after)) :
    Backfilled w.denoms db.tables.denoms after.tables.denoms ∧
    (∀ base, after.tables.Knows base ↔ base ∈ w.denoms ∨ db.tables.Knows base) ∧
    (∀ b, w = .events b → ∀ base ∈ w.usedDenoms, after.tables.Knows base) ∧
    ((∀ base ∈ w.usedDenoms, after.tables.Knows base) ↔
      ∀ base ∈ w.usedDenoms, base ∉ w.denoms → db.tables.Knows base) := by
  have filled := backfilled_of_ok accepted
  have known (base : String) : after.tables.Knows base ↔ base ∈ w.denoms ∨ db.tables.Knows base := by
    rw [Tables.knows_iff (filled.nodup unique), Tables.knows_iff unique, filled.mem_iff]
  refine ⟨filled, known, ?_, ?_⟩
  · rintro b rfl base used
    exact (known base).mpr (.inl used)
  · refine forall₂_congr fun base used => ?_
    rw [known]
    by_cases named : base ∈ w.denoms <;> simp [named]

/-- A transaction that moves another denomination than it pays its fee in. -/
def osmoTransfer : StoreWrite :=
  .txs {
    chainId := "c"
    height := 1
    blockHash := "B1"
    time := default
    proposer := "p"
    txs := [{ (default : TxRecord) with
      hash := "A"
      height := 1
      fees := [{ denom := "uatom", amount := default, payer := "a" }]
      data := [{ (default : MessageData) with denom := "uosmo" }] }]
    unprocessable := [] }

/-- A database in which that denomination has a name and a unit. -/
def osmoNamed : Database Unit :=
  ⟨Migration.all.length,
    { Tables.empty with denoms := [("uosmo", ⟨"Osmosis", "OSMO", [("osmo", 6)]⟩)] }, ()⟩

theorem denoms_known_osmoTransfer :
    (osmoNamed.tables.denoms.map (·.1)).Nodup ∧
    ∃ after, (sound.asStore.write osmoTransfer).run.run osmoNamed = (.ok (), after) ∧
      Backfilled osmoTransfer.denoms osmoNamed.tables.denoms after.tables.denoms ∧
      ∀ base ∈ osmoTransfer.usedDenoms, after.tables.Knows base := by
  have unique : (osmoNamed.tables.denoms.map (·.1)).Nodup := by decide +kernel
  have accepted : (sound.asStore.write osmoTransfer).run.run osmoNamed =
      (.ok (), ((sound.asStore.write osmoTransfer).run.run osmoNamed).2) :=
    Prod.ext (by decide +kernel) rfl
  obtain ⟨filled, -, -, known⟩ := denoms_known_iff unique accepted
  exact ⟨unique, _, accepted, filled, known.mpr (by decide +kernel)⟩

/-- Not every denomination of a written batch is known: where nobody has named it before, one that
only a message moves has no row. -/
theorem osmoTransfer_leaves_unknown :
    ¬∀ (w : StoreWrite) (db after : Database Unit), (db.tables.denoms.map (·.1)).Nodup →
      (sound.asStore.write w).run.run db = (.ok (), after) →
      ∀ base ∈ w.usedDenoms, after.tables.Knows base := by
  intro claim
  let db : Database Unit := ⟨Migration.all.length, .empty, ()⟩
  have accepted : (sound.asStore.write osmoTransfer).run.run db =
      (.ok (), ((sound.asStore.write osmoTransfer).run.run db).2) :=
    Prod.ext (by decide +kernel) rfl
  have known := claim osmoTransfer db _ .nil accepted "uosmo" (by decide +kernel)
  revert known
  decide +kernel

end Server

end Database

end ChainIndex
