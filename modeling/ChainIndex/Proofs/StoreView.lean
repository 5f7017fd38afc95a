/-
What questions can see of a store. A `StoreView` keeps the flags of each height,
the height and the message types of each transaction, and of each failure its last
record and whether it is resolved; it answers the four questions of an index store
and changes with each of its three writes. The memory and the rows of the database
both have a view, and their answers and writes are those of their views.
-/
import ChainIndex.Database.Store
import ChainIndex.Proofs.WellFormed
import Mathlib.Data.List.Basic

namespace ChainIndex

namespace Table

variable {κ κ' α β : Type}

/-- The table with other keys and other values. -/
def convert (f : κ → κ') (g : κ → α → β) (t : Table κ α) : Table κ' β :=
  t.map fun e => (f e.1, g e.1 e.2)

variable [DecidableEq κ] [DecidableEq κ'] {f : κ → κ'} {g : κ → α → β} {key : κ} {a b : α}
  {t : Table κ α}

theorem get?_convert (inj : Function.Injective f) (key : κ) (t : Table κ α) :
    (convert f g t).get? (f key) = (t.get? key).map (g key) := by
  induction t with
  | nil => rfl
  | cons first rest ih =>
    have step : convert f g (first :: rest) = (f first.1, g first.1 first.2) :: convert f g rest :=
      rfl
    rw [step, get?_cons, get?_cons, ih]
    by_cases same : first.1 = key
    · simp [same]
    · simp [same, inj.ne same]

theorem convert_put (inj : Function.Injective f) (key : κ) (a : α) (t : Table κ α) :
    convert f g (t.put key a) = (convert f g t).put (f key) (g key a) := by
  induction t with
  | nil => rfl
  | cons first rest ih =>
    have step : convert f g (first :: rest) = (f first.1, g first.1 first.2) :: convert f g rest :=
      rfl
    rw [step]
    unfold put
    by_cases same : first.1 = key
    · simp [same, convert]
    · rw [if_neg same, if_neg (inj.ne same), ← ih]
      rfl

end Table

/-- A sort in which only equal elements may change places sorts a part of a list
as it sorts the whole. -/
theorem filter_mergeSort {α : Type} {le : α → α → Bool} (p : α → Bool) {xs : List α}
    (trans : ∀ a b c, le a b = true → le b c = true → le a c = true)
    (total : ∀ a b, (le a b || le b a) = true)
    (antisymm : ∀ a ∈ xs, ∀ b ∈ xs, le a b = true → le b a = true → a = b) :
    (xs.mergeSort le).filter p = (xs.filter p).mergeSort le := by
  refine List.Perm.eq_of_pairwise ?_ ((List.pairwise_mergeSort trans total xs).filter p)
    (List.pairwise_mergeSort trans total _)
    (((xs.mergeSort_perm le).filter p).trans (List.mergeSort_perm _ le).symm)
  intro a b ha hb
  rw [List.mem_filter, List.mem_mergeSort] at ha
  rw [List.mem_mergeSort, List.mem_filter] at hb
  exact antisymm a ha.1 b hb.1

/-! ## Views -/

/-- The height of a transaction and the types of its messages. -/
def TxRecord.seen (tx : TxRecord) : Int × List String :=
  (tx.height, tx.messages.map (·.typeUrl))

/-- The row of a failure without its count of attempts, which no question asks for. -/
def Database.FailedBlockRow.seen (row : FailedBlockRow) : FailedBlockRow :=
  { row with attempts := 0 }

/-- What questions can see of a store. -/
structure StoreView where
  blocks : Table (String × Int) BlockStatus
  /-- The height and the types of the messages of each transaction. -/
  txs : Table (String × String) (Int × List String)
  /-- The rows of the failures, as far as they are seen. -/
  failures : Table (String × Int × String) Database.FailedBlockRow

namespace StoreView

open Database (FailedBlockRow)

/-- Makes a height known, and notes the kinds that are indexed of it. -/
def mark (chainId : String) (height : Int) (transactions blockEvents : Bool) (v : StoreView) :
    StoreView :=
  { v with
    blocks := v.blocks.update (chainId, height) fun old =>
      let s := old.getD (.unindexed height)
      { s with
        transactions := s.transactions || transactions
        blockEvents := s.blockEvents || blockEvents } }

def putTx (chainId : String) (tx : TxRecord) (v : StoreView) : StoreView :=
  { v with txs := v.txs.put (chainId, tx.hash) tx.seen }

def putTxs (chainId : String) (txs : List TxRecord) (v : StoreView) : StoreView :=
  txs.foldl (fun v tx => v.putTx chainId tx) v

def resolve (chainId : String) (height : Int) (kind : DataKind) (v : StoreView) : StoreView :=
  match v.failures.get? (chainId, height, kind.name) with
  | some f =>
    { v with failures := v.failures.put (chainId, height, kind.name) { f with resolved := true } }
  | none => v

def recordFailure (r : FailureRecord) (v : StoreView) : StoreView :=
  { v with
    failures := v.failures.put (r.chainId, r.height, r.kind.name)
      (FailedBlockRow.written r none).seen }

def writeTxs (b : TxBatch) (v : StoreView) : StoreView :=
  let v := (v.mark b.chainId b.height b.isComplete false).putTxs b.chainId b.txs
  if b.isComplete then v.resolve b.chainId b.height .transactions else v

def writeEvents (b : EventBatch) (v : StoreView) : StoreView :=
  (v.mark b.chainId b.height false true).resolve b.chainId b.height .blockEvents

/-- Files a transaction that may be there already, with the messages of the old one. -/
def fileTx (key : String × String) (height : Int) (v : StoreView) : StoreView :=
  { v with txs := v.txs.update key fun old => (height, (old.map (·.2)).getD []) }

/-- Changes what is seen of a transaction. -/
def onTx (key : String × String) (f : Int × List String → Int × List String) (v : StoreView) :
    StoreView :=
  match v.txs.get? key with
  | some tx => { v with txs := v.txs.put key (f tx) }
  | none => v

theorem onTx_id (key : String × String) (v : StoreView) : v.onTx key id = v := by
  unfold onTx
  split
  · next found => rw [id_eq, Table.put_of_get? found]
  · rfl

theorem onTx_put (key : String × String) (f : Int × List String → Int × List String)
    (tx : Int × List String) (v : StoreView) :
    onTx key f { v with txs := v.txs.put key tx } = { v with txs := v.txs.put key (f tx) } := by
  simp only [onTx, Table.get?_put_self, Table.put_put]

def dropTypes (key : String × String) : StoreView → StoreView :=
  onTx key fun tx => (tx.1, [])

def addTypes (key : String × String) (types : List String) : StoreView → StoreView :=
  onTx key fun tx => (tx.1, tx.2 ++ types)

theorem addTypes_nil (key : String × String) (v : StoreView) : v.addTypes key [] = v := by
  simp only [addTypes, List.append_nil]
  exact onTx_id key v

/-- A transaction is written by filing it and putting its messages in place of
those of an old one. -/
theorem addTypes_dropTypes_fileTx (chainId : String) (tx : TxRecord) (v : StoreView) :
    ((v.fileTx (chainId, tx.hash) tx.height).dropTypes (chainId, tx.hash)).addTypes
      (chainId, tx.hash) (tx.messages.map (·.typeUrl)) = v.putTx chainId tx := by
  rw [fileTx, Table.update, dropTypes, onTx_put, addTypes, onTx_put]
  rfl

/-- The status of a chain's known heights, in ascending order. -/
def statuses (v : StoreView) (chainId : String) : List BlockStatus :=
  ((v.blocks.filter (·.1.1 == chainId)).map (·.2)).mergeSort fun s t => s.height ≤ t.height

def highest (v : StoreView) (chainId : String) : Option Int :=
  (((v.statuses chainId).filter (·.isIndexed)).map (·.height)).getLast?

def status (v : StoreView) (chainId : String) (low high : Int) : List BlockStatus :=
  (v.statuses chainId).filter fun s => low ≤ s.height && s.height ≤ high

def heightsWithMessage (v : StoreView) (chainId typeUrl : String) (low high : Int) : List Int :=
  let found := (v.txs.filter (·.1.1 == chainId)).filter fun (_, height, types) =>
    low ≤ height && height ≤ high && types.any (· == typeUrl)
  ascending (found.map (·.2.1))

/-- A chain's failures that are not resolved, with their heights and kinds. -/
def openFailures (v : StoreView) (chainId : String) : List ((Int × String) × FailedBlockRow) :=
  (v.failures.filter fun (key, row) => key.1 == chainId && !row.resolved).map
    fun ((_, place), row) => (place, row)

def unresolved (v : StoreView) (chainId : String) : List FailureRecord :=
  ((v.openFailures chainId).mergeSort Database.Tables.failureBefore).filterMap
    (Database.Tables.failure? chainId)

/-- The answer from a table of which the view shows the heights and types. -/
theorem heightsWithMessage_convert {α : Type} {g : α → Int × List String}
    {txs : Table (String × String) α} {v : StoreView} (h : v.txs = txs.convert id fun _ => g)
    (chainId typeUrl : String) (low high : Int) :
    v.heightsWithMessage chainId typeUrl low high =
      ascending (((txs.filter (·.1.1 == chainId)).filter fun e =>
        low ≤ (g e.2).1 && (g e.2).1 ≤ high && (g e.2).2.any (· == typeUrl)).map
          fun e => (g e.2).1) := by
  simp only [heightsWithMessage, h, Table.convert, List.filter_map, List.map_map]
  rfl

end StoreView

theorem DataKind.name_injective : Function.Injective DataKind.name := fun k l same =>
  Option.some.inj ((DataKind.ofName?_name k).symm.trans ((congrArg _ same).trans
    (DataKind.ofName?_name l)))

/-- Names of kinds are in the order of the kinds. -/
theorem DataKind.name_le_name (k l : DataKind) : k.name ≤ l.name ↔ k.rank ≤ l.rank := by
  cases k <;> cases l <;> decide +kernel

theorem DataKind.rank_injective : Function.Injective DataKind.rank := by
  intro k l same
  cases k <;> cases l <;> first | rfl | cases same

/-- What a failure is filed under where kinds are texts. -/
def FailureRecord.textKey (key : String × Int × DataKind) : String × Int × String :=
  (key.1, key.2.1, key.2.2.name)

theorem FailureRecord.textKey_injective : Function.Injective FailureRecord.textKey := by
  rintro ⟨c, h, k⟩ ⟨c', h', k'⟩ same
  simp only [FailureRecord.textKey, Prod.mk.injEq] at same
  obtain ⟨rfl, rfl, same⟩ := same
  rw [DataKind.name_injective same]

/-- The row that is seen of a failure. -/
def StoredFailure.row (f : StoredFailure) : Database.FailedBlockRow where
  chainName := f.record.chainName
  reason := f.record.reason.name
  attempts := 0
  resolved := f.resolved

/-! ## The view of the memory -/

namespace MemoryStore

def view (m : MemoryStore) : StoreView where
  blocks := m.blocks
  txs := m.txs.convert id fun _ => TxRecord.seen
  failures := m.failures.convert FailureRecord.textKey fun _ f => f.row

variable (m : MemoryStore) (chainId : String)

theorem view_mark (height : Int) (transactions blockEvents : Bool) :
    (m.mark chainId height transactions blockEvents).view =
      m.view.mark chainId height transactions blockEvents := rfl

theorem get?_view_failures (height : Int) (kind : DataKind) :
    m.view.failures.get? (chainId, height, kind.name) =
      (m.failures.get? (chainId, height, kind)).map (·.row) :=
  Table.get?_convert (g := fun _ (f : StoredFailure) => f.row) FailureRecord.textKey_injective
    (chainId, height, kind) m.failures

theorem view_resolve (height : Int) (kind : DataKind) :
    (m.resolve chainId height kind).view = m.view.resolve chainId height kind := by
  unfold resolve StoreView.resolve
  rw [get?_view_failures]
  cases m.failures.get? (chainId, height, kind) with
  | none => rfl
  | some f =>
    simp only [Option.map_some, view, Table.convert_put FailureRecord.textKey_injective]
    rfl

theorem view_recordFailure (r : FailureRecord) :
    (m.recordFailure r).view = m.view.recordFailure r := by
  unfold recordFailure StoreView.recordFailure Table.update
  simp only [view, Table.convert_put FailureRecord.textKey_injective]
  rfl

theorem convert_putTxs (txs : List TxRecord) (v : StoreView) :
    { v with txs := (putTxs chainId txs m.txs).convert id fun _ => TxRecord.seen } =
      StoreView.putTxs chainId txs { v with txs := m.view.txs } := by
  induction txs generalizing m with
  | nil => rfl
  | cons tx txs ih =>
    have step := ih { m with txs := m.txs.put (chainId, tx.hash) tx }
    simp only [view, Table.convert_put Function.injective_id] at step
    exact step

theorem view_writeTxs (b : TxBatch) : (m.writeTxs b).view = m.view.writeTxs b := by
  have stored := m.convert_putTxs b.chainId b.txs (m.view.mark b.chainId b.height b.isComplete false)
  unfold writeTxs StoreView.writeTxs
  split
  · rw [view_resolve, view_mark]
    exact congrArg _ stored
  · rw [view_mark]
    exact stored

theorem view_writeEvents (b : EventBatch) : (m.writeEvents b).view = m.view.writeEvents b := by
  unfold writeEvents StoreView.writeEvents
  rw [view_resolve, view_mark]
  rfl

/-! The answers of the memory are those of its view. -/

theorem view_heightsWithMessage (typeUrl : String) (low high : Int) :
    m.view.heightsWithMessage chainId typeUrl low high =
      m.heightsWithMessage chainId typeUrl low high := by
  rw [StoreView.heightsWithMessage_convert rfl]
  simp only [TxRecord.seen, List.any_map]
  rfl

variable {m chainId}

theorem mem_failuresOf {f : StoredFailure} :
    f ∈ m.failuresOf chainId ↔ ∃ key, (key, f) ∈ m.failures ∧ key.1 = chainId := by
  simp only [failuresOf, List.mem_mergeSort, List.mem_map, List.mem_filter, beq_iff_eq]
  constructor
  · rintro ⟨⟨key, f⟩, found, rfl⟩
    exact ⟨key, found⟩
  · rintro ⟨key, found⟩
    exact ⟨(key, f), found, rfl⟩

/-- What the row of a failure and its place say is what the record says. -/
theorem failure?_row (f : StoredFailure) :
    Database.Tables.failure? f.record.chainId ((f.record.height, f.record.kind.name), f.row) =
      some f.record := by
  simp only [Database.Tables.failure?, DataKind.ofName?_name, StoredFailure.row,
    FailureReason.ofName?_name]
  rfl

theorem before_trans (f g k : StoredFailure) (fg : f.before g = true) (gk : g.before k = true) :
    f.before k = true := by
  simp only [StoredFailure.before, Bool.or_eq_true, Bool.and_eq_true, decide_eq_true_eq,
    beq_iff_eq] at *
  omega

theorem before_total (f g : StoredFailure) : (f.before g || g.before f) = true := by
  simp only [StoredFailure.before, Bool.or_eq_true, Bool.and_eq_true, decide_eq_true_eq,
    beq_iff_eq]
  omega

/-- The failures of a chain stand under different heights and kinds. -/
theorem before_antisymm (h : m.WellFormed) (f : StoredFailure) (hf : f ∈ m.failuresOf chainId)
    (g : StoredFailure) (hg : g ∈ m.failuresOf chainId) (fg : f.before g = true)
    (gf : g.before f = true) : f = g := by
  obtain ⟨key, found, rfl⟩ := mem_failuresOf.mp hf
  obtain ⟨key', found', chain⟩ := mem_failuresOf.mp hg
  have filed : f.record.key = key := h.failures.2 _ _ found
  have filed' : g.record.key = key' := h.failures.2 _ _ found'
  have place : f.record.height = g.record.height ∧ f.record.kind.rank = g.record.kind.rank := by
    simp only [StoredFailure.before, Bool.or_eq_true, Bool.and_eq_true, decide_eq_true_eq,
      beq_iff_eq] at fg gf
    omega
  have same : key = key' := by
    rw [← filed, ← filed'] at chain ⊢
    exact Prod.ext chain.symm (Prod.ext place.1 (DataKind.rank_injective place.2))
  rw [h.failures.mem_iff, same] at found
  rw [h.failures.mem_iff, found] at found'
  exact Option.some.inj found'

/-- A failure with the place that it has among those of its chain. -/
def placed (f : StoredFailure) : (Int × String) × Database.FailedBlockRow :=
  ((f.record.height, f.record.kind.name), f.row)

theorem failureBefore_placed (f g : StoredFailure) :
    Database.Tables.failureBefore (placed f) (placed g) = f.before g := by
  change (decide (f.record.height < g.record.height) || (f.record.height == g.record.height &&
    decide (f.record.kind.name ≤ g.record.kind.name))) = _
  rw [decide_eq_decide.mpr (DataKind.name_le_name f.record.kind g.record.kind)]
  rfl

theorem view_openFailures (h : m.WellFormed) :
    m.view.openFailures chainId =
      (((m.failures.filter (·.1.1 == chainId)).map (·.2)).filter (!·.resolved)).map placed := by
  simp only [StoreView.openFailures, view, Table.convert, List.filter_map, List.map_map,
    List.filter_filter]
  have same (e : (String × Int × DataKind) × StoredFailure) :
      ((e.1.1 == chainId) && !e.2.row.resolved) = ((!e.2.resolved) && (e.1.1 == chainId)) :=
    Bool.and_comm ..
  simp only [Function.comp_def, FailureRecord.textKey, same]
  refine List.map_congr_left fun e he => ?_
  have filed : e.2.record.key = e.1 := h.failures.2 _ _ ((List.mem_filter.mp he).1)
  rw [← filed]
  rfl

theorem view_unresolved (h : m.WellFormed) : m.view.unresolved chainId = m.unresolved chainId := by
  have sorted (fs : List StoredFailure) : (fs.map placed).mergeSort Database.Tables.failureBefore =
      (fs.mergeSort StoredFailure.before).map placed :=
    (List.map_mergeSort fun f _ g _ => (failureBefore_placed f g).symm).symm
  have parts : (m.failuresOf chainId).filter (!·.resolved) =
      (((m.failures.filter (·.1.1 == chainId)).map (·.2)).filter (!·.resolved)).mergeSort
        StoredFailure.before :=
    filter_mergeSort _ before_trans before_total fun f hf g hg =>
      before_antisymm h f (List.mem_mergeSort.mpr hf) g (List.mem_mergeSort.mpr hg)
  rw [StoreView.unresolved, view_openFailures h, sorted, List.filterMap_map, ← parts]
  refine List.filterMap_eq_map_iff_forall_eq_some.mpr fun f hf => ?_
  obtain ⟨key, found, rfl⟩ := mem_failuresOf.mp (List.mem_filter.mp hf).1
  have filed : f.record.key = key := h.failures.2 _ _ found
  exact filed ▸ failure?_row f

end MemoryStore

/-! ## The view of the tables -/

namespace Database

def BlockRow.status (height : Int) (row : BlockRow) : BlockStatus :=
  ⟨height, row.txIndexed, row.eventsIndexed⟩

/-- The height of a transaction and the types of its messages. -/
def TxRow.seen (row : TxRow) : Int × List String :=
  (row.height, row.messages.map (·.typeUrl))

namespace Tables

def view (t : Tables) : StoreView where
  blocks := t.blocks.convert id fun key => BlockRow.status key.2
  txs := t.txs.convert id fun _ => TxRow.seen
  failures := t.failures.convert id fun _ => FailedBlockRow.seen

variable (t : Tables) (chainId : String)

theorem view_statuses :
    t.view.statuses chainId = (t.blocksOf chainId).map fun e => e.2.status e.1 := by
  have sorted (rows : List (Int × BlockRow)) :
      (rows.mergeSort fun a b => decide (a.1 ≤ b.1)).map (fun e => e.2.status e.1) =
        (rows.map fun e => e.2.status e.1).mergeSort fun s t => decide (s.height ≤ t.height) :=
    List.map_mergeSort fun _ _ _ _ => rfl
  rw [blocksOf, sorted]
  simp only [StoreView.statuses, view, Table.convert, List.filter_map, List.map_map]
  rfl

theorem view_highest : t.view.highest chainId = t.highest chainId := by
  simp only [StoreView.highest, highest, view_statuses, List.filter_map, List.map_map]
  rfl

theorem view_status (low high : Int) :
    t.view.status chainId low high = t.status chainId low high := by
  simp only [StoreView.status, status, view_statuses, List.filter_map]
  rfl

theorem view_heightsWithMessage (typeUrl : String) (low high : Int) :
    t.view.heightsWithMessage chainId typeUrl low high =
      t.heightsWithMessage chainId typeUrl low high := by
  rw [StoreView.heightsWithMessage_convert rfl]
  simp only [TxRow.seen, List.any_map]
  rfl

theorem view_unresolved : t.view.unresolved chainId = t.unresolved chainId := by
  have sorted (rows : List ((Int × String) × FailedBlockRow)) :
      (rows.mergeSort failureBefore).map (fun e => (e.1, e.2.seen)) =
        (rows.map fun e => (e.1, e.2.seen)).mergeSort failureBefore :=
    List.map_mergeSort fun _ _ _ _ => rfl
  have shown : t.view.openFailures chainId =
      ((t.failures.filter fun (key, row) => key.1 == chainId && !row.resolved).map
        fun ((_, place), row) => (place, row)).map fun e => (e.1, e.2.seen) := by
    simp only [StoreView.openFailures, view, Table.convert, List.filter_map, List.map_map]
    rfl
  rw [StoreView.unresolved, shown, ← sorted, List.filterMap_map]
  rfl

/-! What the statements of the writes do to the view. -/

theorem view_upsertBlock (b : BlockHeader) (indexed : Option DataKind) :
    view { t with blocks := t.blocks.update (b.chainId, b.height) (BlockRow.written b indexed) } =
      t.view.mark b.chainId b.height (indexed == some .transactions)
        (indexed == some .blockEvents) := by
  have seen : t.view.blocks.get? (b.chainId, b.height) =
      (t.blocks.get? (b.chainId, b.height)).map (BlockRow.status b.height) :=
    Table.get?_convert (g := fun (key : String × Int) => BlockRow.status key.2) Function.injective_id
      (b.chainId, b.height) t.blocks
  unfold StoreView.mark Table.update
  rw [seen]
  simp only [view, Table.convert_put Function.injective_id]
  cases t.blocks.get? (b.chainId, b.height) <;> rfl

theorem get?_view_txs (key : String × String) :
    t.view.txs.get? key = (t.txs.get? key).map TxRow.seen :=
  Table.get?_convert (g := fun (_ : String × String) => TxRow.seen) Function.injective_id key t.txs

theorem view_fileTx (key : String × String) {row : TxRow} (bare : row.messages = []) :
    view { t with txs := t.txs.update key row.written } = t.view.fileTx key row.height := by
  unfold StoreView.fileTx Table.update
  rw [get?_view_txs]
  simp only [view, Table.convert_put Function.injective_id]
  cases t.txs.get? key with
  | none => simp [TxRow.written, TxRow.seen, bare]
  | some old => rfl

theorem view_onTx (key : String × String) {f : TxRow → TxRow}
    {g : Int × List String → Int × List String} (same : ∀ row, (f row).seen = g row.seen) :
    (t.onTx key f).view = t.view.onTx key g := by
  unfold onTx StoreView.onTx
  rw [get?_view_txs]
  cases t.txs.get? key with
  | none => rfl
  | some row =>
    simp only [Option.map_some, view, Table.convert_put Function.injective_id, same]
    rfl

/-- What is not seen of a transaction may change. -/
theorem view_onTx_of_seen (key : String × String) {f : TxRow → TxRow}
    (same : ∀ row, (f row).seen = row.seen) : (t.onTx key f).view = t.view :=
  (t.view_onTx key same).trans (StoreView.onTx_id key t.view)

theorem view_addDenoms (bases : List String) : (t.addDenoms bases).view = t.view := rfl

theorem get?_view_failures (key : String × Int × String) :
    t.view.failures.get? key = (t.failures.get? key).map FailedBlockRow.seen :=
  Table.get?_convert (g := fun (_ : String × Int × String) => FailedBlockRow.seen)
    Function.injective_id key t.failures

theorem view_recordFailure (r : FailureRecord) :
    view { t with
        failures := t.failures.update (r.chainId, r.height, r.kind.name)
          (FailedBlockRow.written r) } = t.view.recordFailure r := by
  unfold StoreView.recordFailure Table.update
  simp only [view, Table.convert_put Function.injective_id]
  rfl

theorem view_resolveFailure (height : Int) (kind : DataKind) :
    (t.resolveFailure (chainId, height, kind.name)).view =
      t.view.resolve chainId height kind := by
  unfold resolveFailure openFailure? StoreView.resolve
  rw [get?_view_failures]
  cases found : t.failures.get? (chainId, height, kind.name) with
  | none => rfl
  | some row =>
    cases resolved : row.resolved with
    | false =>
      simp only [Option.filter, resolved, Bool.not_false, if_true, view, Option.map_some,
        Table.convert_put Function.injective_id]
      rfl
    | true =>
      -- A failure that is resolved already is put back as it is.
      have same : { row.seen with resolved := true } = row.seen := by
        rw [← resolved]
        rfl
      have seen := (t.get?_view_failures (chainId, height, kind.name)).trans
        (congrArg _ found)
      simp [Option.filter, resolved, same, Table.put_of_get? seen]

end Tables

end Database

end ChainIndex
