/-
A memory as what lookups find in it. Its tables are lists, in the order of first
insertion; of two memories with the same `contents` no lookup can tell one from
the other. Every write is a function of the contents. A kind of a height is
settled if it is indexed or if its failure is on record and not resolved.
-/
import ChainIndex.Store.Memory
import Mathlib.Logic.Function.Basic

namespace ChainIndex

/-- What lookups find in a store. -/
@[ext]
structure Contents where
  blocks : String × Int → Option BlockStatus
  txs : String × String → Option TxRecord
  txBatches : String × Int → Option TxBatch
  eventBatches : String × Int → Option EventBatch
  failures : String × Int × DataKind → Option StoredFailure
  txWrites : Nat
  eventWrites : Nat

namespace FailureRecord

/-- What a failure is filed under. -/
def key (r : FailureRecord) : String × Int × DataKind := (r.chainId, r.height, r.kind)

end FailureRecord

namespace Contents

/-- Makes a height known, and notes the kinds that are indexed of it. -/
def mark (key : String × Int) (transactions blockEvents : Bool) (c : Contents) : Contents :=
  let s := (c.blocks key).getD (.unindexed key.2)
  { c with
    blocks := Function.update c.blocks key (some { s with
      transactions := s.transactions || transactions
      blockEvents := s.blockEvents || blockEvents }) }

def resolve (key : String × Int × DataKind) (c : Contents) : Contents :=
  { c with
    failures := Function.update c.failures key
      ((c.failures key).map fun f => { f with resolved := true }) }

def recordFailure (r : FailureRecord) (c : Contents) : Contents :=
  { c with
    failures := Function.update c.failures r.key (some {
      record := r
      attempts := ((c.failures r.key).map (·.attempts)).getD 0 + 1
      resolved := false }) }

/-- The last transaction of a batch with a hash stays, and covers an older one. -/
def putTxs (chainId : String) (new : List TxRecord) (old : String × String → Option TxRecord) :
    String × String → Option TxRecord :=
  fun key => (new.reverse.find? fun tx => (chainId, tx.hash) == key).or (old key)

def writeTxs (b : TxBatch) (c : Contents) : Contents :=
  let c := { c with
    txWrites := c.txWrites + 1
    txs := putTxs b.chainId b.txs c.txs
    txBatches := Function.update c.txBatches (b.chainId, b.height) (some b) }
  let c := c.mark (b.chainId, b.height) b.isComplete false
  if b.isComplete then c.resolve (b.chainId, b.height, .transactions) else c

def writeEvents (b : EventBatch) (c : Contents) : Contents :=
  let c := { c with
    eventWrites := c.eventWrites + 1
    eventBatches := Function.update c.eventBatches (b.chainId, b.height) (some b) }
  (c.mark (b.chainId, b.height) false true).resolve (b.chainId, b.height, .blockEvents)

end Contents

namespace MemoryStore

def contents (m : MemoryStore) : Contents where
  blocks := m.blocks.get?
  txs := m.txs.get?
  txBatches := m.txBatches.get?
  eventBatches := m.eventBatches.get?
  failures := m.failures.get?
  txWrites := m.txWrites
  eventWrites := m.eventWrites

/-! ## Contents -/

theorem get?_put_eq_update {κ α : Type} [DecidableEq κ] (key : κ) (a : α) (t : Table κ α) :
    (Table.put key a t).get? = Function.update t.get? key (some a) := by
  funext other
  rw [Table.get?_put, Function.update_apply]

theorem contents_mark (c : String) (h : Int) (transactions blockEvents : Bool) (m : MemoryStore) :
    (m.mark c h transactions blockEvents).contents =
      m.contents.mark (c, h) transactions blockEvents := by
  simp only [contents, mark, Contents.mark, Table.update, get?_put_eq_update]

theorem contents_resolve (c : String) (h : Int) (k : DataKind) (m : MemoryStore) :
    (m.resolve c h k).contents = m.contents.resolve (c, h, k) := by
  unfold resolve
  split
  · next f found =>
    simp only [contents, Contents.resolve, get?_put_eq_update, found, Option.map_some]
  · next missing =>
    have same : Function.update m.failures.get? (c, h, k) none = m.failures.get? := by
      rw [← missing, Function.update_eq_self]
    simp only [contents, Contents.resolve, missing, Option.map_none, same]

theorem contents_recordFailure (r : FailureRecord) (m : MemoryStore) :
    (m.recordFailure r).contents = m.contents.recordFailure r := by
  simp only [contents, recordFailure, Contents.recordFailure, Table.update, get?_put_eq_update,
    FailureRecord.key]

theorem get?_putTxs (chainId : String) (new : List TxRecord) (old : Table (String × String) TxRecord) :
    (putTxs chainId new old).get? = Contents.putTxs chainId new old.get? := by
  induction new generalizing old with
  | nil => rfl
  | cons tx new ih =>
    have step : putTxs chainId (tx :: new) old =
        putTxs chainId new (Table.put (chainId, tx.hash) tx old) := rfl
    rw [step, ih]
    funext key
    simp only [Contents.putTxs, List.reverse_cons, List.find?_append, Table.get?_put]
    by_cases same : key = (chainId, tx.hash)
    · subst same
      simp
    · simp [same, Ne.symm same]

theorem contents_writeTxs (b : TxBatch) (m : MemoryStore) :
    (m.writeTxs b).contents = m.contents.writeTxs b := by
  have stored : contents { m with
      txWrites := m.txWrites + 1
      txs := putTxs b.chainId b.txs m.txs
      txBatches := m.txBatches.put (b.chainId, b.height) b } = { m.contents with
      txWrites := m.txWrites + 1
      txs := Contents.putTxs b.chainId b.txs m.txs.get?
      txBatches := Function.update m.txBatches.get? (b.chainId, b.height) (some b) } := by
    simp only [contents, get?_putTxs, get?_put_eq_update]
  unfold writeTxs Contents.writeTxs
  split
  · rw [contents_resolve, contents_mark, stored]
    rfl
  · rw [contents_mark, stored]
    rfl

theorem contents_writeEvents (b : EventBatch) (m : MemoryStore) :
    (m.writeEvents b).contents = m.contents.writeEvents b := by
  have stored : contents { m with
      eventWrites := m.eventWrites + 1
      eventBatches := m.eventBatches.put (b.chainId, b.height) b } = { m.contents with
      eventWrites := m.eventWrites + 1
      eventBatches := Function.update m.eventBatches.get? (b.chainId, b.height) (some b) } := by
    simp only [contents, get?_put_eq_update]
  unfold writeEvents Contents.writeEvents
  rw [contents_resolve, contents_mark, stored]
  rfl

end MemoryStore

namespace Contents

variable (c : Contents) (chainId : String) (height : Int) (kind : DataKind)

/-! ## Indexed, unresolved and settled -/

/-- Whether a kind of a height is indexed. -/
def isIndexed : Bool := (c.blocks (chainId, height)).any (·.has kind)

/-- Whether a kind of a height is on record as failed and not resolved. -/
def isUnresolved : Bool := (c.failures (chainId, height, kind)).any (!·.resolved)

/-- A kind of a height is not lost: it is indexed, or its failure is on record. -/
def IsSettled : Prop := c.isIndexed chainId height kind ∨ c.isUnresolved chainId height kind

theorem isIndexed_mark (key : String × Int) (transactions blockEvents : Bool) :
    (c.mark key transactions blockEvents).isIndexed chainId height kind =
      (c.isIndexed chainId height kind ||
        decide ((chainId, height) = key) &&
          BlockStatus.has ⟨height, transactions, blockEvents⟩ kind) := by
  by_cases same : (chainId, height) = key
  · subst same
    cases old : c.blocks (chainId, height) <;> cases kind <;>
      simp [isIndexed, mark, old, BlockStatus.has, BlockStatus.unindexed]
  · simp [isIndexed, mark, same]

@[simp] theorem isUnresolved_mark (key : String × Int) (transactions blockEvents : Bool) :
    (c.mark key transactions blockEvents).isUnresolved chainId height kind =
      c.isUnresolved chainId height kind := rfl

@[simp] theorem isIndexed_resolve (key : String × Int × DataKind) :
    (c.resolve key).isIndexed chainId height kind = c.isIndexed chainId height kind := rfl

theorem isUnresolved_resolve (key : String × Int × DataKind) :
    (c.resolve key).isUnresolved chainId height kind =
      (c.isUnresolved chainId height kind && !decide ((chainId, height, kind) = key)) := by
  by_cases same : (chainId, height, kind) = key
  · subst same
    cases old : c.failures (chainId, height, kind) <;> simp [isUnresolved, resolve, old]
  · simp [isUnresolved, resolve, same]

@[simp] theorem isIndexed_recordFailure (r : FailureRecord) :
    (c.recordFailure r).isIndexed chainId height kind = c.isIndexed chainId height kind := rfl

theorem isUnresolved_recordFailure (r : FailureRecord) :
    (c.recordFailure r).isUnresolved chainId height kind =
      (c.isUnresolved chainId height kind || decide ((chainId, height, kind) = r.key)) := by
  by_cases same : (chainId, height, kind) = r.key
  · simp [isUnresolved, recordFailure, same]
  · simp [isUnresolved, recordFailure, same]

theorem isIndexed_writeTxs (b : TxBatch) :
    (c.writeTxs b).isIndexed chainId height kind =
      (c.isIndexed chainId height kind ||
        decide ((chainId, height) = (b.chainId, b.height)) &&
          BlockStatus.has ⟨height, b.isComplete, false⟩ kind) := by
  unfold writeTxs
  split
  · rw [isIndexed_resolve, isIndexed_mark]
    rfl
  · rw [isIndexed_mark]
    rfl

theorem isIndexed_writeEvents (b : EventBatch) :
    (c.writeEvents b).isIndexed chainId height kind =
      (c.isIndexed chainId height kind ||
        decide ((chainId, height) = (b.chainId, b.height)) &&
          BlockStatus.has ⟨height, false, true⟩ kind) := by
  unfold writeEvents
  rw [isIndexed_resolve, isIndexed_mark]
  rfl

theorem isUnresolved_writeTxs (b : TxBatch) :
    (c.writeTxs b).isUnresolved chainId height kind =
      (c.isUnresolved chainId height kind &&
        !(b.isComplete && decide ((chainId, height, kind) = (b.chainId, b.height, .transactions)))) :=
    by
  unfold writeTxs
  split
  · next complete =>
    rw [isUnresolved_resolve, complete, Bool.true_and]
    rfl
  · next complete =>
    rw [isUnresolved_mark, (Bool.not_eq_true _).mp complete, Bool.false_and, Bool.not_false,
      Bool.and_true]
    rfl

theorem isUnresolved_writeEvents (b : EventBatch) :
    (c.writeEvents b).isUnresolved chainId height kind =
      (c.isUnresolved chainId height kind &&
        !decide ((chainId, height, kind) = (b.chainId, b.height, .blockEvents))) := by
  unfold writeEvents
  rw [isUnresolved_resolve]
  rfl

end Contents

end ChainIndex
