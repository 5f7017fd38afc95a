/-
What a write does to the transactions in a memory, and to what the memory answers about other
chains. A transaction is stored under its chain and hash, so those of a batch take the place of
the older ones of their chain that have the same hashes, whatever heights these are of. All
others stay, and the heights listed for a type of message stay where the batch neither brings
nor replaces a transaction. What is answered about a chain is the same after a write about
another one.
-/
import ChainIndex.Proofs.Interchange
import Mathlib.Data.List.Sort

namespace ChainIndex

/-- A part of a table to which a key does not belong stays when the key is put. -/
theorem Table.filter_put {κ α : Type} [DecidableEq κ] {part : κ × α → Bool} {key : κ}
    (out : ∀ a, part (key, a) = false) (a : α) (t : Table κ α) :
    (t.put key a).filter part = t.filter part := by
  induction t with
  | nil => simp [put, out]
  | cons first rest ih =>
    obtain ⟨k, old⟩ := first
    unfold put
    split
    · next same => simp [same, out]
    · rw [List.filter_cons, List.filter_cons, ih]

/-! ## Writes -/

namespace StoreWrite

/-- What the write does to a memory, which accepts all of them. -/
def effect : StoreWrite → StoreEffect
  | failure r => .recorded r
  | txs b => .wroteTxs b
  | events b => .wroteEvents b

/-- The write brings a transaction of a chain. -/
def Brings (w : StoreWrite) (chainId : String) (tx : TxRecord) : Prop :=
  ∃ b, w = txs b ∧ b.chainId = chainId ∧ tx ∈ b.txs

/-- The write brings a transaction of a height, or one that takes the place of such a one. -/
def Moves (w : StoreWrite) (m : MemoryStore) (chainId : String) (height : Int) : Prop :=
  ∃ tx, w.Brings chainId tx ∧ (tx.height = height ∨
    ∃ old, m.txs.get? (chainId, tx.hash) = some old ∧ old.height = height)

variable {w : StoreWrite} {c : Contents} {chainId hash : String} {b : TxBatch} {tx : TxRecord}

/-- No transaction changes but those that the write brings. -/
theorem txs_onContents_of_not_mem {key : String × String} (other : key ∉ w.txKeys) :
    (w.effect.onContents c).txs key = c.txs key := by
  cases w with
  | failure r => rfl
  | events b => rfl
  | txs b =>
    have none : (b.txs.reverse.find? fun tx => (b.chainId, tx.hash) == key) = none := by
      refine List.find?_eq_none.mpr fun tx htx same => other ?_
      have same : (b.chainId, tx.hash) = key := by simpa using same
      exact List.mem_map.mpr ⟨tx, List.mem_reverse.mp htx, same⟩
    have put : Contents.putTxs b.chainId b.txs c.txs key = c.txs key := by
      simp [Contents.putTxs, none]
    simp only [effect, StoreEffect.onContents, Contents.writeTxs]
    split <;> exact put

theorem txs_onContents_txs :
    ((txs b).effect.onContents c).txs = Contents.putTxs b.chainId b.txs c.txs := by
  simp only [effect, StoreEffect.onContents, Contents.writeTxs]
  split <;> rfl

/-- Of the transactions with one hash the last one stays. -/
theorem txs_onContents_of_last {before after : List TxRecord}
    (split : b.txs = before ++ tx :: after) (last : ∀ t ∈ after, t.hash ≠ tx.hash) :
    ((txs b).effect.onContents c).txs (b.chainId, tx.hash) = some tx := by
  have later : (after.reverse.find? fun t => (b.chainId, t.hash) == (b.chainId, tx.hash)) = none :=
    List.find?_eq_none.mpr fun t ht same => last t (List.mem_reverse.mp ht) (by simpa using same)
  rw [txs_onContents_txs, Contents.putTxs, split]
  simp [later]

/-- Under the hash of a transaction that the write brings stands one that it brings. -/
theorem exists_txs_onContents (brought : (chainId, hash) ∈ w.txKeys) :
    ∃ tx, w.Brings chainId tx ∧ tx.hash = hash ∧
      (w.effect.onContents c).txs (chainId, hash) = some tx := by
  cases w with
  | failure r => cases brought
  | events b => cases brought
  | txs b =>
    obtain ⟨tx, mem, same⟩ := List.mem_map.mp brought
    have here : (b.txs.reverse.find? fun t => (b.chainId, t.hash) == (chainId, hash)).isSome :=
      List.find?_isSome.mpr ⟨tx, List.mem_reverse.mpr mem, by simpa using same⟩
    obtain ⟨found, stands⟩ := Option.isSome_iff_exists.mp here
    obtain ⟨rfl, hashed⟩ : b.chainId = chainId ∧ found.hash = hash := by
      simpa using List.find?_some stands
    refine ⟨found, ⟨b, rfl, rfl, ?_⟩, hashed, ?_⟩
    · exact List.mem_reverse.mp (List.mem_of_find?_eq_some stands)
    · rw [txs_onContents_txs, Contents.putTxs, stands]
      rfl

end StoreWrite

namespace MemoryStore

variable {m m' : MemoryStore} {w : StoreWrite} {chainId typeUrl : String} {height low high : Int}

/-! ## Stored transactions -/

/-- Each transaction stands once, under its own hash. -/
def TxsFiled (m : MemoryStore) : Prop :=
  m.txs.Filed fun key tx => tx.hash = key.2

theorem TxsFiled.empty : TxsFiled .empty := .nil

theorem TxsFiled.putTxs {txs : Table (String × String) TxRecord} (new : List TxRecord)
    (h : txs.Filed fun key tx => tx.hash = key.2) :
    (putTxs chainId new txs).Filed fun key tx => tx.hash = key.2 := by
  induction new generalizing txs with
  | nil => exact h
  | cons tx new ih =>
    have hashed : tx.hash = (chainId, tx.hash).2 := rfl
    exact ih (h.put hashed)

theorem txs_resolve (kind : DataKind) : (m.resolve chainId height kind).txs = m.txs := by
  unfold resolve
  split <;> rfl

theorem txs_writeTxs (b : TxBatch) : (m.writeTxs b).txs = putTxs b.chainId b.txs m.txs := by
  unfold writeTxs
  split
  · exact txs_resolve _
  · rfl

theorem TxsFiled.apply (h : m.TxsFiled) (e : StoreEffect) : (e.apply m).TxsFiled := by
  unfold TxsFiled at h ⊢
  cases e with
  | recorded r => exact h
  | missed r => exact h
  | wroteTxs b =>
    rw [StoreEffect.apply, txs_writeTxs]
    exact TxsFiled.putTxs b.txs h
  | wroteEvents b =>
    rw [StoreEffect.apply, writeEvents, txs_resolve]
    exact h

theorem TxsFiled.replay (h : m.TxsFiled) (es : List StoreEffect) : (replay es m).TxsFiled := by
  induction es generalizing m with
  | nil => exact h
  | cons e es ih => exact ih (h.apply e)

theorem txs_apply (m : MemoryStore) (w : StoreWrite) :
    (w.effect.apply m).txs.get? = (w.effect.onContents m.contents).txs :=
  congrArg Contents.txs (StoreEffect.contents_apply w.effect m)

/-- At a height to which the write moves nothing, and from which it takes nothing, the same
types of messages are found as before. -/
theorem hasMessage_apply_iff (h : m.TxsFiled) (still : ¬w.Moves m chainId height) :
    (w.effect.apply m).HasMessage chainId typeUrl height ↔ m.HasMessage chainId typeUrl height := by
  have same (hash : String) (other : (chainId, hash) ∉ w.txKeys) :
      (w.effect.apply m).txs.get? (chainId, hash) = m.txs.get? (chainId, hash) := by
    rw [txs_apply]
    exact StoreWrite.txs_onContents_of_not_mem other
  constructor
  · rintro ⟨hash, tx, stored, here, carries⟩
    rw [(h.apply w.effect).mem_iff] at stored
    -- What stands under a hash of the write now is of another height, and so was what made way.
    by_cases brought : (chainId, hash) ∈ w.txKeys
    · obtain ⟨tx', brings, -, stands⟩ :=
        StoreWrite.exists_txs_onContents (c := m.contents) brought
      rw [txs_apply, stands] at stored
      cases stored
      exact absurd ⟨tx, brings, .inl here⟩ still
    · rw [same hash brought, ← h.mem_iff] at stored
      exact ⟨hash, tx, stored, here, carries⟩
  · rintro ⟨hash, tx, stored, here, carries⟩
    have found := h.mem_iff.mp stored
    by_cases brought : (chainId, hash) ∈ w.txKeys
    · obtain ⟨tx', brings, rfl, -⟩ := StoreWrite.exists_txs_onContents (c := m.contents) brought
      exact absurd ⟨tx', brings, .inr ⟨tx, found, here⟩⟩ still
    · rw [← same hash brought] at found
      exact ⟨hash, tx, (h.apply w.effect).mem_iff.mpr found, here, carries⟩

theorem mem_heightsWithMessage_apply (h : m.TxsFiled)
    (still : low ≤ height → height ≤ high → ¬w.Moves m chainId height) :
    height ∈ (w.effect.apply m).heightsWithMessage chainId typeUrl low high ↔
      height ∈ m.heightsWithMessage chainId typeUrl low high := by
  rw [mem_heightsWithMessage, mem_heightsWithMessage]
  exact and_congr_right fun above => and_congr_right fun below =>
    hasMessage_apply_iff h (still above below)

theorem heightsWithMessage_apply (h : m.TxsFiled)
    (still : ∀ height, low ≤ height → height ≤ high → ¬w.Moves m chainId height) :
    (w.effect.apply m).heightsWithMessage chainId typeUrl low high =
      m.heightsWithMessage chainId typeUrl low high :=
  List.Pairwise.eq_of_mem_iff (pairwise_ascending _) (pairwise_ascending _) fun height =>
    mem_heightsWithMessage_apply h (still height)

/-! ## Other chains -/

/-- The tables of two memories have the same of a chain. -/
structure AgreesOn (m m' : MemoryStore) (chainId : String) : Prop where
  blocks : m.blocks.filter (·.1.1 == chainId) = m'.blocks.filter (·.1.1 == chainId)
  txs : m.txs.filter (·.1.1 == chainId) = m'.txs.filter (·.1.1 == chainId)
  failures : m.failures.filter (·.1.1 == chainId) = m'.failures.filter (·.1.1 == chainId)

/-- Two memories answer all questions about a chain alike. -/
structure AnswersAs (m m' : MemoryStore) (chainId : String) : Prop where
  highest : m.highest chainId = m'.highest chainId
  status : ∀ low high, m.status chainId low high = m'.status chainId low high
  heightsWithMessage : ∀ typeUrl low high,
    m.heightsWithMessage chainId typeUrl low high = m'.heightsWithMessage chainId typeUrl low high
  failures : m.failuresOf chainId = m'.failuresOf chainId
  unresolved : m.unresolved chainId = m'.unresolved chainId

theorem AgreesOn.answers (h : m.AgreesOn m' chainId) : m.AnswersAs m' chainId := by
  have statuses : m.statuses chainId = m'.statuses chainId := by
    rw [MemoryStore.statuses, MemoryStore.statuses, h.blocks]
  have failures : m.failuresOf chainId = m'.failuresOf chainId := by
    rw [failuresOf, failuresOf, h.failures]
  constructor
  case highest => rw [highest, highest, statuses]
  case status =>
    intro low high
    rw [status, status, statuses]
  case heightsWithMessage =>
    intro typeUrl low high
    rw [heightsWithMessage, heightsWithMessage, h.txs]
  case failures => exact failures
  case unresolved => rw [unresolved, unresolved, failures]

variable {writer : String}

theorem AgreesOn.mark (h : m.AgreesOn m' chainId) (other : writer ≠ chainId) (height : Int)
    (transactions blockEvents : Bool) :
    (m.mark writer height transactions blockEvents).AgreesOn m' chainId where
  blocks := (Table.filter_put (fun _ => by simpa using other) _ _).trans h.blocks
  txs := h.txs
  failures := h.failures

theorem AgreesOn.resolve (h : m.AgreesOn m' chainId) (other : writer ≠ chainId) (height : Int)
    (kind : DataKind) : (m.resolve writer height kind).AgreesOn m' chainId := by
  unfold MemoryStore.resolve
  split
  · exact ⟨h.blocks, h.txs,
      (Table.filter_put (fun _ => by simpa using other) _ _).trans h.failures⟩
  · exact h

theorem filter_putTxs (other : writer ≠ chainId) (new : List TxRecord)
    (txs : Table (String × String) TxRecord) :
    (putTxs writer new txs).filter (·.1.1 == chainId) = txs.filter (·.1.1 == chainId) := by
  induction new generalizing txs with
  | nil => rfl
  | cons tx new ih => exact (ih _).trans (Table.filter_put (fun _ => by simpa using other) _ _)

/-- A write about another chain leaves a chain as it is. -/
theorem agreesOn_apply (m : MemoryStore) (other : w.place.1 ≠ chainId) :
    (w.effect.apply m).AgreesOn m chainId := by
  cases w with
  | failure r =>
    have other : r.chainId ≠ chainId := other
    exact ⟨rfl, rfl, Table.filter_put (fun _ => by simpa using other) _ _⟩
  | txs b =>
    have stored : AgreesOn { m with
        txWrites := m.txWrites + 1
        txs := putTxs b.chainId b.txs m.txs
        txBatches := m.txBatches.put (b.chainId, b.height) b } m chainId :=
      ⟨rfl, filter_putTxs other b.txs m.txs, rfl⟩
    change (m.writeTxs b).AgreesOn m chainId
    unfold writeTxs
    split
    · exact (stored.mark other _ _ _).resolve other _ _
    · exact stored.mark other _ _ _
  | events b =>
    have stored : AgreesOn { m with
        eventWrites := m.eventWrites + 1
        eventBatches := m.eventBatches.put (b.chainId, b.height) b } m chainId := ⟨rfl, rfl, rfl⟩
    exact (stored.mark other _ _ _).resolve other _ _

end MemoryStore

end ChainIndex
