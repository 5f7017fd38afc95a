/-
Memories as the store builds them. In such a memory each key stands once, a status
is filed under its height, and a failure under its own chain, height and kind. The
empty memory is well formed and every call keeps it so. In a well-formed memory the
lists that the store answers with say the same as lookups do.
-/
import ChainIndex.Proofs.StoreEffect

namespace ChainIndex

namespace Table

variable {κ α : Type} [DecidableEq κ] {P : κ → α → Prop} {t : Table κ α} {key : κ} {a : α}

/-- Each key stands once, and what is filed under it is as `P` says. -/
def Filed (P : κ → α → Prop) (t : Table κ α) : Prop :=
  (t.map (·.1)).Nodup ∧ ∀ key a, (key, a) ∈ t → P key a

omit [DecidableEq κ] in
theorem Filed.nil : Filed P ([] : Table κ α) :=
  ⟨.nil, fun _ _ h => absurd h List.not_mem_nil⟩

theorem Filed.put (h : t.Filed P) (ha : P key a) : (t.put key a).Filed P := by
  refine ⟨?_, fun k b hb => ?_⟩
  · rw [keys_put]
    split
    · exact h.1
    · next fresh =>
      refine List.nodup_append.mpr ⟨h.1, List.pairwise_singleton _ key, fun k hk other hkey => ?_⟩
      rintro rfl
      exact fresh (List.mem_singleton.mp hkey ▸ hk)
  · rcases mem_put hb with same | old
    · cases same
      exact ha
    · exact h.2 k b old

theorem Filed.get? (h : t.Filed P) (found : t.get? key = some a) : P key a :=
  h.2 key a (mem_of_get? found)

theorem get?_of_mem (nodup : (t.map (·.1)).Nodup) (mem : (key, a) ∈ t) : t.get? key = some a := by
  induction t with
  | nil => cases mem
  | cons first rest ih =>
    obtain ⟨k, b⟩ := first
    obtain ⟨fresh, nodup⟩ := List.nodup_cons.mp nodup
    rw [get?_cons]
    rcases List.mem_cons.mp mem with same | mem
    · cases same
      rw [if_pos rfl]
    · have other : k ≠ key := by
        rintro rfl
        exact fresh (List.mem_map_of_mem (f := (·.1)) mem)
      rw [if_neg other, ih nodup mem]

/-- What is in a table is what lookups find. -/
theorem Filed.mem_iff (h : t.Filed P) : (key, a) ∈ t ↔ t.get? key = some a :=
  ⟨get?_of_mem h.1, mem_of_get?⟩

end Table

/-- The only element with a property is the one that is found. -/
theorem find?_of_unique {α : Type} {test : α → Bool} {x : α} {xs : List α} (mem : x ∈ xs)
    (yes : test x = true) (unique : ∀ y ∈ xs, test y = true → y = x) : xs.find? test = some x := by
  cases found : xs.find? test with
  | none => exact absurd yes (List.find?_eq_none.mp found x mem)
  | some y => rw [unique y (List.mem_of_find?_eq_some found) (List.find?_some found)]

/-- A memory as the calls of the store build it. -/
structure MemoryStore.WellFormed (m : MemoryStore) : Prop where
  blocks : m.blocks.Filed fun key s => s.height = key.2
  failures : m.failures.Filed fun key f => f.record.key = key

namespace MemoryStore

variable {m : MemoryStore}

theorem wellFormed_empty : empty.WellFormed := ⟨.nil, .nil⟩

/-! ## Calls -/

theorem WellFormed.mark (h : m.WellFormed) (chainId : String) (height : Int)
    (transactions blockEvents : Bool) :
    (m.mark chainId height transactions blockEvents).WellFormed where
  blocks := by
    refine h.blocks.put ?_
    cases old : m.blocks.get? (chainId, height) with
    | none => rfl
    | some s =>
      have filed : s.height = height := h.blocks.get? old
      exact filed
  failures := h.failures

theorem WellFormed.resolve (h : m.WellFormed) (chainId : String) (height : Int)
    (kind : DataKind) : (m.resolve chainId height kind).WellFormed := by
  unfold MemoryStore.resolve
  split
  · next f found =>
    have filed : f.record.key = (chainId, height, kind) := h.failures.get? found
    exact ⟨h.blocks, h.failures.put filed⟩
  · exact h

theorem WellFormed.recordFailure (h : m.WellFormed) (r : FailureRecord) :
    (m.recordFailure r).WellFormed :=
  ⟨h.blocks, h.failures.put rfl⟩

theorem WellFormed.writeTxs (h : m.WellFormed) (b : TxBatch) : (m.writeTxs b).WellFormed := by
  have stored : WellFormed { m with
      txWrites := m.txWrites + 1
      txs := putTxs b.chainId b.txs m.txs
      txBatches := m.txBatches.put (b.chainId, b.height) b } := ⟨h.blocks, h.failures⟩
  unfold MemoryStore.writeTxs
  split
  · exact (stored.mark _ _ _ _).resolve _ _ _
  · exact stored.mark _ _ _ _

theorem WellFormed.writeEvents (h : m.WellFormed) (b : EventBatch) :
    (m.writeEvents b).WellFormed := by
  have stored : WellFormed { m with
      eventWrites := m.eventWrites + 1
      eventBatches := m.eventBatches.put (b.chainId, b.height) b } := ⟨h.blocks, h.failures⟩
  exact (stored.mark _ _ _ _).resolve _ _ _

theorem WellFormed.apply (h : m.WellFormed) (e : StoreEffect) : (e.apply m).WellFormed := by
  cases e with
  | recorded r => exact h.recordFailure r
  | missed r => exact h
  | wroteTxs b => exact h.writeTxs b
  | wroteEvents b => exact h.writeEvents b

/-- Whatever is done to a well-formed memory, it stays well formed. -/
theorem WellFormed.replay (h : m.WellFormed) (es : List StoreEffect) :
    (replay es m).WellFormed := by
  induction es generalizing m with
  | nil => exact h
  | cons e es ih => exact ih (h.apply e)

/-! ## Answers -/

theorem mem_statuses (h : m.WellFormed) {chainId : String} {s : BlockStatus} :
    s ∈ m.statuses chainId ↔ m.blocks.get? (chainId, s.height) = some s := by
  unfold statuses
  rw [List.mem_mergeSort, List.mem_map, ← h.blocks.mem_iff]
  constructor
  · rintro ⟨⟨⟨chain, height⟩, s⟩, kept, rfl⟩
    obtain ⟨mem, same⟩ := List.mem_filter.mp kept
    obtain rfl : chain = chainId := by simpa using same
    have filed := h.blocks.2 _ _ mem
    rwa [show s.height = height from filed]
  · intro mem
    exact ⟨((chainId, s.height), s), List.mem_filter.mpr ⟨mem, by simp⟩, rfl⟩

/-- The status of a height in the list is the one that a lookup finds. -/
theorem find?_statuses (h : m.WellFormed) (chainId : String) (height : Int) :
    (m.statuses chainId).reverse.find? (·.height == height) =
      m.contents.blocks (chainId, height) := by
  cases found : m.blocks.get? (chainId, height) with
  | none =>
    refine Eq.trans (List.find?_eq_none.mpr fun s hs same => ?_) found.symm
    have mem := (mem_statuses h).mp (List.mem_reverse.mp hs)
    rw [show s.height = height by simpa using same, found] at mem
    cases mem
  | some s =>
    have same : s.height = height := h.blocks.get? found
    refine Eq.trans (find?_of_unique ?_ (by simpa using same) fun t ht other => ?_) found.symm
    · rw [List.mem_reverse, mem_statuses h, same, found]
    · have mem := (mem_statuses h).mp (List.mem_reverse.mp ht)
      rw [show t.height = height by simpa using other, found] at mem
      exact (Option.some.inj mem).symm

/-- A transaction of a height is stored that has a message of a type. -/
def HasMessage (m : MemoryStore) (chainId typeUrl : String) (height : Int) : Prop :=
  ∃ key tx, ((chainId, key), tx) ∈ m.txs ∧ tx.height = height ∧
    ∃ message ∈ tx.messages, message.typeUrl = typeUrl

theorem mem_heightsWithMessage {chainId typeUrl : String} {height low high : Int} :
    height ∈ m.heightsWithMessage chainId typeUrl low high ↔
      low ≤ height ∧ height ≤ high ∧ m.HasMessage chainId typeUrl height := by
  unfold heightsWithMessage HasMessage
  rw [mem_ascending]
  constructor
  · intro mem
    obtain ⟨⟨⟨chain, key⟩, tx⟩, kept, rfl⟩ := List.mem_map.mp mem
    obtain ⟨stored, fits⟩ := List.mem_filter.mp kept
    obtain ⟨held, here⟩ := List.mem_filter.mp stored
    obtain rfl : chain = chainId := by simpa using here
    obtain ⟨⟨above, below⟩, carries⟩ : (low ≤ tx.height ∧ tx.height ≤ high) ∧
        ∃ message ∈ tx.messages, message.typeUrl = typeUrl := by simpa using fits
    exact ⟨above, below, key, tx, held, rfl, carries⟩
  · rintro ⟨above, below, key, tx, held, rfl, carries⟩
    refine List.mem_map.mpr ⟨((chainId, key), tx), List.mem_filter.mpr ⟨?_, ?_⟩, rfl⟩
    · exact List.mem_filter.mpr ⟨held, beq_self_eq_true chainId⟩
    · simpa using ⟨⟨above, below⟩, carries⟩

theorem mem_unresolved (h : m.WellFormed) {chainId : String} {r : FailureRecord} :
    r ∈ m.unresolved chainId ↔
      r.chainId = chainId ∧ m.contents.isUnresolved chainId r.height r.kind = true ∧
        ∃ f, m.failures.get? r.key = some f ∧ f.record = r := by
  unfold unresolved failuresOf
  simp only [List.mem_map, List.mem_filter, List.mem_mergeSort]
  constructor
  · rintro ⟨f, ⟨⟨⟨key, f⟩, ⟨mem, same⟩, rfl⟩, open'⟩, rfl⟩
    have found := h.failures.mem_iff.mp mem
    have filed := h.failures.2 key f mem
    obtain rfl : f.record.chainId = chainId := by
      rw [← filed] at same
      simpa [FailureRecord.key] using same
    rw [← filed] at found
    refine ⟨rfl, ?_, f, found, rfl⟩
    rw [Contents.isUnresolved, show m.contents.failures (f.record.chainId, f.record.height,
      f.record.kind) = some f from found]
    exact open'
  · rintro ⟨rfl, open', f, found, rfl⟩
    rw [Contents.isUnresolved, show m.contents.failures (f.record.chainId, f.record.height,
      f.record.kind) = some f from found] at open'
    exact ⟨f, ⟨⟨(f.record.key, f), ⟨h.failures.mem_iff.mpr found, by simp [FailureRecord.key]⟩,
      rfl⟩, open'⟩, rfl⟩

/-- The list of unresolved failures has those that lookups find unresolved. -/
theorem any_unresolved (h : m.WellFormed) (chainId : String) (height : Int) (kind : DataKind) :
    ((m.unresolved chainId).any fun r => r.height == height && r.kind == kind) =
      m.contents.isUnresolved chainId height kind := by
  rw [Bool.eq_iff_iff, List.any_eq_true]
  constructor
  · rintro ⟨r, hr, same⟩
    obtain ⟨rfl, rfl⟩ : r.height = height ∧ r.kind = kind := by simpa using same
    exact ((mem_unresolved h).mp hr).2.1
  · intro open'
    have there : ∃ f, m.failures.get? (chainId, height, kind) = some f := by
      cases found : m.failures.get? (chainId, height, kind) with
      | none =>
        rw [Contents.isUnresolved, show m.contents.failures (chainId, height, kind) = none from
          found] at open'
        cases open'
      | some f => exact ⟨f, rfl⟩
    obtain ⟨f, found⟩ := there
    have filed : f.record.key = (chainId, height, kind) := h.failures.get? found
    obtain ⟨hc, hh, hk⟩ : f.record.chainId = chainId ∧ f.record.height = height ∧
        f.record.kind = kind := by simpa [FailureRecord.key] using filed
    refine ⟨f.record, (mem_unresolved h).mpr ⟨hc, by rwa [hh, hk], f, filed ▸ found, rfl⟩, ?_⟩
    simp [hh, hk]

end MemoryStore

end ChainIndex
