/-
Failures as the history of a memory tells them. From its first write on, a memory
holds of each kind of a height what its writes say: one record if it has failed,
which is the last one and counts how often it failed, open as long as nothing has
indexed the kind since; and the flag of the kind if anything has ever indexed it. A
batch that is not complete changes none of this. Of another height or chain a write
changes nothing but the transactions that make way for its own.
-/
import ChainIndex.Proofs.StoredTxs

namespace ChainIndex

namespace Table

variable {κ α : Type} [DecidableEq κ] {P : κ → α → Prop} {t : Table κ α}

theorem filter_key (nodup : (t.map (·.1)).Nodup) (key : κ) :
    (t.filter (·.1 == key)).map (·.2) = (t.get? key).toList := by
  induction t with
  | nil => rfl
  | cons first rest ih =>
    obtain ⟨k, a⟩ := first
    obtain ⟨fresh, nodup⟩ := List.nodup_cons.mp nodup
    by_cases same : k = key
    · have none : rest.filter (·.1 == key) = [] := by
        refine List.filter_eq_nil_iff.mpr fun e he found => ?_
        have here : e.1 = key := by simpa using found
        exact fresh (List.mem_map.mpr ⟨e, he, here.trans same.symm⟩)
      simp [get?_cons, same, none]
    · simp [get?_cons, same, ih nodup]

/-- The only entry of a key is what is left of a sorted part of the table if nothing
else there looks like it. -/
theorem Filed.filter_sorted (h : t.Filed P) {key : κ} {part : κ × α → Bool} {test : α → Bool}
    (le : α → α → Bool) (same : ∀ k a, P k a → (part (k, a) && test a) = (k == key)) :
    (((t.filter part).map (·.2)).mergeSort le).filter test = (t.get? key).toList := by
  have entries : ((t.filter part).map (·.2)).filter test = (t.get? key).toList := by
    rw [← filter_key h.1 key, List.filter_map, List.filter_filter]
    refine congrArg (List.map _) (List.filter_congr fun e he => ?_)
    rw [← same e.1 e.2 (h.2 e.1 e.2 he), Bool.and_comm]
    rfl
  have order := (List.mergeSort_perm ((t.filter part).map (·.2)) le).filter test
  rw [entries] at order
  cases found : t.get? key with
  | none => simpa [found] using order
  | some a => simpa [found] using order

end Table

namespace MemoryStore

/-- What is listed of the failures of one kind of a height. -/
def failuresAt (m : MemoryStore) (chainId : String) (height : Int) (kind : DataKind) :
    List StoredFailure :=
  (m.failuresOf chainId).filter fun f => f.record.height == height && f.record.kind == kind

variable {m : MemoryStore}

theorem failuresAt_eq (h : m.WellFormed) (chainId : String) (height : Int) (kind : DataKind) :
    m.failuresAt chainId height kind = (m.contents.failures (chainId, height, kind)).toList := by
  refine h.failures.filter_sorted _ fun key f filed => ?_
  obtain rfl : f.record.key = key := filed
  rw [Bool.eq_iff_iff]
  simp only [FailureRecord.key, Bool.and_eq_true, beq_iff_eq, Prod.mk.injEq]

theorem status_eq (h : m.WellFormed) (chainId : String) (height : Int) :
    m.status chainId height height = (m.contents.blocks (chainId, height)).toList := by
  refine h.blocks.filter_sorted _ fun key s filed => ?_
  obtain ⟨chain, place⟩ := key
  have filed : s.height = place := filed
  rw [Bool.eq_iff_iff]
  simp only [Bool.and_eq_true, beq_iff_eq, decide_eq_true_eq, Prod.mk.injEq]
  refine and_congr_right fun _ => ?_
  omega

theorem mem_heightsIndexed (h : m.WellFormed) {chainId : String} {height : Int} {kind : DataKind} :
    height ∈ m.heightsIndexed chainId kind ↔
      m.contents.isIndexed chainId height kind = true := by
  unfold heightsIndexed Contents.isIndexed
  rw [List.mem_map]
  constructor
  · rintro ⟨s, found, rfl⟩
    obtain ⟨mem, has⟩ := List.mem_filter.mp found
    have stored : m.contents.blocks (chainId, s.height) = some s := (mem_statuses h).mp mem
    rw [stored]
    exact has
  · intro indexed
    cases found : m.contents.blocks (chainId, height) with
    | none =>
      rw [found] at indexed
      cases indexed
    | some s =>
      rw [found] at indexed
      have same : s.height = height := h.blocks.get? found
      refine ⟨s, List.mem_filter.mpr ⟨?_, indexed⟩, same⟩
      rw [mem_statuses h, same]
      exact found

end MemoryStore

/-! ## Writes -/

namespace StoreWrite

/-- The write records a failure of this kind of a height. -/
def Fails (w : StoreWrite) (chainId : String) (height : Int) (kind : DataKind) : Prop :=
  ∃ r, w = failure r ∧ r.chainId = chainId ∧ r.height = height ∧ r.kind = kind

/-- The write brings all there is of this kind of a height. -/
def Completes (w : StoreWrite) (chainId : String) (height : Int) : DataKind → Prop
  | .transactions => ∃ b, w = txs b ∧ b.chainId = chainId ∧ b.height = height ∧ b.isComplete = true
  | .blockEvents => ∃ b, w = events b ∧ b.chainId = chainId ∧ b.height = height

variable {w : StoreWrite} {chainId : String} {height : Int} {kind : DataKind}

theorem fails_iff : w.Fails chainId height kind ↔ w.effect.fails? = some (chainId, height, kind) := by
  cases w <;> simp [Fails, effect, StoreEffect.fails?, FailureRecord.key]

theorem completes_iff :
    w.Completes chainId height kind ↔ w.effect.indexes? = some (chainId, height, kind) := by
  cases w with
  | failure r => cases kind <;> simp [Completes, effect, StoreEffect.indexes?]
  | txs b =>
    cases complete : b.isComplete <;> cases kind <;>
      simp [Completes, effect, StoreEffect.indexes?, complete]
  | events b => cases kind <;> simp [Completes, effect, StoreEffect.indexes?]

instance : Decidable (w.Fails chainId height kind) := decidable_of_iff _ fails_iff.symm

instance : Decidable (w.Completes chainId height kind) := decidable_of_iff _ completes_iff.symm

variable {c : Contents}

/-- A failure that is recorded is a new attempt, and open. -/
theorem failures_of_failure (r : FailureRecord) :
    ((failure r).effect.onContents c).failures r.key =
      some ⟨r, ((c.failures r.key).map (·.attempts)).getD 0 + 1, false⟩ := by
  simp [effect, StoreEffect.onContents, Contents.recordFailure]

/-- A write that does not record a failure resolves it if it completes its kind, and
leaves it alone otherwise. -/
theorem failures_of_calm (calm : ¬w.Fails chainId height kind) :
    (w.effect.onContents c).failures (chainId, height, kind) =
      (c.failures (chainId, height, kind)).map fun f =>
        { f with resolved := f.resolved || decide (w.Completes chainId height kind) } := by
  have resolves (place : String × Int × DataKind) (c : Contents) :
      (c.resolve place).failures (chainId, height, kind) =
        (c.failures (chainId, height, kind)).map fun f =>
          { f with resolved := f.resolved || decide (place = (chainId, height, kind)) } := by
    by_cases same : place = (chainId, height, kind)
    · simp [Contents.resolve, same]
    · simp [Contents.resolve, same, Ne.symm same]
  cases w with
  | failure r =>
    have other : (chainId, height, kind) ≠ r.key := by
      intro same
      obtain ⟨rfl, rfl, rfl⟩ : chainId = r.chainId ∧ height = r.height ∧ kind = r.kind := by
        simpa [FailureRecord.key] using same
      exact calm ⟨r, rfl, rfl, rfl, rfl⟩
    have never : ¬(failure r).Completes chainId height kind := by
      cases kind <;> simp [Completes]
    simp [effect, StoreEffect.onContents, Contents.recordFailure, other, never]
  | txs b =>
    have completes : decide ((txs b).Completes chainId height kind) =
        (b.isComplete && decide ((b.chainId, b.height, .transactions) = (chainId, height, kind))) := by
      cases complete : b.isComplete <;> cases kind <;> simp [Completes, complete]
    simp only [effect, StoreEffect.onContents, Contents.writeTxs, completes]
    cases b.isComplete with
    | true => exact resolves _ _
    | false => simp [Contents.mark]
  | events b =>
    have completes : decide ((events b).Completes chainId height kind) =
        decide ((b.chainId, b.height, .blockEvents) = (chainId, height, kind)) := by
      cases kind <;> simp [Completes]
    simp only [effect, StoreEffect.onContents, Contents.writeEvents, completes]
    exact resolves _ _

/-- Nothing changes of a height that the write is not about. -/
theorem onContents_elsewhere (other : (chainId, height) ≠ w.place) :
    let c' := w.effect.onContents c
    c'.blocks (chainId, height) = c.blocks (chainId, height) ∧
      c'.txBatches (chainId, height) = c.txBatches (chainId, height) ∧
      c'.eventBatches (chainId, height) = c.eventBatches (chainId, height) ∧
      ∀ kind, c'.failures (chainId, height, kind) = c.failures (chainId, height, kind) := by
  have failures (kind : DataKind) : (w.effect.onContents c).failures (chainId, height, kind) =
      c.failures (chainId, height, kind) := by
    have calm : ¬w.Fails chainId height kind := by
      rintro ⟨r, rfl, rfl, rfl, -⟩
      exact other rfl
    have apart : ¬w.Completes chainId height kind := by
      intro completes
      cases kind with
      | transactions =>
        obtain ⟨b, rfl, rfl, rfl, -⟩ := completes
        exact other rfl
      | blockEvents =>
        obtain ⟨b, rfl, rfl, rfl⟩ := completes
        exact other rfl
    rw [failures_of_calm calm]
    simp [apart]
  cases w with
  | failure r => exact ⟨rfl, rfl, rfl, failures⟩
  | txs b =>
    have other : (chainId, height) ≠ (b.chainId, b.height) := other
    refine ⟨?_, ?_, ?_, failures⟩
    all_goals
      simp only [effect, StoreEffect.onContents, Contents.writeTxs]
      split <;> simp [Contents.mark, Contents.resolve, other]
  | events b =>
    have other : (chainId, height) ≠ (b.chainId, b.height) := other
    refine ⟨?_, ?_, ?_, failures⟩
    all_goals
      simp [effect, StoreEffect.onContents, Contents.writeEvents, Contents.mark,
        Contents.resolve, other]

end StoreWrite

/-! ## Histories -/

namespace Contents

/-- The contents after some writes. -/
def after (ws : List StoreWrite) (c : Contents) : Contents :=
  c.replay (ws.map (·.effect))

variable {c : Contents} {ws : List StoreWrite} {chainId : String} {height : Int} {kind : DataKind}

theorem after_cons (w : StoreWrite) (ws : List StoreWrite) (c : Contents) :
    c.after (w :: ws) = (w.effect.onContents c).after ws := rfl

theorem after_append (vs ws : List StoreWrite) (c : Contents) :
    c.after (vs ++ ws) = (c.after vs).after ws := by
  simp [after, replay]

/-- Writes that do not record a failure resolve it if one of them completes its kind. -/
theorem failures_after_of_calm (calm : ∀ w ∈ ws, ¬w.Fails chainId height kind) :
    (c.after ws).failures (chainId, height, kind) =
      (c.failures (chainId, height, kind)).map fun f =>
        { f with
          resolved := f.resolved || ws.any fun w => decide (w.Completes chainId height kind) } := by
  induction ws generalizing c with
  | nil => simp [after, replay]
  | cons w ws ih =>
    have later := ih (c := w.effect.onContents c) fun v hv => calm v (List.mem_cons_of_mem w hv)
    have now := StoreWrite.failures_of_calm (c := c) (calm w List.mem_cons_self)
    rw [after_cons, later, now, Option.map_map]
    simp only [Function.comp_def, List.any_cons, Bool.or_assoc]

/-- Each recording of a failure counts, and nothing else does. -/
theorem attempts_after :
    (((c.after ws).failures (chainId, height, kind)).map (·.attempts)).getD 0 =
      ((c.failures (chainId, height, kind)).map (·.attempts)).getD 0 +
        .ofNat (ws.countP fun w => decide (w.Fails chainId height kind)) := by
  induction ws generalizing c with
  | nil => exact (UInt32.add_zero _).symm
  | cons w ws ih =>
    rw [after_cons, ih, List.countP_cons]
    by_cases fails : w.Fails chainId height kind
    · have counts : decide (w.Fails chainId height kind) = true := decide_eq_true fails
      obtain ⟨r, rfl, rfl, rfl, rfl⟩ := fails
      have now : ((StoreWrite.failure r).effect.onContents c).failures
          (r.chainId, r.height, r.kind) = _ := StoreWrite.failures_of_failure r
      rw [now, if_pos counts]
      simp only [Option.map_some, Option.getD_some, FailureRecord.key]
      rw [UInt32.ofNat_add, UInt32.add_comm (.ofNat _), UInt32.add_assoc]
      rfl
    · rw [StoreWrite.failures_of_calm fails, Option.map_map]
      simp [fails, Function.comp_def]

/-- After a last failure that one is on record. -/
theorem failures_after_of_last (before : List StoreWrite) {since : List StoreWrite}
    {r : FailureRecord} (calm : ∀ w ∈ since, ¬w.Fails r.chainId r.height r.kind) :
    (c.after (before ++ .failure r :: since)).failures r.key = some {
      record := r
      attempts := ((c.failures r.key).map (·.attempts)).getD 0 +
        .ofNat ((before ++ .failure r :: since).countP fun w =>
          decide (w.Fails r.chainId r.height r.kind))
      resolved := since.any fun w => decide (w.Completes r.chainId r.height r.kind) } := by
  have fails : (StoreWrite.failure r).Fails r.chainId r.height r.kind := ⟨r, rfl, rfl, rfl, rfl⟩
  have none : since.countP (fun w => decide (w.Fails r.chainId r.height r.kind)) = 0 :=
    List.countP_eq_zero.mpr fun w hw => by simpa using calm w hw
  have earlier : (((c.after before).failures r.key).map (·.attempts)).getD 0 =
      ((c.failures r.key).map (·.attempts)).getD 0 +
        .ofNat (before.countP fun w => decide (w.Fails r.chainId r.height r.kind)) :=
    attempts_after
  have later := failures_after_of_calm (c := (StoreWrite.failure r).effect.onContents
    (c.after before)) calm
  have now := StoreWrite.failures_of_failure (c := c.after before) r
  rw [after_append, after_cons]
  refine later.trans ?_
  change Option.map _ (Contents.failures _ r.key) = _
  rw [now, earlier, List.countP_append, List.countP_cons, none, if_pos (decide_eq_true fails)]
  simp [UInt32.add_assoc]

/-- A kind is indexed if it was before or if a write completed it. -/
theorem isIndexed_after : (c.after ws).isIndexed chainId height kind = true ↔
    c.isIndexed chainId height kind = true ∨ ∃ w ∈ ws, w.Completes chainId height kind := by
  simp only [after, isIndexed_replay, List.mem_map, exists_exists_and_eq_and,
    StoreWrite.completes_iff]

end Contents

/-! ## Memories -/

namespace MemoryStore

theorem run_effect (w : StoreWrite) (m : MemoryStore) :
    (asStore.write w).run.run m = (.ok (), w.effect.apply m) := by
  cases w <;> rfl

theorem run_effects (ws : List StoreWrite) (m : MemoryStore) :
    (ws.forM asStore.write).run.run m = (.ok (), replay (ws.map (·.effect)) m) := by
  induction ws generalizing m with
  | nil => rfl
  | cons w ws ih => exact (Call.run_bind_ok (run_effect w m)).trans (ih _)

/-- What a memory holds of a kind of a height is what its history says of it. -/
structure Follows (m : MemoryStore) (ws : List StoreWrite) (chainId : String) (height : Int)
    (kind : DataKind) : Prop where
  /-- Without a failure in the history none is on record. -/
  calm : (∀ w ∈ ws, ¬w.Fails chainId height kind) → m.failuresAt chainId height kind = []
  /-- After a last failure exactly one is on record: the last one, with the number of
  them in 32 bits, and resolved if the kind was completed since. -/
  failed : ∀ before r since, ws = before ++ .failure r :: since →
    StoreWrite.Fails (.failure r) chainId height kind →
    (∀ w ∈ since, ¬w.Fails chainId height kind) →
    m.failuresAt chainId height kind = [{
      record := r
      attempts := .ofNat (ws.countP fun w => decide (w.Fails chainId height kind))
      resolved := since.any fun w => decide (w.Completes chainId height kind) }]
  /-- The kind is indexed if it was ever completed. -/
  indexed : height ∈ m.heightsIndexed chainId kind ↔ ∃ w ∈ ws, w.Completes chainId height kind

/-- Two memories hold the same of a height of a chain. -/
structure AgreesAt (m m' : MemoryStore) (chainId : String) (height : Int) : Prop where
  status : m.status chainId height height = m'.status chainId height height
  txBatch : m.txBatch? chainId height = m'.txBatch? chainId height
  eventBatch : m.eventBatch? chainId height = m'.eventBatch? chainId height
  failures : ∀ kind, m.failuresAt chainId height kind = m'.failuresAt chainId height kind

variable {m : MemoryStore} {chainId : String} {height : Int}

/-- The memory after a history follows it. -/
theorem follows_replay (ws : List StoreWrite) (chainId : String) (height : Int) (kind : DataKind) :
    (replay (ws.map (·.effect)) empty).Follows ws chainId height kind := by
  have wf := wellFormed_empty.replay (ws.map (·.effect))
  have contents : (replay (ws.map (·.effect)) empty).contents = empty.contents.after ws :=
    contents_replay _ _
  constructor
  case calm =>
    intro none
    rw [failuresAt_eq wf, contents, Contents.failures_after_of_calm none]
    rfl
  case failed =>
    intro before r since split fails none
    obtain ⟨_, ⟨⟩, rfl, rfl, rfl⟩ := fails
    have last := Contents.failures_after_of_last (c := empty.contents) before none
    rw [← split] at last
    have fresh : ((empty.contents.failures r.key).map (·.attempts)).getD 0 = 0 := rfl
    rw [failuresAt_eq wf, contents]
    change (Contents.failures _ r.key).toList = _
    rw [last, fresh, UInt32.zero_add]
    rfl
  case indexed =>
    rw [mem_heightsIndexed wf, contents, Contents.isIndexed_after]
    have fresh : empty.contents.isIndexed chainId height kind = false := rfl
    simp [fresh]

theorem agreesAt_apply (h : m.WellFormed) {w : StoreWrite} (other : (chainId, height) ≠ w.place) :
    (w.effect.apply m).AgreesAt m chainId height := by
  have wf := h.apply w.effect
  obtain ⟨blocks, txBatches, eventBatches, failures⟩ :=
    StoreWrite.onContents_elsewhere (c := m.contents) other
  rw [← StoreEffect.contents_apply] at blocks txBatches eventBatches failures
  constructor
  · rw [status_eq wf, status_eq h, blocks]
  · exact txBatches
  · exact eventBatches
  · intro kind
    rw [failuresAt_eq wf, failuresAt_eq h, failures]

/-- A batch that is not complete changes no failure and sets no flag. -/
theorem incomplete_apply (h : m.WellFormed) {b : TxBatch} (partly : b.isComplete = false)
    (chainId : String) :
    (m.writeTxs b).failuresOf chainId = m.failuresOf chainId ∧ ∀ height kind,
      height ∈ (m.writeTxs b).heightsIndexed chainId kind ↔ height ∈ m.heightsIndexed chainId kind := by
  constructor
  · simp only [writeTxs, partly]
    rfl
  · intro height kind
    have never : ¬StoreWrite.Completes (.txs b) chainId height kind := by
      cases kind <;> simp [StoreWrite.Completes, partly]
    have indexed : (m.contents.after [.txs b]).isIndexed chainId height kind = true ↔
        m.contents.isIndexed chainId height kind = true ∨
          ∃ w ∈ [StoreWrite.txs b], w.Completes chainId height kind := Contents.isIndexed_after
    rw [show m.contents.after [.txs b] = m.contents.writeTxs b from rfl] at indexed
    rw [mem_heightsIndexed (h.writeTxs b), mem_heightsIndexed h, contents_writeTxs]
    simpa [never] using indexed

/-- What a write changes of a memory that is not about its own height. -/
structure ChangedBy (m' m : MemoryStore) (w : StoreWrite) : Prop where
  /-- Of another height or chain nothing changes beside the transactions. -/
  elsewhere : ∀ chainId height, (chainId, height) ≠ w.place → m'.AgreesAt m chainId height
  /-- Of the transactions those stay whose hashes the write does not bring. -/
  kept : ∀ key, key ∉ w.txKeys → m'.txs.get? key = m.txs.get? key
  /-- The others make way, whatever height they are of; the last one of a hash stays. -/
  brought : ∀ b before tx after, w = .txs b → b.txs = before ++ tx :: after →
    (∀ t ∈ after, t.hash ≠ tx.hash) → m'.txs.get? (b.chainId, tx.hash) = some tx
  /-- So a height is listed for a type of message as before as long as no transaction of
  it comes or makes way. -/
  listed : ∀ chainId typeUrl low high height, ¬w.Moves m chainId height →
    (height ∈ m'.heightsWithMessage chainId typeUrl low high ↔
      height ∈ m.heightsWithMessage chainId typeUrl low high)
  /-- Where that holds of all heights, the answer is the same. -/
  sameList : ∀ chainId typeUrl low high,
    (∀ height, low ≤ height → height ≤ high → ¬w.Moves m chainId height) →
    m'.heightsWithMessage chainId typeUrl low high = m.heightsWithMessage chainId typeUrl low high
  /-- What is answered about another chain stays as it is. -/
  otherChains : ∀ chainId, w.place.1 ≠ chainId → m'.AnswersAs m chainId

theorem changedBy_apply (h : m.WellFormed) (filed : m.TxsFiled) (w : StoreWrite) :
    (w.effect.apply m).ChangedBy m w where
  elsewhere _ _ other := agreesAt_apply h other
  kept key other := by
    rw [txs_apply]
    exact StoreWrite.txs_onContents_of_not_mem other
  brought b before tx after same split last := by
    rw [same, txs_apply]
    exact StoreWrite.txs_onContents_of_last split last
  listed _ _ _ _ _ still := mem_heightsWithMessage_apply filed fun _ _ => still
  sameList _ _ _ _ still := heightsWithMessage_apply filed still
  otherChains _ other := (agreesOn_apply m other).answers

/-- **A memory follows its history.** After any writes to an empty memory, it holds
of each kind of each height what they say; a batch that is not complete changes none
of that, and a write changes nothing of another height or chain but the transactions
that make way for those of its own chain with the same hashes. -/
theorem follows_history (ws : List StoreWrite) :
    ∃ m : MemoryStore, (ws.forM asStore.write).run.run empty = (.ok (), m) ∧
      (∀ chainId height kind, m.Follows ws chainId height kind) ∧
      ∀ w, ∃ m' : MemoryStore, (asStore.write w).run.run m = (.ok (), m') ∧
        (∀ b, w = .txs b → b.isComplete = false → ∀ chainId,
          m'.failuresOf chainId = m.failuresOf chainId ∧ ∀ height kind,
            height ∈ m'.heightsIndexed chainId kind ↔ height ∈ m.heightsIndexed chainId kind) ∧
        m'.ChangedBy m w := by
  have wf := wellFormed_empty.replay (ws.map (·.effect))
  have filed := TxsFiled.empty.replay (ws.map (·.effect))
  refine ⟨_, run_effects ws empty, follows_replay ws, fun w => ⟨_, run_effect w _, ?_, ?_⟩⟩
  · rintro b rfl partly chainId
    exact incomplete_apply wf partly chainId
  · exact changedBy_apply wf filed w

/-- What failed first, was resolved then, and has failed again since. -/
def reopened : FailureRecord where
  height := 1
  chainId := "c"
  chainName := "renamed"
  kind := .transactions
  reason := .missingTxs

/-- A batch with one transaction. -/
def batchOf (hash : String) (height : Int) (unprocessable : List String) : TxBatch where
  chainId := "c"
  height
  blockHash := "B"
  time := default
  proposer := ""
  txs := [{ (default : TxRecord) with hash, height, messages := [⟨0, "/m", .raw [], []⟩] }]
  unprocessable

/-- A failure that was resolved and recorded again, and a batch that is not complete. -/
def reopenedHistory : List StoreWrite := [
  .failure { reopened with chainName := "c", reason := .blockQuery },
  .txs (batchOf "A" 1 []),
  .failure reopened,
  .txs (batchOf "A" 1 ["X"])]

theorem follows_history_reopened :
    ∃ m : MemoryStore, (reopenedHistory.forM asStore.write).run.run empty = (.ok (), m) ∧
      m.failuresAt "c" 1 .transactions = [⟨reopened, 2, false⟩] ∧
      m.failuresAt "c" 1 .blockEvents = [] ∧
      1 ∈ m.heightsIndexed "c" .transactions ∧
      ∃ m' : MemoryStore, (asStore.write (.txs (batchOf "B" 2 []))).run.run m = (.ok (), m') ∧
        m'.failuresAt "c" 1 .transactions = [⟨reopened, 2, false⟩] ∧
        m'.heightsWithMessage "c" "/m" 1 1 = m.heightsWithMessage "c" "/m" 1 1 := by
  obtain ⟨m, ran, follows, writes⟩ := follows_history reopenedHistory
  have failed : m.failuresAt "c" 1 .transactions = [⟨reopened, 2, false⟩] :=
    (follows "c" 1 .transactions).failed (reopenedHistory.take 2) reopened
      [.txs (batchOf "A" 1 ["X"])] rfl (by decide) (by decide)
  refine ⟨m, ran, failed, ?_, ?_, ?_⟩
  · exact (follows "c" 1 .blockEvents).calm (by decide)
  · rw [(follows "c" 1 .transactions).indexed]
    exact ⟨.txs (batchOf "A" 1 []), by simp [reopenedHistory], by decide⟩
  · obtain ⟨m', ran', -, changed⟩ := writes (.txs (batchOf "B" 2 []))
    have other : ("c", 1) ≠ (StoreWrite.txs (batchOf "B" 2 [])).place := by decide
    refine ⟨m', ran', ((changed.elsewhere "c" 1 other).failures _).trans failed, ?_⟩
    refine changed.sameList "c" "/m" 1 1 fun height above below moves => ?_
    -- The only transaction is of the other height, and its hash is new.
    obtain ⟨tx, ⟨_, ⟨⟩, -, only⟩, moved⟩ := moves
    obtain rfl := List.mem_singleton.mp only
    rcases moved with here | ⟨old, found, -⟩
    · have here : (2 : Int) = height := here
      omega
    · obtain ⟨-, rfl⟩ := Prod.mk.inj (ran.symm.trans (run_effects reopenedHistory empty))
      cases found

/-! ## What else a write can change -/

/-- Failures of one kind of a height, one after another. -/
theorem failuresAt_replicate (r : FailureRecord) {n : Nat} (some : 0 < n) :
    ∃ m : MemoryStore, ((List.replicate n (.failure r)).forM asStore.write).run.run empty =
        (.ok (), m) ∧
      m.failuresAt r.chainId r.height r.kind = [⟨r, .ofNat n, false⟩] := by
  have fails : (StoreWrite.failure r).Fails r.chainId r.height r.kind := ⟨r, rfl, rfl, rfl, rfl⟩
  obtain ⟨before, rfl⟩ := Nat.exists_eq_add_of_lt some
  rw [Nat.zero_add]
  refine ⟨_, run_effects _ empty, ?_⟩
  rw [(follows_replay _ r.chainId r.height r.kind).failed (List.replicate before (.failure r)) r []
    List.replicate_succ' fails (by simp), List.countP_replicate, if_pos (by simpa using fails)]
  rfl

/-- Two heights of a chain can have a transaction of one hash, and then the later batch takes
it from the other height; and after 2 ^ 32 failures the count of attempts starts anew. -/
theorem hashes_are_shared_and_attempts_wrap :
    (∃ m m' : MemoryStore,
      (asStore.write (.txs (batchOf "A" 1 []))).run.run empty = (.ok (), m) ∧
      (asStore.write (.txs (batchOf "A" 2 []))).run.run m = (.ok (), m') ∧
      m.heightsWithMessage "c" "/m" 1 1 = [1] ∧ m'.heightsWithMessage "c" "/m" 1 1 = []) ∧
    ∃ m : MemoryStore,
      ((List.replicate UInt32.size (.failure reopened)).forM asStore.write).run.run empty =
        (.ok (), m) ∧
      m.failuresAt "c" 1 .transactions = [⟨reopened, 0, false⟩] := by
  refine ⟨⟨_, _, rfl, rfl, by decide +kernel, by decide +kernel⟩, ?_⟩
  exact failuresAt_replicate reopened (by decide)

end MemoryStore

end ChainIndex
