/-
How the transactions of a height fall into two parts. Those that can be decoded and whose
messages are handled are stored, and the others are named, each part in the order of the
source. No transaction is in neither part or in both: put together again by place, the
hashes of the one and the names of the other are the names of all. The names are made apart
from the decoding and are found again by place, so what is shown here is that the places
agree. The store is told once that transactions were left out, if any were.
-/
import ChainIndex.Proofs.FailureJournal

namespace ChainIndex

/-! ## Two parts of a list -/

section

variable {α β γ : Type}

/-- Two lists put together: a place that is marked takes the next of the first one, and any
other place the next of the second one. -/
def merge : List Bool → List α → List α → List α
  | true :: marks, x :: xs, ys => x :: merge marks xs ys
  | false :: marks, xs, y :: ys => y :: merge marks xs ys
  | _, _, _ => []

variable {keep? : α → Option β} {key : β → γ} {name : α → γ}

/-- What is kept and what is not, under the names of what they were made of, make up the
whole. -/
theorem merge_parts (same : ∀ x y, keep? x = some y → key y = name x) (xs : List α) :
    merge (xs.map fun x => (keep? x).isSome) ((xs.filterMap keep?).map key)
      ((xs.filter fun x => (keep? x).isNone).map name) = xs.map name := by
  induction xs with
  | nil => rfl
  | cons x xs ih =>
    rw [List.map_cons, List.map_cons]
    cases kept : keep? x with
    | none =>
      rw [List.filterMap_cons_none kept, List.filter_cons_of_pos (by simp [kept]), List.map_cons,
        Option.isSome_none, merge, ih]
    | some y =>
      rw [List.filterMap_cons_some kept, List.filter_cons_of_neg (by simp [kept]), List.map_cons,
        Option.isSome_some, merge, ih, same x y kept]

theorem length_parts (xs : List α) :
    (xs.filterMap keep?).length + (xs.filter fun x => (keep? x).isNone).length = xs.length := by
  rw [List.length_filterMap_eq_countP, ← List.countP_eq_length_filter,
    List.length_eq_countP_add_countP fun x => (keep? x).isSome]
  exact congrArg _ (List.countP_congr fun x _ => by simp)

/-- If nothing is left out, the names are those of what is kept. -/
theorem map_key_filterMap (same : ∀ x y, keep? x = some y → key y = name x) {xs : List α}
    (whole : (xs.filter fun x => (keep? x).isNone) = []) :
    (xs.filterMap keep?).map key = xs.map name := by
  rw [List.map_filterMap, ← List.filterMap_eq_map]
  refine List.filterMap_congr fun x listed => ?_
  obtain ⟨y, kept⟩ : ∃ y, keep? x = some y := Option.ne_none_iff_exists'.mp fun dropped =>
    List.filter_eq_nil_iff.mp whole x listed (by rw [dropped]; rfl)
  rw [kept, Option.map_some, same x y kept]
  rfl

/-- What is kept does not depend on numbers. -/
theorem filterMap_numbered (xs : List α) :
    (xs.map keep?).zipIdx.filterMap (·.1) = xs.filterMap keep? := by
  calc (xs.map keep?).zipIdx.filterMap (·.1)
      = ((xs.map keep?).zipIdx.map Prod.fst).filterMap id := by rw [List.filterMap_map]; rfl
    _ = xs.filterMap keep? := by rw [List.zipIdx_map_fst, List.filterMap_map]; rfl

/-- Names that are found by number are the names of what was numbered. -/
theorem names_numbered {xs : List α} {find : Nat → γ}
    (finds : ∀ x i, xs[i]? = some x → find i = name x) :
    ((xs.map keep?).zipIdx.filter (·.1.isNone)).map (fun o => find o.2) =
      (xs.filter fun x => (keep? x).isNone).map name := by
  calc ((xs.map keep?).zipIdx.filter (·.1.isNone)).map (fun o => find o.2)
      = (xs.zipIdx.filter fun o => (keep? o.1).isNone).map fun o => find o.2 := by
        rw [List.zipIdx_map, List.filter_map, List.map_map]
        rfl
    _ = (xs.zipIdx.filter fun o => (keep? o.1).isNone).map fun o => name o.1 :=
        List.map_congr_left fun o listed =>
          finds o.1 o.2 (List.mem_zipIdx_iff_getElem?.mp (List.mem_filter.mp listed).1)
    _ = ((xs.zipIdx.map Prod.fst).filter fun x => (keep? x).isNone).map name := by
        rw [List.filter_map, List.map_map]
        rfl
    _ = (xs.filter fun x => (keep? x).isNone).map name := by rw [List.zipIdx_map_fst]

end

/-! ## The transactions of a source -/

/-- A transaction of a source: its bytes with the result of running it, if there is one, or
what a search found of it. -/
inductive SourceTx where
  | raw (bytes : Bytes) (result? : Option TxResult)
  | found (tx : SearchTx) (result : SearchResult)

/-- The hash of the transaction in capitals. -/
def SourceTx.name : SourceTx → String
  | raw bytes _ => txHash bytes
  | found _ result => Text.upper result.hash

namespace TxSource

/-- The transactions of a source, each with the result at its place. -/
def transactions (block : Block) : TxSource → List SourceTx
  | search answer => (answer.txs.zip answer.results).map fun x => .found x.1 x.2
  | blockBytes results => block.txs.zipIdx.map fun x => .raw x.1 results.txResults[x.2]?

/-- How many transactions a source has. -/
def size (block : Block) : TxSource → Nat
  | search answer => answer.txs.length
  | blockBytes _ => block.txs.length

/-- A search has as many results as transactions. -/
def Even : TxSource → Prop
  | search answer => answer.txs.length = answer.results.length
  | blockBytes _ => True

variable {block : Block} {source : TxSource}

theorem length_transactions (even : source.Even) :
    (source.transactions block).length = source.size block := by
  cases source with
  | search answer => rw [transactions, List.length_map, List.length_zip, ← even, Nat.min_self, size]
  | blockBytes results => rw [transactions, List.length_map, List.length_zipIdx, size]

theorem name_transactions (even : source.Even) :
    (source.transactions block).map SourceTx.name = Processor.identifiers block source := by
  cases source with
  | search answer =>
    have second : (answer.txs.zip answer.results).map (·.2) = answer.results :=
      List.map_snd_zip (Nat.le_of_eq (Eq.symm even))
    rw [transactions, List.map_map, Processor.identifiers, ← second, List.map_map, second]
    rfl
  | blockBytes results =>
    have first : block.txs.zipIdx.map (·.1) = block.txs := List.zipIdx_map_fst 0 block.txs
    rw [transactions, List.map_map, Processor.identifiers, ← first, List.map_map, first]
    rfl

end TxSource

/-! ## Hashes -/

namespace Decoder

variable {d : Decoder} {block : Block} {tx : TxRecord}

theorem normalizeRaw_hash {bs : Bytes} {result : TxResult}
    (h : d.normalizeRaw block bs result = .ok tx) : tx.hash = txHash bs := by
  obtain ⟨decoded, -, h⟩ := bind_eq_ok h
  obtain ⟨addresses, -, h⟩ := bind_eq_ok h
  obtain ⟨messages, -, h⟩ := bind_eq_ok h
  cases h
  rfl

theorem normalizeFound_hash {found : SearchTx} {result : SearchResult}
    (h : d.normalizeFound block found result = .ok tx) : tx.hash = Text.upper result.hash := by
  obtain ⟨auth, -, h⟩ := bind_eq_ok h
  obtain ⟨messages, -, h⟩ := bind_eq_ok h
  cases h
  rfl

end Decoder

namespace Processor

variable {p : Processor} {block : Block} {source : TxSource}

theorem keepMessages_hash (fs : Filters) (tx : TxRecord) : (fs.keepMessages tx).hash = tx.hash := by
  unfold Filters.keepMessages
  dsimp only
  split <;> rfl

theorem handleMessages_hash {raw tx : TxRecord} (h : p.handleMessages raw = .ok tx) :
    tx.hash = raw.hash := by
  obtain ⟨data, -, h⟩ := bind_eq_ok h
  cases h
  exact keepMessages_hash p.filters raw

/-- A transaction as it is decoded, if it can be. Bytes cannot without a result. -/
def decoded? (p : Processor) (block : Block) : SourceTx → Option TxRecord
  | .raw bytes (some result) => (p.decoder.normalizeRaw block bytes result).toOption
  | .raw _ none => none
  | .found tx result => (p.decoder.normalizeFound block tx result).toOption

/-- What is stored of a transaction: something if it is decoded and its messages are handled. -/
def stored? (p : Processor) (block : Block) (tx : SourceTx) : Option TxRecord :=
  (p.decoded? block tx).bind fun raw => (p.handleMessages raw).toOption

theorem decoded?_hash {tx : SourceTx} {raw : TxRecord} (h : p.decoded? block tx = some raw) :
    raw.hash = tx.name := by
  cases tx with
  | raw bytes result? =>
    cases result? with
    | none => cases h
    | some result => exact Decoder.normalizeRaw_hash (toOption_eq_some_iff.mp h)
  | found tx result => exact Decoder.normalizeFound_hash (toOption_eq_some_iff.mp h)

/-- A transaction is stored under its name. -/
theorem stored?_hash (tx : SourceTx) (record : TxRecord) (h : p.stored? block tx = some record) :
    record.hash = tx.name := by
  obtain ⟨raw, decoded, handled⟩ := Option.bind_eq_some_iff.mp h
  exact (handleMessages_hash (toOption_eq_some_iff.mp handled)).trans (decoded?_hash decoded)

/-! ## The batch of a source -/

theorem accept?_eq (decoded : Except DecodeError TxRecord) :
    p.accept? decoded = decoded.toOption.bind fun raw => (p.handleMessages raw).toOption := by
  cases decoded <;> rfl

/-- Each transaction is looked at on its own. -/
theorem accept?_decodeAll (even : source.Even) :
    (p.decodeAll block source).map p.accept? =
      (source.transactions block).map (p.stored? block) := by
  cases source with
  | search answer =>
    have even : answer.txs.length = answer.results.length := even
    rw [decodeAll, Decoder.normalizeSearch, if_neg (not_not_intro even), List.map_map,
      TxSource.transactions, List.map_map]
    exact List.map_congr_left fun x _ => accept?_eq _
  | blockBytes results =>
    rw [decodeAll, Decoder.normalizeBlock, List.map_map, TxSource.transactions, List.map_map]
    refine List.map_congr_left fun ⟨bytes, i⟩ _ => (accept?_eq _).trans ?_
    dsimp only [Function.comp_apply, stored?]
    cases results.txResults[i]? <;> rfl

/-- Without a result for each transaction, nothing of a search is looked at. -/
theorem accept?_decodeAll_of_uneven (uneven : ¬source.Even) :
    (p.decodeAll block source).map p.accept? = [none] := by
  cases source with
  | search answer =>
    have uneven : answer.txs.length ≠ answer.results.length := uneven
    rw [decodeAll, Decoder.normalizeSearch, if_pos uneven]
    rfl
  | blockBytes results => exact absurd trivial uneven

theorem txBatch_txs (even : source.Even) :
    (p.txBatch block source).txs = (source.transactions block).filterMap (p.stored? block) := by
  rw [txBatch, accept?_decodeAll even]
  exact filterMap_numbered _

/-- The others are named after what they were made of. -/
theorem txBatch_unprocessable (even : source.Even) :
    (p.txBatch block source).unprocessable =
      ((source.transactions block).filter fun tx => (p.stored? block tx).isNone).map
        SourceTx.name := by
  have found (tx : SourceTx) (i : Nat) (here : (source.transactions block)[i]? = some tx) :
      identifier block (identifiers block source) i = tx.name := by
    rw [identifier, ← TxSource.name_transactions even, List.getElem?_map, here]
    rfl
  rw [txBatch, accept?_decodeAll even]
  exact names_numbered found

/-- A batch splits the transactions of a source. -/
structure Splits (p : Processor) (block : Block) (source : TxSource) (batch : TxBatch) : Prop where
  /-- What is stored of those of which something is, in order. -/
  txs : batch.txs = (source.transactions block).filterMap (p.stored? block)
  /-- The names of the others, in order. -/
  unprocessable : batch.unprocessable =
    ((source.transactions block).filter fun tx => (p.stored? block tx).isNone).map SourceTx.name
  lengths : batch.txs.length + batch.unprocessable.length = source.size block
  /-- Both parts make up the hashes of the source; those of bytes are the hashes of all
  transactions of the block. -/
  merged : merge ((source.transactions block).map fun tx => (p.stored? block tx).isSome)
    (batch.txs.map (·.hash)) batch.unprocessable = identifiers block source

theorem splits_txBatch (p : Processor) (block : Block) (even : source.Even) :
    p.Splits block source (p.txBatch block source) where
  txs := txBatch_txs even
  unprocessable := txBatch_unprocessable even
  lengths := by
    rw [txBatch_txs even, txBatch_unprocessable even, List.length_map, length_parts,
      TxSource.length_transactions even]
  merged := by
    rw [txBatch_txs even, txBatch_unprocessable even, merge_parts stored?_hash,
      TxSource.name_transactions even]

/-! ## What is noted of a height -/

/-- What is noted if transactions were left out of a batch. -/
def leftOut (p : Processor) (block : Block) (batch : TxBatch) : List FailureRecord :=
  if batch.unprocessable = [] then []
  else [p.config.failure block.height .transactions .unprocessableTx]

theorem records_txOutcome (p : Processor) (block : Block) (source : TxSource) :
    (p.txOutcome block (.got source)).records p.config block.height =
      p.leftOut block (p.txBatch block source) := by
  have complete_iff : (p.txBatch block source).isComplete = true ↔
      (p.txBatch block source).unprocessable = [] := List.isEmpty_iff
  rw [txOutcome, Outcome.records, leftOut]
  dsimp only
  by_cases whole : (p.txBatch block source).unprocessable = []
  · rw [if_pos whole, if_pos (complete_iff.mpr whole), List.map_nil]
  · rw [if_neg whole, if_neg (mt complete_iff.mp whole), List.map_singleton]

/-- **Processing transactions loses and duplicates none.** Whatever becomes of the events of a
height and whatever the store does, one batch of transactions comes out. It splits those of
the source, and the store is told of a failure of the transactions exactly once if the batch
names some that were left out, and not at all if it names none. -/
theorem process_splits_transactions {σ : Type} (p : Processor) (block : Block) (even : source.Even)
    (results : Fetched BlockResults) (store : IndexStore σ) (s : σ) (told : List FailureRecord) :
    ∃ batch requests s' others,
      (p.process store.journaled ⟨block, results, .got source⟩).run (s, told) =
        (.transactions batch :: requests, s', told ++ (p.leftOut block batch ++ others)) ∧
      p.Splits block source batch ∧ (∀ r ∈ requests, ∃ b, r = .blockEvents b) ∧
      ∀ record ∈ others, record.kind = .blockEvents := by
  obtain ⟨s', ran⟩ := p.run_process_journaled store ⟨block, results, .got source⟩ s told
  obtain ⟨requests, records⟩ := p.eventOutcome_kinds block results p.config block.height
  rw [records_txOutcome] at ran
  exact ⟨p.txBatch block source, _, s', _, ran, p.splits_txBatch block even, requests, records⟩

/-- A block with two transactions, of which only the first one has a result. -/
def halfRun : Block := ⟨1, "", ⟨0, 0⟩, "", [[0x0a, 0x02, 0x0a, 0x00], [0x0b]]⟩

theorem process_splits_halfRun :
    let p := (Setting.plain (.fixed ⟨1, 1, false⟩ (fun _ => .ok halfRun)
      (fun _ => .ok .empty) fun _ => .ok .empty)).processor (.plain 1)
    let source : TxSource := .blockBytes { BlockResults.empty with txResults := [.empty] }
    source.Even ∧ ∃ batch requests s' others,
      (p.process MemoryStore.asStore.journaled ⟨halfRun, .notAsked, .got source⟩).run (.empty, []) =
        (.transactions batch :: requests, s',
          (Config.plain 1).failure 1 .transactions .unprocessableTx :: others) ∧
      batch.txs.map (·.hash) = [txHash [0x0a, 0x02, 0x0a, 0x00]] ∧
      batch.unprocessable = [txHash [0x0b]] ∧ ∀ record ∈ others, record.kind = .blockEvents := by
  intro p source
  have even : source.Even := trivial
  obtain ⟨batch, requests, s', others, ran, splits, -, kinds⟩ :=
    process_splits_transactions p halfRun even .notAsked MemoryStore.asStore .empty []
  have stored : batch.txs.map (·.hash) = [txHash [0x0a, 0x02, 0x0a, 0x00]] := by
    rw [splits.txs]
    decide +kernel
  have left : batch.unprocessable = [txHash [0x0b]] := splits.unprocessable.trans (by decide +kernel)
  rw [leftOut, left, if_neg (List.cons_ne_nil _ _)] at ran
  exact ⟨even, batch, requests, s', others, ran, stored, left, kinds⟩

end Processor

end ChainIndex
