/-
What a complete batch holds. The transactions of a batch from which nothing was
left out are, in order, those that the source names: all of the block's where they
come from the block's bytes, and what the node's search lists where they come from
a search. Nothing compares a search answer with the block. A complete batch holds
all transactions of its block if and only if its source lists them all, so a search
that finds too little leaves a height indexed that is not.
-/
import ChainIndex.Proofs.TxSplit

namespace ChainIndex

/-- The source lists every transaction of the block. The bytes of the block do. -/
def TxSource.ListsAll (block : Block) : TxSource → Prop
  | .search answer => ∀ bytes ∈ block.txs, ∃ r ∈ answer.results, Text.upper r.hash = txHash bytes
  | .blockBytes _ => True

namespace Processor

variable {p : Processor} {block : Block} {source : TxSource}

/-- Every transaction of a batch has a hash that the source names. -/
theorem txBatch_hash {tx : TxRecord} (h : tx ∈ (p.txBatch block source).txs) :
    tx.hash ∈ identifiers block source := by
  by_cases even : source.Even
  · rw [txBatch_txs even] at h
    obtain ⟨listed, mem, stored⟩ := List.mem_filterMap.mp h
    rw [stored?_hash listed tx stored, ← TxSource.name_transactions even]
    exact List.mem_map_of_mem mem
  · rw [txBatch, accept?_decodeAll_of_uneven even] at h
    cases h

/-- The transactions of a complete batch are those that its source names. -/
theorem complete_txBatch_hashes (whole : (p.txBatch block source).isComplete = true) :
    (p.txBatch block source).txs.map (·.hash) = identifiers block source := by
  have none_left : (p.txBatch block source).unprocessable = [] := List.isEmpty_iff.mp whole
  by_cases even : source.Even
  · rw [txBatch_unprocessable even, List.map_eq_nil_iff] at none_left
    rw [txBatch_txs even, map_key_filterMap stored?_hash none_left,
      TxSource.name_transactions even]
  · rw [txBatch, accept?_decodeAll_of_uneven even] at none_left
    cases none_left

/-- **A complete batch holds its whole block exactly when its source lists it.** Of a
fetched height whose batch of transactions is complete, every transaction of the
block is in the batch under its hash if and only if the source lists all of them. -/
theorem complete_batch_holds_block_iff {d : FetchedBlock} {batch : TxBatch}
    (fetched : d.txs = .got source) (built : .transactions batch ∈ (p.outcome d).requests)
    (whole : batch.isComplete = true) :
    (∀ bytes ∈ d.block.txs, ∃ tx ∈ batch.txs, tx.hash = txHash bytes) ↔
      source.ListsAll d.block := by
  have same : batch = p.txBatch d.block source := by
    unfold outcome txOutcome at built
    rw [fetched] at built
    rcases List.mem_append.mp built with built | built
    · cases List.mem_singleton.mp built
      rfl
    · unfold eventOutcome at built
      split at built
      · split at built
        · cases List.mem_singleton.mp built
        · exact absurd built List.not_mem_nil
      · exact absurd built List.not_mem_nil
  subst same
  have hashes := complete_txBatch_hashes whole
  have held (bytes : Bytes) : (∃ tx ∈ (p.txBatch d.block source).txs, tx.hash = txHash bytes) ↔
      txHash bytes ∈ identifiers d.block source := by
    rw [← hashes, List.mem_map]
  simp only [held]
  cases source with
  | search answer => simp only [identifiers, List.mem_map, TxSource.ListsAll]
  | blockBytes results =>
    exact ⟨fun _ => trivial, fun _ bytes h => List.mem_map_of_mem h⟩

/-- A block with one transaction. -/
def smallBlock : Block := ⟨1, "", ⟨0, 0⟩, "", [[0x0a, 0x02, 0x0a, 0x00]]⟩

/-- How the transaction ran. -/
def smallResults : BlockResults := { BlockResults.empty with txResults := [.empty] }

theorem complete_batch_holds_smallBlock :
    let p := (Setting.plain (.fixed ⟨1, 1, false⟩ (fun _ => .ok smallBlock)
      (fun _ => .ok smallResults) fun _ => .ok .empty)).processor (.plain 1)
    (p.txBatch smallBlock (.blockBytes smallResults)).isComplete = true ∧
      ∀ bytes ∈ smallBlock.txs, ∃ tx ∈ (p.txBatch smallBlock (.blockBytes smallResults)).txs,
        tx.hash = txHash bytes := by
  intro p
  have whole : (p.txBatch smallBlock (.blockBytes smallResults)).isComplete = true := by
    decide +kernel
  exact ⟨whole, (complete_batch_holds_block_iff
    (d := ⟨smallBlock, .notAsked, .got (.blockBytes smallResults)⟩) rfl List.mem_cons_self
      whole).mpr trivial⟩

end Processor

namespace Setting

/-- A node whose search does not find the transaction of its block. -/
def forgetfulNode : Node Unit :=
  .fixed ⟨1, 1, false⟩ (fun _ => .ok Processor.smallBlock) (fun _ => .ok Processor.smallResults)
    fun _ => .ok .empty

/-- The configuration with the search. -/
def searching : Config :=
  { Config.plain 1 with indexer := { (Config.plain 1).indexer with skipTxSearch := false } }

/-- A complete batch need not hold the transactions of its block: a search that
finds none of them gives a batch that is complete and empty. -/
theorem complete_batch_can_miss_txs :
    ¬ ∀ (p : Setting Unit) (c : Config) (height : Int) (block : Block) (source : TxSource),
      p.Blocks height (.ok block) → p.Serves c height source →
      ((p.processor c).txBatch block source).isComplete = true →
      ∀ bytes ∈ block.txs, ∃ tx ∈ ((p.processor c).txBatch block source).txs,
        tx.hash = txHash bytes := by
  intro claim
  have found : ((((plain forgetfulNode).pipeline searching).fetcher.search? 1).run.run
      ⟨(), .empty, []⟩).1.map (·.map fun answer => (answer.txs.length, answer.results.length)) =
        some (some (0, 0)) := by decide +kernel
  obtain ⟨_, ran, listed⟩ := Option.map_eq_some_iff.mp found
  obtain ⟨⟨txs, results, total⟩, rfl, sizes⟩ := Option.map_eq_some_iff.mp listed
  obtain rfl : txs = [] := List.eq_nil_of_length_eq_zero (congrArg Prod.fst sizes)
  obtain rfl : results = [] := List.eq_nil_of_length_eq_zero (congrArg Prod.snd sizes)
  have served : (plain forgetfulNode).Serves searching 1 (.search ⟨[], [], total⟩) :=
    .search (Unending.leaves_of_run (always_search 1) ran)
  obtain ⟨tx, held, -⟩ := claim (plain forgetfulNode) searching 1 Processor.smallBlock
    (.search ⟨[], [], total⟩) ⟨(), rfl⟩ served rfl _ List.mem_cons_self
  exact absurd held List.not_mem_nil

end Setting

end ChainIndex
