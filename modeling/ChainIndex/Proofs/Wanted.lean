/-
What is asked for, kind by kind. A kind of a height is lacking if it is configured,
not indexed yet (or to be indexed again) and not pushed before; the request for a
height that following the tip gives asks for what is lacking and nothing else. Of
the failed heights, those that are not behind the end are asked for again, each
once and for its configured failed kinds. Both depend on the contents of the memory
alone, and what a run does to requested kinds does not change what is lacking.
-/
import ChainIndex.Enqueue.Strategy
import ChainIndex.Proofs.WellFormed
import Mathlib.Data.List.Pairwise
import Mathlib.Data.List.TakeWhile

namespace ChainIndex

namespace Request

theorem eq_of_asks {r r' : Request} (height : r.height = r'.height)
    (asks : ∀ kind, r.asks kind = r'.asks kind) : r = r' := by
  cases r
  cases r'
  cases height
  cases asks .blockEvents
  cases asks .transactions
  rfl

theorem isEmpty_eq_false_iff (r : Request) : r.isEmpty = false ↔ ∃ kind, r.asks kind = true := by
  constructor
  · intro some
    cases events : r.blockEvents with
    | true => exact ⟨.blockEvents, events⟩
    | false =>
      refine ⟨.transactions, ?_⟩
      have txs : r.transactions = true := by simpa [isEmpty, events] using some
      exact txs
  · rintro ⟨kind, asks⟩
    cases kind <;> simp_all [isEmpty, Request.asks]

theorem asks_without (r other : Request) (kind : DataKind) :
    (r.without other).asks kind = (r.asks kind && !other.asks kind) := by
  cases kind <;> rfl

end Request

namespace IndexerConfig

/-- Whether a kind is indexed at all. -/
def indexes (c : IndexerConfig) : DataKind → Bool
  | .blockEvents => c.indexBlockEvents
  | .transactions => c.indexTransactions

theorem asks_fullRequest (c : IndexerConfig) (height : Int) (kind : DataKind) :
    (c.fullRequest height).asks kind = c.indexes kind := by
  cases kind <;> rfl

end IndexerConfig

/-! ## What is missing -/

/-- The last request for a height asks for a kind. -/
def isPending (inFlight : List Request) (height : Int) (kind : DataKind) : Bool :=
  (inFlight.reverse.find? (·.height == height)).any (·.asks kind)

theorem exists_of_isPending {inFlight : List Request} {height : Int} {kind : DataKind}
    (h : isPending inFlight height kind = true) :
    ∃ r ∈ inFlight, r.height = height ∧ r.asks kind = true := by
  unfold isPending at h
  cases found : inFlight.reverse.find? (·.height == height) with
  | none =>
    rw [found] at h
    cases h
  | some r =>
    rw [found] at h
    refine ⟨r, List.mem_reverse.mp (List.mem_of_find?_eq_some found), ?_, h⟩
    simpa using List.find?_some found

/-- Where no height stands twice, every request counts. -/
theorem isPending_of_mem {inFlight : List Request}
    (once : inFlight.Pairwise fun r r' => r.height < r'.height) {r : Request} (hr : r ∈ inFlight)
    {kind : DataKind} (asks : r.asks kind = true) : isPending inFlight r.height kind = true := by
  have unique : ∀ r' ∈ inFlight.reverse, (r'.height == r.height) = true → r' = r := by
    intro r' hr' same
    have same : r'.height = r.height := by simpa using same
    by_contra other
    have apart : inFlight.Pairwise fun r r' => r.height ≠ r'.height := once.imp fun h => by omega
    have symm : Std.Symm fun r r' : Request => r.height ≠ r'.height := ⟨fun _ _ h => h.symm⟩
    exact apart.forall (List.mem_reverse.mp hr') hr other same
  rw [isPending, find?_of_unique (List.mem_reverse.mpr hr) (by simp) unique]
  exact asks

theorem height_missingRequest (c : IndexerConfig) (inFlight : List Request)
    (statuses : List BlockStatus) (height : Int) :
    (missingRequest c inFlight statuses height).height = height := by
  unfold missingRequest
  dsimp only
  split <;> split <;> first | rfl | split <;> rfl

/-- A request is missing the configured kinds that are neither indexed nor pending. -/
theorem asks_missingRequest (c : IndexerConfig) (inFlight : List Request)
    (statuses : List BlockStatus) (height : Int) (kind : DataKind) :
    (missingRequest c inFlight statuses height).asks kind =
      (c.indexes kind &&
        (c.reindex || !(statuses.reverse.find? (·.height == height)).any (·.has kind)) &&
        !isPending inFlight height kind) := by
  have status (s : BlockStatus) :
      Request.asks ⟨height, s.blockEvents, s.transactions⟩ kind = s.has kind := by
    cases kind <;> rfl
  unfold missingRequest isPending
  cases inFlight.reverse.find? (·.height == height) <;>
    cases statuses.reverse.find? (·.height == height) <;> cases c.reindex <;>
    simp [Request.asks_without, c.asks_fullRequest, status]

/-- A kind of a height is lacking. -/
def Contents.lacks (m : Contents) (c : Config) (inFlight : List Request) (height : Int)
    (kind : DataKind) : Bool :=
  c.indexer.indexes kind &&
    (c.indexer.reindex || !m.isIndexed c.chain.chainId height kind) &&
    !isPending inFlight height kind

/-- The requests for what is missing from one height to another. -/
def missingRequests (c : Config) (m : MemoryStore) (inFlight : List Request) (low high : Int) :
    List Request :=
  ((heightRange low high).map
    (missingRequest c.indexer inFlight (m.statuses c.chain.chainId))).filter (!·.isEmpty)

variable {c : Config} {m : MemoryStore} {inFlight : List Request} {low high height : Int}
  {kind : DataKind}

theorem asks_missingRequest_statuses (h : m.WellFormed) (height : Int) (kind : DataKind) :
    (missingRequest c.indexer inFlight (m.statuses c.chain.chainId) height).asks kind =
      m.contents.lacks c inFlight height kind := by
  rw [asks_missingRequest, MemoryStore.find?_statuses h]
  rfl

/-- A window of statuses is as good as all of them for a height in it. -/
theorem missingRequest_status (c : IndexerConfig) (chainId : String) (above : low ≤ height)
    (below : height ≤ high) :
    missingRequest c inFlight (m.status chainId low high) height =
      missingRequest c inFlight (m.statuses chainId) height := by
  have same : (m.status chainId low high).reverse.find? (·.height == height) =
      (m.statuses chainId).reverse.find? (·.height == height) := by
    unfold MemoryStore.status
    rw [← List.filter_reverse, List.find?_filter]
    refine congrArg (List.find? · _) (funext fun s => ?_)
    by_cases here : s.height = height
    · simp [here, above, below]
    · simp [here]
  unfold missingRequest
  rw [same]

/-! ## Ranges of heights -/

theorem mem_heightRange : height ∈ heightRange low high ↔ low ≤ height ∧ height ≤ high := by
  unfold heightRange
  rw [List.mem_map]
  constructor
  · rintro ⟨i, hi, rfl⟩
    have := List.mem_range.mp hi
    omega
  · rintro ⟨above, below⟩
    exact ⟨(height - low).toNat, List.mem_range.mpr (by omega), by omega⟩

theorem heightRange_of_lt (h : high < low) : heightRange low high = [] := by
  unfold heightRange
  rw [show (high + 1 - low).toNat = 0 by omega]
  rfl

/-- A range in two parts. -/
theorem heightRange_append {mid : Int} (above : low ≤ mid + 1) (below : mid ≤ high) :
    heightRange low mid ++ heightRange (mid + 1) high = heightRange low high := by
  unfold heightRange
  rw [show (high + 1 - low).toNat = (mid + 1 - low).toNat + (high + 1 - (mid + 1)).toNat by omega,
    List.range_add, List.map_append, List.map_map]
  refine congrArg (_ ++ ·) (List.map_congr_left fun i _ => ?_)
  rw [Function.comp_apply]
  omega

theorem pairwise_heightRange (low high : Int) : (heightRange low high).Pairwise (· < ·) := by
  refine List.pairwise_map.mpr (List.pairwise_lt_range.imp fun below => ?_)
  omega

/-! ## Windows -/

/-- The last of some statuses of a height marks a kind as indexed. -/
def marks (statuses : List BlockStatus) (height : Int) (kind : DataKind) : Bool :=
  (statuses.reverse.find? (·.height == height)).any (·.has kind)

/-- What is asked for of a window. -/
def windowed (c : IndexerConfig) (inFlight : List Request) (low high : Int)
    (statuses : List BlockStatus) : List Request :=
  ((heightRange low high).map (missingRequest c inFlight statuses)).filter (!·.isEmpty)

section

variable {c : IndexerConfig} {statuses : List BlockStatus} {r : Request}

theorem pairwise_windowed (c : IndexerConfig) (inFlight : List Request) (low high : Int)
    (statuses : List BlockStatus) :
    (windowed c inFlight low high statuses).Pairwise fun r r' => r.height < r'.height := by
  refine List.Pairwise.filter _ (List.pairwise_map.mpr ?_)
  refine (pairwise_heightRange low high).imp fun below => ?_
  rwa [height_missingRequest, height_missingRequest]

theorem height_of_mem_windowed (hr : r ∈ windowed c inFlight low high statuses) :
    low ≤ r.height ∧ r.height ≤ high := by
  obtain ⟨height, hheight, rfl⟩ := List.mem_map.mp (List.mem_filter.mp hr).1
  rw [height_missingRequest]
  exact mem_heightRange.mp hheight

/-- A request asks for what is configured, not marked, and not asked for before. -/
theorem asks_of_mem_windowed (hr : r ∈ windowed c inFlight low high statuses)
    (asks : r.asks kind = true) :
    c.indexes kind = true ∧ (c.reindex = true ∨ marks statuses r.height kind = false) ∧
      isPending inFlight r.height kind = false := by
  obtain ⟨height, -, rfl⟩ := List.mem_map.mp (List.mem_filter.mp hr).1
  rw [asks_missingRequest] at asks
  rw [height_missingRequest]
  simpa [marks, and_assoc] using asks

theorem some_of_mem_windowed (hr : r ∈ windowed c inFlight low high statuses) :
    ∃ kind, r.asks kind = true := by
  have some : r.isEmpty = false := by simpa using (List.mem_filter.mp hr).2
  exact (Request.isEmpty_eq_false_iff r).mp some

end

/-! ## Windows of a memory -/

theorem missingRequests_append {mid : Int} (above : low ≤ mid + 1) (below : mid ≤ high) :
    missingRequests c m inFlight low mid ++ missingRequests c m inFlight (mid + 1) high =
      missingRequests c m inFlight low high := by
  unfold missingRequests
  rw [← List.filter_append, ← List.map_append, heightRange_append above below]

theorem missingRequests_of_lt (h : high < low) : missingRequests c m inFlight low high = [] := by
  rw [missingRequests, heightRange_of_lt h]
  rfl

theorem height_of_mem_missingRequests {r : Request} (hr : r ∈ missingRequests c m inFlight low high) :
    low ≤ r.height ∧ r.height ≤ high :=
  height_of_mem_windowed hr

/-- What is lacking is requested. -/
theorem exists_missingRequest (wf : m.WellFormed) (above : low ≤ height) (below : height ≤ high)
    (lacks : m.contents.lacks c inFlight height kind = true) :
    ∃ r ∈ missingRequests c m inFlight low high, r.height = height ∧ r.asks kind = true := by
  have asks := (asks_missingRequest_statuses wf height kind).trans lacks
  refine ⟨_, List.mem_filter.mpr ⟨List.mem_map_of_mem (mem_heightRange.mpr ⟨above, below⟩), ?_⟩,
    height_missingRequest _ _ _ _, asks⟩
  rw [(Request.isEmpty_eq_false_iff _).mpr ⟨kind, asks⟩]
  rfl

/-- Where nothing is lacking, nothing is requested. -/
theorem missingRequests_eq_nil (wf : m.WellFormed) (whole : ∀ height kind, low ≤ height →
    height ≤ high → m.contents.lacks c inFlight height kind = false) :
    missingRequests c m inFlight low high = [] := by
  refine List.filter_eq_nil_iff.mpr fun r hr some => ?_
  obtain ⟨height, hheight, rfl⟩ := List.mem_map.mp hr
  obtain ⟨above, below⟩ := mem_heightRange.mp hheight
  obtain ⟨kind, asks⟩ := (Request.isEmpty_eq_false_iff _).mp (by simpa using some)
  rw [asks_missingRequest_statuses wf, whole height kind above below] at asks
  cases asks

/-- What a run does to pending kinds does not change what is lacking. -/
theorem lacks_replay {contents : Contents} {es : List StoreEffect}
    (pending : ∀ e ∈ es, e.indexes? = some (c.chain.chainId, height, kind) →
      isPending inFlight height kind = true) :
    (contents.replay es).lacks c inFlight height kind = contents.lacks c inFlight height kind := by
  unfold Contents.lacks
  cases waits : isPending inFlight height kind with
  | true => simp
  | false =>
    have untouched : ∀ e ∈ es, e.indexes? ≠ some (c.chain.chainId, height, kind) := by
      intro e he indexes
      rw [pending e he indexes] at waits
      cases waits
    have same : (contents.replay es).isIndexed c.chain.chainId height kind =
        contents.isIndexed c.chain.chainId height kind := by
      rw [Bool.eq_iff_iff, isIndexed_replay]
      exact ⟨fun h => h.elim id fun ⟨e, he, indexes⟩ => absurd indexes (untouched e he), .inl⟩
    rw [same]

theorem missingRequests_replay (wf : m.WellFormed) {es : List StoreEffect}
    (pending : ∀ e ∈ es, ∀ height kind, low ≤ height →
      e.indexes? = some (c.chain.chainId, height, kind) → isPending inFlight height kind = true) :
    missingRequests c (replay es m) inFlight low high = missingRequests c m inFlight low high := by
  unfold missingRequests
  refine congrArg (List.filter _) (List.map_congr_left fun height hheight => ?_)
  refine Request.eq_of_asks ?_ fun kind => ?_
  · rw [height_missingRequest, height_missingRequest]
  · rw [asks_missingRequest_statuses (wf.replay es), asks_missingRequest_statuses wf,
      contents_replay, lacks_replay]
    exact fun e he => pending e he height kind (mem_heightRange.mp hheight).1

/-! ## What is attempted again -/

/-- The requests for the failed heights that are not behind the end, if these are
attempted again. -/
def retried (c : Config) (m : MemoryStore) : List Request :=
  if c.indexer.reattemptFailedBlocks then
    (retryRequests c.indexer (m.unresolved c.chain.chainId)).takeWhile
      fun r => !c.indexer.pastEnd r.height
  else []

theorem pairwise_retryRequests (c : IndexerConfig) (records : List FailureRecord) :
    (retryRequests c records).Pairwise fun r r' => r.height < r'.height := by
  refine List.Pairwise.filter _ (List.pairwise_map.mpr ?_)
  exact pairwise_ascending _

theorem asks_of_mem_retryRequests {c : IndexerConfig} {records : List FailureRecord} {r : Request}
    (hr : r ∈ retryRequests c records) (kind : DataKind) :
    r.asks kind =
      (c.indexes kind && records.any fun f => f.height == r.height && f.kind == kind) := by
  obtain ⟨height, -, rfl⟩ := List.mem_map.mp (List.mem_filter.mp hr).1
  cases kind <;> rfl

/-- A failed height of a configured kind gets a request for it. -/
theorem exists_retryRequest {c : IndexerConfig} {records : List FailureRecord}
    (configured : c.indexes kind = true)
    (failed : (records.any fun f => f.height == height && f.kind == kind) = true) :
    ∃ r ∈ retryRequests c records, r.height = height ∧ r.asks kind = true := by
  obtain ⟨f, hf, same⟩ := List.any_eq_true.mp failed
  have here : f.height = height := by simp_all
  let r : Request :=
    { height
      blockEvents := c.indexBlockEvents &&
        records.any fun f => f.height == height && f.kind == .blockEvents
      transactions := c.indexTransactions &&
        records.any fun f => f.height == height && f.kind == .transactions }
  have asks : r.asks kind = true := by
    cases kind
    · exact Bool.and_eq_true_iff.mpr ⟨configured, failed⟩
    · exact Bool.and_eq_true_iff.mpr ⟨configured, failed⟩
  refine ⟨r, List.mem_filter.mpr ⟨?_, ?_⟩, rfl, asks⟩
  · exact List.mem_map_of_mem (mem_ascending.mpr (List.mem_map.mpr ⟨f, hf, here⟩))
  · rw [(Request.isEmpty_eq_false_iff r).mpr ⟨kind, asks⟩]
    rfl

theorem pairwise_retried (c : Config) (m : MemoryStore) :
    (retried c m).Pairwise fun r r' => r.height < r'.height := by
  unfold retried
  split
  · exact (pairwise_retryRequests _ _).sublist (List.takeWhile_sublist _)
  · exact .nil

/-- Of requests in ascending order, all that are not behind the end come before the
first one that is. -/
theorem mem_takeWhile_pastEnd {c : IndexerConfig} {rs : List Request}
    (order : rs.Pairwise fun r r' => r.height < r'.height) {r : Request} (hr : r ∈ rs)
    (inside : c.pastEnd r.height = false) : r ∈ rs.takeWhile fun r => !c.pastEnd r.height := by
  induction rs with
  | nil => cases hr
  | cons first rs ih =>
    obtain ⟨least, order⟩ := List.pairwise_cons.mp order
    have before : c.pastEnd first.height = false := by
      rcases List.mem_cons.mp hr with rfl | hr
      · exact inside
      · have := least r hr
        simp only [IndexerConfig.pastEnd, Bool.and_eq_false_iff, bne_eq_false_iff_eq,
          decide_eq_false_iff_not] at inside ⊢
        omega
    rw [List.takeWhile_cons, before]
    rcases List.mem_cons.mp hr with rfl | hr
    · exact List.mem_cons_self
    · exact List.mem_cons_of_mem _ (ih order hr)

/-- Every unresolved failure of a configured kind up to the end is attempted again. -/
theorem exists_retried (wf : m.WellFormed) (again : c.indexer.reattemptFailedBlocks = true)
    (configured : c.indexer.indexes kind = true) (inside : c.indexer.pastEnd height = false)
    (failed : m.contents.isUnresolved c.chain.chainId height kind = true) :
    ∃ r ∈ retried c m, r.height = height ∧ r.asks kind = true := by
  obtain ⟨r, hr, rfl, asks⟩ := exists_retryRequest configured
    ((MemoryStore.any_unresolved wf c.chain.chainId height kind).trans failed)
  unfold retried
  rw [if_pos again]
  exact ⟨r, mem_takeWhile_pastEnd (pairwise_retryRequests _ _) hr inside, rfl, asks⟩

/-- Whatever is attempted again has failed, and is not behind the end. -/
theorem failed_of_mem_retried (wf : m.WellFormed) {r : Request} (hr : r ∈ retried c m) :
    c.indexer.pastEnd r.height = false ∧ ∃ kind, c.indexer.indexes kind = true ∧
      m.contents.isUnresolved c.chain.chainId r.height kind = true := by
  unfold retried at hr
  split at hr
  · have inside : c.indexer.pastEnd r.height = false := by simpa using List.mem_takeWhile_imp hr
    have hr := List.takeWhile_subset _ hr
    have some : r.isEmpty = false := by simpa using (List.mem_filter.mp hr).2
    obtain ⟨kind, asks⟩ := (Request.isEmpty_eq_false_iff r).mp some
    rw [asks_of_mem_retryRequests hr, MemoryStore.any_unresolved wf, Bool.and_eq_true] at asks
    exact ⟨inside, kind, asks⟩
  · cases hr

/-- Without such a failure nothing is attempted again. -/
theorem retried_eq_nil (wf : m.WellFormed) (calm : ∀ height kind, c.indexer.indexes kind = true →
    c.indexer.pastEnd height = false →
    m.contents.isUnresolved c.chain.chainId height kind = false) : retried c m = [] := by
  refine List.eq_nil_iff_forall_not_mem.mpr fun r hr => ?_
  obtain ⟨inside, kind, configured, failed⟩ := failed_of_mem_retried wf hr
  rw [calm r.height kind configured inside] at failed
  cases failed

end ChainIndex
