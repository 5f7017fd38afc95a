/-
Strategies with a list push what is on it. Failed heights, the heights in a file and those
with a type of message are each pushed once, in ascending order and up to the configured
end, though for each list it is something else that puts it in order. What the list has is
what the store holds when it is asked, or what the file says and the node serves; and a
file that says anything but heights is refused before anything is asked or pushed.
-/
import ChainIndex.Proofs.EnqueueLog
import ChainIndex.Proofs.Outcomes
import ChainIndex.Proofs.Site
import ChainIndex.Proofs.Wanted

namespace ChainIndex

/-! ## Files with heights -/

/-- The error is about the file with the heights. -/
def EnqueueError.OfInputFile : EnqueueError → Prop
  | .heightOutOfRange _ | .badHeights | .inputFile _ => True
  | .node _ | .store _ | .closed => False

namespace HeightList

/-- An unsigned number that fits a signed 64-bit integer. -/
def IsHeight (j : Json) : Prop := ∃ n : Nat, n ≤ Text.maxInt64 ∧ j = .number (.integer n)

/-- What a text lists: nothing but heights. -/
def HasItems (content : String) (items : List Json) : Prop :=
  Json.ofText? content = some (.array items) ∧ ∀ j ∈ items, IsHeight j

variable {content : String} {items : List Json} {ns : List Nat} {heights : List Int}

theorem natUpTo_eq_some_iff {high n : Nat} {j : Json} :
    Json.natUpTo high j = some n ↔ n ≤ high ∧ j = .number (.integer n) := by
  unfold Json.natUpTo
  split
  · next k =>
    constructor
    · intro read
      split at read
      · next fits =>
        cases read
        exact ⟨by omega, by rw [Int.toNat_of_nonneg fits.1]⟩
      · cases read
    · rintro ⟨small, same⟩
      cases same
      rw [if_pos (by omega), Int.toNat_natCast]
  · next other =>
    refine iff_of_false (fun h => by cases h) ?_
    rintro ⟨-, rfl⟩
    exact other n rfl

theorem mapM_natUpTo_eq_some {high : Nat} (read : items.mapM (Json.natUpTo high) = some ns) :
    items = ns.map fun n : Nat => .number (.integer n) := by
  induction items generalizing ns with
  | nil =>
    cases read
    rfl
  | cons j items ih =>
    rw [List.mapM_cons] at read
    obtain ⟨n, head, read⟩ := Option.bind_eq_some_iff.mp read
    obtain ⟨ns', tail, read⟩ := Option.bind_eq_some_iff.mp read
    cases read
    rw [List.map_cons, ← ih tail, (natUpTo_eq_some_iff.mp head).2]

theorem height_eq_ok {n : Nat} {h : Int} (read : height n = .ok h) :
    n ≤ Text.maxInt64 ∧ h = n := by
  unfold height at read
  split at read
  · next fits =>
    cases read
    exact ⟨fits, rfl⟩
  · cases read

theorem mapM_height_eq_ok (read : ns.mapM height = .ok heights) :
    (∀ n ∈ ns, n ≤ Text.maxInt64) ∧ heights = ns.map fun n : Nat => (n : Int) := by
  induction ns generalizing heights with
  | nil =>
    cases read
    exact ⟨fun _ mem => absurd mem List.not_mem_nil, rfl⟩
  | cons n ns ih =>
    rw [List.mapM_cons] at read
    obtain ⟨h, head, read⟩ := bind_eq_ok read
    obtain ⟨hs, tail, read⟩ := bind_eq_ok read
    cases read
    obtain ⟨fits, rfl⟩ := height_eq_ok head
    obtain ⟨rest, rfl⟩ := ih tail
    exact ⟨List.forall_mem_cons.mpr ⟨fits, rest⟩, rfl⟩

/-- A file that is read has nothing but heights, and they come out in ascending order. -/
theorem parse_ok (read : parse content = .ok heights) : ∃ items, HasItems content items ∧
    heights.Pairwise (· < ·) ∧ ∀ h, h ∈ heights ↔ Json.number (.integer h) ∈ items := by
  unfold parse at read
  split at read
  · next ns listed =>
    obtain ⟨j, text, listed⟩ := Option.bind_eq_some_iff.mp listed
    unfold Json.list at listed
    split at listed
    · next items =>
      obtain rfl := mapM_natUpTo_eq_some listed
      obtain ⟨fits, rfl⟩ := mapM_height_eq_ok read
      refine ⟨_, ⟨text, ?_⟩, ?_, ?_⟩
      · intro j listed
        obtain ⟨n, mem, rfl⟩ := List.mem_map.mp listed
        exact ⟨n, fits n (mem_ascending.mpr mem), rfl⟩
      · exact List.pairwise_map.mpr ((pairwise_ascending ns).imp Int.ofNat_lt.mpr)
      · intro h
        simp [mem_ascending, eq_comm]
    · cases listed
  · cases read

theorem ofInputFile_of_parse {e : EnqueueError} (read : parse content = .error e) :
    e.OfInputFile := by
  unfold parse at read
  split at read
  · obtain ⟨-, n, -, -, -, fails⟩ := mapM_eq_error_iff.mp read
    unfold height at fails
    split at fails
    · cases fails
    · cases fails
      trivial
  · cases read
    trivial

end HeightList

/-! ## What a memory holds -/

namespace MemoryStore

/-- A failure of a kind is recorded of a height, and not resolved. -/
def HasFailed (m : MemoryStore) (chainId : String) (height : Int) (kind : DataKind) : Prop :=
  ∃ key f, ((chainId, key), f) ∈ m.failures ∧ f.resolved = false ∧
    f.record.height = height ∧ f.record.kind = kind

def HasIndexed (m : MemoryStore) (chainId : String) (height : Int) : Prop :=
  ∃ key s, ((chainId, key), s) ∈ m.blocks ∧ s.isIndexed = true ∧ s.height = height

/-- No height above this one is indexed, but it is. -/
def IsHighest (m : MemoryStore) (chainId : String) (top : Int) : Prop :=
  m.HasIndexed chainId top ∧ ∀ height, m.HasIndexed chainId height → height ≤ top

variable {m : MemoryStore} {chainId typeUrl : String} {height low high : Int} {kind : DataKind}

/-- What a table has of a chain. -/
theorem mem_ofChain_iff {κ α : Type} {t : Table (String × κ) α} {a : α} :
    a ∈ (t.filter (·.1.1 == chainId)).map (·.2) ↔ ∃ key, ((chainId, key), a) ∈ t := by
  constructor
  · intro mem
    obtain ⟨⟨⟨chain, key⟩, a⟩, kept, rfl⟩ := List.mem_map.mp mem
    obtain ⟨held, here⟩ := List.mem_filter.mp kept
    obtain rfl : chain = chainId := by simpa using here
    exact ⟨key, held⟩
  · rintro ⟨key, held⟩
    exact List.mem_map.mpr ⟨((chainId, key), a), List.mem_filter.mpr ⟨held, by simp⟩, rfl⟩

theorem exists_unresolved_iff :
    (∃ r ∈ m.unresolved chainId, r.height = height ∧ r.kind = kind) ↔
      m.HasFailed chainId height kind := by
  unfold unresolved failuresOf
  constructor
  · rintro ⟨r, mem, same⟩
    obtain ⟨f, kept, rfl⟩ := List.mem_map.mp mem
    obtain ⟨sorted, open'⟩ := List.mem_filter.mp kept
    obtain ⟨key, held⟩ := mem_ofChain_iff.mp (List.mem_mergeSort.mp sorted)
    exact ⟨key, f, held, by simpa using open', same⟩
  · rintro ⟨key, f, held, open', same⟩
    have here := mem_ofChain_iff.mpr ⟨key, held⟩
    refine ⟨f.record, List.mem_map_of_mem (List.mem_filter.mpr ⟨?_, by simpa using open'⟩), same⟩
    exact List.mem_mergeSort.mpr here

/-- The indexed heights of a chain, in ascending order. -/
def indexedHeights (m : MemoryStore) (chainId : String) : List Int :=
  ((m.statuses chainId).filter (·.isIndexed)).map (·.height)

theorem mem_indexedHeights_iff :
    height ∈ m.indexedHeights chainId ↔ m.HasIndexed chainId height := by
  unfold indexedHeights statuses HasIndexed
  constructor
  · intro mem
    obtain ⟨s, kept, rfl⟩ := List.mem_map.mp mem
    obtain ⟨sorted, indexed⟩ := List.mem_filter.mp kept
    obtain ⟨key, held⟩ := mem_ofChain_iff.mp (List.mem_mergeSort.mp sorted)
    exact ⟨key, s, held, indexed, rfl⟩
  · rintro ⟨key, s, held, indexed, rfl⟩
    refine List.mem_map_of_mem (List.mem_filter.mpr ⟨?_, indexed⟩)
    exact List.mem_mergeSort.mpr (mem_ofChain_iff.mpr ⟨key, held⟩)

theorem pairwise_indexedHeights (m : MemoryStore) (chainId : String) :
    (m.indexedHeights chainId).Pairwise (· ≤ ·) := by
  have sorted : (m.statuses chainId).Pairwise fun s t => decide (s.height ≤ t.height) = true :=
    List.pairwise_mergeSort (fun s t u => by simpa using Int.le_trans)
      (fun s t => by simpa using Int.le_total _ _) _
  exact List.pairwise_map.mpr ((sorted.imp of_decide_eq_true).filter _)

theorem isHighest_of_highest {top : Int} (h : m.highest chainId = some top) :
    m.IsHighest chainId top := by
  obtain ⟨before, split⟩ : ∃ before, m.indexedHeights chainId = before ++ [top] :=
    List.getLast?_eq_some_iff.mp h
  have order := split ▸ m.pairwise_indexedHeights chainId
  refine ⟨mem_indexedHeights_iff.mp (split ▸ by simp), fun height indexed => ?_⟩
  have mem := split ▸ mem_indexedHeights_iff.mpr indexed
  rcases List.mem_append.mp mem with mem | mem
  · exact (List.pairwise_append.mp order).2.2 height mem top (List.mem_singleton_self _)
  · exact Int.le_of_eq (List.mem_singleton.mp mem)

theorem not_hasIndexed_of_highest (h : m.highest chainId = none) (height : Int) :
    ¬m.HasIndexed chainId height := by
  have none : m.indexedHeights chainId = [] := List.getLast?_eq_none_iff.mp h
  intro indexed
  have mem := mem_indexedHeights_iff.mpr indexed
  rw [none] at mem
  cases mem

end MemoryStore

/-! ## Lists of requests -/

theorem mem_map_fullRequest_iff {c : IndexerConfig} {heights : List Int} {r : Request} :
    r ∈ heights.map c.fullRequest ↔ r = c.fullRequest r.height ∧ r.height ∈ heights := by
  constructor
  · intro mem
    obtain ⟨height, listed, rfl⟩ := List.mem_map.mp mem
    exact ⟨rfl, listed⟩
  · rintro ⟨same, listed⟩
    exact List.mem_map.mpr ⟨r.height, listed, same.symm⟩

theorem mem_retryRequests_iff {c : IndexerConfig} {records : List FailureRecord} {r : Request} :
    r ∈ retryRequests c records ↔ (∃ kind, r.asks kind = true) ∧ ∀ kind, r.asks kind = true ↔
      c.indexes kind = true ∧ ∃ f ∈ records, f.height = r.height ∧ f.kind = kind := by
  have failed (height : Int) (kind : DataKind) :
      (records.any fun f => f.height == height && f.kind == kind) = true ↔
        ∃ f ∈ records, f.height = height ∧ f.kind = kind := by simp
  constructor
  · intro mem
    refine ⟨(Request.isEmpty_eq_false_iff r).mp (by simpa using (List.mem_filter.mp mem).2),
      fun kind => ?_⟩
    rw [asks_of_mem_retryRequests mem, Bool.and_eq_true, failed]
  · rintro ⟨⟨kind, asks⟩, same⟩
    obtain ⟨configured, recorded⟩ := (same kind).mp asks
    obtain ⟨r', mem, here, -⟩ := exists_retryRequest configured ((failed _ _).mpr recorded)
    have is : r' = r := by
      refine Request.eq_of_asks here fun kind => ?_
      rw [Bool.eq_iff_iff, asks_of_mem_retryRequests mem, Bool.and_eq_true, failed, here, same]
    exact is ▸ mem

namespace Enqueuer

open EnqueueLog

variable {σ : Type} {q : Enqueuer σ} {memory : σ → MemoryStore}

/-- The wanted requests that are not behind the end are pushed, in ascending order. -/
structure Lists (c : IndexerConfig) (wanted : Request → Prop) (requests : List Request)
    (log : EnqueueLog σ) : Prop where
  pushed : log.pushes = requests
  ascending : requests.Pairwise fun r r' => r.height < r'.height
  listed : ∀ r, r ∈ requests ↔ wanted r ∧ c.pastEnd r.height = false

/-- What is pushed of a list in ascending order, after something that pushes nothing. -/
theorem lists_takeWhile {c : IndexerConfig} {wanted : Request → Prop} {rs : List Request}
    {before : EnqueueLog σ} (order : rs.Pairwise fun r r' => r.height < r'.height)
    (mem : ∀ r, r ∈ rs ↔ wanted r) (quiet : before.pushes = []) :
    Lists c wanted (rs.takeWhile fun r => !c.pastEnd r.height)
      (before ++ ofPushes (rs.takeWhile fun r => !c.pastEnd r.height)) where
  pushed := by
    rw [pushes_append, quiet, pushes_ofPushes]
    rfl
  ascending := order.sublist (List.takeWhile_sublist _)
  listed r := by
    rw [← mem]
    constructor
    · intro taken
      exact ⟨List.takeWhile_subset _ taken, by simpa using List.mem_takeWhile_imp taken⟩
    · rintro ⟨here, inside⟩
      exact mem_takeWhile_pastEnd order here inside

/-! ## The strategies -/

/-- If the store says what it has listed, then it says what a memory in its state holds. -/
structure Reads (q : Enqueuer σ) (memory : σ → MemoryStore) : Prop where
  unresolved : ∀ s records, ((q.store.unresolved q.chainId).run.run s).1 = .ok records →
    records = (memory s).unresolved q.chainId
  highest : ∀ s height, ((q.store.highest q.chainId).run.run s).1 = .ok height →
    height = (memory s).highest q.chainId
  heights : ∀ typeUrl low high s heights,
    ((q.store.heightsWithMessage q.chainId typeUrl low high).run.run s).1 = .ok heights →
      heights = (memory s).heightsWithMessage q.chainId typeUrl low high

/-- A request for the configured kinds of a height that have failed in a memory. -/
def WantsFailed (q : Enqueuer σ) (m : MemoryStore) (r : Request) : Prop :=
  (∃ kind, r.asks kind = true) ∧ ∀ kind, r.asks kind = true ↔
    q.config.indexer.indexes kind = true ∧ m.HasFailed q.chainId r.height kind

/-- A full request for a listed height that the node serves. -/
def WantsItem (q : Enqueuer σ) (items : List Json) (status : NodeStatus) (r : Request) : Prop :=
  r = q.config.indexer.fullRequest r.height ∧ Json.number (.integer r.height) ∈ items ∧
    status.earliest ≤ r.height ∧ r.height ≤ status.latest

/-- A full request for a height from the first on, up to the configured end or else to the
highest indexed height, of which a memory has a transaction with a type of message. -/
def WantsMessage (q : Enqueuer σ) (typeUrl : String) (m : MemoryStore) (r : Request) : Prop :=
  r = q.config.indexer.fullRequest r.height ∧ m.HasMessage q.chainId typeUrl r.height ∧
    q.config.indexer.start ≤ r.height ∧
    (q.config.indexer.endBlock ≠ -1 → r.height ≤ q.config.indexer.endBlock) ∧
    (q.config.indexer.endBlock = -1 → ∃ top, m.IsHighest q.chainId top ∧ r.height ≤ top)

/-- All that the store is asked is asked while it holds a memory. -/
def Sees (memory : σ → MemoryStore) (log : EnqueueLog σ) (m : MemoryStore) : Prop :=
  ∀ s ∈ log.listings, memory s = m

theorem logsOk_failedBlocks (reads : q.Reads memory) :
    Task.LogsOk (q.logged.run .failedBlocks) fun requests log => ∀ m, Sees memory log m →
      Lists q.config.indexer (q.WantsFailed m) requests log := by
  refine Task.LogsOk.bind (logsOk_listing (q.store.unresolved q.chainId)) ?_
  rintro records _ ⟨s, answered, rfl⟩
  cases reads.unresolved s records answered
  refine (q.logsOk_pushListed _).mono ?_
  rintro _ _ ⟨rfl, rfl⟩ m sees
  cases sees s (by simp)
  refine lists_takeWhile (pairwise_retryRequests _ _) (fun r => ?_) rfl
  rw [mem_retryRequests_iff]
  exact and_congr_right fun _ => forall_congr' fun kind =>
    iff_congr Iff.rfl (and_congr_right fun _ => MemoryStore.exists_unresolved_iff)

theorem pairwise_fullRequests (c : IndexerConfig) {heights : List Int}
    (order : heights.Pairwise (· < ·)) :
    (heights.map c.fullRequest).Pairwise fun r r' => r.height < r'.height :=
  List.pairwise_map.mpr order

theorem logsOk_blockFile (q : Enqueuer σ) (path : String) :
    Task.LogsOk (q.logged.run (.blockFile path)) fun requests log => ∃ content items status,
      q.fileText path = some content ∧ HeightList.HasItems content items ∧ reports log = [status] ∧
        Lists q.config.indexer (q.WantsItem items status) requests log := by
  change Task.LogsOk (q.logged.runBlockFile path) _
  unfold runBlockFile
  split
  · exact Task.logsOk_throw
  · next content text =>
    split
    · exact Task.logsOk_throw
    · next heights read =>
      obtain ⟨items, whole, order, listed⟩ := HeightList.parse_ok read
      refine Task.LogsOk.bind q.logsOk_status.ofTask ?_
      rintro status _ ⟨errors, rfl⟩
      refine (q.logsOk_pushListed _).mono ?_
      rintro _ _ ⟨rfl, rfl⟩
      have wanted (r : Request) :
          r ∈ (heights.filter fun h => status.earliest ≤ h && h ≤ status.latest).map
            q.config.indexer.fullRequest ↔ q.WantsItem items status r := by
        rw [mem_map_fullRequest_iff, List.mem_filter, listed, WantsItem]
        simp
      refine ⟨content, items, status, text, whole, ?_, ?_⟩
      · simp
      · exact lists_takeWhile (pairwise_fullRequests _ (order.filter _)) wanted (pushes_ofStatus _ _)

/-- The last height that is looked at for a type of message. -/
theorem logsOk_lastKnown (reads : q.Reads memory) :
    Task.LogsOk q.logged.lastKnown fun last log => pushes log = [] ∧ ∀ m, Sees memory log m →
      last = if q.config.indexer.endBlock = -1 then m.highest q.chainId
        else some q.config.indexer.endBlock := by
  unfold lastKnown
  split
  · next endless =>
    have endless : q.config.indexer.endBlock = -1 := endless
    refine Task.LogsOk.mono (logsOk_listing (q.store.highest q.chainId)) ?_
    rintro last _ ⟨s, answered, rfl⟩
    refine ⟨rfl, fun m sees => ?_⟩
    cases sees s (by simp)
    rw [if_pos endless, reads.highest s last answered]
  · next ends =>
    have ends : ¬q.config.indexer.endBlock = -1 := ends
    exact Task.logsOk_pure ⟨rfl, fun m _ => (if_neg ends).symm⟩

/-- Up to the last height are those up to the configured end or else the highest one. -/
theorem le_lastKnown_iff {m : MemoryStore} {last : Int}
    (known : some last = if q.config.indexer.endBlock = -1 then m.highest q.chainId
      else some q.config.indexer.endBlock) (height : Int) :
    height ≤ last ↔ (q.config.indexer.endBlock ≠ -1 → height ≤ q.config.indexer.endBlock) ∧
      (q.config.indexer.endBlock = -1 → ∃ top, m.IsHighest q.chainId top ∧ height ≤ top) := by
  split at known
  · next endless =>
    have highest := MemoryStore.isHighest_of_highest known.symm
    constructor
    · exact fun below => ⟨fun ends => absurd endless ends, fun _ => ⟨last, highest, below⟩⟩
    · rintro ⟨-, below⟩
      obtain ⟨top, ⟨indexed, -⟩, below⟩ := below endless
      exact Int.le_trans below (highest.2 top indexed)
  · next ends =>
    cases known
    exact ⟨fun below => ⟨fun _ => below, fun endless => absurd endless ends⟩, fun h => h.1 ends⟩

theorem logsOk_messageType (reads : q.Reads memory) (typeUrl : String) :
    Task.LogsOk (q.logged.run (.messageType typeUrl)) fun requests log => ∀ m, Sees memory log m →
      Lists q.config.indexer (q.WantsMessage typeUrl m) requests log := by
  refine (logsOk_lastKnown reads).bind ?_
  rintro last before ⟨quiet, known⟩
  cases last with
  | none =>
    refine Task.logsOk_pure fun m sees => ⟨by rwa [List.append_nil], .nil, fun r => ?_⟩
    have known := known m fun s asked => sees s (by rwa [List.append_nil])
    refine iff_of_false List.not_mem_nil fun ⟨⟨_, _, _, _, highest⟩, _⟩ => ?_
    split at known
    · next endless =>
      obtain ⟨top, ⟨indexed, -⟩, -⟩ := highest endless
      exact MemoryStore.not_hasIndexed_of_highest known.symm top indexed
    · cases known
  | some last =>
    refine Task.LogsOk.bind (logsOk_listing
      (q.store.heightsWithMessage q.chainId typeUrl q.config.indexer.start last)) ?_
    rintro heights _ ⟨s, answered, rfl⟩
    cases reads.heights _ _ _ s heights answered
    refine (q.logsOk_pushListed _).mono ?_
    rintro _ _ ⟨rfl, rfl⟩ m sees
    have known := known m fun s' asked => sees s' (by simp_all)
    cases sees s (by simp)
    have wanted (r : Request) :
        r ∈ ((memory s).heightsWithMessage q.chainId typeUrl q.config.indexer.start last).map
          q.config.indexer.fullRequest ↔ q.WantsMessage typeUrl (memory s) r := by
      rw [mem_map_fullRequest_iff, MemoryStore.mem_heightsWithMessage, le_lastKnown_iff known,
        WantsMessage]
      tauto
    rw [← List.append_assoc]
    refine lists_takeWhile (pairwise_fullRequests _ (pairwise_ascending _)) wanted ?_
    rw [pushes_append, quiet]
    rfl

/-- A file that is not there or says anything but heights is refused before anything is done. -/
theorem runBlockFile_refused {path : String}
    (bad : ∀ content items, q.fileText path = some content → ¬HeightList.HasItems content items) :
    ∃ e : EnqueueError, e.OfInputFile ∧ (q.run (.blockFile path)).outcome = .done (.error e) := by
  change ∃ e : EnqueueError, e.OfInputFile ∧ (q.runBlockFile path).outcome = .done (.error e)
  unfold runBlockFile
  split
  · exact ⟨.inputFile path, trivial, rfl⟩
  · next content text =>
    split
    · next e read => exact ⟨e, HeightList.ofInputFile_of_parse read, rfl⟩
    · next heights read =>
      obtain ⟨items, whole, -⟩ := HeightList.parse_ok read
      exact absurd whole (bad content items text)

/-- **A strategy with a list pushes what is on it.** An enqueuer that keeps a log does what it
does without one. Whatever the others do to the state meanwhile, a run that goes well has pushed
one request for each height on the list that is not behind the end, in ascending order: of the
failed heights and of those with a type of message that the store holds when it is asked, or of
the heights in the file that the node serves. A file with anything else in it is refused, and
nothing is asked or pushed. -/
theorem listed_are_pushed (q : Enqueuer σ) {memory : σ → MemoryStore} (reads : q.Reads memory) :
    (∀ strategy, Task.Shadows Prod.fst (q.logged.run strategy) (q.run strategy)) ∧
    (Task.LogsOk (q.logged.run .failedBlocks) fun requests log => ∀ m, Sees memory log m →
      Lists q.config.indexer (q.WantsFailed m) requests log) ∧
    (∀ typeUrl, Task.LogsOk (q.logged.run (.messageType typeUrl)) fun requests log =>
      ∀ m, Sees memory log m → Lists q.config.indexer (q.WantsMessage typeUrl m) requests log) ∧
    (∀ path, Task.LogsOk (q.logged.run (.blockFile path)) fun requests log =>
      ∃ content items status, q.fileText path = some content ∧
        HeightList.HasItems content items ∧ reports log = [status] ∧
        Lists q.config.indexer (q.WantsItem items status) requests log) ∧
    ∀ path, (∀ content items, q.fileText path = some content →
        ¬HeightList.HasItems content items) →
      ∃ e : EnqueueError, e.OfInputFile ∧ (q.run (.blockFile path)).outcome = .done (.error e) :=
  ⟨q.shadows_logged.run, logsOk_failedBlocks reads, logsOk_messageType reads, q.logsOk_blockFile,
    fun _ => runBlockFile_refused⟩

/-- An enqueuer over a memory, up to height six, with a queue that takes everything. -/
def listing : Enqueuer MemoryStore where
  config := .plain 6
  client := {
    node := .reporting ⟨2, 9, false⟩
    retry := .ofSeconds 1 2
    pause := fun _ => .done ()
    patience := 8 }
  store := MemoryStore.asStore
  queue := {
    capacity := 4
    push := fun _ => .done true
    waiting := return 0
    closed := return false }
  fileText path := if path = "heights" then some "[5]" else some "[-1]"

theorem reads_listing : listing.Reads id where
  unresolved _ _ answered := by
    cases answered
    rfl
  highest _ _ answered := by
    cases answered
    rfl
  heights _ _ _ _ _ answered := by
    cases answered
    rfl

/-- The transactions of one height have failed, a transaction of another one is stored, and a
file lists a third. -/
theorem listed_are_pushed_listing :
    let tx : TxRecord := { (default : TxRecord) with
      hash := "A", height := 4, messages := [{ (default : TxMessage) with typeUrl := "/m" }] }
    let memory := replay [.recorded ⟨2, "chain-1", "chain", .transactions, .blockQuery⟩,
      .wroteTxs { (default : TxBatch) with chainId := "chain-1", height := 4, txs := [tx] }] .empty
    let pushed (strategy : Strategy) := ((listing.run strategy).outcome.run.run memory).1
    listing.Reads id ∧
      (∃ e : EnqueueError, e.OfInputFile ∧
        (listing.run (.blockFile "others")).outcome = .done (.error e)) ∧
      pushed .failedBlocks = some (.ok [⟨2, false, true⟩]) ∧
      pushed (.messageType "/m") = some (.ok [⟨4, true, true⟩]) ∧
      pushed (.blockFile "heights") = some (.ok [⟨5, true, true⟩]) := by
  have unlisted : ∀ content items, listing.fileText "others" = some content →
      ¬HeightList.HasItems content items := by
    rintro content items ⟨⟩ ⟨read, heights⟩
    have text : Json.ofText? "[-1]" = some (.array [.number (.integer (-1))]) := by rfl
    cases read.symm.trans text
    obtain ⟨n, -, same⟩ := heights (.number (.integer (-1))) (by simp)
    cases same
  intro tx memory pushed
  refine ⟨reads_listing, ?_, by decide +kernel, by decide +kernel, by decide +kernel⟩
  exact (listing.listed_are_pushed reads_listing).2.2.2.2 "others" unlisted

end Enqueuer

end ChainIndex
