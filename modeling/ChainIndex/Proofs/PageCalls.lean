/-
Which pages a node is asked for. The node may keep a journal of the calls for pages, each
with its answer; it answers as before, so the journal tells what is asked of any node. The
calls go on from where the pages before them end, until there are as many transactions as
the first page reports, and each page but the first has to bring some. So there are never
more calls than one for each reported transaction and one more.
-/
import ChainIndex.Proofs.Alone
import ChainIndex.Proofs.Pagination

namespace ChainIndex

/-! The journal -/

/-- A call for a page of transactions, with its answer. -/
structure PageCall where
  height : Int
  offset : Nat
  limit : Nat
  answer : Except NodeError SearchPage

namespace PageCall

/-- The pages that came. -/
def pages (calls : List PageCall) : List SearchPage :=
  calls.filterMap (·.answer.toOption)

def txs (calls : List PageCall) : List SearchTx :=
  (pages calls).flatMap (·.txs)

def results (calls : List PageCall) : List SearchResult :=
  (pages calls).flatMap (·.results)

/-- How many transactions the first page reports. -/
def total : List PageCall → Nat
  | [] => 0
  | first :: _ => first.answer.toOption.elim 0 (·.reportedTotal)

variable {height : Int} {offset limit : Nat} {page : SearchPage} {calls : List PageCall}

@[simp] theorem txs_nil : txs [] = [] := rfl

@[simp] theorem results_nil : results [] = [] := rfl

@[simp] theorem txs_cons :
    txs (⟨height, offset, limit, .ok page⟩ :: calls) = page.txs ++ txs calls := rfl

@[simp] theorem results_cons :
    results (⟨height, offset, limit, .ok page⟩ :: calls) = page.results ++ results calls := rfl

theorem mem_pages : page ∈ pages calls ↔ ∃ call ∈ calls, call.answer = .ok page := by
  simp only [pages, List.mem_filterMap, toOption_eq_some_iff]

/-- All calls brought transactions. -/
theorem brought_iff : (∀ call ∈ calls, ∃ page, call.answer = .ok page ∧ page.txs ≠ []) ↔
    (∀ call ∈ calls, ∃ page, call.answer = .ok page) ∧ ∀ page ∈ pages calls, page.txs ≠ [] := by
  constructor
  · intro h
    refine ⟨fun call mem => (h call mem).imp fun page brought => brought.1, fun page mem => ?_⟩
    obtain ⟨call, mem, came⟩ := mem_pages.mp mem
    obtain ⟨page', came', some⟩ := h call mem
    rw [came] at came'
    cases came'
    exact some
  · rintro ⟨came, some⟩ call mem
    obtain ⟨page, answered⟩ := came call mem
    exact ⟨page, answered, some page (mem_pages.mpr ⟨call, mem, answered⟩)⟩

end PageCall

namespace Node

variable {σ : Type}

/-- The node with a journal of its calls for pages in the state. -/
def journaled (node : Node σ) : Node (σ × List PageCall) where
  name := node.name
  status := node.status.onPart Prod.fst fun s state => (s, state.2)
  block height := (node.block height).onPart Prod.fst fun s state => (s, state.2)
  blockResults height := (node.blockResults height).onPart Prod.fst fun s state => (s, state.2)
  txPage height offset limit := ExceptT.mk fun state =>
    let (answer, s) := (node.txPage height offset limit).run.run state.1
    (answer, s, state.2 ++ [⟨height, offset, limit, answer⟩])

theorem run_journaled {node : Node σ} {height : Int} {offset limit : Nat}
    {answer : Except NodeError SearchPage} {s s' : σ} (calls : List PageCall)
    (ran : (node.txPage height offset limit).run.run s = (answer, s')) :
    (node.journaled.txPage height offset limit).run.run (s, calls) =
      (answer, s', calls ++ [⟨height, offset, limit, answer⟩]) := by
  change (let (answer, s) := (node.txPage height offset limit).run.run s
    (answer, s, calls ++ [PageCall.mk height offset limit answer])) = _
  rw [ran]

end Node

/-! What the calls are -/

namespace PageCall

/-- The calls for more pages behind these transactions and results, and what comes of them. -/
inductive Follow (height : Int) (total : Nat) : List SearchTx → List SearchResult →
    List PageCall → Except NodeError (List SearchTx × List SearchResult) → Prop
  | enough {txs results} : total ≤ txs.length → Follow height total txs results [] (.ok (txs, results))
  | failed {txs results e} : txs.length < total →
    Follow height total txs results [⟨height, txs.length, pageLimit, .error e⟩] (.error e)
  | nothing {txs results page} : txs.length < total → page.txs = [] →
    Follow height total txs results [⟨height, txs.length, pageLimit, .ok page⟩]
      (.error (Node.tooFew height total txs.length))
  | next {txs results page calls r} : txs.length < total → page.txs ≠ [] →
    Follow height total (txs ++ page.txs) (results ++ page.results) calls r →
    Follow height total txs results (⟨height, txs.length, pageLimit, .ok page⟩ :: calls) r

end PageCall

theorem Node.morePages_gives {σ : Type} (node : Node σ) (height : Int) (total : Nat)
    (txs : List SearchTx) (results : List SearchResult) (s : σ) (before : List PageCall) :
    ∃ calls r s', (node.morePages height total txs results).outcome.Gives s r s' ∧
      (node.journaled.morePages height total txs results).outcome.Gives (s, before) r
        (s', before ++ calls) ∧
      PageCall.Follow height total txs results calls r := by
  induction txs, results using Node.morePages.induct total generalizing s before with
  | case1 txs results enough =>
    rw [morePages_of_enough enough, morePages_of_enough enough]
    refine ⟨[], .ok (txs, results), s, rfl, ?_, .enough enough⟩
    rw [List.append_nil]
    rfl
  | case2 txs results few ih =>
    have fewer : txs.length < total := Nat.lt_of_not_le few
    rw [morePages_of_few few, morePages_of_few few]
    obtain ⟨answer, s', ran⟩ : ∃ answer s',
        (node.txPage height txs.length pageLimit).run.run s = (answer, s') := ⟨_, _, rfl⟩
    have asked := Task.gives_ofCall ran
    have asked' := Task.gives_ofCall (run_journaled before ran)
    cases answer with
    | error e =>
      exact ⟨_, _, _, Task.gives_bind_error asked, Task.gives_bind_error asked', .failed fewer⟩
    | ok page =>
      by_cases none : page.txs = []
      · refine ⟨_, _, s', Task.gives_bind_ok asked ?_, Task.gives_bind_ok asked' ?_,
          .nothing fewer none⟩
        · rw [if_pos none]
          rfl
        · rw [if_pos none]
          rfl
      · obtain ⟨calls, r, s'', gives, gives', follow⟩ := ih page none s'
          (before ++ [⟨height, txs.length, pageLimit, .ok page⟩])
        refine ⟨_, r, s'', Task.gives_bind_ok asked ?_, Task.gives_bind_ok asked' ?_,
          .next fewer none follow⟩
        · rw [if_neg none]
          exact gives
        · rw [if_neg none]
          simpa using gives'

/-! What the journal says -/

/-- What holds of every place in a list holds of the first and of all behind it. -/
theorem forall_split_cons {α : Type} {x : α} {xs : List α} {P : List α → α → List α → Prop} :
    (∀ before a after, x :: xs = before ++ a :: after → P before a after) ↔
      P [] x xs ∧ ∀ before a after, xs = before ++ a :: after → P (x :: before) a after := by
  constructor
  · intro h
    refine ⟨h [] x xs rfl, fun before a after split => h (x :: before) a after ?_⟩
    rw [split, List.cons_append]
  · rintro ⟨first, later⟩ before a after split
    cases before with
    | nil =>
      obtain ⟨rfl, rfl⟩ := List.cons.inj split
      exact first
    | cons b before =>
      obtain ⟨rfl, rest⟩ := List.cons.inj split
      exact later before a after rest

theorem forall_split_nil {α : Type} {P : List α → α → List α → Prop} :
    ∀ before a after, ([] : List α) = before ++ a :: after → P before a after := by
  intro before a after split
  simp at split

namespace PageCall

/-- The calls for the pages of a height, with what came of them, are contiguous and few. -/
structure Contiguous (height : Int) (calls : List PageCall) (result : Except NodeError SearchAnswer) :
    Prop where
  /-- There is a call, and there is at most one for each reported transaction and one more. -/
  few : calls ≠ [] ∧ calls.length ≤ max 1 (total calls + 1)
  /-- A call asks for what is behind the transactions that came before it, and all calls but
  the first are made because there are too few of them. -/
  asked : ∀ before call after, calls = before ++ call :: after →
    call.height = height ∧ call.limit = pageLimit ∧ call.offset = (txs before).length ∧
      (before ≠ [] → (txs before).length < total calls)
  /-- The offsets increase from the second call on. -/
  increasing : calls.tail.Pairwise (·.offset < ·.offset)
  /-- They increase from the first to the second if the first page has transactions. -/
  second : ∀ first page next rest, calls = first :: next :: rest → first.answer = .ok page →
    (first.offset < next.offset ↔ page.txs ≠ [])
  /-- A call that fails is the last, and its error is the result. -/
  failed : ∀ before call after, calls = before ++ call :: after →
    ∀ e, call.answer = .error e → after = [] ∧ result = .error e
  /-- A page without transactions, unless it is the first, is the last and makes the whole fail. -/
  nothing : ∀ before call after, calls = before ++ call :: after → before ≠ [] →
    ∀ page, call.answer = .ok page → page.txs = [] →
      after = [] ∧ result = .error (Node.tooFew height (total calls) call.offset)
  /-- Nothing else makes it fail but results that differ in number from the transactions. -/
  succeeds : (∃ answer, result = .ok answer) ↔
    (∀ call ∈ calls, ∃ page, call.answer = .ok page) ∧
      (∀ page ∈ pages calls.tail, page.txs ≠ []) ∧ (txs calls).length = (results calls).length
  /-- An answer has what all pages have, in their order, and what the first page reports. -/
  whole : ∀ answer, result = .ok answer → answer.txs = txs calls ∧ answer.results = results calls ∧
    answer.total = total calls ∧ total calls ≤ answer.txs.length
  /-- It has a result for each transaction, so each pair of them is normalized. -/
  even : ∀ answer, result = .ok answer → answer.txs.length = answer.results.length ∧
    ∀ (d : Decoder) (block : Block), d.normalizeSearch block answer =
      (answer.txs.zip answer.results).map fun (tx, result) => d.normalizeFound block tx result

namespace Follow

variable {height : Int} {total : Nat} {ts : List SearchTx} {rs : List SearchResult}
  {calls : List PageCall} {r : Except NodeError (List SearchTx × List SearchResult)}

theorem length_le (h : Follow height total ts rs calls r) : calls.length ≤ total - ts.length := by
  induction h with
  | enough enough => exact Nat.zero_le _
  | failed few =>
    rw [List.length_singleton]
    omega
  | nothing few none =>
    rw [List.length_singleton]
    omega
  | @next ts rs page calls r few some follow ih =>
    have longer : page.txs.length ≠ 0 := by simpa using some
    rw [List.length_append] at ih
    rw [List.length_cons]
    omega

/-- A call for more than the `start` transactions of the first page: what it asks for, and
when it is the last. -/
structure InTurn (height : Int) (total : Nat)
    (r : Except NodeError (List SearchTx × List SearchResult)) (start : Nat)
    (before : List PageCall) (call : PageCall) (after : List PageCall) : Prop where
  place : call.height = height ∧ call.limit = pageLimit
  offset : call.offset = start + (txs before).length
  few : call.offset < total
  failed : ∀ e, call.answer = .error e → after = [] ∧ r = .error e
  nothing : ∀ page, call.answer = .ok page → page.txs = [] →
    after = [] ∧ r = .error (Node.tooFew height total call.offset)

theorem inTurn (h : Follow height total ts rs calls r) :
    ∀ before call after, calls = before ++ call :: after →
      InTurn height total r ts.length before call after := by
  induction h with
  | enough enough => exact forall_split_nil
  | @failed ts rs e few =>
    refine forall_split_cons.mpr ⟨?_, forall_split_nil⟩
    refine ⟨⟨rfl, rfl⟩, rfl, few, ?_, ?_⟩
    · intro e' same
      cases same
      exact ⟨rfl, rfl⟩
    · intro page same
      cases same
  | @nothing ts rs page few none =>
    refine forall_split_cons.mpr ⟨?_, forall_split_nil⟩
    refine ⟨⟨rfl, rfl⟩, rfl, few, ?_, ?_⟩
    · intro e same
      cases same
    · intro page' same empty
      exact ⟨rfl, rfl⟩
  | @next ts rs page calls r few some follow ih =>
    refine forall_split_cons.mpr ⟨?_, ?_⟩
    · refine ⟨⟨rfl, rfl⟩, rfl, few, ?_, ?_⟩
      · intro e same
        cases same
      · intro page' same empty
        cases same
        exact absurd empty some
    · intro before call after split
      obtain ⟨place, offset, few, failed, nothing⟩ := ih before call after split
      refine ⟨place, ?_, few, failed, nothing⟩
      rw [offset, txs_cons, List.length_append, List.length_append, Nat.add_assoc]

/-- The offsets increase, since each page but the last brings transactions. -/
theorem increasing (h : Follow height total ts rs calls r) :
    calls.Pairwise (·.offset < ·.offset) := by
  induction h with
  | enough enough => exact .nil
  | failed few => exact List.pairwise_singleton _ _
  | nothing few none => exact List.pairwise_singleton _ _
  | @next ts rs page calls r few some follow ih =>
    refine List.pairwise_cons.mpr ⟨fun call mem => ?_, ih⟩
    obtain ⟨before, after, split⟩ := List.append_of_mem mem
    have behind := (follow.inTurn before call after split).offset
    have longer : page.txs.length ≠ 0 := by simpa using some
    rw [List.length_append] at behind
    change ts.length < call.offset
    omega

theorem result (h : Follow height total ts rs calls r) :
    ((∃ found, r = .ok found) ↔ ∀ call ∈ calls, ∃ page, call.answer = .ok page ∧ page.txs ≠ []) ∧
      ∀ ts' rs', r = .ok (ts', rs') →
        ts' = ts ++ txs calls ∧ rs' = rs ++ results calls ∧ total ≤ ts'.length := by
  induction h with
  | @enough ts rs enough =>
    refine ⟨iff_of_true ⟨_, rfl⟩ (fun call mem => absurd mem List.not_mem_nil), ?_⟩
    rintro _ _ ⟨⟩
    simp [enough]
  | failed few => simp
  | nothing few none => simp [none]
  | @next ts rs page calls r few some follow ih =>
    obtain ⟨succeeds, whole⟩ := ih
    refine ⟨?_, fun ts' rs' found => ?_⟩
    · rw [succeeds, List.forall_mem_cons]
      exact (and_iff_right ⟨page, rfl, some⟩).symm
    · obtain ⟨allTxs, allResults, enough⟩ := whole ts' rs' found
      exact ⟨by simpa using allTxs, by simpa using allResults, enough⟩

end Follow

/-- A first call that fails is all there is. -/
theorem contiguous_failed (height : Int) (e : NodeError) :
    Contiguous height [⟨height, 0, pageLimit, .error e⟩] (.error e) where
  few := ⟨List.cons_ne_nil _ _, Nat.le_max_left _ _⟩
  asked := forall_split_cons.mpr
    ⟨⟨rfl, rfl, rfl, fun later => absurd rfl later⟩, forall_split_nil⟩
  increasing := .nil
  second := by simp
  failed := by
    refine forall_split_cons.mpr ⟨fun e' same => ?_, forall_split_nil⟩
    cases same
    exact ⟨rfl, rfl⟩
  nothing := forall_split_cons.mpr ⟨fun later => absurd rfl later, forall_split_nil⟩
  succeeds := by simp
  whole := by simp
  even := by simp

/-- What comes of the first page and of all that follow it. -/
def wholeAnswer (height : Int) (total : Nat) :
    Except NodeError (List SearchTx × List SearchResult) → Except NodeError SearchAnswer
  | .error e => .error e
  | .ok (txs, results) =>
    if txs.length = results.length then .ok { txs, results, total }
    else .error (Node.unequal height txs.length results.length)

theorem wholeAnswer_eq_ok {height : Int} {total : Nat}
    {r : Except NodeError (List SearchTx × List SearchResult)} {a : SearchAnswer} :
    wholeAnswer height total r = .ok a ↔
      r = .ok (a.txs, a.results) ∧ a.total = total ∧ a.txs.length = a.results.length := by
  cases r with
  | error e => simp [wholeAnswer]
  | ok found =>
    obtain ⟨txs, results⟩ := found
    by_cases same : txs.length = results.length
    · have value : wholeAnswer height total (.ok (txs, results)) = .ok ⟨txs, results, total⟩ :=
        if_pos same
      rw [value]
      constructor
      · rintro ⟨⟩
        exact ⟨rfl, rfl, same⟩
      · rintro ⟨⟨⟩, rfl, -⟩
        rfl
    · have value : wholeAnswer height total (.ok (txs, results)) =
          .error (Node.unequal height txs.length results.length) := if_neg same
      rw [value]
      constructor
      · rintro ⟨⟩
      · rintro ⟨⟨⟩, -, same'⟩
        exact absurd same' same

theorem contiguous_of_follow {height : Int} {first : SearchPage} {calls : List PageCall}
    {r : Except NodeError (List SearchTx × List SearchResult)}
    (h : Follow height first.reportedTotal first.txs first.results calls r) :
    Contiguous height (⟨height, 0, pageLimit, .ok first⟩ :: calls)
      (wholeAnswer height first.reportedTotal r) where
  few := by
    have short := h.length_le
    refine ⟨List.cons_ne_nil _ _, ?_⟩
    change calls.length + 1 ≤ max 1 (first.reportedTotal + 1)
    omega
  asked := by
    refine forall_split_cons.mpr ⟨⟨rfl, rfl, rfl, fun later => absurd rfl later⟩, ?_⟩
    intro before call after split
    obtain ⟨⟨height, limit⟩, offset, few, -, -⟩ := h.inTurn before call after split
    rw [txs_cons, List.length_append]
    exact ⟨height, limit, offset, fun _ => offset ▸ few⟩
  increasing := h.increasing
  second := by
    rintro _ page next rest ⟨⟩ ⟨⟩
    have offset := (h.inTurn [] next rest rfl).offset
    rw [← List.length_pos_iff]
    change 0 < next.offset ↔ _
    rw [offset]
    rfl
  failed := by
    refine forall_split_cons.mpr ⟨fun e same => ?_, ?_⟩
    · cases same
    · intro before call after split e refused
      obtain ⟨last, rfl⟩ := (h.inTurn before call after split).failed e refused
      exact ⟨last, rfl⟩
  nothing := by
    refine forall_split_cons.mpr ⟨fun later => absurd rfl later, ?_⟩
    intro before call after split _ page came empty
    obtain ⟨last, rfl⟩ := (h.inTurn before call after split).nothing page came empty
    exact ⟨last, rfl⟩
  succeeds := by
    obtain ⟨brought, whole⟩ := h.result
    rw [brought_iff] at brought
    have came : ∃ page, (Except.ok first : Except NodeError SearchPage) = .ok page := ⟨first, rfl⟩
    rw [List.forall_mem_cons, and_iff_right came, List.tail_cons, ← and_assoc, ← brought]
    constructor
    · rintro ⟨a, found⟩
      obtain ⟨ok, -, same⟩ := wholeAnswer_eq_ok.mp found
      obtain ⟨txs, results, -⟩ := whole _ _ ok
      rw [txs, results] at same
      exact ⟨⟨_, ok⟩, same⟩
    · rintro ⟨⟨⟨txs, results⟩, ok⟩, same⟩
      obtain ⟨rfl, rfl, -⟩ := whole _ _ ok
      exact ⟨⟨_, _, first.reportedTotal⟩, wholeAnswer_eq_ok.mpr ⟨ok, rfl, same⟩⟩
  whole := by
    intro a found
    obtain ⟨ok, total, -⟩ := wholeAnswer_eq_ok.mp found
    obtain ⟨txs, results, enough⟩ := h.result.2 _ _ ok
    exact ⟨txs, results, total, enough⟩
  even := by
    intro a found
    obtain ⟨-, -, same⟩ := wholeAnswer_eq_ok.mp found
    refine ⟨same, fun d block => ?_⟩
    rw [Decoder.normalizeSearch, if_neg (fun differ => differ same)]

end PageCall

/-- The end of a search, once all pages are there or one of them is refused. -/
theorem Node.wholeAnswer_gives {σ : Type} {height : Int} {total : Nat} {s s' : σ}
    {pages : Task σ NodeError (List SearchTx × List SearchResult)}
    {r : Except NodeError (List SearchTx × List SearchResult)} (gives : pages.outcome.Gives s r s') :
    Task.outcome (do
      let (txs, results) ← pages
      if txs.length = results.length then return { txs, results, total }
      else throw (unequal height txs.length results.length)) |>.Gives s
        (PageCall.wholeAnswer height total r) s' := by
  cases r with
  | error e => exact Task.gives_bind_error gives
  | ok found =>
    refine Task.gives_bind_ok gives ?_
    obtain ⟨txs, results⟩ := found
    dsimp only [PageCall.wholeAnswer]
    split <;> rfl

/-- **The pages of a height are asked for one after another.** Of any node and from any
state, the search comes to an end, and the calls that it makes and what comes of them are
contiguous. -/
theorem Node.txsAt_contiguous {σ : Type} (node : Node σ) (height : Int) (s : σ) :
    ∃ calls result s', (node.txsAt height).outcome.Gives s result s' ∧
      (node.journaled.txsAt height).outcome.Gives (s, []) result (s', calls) ∧
      PageCall.Contiguous height calls result := by
  obtain ⟨answer, s', ran⟩ : ∃ answer s',
      (node.txPage height 0 pageLimit).run.run s = (answer, s') := ⟨_, _, rfl⟩
  have asked := Task.gives_ofCall ran
  have asked' := Task.gives_ofCall (run_journaled [] ran)
  cases answer with
  | error e =>
    exact ⟨_, _, s', Task.gives_bind_error asked, Task.gives_bind_error asked',
      PageCall.contiguous_failed height e⟩
  | ok first =>
    obtain ⟨calls, r, s'', gives, gives', follow⟩ := node.morePages_gives height
      first.reportedTotal first.txs first.results s' [⟨height, 0, pageLimit, .ok first⟩]
    refine ⟨_, _, s'', Task.gives_bind_ok asked ?_, Task.gives_bind_ok asked' ?_,
      PageCall.contiguous_of_follow follow⟩
    · exact wholeAnswer_gives gives
    · exact wholeAnswer_gives gives'

/-- Reports a transaction and has none. -/
def SearchPage.hollow : SearchPage :=
  ⟨[], [], none, 1⟩

/-- Has but hollow pages. -/
def Node.hollow : Node Unit where
  name := "hollow"
  status := throw (.timeout "")
  block _ := throw (.timeout "")
  blockResults _ := throw (.timeout "")
  txPage _ _ _ := return .hollow

/-- A first page without transactions is asked for twice. -/
theorem Node.txsAt_repeats_hollow :
    ¬∀ (σ : Type) (node : Node σ) (height : Int) (s s' : σ) result calls,
      (node.journaled.txsAt height).outcome.Gives (s, []) result (s', calls) →
      (calls.map (·.offset)).Pairwise (· < ·) := by
  intro claim
  have ran : (hollow.txPage 1 0 pageLimit).run.run () = (.ok .hollow, ()) := rfl
  have asked (calls : List PageCall) := Task.gives_ofCall (run_journaled calls ran)
  have calls : (hollow.journaled.txsAt 1).outcome.Gives ((), []) (.error (tooFew 1 1 0))
      ((), [⟨1, 0, pageLimit, .ok .hollow⟩, ⟨1, 0, pageLimit, .ok .hollow⟩]) := by
    refine Task.gives_bind_ok (asked []) (Task.gives_bind_error ?_)
    rw [morePages, if_neg (by decide)]
    exact Task.gives_bind_ok (asked _) rfl
  have increasing := claim Unit hollow 1 () () _ _ calls
  exact absurd increasing (by decide)

end ChainIndex
