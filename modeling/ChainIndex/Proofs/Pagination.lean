/-
Answers that come in pages. The transactions of all pages are put one after another, and
their results likewise, and only the two numbers at the end are compared. So the result at
a transaction's place is the result that its page has for it if every page has as many
results as transactions, and only then.
-/
import ChainIndex.Node.Client
import ChainIndex.Proofs.Outcomes
import ChainIndex.Proofs.Unending
import ChainIndex.Tx.Normal

namespace ChainIndex

/-! Computations by the states that their calls find -/

namespace Unending

variable {σ α β : Type}

/-- The computation comes to the value if its calls find these states, one after another. -/
def Through : Unending σ α → List σ → α → Prop
  | .done a, states, b => states = [] ∧ a = b
  | .never, _, _ => False
  | .call _ _, [], _ => False
  | .call rest _, s :: states, b => (rest s).Through states b

theorem through_bind {x : Unending σ α} {f : α → Unending σ β} {states : List σ} {b : β} :
    (x >>= f).Through states b ↔
      ∃ before a after, states = before ++ after ∧ x.Through before a ∧ (f a).Through after b := by
  induction x generalizing states with
  | done a =>
    constructor
    · intro h
      exact ⟨[], a, states, rfl, ⟨rfl, rfl⟩, h⟩
    · rintro ⟨_, _, after, rfl, ⟨rfl, rfl⟩, h⟩
      exact h
  | never =>
    constructor
    · exact False.elim
    · rintro ⟨_, _, _, -, h, -⟩
      exact h
  | call rest effect ih =>
    constructor
    · intro h
      cases states with
      | nil => exact h.elim
      | cons s states =>
        obtain ⟨before, a, after, rfl, first, later⟩ := (ih s).mp h
        exact ⟨s :: before, a, after, rfl, first, later⟩
    · rintro ⟨before, a, after, rfl, first, later⟩
      cases before with
      | nil => exact first.elim
      | cons s before => exact (ih s).mpr ⟨before, a, after, rfl, first, later⟩

theorem through_ofState {m : StateM σ α} {states : List σ} {a : α} :
    (ofState m).Through states a ↔ ∃ s, states = [s] ∧ (m.run s).1 = a := by
  cases states with
  | nil => simp [ofState, Through]
  | cons s states =>
    constructor
    · rintro ⟨rfl, value⟩
      exact ⟨s, rfl, value⟩
    · rintro ⟨_, ⟨⟩, value⟩
      exact ⟨rfl, value⟩

end Unending

namespace Task

variable {σ ε α β : Type}

theorem through_bind_ok {x : Task σ ε α} {f : α → Task σ ε β} {states : List σ} {b : β} :
    (x >>= f).outcome.Through states (.ok b) ↔
      ∃ before a after, states = before ++ after ∧ x.outcome.Through before (.ok a) ∧
        (f a).outcome.Through after (.ok b) := by
  rw [outcome_bind, Unending.through_bind]
  constructor
  · rintro ⟨before, result, after, rfl, first, later⟩
    cases result with
    | error e => cases later.2
    | ok a => exact ⟨before, a, after, rfl, first, later⟩
  · rintro ⟨before, a, after, rfl, first, later⟩
    exact ⟨before, .ok a, after, rfl, first, later⟩

theorem through_ofCall {call : Call σ ε α} {states : List σ} {a : α} :
    (ofCall id call).outcome.Through states (.ok a) ↔
      ∃ s, states = [s] ∧ (call.run.run s).1 = .ok a := by
  rw [outcome_ofCall, Unending.through_ofState]
  refine exists_congr fun s => and_congr_right fun _ => ?_
  change (call.run.run s).1.mapError id = _ ↔ _
  rw [mapError_id]

end Task

/-! Pages -/

namespace Node

variable {σ : Type}

/-- The pages that the node answers in these states: the first from the offset on, and each of
the others from behind the transactions before it. -/
inductive Pages (node : Node σ) (height : Int) : Nat → List σ → List SearchPage → Prop
  | none (offset : Nat) : Pages node height offset [] []
  | next {offset : Nat} {s : σ} {states : List σ} {page : SearchPage} {pages : List SearchPage} :
    ((node.txPage height offset pageLimit).run.run s).1 = .ok page →
    Pages node height (offset + page.txs.length) states pages →
    Pages node height offset (s :: states) (page :: pages)

variable {node : Node σ} {height : Int} {states : List σ}

theorem morePages_ok {total : Nat} {txs txs' : List SearchTx} {results results' : List SearchResult}
    (h : (node.morePages height total txs results).outcome.Through states (.ok (txs', results'))) :
    ∃ pages, node.Pages height txs.length states pages ∧
      txs' = txs ++ pages.flatMap (·.txs) ∧ results' = results ++ pages.flatMap (·.results) := by
  induction txs, results using Node.morePages.induct total generalizing states with
  | case1 txs results enough =>
    rw [morePages_of_enough enough] at h
    obtain ⟨rfl, ⟨⟩⟩ := h
    exact ⟨[], .none _, by simp, by simp⟩
  | case2 txs results few ih =>
    rw [morePages_of_few few] at h
    obtain ⟨_, page, after, rfl, asked, rest⟩ := Task.through_bind_ok.mp h
    obtain ⟨s, rfl, answered⟩ := Task.through_ofCall.mp asked
    split at rest
    · cases rest.2
    · next some =>
      obtain ⟨pages, answers, allTxs, allResults⟩ := ih page some rest
      rw [List.length_append] at answers
      exact ⟨page :: pages, .next answered answers, by simp [allTxs], by simp [allResults]⟩

theorem txsAt_ok {answer : SearchAnswer}
    (h : (node.txsAt height).outcome.Through states (.ok answer)) :
    ∃ pages, node.Pages height 0 states pages ∧ answer.txs = pages.flatMap (·.txs) ∧
      answer.results = pages.flatMap (·.results) ∧ answer.txs.length = answer.results.length := by
  obtain ⟨_, first, after, rfl, asked, rest⟩ := Task.through_bind_ok.mp h
  obtain ⟨s, rfl, answered⟩ := Task.through_ofCall.mp asked
  obtain ⟨states, ⟨txs, results⟩, last, rfl, more, ending⟩ := Task.through_bind_ok.mp rest
  obtain ⟨pages, answers, allTxs, allResults⟩ := morePages_ok more
  dsimp only at ending
  split at ending
  · next same =>
    obtain ⟨rfl, ⟨⟩⟩ := ending
    refine ⟨first :: pages, ?_, by simpa using allTxs, by simpa using allResults, same⟩
    rw [List.append_nil]
    exact .next answered (by simpa using answers)
  · cases ending.2

end Node

/-! Places in lists that are put one after another -/

/-- The entry at `i` of the lists one after another is the entry `j` of the list `k`. -/
inductive Stands {α : Type} : List (List α) → (i k j : Nat) → Prop
  | here {l : List α} {ls : List (List α)} {j : Nat} : j < l.length → Stands (l :: ls) j 0 j
  | later {l : List α} {ls : List (List α)} {i k j : Nat} :
    Stands ls i k j → Stands (l :: ls) (l.length + i) (k + 1) j

namespace Stands

variable {α β : Type} {l : List α} {ls : List (List α)} {i k j : Nat}

theorem getElem? (h : Stands ls i k j) : ∃ l, ls[k]? = some l ∧ j < l.length ∧
    ls.flatten[i]? = l[j]? := by
  induction h with
  | @here l ls j inside => exact ⟨l, rfl, inside, by simp [List.getElem?_append_left inside]⟩
  | later _ ih =>
    obtain ⟨l, at_k, inside, same⟩ := ih
    exact ⟨l, at_k, inside, by simpa [List.getElem?_append_right] using same⟩

theorem of_lt (h : Stands (l :: ls) i k j) (inside : i < l.length) : k = 0 := by
  cases h with
  | here => rfl
  | later => omega

theorem of_le (h : Stands (l :: ls) (l.length + i) k j) : ∃ k', k = k' + 1 ∧ Stands ls i k' j := by
  generalize place : l.length + i = n at h
  cases h with
  | here inside => omega
  | @later _ _ i' k' _ rest =>
    obtain rfl : i = i' := by omega
    exact ⟨k', rfl, rest⟩

end Stands

namespace SearchPage

/-- The transaction and the result at `i` stand at one and the same place of one page. -/
def FoundTogether (pages : List SearchPage) (i : Nat) : Prop :=
  ∃ k j, Stands (pages.map (·.txs)) i k j ∧ Stands (pages.map (·.results)) i k j

/-- The page has a result for each of its transactions. -/
def Even (page : SearchPage) : Prop :=
  page.txs.length = page.results.length

variable {page : SearchPage} {pages : List SearchPage} {i : Nat}

/-- What is found together is a transaction and a result of one page, at one place there. -/
theorem FoundTogether.getElem? (h : FoundTogether pages i) :
    ∃ page ∈ pages, ∃ j, j < page.txs.length ∧ j < page.results.length ∧
      (pages.flatMap (·.txs))[i]? = page.txs[j]? ∧
      (pages.flatMap (·.results))[i]? = page.results[j]? := by
  obtain ⟨k, j, txAt, resultAt⟩ := h
  obtain ⟨txs, ofTxs, insideTxs, tx⟩ := txAt.getElem?
  obtain ⟨results, ofResults, insideResults, result⟩ := resultAt.getElem?
  rw [List.getElem?_map, Option.map_eq_some_iff] at ofTxs ofResults
  obtain ⟨page, atPage, rfl⟩ := ofTxs
  obtain ⟨page', atPage', rfl⟩ := ofResults
  obtain rfl : page = page' := Option.some.inj (atPage.symm.trans atPage')
  exact ⟨page, List.mem_of_getElem? atPage, j, insideTxs, insideResults, tx, result⟩

theorem even_of_found {n : Nat} (found : ∀ i < n, FoundTogether (page :: pages) i)
    (txs : page.txs.length ≤ n) (results : page.results.length ≤ n) : page.Even := by
  rcases Nat.lt_trichotomy page.txs.length page.results.length with fewer | same | more
  · obtain ⟨k, j, txAt, resultAt⟩ := found page.txs.length (by omega)
    obtain ⟨k', rfl, -⟩ := Stands.of_le (i := 0) txAt
    cases resultAt.of_lt fewer
  · exact same
  · obtain ⟨k, j, txAt, resultAt⟩ := found page.results.length (by omega)
    obtain ⟨k', rfl, -⟩ := Stands.of_le (i := 0) resultAt
    cases txAt.of_lt more

theorem foundTogether_of_behind (even : page.Even)
    (h : FoundTogether (page :: pages) (page.txs.length + i)) : FoundTogether pages i := by
  obtain ⟨k, j, txAt, resultAt⟩ := h
  rw [even] at resultAt
  obtain ⟨k', rfl, tx⟩ := txAt.of_le
  obtain ⟨_, ⟨⟩, result⟩ := resultAt.of_le
  exact ⟨k', j, tx, result⟩

theorem even_of_foundTogether
    (same : (pages.flatMap (·.txs)).length = (pages.flatMap (·.results)).length)
    (found : ∀ i < (pages.flatMap (·.txs)).length, FoundTogether pages i) :
    ∀ page ∈ pages, page.Even := by
  induction pages with
  | nil => exact fun page written => absurd written List.not_mem_nil
  | cons page pages ih =>
    simp only [List.flatMap_cons, List.length_append] at same found
    have even : page.Even := even_of_found found (by omega) (by omega)
    refine List.forall_mem_cons.mpr ⟨even, ih ?_ fun i inside => ?_⟩
    · rw [Even] at even
      omega
    · exact foundTogether_of_behind even (found _ (by omega))

theorem foundTogether_of_even (even : ∀ page ∈ pages, page.Even)
    (inside : i < (pages.flatMap (·.txs)).length) : FoundTogether pages i := by
  induction pages generalizing i with
  | nil => cases inside
  | cons page pages ih =>
    obtain ⟨first, rest⟩ := List.forall_mem_cons.mp even
    rw [List.flatMap_cons, List.length_append] at inside
    by_cases here : i < page.txs.length
    · exact ⟨0, i, .here here, .here (first ▸ here)⟩
    · obtain ⟨behind, rfl⟩ := Nat.exists_eq_add_of_le (Nat.le_of_not_lt here)
      obtain ⟨k, j, txAt, resultAt⟩ := @ih behind rest (by omega)
      refine ⟨k + 1, j, .later txAt, ?_⟩
      rw [first]
      exact .later resultAt

end SearchPage

/-- Every transaction of an answer is paired with the result that its page has at its place,
exactly if each page has as many results as transactions. -/
theorem Node.txsAt_pairs_iff {σ : Type} {node : Node σ} {height : Int} {states : List σ}
    {answer : SearchAnswer} (h : (node.txsAt height).outcome.Through states (.ok answer)) :
    ∃ pages, node.Pages height 0 states pages ∧ answer.txs = pages.flatMap (·.txs) ∧
      answer.results = pages.flatMap (·.results) ∧
      ((∀ i < answer.txs.length, SearchPage.FoundTogether pages i) ↔
        ∀ page ∈ pages, page.Even) := by
  obtain ⟨pages, answers, txs, results, same⟩ := Node.txsAt_ok h
  refine ⟨pages, answers, txs, results, ?_⟩
  rw [txs, results] at same
  rw [txs]
  exact ⟨SearchPage.even_of_foundTogether same, fun even i => SearchPage.foundTogether_of_even even⟩

/-- What is made of an answer out of such pages is made page by page. -/
theorem Decoder.normalizeSearch_of_even (d : Decoder) (block : Block) {answer : SearchAnswer}
    {pages : List SearchPage} (txs : answer.txs = pages.flatMap (·.txs))
    (results : answer.results = pages.flatMap (·.results)) (even : ∀ page ∈ pages, page.Even) :
    d.normalizeSearch block answer = pages.flatMap fun page =>
      (page.txs.zip page.results).map fun (tx, result) => d.normalizeFound block tx result := by
  have sizes : answer.txs.length = answer.results.length := by
    rw [txs, results, List.length_flatMap, List.length_flatMap]
    exact congrArg List.sum (List.map_congr_left even)
  rw [Decoder.normalizeSearch, if_neg (fun differ => differ sizes), txs, results]
  clear txs results sizes
  induction pages with
  | nil => rfl
  | cons page pages ih =>
    obtain ⟨first, rest⟩ := List.forall_mem_cons.mp even
    rw [List.flatMap_cons, List.flatMap_cons, List.flatMap_cons, List.zip_append first,
      List.map_append, ih rest]

/-! Pages that are not even -/

def SearchTx.named (memo : String) : SearchTx :=
  { SearchTx.empty with memo }

def SearchResult.named (hash : String) : SearchResult :=
  { SearchResult.empty with hash }

/-- One result too few. -/
def SearchPage.short : SearchPage :=
  ⟨[.named "A", .named "B"], [.named "A"], none, 3⟩

/-- One result too many. -/
def SearchPage.long : SearchPage :=
  ⟨[.named "C"], [.named "C", .named "D"], none, 3⟩

/-- Has three transactions in two pages. -/
def Node.unbalanced : Node Unit where
  name := "unbalanced"
  status := throw (.timeout "")
  block _ := throw (.timeout "")
  blockResults _ := throw (.timeout "")
  txPage _ offset _ := return if offset = 0 then .short else .long

def SearchAnswer.shifted : SearchAnswer :=
  ⟨[.named "A", .named "B", .named "C"], [.named "A", .named "C", .named "D"], 3⟩

theorem Node.unbalanced_txsAt :
    (unbalanced.txsAt 1).outcome.Through [(), ()] (.ok .shifted) := by
  refine Task.through_bind_ok.mpr
    ⟨[()], .short, [()], rfl, Task.through_ofCall.mpr ⟨(), rfl, rfl⟩, ?_⟩
  refine Task.through_bind_ok.mpr
    ⟨[()], (SearchAnswer.shifted.txs, SearchAnswer.shifted.results), [], rfl, ?_, rfl, rfl⟩
  rw [morePages, if_neg (by decide)]
  refine Task.through_bind_ok.mpr
    ⟨[()], .long, [], rfl, Task.through_ofCall.mpr ⟨(), rfl, rfl⟩, ?_⟩
  rw [dif_neg (by simp [SearchPage.long]), morePages, if_pos (by decide)]
  exact ⟨rfl, rfl⟩

theorem Node.txsAt_pairs_iff_unbalanced :
    (unbalanced.txsAt 1).outcome.Through [(), ()] (.ok .shifted) ∧
    ∃ pages, unbalanced.Pages 1 0 [(), ()] pages ∧
      SearchAnswer.shifted.txs = pages.flatMap (·.txs) ∧
      SearchAnswer.shifted.results = pages.flatMap (·.results) ∧
      ((∀ i < SearchAnswer.shifted.txs.length, SearchPage.FoundTogether pages i) ↔
        ∀ page ∈ pages, page.Even) :=
  ⟨unbalanced_txsAt, txsAt_pairs_iff unbalanced_txsAt⟩

/-- The second transaction of the first page gets the first result of the second page. -/
theorem Node.txsAt_mixes_unbalanced :
    ¬∀ (σ : Type) (node : Node σ) (height : Int) (states : List σ) (answer : SearchAnswer),
      (node.txsAt height).outcome.Through states (.ok answer) →
      ∃ pages, node.Pages height 0 states pages ∧
        ∀ (i : Nat) (tx : SearchTx) (result : SearchResult),
          answer.txs[i]? = some tx → answer.results[i]? = some result →
          ∃ page ∈ pages, ∃ j : Nat, page.txs[j]? = some tx ∧ page.results[j]? = some result := by
  intro claim
  obtain ⟨pages, answers, paired⟩ := claim Unit unbalanced 1 _ _ unbalanced_txsAt
  obtain ⟨page, written, j, tx, result⟩ := paired 1 (.named "B") (.named "C") rfl rfl
  have memo : (page.txs[j]?).map (·.memo) = some "B" := congrArg (Option.map (·.memo)) tx
  have two : pages = [.short, .long] := by
    cases answers with
    | next first answers =>
      cases first
      cases answers with
      | next second answers =>
        cases second
        cases answers
        rfl
  simp only [two, List.mem_cons, List.not_mem_nil, or_false] at written
  rcases written with rfl | rfl
  · rcases j with _ | _ | j
    · exact absurd memo (by decide)
    · cases result
    · cases memo
  · rcases j with _ | j
    · exact absurd memo (by decide)
    · cases memo

end ChainIndex
