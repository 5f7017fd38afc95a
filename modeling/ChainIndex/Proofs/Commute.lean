/-
Effects that may come in any order. A call changes what is filed under one failure,
what is marked of one height, and what is stored of it; the three parts never get in
each other's way, and marks never do among themselves. So two calls commute if they
are about different kinds or heights and store no transaction under the same hash,
if they are the same, or if one records a failure that the other, an incomplete
batch, does not resolve. Calls that commute leave the same contents in every order.
-/
import ChainIndex.Proofs.StoreEffect
import Mathlib.Logic.Function.Conjugate

namespace ChainIndex

/-! ## Tables -/

section

variable {κ α : Type} [DecidableEq κ]

/-- Changes what is found under one key. -/
def touch (key : κ) (g : Option α → Option α) (f : κ → Option α) : κ → Option α :=
  Function.update f key (g (f key))

theorem touch_commute {key key' : κ} {g g' : Option α → Option α}
    (h : key = key' → Function.Commute g g') : Function.Commute (touch key g) (touch key' g') := by
  intro f
  by_cases same : key = key'
  · subst same
    simp only [touch, Function.update_self, Function.update_idem, (h rfl).eq]
  · simp only [touch, Function.update_of_ne same, Function.update_of_ne (Ne.symm same)]
    exact Function.update_comm (Ne.symm same) _ _ f

end

namespace Contents

/-! ## Parts of calls -/

/-- The part of a call that stores a batch of transactions. -/
def storeTxs (b : TxBatch) (c : Contents) : Contents :=
  { c with
    txWrites := c.txWrites + 1
    txs := putTxs b.chainId b.txs c.txs
    txBatches := Function.update c.txBatches (b.chainId, b.height) (some b) }

def storeEvents (b : EventBatch) (c : Contents) : Contents :=
  { c with
    eventWrites := c.eventWrites + 1
    eventBatches := Function.update c.eventBatches (b.chainId, b.height) (some b) }

theorem mark_commute (key key' : String × Int) (transactions blockEvents transactions' blockEvents' : Bool) :
    Function.Commute (mark key transactions blockEvents) (mark key' transactions' blockEvents') := by
  intro c
  have marks : Function.Commute
      (touch key fun old =>
        let status := old.getD (BlockStatus.unindexed key.2)
        some { status with
          transactions := status.transactions || transactions
          blockEvents := status.blockEvents || blockEvents })
      (touch key' fun old =>
        let status := old.getD (BlockStatus.unindexed key'.2)
        some { status with
          transactions := status.transactions || transactions'
          blockEvents := status.blockEvents || blockEvents' }) := by
    refine touch_commute fun same old => ?_
    subst same
    simp only [Option.getD_some, Bool.or_right_comm]
  exact congrArg (fun blocks => { c with blocks }) (marks c.blocks)

theorem resolve_commute (key key' : String × Int × DataKind) :
    Function.Commute (resolve key) (resolve key') := by
  intro c
  have changes : Function.Commute
      (touch key fun old => old.map fun f : StoredFailure => { f with resolved := true })
      (touch key' fun old => old.map fun f : StoredFailure => { f with resolved := true }) :=
    touch_commute fun _ => .refl _
  exact congrArg (fun failures => { c with failures }) (changes c.failures)

/-- Recording a failure commutes with resolving another one. -/
theorem recordFailure_commute_resolve {r : FailureRecord} {key : String × Int × DataKind}
    (other : r.key ≠ key) : Function.Commute (recordFailure r) (resolve key) := by
  intro c
  have changes : Function.Commute
      (touch r.key fun old : Option StoredFailure => some {
        record := r, attempts := (old.map (·.attempts)).getD 0 + 1, resolved := false })
      (touch key fun old => old.map fun f : StoredFailure => { f with resolved := true }) :=
    touch_commute fun same => absurd same other
  exact congrArg (fun failures => { c with failures }) (changes c.failures)

theorem recordFailure_commute {r r' : FailureRecord} (other : r.key ≠ r'.key) :
    Function.Commute (recordFailure r) (recordFailure r') := by
  intro c
  have changes : Function.Commute
      (touch r.key fun old : Option StoredFailure => some {
        record := r, attempts := (old.map (·.attempts)).getD 0 + 1, resolved := false })
      (touch r'.key fun old : Option StoredFailure => some {
        record := r', attempts := (old.map (·.attempts)).getD 0 + 1, resolved := false }) :=
    touch_commute fun same => absurd same other
  exact congrArg (fun failures => { c with failures }) (changes c.failures)

/-- Transactions of different hashes do not cover each other. -/
theorem putTxs_commute {chainId chainId' : String} {new new' : List TxRecord}
    (apart : ∀ tx ∈ new, ∀ tx' ∈ new', tx.hash ≠ tx'.hash) :
    Function.Commute (putTxs chainId new) (putTxs chainId' new') := by
  intro old
  funext key
  unfold putTxs
  cases found : new.reverse.find? fun tx => (chainId, tx.hash) == key with
  | none => rfl
  | some tx =>
    cases found' : new'.reverse.find? fun tx => (chainId', tx.hash) == key with
    | none => rfl
    | some tx' =>
      have here : (chainId, tx.hash) = key := by simpa using List.find?_some found
      have here' : (chainId', tx'.hash) = key := by simpa using List.find?_some found'
      have mem := List.mem_reverse.mp (List.mem_of_find?_eq_some found)
      have mem' := List.mem_reverse.mp (List.mem_of_find?_eq_some found')
      exact absurd (congrArg Prod.snd (here.trans here'.symm)) (apart tx mem tx' mem')

theorem storeTxs_commute {b b' : TxBatch} (other : (b.chainId, b.height) ≠ (b'.chainId, b'.height))
    (apart : ∀ tx ∈ b.txs, ∀ tx' ∈ b'.txs, tx.hash ≠ tx'.hash) :
    Function.Commute (storeTxs b) (storeTxs b') := by
  intro c
  unfold storeTxs
  ext1 <;> dsimp only
  · exact putTxs_commute apart c.txs
  · exact Function.update_comm (Ne.symm other) _ _ _

theorem storeEvents_commute {b b' : EventBatch}
    (other : (b.chainId, b.height) ≠ (b'.chainId, b'.height)) :
    Function.Commute (storeEvents b) (storeEvents b') := by
  intro c
  unfold storeEvents
  ext1 <;> dsimp only
  exact Function.update_comm (Ne.symm other) _ _ _

end Contents

namespace StoreEffect

/-- What the call does to the record of a failure. -/
def file : StoreEffect → Contents → Contents
  | recorded r => Contents.recordFailure r
  | missed _ => id
  | wroteTxs b =>
    if b.isComplete then Contents.resolve (b.chainId, b.height, .transactions) else id
  | wroteEvents b => Contents.resolve (b.chainId, b.height, .blockEvents)

theorem file_wroteTxs (b : TxBatch) : (wroteTxs b).file =
    if b.isComplete then Contents.resolve (b.chainId, b.height, .transactions) else id := rfl

theorem file_of_incomplete {b : TxBatch} (partly : b.isComplete = false) :
    (wroteTxs b).file = id := by
  rw [file_wroteTxs, partly]
  rfl

/-- What the call marks. -/
def markings : StoreEffect → Contents → Contents
  | wroteTxs b => Contents.mark (b.chainId, b.height) b.isComplete false
  | wroteEvents b => Contents.mark (b.chainId, b.height) false true
  | _ => id

/-- What the call stores. -/
def store : StoreEffect → Contents → Contents
  | wroteTxs b => Contents.storeTxs b
  | wroteEvents b => Contents.storeEvents b
  | _ => id

theorem onContents_eq_parts (e : StoreEffect) : e.onContents = e.file ∘ e.markings ∘ e.store := by
  cases e with
  | recorded r => rfl
  | missed r => rfl
  | wroteEvents b => rfl
  | wroteTxs b =>
    funext c
    change Contents.writeTxs b c = (wroteTxs b).file _
    rw [file_wroteTxs]
    unfold Contents.writeTxs
    dsimp only
    split <;> rfl

/-- The chain, height and kind that the call is about. -/
def key : StoreEffect → String × Int × DataKind
  | recorded r => r.key
  | missed r => r.key
  | wroteTxs b => (b.chainId, b.height, .transactions)
  | wroteEvents b => (b.chainId, b.height, .blockEvents)

/-- The transactions that the call stores. -/
def txs : StoreEffect → List TxRecord
  | wroteTxs b => b.txs
  | _ => []

/-- Two calls that may come in either order. -/
inductive Compatible : StoreEffect → StoreEffect → Prop
  | same (e) : Compatible e e
  | apart {e e'} (keys : e.key ≠ e'.key)
    (hashes : ∀ tx ∈ e.txs, ∀ tx' ∈ e'.txs, tx.hash ≠ tx'.hash) : Compatible e e'
  | incomplete {r b} (partly : b.isComplete = false) : Compatible (recorded r) (wroteTxs b)
  | incomplete' {r b} (partly : b.isComplete = false) : Compatible (wroteTxs b) (recorded r)

/-- A call records a failure, resolves one, or files nothing. -/
theorem file_cases (e : StoreEffect) :
    (∃ r, e = recorded r) ∨ e.file = Contents.resolve e.key ∨ e.file = id := by
  cases e with
  | recorded r => exact .inl ⟨r, rfl⟩
  | missed r => exact .inr (.inr rfl)
  | wroteEvents b => exact .inr (.inl rfl)
  | wroteTxs b =>
    rw [file_wroteTxs]
    split
    · exact .inr (.inl rfl)
    · exact .inr (.inr rfl)

/-! ## Parts among each other -/

theorem file_commute_markings (e e' : StoreEffect) : Function.Commute e.file e'.markings := by
  rcases file_cases e with ⟨r, rfl⟩ | resolves | nothing
  · cases e' <;> intro c <;> rfl
  · rw [resolves]
    cases e' <;> intro c <;> rfl
  · rw [nothing]
    exact .id_left

theorem file_commute_store (e e' : StoreEffect) : Function.Commute e.file e'.store := by
  rcases file_cases e with ⟨r, rfl⟩ | resolves | nothing
  · cases e' <;> intro c <;> rfl
  · rw [resolves]
    cases e' <;> intro c <;> rfl
  · rw [nothing]
    exact .id_left

theorem markings_commute_store (e e' : StoreEffect) : Function.Commute e.markings e'.store := by
  cases e <;> cases e' <;> intro c <;> rfl

theorem markings_commute (e e' : StoreEffect) : Function.Commute e.markings e'.markings := by
  cases e <;> cases e' <;>
    first | exact .id_left | exact .id_right | exact Contents.mark_commute _ _ _ _ _ _

theorem file_commute {e e' : StoreEffect} (keys : e.key ≠ e'.key) :
    Function.Commute e.file e'.file := by
  rcases file_cases e with ⟨r, rfl⟩ | resolves | nothing
  · rcases file_cases e' with ⟨r', rfl⟩ | resolves' | nothing'
    · exact Contents.recordFailure_commute keys
    · rw [resolves']
      exact Contents.recordFailure_commute_resolve keys
    · rw [nothing']
      exact .id_right
  · rw [resolves]
    rcases file_cases e' with ⟨r', rfl⟩ | resolves' | nothing'
    · exact (Contents.recordFailure_commute_resolve (Ne.symm keys)).symm
    · rw [resolves']
      exact Contents.resolve_commute _ _
    · rw [nothing']
      exact .id_right
  · rw [nothing]
    exact .id_left

theorem store_commute {e e' : StoreEffect} (keys : e.key ≠ e'.key)
    (hashes : ∀ tx ∈ e.txs, ∀ tx' ∈ e'.txs, tx.hash ≠ tx'.hash) :
    Function.Commute e.store e'.store := by
  cases e with
  | recorded r => exact .id_left
  | missed r => exact .id_left
  | wroteTxs b =>
    cases e' with
    | recorded r => exact .id_right
    | missed r => exact .id_right
    | wroteTxs b' =>
      refine Contents.storeTxs_commute (fun same => keys ?_) hashes
      obtain ⟨chain, height⟩ := Prod.ext_iff.mp same
      exact congrArg₂ (fun chain height => (chain, height, DataKind.transactions)) chain height
    | wroteEvents b' => exact fun c => rfl
  | wroteEvents b =>
    cases e' with
    | recorded r => exact .id_right
    | missed r => exact .id_right
    | wroteTxs b' => exact fun c => rfl
    | wroteEvents b' =>
      refine Contents.storeEvents_commute fun same => keys ?_
      obtain ⟨chain, height⟩ := Prod.ext_iff.mp same
      exact congrArg₂ (fun chain height => (chain, height, DataKind.blockEvents)) chain height

/-! ## Calls -/

theorem commute_of_parts {e e' : StoreEffect} (file : Function.Commute e.file e'.file)
    (store : Function.Commute e.store e'.store) : Function.Commute e.onContents e'.onContents := by
  rw [onContents_eq_parts, onContents_eq_parts]
  refine .comp_left (.comp_right file (.comp_right (file_commute_markings e e')
    (file_commute_store e e'))) (.comp_left ?_ ?_)
  · exact .comp_right (file_commute_markings e' e).symm
      (.comp_right (markings_commute e e') (markings_commute_store e e'))
  · exact .comp_right (file_commute_store e' e).symm
      (.comp_right (markings_commute_store e' e).symm store)

theorem Compatible.commute {e e' : StoreEffect} (h : e.Compatible e') :
    Function.Commute e.onContents e'.onContents := by
  cases h with
  | same => exact .refl _
  | apart keys hashes => exact commute_of_parts (file_commute keys) (store_commute keys hashes)
  | incomplete partly =>
    exact commute_of_parts (by rw [file_of_incomplete partly]; exact .id_right) .id_left
  | incomplete' partly =>
    exact commute_of_parts (by rw [file_of_incomplete partly]; exact .id_left) .id_right

end StoreEffect

/-- **Compatible calls leave the same contents in every order.** -/
theorem Contents.replay_perm {es fs : List StoreEffect} (order : es.Perm fs)
    (compatible : ∀ e ∈ es, ∀ e' ∈ es, e.Compatible e') (c : Contents) :
    c.replay es = c.replay fs :=
  order.foldl_eq' (fun e he e' he' c => ((compatible e he e' he').commute c).symm) c

end ChainIndex
