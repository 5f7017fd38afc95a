/-
What a run does to a store, call by call. A `StoreEffect` is one writing call
with its outcome; reading calls and failing writes have none. `replay` applies
the effects of a run to a memory, and what is indexed or unresolved afterwards
is read off the effects. What is settled stays settled whatever comes after: a
failure is resolved only by the write that indexes its kind.
-/
import ChainIndex.Proofs.Contents

namespace ChainIndex

/-- A call that wrote to a store, or a failure that could not be recorded. -/
inductive StoreEffect where
  | recorded (r : FailureRecord)
  | missed (r : FailureRecord)
  | wroteTxs (b : TxBatch)
  | wroteEvents (b : EventBatch)

namespace StoreEffect

def apply : StoreEffect → MemoryStore → MemoryStore
  | recorded r, m => m.recordFailure r
  | missed _, m => m
  | wroteTxs b, m => m.writeTxs b
  | wroteEvents b, m => m.writeEvents b

/-- The same of contents. -/
def onContents : StoreEffect → Contents → Contents
  | recorded r, c => c.recordFailure r
  | missed _, c => c
  | wroteTxs b, c => c.writeTxs b
  | wroteEvents b, c => c.writeEvents b

/-- The height that the call was about. -/
def height : StoreEffect → Int
  | recorded r => r.height
  | missed r => r.height
  | wroteTxs b => b.height
  | wroteEvents b => b.height

/-- The chain, height and kind whose index flag the call set. -/
def indexes? : StoreEffect → Option (String × Int × DataKind)
  | wroteTxs b => if b.isComplete then some (b.chainId, b.height, .transactions) else none
  | wroteEvents b => some (b.chainId, b.height, .blockEvents)
  | _ => none

/-- The chain, height and kind whose failure the call recorded. -/
def fails? : StoreEffect → Option (String × Int × DataKind)
  | recorded r => some r.key
  | _ => none

/-- The failure could not be recorded. -/
def isMissed : StoreEffect → Bool
  | missed _ => true
  | _ => false

theorem contents_apply (e : StoreEffect) (m : MemoryStore) :
    (e.apply m).contents = e.onContents m.contents := by
  cases e with
  | recorded r => exact m.contents_recordFailure r
  | missed r => rfl
  | wroteTxs b => exact m.contents_writeTxs b
  | wroteEvents b => exact m.contents_writeEvents b

variable {c : Contents} {chainId : String} {height : Int} {kind : DataKind}

/-- A flag is set by the calls that index its kind, and by no others. -/
theorem isIndexed_onContents (e : StoreEffect) :
    (e.onContents c).isIndexed chainId height kind =
      (c.isIndexed chainId height kind ||
        decide (e.indexes? = some (chainId, height, kind))) := by
  cases e with
  | recorded r => simp [onContents, indexes?]
  | missed r => simp [onContents, indexes?]
  | wroteTxs b =>
    rw [onContents, Contents.isIndexed_writeTxs]
    cases complete : b.isComplete <;> cases kind <;>
      simp [indexes?, complete, BlockStatus.has, eq_comm]
  | wroteEvents b =>
    rw [onContents, Contents.isIndexed_writeEvents]
    cases kind <;> simp [indexes?, BlockStatus.has, eq_comm]

/-- A failure is resolved by the calls that index its kind, and by no others. -/
theorem isUnresolved_onContents (e : StoreEffect) :
    (e.onContents c).isUnresolved chainId height kind =
      (c.isUnresolved chainId height kind &&
          !decide (e.indexes? = some (chainId, height, kind)) ||
        decide (e.fails? = some (chainId, height, kind))) := by
  cases e with
  | recorded r =>
    rw [onContents, Contents.isUnresolved_recordFailure]
    simp [indexes?, fails?, eq_comm]
  | missed r => simp [onContents, indexes?, fails?]
  | wroteTxs b =>
    rw [onContents, Contents.isUnresolved_writeTxs]
    cases complete : b.isComplete <;> simp [indexes?, fails?, complete, eq_comm]
  | wroteEvents b =>
    rw [onContents, Contents.isUnresolved_writeEvents]
    simp [indexes?, fails?, eq_comm]

/-- Nothing that is settled is lost by a later call. -/
theorem isSettled_onContents (e : StoreEffect) (h : c.IsSettled chainId height kind) :
    (e.onContents c).IsSettled chainId height kind := by
  unfold Contents.IsSettled at h ⊢
  rw [isIndexed_onContents, isUnresolved_onContents]
  rcases h with indexed | unresolved
  · simp [indexed]
  · by_cases same : e.indexes? = some (chainId, height, kind) <;> simp [unresolved, same]

/-- The call indexes a kind of a height or records its failure. -/
def Settles (e : StoreEffect) (chainId : String) (height : Int) (kind : DataKind) : Prop :=
  e.indexes? = some (chainId, height, kind) ∨ e.fails? = some (chainId, height, kind)

theorem Settles.isSettled {e : StoreEffect} (h : e.Settles chainId height kind) :
    (e.onContents c).IsSettled chainId height kind := by
  unfold Contents.IsSettled
  rw [isIndexed_onContents, isUnresolved_onContents]
  rcases h with indexes | fails
  · simp [indexes]
  · simp [fails]

end StoreEffect

/-! ## Runs of calls -/

/-- The effects of calls, one after another. -/
def replay (es : List StoreEffect) (m : MemoryStore) : MemoryStore :=
  es.foldl (fun m e => e.apply m) m

namespace Contents

def replay (es : List StoreEffect) (c : Contents) : Contents :=
  es.foldl (fun c e => e.onContents c) c

end Contents

variable {c : Contents} {chainId : String} {height : Int} {kind : DataKind} {es : List StoreEffect}

@[simp] theorem replay_nil (m : MemoryStore) : replay [] m = m := rfl

theorem replay_append (es fs : List StoreEffect) (m : MemoryStore) :
    replay (es ++ fs) m = replay fs (replay es m) :=
  List.foldl_append ..

theorem contents_replay (es : List StoreEffect) (m : MemoryStore) :
    (replay es m).contents = m.contents.replay es := by
  induction es generalizing m with
  | nil => rfl
  | cons e es ih =>
    have step : replay (e :: es) m = replay es (e.apply m) := rfl
    rw [step, ih, e.contents_apply]
    rfl

/-- A flag is set after a run if it was set before or a call of the run set it. -/
theorem isIndexed_replay :
    (c.replay es).isIndexed chainId height kind = true ↔
      c.isIndexed chainId height kind = true ∨
        ∃ e ∈ es, e.indexes? = some (chainId, height, kind) := by
  induction es generalizing c with
  | nil => simp [Contents.replay]
  | cons e es ih =>
    have step : c.replay (e :: es) = (e.onContents c).replay es := rfl
    rw [step, ih, StoreEffect.isIndexed_onContents]
    simp only [Bool.or_eq_true, decide_eq_true_eq, List.mem_cons, exists_eq_or_imp, or_assoc]

/-- If no call of a run records the failure of a kind, it is unresolved after
the run only if it was before and no call indexed the kind. -/
theorem isUnresolved_replay (calm : ∀ e ∈ es, e.fails? ≠ some (chainId, height, kind)) :
    (c.replay es).isUnresolved chainId height kind = true ↔
      c.isUnresolved chainId height kind = true ∧
        ∀ e ∈ es, e.indexes? ≠ some (chainId, height, kind) := by
  induction es generalizing c with
  | nil => simp [Contents.replay]
  | cons e es ih =>
    have step : c.replay (e :: es) = (e.onContents c).replay es := rfl
    rw [step, ih fun f hf => calm f (List.mem_cons_of_mem e hf), StoreEffect.isUnresolved_onContents]
    simp [calm e List.mem_cons_self, and_assoc]

theorem Contents.IsSettled.replay (h : c.IsSettled chainId height kind) :
    (c.replay es).IsSettled chainId height kind := by
  induction es generalizing c with
  | nil => exact h
  | cons e es ih => exact ih (e.isSettled_onContents h)

/-- A kind is settled after a run in which a call settled it. -/
theorem isSettled_replay {e : StoreEffect} (he : e ∈ es) (h : e.Settles chainId height kind) :
    (c.replay es).IsSettled chainId height kind := by
  obtain ⟨before, after, rfl⟩ := List.append_of_mem he
  have split : c.replay (before ++ e :: after) =
      (e.onContents (c.replay before)).replay after := by
    simp only [Contents.replay, List.foldl_append, List.foldl_cons]
  rw [split]
  exact h.isSettled.replay

end ChainIndex
