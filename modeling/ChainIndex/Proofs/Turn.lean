/-
What a turn of a run does, said once. Everything that is under way is a token: a
request that waits, the rest of fetching one, a fetched height, a failure to note,
a batch to write, the rest of writing some. A turn uses up some tokens, makes some,
and changes the world; it leaves all the others alone. In what order tokens wait,
and for whom, is of no matter. The enqueuer's calls are other actors' turns,
pushes, and calls on the world, so that a whole run is a path of such steps.
-/
import ChainIndex.Pipeline.Basic
import ChainIndex.Proofs.Client
import Mathlib.Algebra.Order.Group.Multiset
import Mathlib.Logic.Relation
import Mathlib.Tactic.Abel

namespace ChainIndex

/-- Something that is under way. -/
inductive Token (σ : Type) where
  | request (r : Request)
  | fetching (rest : Unending σ (Option FetchedBlock))
  | fetched (d : FetchedBlock)
  | report (height : Int) (kind : DataKind) (reason : FailureReason)
  | batch (w : WriteRequest)
  | writing (rest : Unending σ (Except PipelineError WriterState))

namespace Token

variable {σ : Type}

def ofLoad : WorkerLoad σ → Token σ
  | .asked _ rest => .fetching rest
  | .holds d => .fetched d

def ofReport : Int × DataKind × FailureReason → Token σ
  | (height, kind, reason) => .report height kind reason

/-- What the writer has in hand. -/
def ofWriter : WriterLoad σ → List (Token σ)
  | .waits w => w.batch.map .batch
  | .writes rest => [.writing rest]

end Token

namespace RunState

variable {σ : Type}

/-- Everything that is under way in a run. -/
def tokens (s : RunState σ) : List (Token σ) :=
  s.requests.toList.map .request ++ s.loads.map .ofLoad ++ s.fetched.map .fetched ++
    s.reports.map .ofReport ++ s.outbox.map .batch ++ s.batches.map .batch ++ Token.ofWriter s.writer

end RunState

namespace Pipeline

variable {σ : Type} (p : Pipeline σ)

/-- What comes of a fetched height. -/
def processed (d : FetchedBlock) : List (Token σ) :=
  (p.processor.outcome d).failures.map (fun f => .report d.block.height f.1 f.2) ++
    (p.processor.outcome d).requests.map .batch

/-- A turn in a world: the tokens that it uses up, the world before and after it,
and the tokens that it makes. -/
inductive Turn : List (Token σ) → σ → σ → List (Token σ) → Prop
  | idle (s) : Turn [] s s []
  | take (r s) : Turn [.request r] s s [.fetching (p.fetcher.fetch r)]
  | fetch (rest effect s) : Turn [.fetching (.call rest effect)] s (effect s) [.fetching (rest s)]
  | got (d s) : Turn [.fetching (.done (some d))] s s [.fetched d]
  | gone (s) : Turn [.fetching (.done none)] s s []
  | process (d s) : Turn [.fetched d] s s (p.processed d)
  | note (height kind reason s) : Turn [.report height kind reason] s
    ((p.store.note p.processor.config.chain height kind reason).run s).2 []
  | receive (w r s) : Turn (w.batch.map .batch ++ [.batch r]) s s
    [.writing (p.writer.receive r w).outcome]
  | flush (w s) : Turn (w.batch.map .batch) s s [.writing (p.writer.flush w).outcome]
  | write (rest effect s) : Turn [.writing (.call rest effect)] s (effect s) [.writing (rest s)]
  | written (w s) : Turn [.writing (.done (.ok w))] s s (w.batch.map .batch)

/-- From one state to another there is a turn that leaves all else alone. -/
def Moves (s s' : RunState σ) : Prop :=
  ∃ used made : List (Token σ), ∃ others : Multiset (Token σ), (s.tokens : Multiset (Token σ)) = ↑used + others ∧
    (s'.tokens : Multiset (Token σ)) = ↑made + others ∧ p.Turn used s.world s'.world made

variable {p}

theorem Moves.of_same {s s' : RunState σ} (world : s'.world = s.world)
    (same : (s'.tokens : Multiset (Token σ)) = s.tokens) : p.Moves s s' := by
  refine ⟨[], [], s.tokens, (zero_add _).symm, same.trans (zero_add _).symm, ?_⟩
  rw [world]
  exact .idle s.world

theorem Moves.refl (s : RunState σ) : p.Moves s s := .of_same rfl rfl

/-! ## Every turn -/

/-- A list around one of its places. -/
theorem around {α : Type} {xs : List α} {i : Nat} {x : α} (h : xs[i]? = some x) :
    ∃ before after, xs = before ++ x :: after ∧ (∀ y, xs.set i y = before ++ y :: after) ∧
      xs.eraseIdx i = before ++ after := by
  obtain ⟨short, rfl⟩ := List.getElem?_eq_some_iff.mp h
  refine ⟨xs.take i, xs.drop (i + 1), ?_, fun y => ?_, ?_⟩
  · rw [List.getElem_cons_drop, List.take_append_drop]
  · rw [List.set_eq_take_append_cons_drop, if_pos short]
  · rw [List.eraseIdx_eq_take_drop_succ]

theorem coe_cons {α : Type} (x : α) (xs : List α) : (↑(x :: xs) : Multiset α) = {x} + ↑xs := rfl

/-- The tokens of the stages, each on its own. -/
theorem coe_tokens (s : RunState σ) : (s.tokens : Multiset (Token σ)) =
    ↑(s.requests.toList.map Token.request : List (Token σ)) + ↑(s.loads.map Token.ofLoad) +
      ↑(s.fetched.map Token.fetched : List (Token σ)) +
      ↑(s.reports.map Token.ofReport : List (Token σ)) +
      ↑(s.outbox.map Token.batch : List (Token σ)) +
      ↑(s.batches.map Token.batch : List (Token σ)) + ↑(Token.ofWriter s.writer) := by
  simp only [RunState.tokens, Multiset.coe_add]

theorem moves_take (s : RunState σ) : p.Moves s (p.take s) := by
  unfold take
  split
  · split
    · next r requests popped =>
      refine ⟨[.request r], [.fetching (p.fetcher.fetch r)],
        ↑({ s with requests }.tokens), ?_, ?_, .take r s.world⟩
      · simp only [coe_tokens, Fifo.toList_of_pop? popped, List.map_cons, coe_cons]
        abel
      · simp only [coe_tokens, List.map_append, List.map_cons, List.map_nil, Token.ofLoad,
          ← Multiset.coe_add]
        abel
    · exact .refl s
  · exact .refl s

theorem moves_fetch (worker : Nat) (s : RunState σ) : p.Moves s (fetch worker s) := by
  unfold fetch
  split
  · next r rest effect found =>
    obtain ⟨before, after, loads, set, -⟩ := around found
    refine ⟨[.fetching (.call rest effect)], [.fetching (rest s.world)],
      ↑({ s with loads := before ++ after }.tokens), ?_, ?_, .fetch rest effect s.world⟩
    · simp only [coe_tokens, loads, List.map_append, List.map_cons, Token.ofLoad,
        ← Multiset.coe_add, coe_cons]
      abel
    · simp only [coe_tokens, set, List.map_append, List.map_cons, Token.ofLoad,
        ← Multiset.coe_add, coe_cons]
      abel
  · next r d found =>
    obtain ⟨before, after, loads, set, -⟩ := around found
    refine ⟨[.fetching (.done (some d))], [.fetched d],
      ↑({ s with loads := before ++ after }.tokens), ?_, ?_, .got d s.world⟩
    · simp only [coe_tokens, loads, List.map_append, List.map_cons, Token.ofLoad,
        ← Multiset.coe_add, coe_cons]
      abel
    · simp only [coe_tokens, set, List.map_append, List.map_cons, Token.ofLoad,
        ← Multiset.coe_add, coe_cons]
      abel
  · next r found =>
    obtain ⟨before, after, loads, -, erase⟩ := around found
    refine ⟨[.fetching (.done none)], [],
      ↑({ s with loads := before ++ after }.tokens), ?_, ?_, .gone s.world⟩
    · simp only [coe_tokens, loads, List.map_append, List.map_cons, Token.ofLoad,
        ← Multiset.coe_add, coe_cons]
      abel
    · rw [erase]
      exact (zero_add _).symm
  · exact .refl s

theorem moves_deliver (worker : Nat) (s : RunState σ) : p.Moves s (p.deliver worker s) := by
  unfold deliver
  split
  · next d found =>
    split
    · obtain ⟨before, after, loads, -, erase⟩ := around found
      refine .of_same rfl ?_
      rw [coe_tokens, coe_tokens]
      dsimp only
      rw [erase, loads]
      simp only [List.map_append, List.map_cons, List.map_nil,
        Token.ofLoad, ← Multiset.coe_add, coe_cons,
        Multiset.coe_nil]
      abel
    · exact .refl s
  · exact .refl s

theorem moves_process (s : RunState σ) : p.Moves s (p.process s) := by
  unfold process
  split
  · next d fetched reports outbox first =>
    refine ⟨[.fetched d], p.processed d, ↑({ s with fetched }.tokens), ?_, ?_, .process d s.world⟩
    · simp only [coe_tokens, first, List.map_cons, coe_cons]
      abel
    · simp only [coe_tokens, reports, outbox, processed, List.map_map, Function.comp_def,
        Token.ofReport, List.map_nil, ← Multiset.coe_add, Multiset.coe_nil]
      abel
  · exact .refl s

theorem moves_note (s : RunState σ) : p.Moves s (p.note s) := by
  unfold note
  split
  · next height kind reason reports first =>
    refine ⟨[.report height kind reason], [], ↑({ s with reports }.tokens), ?_, (zero_add _).symm,
      .note height kind reason s.world⟩
    simp only [coe_tokens, first, List.map_cons, Token.ofReport, coe_cons]
    abel
  · exact .refl s

theorem moves_send (s : RunState σ) : p.Moves s (p.send s) := by
  unfold send
  split
  · next r outbox _ first =>
    split
    · refine .of_same rfl ?_
      simp only [coe_tokens, first, List.map_append, List.map_cons, List.map_nil,
        ← Multiset.coe_add, coe_cons, Multiset.coe_nil]
      abel
    · exact .refl s
  · exact .refl s

theorem moves_receive (s : RunState σ) : p.Moves s (p.receive s) := by
  unfold receive
  split
  · next w r batches waits first =>
    refine ⟨w.batch.map .batch ++ [.batch r], [.writing (p.writer.receive r w).outcome],
      ↑({ s with batches, writer := .waits ⟨[], w.summary⟩ }.tokens), ?_, ?_,
      .receive w r s.world⟩
    · simp only [coe_tokens, waits, first, Token.ofWriter, List.map_cons, List.map_nil,
        ← Multiset.coe_add, coe_cons,
        Multiset.coe_nil]
      abel
    · simp only [coe_tokens, Token.ofWriter, List.map_nil, Multiset.coe_nil]
      abel
  · exact .refl s

theorem moves_tick (s : RunState σ) : p.Moves s (p.tick s) := by
  unfold tick
  split
  · next w waits =>
    refine ⟨w.batch.map .batch, [.writing (p.writer.flush w).outcome],
      ↑({ s with writer := .waits ⟨[], w.summary⟩ }.tokens), ?_, ?_, .flush w s.world⟩
    · simp only [coe_tokens, waits, Token.ofWriter, List.map_nil, Multiset.coe_nil]
      abel
    · simp only [coe_tokens, Token.ofWriter, List.map_nil, Multiset.coe_nil]
      abel
  · exact .refl s

theorem moves_write (s : RunState σ) : p.Moves s (write s) := by
  unfold write
  split
  · next rest effect writes =>
    refine ⟨[.writing (.call rest effect)], [.writing (rest s.world)],
      ↑({ s with writer := .waits .start }.tokens), ?_, ?_, .write rest effect s.world⟩
    · simp only [coe_tokens, writes, Token.ofWriter, WriterState.start, List.map_nil,
        Multiset.coe_nil]
      abel
    · simp only [coe_tokens, Token.ofWriter, WriterState.start, List.map_nil, Multiset.coe_nil]
      abel
  · next w writes =>
    refine ⟨[.writing (.done (.ok w))], w.batch.map .batch,
      ↑({ s with writer := .waits .start }.tokens), ?_, ?_, .written w s.world⟩
    · simp only [coe_tokens, writes, Token.ofWriter, WriterState.start, List.map_nil,
        Multiset.coe_nil]
      abel
    · simp only [coe_tokens, Token.ofWriter, WriterState.start, List.map_nil, Multiset.coe_nil]
      abel
  · exact .of_same rfl rfl
  · exact .refl s

/-- **An action is a turn.** Whatever an actor does next, it uses up and makes what
its turn says and leaves everything else as it is. -/
theorem moves_act (a : Action) (s : RunState σ) : p.Moves s (p.act a s) := by
  unfold act
  split
  · exact .refl s
  · cases a with
    | take => exact moves_take s
    | fetch worker => exact moves_fetch worker s
    | deliver worker => exact moves_deliver worker s
    | process => exact moves_process s
    | note => exact moves_note s
    | send => exact moves_send s
    | receive => exact moves_receive s
    | tick => exact moves_tick s
    | write => exact moves_write s

/-- No turn pushes a request, and only the writer's error ends a run. -/
theorem act_frame (a : Action) (s : RunState σ) :
    (p.act a s).pushed = s.pushed ∧
      ((p.act a s).failure = s.failure ∨ ∃ e, s.writer = .writes (.done (.error e))) := by
  unfold act
  split
  · exact ⟨rfl, .inl rfl⟩
  · cases a with
    | take =>
      dsimp only [take]
      split
      · split <;> exact ⟨rfl, .inl rfl⟩
      · exact ⟨rfl, .inl rfl⟩
    | deliver worker =>
      dsimp only [deliver]
      split
      · split <;> exact ⟨rfl, .inl rfl⟩
      · exact ⟨rfl, .inl rfl⟩
    | send =>
      dsimp only [send]
      split
      · split <;> exact ⟨rfl, .inl rfl⟩
      · exact ⟨rfl, .inl rfl⟩
    | write =>
      dsimp only [write]
      split
      · exact ⟨rfl, .inl rfl⟩
      · exact ⟨rfl, .inl rfl⟩
      · next e failed => exact ⟨rfl, .inr ⟨e, failed⟩⟩
      · exact ⟨rfl, .inl rfl⟩
    | fetch worker => dsimp only [fetch]; split <;> exact ⟨rfl, .inl rfl⟩
    | process => dsimp only [process]; split <;> exact ⟨rfl, .inl rfl⟩
    | note => dsimp only [note]; split <;> exact ⟨rfl, .inl rfl⟩
    | receive => dsimp only [receive]; split <;> exact ⟨rfl, .inl rfl⟩
    | tick => dsimp only [tick]; split <;> exact ⟨rfl, .inl rfl⟩

end Pipeline

end ChainIndex
