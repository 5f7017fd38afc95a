/-
Nothing is touched that was not asked for. At every point of a run, whatever is
under way comes from a request that was pushed: it is about the height of that
request, and it indexes a kind only if the request asks for it. So does everything
that was done to the store so far. The node is trusted in one thing here, that the
block it gives for a height has that height.
-/
import ChainIndex.Proofs.Journey
import ChainIndex.Proofs.Path
import Mathlib.Tactic.Tauto

namespace ChainIndex

/-- The kind that a batch is about. -/
def WriteRequest.kind : WriteRequest → DataKind
  | .transactions _ => .transactions
  | .blockEvents _ => .blockEvents

/-! ## Coming from a request -/

variable {rs rs' : List Request}

/-- An effect is about the height of a request, and indexes only what it asks for. -/
def Covers (rs : List Request) (e : StoreEffect) : Prop :=
  ∃ r ∈ rs, r.height = e.height ∧ ∀ key ∈ e.indexes?, r.asks key.2.2 = true

/-- What was fetched was asked for. -/
def Bears (rs : List Request) (d : FetchedBlock) : Prop :=
  ∃ r ∈ rs, r.height = d.block.height ∧ (r.blockEvents = true ∨ d.results = .notAsked) ∧
    (r.transactions = true ∨ d.txs = .notAsked)

/-- What is to be written was asked for. -/
def Admits (rs : List Request) (w : WriteRequest) : Prop :=
  ∃ r ∈ rs, r.height = w.height ∧ r.asks w.kind = true

theorem Covers.mono {e : StoreEffect} (h : Covers rs e) (more : rs ⊆ rs') : Covers rs' e := by
  obtain ⟨r, hr, rest⟩ := h
  exact ⟨r, more hr, rest⟩

theorem Bears.mono {d : FetchedBlock} (h : Bears rs d) (more : rs ⊆ rs') : Bears rs' d := by
  obtain ⟨r, hr, rest⟩ := h
  exact ⟨r, more hr, rest⟩

theorem Admits.mono {w : WriteRequest} (h : Admits rs w) (more : rs ⊆ rs') : Admits rs' w := by
  obtain ⟨r, hr, rest⟩ := h
  exact ⟨r, more hr, rest⟩

namespace Setting

variable {ω : Type} (p : Setting ω) (c : Config)

/-- A block that the node gives for a height has that height. -/
def Honest : Prop := ∀ height b, p.Blocks height (.ok b) → b.height = height

/-- A token comes from a request. -/
def TokenSound (rs : List Request) : Token (Site ω) → Prop
  | .request r => r ∈ rs
  | .fetching rest => rest.Keeps (Covers rs) fun o => ∀ d ∈ o, Bears rs d
  | .fetched d => Bears rs d
  | .report height _ _ => ∃ r ∈ rs, r.height = height
  | .batch w => Admits rs w
  | .writing rest => rest.Keeps (Covers rs) fun
    | .ok w => ∀ b ∈ w.batch, Admits rs b
    | .error _ => p.CanFail

variable {p c}

theorem TokenSound.mono {t : Token (Site ω)} (h : p.TokenSound rs t) (more : rs ⊆ rs') :
    p.TokenSound rs' t := by
  cases t with
  | request r => exact more h
  | fetching rest =>
    exact Unending.Keeps.mono h (fun _ he => he.mono more) fun _ ho d hd => (ho d hd).mono more
  | fetched d => exact Bears.mono h more
  | report height kind reason =>
    obtain ⟨r, hr, same⟩ := h
    exact ⟨r, more hr, same⟩
  | batch w => exact Admits.mono h more
  | writing rest =>
    refine Unending.Keeps.mono h (fun _ he => he.mono more) fun o ho => ?_
    cases o with
    | ok w => exact fun b hb => (ho b hb).mono more
    | error e => exact ho

/-! ## Fetching -/

theorem keeps_note {height : Int} {kind : DataKind} {reason : FailureReason}
    (h : ∃ r ∈ rs, r.height = height) :
    (Unending.ofState (p.store.note c.chain height kind reason)).Keeps (Covers rs)
      fun _ => True := by
  obtain ⟨r, hr, rfl⟩ := h
  refine Unending.keeps_ofState fun s => ⟨?_, trivial⟩
  rcases emits_write (p.fault (.recordFailure (c.failure r.height kind reason)))
      [.recorded (c.failure r.height kind reason)] [.missed (c.failure r.height kind reason)] s with
    ⟨-, recorded⟩ | ⟨-, -, missed⟩
  · refine ⟨_, recorded, fun e he => ?_⟩
    obtain rfl := List.mem_singleton.mp he
    exact ⟨r, hr, rfl, fun _ hk => nomatch hk⟩
  · refine ⟨_, missed, fun e he => ?_⟩
    obtain rfl := List.mem_singleton.mp he
    exact ⟨r, hr, rfl, fun _ hk => nomatch hk⟩

theorem keeps_results {height : Int} (h : ∃ r ∈ rs, r.height = height) :
    ((p.pipeline c).fetcher.results height).Keeps (Covers rs) fun _ => True := by
  refine (Unending.keeps_of_quiet (p.always_client.blockResults height)).bind fun answer _ => ?_
  cases answer with
  | ok results => trivial
  | error e => exact (keeps_note h).bind fun _ _ => trivial

theorem keeps_txs {height : Int} (h : ∃ r ∈ rs, r.height = height)
    (results? : Option BlockResults) :
    ((p.pipeline c).fetcher.txs height results?).Keeps (Covers rs) fun _ => True := by
  refine (Unending.keeps_of_quiet (always_search height)).bind fun found? _ => ?_
  rcases found? with _ | answer
  · rcases results? with _ | results
    · refine (Unending.keeps_of_quiet (p.always_client.blockResults height)).bind fun answer _ => ?_
      cases answer with
      | ok results => trivial
      | error e => exact (keeps_note h).bind fun _ _ => trivial
    · trivial
  · trivial

theorem keeps_ifAsked {α : Type} {P : StoreEffect → Prop} {asked : Bool}
    {x : Unending (Site ω) (Fetched α)} (hx : x.Keeps P fun _ => True) :
    (Fetcher.ifAsked asked x).Keeps P fun f => asked = true ∨ f = .notAsked := by
  cases asked with
  | true => exact hx.mono (fun _ he => he) fun _ _ => .inl rfl
  | false => exact .inr rfl

theorem keeps_fetch (honest : p.Honest) {r : Request} (hr : r ∈ rs) :
    ((p.pipeline c).fetcher.fetch r).Keeps (Covers rs) fun o => ∀ d ∈ o, Bears rs d := by
  have here : ∃ r' ∈ rs, r'.height = r.height := ⟨r, hr, rfl⟩
  have asked : (Unending.ofState (p.client.node.block r.height).outcome).Keeps (Covers rs)
      fun answer => ∀ b, answer = .ok b → b.height = r.height := by
    refine Unending.keeps_ofState fun s => ⟨⟨[], p.always_client.node.block r.height s, ?_⟩, ?_⟩
    · exact fun _ h => absurd h List.not_mem_nil
    · exact fun b hb => honest r.height b ⟨s.outside, hb⟩
  refine asked.bind fun answer right => ?_
  cases answer with
  | error e =>
    have noted : ((p.pipeline c).fetcher.noteNoBlock r).Keeps (Covers rs) fun _ => True := by
      refine (keeps_note here).bind fun _ _ => ?_
      split
      · exact keeps_note here
      · trivial
    exact noted.bind fun _ _ d hd => nomatch hd
  | ok block =>
    refine (keeps_ifAsked (keeps_results here)).bind fun results hresults => ?_
    refine (keeps_ifAsked (keeps_txs here _)).bind fun txs htxs d hd => ?_
    cases hd
    exact ⟨r, hr, (right block rfl).symm, hresults, htxs⟩

/-! ## Processing -/

theorem admits_outcome {d : FetchedBlock} (h : Bears rs d) {w : WriteRequest}
    (hw : w ∈ ((p.processor c).outcome d).requests) : Admits rs w := by
  obtain ⟨r, hr, height, events, txs⟩ := h
  rcases List.mem_append.mp hw with hw | hw
  · rcases txs with asked | notAsked
    · unfold Processor.txOutcome at hw
      split at hw
      · obtain rfl := List.mem_singleton.mp hw
        exact ⟨r, hr, height, asked⟩
      · exact absurd hw List.not_mem_nil
    · rw [notAsked] at hw
      exact absurd hw List.not_mem_nil
  · rcases events with asked | notAsked
    · unfold Processor.eventOutcome at hw
      split at hw
      · next results _ =>
        cases batch : (p.processor c).eventBatch d.block results with
        | ok b =>
          rw [batch] at hw
          obtain rfl := List.mem_singleton.mp hw
          exact ⟨r, hr, height.trans (Processor.eventBatch_ok batch).2.symm, asked⟩
        | error why =>
          rw [batch] at hw
          exact absurd hw List.not_mem_nil
      · exact absurd hw List.not_mem_nil
    · rw [notAsked] at hw
      exact absurd hw List.not_mem_nil

theorem processed_sound {d : FetchedBlock} (h : Bears rs d) :
    ∀ t ∈ (p.pipeline c).processed d, p.TokenSound rs t := by
  intro t ht
  rcases List.mem_append.mp ht with ht | ht
  · obtain ⟨f, -, rfl⟩ := List.mem_map.mp ht
    obtain ⟨r, hr, height, -⟩ := h
    exact ⟨r, hr, height⟩
  · obtain ⟨w, hw, rfl⟩ := List.mem_map.mp ht
    exact admits_outcome h hw

/-! ## Writing -/

theorem keeps_call {P : StoreEffect → Prop} {call : StoreCall} {done : List StoreEffect}
    (allowed : ∀ e ∈ done, P e) :
    (Unending.ofState (Site.write (p.fault call) done []).outcome).Keeps P
      fun o => ∀ e, o = .error e → p.CanFail := by
  refine Unending.keeps_ofState fun s => ?_
  rcases emits_write (p.fault call) done [] s with ⟨ok, wrote⟩ | ⟨fault, -, nothing⟩
  · exact ⟨⟨done, wrote, allowed⟩, fun e he => nomatch ok.symm.trans he⟩
  · exact ⟨⟨[], nothing, fun _ h => absurd h List.not_mem_nil⟩, fun _ _ => ⟨call, _, fault⟩⟩

theorem keeps_attempt {P : StoreEffect → Prop} {w : Writer (Site ω)}
    (quiet : ∀ span, (w.pause span).Always Quiet) {call : StoreCall} {done : List StoreEffect}
    (allowed : ∀ e ∈ done, P e) (more : Nat) :
    (w.attempt (Site.write (p.fault call) done []) more).outcome.Keeps P
      fun o => ∀ e, o = .error e → p.CanFail := by
  induction more with
  | zero => exact Task.keeps_ofCall (keeps_call allowed)
  | succ more ih =>
    refine Task.keeps_bind (Task.keeps_ofUnending (keeps_call allowed)) (fun tried _ => ?_) ?_
    · cases tried with
      | ok u => exact fun _ he => nomatch he
      | error e =>
        refine Task.keeps_bind (Task.keeps_ofUnending (Unending.keeps_of_quiet (quiet _)))
          (fun _ _ => ih) ?_
        rintro _ ⟨_, impossible, _⟩
        cases impossible
    · rintro _ ⟨_, impossible, _⟩
      cases impossible

theorem keeps_write {w : WriteRequest} (hw : Admits rs w) (total : WriterSummary) :
    ((p.pipeline c).writer.write total w).outcome.Keeps (Covers rs)
      fun o => ∀ e, o = .error e → p.CanFail := by
  have quiet : ∀ span, ((p.pipeline c).writer.pause span).Always Quiet := p.always_client.pause
  obtain ⟨r, hr, height, asks⟩ := hw
  cases w with
  | transactions b =>
    have allowed : ∀ e ∈ [StoreEffect.wroteTxs b], Covers rs e := by
      intro e he
      obtain rfl := List.mem_singleton.mp he
      refine ⟨r, hr, height, fun key hk => ?_⟩
      change key ∈ (if b.isComplete then some (b.chainId, b.height, .transactions) else none) at hk
      split at hk
      · cases hk
        exact asks
      · cases hk
    have tried : ((p.pipeline c).writer.withRetries (p.store.writeTxs b)).outcome.Keeps (Covers rs)
        fun o => ∀ e, o = .error e → p.CanFail := keeps_attempt quiet allowed _
    have named : (Task.ofTask (Writer.txFailure b.height) ((p.pipeline c).writer.withRetries
        (p.store.writeTxs b))).outcome.Keeps (Covers rs) fun o => ∀ e, o = .error e → p.CanFail := by
      refine tried.bind fun o fails e he => ?_
      cases o with
      | ok u => cases he
      | error e' => exact fails e' rfl
    exact Task.keeps_bind named (fun _ _ _ he => nomatch he) fun e fails e' _ => fails e rfl
  | blockEvents b =>
    have allowed : ∀ e ∈ [StoreEffect.wroteEvents b], Covers rs e := by
      intro e he
      obtain rfl := List.mem_singleton.mp he
      refine ⟨r, hr, height, fun key hk => ?_⟩
      cases hk
      exact asks
    have tried : ((p.pipeline c).writer.withRetries (p.store.writeEvents b)).outcome.Keeps
        (Covers rs) fun o => ∀ e, o = .error e → p.CanFail := keeps_attempt quiet allowed _
    refine Task.keeps_bind (Task.keeps_ofUnending tried) (fun o _ => ?_) ?_
    · cases o with
      | ok u => exact fun _ he => nomatch he
      | error e =>
        refine Task.keeps_bind (Task.keeps_ofUnending (keeps_note (c := c) ⟨r, hr, height⟩))
          (fun _ _ _ he => nomatch he) ?_
        rintro _ ⟨_, impossible, _⟩
        cases impossible
    · rintro _ ⟨_, impossible, _⟩
      cases impossible

theorem keeps_writeAll {batch : List WriteRequest} (hb : ∀ b ∈ batch, Admits rs b)
    (total : WriterSummary) :
    (batch.foldlM (p.pipeline c).writer.write total).outcome.Keeps (Covers rs)
      fun o => ∀ e, o = .error e → p.CanFail := by
  induction batch generalizing total with
  | nil => exact fun _ he => nomatch he
  | cons r batch ih =>
    rw [List.foldlM_cons]
    refine Task.keeps_bind (keeps_write (hb r List.mem_cons_self) total) (fun t _ => ?_)
      fun e fails e' _ => fails e rfl
    exact ih (fun b h => hb b (List.mem_cons_of_mem r h)) t

theorem keeps_flush {w : WriterState} (hw : ∀ b ∈ w.batch, Admits rs b) :
    p.TokenSound rs (.writing ((p.pipeline c).writer.flush w).outcome) := by
  refine Task.keeps_bind (keeps_writeAll hw w.summary) (fun t _ b hb => ?_)
    fun e fails => fails e rfl
  exact absurd hb List.not_mem_nil

theorem keeps_receive {w : WriterState} {r : WriteRequest} (hw : ∀ b ∈ w.batch, Admits rs b)
    (hr : Admits rs r) : p.TokenSound rs (.writing ((p.pipeline c).writer.receive r w).outcome) := by
  have all : ∀ b ∈ w.batch ++ [r], Admits rs b := by
    intro b hb
    rcases List.mem_append.mp hb with hb | hb
    · exact hw b hb
    · obtain rfl := List.mem_singleton.mp hb
      exact hr
  unfold Writer.receive
  dsimp only
  split
  · exact all
  · exact keeps_flush all

/-! ## Turns -/

/-- What a turn does, and what it makes, comes from the same requests as what it
uses up. -/
theorem turn_sound (honest : p.Honest) {used made : List (Token (Site ω))} {w w' : Site ω}
    (turn : (p.pipeline c).Turn used w w' made) (h : ∀ t ∈ used, p.TokenSound rs t) :
    (∃ es, Emits es w w' ∧ ∀ e ∈ es, Covers rs e) ∧ ∀ t ∈ made, p.TokenSound rs t := by
  have none : ∀ s : Site ω, ∃ es, Emits es s s ∧ ∀ e ∈ es, Covers rs e :=
    fun s => ⟨[], ⟨rfl, (List.append_nil _).symm⟩, fun _ h => absurd h List.not_mem_nil⟩
  cases turn with
  | idle s => exact ⟨none _, fun _ ht => absurd ht List.not_mem_nil⟩
  | take r s =>
    refine ⟨none _, fun t ht => ?_⟩
    obtain rfl := List.mem_singleton.mp ht
    exact keeps_fetch honest (h _ List.mem_cons_self)
  | fetch rest effect s =>
    have keeps := h _ List.mem_cons_self w
    refine ⟨keeps.1, fun t ht => ?_⟩
    obtain rfl := List.mem_singleton.mp ht
    exact keeps.2
  | got d s =>
    refine ⟨none _, fun t ht => ?_⟩
    obtain rfl := List.mem_singleton.mp ht
    exact h _ List.mem_cons_self d rfl
  | gone s => exact ⟨none _, fun _ ht => absurd ht List.not_mem_nil⟩
  | process d s => exact ⟨none _, processed_sound (h _ List.mem_cons_self)⟩
  | note height kind reason s =>
    exact ⟨(keeps_note (c := c) (h _ List.mem_cons_self) w).1,
      fun _ ht => absurd ht List.not_mem_nil⟩
  | receive ws r s =>
    refine ⟨none _, fun t ht => ?_⟩
    obtain rfl := List.mem_singleton.mp ht
    refine keeps_receive (fun b hb => ?_) ?_
    · exact h (.batch b) (List.mem_append_left _ (List.mem_map_of_mem hb))
    · exact h (.batch r) (List.mem_append_right _ List.mem_cons_self)
  | flush ws s =>
    refine ⟨none _, fun t ht => ?_⟩
    obtain rfl := List.mem_singleton.mp ht
    exact keeps_flush fun b hb => h (.batch b) (List.mem_map_of_mem hb)
  | write rest effect s =>
    have keeps := h _ List.mem_cons_self w
    refine ⟨keeps.1, fun t ht => ?_⟩
    obtain rfl := List.mem_singleton.mp ht
    exact keeps.2
  | written ws s =>
    refine ⟨none _, fun t ht => ?_⟩
    obtain ⟨b, hb, rfl⟩ := List.mem_map.mp ht
    exact h _ List.mem_cons_self b hb

/-! ## Runs -/

/-- At a point of a run, everything comes from a request that was pushed. -/
structure InScope (p : Setting ω) (start : Site ω) (s : RunState (Site ω)) : Prop where
  tokens : ∀ t ∈ s.tokens, p.TokenSound s.pushed t
  failure : s.failure.isSome = true → p.CanFail
  journal : ∃ es, Emits es start s.world ∧ ∀ e ∈ es, Covers s.pushed e

theorem inScope_start (w : Site ω) (schedule : List (List Action)) :
    p.InScope w (.start w schedule) where
  tokens _ ht := absurd ht List.not_mem_nil
  failure h := nomatch h
  journal := ⟨[], ⟨rfl, (List.append_nil _).symm⟩, fun _ h => absurd h List.not_mem_nil⟩

theorem InScope.act (honest : p.Honest) {start : Site ω} {s : RunState (Site ω)}
    (h : p.InScope start s) (a : Action) : p.InScope start ((p.pipeline c).act a s) := by
  have frame := Pipeline.act_frame (p := p.pipeline c) a s
  obtain ⟨used, made, others, before, after, turn⟩ := Pipeline.moves_act (p := p.pipeline c) a s
  have mem_before : ∀ t, t ∈ s.tokens ↔ t ∈ used ∨ t ∈ others := fun t => by
    rw [← Multiset.mem_coe, before, Multiset.mem_add, Multiset.mem_coe]
  have mem_after : ∀ t, t ∈ ((p.pipeline c).act a s).tokens ↔ t ∈ made ∨ t ∈ others := fun t => by
    rw [← Multiset.mem_coe, after, Multiset.mem_add, Multiset.mem_coe]
  obtain ⟨⟨fs, emits', covered'⟩, madeSound⟩ :=
    turn_sound honest turn fun t ht => h.tokens t ((mem_before t).mpr (.inl ht))
  obtain ⟨es, emits, covered⟩ := h.journal
  rw [← frame.1] at madeSound covered covered'
  refine ⟨fun t ht => ?_, fun failed => ?_, es ++ fs, emits.trans emits', fun e he => ?_⟩
  · rcases (mem_after t).mp ht with ht | ht
    · exact madeSound t ht
    · rw [frame.1]
      exact h.tokens t ((mem_before t).mpr (.inr ht))
  · rcases frame.2 with same | ⟨e, writer⟩
    · exact h.failure (same ▸ failed)
    · have writing : Token.writing (.done (.error e)) ∈ s.tokens := by
        simp [RunState.tokens, writer, Token.ofWriter]
      exact h.tokens _ writing
  · rcases List.mem_append.mp he with he | he
    · exact covered e he
    · exact covered' e he

theorem InScope.step (honest : p.Honest) {start : Site ω} {s s' : RunState (Site ω)}
    (step : (p.pipeline c).Step Quiet s s') (h : p.InScope start s) : p.InScope start s' := by
  cases step with
  | act a s => exact h.act honest a
  | push r s =>
    have more : s.pushed ⊆ s.pushed ++ [r] := fun _ => List.mem_append_left _
    obtain ⟨es, emits, covered⟩ := h.journal
    refine ⟨fun t ht => ?_, h.failure, es, emits, fun e he => (covered e he).mono more⟩
    have cases : t = .request r ∨ t ∈ s.tokens := by
      simp only [RunState.tokens, Fifo.toList_push, List.map_append, List.map_cons, List.map_nil,
        List.mem_append, List.mem_singleton] at ht ⊢
      tauto
    rcases cases with rfl | ht
    · exact List.mem_append_right _ List.mem_cons_self
    · exact (h.tokens t ht).mono more
  | world quiet =>
    obtain ⟨es, emits, covered⟩ := h.journal
    exact ⟨h.tokens, h.failure, es, List.append_nil es ▸ emits.trans quiet, covered⟩
  | schedule s schedule => exact ⟨h.tokens, h.failure, h.journal⟩

end Setting

end ChainIndex
