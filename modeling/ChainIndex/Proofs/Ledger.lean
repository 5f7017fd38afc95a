/-
The books of a run. What was done to the store so far, together with whatever
comes of the tokens that are still under way, is what comes of the requests that
were pushed: no journey is lost, doubled or mixed up with another one, in whatever
order the turns are taken. When nothing is under way any more, the journal is in
some order one journey for each request.
-/
import ChainIndex.Proofs.Scope

namespace ChainIndex

namespace Setting

variable {ω : Type} (p : Setting ω) (c : Config)

/-- What can come of a token from here on. -/
def Future : Token (Site ω) → List StoreEffect → Prop
  | .request r, es => p.Journey c r es
  | .fetching rest, es => ∃ o now later, rest.Leaves now o ∧ p.Followed c o later ∧
    es.Perm (now ++ later)
  | .fetched d, es => p.Handled c d es
  | .report height kind reason, es => p.Noted (c.failure height kind reason) es
  | .batch w, es => p.Written c w es
  | .writing rest, es => ∃ w now later, rest.Leaves now (.ok w) ∧
    Shares (p.Written c) w.batch later ∧ es.Perm (now ++ later)

variable {p c} {es fs gs : List StoreEffect}

/-- What comes of the batches is what comes of them as tokens. -/
theorem shares_batches {ws : List WriteRequest} :
    Shares (p.Future c) (ws.map .batch) es ↔ Shares (p.Written c) ws es :=
  Shares.map

theorem handled_of_processed {d : FetchedBlock}
    (h : Shares (p.Future c) ((p.pipeline c).processed d) es) : p.Handled c d es := by
  obtain ⟨noted, written, notes, writes, all⟩ := h.of_append
  have notes := Shares.map.mp notes
  exact ⟨noted, written, notes, shares_batches.mp writes, all⟩

/-! ## Turns -/

/-- What a turn did, with what comes of what it made, is what comes of what it used
up. -/
theorem turn_future {used made : List (Token (Site ω))} {w w' : Site ω}
    (turn : (p.pipeline c).Turn used w w' made) (emits : Emits es w w')
    (h : Shares (p.Future c) made fs) (all : gs.Perm (es ++ fs)) :
    Shares (p.Future c) used gs := by
  -- Most turns do not touch the world.
  have nothing {s : Site ω} (emits : Emits es s s) : es = [] :=
    emits.unique ⟨rfl, (List.append_nil _).symm⟩
  cases turn with
  | idle s =>
    obtain rfl := nothing emits
    exact h.of_perm all
  | take r s =>
    obtain rfl := nothing emits
    obtain ⟨part, ⟨o, now, later, left, handled, split⟩, whole⟩ := h.of_singleton
    exact .singleton (journey_of_fetched (leaves_fetch left) handled
      (all.trans (whole.trans split)))
  | fetch rest effect s =>
    obtain ⟨part, ⟨o, now, later, left, handled, split⟩, whole⟩ := h.of_singleton
    refine .singleton ⟨o, es ++ now, later, ⟨w, es, now, emits, left, rfl⟩, handled, ?_⟩
    rw [List.append_assoc]
    exact all.trans ((whole.trans split).append_left es)
  | got d s =>
    obtain rfl := nothing emits
    obtain ⟨part, handled, whole⟩ := h.of_singleton
    exact .singleton ⟨some d, [], part, ⟨rfl, rfl⟩, handled, all.trans whole⟩
  | gone s =>
    obtain rfl := nothing emits
    cases h
    exact .singleton ⟨none, [], [], ⟨rfl, rfl⟩, rfl, all⟩
  | process d s =>
    obtain rfl := nothing emits
    exact .singleton (handled_of_processed (h.of_perm all))
  | note height kind reason s =>
    cases h
    have left : (Unending.ofState (p.store.note c.chain height kind reason)).Leaves es () :=
      Unending.leaves_ofState.mpr ⟨w, emits, rfl⟩
    have noted : p.Future c (.report height kind reason) es := noted_of_leaves left
    rw [List.append_nil] at all
    exact (Shares.singleton noted).of_perm all
  | receive ws r s =>
    obtain rfl := nothing emits
    obtain ⟨part, ⟨w', now, later, left, waiting, split⟩, whole⟩ := h.of_singleton
    have all := all.trans (whole.trans split)
    rw [show [Token.batch r] = [r].map Token.batch from rfl, ← List.map_append, shares_batches]
    rcases leaves_receive left with ⟨_, ⟨⟩, ⟨batch, rfl⟩ | ⟨batch, written⟩⟩ | ⟨-, e, impossible⟩
    · rw [batch] at waiting
      exact waiting.of_perm all
    · rw [batch] at waiting
      cases waiting
      rw [List.append_nil] at all
      exact written.of_perm all
    · cases impossible
  | flush ws s =>
    obtain rfl := nothing emits
    obtain ⟨part, ⟨w', now, later, left, waiting, split⟩, whole⟩ := h.of_singleton
    have all := all.trans (whole.trans split)
    rw [shares_batches]
    rcases leaves_flush left with ⟨⟨_, ⟨⟩, batch⟩, written⟩ | ⟨-, e, impossible⟩
    · rw [batch] at waiting
      cases waiting
      rw [List.append_nil] at all
      exact written.of_perm all
    · cases impossible
  | write rest effect s =>
    obtain ⟨part, ⟨w', now, later, left, waiting, split⟩, whole⟩ := h.of_singleton
    refine .singleton ⟨w', es ++ now, later, ⟨w, es, now, emits, left, rfl⟩, waiting, ?_⟩
    rw [List.append_assoc]
    exact all.trans ((whole.trans split).append_left es)
  | written ws s =>
    obtain rfl := nothing emits
    exact .singleton ⟨ws, [], fs, ⟨rfl, rfl⟩, shares_batches.mp h, all⟩

/-! ## Steps -/

/-- What was done since the start, with what comes of everything under way, is
what comes of the pushed requests. -/
def Balanced (p : Setting ω) (c : Config) (start : Site ω) (s : RunState (Site ω)) : Prop :=
  ∃ past, Emits past start s.world ∧ ∀ future, Shares (p.Future c) s.tokens future →
    Shares (p.Journey c) s.pushed (past ++ future)

theorem balanced_start (w : Site ω) (schedule : List (List Action)) :
    p.Balanced c w (.start w schedule) := by
  refine ⟨[], ⟨rfl, (List.append_nil _).symm⟩, fun future h => ?_⟩
  cases h
  exact .nil

theorem Balanced.act (honest : p.Honest) {start : Site ω} {s : RunState (Site ω)}
    (scope : p.InScope start s) (h : p.Balanced c start s) (a : Action) :
    p.Balanced c start ((p.pipeline c).act a s) := by
  obtain ⟨used, made, others, before, after, turn⟩ := Pipeline.moves_act (p := p.pipeline c) a s
  obtain ⟨others, rfl⟩ := Quot.exists_rep others
  have before : s.tokens.Perm (used ++ others) := Multiset.coe_eq_coe.mp before
  have after : ((p.pipeline c).act a s).tokens.Perm (made ++ others) := Multiset.coe_eq_coe.mp after
  have usedSound : ∀ t ∈ used, p.TokenSound s.pushed t := fun t ht =>
    scope.tokens t (before.mem_iff.mpr (List.mem_append_left _ ht))
  obtain ⟨⟨es, emits, -⟩, -⟩ := turn_sound honest turn usedSound
  obtain ⟨past, done, books⟩ := h
  refine ⟨past ++ es, done.trans emits, fun future hfuture => ?_⟩
  rw [(Pipeline.act_frame a s).1, List.append_assoc]
  obtain ⟨ofMade, ofOthers, hmade, hothers, all⟩ := (hfuture.reorder after).of_append
  have hused := turn_future turn emits hmade (List.Perm.refl (es ++ ofMade))
  refine books _ ((hused.append hothers ?_).reorder before.symm)
  rw [List.append_assoc]
  exact all.append_left es

theorem Balanced.step (honest : p.Honest) {start : Site ω} {s s' : RunState (Site ω)}
    (step : (p.pipeline c).Step Quiet s s') (scope : p.InScope start s)
    (h : p.Balanced c start s) : p.Balanced c start s' := by
  cases step with
  | act a s => exact h.act honest scope a
  | push r s =>
    obtain ⟨past, done, books⟩ := h
    refine ⟨past, done, fun future hfuture => ?_⟩
    have order : RunState.tokens { s with requests := s.requests.push r, pushed := s.pushed ++ [r] }
        |>.Perm (s.tokens ++ [.request r]) := by
      rw [← Multiset.coe_eq_coe, ← Multiset.coe_add]
      simp only [Pipeline.coe_tokens, Fifo.toList_push, List.map_append, List.map_cons,
        List.map_nil, ← Multiset.coe_add]
      abel
    obtain ⟨ofOthers, ofRequest, hothers, hrequest, all⟩ := (hfuture.reorder order).of_append
    obtain ⟨part, journey, whole⟩ := hrequest.of_singleton
    refine (books _ hothers).append (.singleton journey) ?_
    rw [List.append_assoc]
    exact (all.trans (whole.append_left ofOthers)).append_left past
  | world quiet =>
    obtain ⟨past, done, books⟩ := h
    exact ⟨past, List.append_nil past ▸ done.trans quiet, books⟩
  | schedule s schedule => exact h

/-! ## Runs -/

theorem asks_quiet (p : Setting ω) (c : Config) : (p.pipeline c).Asks Quiet where
  client := p.always_client
  highest _ s := quiet_ask _ _ s
  status _ _ _ s := quiet_ask _ _ s
  heights _ _ _ _ s := quiet_ask _ _ s
  unresolved _ s := quiet_ask _ _ s

/-- Both hold at every point of a run. -/
theorem path_balanced (honest : p.Honest) {start : Site ω} {s s' : RunState (Site ω)}
    (path : (p.pipeline c).Path Quiet s s') (scope : p.InScope start s)
    (h : p.Balanced c start s) : p.InScope start s' ∧ p.Balanced c start s' :=
  Pipeline.Path.preserves path (P := fun s => p.InScope start s ∧ p.Balanced c start s)
    (fun _ _ step h => ⟨h.1.step honest step, h.2.step honest step h.1⟩) ⟨scope, h⟩

/-- Everything in a run comes from the requests that it pushed. -/
theorem inScope_of_run (honest : p.Honest) {start : Site ω} {schedule : List (List Action)}
    {result : Option (Except PipelineError RunSummary)} {s : RunState (Site ω)}
    (run : (p.pipeline c).runState (.start start schedule) = (result, s)) : p.InScope start s := by
  have path := Pipeline.path_runState (asks_quiet p c) (.start start schedule)
  rw [run] at path
  exact path.preserves (fun _ _ step scope => InScope.step honest step scope) (inScope_start _ _)

/-- Nothing is under way in a run that has come to its end. -/
theorem tokens_of_result {s : RunState (Site ω)} {ended : Option (Except EnqueueError (List Request))}
    {result : Except PipelineError RunSummary} (h : Pipeline.result ended s = some result)
    (alive : s.failure = none) : s.tokens = [] := by
  have idle : s.nextAction? = none ∧ s.written?.isSome := by
    unfold Pipeline.result at h
    rw [alive] at h
    dsimp only at h
    split at h
    · next idle written => exact ⟨idle, by rw [written]; rfl⟩
    · next idle written => exact ⟨idle, by rw [written]; rfl⟩
    · cases h
  obtain ⟨idle, written⟩ := idle
  unfold RunState.written? at written
  unfold RunState.nextAction? at idle
  split at written
  · next summary waits =>
    have nil {α : Type} {xs : List α} (h : ∀ x rest, xs = x :: rest → False) : xs = [] := by
      cases xs with
      | nil => rfl
      | cons x rest => exact (h x rest rfl).elim
    rw [waits] at idle
    split at idle
    case h_8 loads _ batches reports outbox fetched =>
      split at idle
      · next empty =>
        have requests : s.requests.toList = [] :=
          List.eq_nil_of_length_eq_zero (by rw [Fifo.length_toList, empty])
        simp [RunState.tokens, Token.ofWriter, waits, requests, loads, nil fetched, nil reports,
          nil outbox, nil batches]
      · cases idle
    all_goals cases idle
  · cases written

/-- A run without an error is one without the writer's error. -/
theorem alive_of_ok {σ : Type} {s : RunState σ}
    {ended : Option (Except EnqueueError (List Request))} {summary : RunSummary}
    (h : Pipeline.result ended s = some (.ok summary)) : s.failure = none := by
  unfold Pipeline.result at h
  split at h
  · cases h
  · next alive => exact alive

/-- A run's result is that of the state it ends in. -/
theorem exists_result {σ : Type} {p : Pipeline σ} {s s' : RunState σ}
    {result : Option (Except PipelineError RunSummary)} (run : p.runState s = (result, s')) :
    ∃ ended, Pipeline.result ended s' = result := by
  have came : Pipeline.result _ (p.runState s).2 = (p.runState s).1 := rfl
  rw [run] at came
  exact ⟨_, came⟩

/-- The books of a run that has come to its end without the writer's error: its
journal is, in some order, one journey for each request that was pushed. -/
theorem journal_of_run (honest : p.Honest) {start : Site ω} {schedule : List (List Action)}
    {result : Except PipelineError RunSummary} {s : RunState (Site ω)}
    (run : (p.pipeline c).runState (.start start schedule) = (some result, s))
    (alive : s.failure = none) :
    ∃ es, Emits es start s.world ∧ Shares (p.Journey c) s.pushed es := by
  have path : (p.pipeline c).Path Quiet (.start start schedule) s := by
    have whole := Pipeline.path_runState (asks_quiet p c) (.start start schedule)
    rwa [run] at whole
  obtain ⟨past, emits, books⟩ :=
    (path_balanced honest path (inScope_start _ _) (balanced_start _ _)).2
  obtain ⟨ended, came⟩ := exists_result run
  have all := books [] (tokens_of_result came alive ▸ .nil)
  rw [List.append_nil] at all
  exact ⟨past, emits, all⟩

end Setting

end ChainIndex
