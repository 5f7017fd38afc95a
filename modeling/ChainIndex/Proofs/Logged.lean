/-
States with a log beside them. A call that logs does to its state what it does without a
log, and says in the log what came of it; whatever is made of such calls shadows what is
made of the calls without. `x.Logs post` says of a computation on a state with a log: if
the others leave the log alone, whatever they do to the state, then `x` comes to no end
but with a value and with new entries as `post` says. `LogsOk` says it of a task that goes
well, and nothing of one that fails.
-/
import ChainIndex.Proofs.Alone
import ChainIndex.Proofs.Shadow

namespace ChainIndex

variable {σ κ ε ε' α β : Type}

/-- Puts the state back beside the same log. -/
def besideLog (s : σ) (t : σ × List κ) : σ × List κ := (s, t.2)

/-- The call, with an entry in the log for the state that it met and its answer. -/
def Call.logging (entry : σ → Except ε α → κ) (call : Call σ ε α) : Call (σ × List κ) ε α :=
  ExceptT.mk fun t =>
    let (answer, s) := call.run.run t.1
    (answer, s, t.2 ++ [entry t.1 answer])

theorem Call.echoes_logging (entry : σ → Except ε α → κ) (call : Call σ ε α) :
    Echoes Prod.fst (call.logging entry).run call.run :=
  fun _ => ⟨rfl, rfl⟩

namespace Unending

/-- Comes to no end but with a value and with new entries of the log as `post` says, if the
others leave the log alone. -/
def Logs (x : Unending (σ × List κ) α) (post : α → List κ → Prop) : Prop :=
  ∀ s log, x.Ensures (fun t t' => t'.2 = t.2) (fun _ _ => True)
    (fun a t => ∃ new, t.2 = log ++ new ∧ post a new) (s, log)

variable {x : Unending (σ × List κ) α} {post post' : α → List κ → Prop}

theorem logs_done {a : α} (h : post a []) : (.done a : Unending (σ × List κ) α).Logs post :=
  fun _ log => ⟨[], (List.append_nil log).symm, h⟩

theorem logs_never : (.never : Unending (σ × List κ) α).Logs post :=
  fun _ _ => ensures_never _ _

theorem Logs.mono (hx : x.Logs post) (h : ∀ a new, post a new → post' a new) : x.Logs post' :=
  fun s log => (hx s log).mono fun a _ ⟨new, longer, ends⟩ => ⟨new, longer, h a new ends⟩

theorem Logs.bind {f : α → Unending (σ × List κ) β} {post : β → List κ → Prop}
    {mid : α → List κ → Prop} (hx : x.Logs mid)
    (hf : ∀ a new, mid a new → (f a).Logs fun b more => post b (new ++ more)) :
    (x >>= f).Logs post := by
  intro s log
  refine (hx s log).bind ?_
  rintro a ⟨s', _⟩ ⟨new, rfl, ends⟩
  refine (hf a new ends s' (log ++ new)).mono fun b t ⟨more, longer, ends'⟩ => ?_
  exact ⟨new ++ more, by rw [longer, List.append_assoc], ends'⟩

theorem Logs.map {f : α → β} {post : β → List κ → Prop}
    (hx : x.Logs fun a new => post (f a) new) : (f <$> x).Logs post :=
  hx.bind fun _ new ends => logs_done (by rwa [List.append_nil])

theorem logs_ofState {m : StateM (σ × List κ) α}
    (h : ∀ t, ∃ new, (m.run t).2.2 = t.2 ++ new ∧ post (m.run t).1 new) :
    (ofState m).Logs post := by
  refine fun s log => ensures_ofState fun t same => ⟨trivial, ?_⟩
  obtain ⟨new, longer, ends⟩ := h t
  exact ⟨new, by rw [longer, same], ends⟩

/-- Calls that leave the log alone. -/
theorem logs_of_always (hx : x.Always fun t t' => t'.2 = t.2) : x.Logs fun _ new => new = [] := by
  intro s log
  have kept : x.Ensures (fun t t' => t'.2 = t.2) (fun _ t => t.2 = log) (fun _ t => t.2 = log)
      (s, log) :=
    hx.ensures (fun _ _ same here => same.trans here) (fun _ _ same here => same.trans here) rfl
  refine kept.weaken (fun _ _ => id) (fun _ _ _ => trivial) fun _ t same => ⟨[], ?_, rfl⟩
  rw [same, List.append_nil]

theorem always_besideLog (x : Unending σ α) :
    (x.onPart Prod.fst besideLog).Always fun (t t' : σ × List κ) => t'.2 = t.2 :=
  always_onPart x.always_true fun _ _ _ => rfl

end Unending

namespace Task

variable {x : Task (σ × List κ) ε α} {f : α → Task (σ × List κ) ε β}
  {mid : Except ε α → List κ → Prop} {post : Except ε β → List κ → Prop}

theorem logs_bind (hx : x.outcome.Logs mid)
    (ok : ∀ a new, mid (.ok a) new → (f a).outcome.Logs fun o more => post o (new ++ more))
    (error : ∀ e new, mid (.error e) new → post (.error e) new) :
    (x >>= f).outcome.Logs post := by
  rw [outcome_bind]
  refine Unending.Logs.bind hx fun o new ends => ?_
  cases o with
  | ok a => exact ok a new ends
  | error e => exact Unending.logs_done (by rw [List.append_nil]; exact error e new ends)

/-- After a part that has no errors. -/
theorem logs_ofUnending_bind {x : Unending (σ × List κ) α} {mid : α → List κ → Prop}
    (hx : x.Logs mid)
    (hf : ∀ a new, mid a new → (f a).outcome.Logs fun o more => post o (new ++ more)) :
    (ofUnending x >>= f).outcome.Logs post := by
  rw [outcome_ofUnending_bind]
  exact hx.bind hf

/-- After a part that has no errors and logs nothing. -/
theorem logs_quiet_bind {x : Unending (σ × List κ) α} (hx : x.Always fun t t' => t'.2 = t.2)
    (hf : ∀ a, (f a).outcome.Logs post) : (ofUnending x >>= f).outcome.Logs post := by
  refine logs_ofUnending_bind (Unending.logs_of_always hx) fun a new nothing => ?_
  subst nothing
  exact hf a

/-- A call logs its answer. -/
theorem logs_ofCall {wrap : ε' → ε} {entry : σ → Except ε' α → κ} {call : Call σ ε' α} :
    (ofCall wrap (call.logging entry)).outcome.Logs fun o new => ∃ s answer,
      (call.run.run s).1 = answer ∧ o = answer.mapError wrap ∧ new = [entry s answer] := by
  rw [outcome_ofCall]
  exact Unending.logs_ofState fun t => ⟨_, rfl, t.1, _, rfl, rfl, rfl⟩

theorem logs_ofCall_id {entry : σ → Except ε α → κ} {call : Call σ ε α} :
    (ofCall id (call.logging entry)).outcome.Logs
      fun answer new => ∃ s, (call.run.run s).1 = answer ∧ new = [entry s answer] := by
  refine Unending.Logs.mono logs_ofCall ?_
  rintro o new ⟨s, answer, run, rfl, logged⟩
  rw [mapError_id]
  exact ⟨s, run, logged⟩

/-! ## Tasks that go well -/

/-- If the task comes to a value, then with new entries of the log as `post` says. -/
def LogsOk (x : Task (σ × List κ) ε α) (post : α → List κ → Prop) : Prop :=
  x.outcome.Logs fun o new => ∀ a, o = .ok a → post a new

variable {x : Task (σ × List κ) ε α} {f : α → Task (σ × List κ) ε β}
  {mid : α → List κ → Prop} {post : β → List κ → Prop}

theorem logsOk_pure {a : α} (h : mid a []) : LogsOk (pure a : Task (σ × List κ) ε α) mid :=
  Unending.logs_done fun b same => by
    cases same
    exact h

theorem logsOk_throw {e : ε} : LogsOk (throw e : Task (σ × List κ) ε α) mid :=
  Unending.logs_done fun b same => by cases same

theorem logsOk_never : LogsOk (ofUnending .never : Task (σ × List κ) ε α) mid :=
  Unending.logs_never

theorem LogsOk.mono {mid' : α → List κ → Prop} (hx : LogsOk x mid)
    (h : ∀ a new, mid a new → mid' a new) : LogsOk x mid' :=
  Unending.Logs.mono hx fun _ new ends a same => h a new (ends a same)

theorem LogsOk.bind (hx : LogsOk x mid)
    (hf : ∀ a new, mid a new → LogsOk (f a) fun b more => post b (new ++ more)) :
    LogsOk (x >>= f) post :=
  logs_bind hx (fun a new ends => hf a new (ends a rfl)) fun e new _ b same => by cases same

/-- A part that logs nothing. -/
theorem logsOk_quiet (hx : x.outcome.Always fun t t' => t'.2 = t.2) :
    LogsOk x fun _ new => new = [] :=
  (Unending.logs_of_always hx).mono fun _ _ nothing _ _ => nothing

theorem LogsOk.quiet_bind (hx : LogsOk x fun _ new => new = [])
    (hf : ∀ a, LogsOk (f a) post) : LogsOk (x >>= f) post :=
  hx.bind fun a new nothing => by
    subst nothing
    exact hf a

theorem logsOk_ofUnending {x : Unending (σ × List κ) α} (hx : x.Logs mid) :
    LogsOk (ofUnending x : Task (σ × List κ) ε α) mid :=
  Unending.Logs.map (hx.mono fun _ _ ends _ same => by
    cases same
    exact ends)

theorem LogsOk.ofTask {wrap : ε' → ε} {x : Task (σ × List κ) ε' α} (hx : LogsOk x mid) :
    LogsOk (Task.ofTask wrap x) mid :=
  Unending.Logs.map (Unending.Logs.mono hx fun _ _ ends a same => ends a (mapError_eq_ok same))

theorem logsOk_ofCall {wrap : ε' → ε} {entry : σ → Except ε' α → κ} {call : Call σ ε' α} :
    LogsOk (ofCall wrap (call.logging entry)) fun a new =>
      ∃ s, (call.run.run s).1 = .ok a ∧ new = [entry s (.ok a)] := by
  refine Unending.Logs.mono logs_ofCall ?_
  rintro o new ⟨s, answer, run, rfl, logged⟩ a same
  cases mapError_eq_ok same
  exact ⟨s, run, logged⟩

end Task

end ChainIndex
