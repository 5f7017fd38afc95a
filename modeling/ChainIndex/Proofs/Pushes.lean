/-
What the enqueuer pushes while everybody else is at work. A run follows a plan as
long as what was pushed is the beginning of it. `Pushes x ps post` says of a
computation of the enqueuer: from wherever `ps` has been pushed, whatever the others
do between two of its calls, it keeps to the plan, and where it comes to its end its
value and what it has pushed by then are as `post` says. There is a rule for each
way in which the enqueuer is put together.
-/
import ChainIndex.Proofs.Ledger
import ChainIndex.Proofs.Wanted

namespace ChainIndex

namespace Setting

variable {ω : Type} (p : Setting ω) (c : Config) (start : Site ω) (plan : List Request)

/-- A point of a run at which exactly these requests have been pushed, according to
plan. -/
structure At (ps : List Request) (s : RunState (Site ω)) : Prop where
  scope : p.InScope start s
  pushed : s.pushed = ps
  planned : ps <+: plan

/-- From wherever `ps` has been pushed, `x` keeps to the plan and ends as `post`
says of its value and of what it has pushed. -/
def Pushes {α : Type} (x : Unending (RunState (Site ω)) α) (ps : List Request)
    (post : α → List Request → Prop) : Prop :=
  ∀ s, p.At start plan ps s →
    x.Ensures ((p.pipeline c).Drift Quiet) (fun _ s' => s'.pushed <+: plan)
      (fun a s' => ∃ new, p.At start plan (ps ++ new) s' ∧ post a new) s

/-- A memory that can be there once `ps` has been pushed: what was done to it is
about the heights and kinds that were asked for. -/
def Reached (ps : List Request) (m : MemoryStore) : Prop :=
  ∃ es, m = replay es start.memory ∧ ∀ e ∈ es, Covers ps e

variable {p c start plan} {α β : Type} {ps : List Request}

/-! ## Points of a run -/

theorem At.drift (honest : p.Honest) {s s' : RunState (Site ω)} (h : p.At start plan ps s)
    (drift : (p.pipeline c).Drift Quiet s s') : p.At start plan ps s' where
  scope := Pipeline.Path.preserves drift.1 (fun _ _ step scope => scope.step honest step) h.scope
  pushed := drift.2.trans h.pushed
  planned := h.planned

theorem At.follows {s : RunState (Site ω)} (h : p.At start plan ps s) : s.pushed <+: plan :=
  h.pushed ▸ h.planned

theorem At.reached {s : RunState (Site ω)} (h : p.At start plan ps s) :
    Reached start ps s.world.memory := by
  obtain ⟨es, emits, covered⟩ := h.scope.journal
  exact ⟨es, emits.1, h.pushed ▸ covered⟩

/-- What can be there before anything is pushed. -/
theorem eq_of_reached_nil {m : MemoryStore} (h : Reached start [] m) : m = start.memory := by
  obtain ⟨es, rfl, covered⟩ := h
  cases es with
  | nil => rfl
  | cons e es =>
    obtain ⟨r, hr, -⟩ := covered e List.mem_cons_self
    cases hr

/-! ## Rules -/

theorem pushes_done {a : α} {post : α → List Request → Prop} (h : post a []) :
    p.Pushes c start plan (.done a) ps post :=
  fun s here => ⟨[], by rwa [List.append_nil], h⟩

theorem Pushes.mono {x : Unending (RunState (Site ω)) α} {post post' : α → List Request → Prop}
    (hx : p.Pushes c start plan x ps post) (h : ∀ a new, post a new → post' a new) :
    p.Pushes c start plan x ps post' :=
  fun s here => (hx s here).mono fun a _ ⟨new, there, ends⟩ => ⟨new, there, h a new ends⟩

theorem Pushes.bind {x : Unending (RunState (Site ω)) α}
    {f : α → Unending (RunState (Site ω)) β} {mid : α → List Request → Prop}
    {post : β → List Request → Prop} (hx : p.Pushes c start plan x ps mid)
    (hf : ∀ a new, mid a new →
      p.Pushes c start plan (f a) (ps ++ new) fun b more => post b (new ++ more)) :
    p.Pushes c start plan (x >>= f) ps post := by
  intro s here
  refine (hx s here).bind fun a s' ⟨new, there, ends⟩ => ?_
  refine (hf a new ends s' there).mono fun b s'' ⟨more, last, ends'⟩ => ?_
  exact ⟨new ++ more, by rwa [← List.append_assoc], ends'⟩

/-- After a part that pushes nothing. -/
theorem Pushes.bind_quiet {x : Unending (RunState (Site ω)) α}
    {f : α → Unending (RunState (Site ω)) β} {Q : α → Prop} {post : β → List Request → Prop}
    (hx : p.Pushes c start plan x ps fun a new => new = [] ∧ Q a)
    (hf : ∀ a, Q a → p.Pushes c start plan (f a) ps post) :
    p.Pushes c start plan (x >>= f) ps post := by
  refine hx.bind fun a new ⟨nothing, value⟩ => ?_
  subst nothing
  rw [List.append_nil]
  exact hf a value

theorem Pushes.map {x : Unending (RunState (Site ω)) α} {f : α → β}
    {post : β → List Request → Prop}
    (hx : p.Pushes c start plan x ps fun a new => post (f a) new) :
    p.Pushes c start plan (f <$> x) ps post :=
  hx.bind fun _ _ ends => pushes_done (by rwa [List.append_nil])

/-- One call. -/
theorem pushes_ofState (honest : p.Honest) {m : StateM (RunState (Site ω)) α}
    {post : α → List Request → Prop}
    (h : ∀ s, p.At start plan ps s →
      ∃ new, p.At start plan (ps ++ new) (m.run s).2 ∧ post (m.run s).1 new) :
    p.Pushes c start plan (Unending.ofState m) ps post := by
  refine fun s here => Unending.ensures_ofState fun s' drift => ?_
  obtain ⟨new, there, ends⟩ := h s' (here.drift honest drift)
  exact ⟨there.follows, new, there, ends⟩

/-- Calls that push nothing. -/
theorem pushes_of_drift (honest : p.Honest) {x : Unending (RunState (Site ω)) α}
    (hx : x.Always ((p.pipeline c).Drift Quiet)) :
    p.Pushes c start plan x ps fun _ new => new = [] := by
  intro s here
  have stays : ∀ s s', (p.pipeline c).Drift Quiet s s' → p.At start plan ps s →
      p.At start plan ps s' := fun _ _ drift here => here.drift honest drift
  refine (hx.ensures stays stays here).weaken (fun _ _ => id) (fun _ _ there => there.follows) ?_
  exact fun _ _ there => ⟨[], by rwa [List.append_nil], rfl⟩

/-! ## Rules for tasks -/

variable {ε ε' : Type}

theorem Pushes.task_bind {x : Task (RunState (Site ω)) ε α}
    {f : α → Task (RunState (Site ω)) ε β} {mid : Except ε α → List Request → Prop}
    {post : Except ε β → List Request → Prop} (hx : p.Pushes c start plan x.outcome ps mid)
    (ok : ∀ a new, mid (.ok a) new →
      p.Pushes c start plan (f a).outcome (ps ++ new) fun o more => post o (new ++ more))
    (error : ∀ e new, mid (.error e) new → post (.error e) new) :
    p.Pushes c start plan (x >>= f).outcome ps post := by
  rw [Task.outcome_bind]
  refine hx.bind fun o new ends => ?_
  cases o with
  | ok a => exact ok a new ends
  | error e => exact pushes_done (by rw [List.append_nil]; exact error e new ends)

/-- After a part that pushes nothing. -/
theorem Pushes.task_bind_quiet {x : Task (RunState (Site ω)) ε α}
    {f : α → Task (RunState (Site ω)) ε β} {Q : Except ε α → Prop}
    {post : Except ε β → List Request → Prop}
    (hx : p.Pushes c start plan x.outcome ps fun o new => new = [] ∧ Q o)
    (ok : ∀ a, Q (.ok a) → p.Pushes c start plan (f a).outcome ps post)
    (error : ∀ e, Q (.error e) → post (.error e) []) :
    p.Pushes c start plan (x >>= f).outcome ps post := by
  rw [Task.outcome_bind]
  refine hx.bind_quiet fun o value => ?_
  cases o with
  | ok a => exact ok a value
  | error e => exact pushes_done (error e value)

/-- After a part that pushes nothing and cannot fail. -/
theorem Pushes.task_then {x : Task (RunState (Site ω)) ε α} {f : α → Task (RunState (Site ω)) ε β}
    {post : Except ε β → List Request → Prop}
    (hx : p.Pushes c start plan x.outcome ps fun o new => new = [] ∧ ∃ a, o = .ok a)
    (ok : ∀ a, p.Pushes c start plan (f a).outcome ps post) :
    p.Pushes c start plan (x >>= f).outcome ps post := by
  refine hx.task_bind_quiet (fun a _ => ok a) fun e h => ?_
  obtain ⟨_, impossible⟩ := h
  cases impossible

theorem Pushes.ofUnending {x : Unending (RunState (Site ω)) α} {post : α → List Request → Prop}
    (hx : p.Pushes c start plan x ps post) :
    p.Pushes c start plan (Task.ofUnending x : Task _ ε α).outcome ps
      fun o new => ∃ a, o = .ok a ∧ post a new :=
  (hx.mono fun a _ ends => ⟨a, rfl, ends⟩).map

/-- A task without errors that pushes nothing. -/
theorem pushes_of_drift_ofUnending (honest : p.Honest) {x : Unending (RunState (Site ω)) α}
    (hx : x.Always ((p.pipeline c).Drift Quiet)) :
    p.Pushes c start plan (Task.ofUnending x : Task _ ε α).outcome ps
      fun o new => new = [] ∧ ∃ a, o = .ok a :=
  (pushes_of_drift honest hx).ofUnending.mono fun _ _ ⟨a, value, nothing⟩ => ⟨nothing, a, value⟩

/-- Trying again gives what some try gives. -/
theorem Pushes.retryFrom (honest : p.Honest) {policy : RetryPolicy}
    {pause : Span → Unending (RunState (Site ω)) Unit} {task : Task (RunState (Site ω)) ε α}
    {Q : Except ε α → Prop} (quiet : ∀ span, (pause span).Always ((p.pipeline c).Drift Quiet))
    (hx : p.Pushes c start plan task.outcome ps fun o new => new = [] ∧ Q o)
    (tries attempt : Nat) :
    p.Pushes c start plan (policy.retryFrom pause task tries attempt).outcome ps
      fun o new => new = [] ∧ Q o := by
  induction tries generalizing attempt with
  | zero => exact fun s _ => Unending.ensures_never _ _
  | succ tries ih =>
    unfold RetryPolicy.retryFrom
    have tried : p.Pushes c start plan
        (Task.ofUnending task.outcome : Task _ ε (Except ε α)).outcome ps
        fun o new => new = [] ∧ ∃ tried, o = .ok tried ∧ Q tried :=
      hx.ofUnending.mono fun _ _ ⟨a, value, nothing, gives⟩ => ⟨nothing, a, value, gives⟩
    refine tried.task_bind_quiet (fun answer h => ?_) fun e h => ?_
    · obtain ⟨_, ⟨⟩, gives⟩ := h
      cases answer with
      | ok a => exact pushes_done ⟨rfl, gives⟩
      | error e =>
        dsimp only
        split
        · exact pushes_done ⟨rfl, gives⟩
        · refine (pushes_of_drift_ofUnending honest (quiet _)).task_bind_quiet (fun _ _ => ?_) ?_
          · exact ih (attempt + 1)
          · rintro _ ⟨_, impossible⟩
            cases impossible
    · obtain ⟨_, impossible, _⟩ := h
      cases impossible

end Setting

end ChainIndex
