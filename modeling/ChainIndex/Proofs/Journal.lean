/-
What an enqueuer does in its own time. A `Journal` has, in order, what the store told an
enqueuer and what it pushed, and it is sound if each push is justified by what stands
before it: then nothing is pushed twice, and nothing without a reason. `Tracks pre x post`
says of a task that from a sound journal as `pre` says it keeps the journal sound at every
call, whatever the others do between two calls, and comes to a value with one as `post`
says. It has a rule for each way in which the enqueuer is put together.
-/
import ChainIndex.Proofs.Enqueuer
import ChainIndex.Proofs.Wanted
import Mathlib.Data.List.Induction

namespace ChainIndex

/-- What the store tells an enqueuer, or a request that it pushes. -/
inductive EnqueueEvent where
  | failures (records : List FailureRecord)
  | status (low high : Int) (statuses : List BlockStatus)
  | pushed (r : Request)

abbrev Journal := List EnqueueEvent

namespace EnqueueEvent

def request? : EnqueueEvent → Option Request
  | pushed r => some r
  | _ => none

/-- A window of heights with their statuses. -/
def window? : EnqueueEvent → Option (Int × Int × List BlockStatus)
  | status low high statuses => some (low, high, statuses)
  | _ => none

end EnqueueEvent

/-- Requests that ask for nothing twice: no two of them share a height and a kind, each
asks for configured kinds and for at least one, and none is behind the end. -/
structure Orderly (c : IndexerConfig) (rs : List Request) : Prop where
  once : rs.Pairwise fun r r' =>
    r.height = r'.height → ∀ kind, ¬(r.asks kind = true ∧ r'.asks kind = true)
  some : ∀ r ∈ rs, ∃ kind, r.asks kind = true
  configured : ∀ r ∈ rs, ∀ kind, r.asks kind = true → c.indexes kind = true
  inside : c.endBlock ≠ -1 → ∀ r ∈ rs, r.height ≤ c.endBlock

namespace Journal

/-- All requests that were pushed. -/
def pushes (j : Journal) : List Request := j.filterMap (·.request?)

/-- The window that was read last. -/
def window? (j : Journal) : Option (Int × Int × List BlockStatus) :=
  (j.filterMap (·.window?)).getLast?

/-- A call that tells something, or one that fails and tells nothing. -/
def told {ε α : Type} (j : Journal) (event : α → EnqueueEvent) : Except ε α → Journal
  | .ok a => j ++ [event a]
  | .error _ => j

/-- What an enqueuer has pushed by the end of a journal is orderly, and each request has
its reason in what the store told before. -/
structure PushedOnce (c : IndexerConfig) (j : Journal) : Prop extends Orderly c j.pushes where
  /-- What is pushed after a window was read is in the last such window, and a kind that
  its status marks as indexed is only asked for if everything is indexed again. -/
  unmarked : ∀ (before after : Journal) r low high statuses, j = before ++ .pushed r :: after →
    before.window? = .some (low, high, statuses) → low ≤ r.height ∧ r.height ≤ high ∧
      ∀ kind, r.asks kind = true → c.reindex = true ∨ marks statuses r.height kind = false
  /-- What is pushed before any window was read is asked for because it failed. -/
  failed : ∀ (before after : Journal) r, j = before ++ .pushed r :: after →
    before.window? = none → c.reattemptFailedBlocks = true ∧ ∃ records, .failures records ∈ before ∧
      ∀ kind, r.asks kind = true → ∃ f ∈ records, f.height = r.height ∧ f.kind = kind

/-- There is a reason to push the request: it asks for configured kinds of a height up
to the end that were not pushed before. Once windows are read, its height is in the last
one, which does not mark the kinds; before, they are those of reported failures. -/
structure Justifies (c : IndexerConfig) (j : Journal) (r : Request) : Prop where
  fresh : ∀ r' ∈ j.pushes, r'.height = r.height →
    ∀ kind, r'.asks kind = true → r.asks kind = false
  some : ∃ kind, r.asks kind = true
  configured : ∀ kind, r.asks kind = true → c.indexes kind = true
  inside : c.pastEnd r.height = false
  unmarked : ∀ low high statuses, j.window? = .some (low, high, statuses) →
    low ≤ r.height ∧ r.height ≤ high ∧
      ∀ kind, r.asks kind = true → c.reindex = true ∨ marks statuses r.height kind = false
  failed : j.window? = none → c.reattemptFailedBlocks = true ∧
    ∃ records, .failures records ∈ j ∧
      ∀ kind, r.asks kind = true → ∃ f ∈ records, f.height = r.height ∧ f.kind = kind

/-- Each push is justified by what stands before it. -/
def Sound (c : IndexerConfig) (j : Journal) : Prop :=
  ∀ (before after : Journal) r, j = before ++ .pushed r :: after → before.Justifies c r

variable {c : IndexerConfig} {j : Journal} {e : EnqueueEvent} {r : Request}

/-! ## Longer journals -/

theorem sound_nil : Sound c [] := by
  intro before after r split
  simp at split

/-- Where a journal with one more event is split. -/
theorem split_snoc {x : EnqueueEvent} {before after : Journal}
    (h : j ++ [e] = before ++ x :: after) :
    (before = j ∧ x = e) ∨ ∃ after', j = before ++ x :: after' := by
  rcases after.eq_nil_or_concat with rfl | ⟨after', last, rfl⟩
  · obtain ⟨rfl, same⟩ := List.append_inj' h rfl
    exact .inl ⟨rfl, (List.cons.inj same).1.symm⟩
  · rw [List.concat_eq_append, ← List.cons_append, ← List.append_assoc] at h
    exact .inr ⟨after', (List.append_inj' h rfl).1⟩

/-- What the store tells needs no justification. -/
theorem Sound.snoc (h : j.Sound c) (told : e.request? = none) : Sound c (j ++ [e]) := by
  intro before after r split
  rcases split_snoc split with ⟨rfl, rfl⟩ | ⟨after', split⟩
  · cases told
  · exact h before after' r split

theorem Sound.push (h : j.Sound c) (justifies : j.Justifies c r) :
    Sound c (j ++ [.pushed r]) := by
  intro before after r' split
  rcases split_snoc split with ⟨rfl, same⟩ | ⟨after', split⟩
  · cases same
    exact justifies
  · exact h before after' r' split

@[simp] theorem pushes_push (j : Journal) (r : Request) :
    pushes (j ++ [.pushed r]) = j.pushes ++ [r] := by
  simp [pushes, EnqueueEvent.request?]

theorem pushes_snoc (told : e.request? = none) : pushes (j ++ [e]) = j.pushes := by
  simp [pushes, told]

theorem pushes_told (j : Journal) {ε α : Type} {event : α → EnqueueEvent}
    (unpushed : ∀ a, (event a).request? = none) (answer : Except ε α) :
    (j.told event answer).pushes = j.pushes := by
  cases answer with
  | ok a => exact pushes_snoc (unpushed a)
  | error e => rfl

@[simp] theorem window?_push (j : Journal) (r : Request) :
    window? (j ++ [.pushed r]) = j.window? := by
  simp [window?, EnqueueEvent.window?]

@[simp] theorem window?_status (j : Journal) (low high : Int) (statuses : List BlockStatus) :
    window? (j ++ [.status low high statuses]) = some (low, high, statuses) := by
  simp [window?, EnqueueEvent.window?]

/-! ## Sound journals -/

/-- A request that was pushed, at its place. -/
theorem split_of_mem_pushes (h : r ∈ j.pushes) :
    ∃ before after : Journal, j = before ++ .pushed r :: after := by
  obtain ⟨e, mem, request⟩ := List.mem_filterMap.mp h
  cases e with
  | failures records => cases request
  | status low high statuses => cases request
  | pushed r' =>
    cases request
    exact List.append_of_mem mem

/-- A relation that every element has to all before it holds pairwise. -/
theorem pairwise_of_split {α : Type} {R : α → α → Prop} {xs : List α}
    (h : ∀ before after b, xs = before ++ b :: after → ∀ a ∈ before, R a b) : xs.Pairwise R := by
  induction xs using List.reverseRecOn with
  | nil => exact .nil
  | append_singleton xs x ih =>
    refine List.pairwise_append.mpr ⟨ih ?_, List.pairwise_singleton R x, ?_⟩
    · intro before after b split a ha
      refine h before (after ++ [x]) b ?_ a ha
      rw [split, List.append_assoc, List.cons_append]
    · intro a ha b hb
      obtain rfl := List.mem_singleton.mp hb
      exact h xs [] b rfl a ha

theorem Sound.orderly (h : j.Sound c) : Orderly c j.pushes where
  once := by
    unfold pushes
    rw [List.pairwise_filterMap]
    refine pairwise_of_split fun before after e split a mem r' request' r request => ?_
    cases e with
    | failures records => cases request
    | status low high statuses => cases request
    | pushed r =>
      cases request
      intro height kind both
      have earlier : r' ∈ pushes before := List.mem_filterMap.mpr ⟨a, mem, request'⟩
      have fresh := (h before after r split).fresh r' earlier height kind both.1
      rw [both.2] at fresh
      cases fresh
  some r mem := by
    obtain ⟨before, after, split⟩ := split_of_mem_pushes mem
    exact (h before after r split).some
  configured r mem := by
    obtain ⟨before, after, split⟩ := split_of_mem_pushes mem
    exact (h before after r split).configured
  inside ends r mem := by
    obtain ⟨before, after, split⟩ := split_of_mem_pushes mem
    have inside := (h before after r split).inside
    simpa [IndexerConfig.pastEnd, ends] using inside

/-- **In a sound journal nothing is pushed twice, and nothing without a reason.** -/
theorem Sound.pushedOnce (h : j.Sound c) : PushedOnce c j where
  toOrderly := h.orderly
  unmarked before after r low high statuses split :=
    (h before after r split).unmarked low high statuses
  failed before after r split := (h before after r split).failed

/-! ## Tasks that keep a journal -/

variable {σ ε ε' α β : Type} (Tells : Journal → σ → Prop)

/-- Whatever journal the one state tells, the other one does. -/
def Keeps (s s' : σ) : Prop := ∀ j, Tells j s → Tells j s'

/-- From a sound journal as `pre` says the task keeps it sound at every call, and comes to
a value with one as `post` says. The others leave the journal alone. -/
def Tracks (c : IndexerConfig) (pre : Journal → Prop) (x : Task σ ε α)
    (post : α → Journal → Prop) : Prop :=
  ∀ s j, Tells j s → j.Sound c → pre j →
    x.outcome.Ensures (Keeps Tells) (fun _ s' => ∃ j', Tells j' s' ∧ Sound c j')
      (fun o s' => ∃ j', Tells j' s' ∧ Sound c j' ∧ ∀ a, o = .ok a → post a j') s

variable {Tells} {pre pre' : Journal → Prop} {mid post : α → Journal → Prop}

theorem tracks_pure {a : α} (h : ∀ j, pre j → post a j) :
    Tracks Tells c pre (pure a : Task σ ε α) post := by
  intro s j tells sound starts
  refine ⟨j, tells, sound, fun b same => ?_⟩
  cases same
  exact h j starts

theorem tracks_never : Tracks Tells c pre (Task.ofUnending .never : Task σ ε α) post :=
  fun _ _ _ _ _ => Unending.ensures_never _ _

theorem Tracks.bind {x : Task σ ε α} {f : α → Task σ ε β} {post : β → Journal → Prop}
    (hx : Tracks Tells c pre x mid) (hf : ∀ a, Tracks Tells c (mid a) (f a) post) :
    Tracks Tells c pre (x >>= f) post := by
  intro s j tells sound starts
  rw [Task.outcome_bind]
  refine (hx s j tells sound starts).bind fun o s' ⟨j', tells', sound', ends⟩ => ?_
  cases o with
  | ok a => exact hf a s' j' tells' sound' (ends a rfl)
  | error e =>
    refine ⟨j', tells', sound', fun b same => ?_⟩
    cases same

theorem Tracks.weaken {x : Task σ ε α} (hx : Tracks Tells c pre x mid)
    (starts : ∀ j, pre' j → pre j) (ends : ∀ a j, mid a j → post a j) :
    Tracks Tells c pre' x post := by
  intro s j tells sound here
  refine (hx s j tells sound (starts j here)).mono fun o s' ⟨j', tells', sound', there⟩ => ?_
  exact ⟨j', tells', sound', fun a value => ends a j' (there a value)⟩

/-- A task that leaves the journal alone. -/
theorem tracks_of_keeps {x : Task σ ε α} (hx : x.outcome.Always (Keeps Tells)) :
    Tracks Tells c pre x fun _ => pre := by
  intro s j tells sound starts
  have kept : x.outcome.Ensures (Keeps Tells) (fun _ s' => Tells j s') (fun _ s' => Tells j s') s :=
    hx.ensures (fun _ _ keeps => keeps j) (fun _ _ keeps => keeps j) tells
  refine kept.weaken (fun _ _ => id) (fun _ s' tells' => ⟨j, tells', sound⟩) ?_
  exact fun _ s' tells' => ⟨j, tells', sound, fun _ _ => starts⟩

/-- A call that tells something. -/
theorem tracks_ofCall {wrap : ε' → ε} {call : Call σ ε' α} {event : α → EnqueueEvent}
    (unpushed : ∀ a, (event a).request? = none)
    (h : ∀ j s, Tells j s → Tells (j.told event (call.run.run s).1) (call.run.run s).2) :
    Tracks Tells c pre (Task.ofCall wrap call) fun a j => ∃ j', pre j' ∧ j = j' ++ [event a] := by
  intro s j tells sound starts
  refine Unending.ensures_ofState fun s' keeps => ?_
  have tells' := h j s' (keeps j tells)
  have run : (Except.mapError wrap <$> call.run).run s' =
      ((call.run.run s').1.mapError wrap, (call.run.run s').2) := rfl
  rw [run]
  cases answer : (call.run.run s').1 with
  | ok a =>
    rw [answer] at tells'
    refine ⟨⟨_, tells', sound.snoc (unpushed a)⟩, _, tells', sound.snoc (unpushed a), ?_⟩
    intro b same
    cases same
    exact ⟨j, starts, rfl⟩
  | error e =>
    rw [answer] at tells'
    refine ⟨⟨j, tells', sound⟩, j, tells', sound, ?_⟩
    intro b same
    cases same

end Journal

end ChainIndex
