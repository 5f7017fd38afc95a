/-
What a dispatch comes to. Each event of a block and each message of a transaction is
handed to the handlers registered for it, and what the first of them that accepts it
gives stands in the result, at its place. If there are handlers and all of them refuse,
the whole dispatch fails, with an error that names the first event or message of which
this is so. What has no handler adds nothing: a registry of messages has no list without
a handler, and an empty list of a registry of events is looked at as a missing one.
-/
import ChainIndex.Proofs.Precedence

namespace ChainIndex

/-! ## Handing things over one after another -/

namespace Registered

variable {α β γ ε : Type}

/-- There are handlers, and all of them refuse. -/
def Exhausted (run : α → Except ε β) (hs : List (Registered α)) : Prop :=
  hs ≠ [] ∧ ∀ h ∈ hs, ∃ e, run h.handler = .error e

/-- There is no handler and nothing comes of it, or the first handler that accepts gives
this. -/
def Yields (run : α → Except ε (List β)) (hs : List (Registered α)) (data : List β) : Prop :=
  hs = [] ∧ data = [] ∨ Answers run hs data

/-- The result of handing each of `xs` to its handlers, where `run x` is what a handler
makes of `x`. -/
structure TakesFirst (handlers : γ → List (Registered α)) (run : γ → α → Except ε (List β))
    (exhausted : γ → ε) (xs : List γ) (result : Except ε (List β)) : Prop where
  fails_iff : (∃ e, result = .error e) ↔ ∃ x ∈ xs, Exhausted (run x) (handlers x)
  /-- The error is about the first that all of its handlers refuse. -/
  error_iff : ∀ e, result = .error e ↔ ∃ before x after, xs = before ++ x :: after ∧
    (∀ y ∈ before, ¬Exhausted (run y) (handlers y)) ∧ Exhausted (run x) (handlers x) ∧
      e = exhausted x
  /-- Otherwise the parts stand one behind the other, in order. -/
  ok_iff : ∀ data, result = .ok data ↔ ∃ parts,
    List.Forall₂ (fun x part => Yields (run x) (handlers x) part) xs parts ∧ data = parts.flatten

theorem flatten_eq_ok_iff {parts : Except ε (List (List β))} {data : List β} :
    (do return (← parts).flatten) = Except.ok data ↔ ∃ ps, parts = .ok ps ∧ data = ps.flatten := by
  cases parts <;> simp [bind, Except.bind, pure, Except.pure, eq_comm]

theorem flatten_eq_error_iff {parts : Except ε (List (List β))} {e : ε} :
    (do return (← parts).flatten) = Except.error e ↔ parts = .error e := by
  cases parts <;> simp [bind, Except.bind, pure, Except.pure]

/-- What is offered to handlers one by one takes, of each, the first that accepts. -/
theorem takesFirst_of_offer {handlers : γ → List (Registered α)}
    {run : γ → α → Except ε (List β)} {exhausted : γ → ε} {each : γ → Except ε (List β)}
    (offers : ∀ x, each x = offer (run x) (exhausted x) (handlers x)) (xs : List γ) :
    TakesFirst handlers run exhausted xs (do return (← xs.mapM each).flatten) := by
  have gives (x : γ) (part : List β) : each x = .ok part ↔ Yields (run x) (handlers x) part := by
    rw [offers, offer_eq_ok_iff, Yields]
  have refused (x : γ) (e : ε) :
      each x = .error e ↔ Exhausted (run x) (handlers x) ∧ e = exhausted x := by
    rw [offers, offer_eq_error_iff, Exhausted]
  have goes (x : γ) : (∃ part, each x = .ok part) ↔ ¬Exhausted (run x) (handlers x) := by
    constructor
    · rintro ⟨part, well⟩ spent
      cases well.symm.trans ((refused x _).mpr ⟨spent, rfl⟩)
    · intro unspent
      cases result : each x with
      | ok part => exact ⟨part, rfl⟩
      | error e => exact absurd ((refused x e).mp result).1 unspent
  constructor
  case ok_iff =>
    intro data
    simp only [flatten_eq_ok_iff, mapM_eq_ok_iff, gives]
  case error_iff =>
    intro e
    simp only [flatten_eq_error_iff, mapM_eq_error_iff, goes, refused]
  case fails_iff =>
    constructor
    · rintro ⟨e, fails⟩
      obtain ⟨before, x, after, rfl, -, last⟩ := mapM_eq_error_iff.mp (flatten_eq_error_iff.mp fails)
      exact ⟨x, List.mem_append_right _ List.mem_cons_self, ((refused x e).mp last).1⟩
    · rintro ⟨x, hx, spent⟩
      cases result : xs.mapM each with
      | error e => exact ⟨e, rfl⟩
      | ok parts =>
        have unspent : ∀ y ∈ xs, ¬Exhausted (run y) (handlers y) :=
          ((List.forall₂_and_left _ _).mp ((mapM_eq_ok_iff.mp result).imp fun y part well =>
            ⟨(goes y).mp ⟨part, well⟩, well⟩)).1
        exact absurd spent (unspent x hx)

end Registered

/-! ## Events -/

namespace EventRegistry

variable (registry : EventRegistry)

/-- The handlers for all blocks, or those of an epoch, over the events of a block. -/
theorem takesFirst_scope (place : Option String) (height : Int) (es : BlockEvents) :
    Registered.TakesFirst
      (fun x : BlockPosition × Event => roster.handlers registry (place, x.1, x.2.eventType))
      (fun x h => h.read x.2.eventType x.2) (fun x => .exhausted x.2.eventType height) es.placed
      ((registry.scope place).dispatch height es) :=
  Registered.takesFirst_of_offer (fun _ => EventHandlers.dispatchEvent_eq_offer) es.placed

end EventRegistry

/-! ## Messages -/

theorem Registered.place_ne_nil {α : Type} (h : Registered α) (hs : List (Registered α)) :
    h.place hs ≠ [] := by
  intro empty
  have moved := (h.place_perm hs).length_eq
  rw [empty] at moved
  cases moved

namespace MessageRegistry

variable {registry : MessageRegistry}

/-- Every list of the registry has a handler. -/
def Occupied (registry : MessageRegistry) : Prop :=
  ∀ typeUrl, Table.get? registry typeUrl ≠ some []

theorem Occupied.set (occupied : registry.Occupied) {typeUrl : String}
    {hs : List (Registered MessageHandler)} (some : hs ≠ []) :
    Occupied (HandlerTable.set typeUrl hs registry) := by
  intro other
  by_cases here : other = typeUrl
  · subst here
    rw [HandlerTable.set, Table.get?_put_self]
    exact fun empty => some (Option.some.inj empty)
  · rw [HandlerTable.set, Table.get?_put_other here]
    exact occupied other

/-- A call that is accepted gives its key a list with its handler, and one that is refused
leaves no list behind. -/
theorem Occupied.step (occupied : registry.Occupied) (call : MessageCall) :
    Occupied (roster.step registry call) := by
  by_cases fits : roster.Fits registry call
  · have ran := run_register_of_ok (Registered.insert_of_fits fits)
    have after : roster.step registry call = HandlerTable.set call.typeUrl
        ((roster.entry call).place (HandlerTable.get registry call.typeUrl)) registry :=
      congrArg Prod.snd ran
    rw [after]
    exact occupied.set (Registered.place_ne_nil _ _)
  · obtain ⟨e, refused⟩ := Registered.insert_of_not_fits fits
    have after : roster.step registry call = registry :=
      congrArg Prod.snd (run_register_of_error refused)
    rwa [after]

theorem Occupied.after (occupied : registry.Occupied) (calls : List MessageCall) :
    Occupied (roster.after calls registry) := by
  induction calls generalizing registry with
  | nil => exact occupied
  | cons call calls ih => exact ih (occupied.step call)

end MessageRegistry

/-- **A dispatch takes the first handler that accepts.** In a registry after any calls, the
dispatch of a block's events, that of an epoch and that of a transaction's messages fail exactly
if something that has handlers is refused by all of them, and then the error names the first such
event or message; else the result is, in order, what the first accepting handler of each gives. -/
theorem dispatch_takes_first_accepting :
    (∀ (calls : List EventCall) (height : Int) (es : BlockEvents),
      let registry := EventRegistry.roster.after calls .empty
      let handlers (place : Option String) (x : BlockPosition × Event) :=
        EventRegistry.roster.handlers registry (place, x.1, x.2.eventType)
      let read (x : BlockPosition × Event) (h : EventHandler) := h.read x.2.eventType x.2
      let exhausted (x : BlockPosition × Event) := .exhausted x.2.eventType height
      Registered.TakesFirst (handlers none) read exhausted es.placed
        (registry.dispatch height es) ∧
      ∀ epoch, Registered.TakesFirst (handlers (some epoch)) read exhausted es.placed
        (registry.dispatchEpoch epoch height es)) ∧
    ∀ (calls : List MessageCall) (tx : TxRecord),
      let registry := MessageRegistry.roster.after calls []
      (∀ typeUrl, Table.get? registry typeUrl ≠ some []) ∧
      Registered.TakesFirst (fun m => MessageRegistry.roster.handlers registry m.typeUrl)
        (fun m h => h.read m) (fun m => .exhausted m.typeUrl tx.hash) tx.messages
        (registry.dispatch tx) := by
  constructor
  · intro calls height es registry handlers read exhausted
    exact ⟨registry.takesFirst_scope none height es,
      fun epoch => registry.takesFirst_scope (some epoch) height es⟩
  · intro calls tx registry
    have occupied : MessageRegistry.Occupied [] := fun typeUrl listed => by cases listed
    exact ⟨occupied.after calls,
      Registered.takesFirst_of_offer (fun m => MessageRegistry.dispatchMessage_eq_offer)
        tx.messages⟩

end ChainIndex
