/-
What a refused registration leaves behind. In a registry of events no list changes,
though an empty one may come where there was none; since no lookup tells an empty list
from a missing one, every event has the data that it had, and so it stays whatever is
registered later. But a refused call for an epoch makes the epoch known, as an accepted
one does. A registry of messages stays as it was altogether.
-/
import ChainIndex.Proofs.Precedence

namespace ChainIndex

/-! ## Registries with the same handlers -/

namespace Roster

variable {ρ γ κ α ε : Type} {R : Roster ρ γ κ α ε} {r r' : ρ}

/-- The registries have the same handlers under every key. -/
def Agree (R : Roster ρ γ κ α ε) (r r' : ρ) : Prop :=
  ∀ key, R.handlers r' key = R.handlers r key

theorem Agree.fits_iff (h : R.Agree r r') (call : γ) : R.Fits r' call ↔ R.Fits r call := by
  rw [Fits, Fits, h]

variable [DecidableEq κ]

/-- A call is accepted by both or refused by both, and they still agree. -/
theorem Agree.step (h : R.Agree r r') (law : R.Lawful) (call : γ) :
    R.Agree (R.step r call) (R.step r' call) := by
  intro key
  by_cases fits : R.Fits r call
  · rw [(law.of_fits r call fits).2, (law.of_fits r' call ((h.fits_iff call).mpr fits)).2, h]
  · have misfit := mt (h.fits_iff call).mp fits
    rw [(law.of_not_fits r call fits).2, (law.of_not_fits r' call misfit).2, h]

theorem Agree.after (h : R.Agree r r') (law : R.Lawful) (calls : List γ) :
    R.Agree (R.after calls r) (R.after calls r') := by
  induction calls generalizing r r' with
  | nil => exact h
  | cons call calls ih => exact ih (h.step law call)

theorem Lawful.agree_of_refused (law : R.Lawful) {call : γ} (refused : R.accepts r call = false) :
    R.Agree r (R.step r call) := by
  have misfit : ¬R.Fits r call := by
    rw [← law.accepts_iff, refused]
    exact Bool.false_ne_true
  exact (law.of_not_fits r call misfit).2

end Roster

/-! ## Events -/

/-- A dispatch looks at nothing but lists, and at an empty one as at a missing one. -/
theorem EventHandlers.dispatch_congr {t t' : EventHandlers}
    (same : ∀ key, HandlerTable.get t' key = HandlerTable.get t key) (height : Int)
    (es : BlockEvents) : t'.dispatch height es = t.dispatch height es := by
  have each : t'.dispatchEvent height = t.dispatchEvent height := by
    funext position e
    rw [dispatchEvent, dispatchEvent, same]
  rw [dispatch, dispatch, each]

namespace EventRegistry

variable {registry registry' after : EventRegistry}

/-- Nothing but the known epochs tells the registries apart. -/
structure Alike (registry registry' : EventRegistry) : Prop where
  ids : ∀ position eventType, registry'.ids position eventType = registry.ids position eventType
  dispatch : ∀ height es, registry'.dispatch height es = registry.dispatch height es
  dispatchEpoch : ∀ epoch height es,
    registry'.dispatchEpoch epoch height es = registry.dispatchEpoch epoch height es

theorem alike_of_agree (h : roster.Agree registry registry') : registry.Alike registry' where
  ids position eventType :=
    congrArg (fun hs => hs.map fun h : Registered EventHandler => h.id) (h (none, position, eventType))
  dispatch := EventHandlers.dispatch_congr fun key => h (none, key)
  dispatchEpoch epoch := EventHandlers.dispatch_congr fun key => h (some epoch, key)

/-- A list under a key makes the epoch of the key known. -/
theorem hasEpoch_setHandlers (key : Option String × BlockPosition × String)
    (hs : List (Registered EventHandler)) (epoch : String) :
    (registry.setHandlers key hs).hasEpoch epoch =
      (registry.hasEpoch epoch || key.1 == some epoch) := by
  obtain ⟨place, key⟩ := key
  cases place with
  | none => simp [setHandlers, setScope, hasEpoch]
  | some name =>
    by_cases same : name = epoch
    · simp [setHandlers, setScope, setEpoch, hasEpoch, same]
    · have kept (entry : String × EventHandlers) :
          (entry.1 != name && entry.1 == epoch) = (entry.1 == epoch) := by
        by_cases here : entry.1 = epoch
        · simp [here, Ne.symm same]
        · simp [here]
      simp [setHandlers, setScope, setEpoch, hasEpoch, List.any_filter, kept, Bool.or_comm]

/-- An epoch is known once a call has named it, whether the call is accepted or refused. -/
theorem hasEpoch_step (registry : EventRegistry) (call : EventCall) (epoch : String) :
    (roster.step registry call).hasEpoch epoch =
      (registry.hasEpoch epoch || call.key.1 == some epoch) := by
  by_cases fits : roster.Fits registry call
  · rw [← hasEpoch_setHandlers]
    exact congrArg (fun ran => ran.2.hasEpoch epoch) (run_of_fits fits)
  · obtain ⟨e, ran⟩ := run_of_not_fits fits
    rw [← hasEpoch_setHandlers]
    exact congrArg (fun ran => ran.2.hasEpoch epoch) ran

theorem hasEpoch_after (registry : EventRegistry) (calls : List EventCall) (epoch : String) :
    (roster.after calls registry).hasEpoch epoch =
      (registry.hasEpoch epoch || calls.any (·.key.1 == some epoch)) := by
  induction calls generalizing registry with
  | nil => simp [Roster.after]
  | cons call calls ih =>
    change (roster.after calls (roster.step registry call)).hasEpoch epoch = _
    rw [ih, hasEpoch_step, List.any_cons, Bool.or_assoc]

/-- A refused call is a step that changes no list. -/
theorem agree_of_refused {call : EventCall} {e : EventHandlerError}
    (refused : call.register.run.run registry = (.error e, after)) :
    roster.Agree registry after ∧ after = roster.step registry call := by
  have step : roster.step registry call = after := congrArg Prod.snd refused
  have rejected : roster.accepts registry call = false :=
    congrArg (fun ran => ran.1.isOk) refused
  exact ⟨step ▸ lawful_roster.agree_of_refused rejected, step.symm⟩

end EventRegistry

/-! ## Messages -/

/-- A registry of messages stays as it was. -/
theorem MessageRegistry.eq_of_refused {registry after : MessageRegistry} {call : MessageCall}
    {e : MessageHandlerError}
    (refused : (roster.register call).run.run registry = (.error e, after)) : after = registry := by
  cases inserted : Registered.insert MessageHandler.typeUrl call.typeUrl
      ⟨call.id, call.isGeneric, call.handler⟩ (HandlerTable.get registry call.typeUrl) with
  | ok hs => cases (run_register_of_ok inserted).symm.trans refused
  | error cause => exact congrArg Prod.snd (refused.symm.trans (run_register_of_error inserted))

/-- **What a refused registration leaves.** Whatever calls come after it, a registry of events
answers as it would without the refused call, but it knows the epoch of that call; so the refusal
is not seen at all exactly if the epoch, if there is one, was known before. A registry of messages
stays as it was. -/
theorem refused_registration_leaves_epoch (events : EventRegistry) (messages : MessageRegistry) :
    (∀ (call : EventCall) (e : EventHandlerError) (after : EventRegistry),
      call.register.run.run events = (.error e, after) →
      (∀ later : List EventCall,
        let without := EventRegistry.roster.after later events
        let refused := EventRegistry.roster.after later after
        without.Alike refused ∧
          ∀ epoch, refused.hasEpoch epoch = (without.hasEpoch epoch || call.key.1 == some epoch)) ∧
      ((∀ epoch, after.hasEpoch epoch = events.hasEpoch epoch) ↔
        ∀ epoch, call.key.1 = some epoch → events.hasEpoch epoch = true)) ∧
    ∀ (call : MessageCall) (e : MessageHandlerError) (after : MessageRegistry),
      (MessageRegistry.roster.register call).run.run messages = (.error e, after) →
      after = messages := by
  refine ⟨fun call e after refused => ?_, fun _ _ _ => MessageRegistry.eq_of_refused⟩
  obtain ⟨agree, rfl⟩ := EventRegistry.agree_of_refused refused
  refine ⟨fun later => ⟨?_, fun epoch => ?_⟩, ?_⟩
  · exact EventRegistry.alike_of_agree (agree.after EventRegistry.lawful_roster later)
  · rw [EventRegistry.hasEpoch_after, EventRegistry.hasEpoch_after, EventRegistry.hasEpoch_step,
      Bool.or_right_comm]
  · refine forall_congr' fun epoch => ?_
    rw [EventRegistry.hasEpoch_step]
    cases known : events.hasEpoch epoch <;> simp

/-- A call for an epoch with a handler of other events. -/
def mismatched (epoch : String) : EventCall :=
  .epoch epoch .beginBlock "rewards" "a" .coinReceived

theorem mismatched_refused (registry : EventRegistry) (epoch : String) :
    ∃ e after, (mismatched epoch).register.run.run registry = (.error e, after) := by
  have misfit : ¬EventRegistry.roster.Fits registry (mismatched epoch) := by
    intro fits
    have other : "coin_received" ≠ "rewards" := by decide
    exact other fits.1
  obtain ⟨e, ran⟩ := EventRegistry.run_of_not_fits misfit
  exact ⟨e, _, ran⟩

/-- A call for multi-sends with the handler of sends. -/
def misplaced : MessageCall :=
  ⟨false, MessageHandler.multiSendType, "a", .send⟩

theorem misplaced_refused :
    ∃ e, (MessageRegistry.roster.register misplaced).run.run [] = (.error e, []) := by
  have misfit : Registered.insert MessageHandler.typeUrl misplaced.typeUrl
      ⟨misplaced.id, misplaced.isGeneric, misplaced.handler⟩
      (HandlerTable.get [] misplaced.typeUrl) =
        .error (.typeMismatch "a" MessageHandler.multiSendType MessageHandler.sendType) :=
    if_pos (by decide)
  exact ⟨_, MessageRegistry.run_register_of_error misfit⟩

theorem refused_registration_leaves_epoch_day :
    (∃ e after, (mismatched "day").register.run.run .empty = (.error e, after) ∧
      EventRegistry.Alike .empty after ∧ after.hasEpoch "day" = true ∧
      ¬∀ epoch, after.hasEpoch epoch = EventRegistry.empty.hasEpoch epoch) ∧
    ∃ e after, (MessageRegistry.roster.register misplaced).run.run [] = (.error e, after) ∧
      after = [] := by
  obtain ⟨ofEvents, ofMessages⟩ := refused_registration_leaves_epoch .empty []
  constructor
  · obtain ⟨e, after, refused⟩ := mismatched_refused .empty "day"
    obtain ⟨later, unseen⟩ := ofEvents _ _ _ refused
    obtain ⟨alike, epochs⟩ := later []
    refine ⟨e, after, refused, alike, (epochs "day").trans (by decide), fun same => ?_⟩
    exact absurd (unseen.mp same "day" rfl) (by decide)
  · obtain ⟨e, refused⟩ := misplaced_refused
    exact ⟨e, _, refused, ofMessages _ _ _ refused⟩

/-- Not every refused registration leaves the registry as it was: the epoch of one is known. -/
theorem mismatched_makes_epoch_known :
    ¬∀ (calls : List EventCall) (call : EventCall) (e : EventHandlerError) (after : EventRegistry),
      call.register.run.run (EventRegistry.roster.after calls .empty) = (.error e, after) →
      ∀ epoch, after.hasEpoch epoch = (EventRegistry.roster.after calls .empty).hasEpoch epoch := by
  intro claim
  obtain ⟨e, after, refused⟩ := mismatched_refused .empty "day"
  have same := claim [] (mismatched "day") e after refused "day"
  rw [(EventRegistry.agree_of_refused refused).2, EventRegistry.hasEpoch_step] at same
  revert same
  decide

end ChainIndex
