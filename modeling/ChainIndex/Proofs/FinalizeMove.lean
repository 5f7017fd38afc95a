/-
The move of finalize events into the lists of the begin and the end of a block. An event that
carries exactly one of the two modes belongs to that list, and an event with both or neither is
refused, whatever other modes it carries and however often. The move is all or nothing: it
parts the events in their order if all of them belong to a list, and otherwise leaves the
results as they were. What it leaves is not moved again.
-/
import ChainIndex.Block.Events
import ChainIndex.Proofs.Outcomes
import Mathlib.Data.List.Perm.Basic

namespace ChainIndex

namespace Event

/-- The mode is among those of the event. -/
def Carries (mode : String) (e : Event) : Prop := ⟨"mode", mode⟩ ∈ e.attributes

instance (mode : String) : DecidablePred (Carries mode) :=
  fun e => inferInstanceAs (Decidable (⟨"mode", mode⟩ ∈ e.attributes))

theorem hasMode_eq (mode : String) (e : Event) : e.hasMode mode = decide (e.Carries mode) := by
  rw [Bool.eq_iff_iff, hasMode, List.any_eq_true, decide_eq_true_eq, Carries]
  constructor
  · rintro ⟨⟨key, value⟩, there, same⟩
    obtain ⟨rfl, rfl⟩ : key = "mode" ∧ value = mode := by simpa using same
    exact there
  · exact fun there => ⟨_, there, by simp⟩

/-- The event belongs to one of the two lists and not to the other. -/
def Placed (e : Event) : Prop := Xor (e.Carries "BeginBlock") (e.Carries "EndBlock")

/-- Why an event cannot be placed. -/
inductive Refused (e : Event) : ModeError → Prop
  | both (begins : e.Carries "BeginBlock") (ends : e.Carries "EndBlock") :
    Refused e (.both e.eventType)
  | neither (noBegin : ¬ e.Carries "BeginBlock") (noEnd : ¬ e.Carries "EndBlock") :
    Refused e (.neither e.eventType)

theorem placed_or_refused (e : Event) : e.Placed ∨ ∃ error, e.Refused error := by
  by_cases begins : e.Carries "BeginBlock" <;> by_cases ends : e.Carries "EndBlock"
  · exact .inr ⟨_, .both begins ends⟩
  · exact .inl (.inl ⟨begins, ends⟩)
  · exact .inl (.inr ⟨ends, begins⟩)
  · exact .inr ⟨_, .neither begins ends⟩

theorem Refused.not_placed {e : Event} {error : ModeError} (refused : e.Refused error) :
    ¬ e.Placed := by
  rintro (⟨begins, noEnd⟩ | ⟨ends, noBegin⟩)
  · cases refused with
    | both _ ends => exact noEnd ends
    | neither noBegin _ => exact noBegin begins
  · cases refused with
    | both begins _ => exact noBegin begins
    | neither _ noEnd => exact noEnd ends

end Event

/-! ## Parting the events -/

variable {e : Event} {es before after : List Event} {error : ModeError}

/-- The events of a mode, in order. -/
def carrying (mode : String) (es : List Event) : List Event :=
  es.filter fun e => e.Carries mode

/-- A placed event goes before the others of its list. -/
theorem splitFinalize_cons_placed (placed : e.Placed) (es : List Event) :
    splitFinalize (e :: es) = (splitFinalize es).map fun parts =>
      (carrying "BeginBlock" [e] ++ parts.1, carrying "EndBlock" [e] ++ parts.2) := by
  rw [splitFinalize, Event.isBegin, Event.isEnd, Event.hasMode_eq, Event.hasMode_eq]
  rcases placed with ⟨begins, noEnd⟩ | ⟨ends, noBegin⟩
  · have first : carrying "BeginBlock" [e] = [e] := by simp [carrying, begins]
    have second : carrying "EndBlock" [e] = [] := by simp [carrying, noEnd]
    rw [first, second, decide_eq_true begins, decide_eq_false noEnd]
    cases splitFinalize es <;> rfl
  · have first : carrying "BeginBlock" [e] = [] := by simp [carrying, noBegin]
    have second : carrying "EndBlock" [e] = [e] := by simp [carrying, ends]
    rw [first, second, decide_eq_true ends, decide_eq_false noBegin]
    cases splitFinalize es <;> rfl

theorem splitFinalize_cons_refused (refused : e.Refused error) (es : List Event) :
    splitFinalize (e :: es) = .error error := by
  rw [splitFinalize, Event.isBegin, Event.isEnd, Event.hasMode_eq, Event.hasMode_eq]
  cases refused with
  | both begins ends => simp [begins, ends]
  | neither noBegin noEnd => simp [noBegin, noEnd]

theorem splitFinalize_placed (placed : ∀ e ∈ es, e.Placed) :
    splitFinalize es = .ok (carrying "BeginBlock" es, carrying "EndBlock" es) := by
  induction es with
  | nil => rfl
  | cons e es ih =>
    obtain ⟨here, others⟩ := List.forall_mem_cons.mp placed
    have apart (mode : String) : carrying mode (e :: es) = carrying mode [e] ++ carrying mode es :=
      List.filter_append [e] es
    rw [splitFinalize_cons_placed here, ih others, apart, apart]
    rfl

/-- The first event that cannot be placed is the end of it. -/
theorem splitFinalize_refused (placed : ∀ e ∈ before, e.Placed) (refused : e.Refused error) :
    splitFinalize (before ++ e :: after) = .error error := by
  induction before with
  | nil => exact splitFinalize_cons_refused refused after
  | cons e' before ih =>
    obtain ⟨here, others⟩ := List.forall_mem_cons.mp placed
    rw [List.cons_append, splitFinalize_cons_placed here, ih others]
    rfl

/-- All events are placed, or there is a first one that is not. -/
theorem all_placed_or_first_refused (es : List Event) : (∀ e ∈ es, e.Placed) ∨
    ∃ before e after error, es = before ++ e :: after ∧ (∀ e ∈ before, e.Placed) ∧
      e.Refused error := by
  induction es with
  | nil => exact .inl fun e there => absurd there List.not_mem_nil
  | cons e es ih =>
    rcases e.placed_or_refused with here | ⟨error, refused⟩
    · rcases ih with others | ⟨before, e', after, error, rfl, placed, refused⟩
      · exact .inl (List.forall_mem_cons.mpr ⟨here, others⟩)
      · exact .inr ⟨e :: before, e', after, error, rfl, List.forall_mem_cons.mpr ⟨here, placed⟩,
          refused⟩
    · exact .inr ⟨[], e, es, error, rfl, fun e there => absurd there List.not_mem_nil, refused⟩

/-- The two lists have every event once. -/
theorem carrying_perm (placed : ∀ e ∈ es, e.Placed) :
    (carrying "BeginBlock" es ++ carrying "EndBlock" es).Perm es := by
  have rest : carrying "EndBlock" es = es.filter fun e => !decide (e.Carries "BeginBlock") := by
    refine List.filter_congr fun e there => ?_
    rcases placed e there with ⟨begins, noEnd⟩ | ⟨ends, noBegin⟩
    · simp [begins, noEnd]
    · simp [ends, noBegin]
  rw [rest]
  exact List.filter_append_perm _ es

/-! ## Moving them -/

namespace BlockResults

/-- The results when all finalize events are placed. -/
def parted (r : BlockResults) : BlockResults :=
  { r with
    beginEvents := r.beginEvents ++ carrying "BeginBlock" r.finalizeEvents
    endEvents := r.endEvents ++ carrying "EndBlock" r.finalizeEvents
    finalizeEvents := [] }

/-- The events of all three lists. -/
def allEvents (r : BlockResults) : List Event :=
  r.beginEvents ++ r.endEvents ++ r.finalizeEvents

variable {r : BlockResults}

theorem parted_of_none (none : r.finalizeEvents = []) : r.parted = r := by
  obtain ⟨height, txResults, begins, ends, events⟩ := r
  cases none
  simp [parted, carrying]

theorem moveFinalize_placed (placed : ∀ e ∈ r.finalizeEvents, e.Placed) :
    moveFinalize.run.run r = (.ok (), r.parted) := by
  rw [moveFinalize, Call.run_bind_ok Call.run_get, splitFinalize_placed placed]
  split
  · next none =>
    rw [parted_of_none (List.isEmpty_iff.mp none)]
    rfl
  · rfl

theorem moveFinalize_refused (all : r.finalizeEvents = before ++ e :: after)
    (placed : ∀ e ∈ before, e.Placed) (refused : e.Refused error) :
    moveFinalize.run.run r = (.error error, r) := by
  have some : ¬ r.finalizeEvents.isEmpty = true := by simp [all]
  rw [moveFinalize, Call.run_bind_ok Call.run_get, if_neg some, all,
    splitFinalize_refused placed refused]
  rfl

theorem allEvents_parted (placed : ∀ e ∈ r.finalizeEvents, e.Placed) :
    r.parted.allEvents.Perm r.allEvents := by
  have inner : (carrying "BeginBlock" r.finalizeEvents ++ r.endEvents).Perm
      (r.endEvents ++ carrying "BeginBlock" r.finalizeEvents) := List.perm_append_comm
  calc r.parted.allEvents
      = r.beginEvents ++ ((carrying "BeginBlock" r.finalizeEvents ++ r.endEvents) ++
          carrying "EndBlock" r.finalizeEvents) := by
        simp [allEvents, parted]
    List.Perm _ (r.beginEvents ++ ((r.endEvents ++ carrying "BeginBlock" r.finalizeEvents) ++
          carrying "EndBlock" r.finalizeEvents)) := (inner.append_right _).append_left _
    _ = r.beginEvents ++ r.endEvents ++ (carrying "BeginBlock" r.finalizeEvents ++
          carrying "EndBlock" r.finalizeEvents) := by
        simp
    List.Perm _ r.allEvents := (carrying_perm placed).append_left _

/-- **The move of finalize events is an ordered partition, all of it or none.** It fails exactly
if some finalize event carries both modes or neither, with the first such event for its reason,
and then the results are as they were. Otherwise the events of each mode stand in their order
behind the old ones of their list, no finalize event is left, nothing else has changed, and no
event is lost or doubled. A second move fails as the first or changes nothing. -/
theorem finalize_move_is_all_or_none (r : BlockResults) :
    ((∃ error, (moveFinalize.run.run r).1 = .error error) ↔
      ∃ e ∈ r.finalizeEvents, (e.Carries "BeginBlock" ∧ e.Carries "EndBlock") ∨
        (¬ e.Carries "BeginBlock" ∧ ¬ e.Carries "EndBlock")) ∧
    (∀ error, (moveFinalize.run.run r).1 = .error error →
      (moveFinalize.run.run r).2 = r ∧ ∃ before e after, r.finalizeEvents = before ++ e :: after ∧
        (∀ e ∈ before, e.Placed) ∧ e.Refused error) ∧
    ((moveFinalize.run.run r).1 = .ok () →
      (moveFinalize.run.run r).2 = { r with
        beginEvents := r.beginEvents ++ carrying "BeginBlock" r.finalizeEvents
        endEvents := r.endEvents ++ carrying "EndBlock" r.finalizeEvents
        finalizeEvents := [] } ∧
      (moveFinalize.run.run r).2.allEvents.Perm r.allEvents ∧
      (moveFinalize.run.run r).2.allEvents.length = r.allEvents.length) ∧
    moveFinalize.run.run (moveFinalize.run.run r).2 = moveFinalize.run.run r := by
  rcases all_placed_or_first_refused r.finalizeEvents with
    placed | ⟨before, e, after, error, all, placed, refused⟩
  · have moved := moveFinalize_placed placed
    have none : r.parted.finalizeEvents = [] := rfl
    have again : moveFinalize.run.run r.parted = (.ok (), r.parted) := by
      rw [moveFinalize_placed (by simp [none]), parted_of_none none]
    have perm := allEvents_parted placed
    rw [moved]
    refine ⟨iff_of_false ?_ ?_, ?_, fun _ => ⟨rfl, perm, perm.length_eq⟩, again⟩
    · rintro ⟨error, failed⟩
      cases failed
    · rintro ⟨e, there, ⟨begins, ends⟩ | ⟨noBegin, noEnd⟩⟩
      · exact (Event.Refused.both begins ends).not_placed (placed e there)
      · exact (Event.Refused.neither noBegin noEnd).not_placed (placed e there)
    · intro error failed
      cases failed
  · have failed := moveFinalize_refused all placed refused
    rw [failed]
    refine ⟨iff_of_true ⟨error, rfl⟩ ⟨e, by simp [all], ?_⟩, ?_, ?_, failed⟩
    · cases refused with
      | both begins ends => exact .inl ⟨begins, ends⟩
      | neither noBegin noEnd => exact .inr ⟨noBegin, noEnd⟩
    · intro error' same
      cases same
      exact ⟨rfl, before, e, after, all, placed, refused⟩
    · intro well
      cases well

/-- Events that repeat their mode or carry others beside it. -/
def severalModes : BlockResults :=
  let mode (value : String) : Attribute := ⟨"mode", value⟩
  { BlockResults.empty with
    beginEvents := [⟨"first", []⟩]
    finalizeEvents := [⟨"mint", [mode "EndBlock", ⟨"amount", "1"⟩, mode "EndBlock"]⟩,
      ⟨"rewards", [mode "PreBlock", mode "BeginBlock"]⟩] }

/-- An event with both modes behind one that is placed. -/
def bothModes : BlockResults :=
  { severalModes with
    finalizeEvents := severalModes.finalizeEvents ++
      [⟨"vote", [⟨"mode", "BeginBlock"⟩, ⟨"mode", "EndBlock"⟩]⟩, ⟨"none", []⟩] }

theorem finalize_move_is_all_or_none_severalModes :
    (∃ after, moveFinalize.run.run severalModes = (.ok (), after) ∧
      after.beginEvents.map (·.eventType) = ["first", "rewards"] ∧
      after.endEvents.map (·.eventType) = ["mint"] ∧ after.finalizeEvents = [] ∧
      after.allEvents.length = severalModes.allEvents.length ∧
      moveFinalize.run.run after = (.ok (), after)) ∧
    moveFinalize.run.run bothModes = (.error (.both "vote"), bothModes) := by
  obtain ⟨-, -, moves, twice⟩ := finalize_move_is_all_or_none severalModes
  obtain ⟨-, fails, -, -⟩ := finalize_move_is_all_or_none bothModes
  have well : (moveFinalize.run.run severalModes).1 = .ok () := by decide
  have refused : (moveFinalize.run.run bothModes).1 = .error (.both "vote") := by decide
  obtain ⟨moved, -, length⟩ := moves well
  have ran : moveFinalize.run.run severalModes = (.ok (), severalModes.parted) :=
    Prod.ext well moved
  rw [ran] at length twice
  exact ⟨⟨_, ran, by decide, by decide, rfl, length, twice⟩, Prod.ext refused (fails _ refused).1⟩

end BlockResults

end ChainIndex
