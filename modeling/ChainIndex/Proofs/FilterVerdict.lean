/-
Which filter decides about a block event. The filters of a position speak of runs of
events, and several may speak of one event. The mark of an event is written start by
start and, at one start, filter by filter; so the run that starts last decides, and among
the runs of one start that of the last filter. This is the verdict of the last filter that
speaks of the event at all, unless that filter is overruled: another filter has a run that
starts after all of its runs, and says the contrary.
-/
import ChainIndex.Filter
import ChainIndex.Proofs.Outcomes
import Mathlib.Data.List.Forall2
import Mathlib.Data.Nat.Find

namespace ChainIndex

theorem exists_alike_of_mem {α β : Type} {R : α → β → Prop} {fs : List α} {gs : List β}
    (alike : List.Forall₂ R fs gs) {g : β} (hg : g ∈ gs) : ∃ f ∈ fs, R f g := by
  induction alike with
  | nil => cases hg
  | cons related _ ih =>
    rcases List.mem_cons.mp hg with rfl | rest
    · exact ⟨_, List.mem_cons_self, related⟩
    · obtain ⟨f, hf, related⟩ := ih rest
      exact ⟨f, List.mem_cons_of_mem _ hf, related⟩

/-! The last element with a property -/

/-- The last element of a list that has the property. -/
inductive LastWith {α : Type} (P : α → Prop) : List α → α → Prop
  | here {f : α} {fs : List α} : P f → (∀ g ∈ fs, ¬P g) → LastWith P (f :: fs) f
  | later {f g : α} {fs : List α} : LastWith P fs f → LastWith P (g :: fs) f

namespace LastWith

variable {α β : Type} {P Q : α → Prop} {fs : List α} {f g : α}

theorem mem (h : LastWith P fs f) : f ∈ fs := by
  induction h with
  | here => exact List.mem_cons_self
  | later _ ih => exact List.mem_cons_of_mem _ ih

theorem has (h : LastWith P fs f) : P f := by
  induction h with
  | here hf => exact hf
  | later _ ih => exact ih

theorem unique (h : LastWith P fs f) (h' : LastWith P fs g) : f = g := by
  induction h with
  | here _ none =>
    cases h' with
    | here => rfl
    | later rest => exact absurd rest.has (none g rest.mem)
  | later rest ih =>
    cases h' with
    | here _ none => exact absurd rest.has (none _ rest.mem)
    | later rest' => exact ih rest'

theorem exists_or_none (P : α → Prop) (fs : List α) :
    (∃ f, LastWith P fs f) ∨ ∀ f ∈ fs, ¬P f := by
  induction fs with
  | nil => exact .inr fun f hf => absurd hf List.not_mem_nil
  | cons g fs ih =>
    rcases ih with ⟨f, rest⟩ | none
    · exact .inl ⟨f, .later rest⟩
    · by_cases hg : P g
      · exact .inl ⟨g, .here hg none⟩
      · exact .inr (List.forall_mem_cons.mpr ⟨hg, none⟩)

/-- The last one stays the last one while fewer others have the property. -/
theorem narrow (h : LastWith P fs f) (fewer : ∀ g, Q g → P g) (hf : Q f) : LastWith Q fs f := by
  induction h with
  | here _ none => exact .here hf fun g hg q => none g hg (fewer g q)
  | later _ ih => exact .later (ih hf)

/-- Lists that are alike place by place have the last one at the same place. -/
theorem transfer {R : α → β → Prop} {gs : List β} {S : β → Prop} (h : LastWith P fs f)
    (alike : List.Forall₂ R fs gs) (same : ∀ f g, R f g → (P f ↔ S g)) :
    ∃ g, LastWith S gs g ∧ R f g := by
  induction h generalizing gs with
  | here hf none =>
    cases alike with
    | cons related rest =>
      refine ⟨_, .here ((same _ _ related).mp hf) fun g hg s => ?_, related⟩
      obtain ⟨f, hf, related⟩ := exists_alike_of_mem rest hg
      exact none f hf ((same f g related).mpr s)
  | later _ ih =>
    cases alike with
    | cons _ rest =>
      obtain ⟨g, last, related⟩ := ih rest
      exact ⟨g, .later last, related⟩

end LastWith

/-! Two judges of one event -/

section Judges

variable {α : Type} (covers : α → Nat → Nat → Prop) (inclusive : α → Bool) (fs : List α) (i : Nat)

/-- The last filter that speaks of the event at `i`. -/
def LastFilter (f : α) : Prop :=
  LastWith (fun f => ∃ start, covers f start i) fs f

/-- Of the filters that speak of the event at `i` through runs that start last, the last one. -/
def LatestRun (f : α) : Prop :=
  ∃ start, LastWith (covers · start i) fs f ∧ ∀ later, start < later → ∀ g ∈ fs, ¬covers g later i

/-- The last filter that speaks of the event says one thing, and the one whose run starts
after all runs of that filter says the other. -/
def Overruled : Prop :=
  ∃ f g, LastFilter covers fs i f ∧ LatestRun covers fs i g ∧
    (∃ start, covers g start i ∧ ∀ earlier, covers f earlier i → earlier < start) ∧
    inclusive f ≠ inclusive g

variable {covers inclusive fs i} {f g : α}

theorem LatestRun.unique (h : LatestRun covers fs i f) (h' : LatestRun covers fs i g) : f = g := by
  obtain ⟨start, last, none⟩ := h
  obtain ⟨start', last', none'⟩ := h'
  rcases Nat.lt_trichotomy start start' with before | rfl | behind
  · exact absurd last'.has (none start' before g last'.mem)
  · exact last.unique last'
  · exact absurd last.has (none' start behind f last.mem)

theorem LatestRun.exists_of_covers (bound : ∀ f start, covers f start i → start ≤ i)
    (hf : f ∈ fs) {start : Nat} (h : covers f start i) : ∃ g, LatestRun covers fs i g := by
  classical
  let Spoken (start : Nat) : Prop := ∃ f ∈ fs, covers f start i
  have spoken : Spoken start := ⟨f, hf, h⟩
  obtain ⟨f, hf, h⟩ : Spoken (Nat.findGreatest Spoken i) :=
    Nat.findGreatest_spec (bound f start h) spoken
  rcases LastWith.exists_or_none (covers · (Nat.findGreatest Spoken i) i) fs with ⟨g, last⟩ | none
  · refine ⟨g, _, last, fun later behind g hg covered => ?_⟩
    exact Nat.findGreatest_is_greatest behind (bound g later covered) ⟨g, hg, covered⟩
  · exact absurd h (none f hf)

/-- The last filter is the judge by runs too if it has a run that starts last. -/
theorem Overruled.of_ne (last : LastFilter covers fs i f)
    (latest : LatestRun covers fs i g) (differ : inclusive f ≠ inclusive g) :
    Overruled covers inclusive fs i := by
  obtain ⟨start, run, none⟩ := id latest
  refine ⟨f, g, last, latest, ⟨start, run.has, fun earlier covered => ?_⟩, differ⟩
  rcases Nat.lt_trichotomy earlier start with before | rfl | behind
  · exact before
  · have same : f = g := (last.narrow (fun _ h => ⟨_, h⟩) covered).unique run
    exact absurd (congrArg inclusive same) differ
  · exact absurd covered (none earlier behind f last.mem)

/-- The two judges agree on every event on which the last filter is not overruled. -/
theorem judges_agree_iff (bound : ∀ f start, covers f start i → start ≤ i) :
    ((∃ f, LatestRun covers fs i f ∧ inclusive f = true) ↔
      (∃ f, LastFilter covers fs i f ∧ inclusive f = true)) ↔
    ¬Overruled covers inclusive fs i := by
  constructor
  · rintro agree ⟨f, g, last, latest, -, differ⟩
    apply differ
    rw [Bool.eq_iff_iff]
    constructor
    · intro hf
      obtain ⟨g', latest', hg⟩ := agree.mpr ⟨f, last, hf⟩
      exact latest.unique latest' ▸ hg
    · intro hg
      obtain ⟨f', last', hf⟩ := agree.mp ⟨g, latest, hg⟩
      exact last.unique last' ▸ hf
  · intro kept
    have same (f g : α) (last : LastFilter covers fs i f) (latest : LatestRun covers fs i g) :
        inclusive f = inclusive g :=
      Decidable.byContradiction fun differ => kept (.of_ne last latest differ)
    constructor
    · rintro ⟨g, latest, hg⟩
      obtain ⟨start, run, -⟩ := id latest
      rcases LastWith.exists_or_none (fun f => ∃ start, covers f start i) fs with ⟨f, last⟩ | none
      · exact ⟨f, last, (same f g last latest).trans hg⟩
      · exact absurd ⟨start, run.has⟩ (none g run.mem)
    · rintro ⟨f, last, hf⟩
      obtain ⟨start, covered⟩ := last.has
      obtain ⟨g, latest⟩ := LatestRun.exists_of_covers bound last.mem covered
      exact ⟨g, latest, (same f g last latest).symm.trans hf⟩

/-- Lists of filters that are alike place by place have the same judges. -/
theorem LatestRun.transfer {β : Type} {R : α → β → Prop} {gs : List β}
    {covers' : β → Nat → Nat → Prop} (h : LatestRun covers fs i f) (alike : List.Forall₂ R fs gs)
    (same : ∀ f g, R f g → ∀ start i, covers f start i ↔ covers' g start i) :
    ∃ g, LatestRun covers' gs i g ∧ R f g := by
  obtain ⟨start, last, none⟩ := h
  obtain ⟨g, last', related⟩ := last.transfer alike fun f g r => same f g r start i
  refine ⟨g, ⟨start, last', fun later behind g hg covered => ?_⟩, related⟩
  obtain ⟨f, hf, related⟩ := exists_alike_of_mem alike hg
  exact none later behind f hf ((same f g related later i).mpr covered)

end Judges

/-! The marks of the events -/

namespace EventFilter

/-- The filter matches a run of events from `start`, and the place `i` is in the run. -/
def Covers (es : List BlockEvent) (f : EventFilter) (start i : Nat) : Prop :=
  f.matchesAhead (es.drop start) = true ∧ start ≤ i ∧ i < start + f.patterns.length

instance (es : List BlockEvent) (f : EventFilter) (start i : Nat) :
    Decidable (f.Covers es start i) :=
  inferInstanceAs (Decidable (_ ∧ _ ∧ _))

variable {fs : List EventFilter} {es : List BlockEvent}

theorem Covers.start_le {f : EventFilter} {start i : Nat} (h : f.Covers es start i) : start ≤ i :=
  h.2.1

theorem Covers.lt {f : EventFilter} {start i : Nat} (h : f.Covers es start i) : i < es.length := by
  obtain ⟨matched, from_start, inside⟩ := h
  simp only [matchesAhead, Bool.and_eq_true, decide_eq_true_eq, List.length_drop] at matched
  have room := matched.1
  omega

theorem Covers.start_lt {f : EventFilter} {start i : Nat} (h : f.Covers es start i) :
    start < es.length :=
  Nat.lt_of_le_of_lt h.start_le h.lt

theorem getElem?_mark_of_covers (es : List BlockEvent) (f : EventFilter) (start : Nat) {i : Nat}
    {old : Bool} {ms : List Bool} (marked : ms[i]? = some old) :
    (if f.matchesAhead (es.drop start) then mark start f.patterns.length f.inclusive ms
      else ms)[i]? = some (if f.Covers es start i then f.inclusive else old) := by
  by_cases matched : f.matchesAhead (es.drop start) = true
  · simp [mark, Covers, matched, marked]
  · simp [Covers, matched, marked]

/-- What the filters of one start say of an event: the last one of them decides. -/
theorem getElem?_markFrom (fs : List EventFilter) (es : List BlockEvent) (start : Nat) {i : Nat}
    {old : Bool} {ms : List Bool} (marked : ms[i]? = some old) :
    (∃ f, LastWith (Covers es · start i) fs f ∧
      (markFrom fs es start ms)[i]? = some f.inclusive) ∨
    ((markFrom fs es start ms)[i]? = some old ∧ ∀ f ∈ fs, ¬f.Covers es start i) := by
  induction fs generalizing ms old with
  | nil => exact .inr ⟨marked, fun f hf => absurd hf List.not_mem_nil⟩
  | cons f fs ih =>
    rcases ih (getElem?_mark_of_covers es f start marked) with
      ⟨g, last, said⟩ | ⟨said, none⟩
    · exact .inl ⟨g, .later last, said⟩
    · by_cases covered : f.Covers es start i
      · rw [if_pos covered] at said
        exact .inl ⟨f, .here covered none, said⟩
      · rw [if_neg covered] at said
        exact .inr ⟨said, List.forall_mem_cons.mpr ⟨covered, none⟩⟩

/-- The marks after the first `n` starts. -/
def marksBelow (fs : List EventFilter) (es : List BlockEvent) (n : Nat) : List Bool :=
  (List.range n).foldl (fun marks start => markFrom fs es start marks)
    (List.replicate es.length false)

theorem marksBelow_succ (n : Nat) :
    marksBelow fs es (n + 1) = markFrom fs es n (marksBelow fs es n) := by
  simp [marksBelow, List.range_succ]

theorem getElem?_marksBelow (fs : List EventFilter) (n : Nat) {i : Nat} (hi : i < es.length) :
    (∃ f start, LastWith (Covers es · start i) fs f ∧
      (∀ later, start < later → later < n → ∀ g ∈ fs, ¬g.Covers es later i) ∧
      (marksBelow fs es n)[i]? = some f.inclusive) ∨
    ((marksBelow fs es n)[i]? = some false ∧ ∀ start < n, ∀ f ∈ fs, ¬f.Covers es start i) := by
  induction n with
  | zero => exact .inr ⟨by simp [marksBelow, hi], fun start below => absurd below (by omega)⟩
  | succ n ih =>
    rw [marksBelow_succ]
    rcases ih with ⟨f, start, last, none, said⟩ | ⟨said, none⟩ <;>
      rcases getElem?_markFrom fs es n said with
        ⟨g, newest, saidNow⟩ | ⟨saidNow, silent⟩
    case inl.inl | inr.inl =>
      exact .inl ⟨g, n, newest, fun later behind below => by omega, saidNow⟩
    case inl.inr =>
      refine .inl ⟨f, start, last, fun later behind below => ?_, saidNow⟩
      rcases Nat.lt_succ_iff_lt_or_eq.mp below with before | rfl
      · exact none later behind before
      · exact silent
    case inr.inr =>
      refine .inr ⟨saidNow, fun start below => ?_⟩
      rcases Nat.lt_succ_iff_lt_or_eq.mp below with before | rfl
      · exact none start before
      · exact silent

theorem length_markFrom (start : Nat) (ms : List Bool) :
    (markFrom fs es start ms).length = ms.length := by
  induction fs generalizing ms with
  | nil => rfl
  | cons f fs ih =>
    refine (ih _).trans ?_
    by_cases matched : f.matchesAhead (es.drop start) = true <;> simp [mark, matched]

theorem length_marksBelow (n : Nat) : (marksBelow fs es n).length = es.length := by
  induction n with
  | zero => simp [marksBelow]
  | succ n ih => rw [marksBelow_succ, length_markFrom, ih]

theorem length_marks (fs : List EventFilter) (es : List BlockEvent) :
    (marks fs es).length = es.length :=
  length_marksBelow es.length

/-- An event is marked if the filter whose run over it starts last is inclusive. -/
theorem getElem?_marks_eq_true {i : Nat} :
    (marks fs es)[i]? = some true ↔
      ∃ f, LatestRun (Covers es) (speakingOrder fs) i f ∧ f.inclusive = true := by
  by_cases hi : i < es.length
  · rcases getElem?_marksBelow (speakingOrder fs) es.length hi with
      ⟨f, start, last, none, said⟩ | ⟨said, none⟩
    · have latest : LatestRun (Covers es) (speakingOrder fs) i f :=
        ⟨start, last, fun later behind g hg covered =>
          none later behind covered.start_lt g hg covered⟩
      constructor
      · intro marked
        exact ⟨f, latest, Option.some.inj (said.symm.trans marked)⟩
      · rintro ⟨g, latest', included⟩
        rw [← latest.unique latest'] at included
        exact said.trans (congrArg some included)
    · constructor
      · intro marked
        cases said.symm.trans marked
      · rintro ⟨g, ⟨start, last, -⟩, -⟩
        exact absurd last.has (none start last.has.start_lt g last.mem)
  · constructor
    · intro marked
      have inside := (List.getElem?_eq_some_iff.mp marked).1
      rw [length_marks] at inside
      exact absurd inside hi
    · rintro ⟨g, ⟨start, last, -⟩, -⟩
      exact absurd last.has.lt hi

theorem map_filter_zip {ms : List Bool} (same : ms.length = es.length) :
    ((es.zip ms).filter (·.2)).map (·.1) =
      ((List.range es.length).filter (ms[·]? == some true)).filterMap (es[·]?) := by
  induction es generalizing ms with
  | nil => rfl
  | cons e es ih =>
    cases ms with
    | nil => cases same
    | cons m ms =>
      have rest := ih (Nat.succ.inj same)
      cases m <;>
        simp [List.range_succ_eq_map, List.filter_map, Function.comp_def, rest]

/-- The events that are kept stand at the marked places, in their order. -/
theorem keep_eq (es : List BlockEvent) (filtered : fs ≠ []) :
    ∃ places : List Nat, places.Pairwise (· < ·) ∧
      (∀ i, i ∈ places ↔
        ∃ f, LatestRun (Covers es) (speakingOrder fs) i f ∧ f.inclusive = true) ∧
      keep fs es = places.filterMap (es[·]?) := by
  refine ⟨(List.range es.length).filter ((marks fs es)[·]? == some true),
    List.pairwise_lt_range.filter _, fun i => ?_, ?_⟩
  · rw [← getElem?_marks_eq_true, List.mem_filter, List.mem_range, beq_iff_eq]
    refine ⟨(·.2), fun marked => ⟨?_, marked⟩⟩
    exact length_marks fs es ▸ (List.getElem?_eq_some_iff.mp marked).1
  · rw [keep, if_neg (by simpa using filtered), map_filter_zip (length_marks fs es)]

end EventFilter

/-! Filters as they are written -/

namespace WrittenFilter

def isWindow : WrittenFilter → Bool
  | .window _ _ => true
  | _ => false

/-- The conditions of a run's events: those of its subfilters for a window, and one for any
other filter. -/
def steps : WrittenFilter → List WrittenFilter
  | .window subfilters _ => subfilters
  | single => [single]

/-- The event has what a filter of single events asks for. -/
def Fits (e : BlockEvent) : WrittenFilter → Prop
  | .eventType t _ => e.eventType = t
  | .attributeValue t key value _ => e.eventType = t ∧ ⟨key, value⟩ ∈ e.attributes
  | .window _ _ => False

/-- The events from `start` on fit the filter's conditions one by one, and the event at `i` is
one of them. -/
def Covers (es : List BlockEvent) (w : WrittenFilter) (start i : Nat) : Prop :=
  start ≤ i ∧ i < start + w.steps.length ∧
    List.Forall₂ (fun step e => step.Fits e) w.steps ((es.drop start).take w.steps.length)

/-- The filters of single events, and then the windows. -/
def speakingOrder (ws : List WrittenFilter) : List WrittenFilter :=
  ws.filter (!·.isWindow) ++ ws.filter (·.isWindow)

/-- The filters in the order in which they are written, each with what is meant by it. -/
def AreMeant (ws : List WrittenFilter) (fs : List EventFilter) : Prop :=
  List.Forall₂ (fun w f => w.toFilter = .ok f) ws fs

variable {w : WrittenFilter} {ws : List WrittenFilter} {f : EventFilter} {fs : List EventFilter}
  {es : List BlockEvent}

theorem accepts_iff {p : EventPattern} (meant : w.pattern = .ok p) (e : BlockEvent) :
    p.accepts e = true ↔ w.Fits e := by
  cases w with
  | eventType t inclusive =>
    simp only [pattern] at meant
    split at meant
    · cases meant
    · cases meant
      simp [EventPattern.accepts, Fits]
  | attributeValue t key value inclusive =>
    simp only [pattern] at meant
    split at meant
    · cases meant
    · cases meant
      simp [EventPattern.accepts, Fits]
  | window subfilters inclusive => cases meant

theorem forall₂_of_checkAll_eq_ok {α β : Type} {place : Nat → String}
    {check : α → Except String β} {xs : List α} {ys : List β}
    (h : checkAll place check xs = .ok ys) : List.Forall₂ (fun x y => check x = .ok y) xs ys := by
  have checked : List.Forall₂ (fun x y => check x.1 = .ok y) xs.zipIdx ys :=
    (mapM_eq_ok_iff.mp h).imp fun _ _ ok => mapError_eq_ok ok
  rw [← List.zipIdx_map_fst 0 xs]
  exact List.forall₂_map_left_iff.mpr checked

theorem toFilter_eq_ok (meant : w.toFilter = .ok f) :
    f.isWindow = w.isWindow ∧ f.inclusive = w.inclusive ∧
      List.Forall₂ (fun step p => step.pattern = .ok p) w.steps f.patterns := by
  cases w with
  | eventType t inclusive | attributeValue t key value inclusive =>
    obtain ⟨p, single, built⟩ := bind_eq_ok meant
    cases built
    exact ⟨rfl, rfl, .cons single .nil⟩
  | window subfilters inclusive =>
    by_cases none : subfilters.isEmpty = true
    · rw [toFilter, if_pos none] at meant
      cases meant
    · rw [toFilter, if_neg none] at meant
      obtain ⟨patterns, checked, built⟩ := bind_eq_ok meant
      cases built
      exact ⟨rfl, rfl, forall₂_of_checkAll_eq_ok checked⟩

theorem matchesAhead_iff {steps : List WrittenFilter}
    (meant : List.Forall₂ (fun step p => step.pattern = .ok p) steps f.patterns) :
    f.matchesAhead es = true ↔
      List.Forall₂ (fun step e => step.Fits e) steps (es.take steps.length) := by
  unfold EventFilter.matchesAhead
  generalize f.patterns = patterns at meant
  induction meant generalizing es with
  | nil => simp
  | cons related _ ih =>
    cases es with
    | nil => simp
    | cons e es => simp [accepts_iff related, ← ih, and_left_comm]

theorem covers_iff (meant : w.toFilter = .ok f) (start i : Nat) :
    w.Covers es start i ↔ f.Covers es start i := by
  obtain ⟨-, -, patterns⟩ := toFilter_eq_ok meant
  rw [Covers, EventFilter.Covers, matchesAhead_iff patterns, patterns.length_eq]
  tauto

theorem AreMeant.filter (meant : AreMeant ws fs) (sort : Bool → Bool) :
    AreMeant (ws.filter (sort ·.isWindow)) (fs.filter (sort ·.isWindow)) := by
  apply List.rel_filter ?_ meant
  intro w f related
  show sort w.isWindow = true ↔ sort f.isWindow = true
  rw [(toFilter_eq_ok related).1]

theorem AreMeant.speakingOrder (meant : AreMeant ws fs) :
    AreMeant (speakingOrder ws) (EventFilter.speakingOrder fs) :=
  List.rel_append (meant.filter not) (meant.filter id)

/-- Says of which events, by their places, something holds under the filters of a position. -/
abbrev Rule := List WrittenFilter → List BlockEvent → Nat → Prop

/-- The last filter that speaks of the event is inclusive. -/
def ByLastFilter : Rule := fun ws es i =>
  ∃ w, LastFilter (Covers es) (speakingOrder ws) i w ∧ w.inclusive = true

/-- The filter whose run over the event starts last is inclusive. -/
def ByLatestRun : Rule := fun ws es i =>
  ∃ w, LatestRun (Covers es) (speakingOrder ws) i w ∧ w.inclusive = true

/-- The last filter that speaks of the event is overruled. -/
def IsOverruled : Rule := fun ws es i =>
  Overruled (Covers es) inclusive (speakingOrder ws) i

theorem byLatestRun_iff_byLastFilter (i : Nat) :
    (ByLatestRun ws es i ↔ ByLastFilter ws es i) ↔ ¬IsOverruled ws es i :=
  judges_agree_iff fun _ _ covered => covered.1

theorem byLatestRun_iff (meant : AreMeant ws fs) (i : Nat) :
    ByLatestRun ws es i ↔
      ∃ f, LatestRun (EventFilter.Covers es) (EventFilter.speakingOrder fs) i f ∧
        f.inclusive = true := by
  constructor
  · rintro ⟨w, latest, included⟩
    obtain ⟨f, latest, same⟩ := latest.transfer meant.speakingOrder
      fun w f meant start i => covers_iff meant start i
    exact ⟨f, latest, (toFilter_eq_ok same).2.1.trans included⟩
  · rintro ⟨f, latest, included⟩
    obtain ⟨w, latest, same⟩ := latest.transfer meant.speakingOrder.flip
      fun f w meant start i => (covers_iff meant start i).symm
    exact ⟨w, latest, (toFilter_eq_ok same).2.1.symm.trans included⟩

/-- The run of a filter of single events starts at the event, so nothing starts after it. -/
theorem exists_window_of_isOverruled {i : Nat} (h : IsOverruled ws es i) :
    ∃ w ∈ ws, w.isWindow = true ∧ ∃ start, w.Covers es start i := by
  obtain ⟨w, v, last, -, ⟨start, covered, earlier⟩, -⟩ := h
  obtain ⟨start', covered'⟩ := last.has
  have written : w ∈ ws := by
    have member := LastWith.mem last
    simp only [speakingOrder, List.mem_append, List.mem_filter] at member
    exact member.elim (·.1) (·.1)
  have before := earlier start' covered'
  have inside := covered.1
  have past := covered'.2.1
  refine ⟨w, written, ?_, start', covered'⟩
  cases w with
  | eventType | attributeValue =>
    simp only [steps, List.length_singleton] at past
    omega
  | window => rfl

/-- What the filters of one position keep by a rule: all events if there are no filters, and
otherwise the events at the places of the rule, in their order. -/
def Keep (rule : Rule) (ws : List WrittenFilter) (es kept : List BlockEvent) : Prop :=
  (ws = [] → kept = es) ∧
  (ws ≠ [] → ∃ places : List Nat, places.Pairwise (· < ·) ∧ (∀ i, i ∈ places ↔ rule ws es i) ∧
    kept = places.filterMap (es[·]?))

theorem Keep.congr {rule rule' : Rule} {kept : List BlockEvent} (h : Keep rule ws es kept)
    (same : ∀ i, rule ws es i ↔ rule' ws es i) : Keep rule' ws es kept := by
  refine ⟨h.1, fun filtered => ?_⟩
  obtain ⟨places, ascending, chosen, kept⟩ := h.2 filtered
  exact ⟨places, ascending, fun i => (chosen i).trans (same i), kept⟩

theorem AreMeant.keep (meant : AreMeant ws fs) (es : List BlockEvent) :
    Keep ByLatestRun ws es (EventFilter.keep fs es) := by
  constructor
  · rintro rfl
    cases meant
    rfl
  · intro filtered
    have filtered' : fs ≠ [] := by
      rintro rfl
      exact filtered (List.forall₂_nil_right_iff.mp meant)
    obtain ⟨places, ascending, chosen, kept⟩ := EventFilter.keep_eq es filtered'
    exact ⟨places, ascending, fun i => (chosen i).trans (byLatestRun_iff meant i).symm, kept⟩

end WrittenFilter

namespace FilterDocument

def filtersAt (d : FilterDocument) : BlockPosition → List WrittenFilter
  | .beginBlock => d.begins
  | .endBlock => d.ends

/-- The events of one position. -/
def part (p : BlockPosition) (es : List BlockEvent) : List BlockEvent :=
  es.filter (·.position == p)

/-- What holds of an event of a position, by its place among those. -/
def At (rule : WrittenFilter.Rule) (d : FilterDocument) (es : List BlockEvent) (p : BlockPosition)
    (i : Nat) : Prop :=
  rule (d.filtersAt p) (part p es) i

/-- What a document's filters keep by a rule, the events of the begin block first. -/
def Keeps (rule : WrittenFilter.Rule) (d : FilterDocument) (es kept : List BlockEvent) : Prop :=
  ∃ keptAt : BlockPosition → List BlockEvent,
    kept = keptAt .beginBlock ++ keptAt .endBlock ∧
    ∀ p, WrittenFilter.Keep rule (d.filtersAt p) (part p es) (keptAt p)

theorem toFilters_eq_ok {d : FilterDocument} {fs : Filters} (h : d.toFilters = .ok fs) :
    WrittenFilter.AreMeant d.begins fs.begins ∧ WrittenFilter.AreMeant d.ends fs.ends := by
  obtain ⟨begins, checkedBegins, h⟩ := bind_eq_ok h
  obtain ⟨ends, checkedEnds, h⟩ := bind_eq_ok h
  obtain ⟨messageTypes, -, h⟩ := bind_eq_ok h
  cases h
  exact ⟨WrittenFilter.forall₂_of_checkAll_eq_ok checkedBegins,
    WrittenFilter.forall₂_of_checkAll_eq_ok checkedEnds⟩

end FilterDocument

namespace Filters

theorem parse_eq_ok {s : String} {fs : Filters} (h : parse s = .ok fs) :
    ∃ d, (Json.ofText? s).bind FilterDocument.ofJson? = some d ∧
      WrittenFilter.AreMeant d.begins fs.begins ∧ WrittenFilter.AreMeant d.ends fs.ends := by
  unfold parse at h
  cases read : (Json.ofText? s).bind FilterDocument.ofJson? with
  | none =>
    rw [read] at h
    cases h
  | some d =>
    rw [read] at h
    exact ⟨d, rfl, FilterDocument.toFilters_eq_ok (mapError_eq_ok h)⟩

theorem keepEvents_of_areMeant {d : FilterDocument} {fs : Filters}
    (begins : WrittenFilter.AreMeant d.begins fs.begins)
    (ends : WrittenFilter.AreMeant d.ends fs.ends) (es : List BlockEvent) :
    d.Keeps WrittenFilter.ByLatestRun es (fs.keepEvents es) := by
  refine ⟨fun
    | .beginBlock => EventFilter.keep fs.begins (FilterDocument.part .beginBlock es)
    | .endBlock => EventFilter.keep fs.ends (FilterDocument.part .endBlock es), ?_, ?_⟩
  · have others : es.filter (·.position != .beginBlock) = es.filter (·.position == .endBlock) := by
      congr 1
      funext e
      cases e.position <;> rfl
    rw [keepEvents, others, FilterDocument.part, FilterDocument.part]
  · intro p
    cases p with
    | beginBlock => exact begins.keep _
    | endBlock => exact ends.keep _

/-- Without windows the last filter that speaks of an event decides. -/
theorem keepEvents_by_last_filter {d : FilterDocument} {fs : Filters}
    (begins : WrittenFilter.AreMeant d.begins fs.begins)
    (ends : WrittenFilter.AreMeant d.ends fs.ends)
    (singles : ∀ p, ∀ w ∈ d.filtersAt p, w.isWindow = false) (es : List BlockEvent) :
    d.Keeps WrittenFilter.ByLastFilter es (fs.keepEvents es) := by
  obtain ⟨keptAt, parts, kept⟩ := keepEvents_of_areMeant begins ends es
  refine ⟨keptAt, parts, fun p => (kept p).congr fun i => ?_⟩
  refine (WrittenFilter.byLatestRun_iff_byLastFilter i).mpr fun overruled => ?_
  obtain ⟨w, written, window, -⟩ := WrittenFilter.exists_window_of_isOverruled overruled
  rw [singles p w written] at window
  cases window

/-- Block events are kept by the rule of the latest run. That rule says of an event what the last
filter that speaks of it says, exactly if this filter is not overruled. -/
theorem keepEvents_by_latest_run {s : String} {fs : Filters} (h : parse s = .ok fs) :
    ∃ d, (Json.ofText? s).bind FilterDocument.ofJson? = some d ∧ ∀ es,
      d.Keeps WrittenFilter.ByLatestRun es (fs.keepEvents es) ∧
      ∀ p i, (d.At WrittenFilter.ByLatestRun es p i ↔ d.At WrittenFilter.ByLastFilter es p i) ↔
        ¬d.At WrittenFilter.IsOverruled es p i := by
  obtain ⟨d, read, begins, ends⟩ := parse_eq_ok h
  exact ⟨d, read, fun es => ⟨keepEvents_of_areMeant begins ends es, fun p i =>
    WrittenFilter.byLatestRun_iff_byLastFilter i⟩⟩

/-- Transfers are kept, but not those that follow coins that are spent. -/
def spentAside : String :=
  "\x7b\"end_block_filters\": [
    \x7b\"type\": \"event_type\", \"event_type\": \"transfer\", \"inclusive\": true\x7d,
    \x7b\"type\": \"rolling_window\", \"subfilters\": [
      \x7b\"type\": \"event_type\", \"event_type\": \"coin_spent\"\x7d,
      \x7b\"type\": \"event_type\", \"event_type\": \"transfer\"\x7d]\x7d]\x7d"

def transfers : EventFilter := ⟨[⟨"transfer", Option.none⟩], false, true⟩

def spent : EventFilter :=
  ⟨[⟨"coin_spent", Option.none⟩, ⟨"transfer", Option.none⟩], true, false⟩

theorem parse_spentAside : parse spentAside = .ok ⟨[], [transfers, spent], []⟩ := by
  have meant : (((Json.ofText? spentAside).bind FilterDocument.ofJson?).bind
      (·.toFilters.toOption)) = some ⟨[], [transfers, spent], []⟩ := by
    rw [Json.ofText?, spentAside, String.toList_ofList]
    decide +kernel
  obtain ⟨d, read, meant⟩ := Option.bind_eq_some_iff.mp meant
  rw [parse, read]
  exact congrArg (Except.mapError ConfigError.invalidValue) (toOption_eq_some_iff.mp meant)

theorem keepEvents_by_latest_run_spentAside :
    parse spentAside = .ok ⟨[], [transfers, spent], []⟩ ∧
    ∃ d, (Json.ofText? spentAside).bind FilterDocument.ofJson? = some d ∧ ∀ es,
      d.Keeps WrittenFilter.ByLatestRun es (keepEvents ⟨[], [transfers, spent], []⟩ es) ∧
      ∀ p i, (d.At WrittenFilter.ByLatestRun es p i ↔ d.At WrittenFilter.ByLastFilter es p i) ↔
        ¬d.At WrittenFilter.IsOverruled es p i :=
  ⟨parse_spentAside, keepEvents_by_latest_run parse_spentAside⟩

/-- Coins are spent and then transferred. -/
def payment : List BlockEvent :=
  [⟨.endBlock, 0, "coin_spent", []⟩, ⟨.endBlock, 1, "transfer", []⟩]

/-- The window is the last filter that speaks of the transfer, and does not want it; but the
filter of single events has the later run and keeps it. -/
theorem last_filter_overruled_on_payment :
    ¬∀ (s : String) (fs : Filters), parse s = .ok fs →
      ∃ d, (Json.ofText? s).bind FilterDocument.ofJson? = some d ∧
        ∀ es, d.Keeps WrittenFilter.ByLastFilter es (fs.keepEvents es) := by
  intro claim
  obtain ⟨d, read, kept⟩ := claim _ _ parse_spentAside
  obtain ⟨d', read', begins, ends⟩ := parse_eq_ok parse_spentAside
  obtain rfl : d = d' := Option.some.inj (read.symm.trans read')
  obtain ⟨keptAt, whole, parts⟩ := kept payment
  have noBegins : keptAt .beginBlock = [] :=
    (parts .beginBlock).1 (List.forall₂_nil_right_iff.mp begins)
  have filtered : d.ends ≠ [] := by
    intro none
    rw [none] at ends
    cases ends
  obtain ⟨places, -, chosen, keptEnds⟩ := (parts .endBlock).2 filtered
  have nowhere (i : Nat) : i ∉ places := by
    intro place
    obtain ⟨w, last, included⟩ := (chosen i).mp place
    obtain ⟨f, last, same⟩ := LastWith.transfer last ends.speakingOrder
      fun w f meant => exists_congr fun start => WrittenFilter.covers_iff meant start i
    obtain ⟨start, covered⟩ := last.has
    have inside : i < 2 := covered.lt
    have dropped : LastFilter (EventFilter.Covers payment) [transfers, spent] i spent :=
      .later (.here ⟨0, by decide, Nat.zero_le i, by simpa [spent] using inside⟩ (by simp))
    rw [last.unique dropped] at same
    cases (WrittenFilter.toFilter_eq_ok same).2.1.trans included
  rw [List.eq_nil_iff_forall_not_mem.mpr nowhere] at keptEnds
  rw [noBegins, keptEnds] at whole
  revert whole
  decide

end Filters

end ChainIndex
