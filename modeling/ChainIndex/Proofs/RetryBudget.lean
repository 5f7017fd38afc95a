/-
Retry budgets are spent exactly. A policy and a writer have loops of their own, and both obey
one law: they call until the first success, or until the budget is spent, and wait once between
each call and the next. The law is about every course that a loop can take, whatever states its
calls meet and so whatever they come to.
-/
import ChainIndex.Proofs.Batching
import ChainIndex.Proofs.FailureJournal

namespace ChainIndex

variable {σ ε α β : Type}

/-! ## Courses of a computation -/

namespace Unending

/-- The computation comes to the value if its calls meet these states, one after another.
Between two calls others may have changed the state in any way. -/
inductive Course : Unending σ α → List σ → α → Prop
  | done (a : α) : Course (.done a) [] a
  | call {rest effect s met a} (later : Course (rest s) met a) :
    Course (.call rest effect) (s :: met) a

theorem course_done_iff {a b : α} {met : List σ} :
    (.done a : Unending σ α).Course met b ↔ met = [] ∧ b = a := by
  constructor
  · intro course
    cases course
    exact ⟨rfl, rfl⟩
  · rintro ⟨rfl, rfl⟩
    exact .done b

/-- The parts of a computation take their courses one after another. -/
theorem course_bind_iff {x : Unending σ α} {f : α → Unending σ β} {met : List σ} {b : β} :
    (x >>= f).Course met b ↔
      ∃ met₁ a met₂, met = met₁ ++ met₂ ∧ x.Course met₁ a ∧ (f a).Course met₂ b := by
  constructor
  · intro course
    induction x generalizing met with
    | done a => exact ⟨[], a, met, rfl, .done a, course⟩
    | never => cases course
    | call rest effect ih =>
      cases course with
      | call later =>
        obtain ⟨met₁, a, met₂, rfl, first, second⟩ := ih _ later
        exact ⟨_ :: met₁, a, met₂, rfl, .call first, second⟩
  · rintro ⟨met₁, a, met₂, rfl, first, second⟩
    induction first with
    | done a => exact second
    | call _ ih => exact .call (ih second)

end Unending

/-! ## The law -/

/-- A series of calls with their outcomes: between each and the next there is one wait, which
is the one of this number, and there is none behind the last. -/
inductive Series (task : Task σ ε α) (waits : Nat → Unending σ Unit) :
    Nat → List σ → List (Except ε α) → Prop
  | last {n met outcome} (called : task.outcome.Course met outcome) :
    Series task waits n met [outcome]
  | again {n met met' met'' outcome later} (called : task.outcome.Course met outcome)
    (waited : (waits n).Course met' ()) (next : Series task waits (n + 1) met'' later) :
    Series task waits n (met ++ met' ++ met'') (outcome :: later)

/-- How a budget is spent, a number of calls or any number: up to the first success and no
further, and on failures alone only if all of it is spent. The last outcome is the result. -/
structure Spends (budget : Option Nat) (outcomes : List (Except ε α)) (result : Except ε α) :
    Prop where
  last : outcomes.getLast? = some result
  failed : ∀ outcome ∈ outcomes.dropLast, ∃ e, outcome = .error e
  within : ∀ most, budget = some most → outcomes.length ≤ most
  spent : ∀ e, result = .error e → budget = some outcomes.length

variable {task : Task σ ε α} {waits : Nat → Unending σ Unit} {n : Nat} {met : List σ}
  {budget : Option Nat} {outcome result : Except ε α} {outcomes : List (Except ε α)}

theorem Series.ne_nil (series : Series task waits n met outcomes) : outcomes ≠ [] := by
  cases series <;> simp

theorem spends_once_iff : Spends budget [outcome] result ↔
    outcome = result ∧ budget ≠ some 0 ∧ ∀ e, result = .error e → budget = some 1 := by
  constructor
  · rintro ⟨last, -, within, spent⟩
    exact ⟨by simpa using last, fun none => absurd (within 0 none) (by simp), spent⟩
  · rintro ⟨rfl, any, spent⟩
    refine ⟨rfl, by simp, fun most same => ?_, spent⟩
    subst same
    have : most ≠ 0 := fun none => any (congrArg _ none)
    simp only [List.length_singleton]
    omega

/-- After a failure the rest of the budget is spent. -/
theorem spends_again_iff (more : outcomes ≠ []) : Spends budget (outcome :: outcomes) result ↔
    (∃ e, outcome = .error e) ∧ Spends (budget.map (· - 1)) outcomes result := by
  obtain ⟨next, later, rfl⟩ := List.exists_cons_of_ne_nil more
  constructor
  · rintro ⟨last, failed, within, spent⟩
    obtain ⟨here, later⟩ := List.forall_mem_cons.mp failed
    refine ⟨here, last, later, ?_, ?_⟩
    · intro most same
      obtain ⟨whole, rfl, rfl⟩ := Option.map_eq_some_iff.mp same
      have := within whole rfl
      simp only [List.length_cons] at this ⊢
      omega
    · intro e failure
      rw [spent e failure]
      rfl
  · rintro ⟨here, last, failed, within, spent⟩
    refine ⟨last, List.forall_mem_cons.mpr ⟨here, failed⟩, ?_, ?_⟩
    · rintro most rfl
      have := within (most - 1) rfl
      simp only [List.length_cons] at this ⊢
      omega
    · intro e failure
      obtain ⟨whole, rfl, rest⟩ := Option.map_eq_some_iff.mp (spent e failure)
      simp only [List.length_cons] at rest ⊢
      exact congrArg some (by omega)

/-- Without a call there is nothing. -/
theorem course_spent (met : List σ) :
    (.never : Unending σ (Except ε α)).Course met result ↔ ∃ outcomes,
      Series task waits n met outcomes ∧ Spends budget outcomes result ∧ outcomes.length ≤ 0 := by
  constructor
  · intro course
    cases course
  · rintro ⟨outcomes, series, -, none⟩
    exact absurd (List.length_eq_zero_iff.mp (Nat.le_zero.mp none)) series.ne_nil

/-- **One round of a loop.** It calls once, and stops at a success or at the end of the budget.
If what comes after the wait obeys the law with one call less, so does the whole. -/
theorem course_round {rest : Except ε α → Unending σ (Except ε α)}
    {next : Unending σ (Except ε α)} {tries : Nat} (any : budget ≠ some 0)
    (success : ∀ a, rest (.ok a) = .done (.ok a))
    (failure : ∀ e, rest (.error e) =
      if budget = some 1 then .done (.error e) else waits n >>= fun _ => next)
    (later : ∀ met, next.Course met result ↔ ∃ outcomes,
      Series task waits (n + 1) met outcomes ∧ Spends (budget.map (· - 1)) outcomes result ∧
        outcomes.length ≤ tries) (met : List σ) :
    (task.outcome >>= rest).Course met result ↔ ∃ outcomes,
      Series task waits n met outcomes ∧ Spends budget outcomes result ∧
        outcomes.length ≤ tries + 1 := by
  rw [Unending.course_bind_iff]
  constructor
  · rintro ⟨met₁, outcome, met₂, rfl, called, after⟩
    cases outcome with
    | ok a =>
      rw [success] at after
      obtain ⟨rfl, rfl⟩ := Unending.course_done_iff.mp after
      rw [List.append_nil]
      exact ⟨[.ok a], .last called, spends_once_iff.mpr ⟨rfl, any, fun e same => by cases same⟩,
        by simp⟩
    | error e =>
      rw [failure] at after
      split at after
      · next spent =>
        obtain ⟨rfl, rfl⟩ := Unending.course_done_iff.mp after
        rw [List.append_nil]
        exact ⟨[.error e], .last called, spends_once_iff.mpr ⟨rfl, any, fun _ _ => spent⟩,
          by simp⟩
      · obtain ⟨met₃, _, met₄, rfl, waited, after⟩ := Unending.course_bind_iff.mp after
        obtain ⟨outcomes, series, spends, short⟩ := (later met₄).mp after
        rw [← List.append_assoc]
        exact ⟨.error e :: outcomes, .again called waited series,
          (spends_again_iff series.ne_nil).mpr ⟨⟨e, rfl⟩, spends⟩, Nat.succ_le_succ short⟩
  · rintro ⟨outcomes, series, spends, short⟩
    cases series with
    | @last _ _ outcome called =>
      obtain ⟨rfl, -, spent⟩ := spends_once_iff.mp spends
      refine ⟨met, outcome, [], (List.append_nil met).symm, called, ?_⟩
      cases outcome with
      | ok a =>
        rw [success]
        exact .done _
      | error e =>
        rw [failure, if_pos (spent e rfl)]
        exact .done _
    | @again _ met₁ met₂ met₃ outcome outcomes called waited series =>
      obtain ⟨⟨e, rfl⟩, left⟩ := (spends_again_iff series.ne_nil).mp spends
      have unspent : budget ≠ some 1 := by
        rintro rfl
        have := left.within 0 rfl
        exact series.ne_nil (List.length_eq_zero_iff.mp (by omega))
      refine ⟨met₁, .error e, met₂ ++ met₃, by rw [List.append_assoc], called, ?_⟩
      rw [failure, if_neg unspent, Unending.course_bind_iff]
      exact ⟨met₂, (), met₃, rfl, waited,
        (later met₃).mpr ⟨outcomes, series, left, Nat.le_of_succ_le_succ short⟩⟩

/-! ## Both loops -/

theorem Backoff.wait_maxAttempt (n : Nat) (longest : Span) :
    wait (min n RetryPolicy.maxAttempt) longest = wait n longest := by
  have same : min (min n RetryPolicy.maxAttempt) maxExponent = min n maxExponent := by
    have : maxExponent ≤ RetryPolicy.maxAttempt := by decide
    omega
  rw [wait, same, wait]

namespace RetryPolicy

variable {p : RetryPolicy} {pause : Span → Unending σ Unit}

/-- The waits of a policy, by the number of the attempt before them. -/
def waitAfter (p : RetryPolicy) (pause : Span → Unending σ Unit) (n : Nat) : Unending σ Unit :=
  pause (Backoff.wait n p.maxWait).1

theorem course_retryFrom {tries attempt : Nat}
    (whole : ∀ most, p.budget? = some most → most = attempt + tries) (met : List σ) :
    (p.retryFrom pause task tries attempt).outcome.Course met result ↔ ∃ outcomes,
      Series task (p.waitAfter pause) attempt met outcomes ∧
        Spends (p.budget?.map (· - attempt)) outcomes result ∧ outcomes.length ≤ tries := by
  induction tries generalizing attempt met with
  | zero => exact course_spent met
  | succ tries ih =>
    have any : p.budget?.map (· - attempt) ≠ some 0 := by
      intro same
      obtain ⟨most, limited, rest⟩ := Option.map_eq_some_iff.mp same
      have := whole most limited
      omega
    have stops : p.budget? = some (attempt + 1) ↔ p.budget?.map (· - attempt) = some 1 := by
      cases limited : p.budget? with
      | none => simp
      | some most =>
        have := whole most limited
        simp only [Option.map_some, Option.some.injEq]
        omega
    have left : p.budget?.map (· - (attempt + 1)) =
        (p.budget?.map (· - attempt)).map (· - 1) := by
      rw [Option.map_map]
      exact congrArg (Option.map · _) (funext fun most => Nat.sub_add_eq most attempt 1)
    have later := @ih (attempt + 1) fun most limited => by
      have := whole most limited
      omega
    rw [left] at later
    rw [outcome_retryFrom, Backoff.wait_maxAttempt]
    refine course_round any (fun a => ?_) (fun e => ?_) later met
    · rfl
    · simp only [stops]
      rfl

theorem course_retry (patience : Nat) (met : List σ) :
    (p.retry patience pause task).outcome.Course met result ↔ ∃ outcomes,
      Series task (p.waitAfter pause) 0 met outcomes ∧ Spends p.budget? outcomes result ∧
        outcomes.length ≤ p.budget?.getD patience := by
  have whole : p.budget?.map (· - 0) = p.budget? := Option.map_id'
  rw [retry, course_retryFrom (fun most limited => by simp [limited]), whole]

/-- With a budget there is a last call, whatever the others do. -/
theorem finishes_retryFrom (pauses : ∀ span, (pause span).Finishes) (tried : task.outcome.Finishes)
    {tries attempt : Nat} (budget : p.budget? = some (attempt + tries + 1)) :
    (p.retryFrom pause task (tries + 1) attempt).outcome.Finishes := by
  induction tries generalizing attempt with
  | zero =>
    rw [outcome_retryFrom]
    refine tried.bind fun answer => ?_
    cases answer with
    | ok a => exact Unending.finishes_done _
    | error e =>
      dsimp only
      rw [if_pos budget]
      exact Unending.finishes_done _
  | succ tries ih =>
    rw [outcome_retryFrom]
    refine tried.bind fun answer => ?_
    cases answer with
    | ok a => exact Unending.finishes_done _
    | error e =>
      dsimp only
      split
      · exact Unending.finishes_done _
      · exact (pauses _).bind fun _ => ih (budget.trans (congrArg some (by omega)))

theorem finishes_retry (pauses : ∀ span, (pause span).Finishes) (tried : task.outcome.Finishes)
    (limited : 0 ≤ p.maxAttempts) (patience : Nat) :
    (p.retry patience pause task).outcome.Finishes := by
  have budget : p.budget? = some (max 1 p.maxAttempts.toNat) := if_neg (by omega)
  obtain ⟨tries, most⟩ : ∃ tries, max 1 p.maxAttempts.toNat = tries + 1 :=
    ⟨max 1 p.maxAttempts.toNat - 1, by omega⟩
  rw [retry, budget, Option.getD_some, most]
  exact finishes_retryFrom pauses tried (by rw [budget, most, Nat.zero_add])

end RetryPolicy

namespace Writer

variable {w : Writer σ} {call : Call σ StoreError Unit}

theorem outcome_ofCall_id (call : Call σ ε α) :
    (Task.ofCall id call).outcome = Unending.ofState call.outcome := by
  rw [Task.outcome_ofCall]
  refine congrArg Unending.ofState (funext fun s => ?_)
  exact Prod.ext (mapError_id _) rfl

/-- A series of tries with the same wait between each and the next. -/
theorem course_attempt {result : Except StoreError Unit} (more n : Nat) (met : List σ) :
    (w.attempt call more).outcome.Course met result ↔ ∃ outcomes,
      Series (Task.ofCall id call) (fun _ => w.pause w.retryDelay) n met outcomes ∧
        Spends (some (more + 1)) outcomes result ∧ outcomes.length ≤ more + 1 := by
  induction more generalizing n met with
  | zero =>
    have : LawfulMonad (Unending σ) := Unending.lawful
    have alone : (w.attempt call 0).outcome = (Task.ofCall id call).outcome >>= pure :=
      (bind_pure _).symm
    have any : some 1 ≠ some 0 := by simp
    rw [alone]
    refine course_round any (fun _ => ?_) (fun e => ?_) course_spent met
    · rfl
    · exact (if_pos rfl).symm
  | succ more ih =>
    have any : some (more + 2) ≠ some 0 := by simp
    rw [attempt, Task.ofState, Task.outcome_ofUnending_bind, ← outcome_ofCall_id]
    refine course_round any (fun _ => ?_) (fun e => ?_) (ih (n + 1)) met
    · rfl
    · rw [if_neg (by simp)]
      exact Task.outcome_ofUnending_bind _ _

end Writer

/-- **Retry budgets are spent exactly.** A policy calls up to the first success, and without one
as often as it may, which is at least once, or without end; the result is that of the last call.
It waits once between each call and the next, after the n-th as long as the back-off says, and
not behind the last. A writer does the same with waits of one length. Both come to their end if
the parts do. Without a limit nothing but a success is a result, and it is one as soon as it
comes, if the patience is long enough. -/
theorem retry_budgets_are_spent_exactly :
    (∀ (p : RetryPolicy) (pause : Span → Unending σ Unit) (task : Task σ ε α) (patience : Nat),
      (∀ met result, (p.retry patience pause task).outcome.Course met result ↔ ∃ outcomes,
        Series task (fun n => pause (Backoff.wait n p.maxWait).1) 0 met outcomes ∧
        Spends (if p.maxAttempts < 0 then none else some (max 1 p.maxAttempts.toNat))
          outcomes result ∧
        (p.maxAttempts < 0 → outcomes.length ≤ patience)) ∧
      (p.maxAttempts < 0 → ∀ met result,
        (p.retry patience pause task).outcome.Course met result → ∃ a, result = .ok a) ∧
      (0 ≤ p.maxAttempts → (∀ span, (pause span).Finishes) → task.outcome.Finishes →
        (p.retry patience pause task).outcome.Finishes)) ∧
    ∀ (w : Writer σ) (call : Call σ StoreError Unit),
      (∀ met result, (w.withRetries call).outcome.Course met result ↔ ∃ outcomes,
        Series (Task.ofCall id call) (fun _ => w.pause w.retryDelay) 0 met outcomes ∧
        Spends (some (max 1 w.maxRetries)) outcomes result) ∧
      ((∀ span, (w.pause span).Finishes) → (w.withRetries call).outcome.Finishes) := by
  refine ⟨fun p pause task patience => ⟨fun met result => ?_, fun unlimited met result course => ?_,
    fun limited pauses tried => p.finishes_retry pauses tried limited patience⟩,
    fun w call => ⟨fun met result => ?_, fun pauses => w.finishes_attempt pauses _⟩⟩
  · rw [RetryPolicy.course_retry]
    refine exists_congr fun outcomes => and_congr_right fun _ => and_congr_right fun spends => ?_
    by_cases unlimited : p.maxAttempts < 0
    · simp [RetryPolicy.budget?, unlimited]
    · have budget : p.budget? = some (max 1 p.maxAttempts.toNat) := if_neg unlimited
      rw [budget]
      exact iff_of_true (spends.within _ budget) fun less => absurd less unlimited
  · obtain ⟨outcomes, -, spends, -⟩ := (RetryPolicy.course_retry patience met).mp course
    cases result with
    | ok a => exact ⟨a, rfl⟩
    | error e =>
      have noBudget : p.budget? = none := if_pos unlimited
      cases noBudget.symm.trans (spends.spent e rfl)
  · have most : max 1 w.maxRetries - 1 + 1 = max 1 w.maxRetries := by omega
    rw [Writer.withRetries, Writer.course_attempt _ 0, most]
    refine exists_congr fun outcomes => and_congr_right fun _ => and_iff_left_of_imp fun spends => ?_
    exact spends.within _ rfl

/-! ## A scripted operation -/

/-- What a loop does: it calls with an outcome, or waits. -/
inductive RetryStep where
  | called (outcome : Except StoreError Unit)
  | waited (span : Span)

/-- What a script still holds, and what was done. -/
abbrev RetryLog := List (Except StoreError Unit) × List RetryStep

namespace RetryLog

/-- Answers as the script says, and goes well behind its end. -/
def call : Call RetryLog StoreError Unit :=
  ExceptT.mk fun t => (t.1.headD (.ok ()), t.1.tail, t.2 ++ [.called (t.1.headD (.ok ()))])

def pause (span : Span) : Unending RetryLog Unit :=
  Unending.ofState fun t => ((), t.1, t.2 ++ [.waited span])

end RetryLog

/-- The outcome of a call that fails. -/
def busy : Except StoreError Unit := .error (.database "busy")

/-- Two calls that both fail are a budget of two, with one wait between them; without a limit
there is another wait, and a third call. -/
theorem retry_budgets_are_spent_exactly_busy :
    let limited : RetryPolicy := ⟨2, .ofSeconds 30⟩
    let unlimited : RetryPolicy := ⟨-1, .ofSeconds 30⟩
    let task : Task RetryLog StoreError Unit := Task.ofCall id RetryLog.call
    let first := (Backoff.wait 0 (.ofSeconds 30)).1
    let second := (Backoff.wait 1 (.ofSeconds 30)).1
    (0 ≤ limited.maxAttempts ∧ (∀ span, (RetryLog.pause span).Finishes) ∧ task.outcome.Finishes ∧
      (limited.retry 0 RetryLog.pause task).outcome.Finishes ∧
      (limited.retry 0 RetryLog.pause task).outcome.run.run ([busy, busy], []) =
        (some busy, [], [.called busy, .waited first, .called busy])) ∧
    (unlimited.maxAttempts < 0 ∧
      (unlimited.retry 3 RetryLog.pause task).outcome.run.run ([busy, busy], []) =
        (some (.ok ()), [], [.called busy, .waited first, .called busy, .waited second,
          .called (.ok ())]) ∧
      (∃ met, (unlimited.retry 3 RetryLog.pause task).outcome.Course met (.ok ())) ∧
      ∀ met result, (unlimited.retry 3 RetryLog.pause task).outcome.Course met result →
        ∃ a, result = .ok a) := by
  intro limited unlimited task first second
  have pauses (span : Span) : (RetryLog.pause span).Finishes := Unending.finishes_ofState _
  have calls : task.outcome.Finishes := Unending.finishes_ofState _
  obtain ⟨law, -⟩ : _ ∧ _ := @retry_budgets_are_spent_exactly RetryLog StoreError Unit
  obtain ⟨-, -, ends⟩ := law limited RetryLog.pause task 0
  obtain ⟨courses, goesWell, -⟩ := law unlimited RetryLog.pause task 3
  have failing : task.outcome.Course [([busy], [])] busy := .call (.done _)
  have going : task.outcome.Course [([], [])] (.ok ()) := .call (.done _)
  have waiting (span : Span) : (RetryLog.pause span).Course [([], [])] () := .call (.done _)
  have spends : Spends none [busy, busy, .ok ()] (.ok ()) :=
    ⟨rfl, by simp [busy], by simp, by simp⟩
  have series : Series task (unlimited.waitAfter RetryLog.pause) 0 _ [busy, busy, .ok ()] :=
    .again failing (waiting _) (.again failing (waiting _) (.last going))
  exact ⟨⟨by decide, pauses, calls, ends (by decide) pauses calls, rfl⟩, by decide, rfl,
    ⟨_, (courses _ _).mpr ⟨_, series, spends, fun _ => Nat.le_refl 3⟩⟩, goesWell (by decide)⟩

end ChainIndex
