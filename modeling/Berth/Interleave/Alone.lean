import Mathlib.Data.List.Forall2
import Berth.Interleave.Program

/-!
One program by itself: what it makes of a state when nobody comes in between, and what it can
return when anybody may.
-/

namespace Interleave

variable {Act : Type} {Res : Act → Type} {Call State Choice : Type} {α β ε : Type}

namespace Program

variable (perform : (action : Act) → Choice → State → Option (Res action × State))

/-- The program turns `state` into `after` and ends with `value`. -/
def Runs : Program Act Res Call α → (state : State) → (value : α) → (after : State) → Prop
  | done result, state, value, after => value = result ∧ after = state
  | act action next, state, value, after => ∃ choice result state',
      perform action choice state = some (result, state') ∧ (next result).Runs state' value after
  | fork _ _, _, _, _ => False

/-- The program ends with `value` when each of its actions finds some state or other. -/
def Yields : Program Act Res Call α → (value : α) → Prop
  | done result, value => value = result
  | act action next, value => ∃ state choice result state',
      perform action choice state = some (result, state') ∧ (next result).Yields value
  | fork _ next, value => next.Yields value

variable {perform} {program : Program Act Res Call α} {after : α → Program Act Res Call β}
variable {state state' state'' : State} {value : α}

theorem Runs.yields (runs : program.Runs perform state value state') :
    program.Yields perform value := by
  induction program generalizing state with
  | done result => exact runs.1
  | act action next ih =>
      obtain ⟨choice, result, between, performed, rest⟩ := runs
      exact ⟨state, choice, result, between, performed, ih result rest⟩
  | fork call next => exact runs.elim

theorem runs_bind {last : β} : (program >>= after).Runs perform state last state'' ↔
    ∃ value state', program.Runs perform state value state' ∧
      (after value).Runs perform state' last state'' := by
  induction program generalizing state with
  | done result =>
      constructor
      · intro runs
        exact ⟨result, state, ⟨rfl, rfl⟩, runs⟩
      · rintro ⟨value, state', ⟨rfl, rfl⟩, runs⟩
        exact runs
  | act action next ih =>
      constructor
      · rintro ⟨choice, result, between, performed, runs⟩
        obtain ⟨value, state', first, rest⟩ := (ih result).1 runs
        exact ⟨value, state', ⟨choice, result, between, performed, first⟩, rest⟩
      · rintro ⟨value, state', ⟨choice, result, between, performed, first⟩, rest⟩
        exact ⟨choice, result, between, performed, (ih result).2 ⟨value, state', first, rest⟩⟩
  | fork call next _ =>
      constructor
      · exact False.elim
      · rintro ⟨_, _, first, _⟩
        exact first.elim

theorem yields_bind {last : β} : (program >>= after).Yields perform last ↔
    ∃ value, program.Yields perform value ∧ (after value).Yields perform last := by
  induction program with
  | done result =>
      constructor
      · intro yields
        exact ⟨result, rfl, yields⟩
      · rintro ⟨value, rfl, yields⟩
        exact yields
  | act action next ih =>
      constructor
      · rintro ⟨state, choice, result, between, performed, yields⟩
        obtain ⟨value, first, rest⟩ := (ih result).1 yields
        exact ⟨value, ⟨state, choice, result, between, performed, first⟩, rest⟩
      · rintro ⟨value, ⟨state, choice, result, between, performed, first⟩, rest⟩
        exact ⟨state, choice, result, between, performed, (ih result).2 ⟨value, first, rest⟩⟩
  | fork call next ih => exact ih

/-- What each of these actions keeps, a program of theirs keeps. -/
theorem Runs.keeps {acts : Act → Prop} {calls : Call → Prop} {holds : State → Prop}
    (runs : program.Runs perform state value state') (uses : program.Uses acts calls)
    (kept : ∀ action choice result state state', acts action →
      perform action choice state = some (result, state') → holds state → holds state')
    (before : holds state) : holds state' := by
  induction program generalizing state with
  | done result => exact runs.2 ▸ before
  | act action next ih =>
      obtain ⟨choice, result, between, performed, rest⟩ := runs
      exact ih result rest (uses.2 result) (kept _ _ _ _ _ uses.1 performed before)
  | fork call next => exact runs.elim

variable (perform) in
/-- Whatever the program does, what holds before holds after it. -/
def Keeps (holds : State → Prop) (program : Program Act Res Call α) : Prop :=
  ∀ state value after, program.Runs perform state value after → holds state → holds after

theorem keeps_of_uses {acts : Act → Prop} {calls : Call → Prop} {holds : State → Prop}
    (uses : program.Uses acts calls)
    (kept : ∀ action choice result state state', acts action →
      perform action choice state = some (result, state') → holds state → holds state') :
    Keeps perform holds program := fun _ _ _ runs before => runs.keeps uses kept before

theorem keeps_bind {holds : State → Prop} (first : Keeps perform holds program)
    (rest : ∀ value, Keeps perform holds (after value)) :
    Keeps perform holds (program >>= after) := by
  intro state last after runs before
  obtain ⟨value, between, runs, following⟩ := runs_bind.1 runs
  exact rest value between last after following (first state value between runs before)

/-- A program comes to its end where each of its actions can always be taken. -/
theorem exists_runs {acts : Act → Prop} (uses : program.Uses acts fun _ => False)
    (performs : ∀ action state, ∃ choice result state',
      perform action choice state = some (result, state')) (state : State) :
    ∃ value state', program.Runs perform state value state' := by
  induction program generalizing state with
  | done result => exact ⟨result, state, rfl, rfl⟩
  | act action next ih =>
      obtain ⟨choice, result, between, performed⟩ := performs action state
      obtain ⟨value, state', rest⟩ := ih result (uses.2 result) between
      exact ⟨value, state', choice, result, between, performed, rest⟩
  | fork call next => exact uses.1.elim

/-- Where the actions can do more, a program can do more. -/
theorem Runs.mono {Choice' : Type}
    {perform' : (action : Act) → Choice' → State → Option (Res action × State)}
    (runs : program.Runs perform state value state')
    (more : ∀ action choice state result state', perform action choice state = some (result, state') →
      ∃ choice', perform' action choice' state = some (result, state')) :
    program.Runs perform' state value state' := by
  induction program generalizing state with
  | done result => exact runs
  | act action next ih =>
      obtain ⟨choice, result, between, performed, rest⟩ := runs
      obtain ⟨choice', performed'⟩ := more _ _ _ _ _ performed
      exact ⟨choice', result, between, performed', ih result rest⟩
  | fork call next => exact runs.elim

variable (perform) in
/-- The run in which the open questions are settled by these choices. -/
def eval : Program Act Res Call α → List Choice → State → Option (α × State)
  | done result, _, state => some (result, state)
  | act action next, choices, state =>
      match choices with
      | [] => none
      | choice :: rest =>
          match perform action choice state with
          | none => none
          | some (result, state') => (next result).eval rest state'
  | fork _ _, _, _ => none

theorem runs_of_eval {choices : List Choice}
    (evaluated : program.eval perform choices state = some (value, state')) :
    program.Runs perform state value state' := by
  induction program generalizing state choices with
  | done result =>
      cases evaluated
      exact ⟨rfl, rfl⟩
  | act action next ih =>
      cases choices with
      | nil => cases evaluated
      | cons choice rest =>
          simp only [eval] at evaluated
          split at evaluated
          · cases evaluated
          · rename_i result between performed
            exact ⟨choice, result, between, performed, ih result evaluated⟩
  | fork call next => cases evaluated

theorem runs_perform {action : Act} {result : Res action} :
    (Program.perform action : Program Act Res Call _).Runs perform state result state' ↔
      ∃ choice, perform action choice state = some (result, state') := by
  constructor
  · rintro ⟨choice, _, _, performed, rfl, rfl⟩
    exact ⟨choice, performed⟩
  · rintro ⟨choice, performed⟩
    exact ⟨choice, result, state', performed, rfl, rfl⟩

theorem yields_perform {action : Act} {result : Res action} :
    (Program.perform action : Program Act Res Call _).Yields perform result ↔
      ∃ state choice state', perform action choice state = some (result, state') := by
  constructor
  · rintro ⟨state, choice, _, state', performed, rfl⟩
    exact ⟨state, choice, state', performed⟩
  · rintro ⟨state, choice, state', performed⟩
    exact ⟨state, choice, result, state', performed, rfl⟩

/-! Two programs in one state. -/

variable (perform) in
/-- The programs end in the same ways: with the same values, in the same states. -/
def Same (state : State) (left right : Program Act Res Call α) : Prop :=
  ∀ value after, left.Runs perform state value after ↔ right.Runs perform state value after

theorem same_refl : Same perform state program program := fun _ _ => Iff.rfl

theorem Same.symm {left right : Program Act Res Call α} (same : Same perform state left right) :
    Same perform state right left := fun value after => (same value after).symm

theorem same_bind {left right : Program Act Res Call α} {next next' : α → Program Act Res Call β}
    (same : Same perform state left right)
    (rest : ∀ value after, left.Runs perform state value after →
      Same perform after (next value) (next' value)) :
    Same perform state (left >>= next) (right >>= next') := by
  intro last after
  rw [runs_bind, runs_bind]
  constructor
  · rintro ⟨value, between, runs, following⟩
    exact ⟨value, between, (same value between).1 runs, (rest value between runs last after).1 following⟩
  · rintro ⟨value, between, runs, following⟩
    have runs := (same value between).2 runs
    exact ⟨value, between, runs, (rest value between runs last after).2 following⟩

end Program

namespace Fallible

variable {perform : (action : Act) → Choice → State → Option (Res action × State)}
variable {program : Fallible Act Res Call ε α} {after : α → Fallible Act Res Call ε β}
variable {state state' state'' : State}

theorem runs_pure {value : α} {outcome : Except ε α} :
    Program.Runs perform (pure value : Fallible Act Res Call ε α).run state outcome state' ↔
      outcome = .ok value ∧ state' = state := Iff.rfl

theorem runs_throw {err : ε} {outcome : Except ε α} :
    Program.Runs perform (throw err : Fallible Act Res Call ε α).run state outcome state' ↔
      outcome = .error err ∧ state' = state := Iff.rfl

/-- The first part fails, or the second runs on its value. -/
theorem runs_bind {outcome : Except ε β} :
    Program.Runs perform (program >>= after).run state outcome state'' ↔
      (∃ err, Program.Runs perform program.run state (.error err) state'' ∧ outcome = .error err) ∨
        ∃ value state', Program.Runs perform program.run state (.ok value) state' ∧
          Program.Runs perform (after value).run state' outcome state'' := by
  rw [ExceptT.run_bind, Program.runs_bind]
  constructor
  · rintro ⟨first, state', runs, rest⟩
    cases first with
    | ok value => exact .inr ⟨value, state', runs, rest⟩
    | error err =>
        obtain ⟨rfl, rfl⟩ := rest
        exact .inl ⟨err, runs, rfl⟩
  · rintro (⟨err, runs, rfl⟩ | ⟨value, state', runs, rest⟩)
    · exact ⟨.error err, state'', runs, rfl, rfl⟩
    · exact ⟨.ok value, state', runs, rest⟩

theorem runs_bind_ok {last : β} :
    Program.Runs perform (program >>= after).run state (.ok last) state'' ↔
      ∃ value state', Program.Runs perform program.run state (.ok value) state' ∧
        Program.Runs perform (after value).run state' (.ok last) state'' := by
  rw [runs_bind]
  constructor
  · rintro (⟨err, _, eq⟩ | rest)
    · cases eq
    · exact rest
  · exact .inr

theorem runs_lift {program : Program Act Res Call α} {outcome : Except ε α} :
    Program.Runs perform (lift program : Fallible Act Res Call ε α).run state outcome state' ↔
      ∃ value, outcome = .ok value ∧ program.Runs perform state value state' := by
  constructor
  · intro runs
    obtain ⟨value, between, first, rfl, rfl⟩ := Program.runs_bind.1 runs
    exact ⟨value, rfl, first⟩
  · rintro ⟨value, rfl, runs⟩
    exact Program.runs_bind.2 ⟨value, state', runs, rfl, rfl⟩

theorem runs_attempt {outcome : Except ε (Except ε α)} :
    Program.Runs perform (attempt program).run state outcome state' ↔
      ∃ result, outcome = .ok result ∧ Program.Runs perform program.run state result state' := by
  constructor
  · intro runs
    obtain ⟨result, between, first, rfl, rfl⟩ := Program.runs_bind.1 runs
    exact ⟨result, rfl, first⟩
  · rintro ⟨result, rfl, runs⟩
    exact Program.runs_bind.2 ⟨result, state', runs, rfl, rfl⟩

/-- What cannot fail only hands its value on. -/
theorem runs_lift_bind {program : Program Act Res Call α} {outcome : Except ε β} :
    Program.Runs perform (lift program >>= after : Fallible Act Res Call ε β).run state outcome
      state'' ↔ ∃ value state', program.Runs perform state value state' ∧
        Program.Runs perform (after value).run state' outcome state'' := by
  rw [runs_bind]
  constructor
  · rintro (⟨err, failed, _⟩ | ⟨value, state', runs, rest⟩)
    · obtain ⟨_, eq, _⟩ := runs_lift.1 failed
      cases eq
    · obtain ⟨_, eq, runs⟩ := runs_lift.1 runs
      cases eq
      exact ⟨value, state', runs, rest⟩
  · rintro ⟨value, state', runs, rest⟩
    exact .inr ⟨value, state', runs_lift.2 ⟨value, rfl, runs⟩, rest⟩

theorem runs_attempt_bind {next : Except ε α → Fallible Act Res Call ε β} {outcome : Except ε β} :
    Program.Runs perform (attempt program >>= next).run state outcome state'' ↔
      ∃ result state', Program.Runs perform program.run state result state' ∧
        Program.Runs perform (next result).run state' outcome state'' := runs_lift_bind

theorem keeps_bind {holds : State → Prop} (first : Program.Keeps perform holds program.run)
    (rest : ∀ value, Program.Keeps perform holds (after value).run) :
    Program.Keeps perform holds (program >>= after).run := by
  rw [ExceptT.run_bind]
  refine Program.keeps_bind first fun outcome => ?_
  cases outcome with
  | ok value => exact rest value
  | error err => exact fun _ _ _ runs before => runs.2 ▸ before

section Collect

variable {body : α → Fallible Act Res Call ε β} {items : List α}

/-- A loop whose body changes nothing ends with one value for each item. -/
theorem runs_collect_ok {values : List β}
    (keeps : ∀ item outcome after, Program.Runs perform (body item).run state outcome after →
      after = state)
    (runs : Program.Runs perform (collect body items).run state (.ok values) state') :
    state' = state ∧ List.Forall₂
      (fun item value => Program.Runs perform (body item).run state (.ok value) state)
        items values := by
  induction items generalizing values state' with
  | nil =>
      obtain ⟨eq, rfl⟩ := runs
      cases eq
      exact ⟨rfl, .nil⟩
  | cons item rest ih =>
      obtain ⟨value, _, first, others⟩ := runs_bind_ok.1 runs
      cases keeps item _ _ first
      obtain ⟨values, _, following, last⟩ := runs_bind_ok.1 others
      obtain ⟨rfl, related⟩ := ih following
      obtain ⟨eq, rfl⟩ := last
      cases eq
      exact ⟨rfl, .cons first related⟩

theorem runs_collect_of {values : List β} (each : List.Forall₂
      (fun item value => Program.Runs perform (body item).run state (.ok value) state)
        items values) :
    Program.Runs perform (collect body items).run state (.ok values) state := by
  induction each with
  | nil => exact ⟨rfl, rfl⟩
  | cons first _ ih => exact runs_bind_ok.2 ⟨_, state, first, runs_bind_ok.2 ⟨_, state, ih, rfl, rfl⟩⟩

theorem runs_collect_error {err : ε}
    (keeps : ∀ item outcome after, Program.Runs perform (body item).run state outcome after →
      after = state)
    (runs : Program.Runs perform (collect body items).run state (.error err) state') :
    state' = state ∧
      ∃ item ∈ items, Program.Runs perform (body item).run state (.error err) state := by
  induction items with
  | nil => cases runs.1
  | cons item rest ih =>
      rcases runs_bind.1 runs with ⟨_, first, eq⟩ | ⟨value, _, first, others⟩
      · cases eq
        cases keeps item _ _ first
        exact ⟨rfl, item, List.mem_cons_self, first⟩
      cases keeps item _ _ first
      rcases runs_bind.1 others with ⟨_, following, eq⟩ | ⟨values, _, following, last⟩
      · cases eq
        obtain ⟨same, other, member, failed⟩ := ih following
        exact ⟨same, other, List.mem_cons_of_mem _ member, failed⟩
      · cases last.1

end Collect

theorem yields_pure {value : α} {outcome : Except ε α} :
    Program.Yields perform (pure value : Fallible Act Res Call ε α).run outcome ↔
      outcome = .ok value := Iff.rfl

theorem yields_throw {err : ε} {outcome : Except ε α} :
    Program.Yields perform (throw err : Fallible Act Res Call ε α).run outcome ↔
      outcome = .error err := Iff.rfl

/-- Only a value of the first part lets the second one be reached. -/
theorem yields_bind_ok {last : β} : Program.Yields perform (program >>= after).run (.ok last) ↔
    ∃ value, Program.Yields perform program.run (.ok value) ∧
      Program.Yields perform (after value).run (.ok last) := by
  rw [ExceptT.run_bind, Program.yields_bind]
  constructor
  · rintro ⟨first, yields, rest⟩
    cases first with
    | ok value => exact ⟨value, yields, rest⟩
    | error err => exact nomatch rest
  · rintro ⟨value, yields, rest⟩
    exact ⟨.ok value, yields, rest⟩

theorem same_bind {left right : Fallible Act Res Call ε α}
    {next next' : α → Fallible Act Res Call ε β}
    (same : Program.Same perform state left.run right.run)
    (rest : ∀ value after, Program.Runs perform left.run state (.ok value) after →
      Program.Same perform after (next value).run (next' value).run) :
    Program.Same perform state (left >>= next).run (right >>= next').run := by
  rw [ExceptT.run_bind, ExceptT.run_bind]
  refine Program.same_bind same fun outcome between runs => ?_
  cases outcome with
  | ok value => exact rest value between runs
  | error err => exact Program.same_refl

variable (perform) in
/-- Whatever the state, the program ends with no errors but these. -/
def Raises (errs : ε → Prop) (program : Fallible Act Res Call ε α) : Prop :=
  ∀ state err after, Program.Runs perform program.run state (.error err) after → errs err

variable {errs : ε → Prop}

theorem raises_pure (value : α) : Raises perform errs (pure value : Fallible Act Res Call ε α) :=
  fun _ _ _ runs => nomatch runs.1

theorem raises_throw {err : ε} (among : errs err) :
    Raises perform errs (throw err : Fallible Act Res Call ε α) := by
  intro state raised after runs
  cases runs.1
  exact among

theorem raises_bind (first : Raises perform errs program)
    (rest : ∀ value, Raises perform errs (after value)) :
    Raises perform errs (program >>= after) := by
  intro state err last runs
  rcases runs_bind.1 runs with ⟨_, failed, eq⟩ | ⟨value, between, _, following⟩
  · cases eq
    exact first state err last failed
  · exact rest value between err last following

theorem raises_lift (program : Program Act Res Call α) :
    Raises perform errs (lift program : Fallible Act Res Call ε α) := by
  intro state err after runs
  obtain ⟨value, eq, _⟩ := runs_lift.1 runs
  cases eq

theorem raises_attempt (program : Fallible Act Res Call ε α) :
    Raises perform errs (attempt program) := by
  intro state err after runs
  obtain ⟨_, _, _, eq, _⟩ := Program.runs_bind.1 runs
  cases eq

end Fallible

end Interleave
