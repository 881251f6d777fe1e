import Berth.Interleave.System

/-!
A reader that only looks, while the system goes on. Whatever it is answered was so at some moment of
the run, and between any two of its looks the system has taken allowed steps.
-/

namespace Interleave

variable {Act : Type} {Res : Act → Type} {Call Reply State Choice ε α β : Type}

/-- The program is run to its value by a thread that changes nothing, while the system takes allowed
steps. `sees` is what is known of the answers that the thread gets. -/
inductive Observes (sem : Semantics Act Res Call Reply State Choice)
    (allowed : World Act Res Call Reply State Choice → Event Act Res Call Reply Choice → Prop)
    (sees : (action : Act) → Res action → Prop) (thread : Nat) :
    Program Act Res Call α → Config Act Res Call Reply State Choice →
      Config Act Res Call Reply State Choice → α → Prop
  | done {cfg : Config Act Res Call Reply State Choice} {value : α} :
      Observes sem allowed sees thread (.done value) cfg cfg value
  | look {cfg last : Config Act Res Call Reply State Choice} {value : α} {action : Act}
      {next : Res action → Program Act Res Call α} {choice : Choice} {result : Res action}
      (performed : sem.perform thread action choice cfg.shared = some (result, cfg.shared))
      (seen : sees action result)
      (rest : Observes sem allowed sees thread (next result) cfg last value) :
      Observes sem allowed sees thread (.act action next) cfg last value
  | wait {program : Program Act Res Call α} {cfg cfg' last : Config Act Res Call Reply State Choice}
      {value : α} {command : Command Call Choice} {event : Event Act Res Call Reply Choice}
      (executed : cfg.exec sem command = some (event, cfg')) (permitted : allowed cfg.world event)
      (rest : Observes sem allowed sees thread program cfg' last value) :
      Observes sem allowed sees thread program cfg last value

variable {sem : Semantics Act Res Call Reply State Choice}
variable {allowed : World Act Res Call Reply State Choice → Event Act Res Call Reply Choice → Prop}
variable {sees : (action : Act) → Res action → Prop} {thread : Nat}
variable {cfg last : Config Act Res Call Reply State Choice}

theorem Observes.reachable {program : Program Act Res Call α} {value : α}
    (observes : Observes sem allowed sees thread program cfg last value) :
    Reachable sem allowed cfg last := by
  induction observes with
  | done => exact .refl
  | look _ _ _ ih => exact ih
  | wait executed permitted _ ih => exact (Reachable.refl.step executed permitted).trans ih

/-- The first program is observed before the second one. -/
theorem observes_bind {program : Program Act Res Call α} {after : α → Program Act Res Call β}
    {value : β} (observes : Observes sem allowed sees thread (program >>= after) cfg last value) :
    ∃ middle first, Observes sem allowed sees thread program cfg middle first ∧
      Observes sem allowed sees thread (after first) middle last value := by
  generalize isProgram : program >>= after = whole at observes
  induction observes generalizing program with
  | @done cfg value =>
      cases program with
      | done first =>
          rw [Program.done_bind] at isProgram
          exact ⟨cfg, first, .done, by rw [isProgram]; exact .done⟩
      | act action next => cases isProgram
      | fork call next => cases isProgram
  | @look cfg last value action next choice result performed seen rest ih =>
      cases program with
      | done first =>
          rw [Program.done_bind] at isProgram
          exact ⟨cfg, first, .done, by rw [isProgram]; exact .look performed seen rest⟩
      | act other next' =>
          cases isProgram
          obtain ⟨middle, first, before, after⟩ := ih rfl
          exact ⟨middle, first, .look performed seen before, after⟩
      | fork call next => cases isProgram
  | wait executed permitted rest ih =>
      obtain ⟨middle, first, before, after⟩ := ih isProgram
      exact ⟨middle, first, .wait executed permitted before, after⟩

theorem observes_done {value given : α}
    (observes : Observes sem allowed sees thread (.done given) cfg last value) : value = given := by
  generalize isProgram : Program.done given = program at observes
  induction observes with
  | done =>
      cases isProgram
      rfl
  | look _ _ _ _ => cases isProgram
  | wait _ _ _ ih => exact ih isProgram

/-- The moment lies between the two others. -/
structure Between (sem : Semantics Act Res Call Reply State Choice)
    (allowed : World Act Res Call Reply State Choice → Event Act Res Call Reply Choice → Prop)
    (cfg middle last : Config Act Res Call Reply State Choice) : Prop where
  before : Reachable sem allowed cfg middle
  after : Reachable sem allowed middle last

theorem Between.earlier {start middle : Config Act Res Call Reply State Choice}
    (between : Between sem allowed cfg middle last) (reachable : Reachable sem allowed start cfg) :
    Between sem allowed start middle last :=
  ⟨reachable.trans between.before, between.after⟩

theorem Between.later {middle final : Config Act Res Call Reply State Choice}
    (between : Between sem allowed cfg middle last) (reachable : Reachable sem allowed last final) :
    Between sem allowed cfg middle final :=
  ⟨between.before, between.after.trans reachable⟩

/-- What is answered was so at some moment. -/
theorem observes_perform {action : Act} {result : Res action}
    (observes : Observes sem allowed sees thread (Program.perform action) cfg last result) :
    ∃ middle choice, Between sem allowed cfg middle last ∧ sees action result ∧
      sem.perform thread action choice middle.shared = some (result, middle.shared) := by
  generalize isProgram : (Program.perform action : Program Act Res Call _) = program at observes
  induction observes with
  | done => cases isProgram
  | @look cfg last value action next choice result performed seen rest _ =>
      cases isProgram
      cases observes_done rest
      exact ⟨cfg, choice, ⟨.refl, rest.reachable⟩, seen, performed⟩
  | wait executed permitted rest ih =>
      obtain ⟨middle, choice, between, seen, performed⟩ := ih isProgram
      exact ⟨middle, choice, between.earlier (Reachable.refl.step executed permitted), seen,
        performed⟩

theorem Observes.after {program : Program Act Res Call α}
    {middle : Config Act Res Call Reply State Choice} {value : α} (reachable : Reachable sem allowed cfg middle)
    (observes : Observes sem allowed sees thread program middle last value) :
    Observes sem allowed sees thread program cfg last value := by
  induction reachable with
  | refl => exact observes
  | step _ executed permitted ih => exact ih (.wait executed permitted observes)

/-- Observes the program. Before each of its looks one more list of commands is executed. -/
def watch (sem : Semantics Act Res Call Reply State Choice)
    (check : World Act Res Call Reply State Choice → Event Act Res Call Reply Choice → Bool)
    (look : (action : Act) → State → Option (Res action)) :
    Program Act Res Call α → List (List (Command Call Choice)) →
      Config Act Res Call Reply State Choice → Option (α × Config Act Res Call Reply State Choice)
  | .done value, _, cfg => some (value, cfg)
  | .act action next, commands, cfg =>
      match runChecked sem check cfg (commands.headD []) with
      | none => none
      | some cfg' =>
          match look action cfg'.shared with
          | none => none
          | some result => watch sem check look (next result) commands.tail cfg'
  | .fork _ _, _, _ => none

theorem observes_watch
    {check : World Act Res Call Reply State Choice → Event Act Res Call Reply Choice → Bool}
    {look : (action : Act) → State → Option (Res action)}
    (sound : ∀ w event, check w event = true → allowed w event)
    (looks : ∀ action state result, look action state = some result →
      sees action result ∧ ∃ choice, sem.perform thread action choice state = some (result, state))
    {program : Program Act Res Call α} {commands : List (List (Command Call Choice))} {value : α}
    (watched : watch sem check look program commands cfg = some (value, last)) :
    Observes sem allowed sees thread program cfg last value := by
  induction program generalizing commands cfg with
  | done given =>
      cases watched
      exact .done
  | act action next ih =>
      simp only [watch] at watched
      split at watched
      · cases watched
      rename_i cfg' ran
      split at watched
      · cases watched
      rename_i result looked
      obtain ⟨seen, choice, performed⟩ := looks action cfg'.shared result looked
      exact .after (runChecked_reachable sound ran) (.look performed seen (ih result watched))
  | fork call next => cases watched

namespace Fallible

variable {program : Fallible Act Res Call ε α} {after : α → Fallible Act Res Call ε β}

theorem observes_bind_run {outcome : Except ε β}
    (observes : Observes sem allowed sees thread (program >>= after).run cfg last outcome) :
    ∃ middle, (∃ value, Observes sem allowed sees thread program.run cfg middle (.ok value) ∧
        Observes sem allowed sees thread (after value).run middle last outcome) ∨
      ∃ err, Observes sem allowed sees thread program.run cfg middle (.error err) ∧
        Reachable sem allowed middle last ∧ outcome = .error err := by
  rw [ExceptT.run_bind] at observes
  obtain ⟨middle, first, before, rest⟩ := observes_bind observes
  cases first with
  | ok value => exact ⟨middle, .inl ⟨value, before, rest⟩⟩
  | error err => exact ⟨middle, .inr ⟨err, before, rest.reachable, observes_done rest⟩⟩

theorem observes_lift {program : Program Act Res Call α} {outcome : Except ε α}
    (observes : Observes sem allowed sees thread (lift program : Fallible Act Res Call ε α).run cfg
      last outcome) :
    ∃ middle value, Observes sem allowed sees thread program cfg middle value ∧
      Reachable sem allowed middle last ∧ outcome = .ok value := by
  obtain ⟨middle, value, before, rest⟩ := observes_bind observes
  exact ⟨middle, value, before, rest.reachable, observes_done rest⟩

theorem observes_attempt_bind {next : Except ε α → Fallible Act Res Call ε β}
    {outcome : Except ε β}
    (observes : Observes sem allowed sees thread (attempt program >>= next).run cfg last outcome) :
    ∃ middle inner, Observes sem allowed sees thread program.run cfg middle inner ∧
      Observes sem allowed sees thread (next inner).run middle last outcome := by
  have assoc : (attempt program >>= next).run = program.run >>= fun inner => (next inner).run :=
    Program.bind_assoc _ _ _
  rw [assoc] at observes
  exact observes_bind observes

end Fallible

end Interleave
