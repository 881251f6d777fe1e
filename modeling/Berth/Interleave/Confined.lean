import Berth.Interleave.Alone
import Berth.Interleave.System

/-!
What a program can get to when each of its actions answers something that it can answer in some
state. This is less than its footprint: a lookup that has found what it looked for says what it has
found.
-/

namespace Interleave

variable {Act : Type} {Res : Act → Type} {Call Reply State Choice : Type} {α β ε : Type}

namespace Program

variable (perform : (action : Act) → Choice → State → Option (Res action × State))

/-- Whatever its actions answer, the program takes and forks nothing but these. -/
def Stays (acts : Act → Prop) (calls : Call → Prop) : Program Act Res Call α → Prop
  | done _ => True
  | act action next => acts action ∧ ∀ state choice result state',
      perform action choice state = some (result, state') → (next result).Stays acts calls
  | fork call next => calls call ∧ next.Stays acts calls

variable {perform} {acts : Act → Prop} {calls : Call → Prop} {program : Program Act Res Call α}
variable {after : α → Program Act Res Call β}

theorem Uses.stays (uses : program.Uses acts calls) : program.Stays perform acts calls := by
  induction program with
  | done value => trivial
  | act action next ih => exact ⟨uses.1, fun _ _ result _ _ => ih result (uses.2 result)⟩
  | fork call next ih => exact ⟨uses.1, ih uses.2⟩

theorem Stays.mono {acts' : Act → Prop} {calls' : Call → Prop}
    (stays : program.Stays perform acts calls) (widerActs : ∀ action, acts action → acts' action)
    (widerCalls : ∀ call, calls call → calls' call) : program.Stays perform acts' calls' := by
  induction program with
  | done value => trivial
  | act action next ih =>
      exact ⟨widerActs action stays.1, fun state choice result state' performed =>
        ih result (stays.2 state choice result state' performed)⟩
  | fork call next ih => exact ⟨widerCalls call stays.1, ih stays.2⟩

/-- What follows a program starts from a value that the program can end with. -/
theorem Stays.bind (stays : program.Stays perform acts calls)
    (rest : ∀ value, program.Yields perform value → (after value).Stays perform acts calls) :
    (program >>= after).Stays perform acts calls := by
  induction program with
  | done value => exact rest value rfl
  | act action next ih =>
      refine ⟨stays.1, fun state choice result state' performed => ?_⟩
      exact ih result (stays.2 state choice result state' performed) fun value yields =>
        rest value ⟨state, choice, result, state', performed, yields⟩
  | fork call next ih => exact ⟨stays.1, ih stays.2 fun value yields => rest value yields⟩

theorem stays_done (value : α) :
    (done value : Program Act Res Call α).Stays perform acts calls := trivial

theorem stays_perform {action : Act} (among : acts action) :
    (Program.perform action : Program Act Res Call _).Stays perform acts calls :=
  ⟨among, fun _ _ _ _ _ => trivial⟩

theorem stays_forEach {body : α → Program Act Res Call Unit} {items : List α}
    (stays : ∀ item ∈ items, (body item).Stays perform acts calls) :
    (forEach body items).Stays perform acts calls := by
  induction items with
  | nil => exact stays_done ()
  | cons item rest ih =>
      exact (stays item List.mem_cons_self).bind fun _ _ =>
        ih fun other member => stays other (List.mem_cons_of_mem _ member)

end Program

namespace Fallible

variable {perform : (action : Act) → Choice → State → Option (Res action × State)}
variable {acts : Act → Prop} {calls : Call → Prop}
variable {program : Fallible Act Res Call ε α} {after : α → Fallible Act Res Call ε β}

theorem stays_pure (value : α) :
    Program.Stays perform acts calls (pure value : Fallible Act Res Call ε α).run :=
  Program.stays_done _

theorem stays_throw (err : ε) :
    Program.Stays perform acts calls (throw err : Fallible Act Res Call ε α).run :=
  Program.stays_done _

theorem stays_bind (stays : Program.Stays perform acts calls program.run)
    (rest : ∀ value, Program.Yields perform program.run (.ok value) →
      Program.Stays perform acts calls (after value).run) :
    Program.Stays perform acts calls (program >>= after).run := by
  rw [ExceptT.run_bind]
  refine stays.bind fun outcome yields => ?_
  cases outcome with
  | ok value => exact rest value yields
  | error err => exact Program.stays_done _

theorem stays_lift {program : Program Act Res Call α} (stays : program.Stays perform acts calls) :
    Program.Stays perform acts calls (lift program : Fallible Act Res Call ε α).run :=
  stays.bind fun _ _ => Program.stays_done _

theorem stays_attempt (stays : Program.Stays perform acts calls program.run) :
    Program.Stays perform acts calls (attempt program).run :=
  stays.bind fun _ _ => Program.stays_done _

theorem stays_onError {cleanup : Program Act Res Call Unit}
    (stays : Program.Stays perform acts calls program.run)
    (cleans : cleanup.Stays perform acts calls) :
    Program.Stays perform acts calls (onError program cleanup).run := by
  refine stays.bind fun outcome _ => ?_
  cases outcome with
  | ok value => exact Program.stays_done _
  | error err => exact cleans.bind fun _ _ => Program.stays_done _

theorem yields_lift {program : Program Act Res Call α} {value : α} :
    Program.Yields perform (lift program : Fallible Act Res Call ε α).run (.ok value) ↔
      program.Yields perform value := by
  refine Program.yields_bind.trans ⟨?_, fun yields => ⟨value, yields, rfl⟩⟩
  rintro ⟨last, yields, eq⟩
  cases eq
  exact yields

theorem yields_onError {cleanup : Program Act Res Call Unit} {value : α}
    (yields : Program.Yields perform (onError program cleanup).run (.ok value)) :
    Program.Yields perform program.run (.ok value) := by
  obtain ⟨outcome, first, last⟩ := Program.yields_bind.1 yields
  cases outcome with
  | ok other =>
      cases last
      exact first
  | error err =>
      obtain ⟨_, _, eq⟩ := Program.yields_bind.1 last
      cases eq

theorem yields_attempt {outcome : Except ε α} :
    Program.Yields perform (attempt program).run (.ok outcome) ↔
      Program.Yields perform program.run outcome := by
  refine Program.yields_bind.trans ⟨?_, fun yields => ⟨outcome, yields, rfl⟩⟩
  rintro ⟨last, yields, eq⟩
  cases eq
  exact yields

end Fallible

/-! Runs of many threads. -/

section System

variable {sem : Semantics Act Res Call Reply State Choice}
variable {allowed : World Act Res Call Reply State Choice → Event Act Res Call Reply Choice → Prop}
variable {acts : Call → Act → Prop} {calls : Call → Call → Prop}

/-- Every thread stays within what its call can get to. -/
theorem stays_in_run (bodies : ∀ thread call,
      (sem.body call).Stays (sem.perform thread) (acts call) (calls call)) {shared : State}
    {cfg : Config Act Res Call Reply State Choice}
    (reachable : Reachable sem allowed (Config.idle shared) cfg) :
    ∀ task ∈ cfg.pool,
      task.program.Stays (sem.perform task.thread) (acts task.call) (calls task.call) := by
  induction reachable with
  | refl => simp [Config.idle]
  | @step cfg cfg' command event before executed _ ih =>
      intro task member
      have resumed : ∀ {mover : Task Act Res Call Reply} {program : Program Act Res Call Reply},
          mover ∈ cfg.pool → program.Stays (sem.perform mover.thread) (acts mover.call)
            (calls mover.call) → task ∈ cfg.resume mover.thread program →
          task.program.Stays (sem.perform task.thread) (acts task.call) (calls task.call) := by
        intro mover program among stays resumes
        rcases Config.mem_resume resumes with ⟨old, _⟩ | ⟨old, oldMember, same, rfl⟩
        · exact ih task old
        · have live := Config.mem_live oldMember
          rw [same] at live
          have numbered := before.numbered (idle_numbered shared)
          have sameCall := numbered.unique _ _ _ live (Config.mem_live among)
          simpa only [same, sameCall] using stays
      cases Config.exec_executes executed with
      | start admitted =>
          rcases List.mem_cons.1 member with rfl | old
          · exact bodies _ _
          · exact ih task old
      | @act mover action next choice result shared' among program performed =>
          have stays := ih mover among
          rw [program] at stays
          exact resumed among (stays.2 _ _ _ _ performed) member
      | @fork mover call next among program =>
          have stays := ih mover among
          rw [program] at stays
          rcases List.mem_cons.1 member with rfl | old
          · exact bodies _ _
          · exact resumed among stays.2 old
      | finish _ _ | drop _ => exact ih task (List.mem_filter.1 member).1
      | restart => simp at member

/-- Every action of a run is one that its call can get to. -/
theorem acts_in_run (bodies : ∀ thread call,
      (sem.body call).Stays (sem.perform thread) (acts call) (calls call)) {shared : State}
    {cfg cfg' : Config Act Res Call Reply State Choice}
    (reachable : Reachable sem allowed (Config.idle shared) cfg) {thread : Nat} {call : Call}
    {action : Act} {choice : Choice} {result : Res action}
    (executes : cfg.Executes sem (.act thread call action choice result) cfg') : acts call action := by
  cases executes with
  | act among program _ =>
      have stays := stays_in_run bodies reachable _ among
      rw [program] at stays
      exact stays.1

end System

end Interleave
