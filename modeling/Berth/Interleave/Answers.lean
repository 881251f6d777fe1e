import Berth.Interleave.System

/-!
What a thread was answered on its way: a program follows the answers to its actions, so whoever has
got to some point of it was answered in a way that leads there.
-/

namespace Interleave

variable {Act : Type} {Res : Act → Type} {Call Reply State Choice : Type} {α β ε : Type}

namespace Program

/-- With these answers the program gets to `rest`. -/
inductive Follows (program : Program Act Res Call α) :
    List (Σ action, Res action) → Program Act Res Call α → Prop
  | refl : Follows program [] program
  | act {answers : List (Σ action, Res action)} {action : Act}
      {next : Res action → Program Act Res Call α} (before : Follows program answers (act action next))
      (result : Res action) : Follows program (answers ++ [⟨action, result⟩]) (next result)
  | fork {answers : List (Σ action, Res action)} {call : Call} {next : Program Act Res Call α}
      (before : Follows program answers (fork call next)) : Follows program answers next

/-- With these answers the program ends with the value. -/
def Gives (program : Program Act Res Call α) (answers : List (Σ action, Res action)) (value : α) :
    Prop := program.Follows answers (done value)

variable {program rest : Program Act Res Call α} {after : α → Program Act Res Call β}
variable {answers : List (Σ action, Res action)}

theorem follows_done {value : α} (follows : (done value : Program Act Res Call α).Follows answers rest) :
    answers = [] ∧ rest = done value := by
  induction follows with
  | refl => exact ⟨rfl, rfl⟩
  | act _ _ ih => cases ih.2
  | fork _ ih => cases ih.2

theorem follows_act {action : Act} {next : Res action → Program Act Res Call α}
    (follows : (act action next).Follows answers rest) :
    (answers = [] ∧ rest = act action next) ∨
      ∃ result later, answers = ⟨action, result⟩ :: later ∧ (next result).Follows later rest := by
  induction follows with
  | refl => exact .inl ⟨rfl, rfl⟩
  | act _ result ih =>
      rcases ih with ⟨rfl, eq⟩ | ⟨first, later, rfl, follows⟩
      · cases eq
        exact .inr ⟨result, [], rfl, .refl⟩
      · exact .inr ⟨first, _, rfl, follows.act result⟩
  | fork _ ih =>
      rcases ih with ⟨_, eq⟩ | ⟨first, later, rfl, follows⟩
      · cases eq
      · exact .inr ⟨first, later, rfl, follows.fork⟩

/-- Either the first program is still on its way, or it has ended and the second one is. -/
theorem follows_bind {last : Program Act Res Call β}
    (follows : (program >>= after).Follows answers last) :
    (∃ first, program.Follows answers first ∧ last = first >>= after) ∨
      ∃ value earlier later, answers = earlier ++ later ∧ program.Gives earlier value ∧
        (after value).Follows later last := by
  induction follows with
  | refl => exact .inl ⟨program, .refl, rfl⟩
  | @act answers action next _ result ih =>
      rcases ih with ⟨first, follows, eq⟩ | ⟨value, earlier, later, rfl, gives, follows⟩
      · cases first with
        | done value =>
            rw [done_bind] at eq
            refine .inr ⟨value, answers, [⟨action, result⟩], rfl, follows, ?_⟩
            rw [← eq]
            exact Follows.refl.act result
        | act other then_ =>
            cases eq
            exact .inl ⟨_, follows.act result, rfl⟩
        | fork call then_ => cases eq
      · exact .inr ⟨value, earlier, _, List.append_assoc .., gives, follows.act result⟩
  | @fork answers call next _ ih =>
      rcases ih with ⟨first, follows, eq⟩ | ⟨value, earlier, later, rfl, gives, follows⟩
      · cases first with
        | done value =>
            rw [done_bind] at eq
            refine .inr ⟨value, answers, [], (List.append_nil _).symm, follows, ?_⟩
            rw [← eq]
            exact Follows.refl.fork
        | act other then_ => cases eq
        | fork other then_ =>
            cases eq
            exact .inl ⟨_, follows.fork, rfl⟩
      · exact .inr ⟨value, earlier, later, rfl, gives, follows.fork⟩

theorem Uses.follows {acts : Act → Prop} {calls : Call → Prop} (uses : program.Uses acts calls)
    (follows : program.Follows answers rest) : rest.Uses acts calls := by
  induction follows with
  | refl => exact uses
  | act _ result ih => exact ih.2 result
  | fork _ ih => exact ih.2

theorem gives_done {value last : α} (gives : (done value : Program Act Res Call α).Gives answers last) :
    last = value := by
  cases (follows_done gives).2
  rfl

theorem gives_perform {action : Act} {result : Res action}
    (gives : (perform action : Program Act Res Call _).Gives answers result) :
    ⟨action, result⟩ ∈ answers := by
  rcases follows_act gives with ⟨_, eq⟩ | ⟨first, later, rfl, rest⟩
  · cases eq
  · cases (follows_done rest).2
    exact List.mem_cons_self

theorem gives_bind {last : β} (gives : (program >>= after).Gives answers last) :
    ∃ value earlier later, answers = earlier ++ later ∧ program.Gives earlier value ∧
      (after value).Gives later last := by
  rcases follows_bind gives with ⟨first, follows, eq⟩ | ended
  · cases first with
    | done value =>
        rw [done_bind] at eq
        refine ⟨value, answers, [], (List.append_nil _).symm, follows, ?_⟩
        rw [← eq]
        exact .refl
    | act action next => cases eq
    | fork call next => cases eq
  · exact ended

/-! Where an action comes from that one of the two programs never takes. -/

section Search

variable {acts : Act → Prop} {action : Act}
variable {next : Res action → Program Act Res Call β}

theorem follows_first (uses : ∀ value, (after value).Uses acts fun _ => True) (absent : ¬ acts action)
    (follows : (program >>= after).Follows answers (act action next)) :
    ∃ rest, program.Follows answers (act action rest) := by
  rcases follows_bind follows with ⟨first, here, eq⟩ | ⟨value, _, _, _, _, later⟩
  · cases first with
    | done value =>
        have later := uses value
        rw [done_bind] at eq
        rw [← eq] at later
        exact absurd later.1 absent
    | act other rest =>
        cases eq
        exact ⟨rest, here⟩
    | fork call rest => cases eq
  · exact absurd ((uses value).follows later).1 absent

theorem follows_second (uses : program.Uses acts fun _ => True) (absent : ¬ acts action)
    (follows : (program >>= after).Follows answers (act action next)) :
    ∃ value earlier later, answers = earlier ++ later ∧ program.Gives earlier value ∧
      (after value).Follows later (act action next) := by
  rcases follows_bind follows with ⟨first, here, eq⟩ | found
  · have usesFirst := uses.follows here
    cases first with
    | done value =>
        rw [done_bind] at eq
        refine ⟨value, answers, [], (List.append_nil _).symm, here, ?_⟩
        rw [← eq]
        exact .refl
    | act other rest =>
        cases eq
        exact absurd usesFirst.1 absent
    | fork call rest => cases eq
  · exact found

end Search

end Program

namespace Fallible

variable {program : Fallible Act Res Call ε α} {after : α → Fallible Act Res Call ε β}
variable {answers : List (Σ action, Res action)}

/-- Whoever gets to an action that the first program never takes has been through it. -/
theorem follows_past {acts : Act → Prop} {action : Act}
    {next : Res action → Program Act Res Call (Except ε β)}
    (uses : Program.Uses acts (fun _ => True) program.run) (absent : ¬ acts action)
    (follows : Program.Follows (program >>= after).run answers (.act action next)) :
    ∃ value earlier later, answers = earlier ++ later ∧
      Program.Gives program.run earlier (.ok value) ∧
        Program.Follows (after value).run later (.act action next) := by
  rw [ExceptT.run_bind] at follows
  obtain ⟨outcome, earlier, later, eq, gives, rest⟩ := Program.follows_second uses absent follows
  cases outcome with
  | ok value => exact ⟨value, earlier, later, eq, gives, rest⟩
  | error err => cases (Program.follows_done rest).2

/-- Whoever gets to an action that the second program never takes is in the first one. -/
theorem follows_before {acts : Act → Prop} {action : Act}
    {next : Res action → Program Act Res Call (Except ε β)}
    (uses : ∀ value, Program.Uses acts (fun _ => True) (after value).run) (absent : ¬ acts action)
    (follows : Program.Follows (program >>= after).run answers (.act action next)) :
    ∃ rest, Program.Follows program.run answers (.act action rest) := by
  rw [ExceptT.run_bind] at follows
  refine Program.follows_first (fun outcome => ?_) absent follows
  cases outcome with
  | ok value => exact uses value
  | error err => exact Program.uses_done _

theorem gives_bind_ok {last : β} (gives : Program.Gives (program >>= after).run answers (.ok last)) :
    ∃ value earlier later, answers = earlier ++ later ∧
      Program.Gives program.run earlier (.ok value) ∧
        Program.Gives (after value).run later (.ok last) := by
  rw [ExceptT.run_bind] at gives
  obtain ⟨outcome, earlier, later, eq, first, rest⟩ := Program.gives_bind gives
  cases outcome with
  | ok value => exact ⟨value, earlier, later, eq, first, rest⟩
  | error err => cases Program.gives_done rest

theorem gives_pure {value last : α}
    (gives : Program.Gives (pure value : Fallible Act Res Call ε α).run answers (.ok last)) :
    last = value := by
  cases Program.gives_done gives
  rfl

theorem gives_throw {err : ε} {value : α} :
    ¬ Program.Gives (throw err : Fallible Act Res Call ε α).run answers (.ok value) := fun gives => by
  cases Program.gives_done gives

theorem gives_attempt {outcome : Except ε α}
    (gives : Program.Gives (attempt program).run answers (.ok outcome)) :
    Program.Gives program.run answers outcome := by
  obtain ⟨given, earlier, later, rfl, first, rest⟩ := Program.gives_bind gives
  obtain ⟨rfl, eq⟩ := Program.follows_done rest
  cases eq
  rwa [List.append_nil]

theorem gives_onError {cleanup : Program Act Res Call Unit} {value : α}
    (gives : Program.Gives (onError program cleanup).run answers (.ok value)) :
    ∃ part, part ⊆ answers ∧ Program.Gives program.run part (.ok value) := by
  obtain ⟨outcome, earlier, later, rfl, given, ends⟩ := Program.gives_bind gives
  cases outcome with
  | ok other =>
      cases Program.gives_done ends
      exact ⟨earlier, List.subset_append_left _ _, given⟩
  | error err =>
      obtain ⟨_, _, _, _, _, last⟩ := Program.gives_bind ends
      cases Program.gives_done last

/-- Whatever has been collected was given for one of the items. -/
theorem gives_collect {body : α → Fallible Act Res Call ε β} {items : List α} {values : List β}
    (gives : Program.Gives (collect body items).run answers (.ok values)) :
    ∀ value ∈ values, ∃ item ∈ items, ∃ part, part ⊆ answers ∧
      Program.Gives (body item).run part (.ok value) := by
  induction items generalizing answers values with
  | nil =>
      cases gives_pure gives
      simp
  | cons item rest ih =>
      obtain ⟨first, earlier, later, rfl, given, others⟩ := gives_bind_ok gives
      obtain ⟨values', middle, last, rfl, collected, ends⟩ := gives_bind_ok others
      cases gives_pure ends
      intro value member
      rcases List.mem_cons.1 member with rfl | among
      · exact ⟨item, List.mem_cons_self, earlier, List.subset_append_left _ _, given⟩
      · obtain ⟨item', isItem, part, within, given'⟩ := ih collected value among
        refine ⟨item', List.mem_cons_of_mem _ isItem, part, fun answer isIn => ?_, given'⟩
        exact List.mem_append_right _ (List.mem_append_left _ (within isIn))

end Fallible

/-! Runs. -/

variable (sem : Semantics Act Res Call Reply State Choice)

/-- The thread was answered all of this, each in a moment of the past. -/
def Answered (w : World Act Res Call Reply State Choice) (thread : Nat) (call : Call)
    (answers : List (Σ action, Res action)) : Prop :=
  ∀ answer ∈ answers, ∃ moment ∈ w.history, ∃ choice shared,
    moment.event = .act thread call answer.1 choice answer.2 ∧
      sem.perform thread answer.1 choice moment.shared = some (answer.2, shared)

variable {sem} {w w' : World Act Res Call Reply State Choice}
variable {event : Event Act Res Call Reply Choice} {thread : Nat} {call : Call}
variable {answers : List (Σ action, Res action)}

theorem Answered.moves (answered : Answered sem w thread call answers)
    (moves : w.Moves sem event w') : Answered sem w' thread call answers := by
  intro answer member
  obtain ⟨moment, past, rest⟩ := answered answer member
  refine ⟨moment, ?_, rest⟩
  rw [moves.history]
  exact List.mem_cons_of_mem _ past

theorem Answered.mono {fewer : List (Σ action, Res action)}
    (answered : Answered sem w thread call answers) (among : fewer ⊆ answers) :
    Answered sem w thread call fewer :=
  fun answer member => answered answer (among member)

variable {allowed : World Act Res Call Reply State Choice → Event Act Res Call Reply Choice → Prop}

theorem World.Moves.live_act {action : Act} {choice : Choice} {result : Res action}
    (moves : w.Moves sem (.act thread call action choice result) w') : (thread, call) ∈ w.live := by
  cases moves with
  | act member _ => exact member

theorem World.Moves.performed {action : Act} {choice : Choice} {result : Res action}
    (moves : w.Moves sem (.act thread call action choice result) w') :
    sem.perform thread action choice w.shared = some (result, w'.shared) := by
  cases moves with
  | act _ performed => exact performed

/-- Every thread has got to where it is by what it was answered. -/
theorem follows_in_run {shared : State} {cfg : Config Act Res Call Reply State Choice}
    (reachable : Reachable sem allowed (Config.idle shared) cfg) :
    ∀ task ∈ cfg.pool, ∃ answers, (sem.body task.call).Follows answers task.program ∧
      Answered sem cfg.world task.thread task.call answers := by
  induction reachable with
  | refl => simp [Config.idle]
  | @step cfg cfg' command event before executed _ ih =>
      have executes := Config.exec_executes executed
      have moves := executes.moves
      have numbered := before.numbered (idle_numbered shared)
      intro task member
      have kept : task ∈ cfg.pool → ∃ answers, (sem.body task.call).Follows answers task.program ∧
          Answered sem cfg'.world task.thread task.call answers := by
        intro old
        obtain ⟨answers, follows, answered⟩ := ih task old
        exact ⟨answers, follows, answered.moves moves⟩
      have started (isNew : task.program = sem.body task.call) :
          ∃ answers, (sem.body task.call).Follows answers task.program ∧
            Answered sem cfg'.world task.thread task.call answers :=
        ⟨[], by rw [isNew]; exact .refl, by simp [Answered]⟩
      -- the task that has moved on: the same call as before, with what comes after
      have resumed : ∀ {mover : Task Act Res Call Reply} {program : Program Act Res Call Reply},
          mover ∈ cfg.pool → (∃ answers, (sem.body mover.call).Follows answers program ∧
            Answered sem cfg'.world mover.thread mover.call answers) →
          task ∈ cfg.resume mover.thread program →
          ∃ answers, (sem.body task.call).Follows answers task.program ∧
            Answered sem cfg'.world task.thread task.call answers := by
        intro mover program among moved resumes
        rcases Config.mem_resume resumes with ⟨old, _⟩ | ⟨old, oldMember, same, rfl⟩
        · exact kept old
        · have live := Config.mem_live oldMember
          rw [same] at live
          have sameCall := numbered.unique _ _ _ live (Config.mem_live among)
          simpa only [same, sameCall] using moved
      cases executes with
      | start _ =>
          rcases List.mem_cons.1 member with rfl | old
          · exact started rfl
          · exact kept old
      | @act mover action next choice result shared' among program performed =>
          obtain ⟨answers, follows, answered⟩ := ih mover among
          rw [program] at follows
          refine resumed among ⟨answers ++ [⟨action, result⟩], follows.act result, ?_⟩ member
          intro answer isAmong
          rcases List.mem_append.1 isAmong with old | new
          · exact answered.moves moves answer old
          · cases List.mem_singleton.1 new
            exact ⟨_, List.mem_cons_self, choice, shared', rfl, performed⟩
      | @fork mover forked next among program =>
          obtain ⟨answers, follows, answered⟩ := ih mover among
          rw [program] at follows
          rcases List.mem_cons.1 member with rfl | old
          · exact started rfl
          · exact resumed among ⟨answers, follows.fork, answered.moves moves⟩ old
      | finish _ _ | drop _ => exact kept (List.mem_filter.1 member).1
      | restart => cases member

end Interleave
