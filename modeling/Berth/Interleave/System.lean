import Berth.Interleave.Program

/-!
Threads that run programs over one shared state, one atomic action at a time and in any order.
A configuration holds the remaining program of every thread; a world is what can be said without
looking at the programs: the shared state, the calls in progress and everything that happened.
-/

namespace Interleave

/-- What the actions of a family of programs do. `perform` answers `none` where the action has
to wait, `release` is what the shared state gets back from a thread that is dropped. -/
structure Semantics (Act : Type) (Res : Act → Type) (Call Reply State Choice : Type) where
  body : Call → Program Act Res Call Reply
  perform : Nat → (action : Act) → Choice → State → Option (Res action × State)
  admits : State → List (Nat × Call) → Call → Bool
  release : Nat → State → State
  restart : State → State

/-- `choice` is how the surroundings settled what the action leaves open. -/
inductive Event (Act : Type) (Res : Act → Type) (Call Reply Choice : Type) where
  | start (thread : Nat) (call : Call)
  | act (thread : Nat) (call : Call) (action : Act) (choice : Choice) (result : Res action)
  | fork (thread : Nat) (call : Call) (child : Nat) (forked : Call)
  | finish (thread : Nat) (call : Call) (reply : Reply)
  | drop (thread : Nat) (call : Call)
  | restart

structure Moment (Act : Type) (Res : Act → Type) (Call Reply State Choice : Type) where
  shared : State
  live : List (Nat × Call)
  event : Event Act Res Call Reply Choice

/-- The newest moment of `history` comes first. -/
structure World (Act : Type) (Res : Act → Type) (Call Reply State Choice : Type) where
  shared : State
  live : List (Nat × Call)
  next : Nat
  history : List (Moment Act Res Call Reply State Choice)

variable {Act : Type} {Res : Act → Type} {Call Reply State Choice : Type}

def Event.thread : Event Act Res Call Reply Choice → Option Nat
  | start thread _ | act thread _ _ _ _ | fork thread _ _ _ | finish thread _ _ | drop thread _ =>
      some thread
  | restart => none

/-- The events by which a thread itself moves on. -/
def Event.Owned : Event Act Res Call Reply Choice → Prop
  | act .. | fork .. | finish .. => True
  | start .. | drop .. | restart => False

/-- The thread moves on by an action or a fork among these. -/
inductive Event.By (thread : Nat) (call : Call) (acts : Act → Prop) (calls : Call → Prop) :
    Event Act Res Call Reply Choice → Prop
  | act {action : Act} {choice : Choice} {result : Res action} (among : acts action) :
      Event.By thread call acts calls (.act thread call action choice result)
  | fork {child : Nat} {forked : Call} (among : calls forked) :
      Event.By thread call acts calls (.fork thread call child forked)

theorem Event.By.mono {thread : Nat} {call : Call} {acts acts' : Act → Prop}
    {calls calls' : Call → Prop} {event : Event Act Res Call Reply Choice}
    (own : event.By thread call acts calls) (wider : ∀ action, acts action → acts' action)
    (widerCalls : ∀ forked, calls forked → calls' forked) : event.By thread call acts' calls' := by
  cases own with
  | act among => exact .act (wider _ among)
  | fork among => exact .fork (widerCalls _ among)

namespace World

variable (w : World Act Res Call Reply State Choice)

def record (event : Event Act Res Call Reply Choice) : List (Moment Act Res Call Reply State Choice) :=
  ⟨w.shared, w.live, event⟩ :: w.history

def without (thread : Nat) : List (Nat × Call) := w.live.filter fun entry => entry.1 ≠ thread

/-- Some past event satisfies `happened`. -/
def Did (happened : Event Act Res Call Reply Choice → Prop) : Prop :=
  ∃ moment ∈ w.history, happened moment.event

/-- The event happened in the world `earlier`, on the way to this one. -/
def Occurred (earlier : World Act Res Call Reply State Choice)
    (event : Event Act Res Call Reply Choice) : Prop :=
  ∃ newer, w.history = newer ++ earlier.record event

inductive Moves (sem : Semantics Act Res Call Reply State Choice) :
    World Act Res Call Reply State Choice → Event Act Res Call Reply Choice → World Act Res Call Reply State Choice →
      Prop
  | start {w : World Act Res Call Reply State Choice} {call : Call}
      (admitted : sem.admits w.shared w.live call = true) :
      Moves sem w (.start w.next call)
        ⟨w.shared, (w.next, call) :: w.live, w.next + 1, w.record (.start w.next call)⟩
  | act {w : World Act Res Call Reply State Choice} {thread : Nat} {call : Call} {action : Act}
      {choice : Choice} {result : Res action} {shared : State} (member : (thread, call) ∈ w.live)
      (performed : sem.perform thread action choice w.shared = some (result, shared)) :
      Moves sem w (.act thread call action choice result)
        ⟨shared, w.live, w.next, w.record (.act thread call action choice result)⟩
  | fork {w : World Act Res Call Reply State Choice} {thread : Nat} {call forked : Call}
      (member : (thread, call) ∈ w.live) :
      Moves sem w (.fork thread call w.next forked)
        ⟨w.shared, (w.next, forked) :: w.live, w.next + 1,
          w.record (.fork thread call w.next forked)⟩
  | finish {w : World Act Res Call Reply State Choice} {thread : Nat} {call : Call} {reply : Reply}
      (member : (thread, call) ∈ w.live) :
      Moves sem w (.finish thread call reply)
        ⟨w.shared, w.without thread, w.next, w.record (.finish thread call reply)⟩
  | drop {w : World Act Res Call Reply State Choice} {thread : Nat} {call : Call}
      (member : (thread, call) ∈ w.live) :
      Moves sem w (.drop thread call)
        ⟨sem.release thread w.shared, w.without thread, w.next, w.record (.drop thread call)⟩
  | restart {w : World Act Res Call Reply State Choice} :
      Moves sem w .restart ⟨sem.restart w.shared, [], w.next, w.record .restart⟩

variable {w} {w' : World Act Res Call Reply State Choice} {event : Event Act Res Call Reply Choice}
variable {sem : Semantics Act Res Call Reply State Choice}

theorem mem_without {thread other : Nat} {call : Call} :
    (other, call) ∈ w.without thread ↔ (other, call) ∈ w.live ∧ other ≠ thread := by
  simp [without]

theorem Moves.history (moves : Moves sem w event w') : w'.history = w.record event := by
  cases moves <;> rfl

theorem Moves.did_iff (moves : Moves sem w event w') (happened : Event Act Res Call Reply Choice → Prop) :
    w'.Did happened ↔ happened event ∨ w.Did happened := by
  simp [Did, moves.history, record]

theorem Moves.did {happened : Event Act Res Call Reply Choice → Prop} (moves : Moves sem w event w')
    (before : w.Did happened) : w'.Did happened :=
  (moves.did_iff happened).2 (.inr before)

/-- A call in progress was so before, unless it has just been started or forked. -/
theorem Moves.live_cases (moves : Moves sem w event w') {thread : Nat} {call : Call}
    (member : (thread, call) ∈ w'.live) :
    (thread, call) ∈ w.live ∨ (thread = w.next ∧ event = .start thread call ∧
        sem.admits w.shared w.live call = true) ∨
      (thread = w.next ∧ ∃ parent forking, event = .fork parent forking thread call ∧
        (parent, forking) ∈ w.live) := by
  cases moves with
  | start admitted =>
      rcases List.mem_cons.1 member with eq | old
      · cases eq
        exact .inr (.inl ⟨rfl, rfl, admitted⟩)
      · exact .inl old
  | @fork parent forking forked parentMember =>
      rcases List.mem_cons.1 member with eq | old
      · cases eq
        exact .inr (.inr ⟨rfl, parent, forking, rfl, parentMember⟩)
      · exact .inl old
  | act _ _ => exact .inl member
  | finish _ | drop _ => exact .inl (List.mem_filter.1 member).1
  | restart => simp at member

theorem Moves.next_le (moves : Moves sem w event w') : w.next ≤ w'.next := by
  cases moves <;> simp

theorem Moves.occurred (moves : Moves sem w event w') : w'.Occurred w event :=
  ⟨[], moves.history⟩

theorem Occurred.later {earlier : World Act Res Call Reply State Choice}
    {past : Event Act Res Call Reply Choice} (occurred : w.Occurred earlier past)
    (moves : Moves sem w event w') : w'.Occurred earlier past := by
  obtain ⟨newer, eq⟩ := occurred
  exact ⟨⟨w.shared, w.live, event⟩ :: newer, by simp [moves.history, record, eq]⟩

/-- The event happened just now, in the world before it, or it had happened before. -/
theorem Moves.occurred_cases (moves : Moves sem w event w')
    {earlier : World Act Res Call Reply State Choice} {past : Event Act Res Call Reply Choice}
    (occurred : w'.Occurred earlier past) :
    (past = event ∧ earlier.shared = w.shared ∧ earlier.live = w.live ∧
      earlier.history = w.history) ∨ w.Occurred earlier past := by
  obtain ⟨newer, eq⟩ := occurred
  rw [moves.history] at eq
  cases newer with
  | nil =>
      simp only [record, List.nil_append, List.cons.injEq, Moment.mk.injEq] at eq
      obtain ⟨⟨shared, live, same⟩, history⟩ := eq
      exact .inl ⟨same.symm, shared.symm, live.symm, history.symm⟩
  | cons newest newer =>
      simp only [record, List.cons_append, List.cons.injEq] at eq
      exact .inr ⟨newer, eq.2⟩

theorem Did.occurred {happened : Event Act Res Call Reply Choice → Prop} (did : w.Did happened) :
    ∃ earlier past, w.Occurred earlier past ∧ happened past := by
  obtain ⟨moment, member, holds⟩ := did
  obtain ⟨newer, older, eq⟩ := List.append_of_mem member
  exact ⟨⟨moment.shared, moment.live, 0, older⟩, moment.event, ⟨newer, eq⟩, holds⟩

/-- Threads are numbered in the order they start, and a number is never used twice. -/
structure Numbered (w : World Act Res Call Reply State Choice) : Prop where
  live_lt : ∀ entry ∈ w.live, entry.1 < w.next
  past_lt : ∀ moment ∈ w.history, ∀ thread, moment.event.thread = some thread → thread < w.next
  unique : ∀ thread call other, (thread, call) ∈ w.live → (thread, other) ∈ w.live → call = other

theorem Numbered.not_did (numbered : w.Numbered)
    {happened : Event Act Res Call Reply Choice → Prop}
    (byNext : ∀ event, happened event → event.thread = some w.next) : ¬ w.Did happened := by
  rintro ⟨moment, member, holds⟩
  exact absurd (numbered.past_lt moment member _ (byNext _ holds)) (Nat.lt_irrefl _)

theorem Numbered.next_not_live (numbered : w.Numbered) (call : Call) :
    (w.next, call) ∉ w.live :=
  fun member => absurd (numbered.live_lt _ member) (Nat.lt_irrefl _)

theorem Numbered.moves (numbered : w.Numbered) (moves : Moves sem w event w') :
    w'.Numbered := by
  have pastBound : ∀ thread, event.thread = some thread → thread < w'.next := by
    intro thread byThread
    cases moves with
    | start admitted =>
        simp only [Event.thread, Option.some.injEq] at byThread
        exact byThread ▸ Nat.lt_succ_self _
    | act member performed =>
        simp only [Event.thread, Option.some.injEq] at byThread
        exact byThread ▸ numbered.live_lt _ member
    | fork member =>
        simp only [Event.thread, Option.some.injEq] at byThread
        have := numbered.live_lt _ member
        exact byThread ▸ Nat.lt_succ_of_lt this
    | finish member =>
        simp only [Event.thread, Option.some.injEq] at byThread
        exact byThread ▸ numbered.live_lt _ member
    | drop member =>
        simp only [Event.thread, Option.some.injEq] at byThread
        exact byThread ▸ numbered.live_lt _ member
    | restart => simp [Event.thread] at byThread
  have nextLe : w.next ≤ w'.next := by cases moves <;> simp
  refine ⟨?_, ?_, ?_⟩
  · intro entry member
    cases moves with
    | start admitted | fork _ =>
        rcases List.mem_cons.1 member with rfl | old
        · exact Nat.lt_succ_self _
        · exact Nat.lt_succ_of_lt (numbered.live_lt _ old)
    | act _ _ => exact numbered.live_lt _ member
    | finish _ | drop _ => exact numbered.live_lt _ (List.mem_filter.1 member).1
    | restart => simp at member
  · intro moment member thread byThread
    rw [moves.history, record] at member
    rcases List.mem_cons.1 member with rfl | old
    · exact pastBound thread byThread
    · exact Nat.lt_of_lt_of_le (numbered.past_lt moment old thread byThread) nextLe
  · intro thread call other first second
    cases moves with
    | start admitted | fork _ =>
        rcases List.mem_cons.1 first with eq | old <;> rcases List.mem_cons.1 second with eq' | old'
        · cases eq; cases eq'; rfl
        · cases eq; exact absurd old' (numbered.next_not_live _)
        · cases eq'; exact absurd old (numbered.next_not_live _)
        · exact numbered.unique _ _ _ old old'
    | act _ _ => exact numbered.unique _ _ _ first second
    | finish _ | drop _ =>
        exact numbered.unique _ _ _ (List.mem_filter.1 first).1 (List.mem_filter.1 second).1
    | restart => simp at first

end World

/-! Executable configurations. -/

structure Task (Act : Type) (Res : Act → Type) (Call Reply : Type) where
  thread : Nat
  call : Call
  program : Program Act Res Call Reply

structure Config (Act : Type) (Res : Act → Type) (Call Reply State Choice : Type) where
  shared : State
  pool : List (Task Act Res Call Reply)
  next : Nat
  history : List (Moment Act Res Call Reply State Choice)

/-- One scheduling decision; `choice` settles whatever the action leaves open. -/
inductive Command (Call Choice : Type) where
  | start (call : Call)
  | step (thread : Nat) (choice : Choice)
  | drop (thread : Nat)
  | restart

namespace Config

variable (cfg : Config Act Res Call Reply State Choice)

def idle (shared : State) : Config Act Res Call Reply State Choice := ⟨shared, [], 0, []⟩

def live : List (Nat × Call) := cfg.pool.map fun task => (task.thread, task.call)

def world : World Act Res Call Reply State Choice := ⟨cfg.shared, cfg.live, cfg.next, cfg.history⟩

@[simp] theorem world_shared : cfg.world.shared = cfg.shared := rfl
@[simp] theorem world_live : cfg.world.live = cfg.live := rfl
@[simp] theorem world_next : cfg.world.next = cfg.next := rfl
@[simp] theorem world_history : cfg.world.history = cfg.history := rfl

@[simp] theorem idle_shared (shared : State) :
    (idle shared : Config Act Res Call Reply State Choice).shared = shared := rfl

@[simp] theorem idle_live (shared : State) :
    (idle shared : Config Act Res Call Reply State Choice).live = [] := rfl

theorem idle_not_did (shared : State) (happened : Event Act Res Call Reply Choice → Prop) :
    ¬ (idle shared : Config Act Res Call Reply State Choice).world.Did happened := by
  rintro ⟨_, member, _⟩
  cases member

def resume (thread : Nat) (program : Program Act Res Call Reply) :
    List (Task Act Res Call Reply) :=
  cfg.pool.map fun task => if task.thread = thread then { task with program } else task

def remove (thread : Nat) : List (Task Act Res Call Reply) :=
  cfg.pool.filter fun task => task.thread ≠ thread

def exec (sem : Semantics Act Res Call Reply State Choice)
    (cfg : Config Act Res Call Reply State Choice) :
    Command Call Choice →
      Option (Event Act Res Call Reply Choice × Config Act Res Call Reply State Choice)
  | .start call =>
      if sem.admits cfg.shared cfg.live call then
        let event := .start cfg.next call
        some (event, ⟨cfg.shared, ⟨cfg.next, call, sem.body call⟩ :: cfg.pool, cfg.next + 1,
          cfg.world.record event⟩)
      else none
  | .step thread choice =>
      match cfg.pool.find? fun task => task.thread = thread with
      | none => none
      | some task =>
          match task.program with
          | .done reply =>
              let event := .finish thread task.call reply
              some (event, ⟨cfg.shared, cfg.remove thread, cfg.next, cfg.world.record event⟩)
          | .act action next =>
              match sem.perform thread action choice cfg.shared with
              | none => none
              | some (result, shared) =>
                  let event := .act thread task.call action choice result
                  some (event, ⟨shared, cfg.resume thread (next result), cfg.next,
                    cfg.world.record event⟩)
          | .fork call next =>
              let event := .fork thread task.call cfg.next call
              some (event, ⟨cfg.shared,
                ⟨cfg.next, call, sem.body call⟩ :: cfg.resume thread next, cfg.next + 1,
                cfg.world.record event⟩)
  | .drop thread =>
      match cfg.pool.find? fun task => task.thread = thread with
      | none => none
      | some task =>
          let event := .drop thread task.call
          some (event, ⟨sem.release thread cfg.shared, cfg.remove thread, cfg.next,
            cfg.world.record event⟩)
  | .restart =>
      some (.restart, ⟨sem.restart cfg.shared, [], cfg.next, cfg.world.record .restart⟩)

variable {cfg} {cfg' : Config Act Res Call Reply State Choice}
variable {sem : Semantics Act Res Call Reply State Choice}

theorem live_resume (thread : Nat) (program : Program Act Res Call Reply) :
    (cfg.resume thread program).map (fun task => (task.thread, task.call)) = cfg.live := by
  simp only [resume, live, List.map_map]
  refine List.map_congr_left fun task _ => ?_
  by_cases same : task.thread = thread <;> simp [same]

theorem live_remove (thread : Nat) :
    (cfg.remove thread).map (fun task => (task.thread, task.call)) = cfg.world.without thread := by
  simp [remove, World.without, live, List.filter_map, Function.comp_def]

theorem mem_resume {thread : Nat} {program : Program Act Res Call Reply}
    {task : Task Act Res Call Reply} (member : task ∈ cfg.resume thread program) :
    (task ∈ cfg.pool ∧ task.thread ≠ thread) ∨
      (∃ old ∈ cfg.pool, old.thread = thread ∧ task = { old with program }) := by
  obtain ⟨old, oldMember, rfl⟩ := List.mem_map.1 member
  by_cases same : old.thread = thread
  · exact .inr ⟨old, oldMember, same, by simp [same]⟩
  · exact .inl ⟨by simpa [same] using oldMember, by simp [same]⟩

theorem mem_live {task : Task Act Res Call Reply} (member : task ∈ cfg.pool) :
    (task.thread, task.call) ∈ cfg.live :=
  List.mem_map.2 ⟨task, member, rfl⟩

theorem find_spec {thread : Nat} {task : Task Act Res Call Reply}
    (found : cfg.pool.find? (fun task => task.thread = thread) = some task) :
    task ∈ cfg.pool ∧ task.thread = thread :=
  ⟨List.mem_of_find?_eq_some found, by simpa using List.find?_some found⟩

/-- Everything one command can do: the event it records, and what becomes of the pool. -/
inductive Executes (sem : Semantics Act Res Call Reply State Choice)
    (cfg : Config Act Res Call Reply State Choice) :
    Event Act Res Call Reply Choice → Config Act Res Call Reply State Choice → Prop
  | start {call : Call} (admitted : sem.admits cfg.shared cfg.live call = true) :
      Executes sem cfg (.start cfg.next call)
        ⟨cfg.shared, ⟨cfg.next, call, sem.body call⟩ :: cfg.pool, cfg.next + 1,
          cfg.world.record (.start cfg.next call)⟩
  | act {task : Task Act Res Call Reply} {action : Act}
      {next : Res action → Program Act Res Call Reply} {choice : Choice} {result : Res action}
      {shared : State} (member : task ∈ cfg.pool) (program : task.program = .act action next)
      (performed : sem.perform task.thread action choice cfg.shared = some (result, shared)) :
      Executes sem cfg (.act task.thread task.call action choice result)
        ⟨shared, cfg.resume task.thread (next result), cfg.next,
          cfg.world.record (.act task.thread task.call action choice result)⟩
  | fork {task : Task Act Res Call Reply} {call : Call} {next : Program Act Res Call Reply}
      (member : task ∈ cfg.pool) (program : task.program = .fork call next) :
      Executes sem cfg (.fork task.thread task.call cfg.next call)
        ⟨cfg.shared, ⟨cfg.next, call, sem.body call⟩ :: cfg.resume task.thread next, cfg.next + 1,
          cfg.world.record (.fork task.thread task.call cfg.next call)⟩
  | finish {task : Task Act Res Call Reply} {reply : Reply} (member : task ∈ cfg.pool)
      (program : task.program = .done reply) :
      Executes sem cfg (.finish task.thread task.call reply)
        ⟨cfg.shared, cfg.remove task.thread, cfg.next,
          cfg.world.record (.finish task.thread task.call reply)⟩
  | drop {task : Task Act Res Call Reply} (member : task ∈ cfg.pool) :
      Executes sem cfg (.drop task.thread task.call)
        ⟨sem.release task.thread cfg.shared, cfg.remove task.thread, cfg.next,
          cfg.world.record (.drop task.thread task.call)⟩
  | restart :
      Executes sem cfg .restart
        ⟨sem.restart cfg.shared, [], cfg.next, cfg.world.record .restart⟩

theorem exec_executes {command : Command Call Choice} {event : Event Act Res Call Reply Choice}
    (executed : cfg.exec sem command = some (event, cfg')) : cfg.Executes sem event cfg' := by
  cases command with
  | start call =>
      simp only [exec] at executed
      split at executed
      · rename_i admitted
        cases executed
        exact .start admitted
      · cases executed
  | step thread choice =>
      simp only [exec] at executed
      split at executed
      · cases executed
      · rename_i task found
        obtain ⟨member, rfl⟩ := find_spec found
        split at executed
        · rename_i reply program
          cases executed
          exact .finish member program
        · rename_i action next program
          split at executed
          · cases executed
          · rename_i result shared performed
            cases executed
            exact .act member program performed
        · rename_i call next program
          cases executed
          exact .fork member program
  | drop thread =>
      simp only [exec] at executed
      split at executed
      · cases executed
      · rename_i task found
        obtain ⟨member, rfl⟩ := find_spec found
        cases executed
        exact .drop member
  | restart =>
      cases executed
      exact .restart

theorem Executes.moves {event : Event Act Res Call Reply Choice} (executes : cfg.Executes sem event cfg') :
    cfg.world.Moves sem event cfg'.world := by
  cases executes with
  | start admitted => exact .start (w := cfg.world) admitted
  | act member program performed =>
      have step := World.Moves.act (w := cfg.world) (mem_live member) performed
      simpa only [world, live, live_resume] using step
  | @fork task call next member program =>
      have step : World.Moves sem cfg.world (.fork task.thread task.call cfg.next call) _ :=
        .fork (w := cfg.world) (mem_live member)
      simpa only [world, live, List.map_cons, live_resume] using step
  | @finish task reply member program =>
      have step : World.Moves sem cfg.world (.finish task.thread task.call reply) _ :=
        .finish (w := cfg.world) (mem_live member)
      simpa only [world, live, live_remove] using step
  | @drop task member =>
      have step : World.Moves sem cfg.world (.drop task.thread task.call) _ :=
        .drop (w := cfg.world) (mem_live member)
      simpa only [world, live, live_remove] using step
  | restart => exact .restart (w := cfg.world)

end Config

/-- Runs whose every event was allowed in the world it happened in. -/
inductive Reachable (sem : Semantics Act Res Call Reply State Choice)
    (allowed : World Act Res Call Reply State Choice → Event Act Res Call Reply Choice → Prop)
    (first : Config Act Res Call Reply State Choice) : Config Act Res Call Reply State Choice → Prop
  | refl : Reachable sem allowed first first
  | step {cfg cfg' : Config Act Res Call Reply State Choice} {command : Command Call Choice}
      {event : Event Act Res Call Reply Choice} (before : Reachable sem allowed first cfg)
      (executed : cfg.exec sem command = some (event, cfg')) (permitted : allowed cfg.world event) :
      Reachable sem allowed first cfg'

namespace Reachable

variable {sem : Semantics Act Res Call Reply State Choice}
variable {allowed stronger : World Act Res Call Reply State Choice → Event Act Res Call Reply Choice → Prop}
variable {first cfg : Config Act Res Call Reply State Choice}

theorem mono (reachable : Reachable sem stronger first cfg)
    (weaker : ∀ w event, stronger w event → allowed w event) : Reachable sem allowed first cfg := by
  induction reachable with
  | refl => exact .refl
  | step _ executed permitted ih => exact .step ih executed (weaker _ _ permitted)

/-- What every allowed step of a run satisfies may be assumed of the steps of that run. -/
theorem assume {extra : World Act Res Call Reply State Choice → Event Act Res Call Reply Choice → Prop}
    (holds : ∀ cfg cfg' event, Reachable sem allowed first cfg → cfg.Executes sem event cfg' →
      allowed cfg.world event → extra cfg.world event)
    (reachable : Reachable sem allowed first cfg) :
    Reachable sem (fun w event => allowed w event ∧ extra w event) first cfg := by
  induction reachable with
  | refl => exact .refl
  | step before executed permitted ih =>
      exact .step ih executed
        ⟨permitted, holds _ _ _ before (Config.exec_executes executed) permitted⟩

theorem trans {middle : Config Act Res Call Reply State Choice}
    (before : Reachable sem allowed first middle) (after : Reachable sem allowed middle cfg) :
    Reachable sem allowed first cfg := by
  induction after with
  | refl => exact before
  | step _ executed permitted ih => exact .step ih executed permitted

theorem invariant {holds : World Act Res Call Reply State Choice → Prop}
    (initial : holds first.world)
    (preserved : ∀ w event w', holds w → World.Moves sem w event w' → allowed w event → holds w')
    (reachable : Reachable sem allowed first cfg) : holds cfg.world := by
  induction reachable with
  | refl => exact initial
  | step _ executed permitted ih =>
      exact preserved _ _ _ ih (Config.exec_executes executed).moves permitted

theorem numbered (initial : first.world.Numbered) (reachable : Reachable sem allowed first cfg) :
    cfg.world.Numbered :=
  reachable.invariant initial fun _ _ _ before moves _ => before.moves moves

end Reachable

theorem idle_numbered (shared : State) :
    (Config.idle shared : Config Act Res Call Reply State Choice).world.Numbered := by
  refine ⟨?_, ?_, ?_⟩ <;> simp [Config.idle, Config.world, Config.live]

/-! Running a list of commands, each event checked as it happens. -/

def runChecked (sem : Semantics Act Res Call Reply State Choice)
    (check : World Act Res Call Reply State Choice → Event Act Res Call Reply Choice → Bool)
    (cfg : Config Act Res Call Reply State Choice) :
    List (Command Call Choice) → Option (Config Act Res Call Reply State Choice)
  | [] => some cfg
  | command :: rest =>
      match cfg.exec sem command with
      | none => none
      | some (event, cfg') =>
          if check cfg.world event then runChecked sem check cfg' rest else none

theorem runChecked_reachable {sem : Semantics Act Res Call Reply State Choice}
    {check : World Act Res Call Reply State Choice → Event Act Res Call Reply Choice → Bool}
    {allowed : World Act Res Call Reply State Choice → Event Act Res Call Reply Choice → Prop}
    (sound : ∀ w event, check w event = true → allowed w event)
    {cfg last : Config Act Res Call Reply State Choice} {commands : List (Command Call Choice)}
    (ran : runChecked sem check cfg commands = some last) : Reachable sem allowed cfg last := by
  induction commands generalizing cfg with
  | nil =>
      simp only [runChecked, Option.some.injEq] at ran
      exact ran ▸ .refl
  | cons command rest ih =>
      simp only [runChecked] at ran
      split at ran
      · cases ran
      · rename_i event cfg' executed
        split at ran
        · rename_i checked
          exact (Reachable.step .refl executed (sound _ _ checked)).trans (ih ran)
        · cases ran

/-- The next `count` steps of one thread. -/
def steps (thread count : Nat) (choice : Choice) : List (Command Call Choice) :=
  List.replicate count (.step thread choice)

/-- A list of commands that can be carried out, with what holds at its end. -/
theorem runChecked_any {sem : Semantics Act Res Call Reply State Choice}
    {check : World Act Res Call Reply State Choice → Event Act Res Call Reply Choice → Bool}
    {allowed : World Act Res Call Reply State Choice → Event Act Res Call Reply Choice → Prop}
    (sound : ∀ w event, check w event = true → allowed w event)
    {cfg : Config Act Res Call Reply State Choice} {commands : List (Command Call Choice)}
    {holds : Config Act Res Call Reply State Choice → Bool}
    (ran : (runChecked sem check cfg commands).any holds = true) :
    ∃ last, Reachable sem allowed cfg last ∧ holds last = true := by
  obtain ⟨last, eq, holds⟩ := (Option.any_eq_true _ _).1 ran
  exact ⟨last, runChecked_reachable sound eq, holds⟩

end Interleave
