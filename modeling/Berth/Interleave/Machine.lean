import Mathlib.Logic.Relation

/-!
State machines driven by events. A machine answers an event with its next state, or with nothing
where the event cannot happen there; a run is a list of events that all can happen, one after the
other, from an initial state.
-/

namespace Interleave

structure Machine (State Event : Type) where
  initial : State → Prop
  step : State → Event → Option State

namespace Machine

variable {State Event : Type} (machine : Machine State Event)
variable {fine fine' : State → Event → Prop} {history : List (State × Event)}
variable {state state' state'' : State} {event : Event}

/-- The runs whose every event meets `fine` in the state it happens in. The newest event of the
history comes first, with the state before it. -/
inductive Run (fine : State → Event → Prop) : List (State × Event) → State → Prop
  | initial {state : State} (isInitial : machine.initial state) : Run fine [] state
  | step {history : List (State × Event)} {state next : State} {event : Event}
      (before : Run fine history state) (stepped : machine.step state event = some next)
      (isFine : fine state event) : Run fine ((state, event) :: history) next

def ReachableBy (fine : State → Event → Prop) (state : State) : Prop :=
  ∃ history, machine.Run fine history state

abbrev Reachable : State → Prop := machine.ReachableBy fun _ _ => True

variable {machine}

theorem ReachableBy.initial (isInitial : machine.initial state) : machine.ReachableBy fine state :=
  ⟨[], .initial isInitial⟩

theorem ReachableBy.step (before : machine.ReachableBy fine state)
    (stepped : machine.step state event = some state') (isFine : fine state event) :
    machine.ReachableBy fine state' := by
  obtain ⟨history, run⟩ := before
  exact ⟨_, .step run stepped isFine⟩

theorem Reachable.step (before : machine.Reachable state)
    (stepped : machine.step state event = some state') : machine.Reachable state' :=
  ReachableBy.step before stepped trivial

theorem Run.mono (run : machine.Run fine history state)
    (weaker : ∀ state event, fine state event → fine' state event) :
    machine.Run fine' history state := by
  induction run with
  | initial isInitial => exact .initial isInitial
  | step _ stepped isFine ih => exact .step ih stepped (weaker _ _ isFine)

theorem ReachableBy.reachable (reachable : machine.ReachableBy fine state) :
    machine.Reachable state := by
  obtain ⟨history, run⟩ := reachable
  exact ⟨history, run.mono fun _ _ _ => trivial⟩

/-- What holds at the start and is kept by every event holds, with the history, all along. -/
theorem Run.invariant (run : machine.Run fine history state)
    (holds : List (State × Event) → State → Prop)
    (starts : ∀ state, machine.initial state → holds [] state)
    (keeps : ∀ history state event next, holds history state →
      machine.step state event = some next → fine state event →
        holds ((state, event) :: history) next) : holds history state := by
  induction run with
  | initial isInitial => exact starts _ isInitial
  | step _ stepped isFine ih => exact keeps _ _ _ _ ih stepped isFine

theorem ReachableBy.invariant (reachable : machine.ReachableBy fine state) (holds : State → Prop)
    (starts : ∀ state, machine.initial state → holds state)
    (keeps : ∀ state event next, holds state → machine.step state event = some next →
      fine state event → holds next) : holds state := by
  obtain ⟨history, run⟩ := reachable
  exact run.invariant (fun _ state => holds state) starts
    fun _ state event next => keeps state event next

variable (machine)

/-- The second state is reached from the first by events among `among` alone. -/
def Leads (among : Event → Prop) : State → State → Prop :=
  Relation.ReflTransGen fun state next => ∃ event, among event ∧ machine.step state event = some next

variable {machine} {among among' : Event → Prop}

theorem Leads.single (isAmong : among event) (stepped : machine.step state event = some state') :
    machine.Leads among state state' :=
  Relation.ReflTransGen.single (Exists.intro event ⟨isAmong, stepped⟩)

theorem Leads.head (isAmong : among event) (stepped : machine.step state event = some state')
    (rest : machine.Leads among state' state'') : machine.Leads among state state'' :=
  Relation.ReflTransGen.head (Exists.intro event ⟨isAmong, stepped⟩) rest

theorem Leads.reachable (leads : machine.Leads among state state')
    (reachable : machine.Reachable state) : machine.Reachable state' := by
  induction leads with
  | refl => exact reachable
  | tail _ last ih =>
      obtain ⟨event, _, stepped⟩ := last
      exact Reachable.step ih stepped

/-- What no event among these changes stays as it is. -/
theorem Leads.keeps (leads : machine.Leads among state state') (holds : State → Prop)
    (keeps : ∀ state event next, holds state → among event →
      machine.step state event = some next → holds next) (before : holds state) : holds state' := by
  induction leads with
  | refl => exact before
  | tail _ last ih =>
      obtain ⟨event, isAmong, stepped⟩ := last
      exact keeps _ _ _ ih isAmong stepped

theorem Leads.stuck (leads : machine.Leads among state state')
    (blocked : ∀ event, among event → machine.step state event = none) : state' = state := by
  induction leads with
  | refl => rfl
  | tail _ last ih =>
      obtain ⟨event, isAmong, stepped⟩ := last
      rw [ih, blocked event isAmong] at stepped
      cases stepped

variable (machine)

/-- The machine after these events, if they can all happen, as far as `check` lets them. -/
def play (check : State → Event → Bool) : State → List Event → Option State
  | state, [] => some state
  | state, event :: rest =>
      if check state event then (machine.step state event).bind fun next => play check next rest
      else none

variable {machine} {check : State → Event → Bool}

/-- A run goes on with the events played from where it is. -/
theorem play_run (sound : ∀ state event, check state event = true → fine state event)
    (before : machine.Run fine history state) (events : List Event)
    (played : machine.play check state events = some state') :
    ∃ longer, machine.Run fine longer state' ∧
      longer.map Prod.snd = events.reverse ++ history.map Prod.snd := by
  induction events generalizing state history with
  | nil =>
      cases played
      exact ⟨history, before, by simp⟩
  | cons event rest ih =>
      simp only [play] at played
      split at played
      · rename_i checked
        obtain ⟨next, stepped, rest⟩ := Option.bind_eq_some_iff.1 played
        obtain ⟨longer, run, events⟩ := ih (before.step stepped (sound _ _ checked)) rest
        exact ⟨longer, run, by simp [events]⟩
      · cases played

theorem play_reachable (sound : ∀ state event, check state event = true → fine state event)
    (before : machine.ReachableBy fine state) (events : List Event)
    (played : machine.play check state events = some state') :
    machine.ReachableBy fine state' := by
  obtain ⟨history, run⟩ := before
  obtain ⟨longer, run, _⟩ := play_run sound run events played
  exact ⟨longer, run⟩

variable (machine)

/-- Like `play`, with the history it makes. -/
def trace (check : State → Event → Bool) :
    List (State × Event) × State → List Event → Option (List (State × Event) × State)
  | reached, [] => some reached
  | (history, state), event :: rest =>
      if check state event then
        (machine.step state event).bind fun next => trace check ((state, event) :: history, next) rest
      else none

variable {machine}

theorem trace_run (sound : ∀ state event, check state event = true → fine state event)
    (before : machine.Run fine history state) (events : List Event)
    {reached : List (State × Event) × State}
    (traced : machine.trace check (history, state) events = some reached) :
    machine.Run fine reached.1 reached.2 := by
  induction events generalizing state history with
  | nil =>
      cases traced
      exact before
  | cons event rest ih =>
      simp only [trace] at traced
      split at traced
      · rename_i checked
        obtain ⟨next, stepped, rest⟩ := Option.bind_eq_some_iff.1 traced
        exact ih (before.step stepped (sound _ _ checked)) rest
      · cases traced

/-- A run given by its events has a history of the given kind. -/
theorem exists_run_of_trace (machine : Machine State Event) (fine : State → Event → Prop)
    (check : State → Event → Bool) (holds : List (State × Event) × State → Bool)
    (sound : ∀ state event, check state event = true → fine state event)
    (isInitial : machine.initial state) (events : List Event)
    (traced : (machine.trace check ([], state) events).any holds = true) :
    ∃ history last, machine.Run fine history last ∧ holds (history, last) = true := by
  cases reached : machine.trace check ([], state) events with
  | none => simp [reached] at traced
  | some last =>
      exact ⟨last.1, last.2, trace_run sound (.initial isInitial) events reached,
        by simpa [reached] using traced⟩

/-- A run given by its events reaches a state of the given kind, with these events behind it. -/
theorem exists_run_of_play (machine : Machine State Event) (fine : State → Event → Prop)
    (check : State → Event → Bool) (holds : State → Bool)
    (sound : ∀ state event, check state event = true → fine state event)
    (isInitial : machine.initial state) (events : List Event)
    (played : (machine.play check state events).any holds = true) :
    ∃ history last, machine.Run fine history last ∧ history.map Prod.snd = events.reverse ∧
      holds last = true := by
  cases reached : machine.play check state events with
  | none => simp [reached] at played
  | some last =>
      obtain ⟨history, run, same⟩ := play_run sound (.initial isInitial) events reached
      exact ⟨history, last, run, by simpa using same, by simpa [reached] using played⟩

/-- A run given by its events reaches a state of the given kind. -/
theorem exists_of_play (machine : Machine State Event) (fine : State → Event → Prop)
    (check : State → Event → Bool) (holds : State → Bool)
    (sound : ∀ state event, check state event = true → fine state event)
    (isInitial : machine.initial state) (events : List Event)
    (played : (machine.play check state events).any holds = true) :
    ∃ last, machine.ReachableBy fine last ∧ holds last = true := by
  cases reached : machine.play check state events with
  | none => simp [reached] at played
  | some last =>
      exact ⟨last, play_reachable sound (.initial isInitial) events reached,
        by simpa [reached] using played⟩

end Machine

end Interleave
