import Mathlib.Logic.Function.Basic
import Berth.Agent
import Berth.Uuid
import Berth.Interleave.Machine

/-!
What starting a container leaves behind on a host. An install container outlives its command by a
grace period, and whatever removes it knows its name only.
-/

namespace Berth.Leftovers

open Interleave

/-- The name of a deployment's own container. -/
structure DeploymentName where
  text : String
  own : ∀ parent, text ≠ installContainerName parent
  deriving DecidableEq

def DeploymentName.install (name : DeploymentName) : String := installContainerName name.text

/-- `id` tells apart the containers that have borne one name. -/
structure Container where
  id : Nat
  name : String
  running : Bool
  deriving DecidableEq

/-- `schedule_cleanup`. Its task has the name; `target` is the container it is meant for. -/
structure Timer where
  name : String
  due : Nat
  target : Nat
  deriving DecidableEq

/-- The next call that `start` makes. -/
inductive Phase where
  | isRunning
  | containerExists
  | startExisting
  | ensureImage
  | createInstall
  | startInstall (id : Nat)
  | waitInstall (id : Nat)
  | create
  | start
  deriving DecidableEq

structure Start where
  name : DeploymentName
  hasInstall : Bool
  phase : Phase
  deriving DecidableEq

structure State where
  clock : Nat
  containers : List Container
  nextId : Nat
  timers : List Timer
  starts : Nat → Option Start

def State.empty : State := ⟨0, [], 0, [], fun _ => none⟩

def installContainerCleanupGrace : Nat := 30

namespace State

variable (state : State)

def containerExists (name : String) : Bool :=
  state.containers.any fun container => container.name = name

def isRunning (name : String) : Bool :=
  state.containers.any fun container => container.name = name ∧ container.running

def setRunning (name : String) (running : Bool) : State :=
  { state with
    containers := state.containers.map fun container =>
      if container.name = name then { container with running } else container }

def createContainer (name : String) : State :=
  { state with
    containers := ⟨state.nextId, name, false⟩ :: state.containers, nextId := state.nextId + 1 }

def removeContainer (name : String) : State :=
  { state with containers := state.containers.filter fun container => container.name ≠ name }

def scheduleCleanup (name : String) (target : Nat) : State :=
  { state with
    timers := ⟨name, state.clock + installContainerCleanupGrace, target⟩ :: state.timers }

def setStart (index : Nat) (start : Option Start) : State :=
  { state with starts := Function.update state.starts index start }

/-- One call of `start`, which succeeds or fails for reasons of its own. A name that is taken fails
it too. -/
def advance (index : Nat) (start : Start) (ok : Bool) : State :=
  let name := start.name.text
  let goOn := fun (state : State) phase => state.setStart index (some { start with phase })
  let stop := fun (state : State) => state.setStart index none
  match start.phase with
  | .isRunning => if !ok || state.isRunning name then stop state else goOn state .containerExists
  | .containerExists =>
      if !ok then stop state
      else goOn state (if state.containerExists name then .startExisting else .ensureImage)
  | .startExisting | .start => stop (if ok then state.setRunning name true else state)
  | .ensureImage =>
      if !ok then stop state else goOn state (if start.hasInstall then .createInstall else .create)
  | .createInstall =>
      if !ok || state.containerExists start.name.install then stop state
      else goOn (state.createContainer start.name.install) (.startInstall state.nextId)
  -- Nothing is scheduled for a container that does not start.
  | .startInstall id =>
      if !ok || !state.containerExists start.name.install then stop state
      else goOn (state.setRunning start.name.install true) (.waitInstall id)
  | .waitInstall id =>
      let state := state.scheduleCleanup start.name.install id
      if ok then goOn state .create else stop state
  | .create =>
      if !ok || state.containerExists name then stop state
      else goOn (state.createContainer name) .start

end State

/-- `stop` and `remove` are the calls of `stop_and_remove`; a container also stops with its command
or at its timeout. -/
inductive Event where
  | tick (seconds : Nat)
  | begin (index : Nat) (name : DeploymentName) (hasInstall : Bool)
  | go (index : Nat) (ok : Bool)
  | stop (name : String)
  | remove (name : String)
  | fire (index : Nat)
  | restart
  deriving DecidableEq

def step (state : State) : Event → Option State
  | .tick seconds => some { state with clock := state.clock + seconds }
  | .begin index name hasInstall =>
      if state.starts index = none then
        some (state.setStart index (some ⟨name, hasInstall, .isRunning⟩))
      else none
  | .go index ok => (state.starts index).map fun start => state.advance index start ok
  | .stop name => some (state.setRunning name false)
  | .remove name => some (state.removeContainer name)
  | .fire index =>
      match state.timers[index]? with
      | some timer =>
          if timer.due ≤ state.clock then
            some { state.removeContainer timer.name with timers := state.timers.eraseIdx index }
          else none
      | none => none
  | .restart => some { state with timers := [], starts := fun _ => none }

def agent : Machine State Event where
  initial := fun state => state = .empty
  step := step

/-! What must not happen. -/

/-- A start fails because the name it needs is taken. -/
def tripsOver (state : State) : Event → Bool
  | .go index true =>
      (state.starts index).any fun start =>
        (start.phase = .createInstall && state.containerExists start.name.install) ||
          (start.phase = .create && state.containerExists start.name.text)
  | _ => false

/-- A timer removes a container it was not scheduled for. -/
def removesOther (state : State) : Event → Bool
  | .fire index =>
      (state.timers[index]?).any fun timer =>
        state.containers.any fun container => container.name = timer.name && container.id ≠ timer.target
  | _ => false

def Unhindered (history : List (State × Event)) : Prop :=
  ∀ moment ∈ history, tripsOver moment.1 moment.2 = false ∧ removesOther moment.1 moment.2 = false

/-! The condition. -/

/-- The start has found no container of its deployment and has not created it yet. -/
def Phase.creates : Phase → Bool
  | .ensureImage | .createInstall | .startInstall _ | .waitInstall _ | .create => true
  | .isRunning | .containerExists | .startExisting | .start => false

/-- A start that is to create its container is the only one of its deployment; and where it has an
install command, no install container of the deployment is left and no cleanup is due for one. -/
def Clear (state : State) (event : Event) : Prop :=
  ∀ index start, event = .go index true → state.starts index = some start →
    start.phase = .containerExists → state.containerExists start.name.text = false →
      (∀ other later, other ≠ index → state.starts other = some later →
        later.phase.creates = true → later.name ≠ start.name) ∧
      (start.hasInstall = true → state.containerExists start.name.install = false ∧
        ∀ timer ∈ state.timers, timer.name ≠ start.name.install)

/-! What a run without hindrance keeps. -/

section Tidy

variable {state next : State} {index : Nat} {start : Start} {name : String}

theorem install_injective {name other : DeploymentName} (same : name.install = other.install) :
    name = other := by
  obtain ⟨text, own⟩ := name
  obtain ⟨text', own'⟩ := other
  have texts : text = text' := by
    have lists := congrArg String.toList same
    simpa [DeploymentName.install, installContainerName, String.toList_inj] using lists
  subst texts
  rfl

def Bears (state : State) (name : String) (id : Nat) : Prop :=
  ∃ container ∈ state.containers, container.name = name ∧ container.id = id

theorem containerExists_iff : state.containerExists name = true ↔ ∃ id, Bears state name id := by
  simp only [State.containerExists, List.any_eq_true, decide_eq_true_eq, Bears]
  exact ⟨fun ⟨container, member, same⟩ => ⟨container.id, container, member, same, rfl⟩,
    fun ⟨_, container, member, same, _⟩ => ⟨container, member, same⟩⟩

theorem not_bears (free : state.containerExists name = false) (id : Nat) : ¬ Bears state name id :=
  fun there => Bool.false_ne_true (free.symm.trans (containerExists_iff.2 ⟨id, there⟩))

theorem bears_setRunning {other : String} {running : Bool} {id : Nat}
    (there : Bears (state.setRunning other running) name id) : Bears state name id := by
  obtain ⟨container, member, rfl, rfl⟩ := there
  obtain ⟨before, isBefore, rfl⟩ := List.mem_map.1 member
  refine ⟨before, isBefore, ?_⟩
  split <;> exact ⟨rfl, rfl⟩

theorem bears_createContainer {other : String} {id : Nat}
    (there : Bears (state.createContainer other) name id) :
    name = other ∧ id = state.nextId ∨ Bears state name id := by
  obtain ⟨container, member, rfl, rfl⟩ := there
  rcases List.mem_cons.1 member with rfl | old
  · exact .inl ⟨rfl, rfl⟩
  · exact .inr ⟨container, old, rfl, rfl⟩

theorem bears_removeContainer {other : String} {id : Nat}
    (there : Bears (state.removeContainer other) name id) : Bears state name id := by
  obtain ⟨container, member, same⟩ := there
  exact ⟨container, (List.mem_filter.1 member).1, same⟩

/-- No install container is left under the name, and none is going to be removed by it. -/
def Vacant (state : State) (name : String) : Prop :=
  (∀ id, ¬ Bears state name id) ∧ ∀ timer ∈ state.timers, timer.name ≠ name

/-- Under the name there is at most the install container with this id. -/
def Occupied (state : State) (name : String) (id : Nat) : Prop :=
  (∀ other, Bears state name other → other = id) ∧ ∀ timer ∈ state.timers, timer.name ≠ name

def Start.Ready (state : State) (start : Start) : Prop :=
  (∀ id, ¬ Bears state start.name.text id) ∧
    match start.phase with
    | .ensureImage => start.hasInstall = true → Vacant state start.name.install
    | .createInstall => Vacant state start.name.install
    | .startInstall id | .waitInstall id => Occupied state start.name.install id
    | _ => True

structure Tidy (state : State) : Prop where
  scheduled : ∀ timer ∈ state.timers, ∃ name : DeploymentName, timer.name = name.install
  timers : ∀ timer ∈ state.timers, ∀ id, Bears state timer.name id → id = timer.target
  single : ∀ index other start later, state.starts index = some start →
    state.starts other = some later → start.phase.creates = true → later.phase.creates = true →
      start.name = later.name → index = other
  ready : ∀ index start, state.starts index = some start → start.phase.creates = true →
    start.Ready state

/-- Fewer containers and fewer timers leave a start as ready as it was. -/
theorem Start.Ready.mono (ready : start.Ready state)
    (bears : ∀ name id, Bears next name id → Bears state name id)
    (timers : ∀ timer ∈ next.timers, timer ∈ state.timers) : start.Ready next := by
  have vacant {name : String} (vacant : Vacant state name) : Vacant next name :=
    ⟨fun id there => vacant.1 id (bears _ id there), fun timer member => vacant.2 timer (timers _ member)⟩
  have occupied {name : String} {id : Nat} (occupied : Occupied state name id) :
      Occupied next name id :=
    ⟨fun other there => occupied.1 other (bears _ other there),
      fun timer member => occupied.2 timer (timers _ member)⟩
  obtain ⟨name, hasInstall, phase⟩ := start
  refine ⟨fun id there => ready.1 id (bears _ id there), ?_⟩
  have stands := ready.2
  cases phase with
  | ensureImage => exact fun has => vacant (stands has)
  | createInstall => exact vacant stands
  | startInstall id => exact occupied stands
  | waitInstall id => exact occupied stands
  | isRunning | containerExists | startExisting | create | start => trivial

/-- A step of one start that adds neither a container nor a timer. -/
theorem Tidy.move (tidy : Tidy state) (index : Nat) (moved : Option Start)
    (bears : ∀ name id, Bears next name id → Bears state name id)
    (timers : ∀ timer ∈ next.timers, timer ∈ state.timers)
    (starts : ∀ other, next.starts other = if other = index then moved else state.starts other)
    (ready : ∀ start, moved = some start → start.phase.creates = true → start.Ready next ∧
      ∀ other later, other ≠ index → state.starts other = some later →
        later.phase.creates = true → later.name ≠ start.name) : Tidy next := by
  refine ⟨fun timer member => tidy.scheduled timer (timers _ member),
    fun timer member id there => tidy.timers timer (timers _ member) id (bears _ id there), ?_, ?_⟩
  · intro i j start later isStart isLater creates creates' same
    rw [starts] at isStart isLater
    split at isStart <;> split at isLater
    · rename_i isIndex isIndex'
      exact isIndex.trans isIndex'.symm
    · rename_i isIndex different
      exact absurd same.symm ((ready start isStart creates).2 j later different isLater creates')
    · rename_i different isIndex
      exact absurd same ((ready later isLater creates').2 i start different isStart creates)
    · exact tidy.single i j start later isStart isLater creates creates' same
  · intro other start isStart creates
    rw [starts] at isStart
    split at isStart
    · exact (ready start isStart creates).1
    · exact (tidy.ready other start isStart creates).mono bears timers

/-- The start at `index` goes on with `moved`, or ends, and the others are not concerned. -/
structure Renews (state : State) (index : Nat) (start : Start) (moved : Option Start)
    (next : State) : Prop where
  was : state.starts index = some start
  creates : start.phase.creates = true
  same : ∀ after, moved = some after → after.name = start.name
  starts : next.starts = Function.update state.starts index moved
  ready : ∀ after, moved = some after → after.phase.creates = true → after.Ready next
  others : ∀ other : Start, other.name ≠ start.name → other.Ready state → other.Ready next

theorem Tidy.renew (tidy : Tidy state) (moved : Option Start)
    (renews : Renews state index start moved next)
    (scheduled : ∀ timer ∈ next.timers, ∃ name : DeploymentName, timer.name = name.install)
    (timers : ∀ timer ∈ next.timers, ∀ id, Bears next timer.name id → id = timer.target) :
    Tidy next := by
  have apart {other : Nat} {later : Start} (different : other ≠ index)
      (isLater : state.starts other = some later) (creates : later.phase.creates = true) :
      later.name ≠ start.name := fun same =>
    different (tidy.single other index later start isLater renews.was creates renews.creates same)
  refine ⟨scheduled, timers, ?_, ?_⟩
  · intro i j one later isOne isLater creates creates' same
    rw [renews.starts, Function.update_apply] at isOne isLater
    split at isOne <;> split at isLater
    · rename_i isIndex isIndex'
      exact isIndex.trans isIndex'.symm
    · rename_i _ different
      exact absurd (same.symm.trans (renews.same one isOne)) (apart different isLater creates')
    · rename_i different _
      exact absurd (same.trans (renews.same later isLater)) (apart different isOne creates)
    · exact tidy.single i j one later isOne isLater creates creates' same
  · intro other later isLater creates
    rw [renews.starts, Function.update_apply] at isLater
    split at isLater
    · exact renews.ready later isLater creates
    · rename_i different
      exact renews.others later (apart different isLater creates)
        (tidy.ready other later isLater creates)

/-- A new container is no concern of a start that needs other names. -/
theorem Start.Ready.created {other : Start} {taken : String} (ready : other.Ready state)
    (ownName : other.name.text ≠ taken) (installName : other.name.install ≠ taken) :
    other.Ready (state.createContainer taken) := by
  have vacant (vacant : Vacant state other.name.install) :
      Vacant (state.createContainer taken) other.name.install := by
    refine ⟨fun id there => ?_, vacant.2⟩
    rcases bears_createContainer there with ⟨same, _⟩ | old
    · exact installName same
    · exact vacant.1 id old
  have occupied {id : Nat} (occupied : Occupied state other.name.install id) :
      Occupied (state.createContainer taken) other.name.install id := by
    refine ⟨fun id there => ?_, occupied.2⟩
    rcases bears_createContainer there with ⟨same, _⟩ | old
    · exact absurd same installName
    · exact occupied.1 id old
  have free (id : Nat) : ¬ Bears (state.createContainer taken) other.name.text id := by
    intro there
    rcases bears_createContainer there with ⟨same, _⟩ | old
    · exact ownName same
    · exact ready.1 id old
  obtain ⟨name, hasInstall, phase⟩ := other
  have stands := ready.2
  cases phase with
  | ensureImage => exact ⟨free, fun has => vacant (stands has)⟩
  | createInstall => exact ⟨free, vacant stands⟩
  | startInstall id | waitInstall id => exact ⟨free, occupied stands⟩
  | isRunning | containerExists | startExisting | create | start => exact ⟨free, trivial⟩

theorem Start.Ready.scheduled {other : Start} {name : DeploymentName} {target : Nat}
    (ready : other.Ready state) (different : other.name ≠ name) :
    other.Ready (state.scheduleCleanup name.install target) := by
  have apart (timer : Timer)
      (member : timer ∈ (state.scheduleCleanup name.install target).timers)
      (before : ∀ timer ∈ state.timers, timer.name ≠ other.name.install) :
      timer.name ≠ other.name.install := by
    rcases List.mem_cons.1 member with rfl | old
    · exact fun same => different (install_injective same).symm
    · exact before timer old
  obtain ⟨free, stands⟩ := ready
  refine ⟨free, ?_⟩
  obtain ⟨own, hasInstall, phase⟩ := other
  cases phase with
  | ensureImage =>
      exact fun has => ⟨(stands has).1, fun timer member => apart timer member (stands has).2⟩
  | createInstall => exact ⟨stands.1, fun timer member => apart timer member stands.2⟩
  | startInstall id | waitInstall id =>
      exact ⟨stands.1, fun timer member => apart timer member stands.2⟩
  | isRunning | containerExists | startExisting | create | start => trivial

theorem Tidy.advance {ok : Bool} (tidy : Tidy state) (isStart : state.starts index = some start)
    (clear : Clear state (.go index ok)) : Tidy (state.advance index start ok) := by
  obtain ⟨name, hasInstall, phase⟩ := start
  have drop {next : State} (bears : ∀ name id, Bears next name id → Bears state name id)
      (timers : next.timers = state.timers) (starts : next.starts = state.starts) :
      Tidy (next.setStart index none) := by
    refine tidy.move index none bears (fun timer member => timers ▸ member) ?_ nofun
    intro other
    simp [State.setStart, Function.update_apply, starts]
  have goOn (moved : Start)
    (ready : moved.phase.creates = true → moved.Ready (state.setStart index (some moved)) ∧
      ∀ other later, other ≠ index → state.starts other = some later →
        later.phase.creates = true → later.name ≠ moved.name) :
      Tidy (state.setStart index (some moved)) := by
    refine tidy.move index (some moved) (fun _ _ there => there)
      (fun _ member => member) ?_ ?_
    · intro other
      simp [State.setStart, Function.update_apply]
    · rintro start eq creates
      cases eq
      exact ready creates
  have apart (creates : phase.creates = true) (other : Nat) (later : Start) (different : other ≠ index)
      (isLater : state.starts other = some later) (creates' : later.phase.creates = true) :
      later.name ≠ name := fun same =>
    different (tidy.single other index later _ isLater isStart creates' creates same)
  have before := tidy.ready index _ isStart
  cases phase with
  | isRunning =>
      simp only [State.advance]
      split
      · exact drop (fun _ _ there => there) rfl rfl
      · exact goOn ⟨name, hasInstall, .containerExists⟩ nofun
  | containerExists =>
      simp only [State.advance]
      cases ok with
      | false => exact drop (fun _ _ there => there) rfl rfl
      | true =>
          cases taken : state.containerExists name.text with
          | true => exact goOn ⟨name, hasInstall, .startExisting⟩ nofun
          | false =>
              obtain ⟨alone, clean⟩ := clear index _ rfl isStart rfl taken
              refine goOn ⟨name, hasInstall, .ensureImage⟩ fun _ => ⟨⟨not_bears taken, ?_⟩, alone⟩
              exact fun has => ⟨not_bears (clean has).1, (clean has).2⟩
  | startExisting | start =>
      simp only [State.advance]
      cases ok with
      | true => exact drop (fun _ _ there => bears_setRunning there) rfl rfl
      | false => exact drop (fun _ _ there => there) rfl rfl
  | ensureImage =>
      obtain ⟨free, vacant⟩ := before rfl
      simp only [State.advance]
      cases ok with
      | false => exact drop (fun _ _ there => there) rfl rfl
      | true =>
          cases hasInstall with
          | true => exact goOn ⟨name, true, .createInstall⟩ fun _ => ⟨⟨free, vacant rfl⟩, apart rfl⟩
          | false => exact goOn ⟨name, false, .create⟩ fun _ => ⟨⟨free, trivial⟩, apart rfl⟩
  | createInstall =>
      obtain ⟨free, vacant⟩ := before rfl
      simp only [State.advance]
      split
      · exact drop (fun _ _ there => there) rfl rfl
      · refine tidy.renew (some ⟨name, hasInstall, .startInstall state.nextId⟩)
          ⟨isStart, rfl, ?_, rfl, ?_, ?_⟩ tidy.scheduled ?_
        · rintro after eq
          cases eq
          rfl
        · rintro after eq _
          cases eq
          refine ⟨fun id there => ?_, fun other there => ?_, vacant.2⟩
          · rcases bears_createContainer there with ⟨same, _⟩ | old
            · exact name.own _ same
            · exact free id old
          · rcases bears_createContainer there with ⟨_, isNew⟩ | old
            · exact isNew
            · exact absurd old (vacant.1 other)
        · intro other different ready
          exact ready.created (other.name.own _) fun same => different (install_injective same)
        · intro timer member id there
          rcases bears_createContainer there with ⟨same, _⟩ | old
          · exact absurd same (vacant.2 timer member)
          · exact tidy.timers timer member id old
  | startInstall id =>
      obtain ⟨free, occupied⟩ := before rfl
      simp only [State.advance]
      split
      · exact drop (fun _ _ there => there) rfl rfl
      · refine tidy.move index (some ⟨name, hasInstall, .waitInstall id⟩)
          (fun _ _ there => bears_setRunning there) (fun _ member => member) ?_ ?_
        · intro other
          simp [State.setStart, State.setRunning, Function.update_apply]
        · rintro after eq creates
          cases eq
          refine ⟨⟨fun id there => free id (bears_setRunning there), ?_⟩, apart rfl⟩
          exact ⟨fun other there => occupied.1 other (bears_setRunning there), occupied.2⟩
  | waitInstall id =>
      obtain ⟨free, occupied⟩ := before rfl
      have scheduled : ∀ timer ∈ (state.scheduleCleanup name.install id).timers,
          ∃ name : DeploymentName, timer.name = name.install := by
        intro timer member
        rcases List.mem_cons.1 member with rfl | old
        · exact ⟨name, rfl⟩
        · exact tidy.scheduled timer old
      have timers : ∀ timer ∈ (state.scheduleCleanup name.install id).timers,
          ∀ other, Bears state timer.name other → other = timer.target := by
        intro timer member other there
        rcases List.mem_cons.1 member with rfl | old
        · exact occupied.1 other there
        · exact tidy.timers timer old other there
      simp only [State.advance]
      cases ok with
      | true =>
          refine tidy.renew (some ⟨name, hasInstall, .create⟩)
            ⟨isStart, rfl, ?_, rfl, ?_, fun other different ready => ready.scheduled different⟩
            scheduled timers
          · rintro after eq
            cases eq
            rfl
          · rintro after eq _
            cases eq
            exact ⟨free, trivial⟩
      | false =>
          exact tidy.renew none
            ⟨isStart, rfl, nofun, rfl, nofun, fun other different ready => ready.scheduled different⟩
            scheduled timers
  | create =>
      obtain ⟨free, -⟩ := before rfl
      simp only [State.advance]
      split
      · exact drop (fun _ _ there => there) rfl rfl
      · refine tidy.renew (some ⟨name, hasInstall, .start⟩)
          ⟨isStart, rfl, ?_, rfl, ?_, ?_⟩ tidy.scheduled ?_
        · rintro after eq
          cases eq
          rfl
        · rintro after eq creates
          cases eq
          cases creates
        · intro other different ready
          refine ready.created (fun same => different ?_) fun same => name.own _ same.symm
          obtain ⟨otherName, _, _⟩ := other
          obtain ⟨text, own⟩ := otherName
          obtain ⟨text', own'⟩ := name
          cases same
          rfl
        · intro timer member id there
          rcases bears_createContainer there with ⟨same, _⟩ | old
          · obtain ⟨parent, isInstall⟩ := tidy.scheduled timer member
            exact absurd (isInstall.symm.trans same).symm (name.own _)
          · exact tidy.timers timer member id old

theorem Tidy.step {event : Event} (tidy : Tidy state) (stepped : step state event = some next)
    (clear : Clear state event) : Tidy next := by
  have fewer {next : State} (bears : ∀ name id, Bears next name id → Bears state name id)
      (timers : ∀ timer ∈ next.timers, timer ∈ state.timers) (starts : next.starts = state.starts) :
      Tidy next := by
    refine tidy.move 0 (state.starts 0) bears timers ?_ ?_
    · intro other
      rw [starts]
      split
      · rename_i isIndex
        rw [isIndex]
      · rfl
    · intro start isStart creates
      refine ⟨(tidy.ready 0 start isStart creates).mono bears timers, ?_⟩
      exact fun other later different isLater creates' same =>
        different (tidy.single other 0 later start isLater isStart creates' creates same)
  cases event with
  | tick seconds =>
      cases stepped
      exact fewer (fun _ _ there => there) (fun _ member => member) rfl
  | begin index name hasInstall =>
      simp only [Leftovers.step] at stepped
      split at stepped <;> cases stepped
      refine tidy.move index (some ⟨name, hasInstall, .isRunning⟩)
        (fun _ _ there => there) (fun _ member => member) ?_ ?_
      · intro other
        simp [State.setStart, Function.update_apply]
      · rintro start eq creates
        cases eq
        cases creates
  | go index ok =>
      obtain ⟨start, isStart, rfl⟩ := Option.map_eq_some_iff.1 stepped
      exact tidy.advance isStart clear
  | stop name =>
      cases stepped
      exact fewer (fun _ _ there => bears_setRunning there) (fun _ member => member) rfl
  | remove name =>
      cases stepped
      exact fewer (fun _ _ there => bears_removeContainer there) (fun _ member => member) rfl
  | fire index =>
      simp only [Leftovers.step] at stepped
      split at stepped
      · split at stepped <;> cases stepped
        exact fewer (fun _ _ there => bears_removeContainer there)
          (fun timer member => List.mem_of_mem_eraseIdx member) rfl
      · cases stepped
  | restart =>
      cases stepped
      exact ⟨nofun, nofun, nofun, nofun⟩

/-- No step from here is hindered. -/
theorem Tidy.unhindered (tidy : Tidy state) (event : Event) :
    tripsOver state event = false ∧ removesOther state event = false := by
  refine ⟨Bool.eq_false_iff.2 fun trips => ?_, Bool.eq_false_iff.2 fun removes => ?_⟩
  · simp only [tripsOver] at trips
    split at trips
    · obtain ⟨start, isStart, trips⟩ := (Option.any_eq_true _ _).1 trips
      obtain ⟨name, hasInstall, phase⟩ := start
      simp only [Bool.or_eq_true, Bool.and_eq_true, decide_eq_true_eq] at trips
      rcases trips with ⟨rfl, taken⟩ | ⟨rfl, taken⟩
      · obtain ⟨id, there⟩ := containerExists_iff.1 taken
        exact (tidy.ready _ _ isStart rfl).2.1 id there
      · obtain ⟨id, there⟩ := containerExists_iff.1 taken
        exact (tidy.ready _ _ isStart rfl).1 id there
    · cases trips
  · simp only [removesOther] at removes
    split at removes
    · obtain ⟨timer, isTimer, removes⟩ := (Option.any_eq_true _ _).1 removes
      obtain ⟨container, member, other⟩ := List.any_eq_true.1 removes
      simp only [Bool.and_eq_true, decide_eq_true_eq] at other
      exact other.2 (tidy.timers timer (List.mem_of_getElem? isTimer) _ ⟨container, member, other.1, rfl⟩)
    · cases removes

end Tidy

/-- Where no start sets out among the leftovers of another, none is hindered and no timer errs. -/
theorem unhindered_of_clear (history : List (State × Event)) (state : State)
    (run : agent.Run Clear history state) : Unhindered history := by
  have both : Tidy state ∧ Unhindered history := by
    refine run.invariant (fun history state => Tidy state ∧ Unhindered history) ?_ ?_
    · rintro state rfl
      exact ⟨⟨nofun, nofun, nofun, nofun⟩, nofun⟩
    · rintro history state event next ⟨tidy, unhindered⟩ stepped clear
      refine ⟨tidy.step stepped clear, fun moment member => ?_⟩
      rcases List.mem_cons.1 member with rfl | old
      · exact tidy.unhindered event
      · exact unhindered moment old
  exact both.2

/-! A deployment that is stopped and started again. -/

theorem ne_installContainerName {text : String} (last : text.toList.getLast? ≠ some 'l')
    (parent : String) : text ≠ installContainerName parent := by
  rintro rfl
  exact last (by simp [installContainerName])

/-- The containers of deployments bear such names: a UUID does not end in an `l`. -/
def DeploymentName.of (appId deploymentId : Uuid) : DeploymentName where
  text := containerName appId.toString deploymentId.toString
  own := by
    refine ne_installContainerName ?_
    have noL : ∀ digit, Uuid.hexDigit digit ≠ 'l' := by decide
    have long : Uuid.groups.sum < (deploymentId.digits.map Uuid.hexDigit).length := by
      simp [Uuid.groups, deploymentId.size]
    have last : deploymentId.toString.toList.getLast? =
        (deploymentId.digits.getLast?).map Uuid.hexDigit := by
      simp only [Uuid.toString, Uuid.spell, String.toList_ofList, Uuid.getLast?_hyphenate _ _ long,
        List.getLast?_map]
    obtain ⟨digit, isDigit⟩ : ∃ digit, deploymentId.digits.getLast? = some digit :=
      Option.ne_none_iff_exists'.1 (by
        intro none
        have size := deploymentId.size
        simp [List.getLast?_eq_none_iff.1 none] at size)
    simp only [containerName, String.toList_append, List.getLast?_append, last, isDigit,
      Option.map_some, Option.some_or]
    exact fun same => noL digit (Option.some.inj same)

def ofApp : DeploymentName := .of (.repeated 1) (.repeated 2)

/-- All the calls of one start with an install command, each of which succeeds. -/
def starting : List Event := .begin 0 ofApp true :: List.replicate 8 (.go 0 true)

def stopping : List Event := [.stop ofApp.text, .remove ofApp.text]

theorem restart_hindered : ¬ ∀ (history : List (State × Event)) (state : State),
    agent.Run (fun _ _ => True) history state → Unhindered history := by
  intro unhindered
  obtain ⟨history, state, run, trips⟩ := Machine.exists_run_of_trace agent (fun _ _ => True)
    (fun _ _ => true) (fun reached => reached.1.any fun moment => tripsOver moment.1 moment.2)
    (fun _ _ _ => trivial) rfl (starting ++ stopping ++ starting.take 5) (by decide +kernel)
  obtain ⟨moment, member, trips⟩ := List.any_eq_true.1 trips
  exact Bool.false_ne_true ((unhindered history state run moment member).1.symm.trans trips)

/-- With one start at a time, the rest of the condition can be looked up. -/
def clean (state : State) : Event → Bool
  | .begin index _ _ => index = 0
  | .go index _ =>
      match state.starts index with
      | some start => start.phase ≠ .containerExists ||
          !state.containerExists start.name.install &&
            state.timers.all fun timer => timer.name ≠ start.name.install
      | none => true
  | _ => true

theorem advance_starts_of_ne {state : State} {index other : Nat} {start : Start} {ok : Bool}
    (different : other ≠ index) : (state.advance index start ok).starts other = state.starts other := by
  have setStart (state : State) (moved : Option Start) :
      (state.setStart index moved).starts other = state.starts other :=
    Function.update_of_ne different ..
  obtain ⟨name, hasInstall, phase⟩ := start
  cases phase <;> simp only [State.advance]
  case isRunning | containerExists | ensureImage => split <;> exact setStart ..
  case startExisting | start => cases ok <;> exact setStart ..
  case waitInstall id => cases ok <;> exact setStart ..
  case createInstall | startInstall | create => split <;> exact setStart ..

theorem clear_of_clean {history : List (State × Event)} {state : State}
    (run : agent.Run (fun state event => clean state event = true) history state) :
    agent.Run Clear history state ∧ ∀ index, index ≠ 0 → state.starts index = none := by
  induction run with
  | initial isInitial =>
      refine ⟨.initial isInitial, fun index _ => ?_⟩
      cases isInitial
      rfl
  | @step history state next event before stepped isClean ih =>
      obtain ⟨run, single⟩ := ih
      refine ⟨run.step stepped ?_, fun other different => ?_⟩
      · rintro index start rfl isStart looks free
        have isFirst : index = 0 := by
          refine Classical.byContradiction fun different => ?_
          rw [single index different] at isStart
          cases isStart
        subst isFirst
        refine ⟨fun other later different isLater _ => ?_, fun _ => ?_⟩
        · rw [single other different] at isLater
          cases isLater
        · simpa [clean, isStart, looks] using isClean
      · cases event with
        | begin index name hasInstall =>
            have isFirst : index = 0 := by simpa [clean] using isClean
            simp only [agent, Leftovers.step] at stepped
            split at stepped <;> cases stepped
            exact (Function.update_of_ne (isFirst ▸ different) ..).trans (single other different)
        | go index ok =>
            obtain ⟨start, isStart, rfl⟩ := Option.map_eq_some_iff.1 stepped
            by_cases same : other = index
            · rw [← same, single other different] at isStart
              cases isStart
            · exact (advance_starts_of_ne same).trans (single other different)
        | fire index =>
            simp only [agent, Leftovers.step] at stepped
            split at stepped
            · split at stepped <;> cases stepped
              exact single other different
            · cases stepped
        | restart =>
            cases stepped
            rfl
        | tick _ | stop _ | remove _ =>
            cases stepped
            exact single other different

/-- The second start waits until the install container of the first has been removed. -/
theorem unhindered_of_clear_later : ∃ (history : List (State × Event)) (state : State),
    agent.Run Clear history state ∧ history.length = 22 ∧ Unhindered history := by
  obtain ⟨history, state, run, long⟩ := Machine.exists_run_of_trace agent
    (fun state event => clean state event = true) clean (fun reached => reached.1.length = 22)
    (fun _ _ checked => checked) rfl
    (starting ++ stopping ++ [.tick 30, .fire 0] ++ starting) (by decide +kernel)
  obtain ⟨run, -⟩ := clear_of_clean run
  exact ⟨history, state, run, of_decide_eq_true long, unhindered_of_clear history state run⟩

end Berth.Leftovers
