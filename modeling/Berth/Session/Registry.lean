import Mathlib.Logic.Function.Basic
import Berth.Interleave.Machine

/-!
`AgentRegistry` and the calls of `Hub::session`. A call registers its host before it has spawned
the reader task that is going to deregister it; tonic drops the call's future when the client
resets the call, at whatever point it is waiting.
-/

namespace Berth.Registry

open Interleave

/-- Where an accepted call has got to: first the handler of the call itself, then the reader task
it has spawned. -/
inductive Phase where
  | settingOutbound
  | touchingHost
  | reading
  | resolving
  | failingPending
  | ended
  | dropped
  deriving DecidableEq

/-- The handler or its reader task is going to call `disconnect`. -/
def Phase.serves : Phase → Bool
  | settingOutbound | touchingHost | reading | resolving => true
  | failingPending | ended | dropped => false

/-- The handler has registered the host, and its reader task has not been spawned yet. -/
def Phase.unguarded : Phase → Bool
  | settingOutbound | touchingHost => true
  | reading | resolving | failingPending | ended | dropped => false

inductive Session where
  | authenticating
  | refused
  | dropped
  | accepted (host : Int) (phase : Phase)
  deriving DecidableEq

/-- Calls are numbered as they come in; `hosts` says whose `AgentLink` is registered. `connected` is
the slot of the channel that `connected_tx` signals into. -/
structure AgentRegistry where
  started : Nat
  sessions : Nat → Option Session
  hosts : Int → Option Nat
  connected : Bool

/-- `authenticate` answers a host, or fails. -/
inductive Event where
  | call
  | authenticate (n : Nat) (host : Option Int)
  | setOutbound (n : Nat)
  | touchHost (n : Nat)
  | receive (n : Nat)
  | resolve (n : Nat)
  | hangUp (n : Nat)
  | failPending (n : Nat)
  | drop (n : Nat)
  | reconcile
  deriving DecidableEq

namespace AgentRegistry

variable (registry : AgentRegistry) (n : Nat)

def setSession (session : Session) : AgentRegistry :=
  { registry with sessions := Function.update registry.sessions n (some session) }

/-- `connect`: the call is refused when the host is registered already. -/
def connect (host : Int) : AgentRegistry :=
  match registry.hosts host with
  | some _ => registry.setSession n .refused
  | none =>
      { registry.setSession n (.accepted host .settingOutbound) with
        hosts := Function.update registry.hosts host (some n) }

def disconnect (host : Int) : AgentRegistry :=
  { registry with hosts := Function.update registry.hosts host none }

def authenticate (host : Option Int) : Option AgentRegistry :=
  match registry.sessions n, host with
  | some .authenticating, some host => some (registry.connect n host)
  | some .authenticating, none => some (registry.setSession n .refused)
  | _, _ => none

/-- One step of an accepted call, from one phase to another. -/
def advance (before after : Phase) : Option AgentRegistry :=
  match registry.sessions n with
  | some (.accepted host phase) =>
      if phase = before then some (registry.setSession n (.accepted host after)) else none
  | _ => none

/-- The stream has ended: `disconnect`, and then `fail_all_pending`. -/
def hangUp : Option AgentRegistry :=
  match registry.sessions n with
  | some (.accepted host .reading) =>
      some ((registry.disconnect host).setSession n (.accepted host .failingPending))
  | _ => none

/-- The future of the call is dropped; a reader task is not. -/
def drop : Option AgentRegistry :=
  match registry.sessions n with
  | some .authenticating => some (registry.setSession n .dropped)
  | some (.accepted host phase) =>
      if phase.unguarded then some (registry.setSession n (.accepted host .dropped)) else none
  | _ => none

def step : Event → Option AgentRegistry
  | .call =>
      some { registry.setSession registry.started .authenticating with
        started := registry.started + 1 }
  | .authenticate n host => registry.authenticate n host
  | .setOutbound n =>
      (registry.advance n .settingOutbound .touchingHost).map fun next =>
        { next with connected := true }
  | .touchHost n => registry.advance n .touchingHost .reading
  | .receive n => registry.advance n .reading .resolving
  | .resolve n => registry.advance n .resolving .reading
  | .hangUp n => registry.hangUp n
  | .failPending n => registry.advance n .failingPending .ended
  | .drop n => registry.drop n
  | .reconcile => some { registry with connected := false }

def new : AgentRegistry where
  started := 0
  sessions := fun _ => none
  hosts := fun _ => none
  connected := false

end AgentRegistry

abbrev machine : Machine AgentRegistry Event where
  initial := fun registry => registry = AgentRegistry.new
  step := AgentRegistry.step

variable {registry next : AgentRegistry} {event : Event} {n m : Nat} {host other : Int}
variable {session : Session} {phase phase' : Phase}

@[simp, grind =] theorem setSession_sessions : (registry.setSession n session).sessions m =
    if m = n then some session else registry.sessions m := by
  simp [AgentRegistry.setSession, Function.update_apply]

@[simp] theorem setSession_hosts : (registry.setSession n session).hosts = registry.hosts := rfl
@[grind =] theorem setSession_hosts_apply :
    (registry.setSession n session).hosts other = registry.hosts other := rfl

@[simp, grind =] theorem disconnect_hosts : (registry.disconnect host).hosts other =
    if other = host then none else registry.hosts other := by
  simp [AgentRegistry.disconnect, Function.update_apply]

@[grind =] theorem disconnect_sessions_apply :
    (registry.disconnect host).sessions m = registry.sessions m := rfl

/-- A call that is going to deregister its host has it registered. -/
def Registered (registry : AgentRegistry) : Prop :=
  ∀ n host phase, registry.sessions n = some (.accepted host phase) → phase.serves = true →
    registry.hosts host = some n

/-- Calls are numbered below the next one. -/
def Numbered (registry : AgentRegistry) : Prop :=
  ∀ n, registry.started ≤ n → registry.sessions n = none

theorem advance_eq {before after : Phase} (stepped : registry.advance n before after = some next) :
    ∃ host, registry.sessions n = some (.accepted host before) ∧
      next = registry.setSession n (.accepted host after) := by
  simp only [AgentRegistry.advance] at stepped
  split at stepped
  · rename_i host phase found
    split at stepped <;> cases stepped
    rename_i same
    exact ⟨host, same ▸ found, rfl⟩
  · cases stepped

theorem Registered.advance {before after : Phase} (registered : Registered registry)
    (serves : after.serves = true → before.serves = true)
    (stepped : registry.advance n before after = some next) : Registered next := by
  obtain ⟨host, found, rfl⟩ := advance_eq stepped
  grind [Registered]

theorem Registered.moves (registered : Registered registry)
    (stepped : registry.step event = some next) : Registered next := by
  cases event with
  | call =>
      cases stepped
      grind [Registered]
  | authenticate n host =>
      simp only [AgentRegistry.step, AgentRegistry.authenticate] at stepped
      split at stepped <;> cases stepped
      · simp only [AgentRegistry.connect]
        split
        · grind [Registered]
        · simp only [Registered, Function.update_apply]
          grind [Registered]
      · grind [Registered]
  | setOutbound n =>
      obtain ⟨advanced, advances, rfl⟩ := Option.map_eq_some_iff.1 stepped
      have kept : Registered advanced := registered.advance (fun _ => rfl) advances
      exact kept
  | touchHost n | receive n | resolve n => exact registered.advance (fun _ => rfl) stepped
  | failPending n => exact registered.advance (by simp [Phase.serves]) stepped
  | hangUp n =>
      simp only [AgentRegistry.step, AgentRegistry.hangUp] at stepped
      split at stepped <;> cases stepped
      rename_i host found
      have own := registered n host .reading found rfl
      intro m other phase found' serves
      simp only [setSession_sessions] at found'
      split at found'
      · cases found'
        cases serves
      · rename_i different
        have entry := registered m other phase found' serves
        have distinct : other ≠ host := by
          rintro rfl
          rw [own] at entry
          cases entry
          exact different rfl
        simp [distinct, entry]
  | drop n =>
      simp only [AgentRegistry.step, AgentRegistry.drop] at stepped
      split at stepped
      · cases stepped
        grind [Registered]
      · split at stepped <;> cases stepped
        grind [Registered, Phase.serves]
      · cases stepped
  | reconcile =>
      cases stepped
      exact registered

theorem registered_of_reachable (reachable : machine.Reachable registry) : Registered registry := by
  refine reachable.invariant _ ?_ fun _ _ _ registered stepped _ => registered.moves stepped
  rintro registry rfl
  simp [Registered, AgentRegistry.new]

/-- No two calls serve one host. -/
theorem Registered.single (registered : Registered registry)
    (found : registry.sessions n = some (.accepted host phase)) (serves : phase.serves = true)
    (found' : registry.sessions m = some (.accepted host phase')) (serves' : phase'.serves = true) :
    n = m := by
  have entry := registered n host phase found serves
  rw [registered m host phase' found' serves'] at entry
  exact (Option.some.inj entry).symm

def AgentRegistry.unguarded (registry : AgentRegistry) (n : Nat) : Bool :=
  match registry.sessions n with
  | some (.accepted _ phase) => phase.unguarded
  | _ => false

/-- No call is dropped between the registration of its host and the spawn of its reader task. -/
def Attended (registry : AgentRegistry) : Event → Prop
  | .drop n => registry.unguarded n = false
  | _ => True

instance (registry : AgentRegistry) (event : Event) : Decidable (Attended registry event) :=
  match event with
  | .drop n => inferInstanceAs (Decidable (registry.unguarded n = false))
  | .call | .authenticate _ _ | .setOutbound _ | .touchHost _ | .receive _ | .resolve _ | .hangUp _
  | .failPending _ | .reconcile => isTrue trivial

/-- A registered host has a call that is going to deregister it. -/
def Owned (registry : AgentRegistry) : Prop :=
  ∀ host n, registry.hosts host = some n → ∃ phase,
    registry.sessions n = some (.accepted host phase) ∧ phase.serves = true

theorem Owned.setSession (owned : Owned registry)
    (keeps : ∀ host phase, registry.sessions n = some (.accepted host phase) →
      phase.serves = true → ∃ phase', session = .accepted host phase' ∧ phase'.serves = true) :
    Owned (registry.setSession n session) := by
  intro host m entry
  obtain ⟨phase, found, serves⟩ := owned host m entry
  by_cases same : m = n
  · subst same
    obtain ⟨phase', rfl, serves'⟩ := keeps host phase found serves
    exact ⟨phase', by simp, serves'⟩
  · exact ⟨phase, by simp [same, found], serves⟩

theorem Owned.advance {before after : Phase} (owned : Owned registry)
    (serves : before.serves = true → after.serves = true)
    (stepped : registry.advance n before after = some next) : Owned next := by
  obtain ⟨host, found, rfl⟩ := advance_eq stepped
  refine owned.setSession fun other phase found' isServing => ?_
  rw [found] at found'
  cases found'
  exact ⟨after, rfl, serves isServing⟩

theorem Owned.moves (owned : Owned registry) (numbered : Numbered registry)
    (stepped : registry.step event = some next) (attended : Attended registry event) :
    Owned next := by
  cases event with
  | call =>
      cases stepped
      refine Owned.setSession owned fun host phase found _ => ?_
      rw [numbered registry.started (Nat.le_refl _)] at found
      cases found
  | authenticate n host =>
      simp only [AgentRegistry.step, AgentRegistry.authenticate] at stepped
      split at stepped
      · rename_i host authenticating
        cases stepped
        simp only [AgentRegistry.connect]
        split
        · refine owned.setSession fun host phase found _ => ?_
          rw [authenticating] at found
          cases found
        · rename_i free
          intro other m entry
          simp only [Function.update_apply] at entry
          split at entry
          · rename_i same
            cases entry
            exact ⟨.settingOutbound, by simp [same], rfl⟩
          · obtain ⟨phase, found, serves⟩ := owned other m entry
            have different : m ≠ n := by
              rintro rfl
              rw [authenticating] at found
              cases found
            exact ⟨phase, by simp [different, found], serves⟩
      · rename_i authenticating
        cases stepped
        refine owned.setSession fun host phase found _ => ?_
        rw [authenticating] at found
        cases found
      · cases stepped
  | setOutbound n =>
      obtain ⟨advanced, advances, rfl⟩ := Option.map_eq_some_iff.1 stepped
      have kept : Owned advanced := owned.advance (fun _ => rfl) advances
      exact kept
  | touchHost n | receive n | resolve n => exact owned.advance (fun _ => rfl) stepped
  | failPending n => exact owned.advance (by simp [Phase.serves]) stepped
  | hangUp n =>
      simp only [AgentRegistry.step, AgentRegistry.hangUp] at stepped
      split at stepped <;> cases stepped
      rename_i host found
      intro other m entry
      simp only [setSession_hosts, disconnect_hosts] at entry
      split at entry
      · cases entry
      · rename_i distinct
        obtain ⟨phase, found', serves⟩ := owned other m entry
        have different : m ≠ n := by
          rintro rfl
          rw [found] at found'
          cases found'
          exact distinct rfl
        refine ⟨phase, ?_, serves⟩
        rw [setSession_sessions, if_neg different]
        exact found'
  | drop n =>
      simp only [AgentRegistry.step, AgentRegistry.drop] at stepped
      split at stepped
      · rename_i authenticating
        cases stepped
        refine owned.setSession fun host phase found _ => ?_
        rw [authenticating] at found
        cases found
      · rename_i host phase found
        split at stepped <;> cases stepped
        rename_i unguarded
        simp only [Attended, AgentRegistry.unguarded, found] at attended
        rw [attended] at unguarded
        cases unguarded
      · cases stepped
  | reconcile =>
      cases stepped
      exact owned

theorem Numbered.setSession (numbered : Numbered registry) {older : Session}
    (found : registry.sessions n = some older) : Numbered (registry.setSession n session) := by
  intro m above
  have different : m ≠ n := by
    rintro rfl
    rw [numbered m above] at found
    cases found
  rw [setSession_sessions, if_neg different]
  exact numbered m above

theorem Numbered.moves (numbered : Numbered registry) (stepped : registry.step event = some next) :
    Numbered next := by
  cases event with
  | call =>
      cases stepped
      intro m above
      have above : registry.started + 1 ≤ m := above
      have different : m ≠ registry.started := by omega
      have free := numbered m (by omega)
      simpa [different] using free
  | authenticate n host =>
      simp only [AgentRegistry.step, AgentRegistry.authenticate] at stepped
      split at stepped
      · rename_i host authenticating
        cases stepped
        simp only [AgentRegistry.connect]
        split
        · exact numbered.setSession authenticating
        · have kept : Numbered (registry.setSession n (.accepted host .settingOutbound)) :=
            numbered.setSession authenticating
          exact kept
      · rename_i authenticating
        cases stepped
        exact numbered.setSession authenticating
      · cases stepped
  | setOutbound n =>
      obtain ⟨advanced, advances, rfl⟩ := Option.map_eq_some_iff.1 stepped
      obtain ⟨host, found, rfl⟩ := advance_eq advances
      have kept : Numbered (registry.setSession n (.accepted host .touchingHost)) :=
        numbered.setSession found
      exact kept
  | touchHost n | receive n | resolve n | failPending n =>
      obtain ⟨host, found, rfl⟩ := advance_eq stepped
      exact numbered.setSession found
  | hangUp n =>
      simp only [AgentRegistry.step, AgentRegistry.hangUp] at stepped
      split at stepped <;> cases stepped
      rename_i host found
      have kept : Numbered (registry.setSession n (.accepted host .failingPending)) :=
        numbered.setSession found
      exact kept
  | drop n =>
      simp only [AgentRegistry.step, AgentRegistry.drop] at stepped
      split at stepped
      · rename_i found
        cases stepped
        exact numbered.setSession found
      · rename_i found
        split at stepped <;> cases stepped
        exact numbered.setSession found
      · cases stepped
  | reconcile =>
      cases stepped
      exact numbered

/-- The steps a call takes from its registration to the end of its stream. -/
def Event.Ends (n : Nat) : Event → Prop
  | .setOutbound m | .touchHost m | .resolve m | .hangUp m => m = n
  | _ => False

theorem leads_ending {state state' state'' : AgentRegistry} (event : Event) (ends : event.Ends n)
    (stepped : state.step event = some state')
    (rest : machine.Leads (Event.Ends n) state' state'') :
    machine.Leads (Event.Ends n) state state'' :=
  Machine.Leads.head ends stepped rest

theorem ends_reading (found : registry.sessions n = some (.accepted host .reading)) :
    ∃ later, machine.Leads (Event.Ends n) registry later ∧ later.hosts host = none := by
  have stepped : registry.step (.hangUp n) =
      some ((registry.disconnect host).setSession n (.accepted host .failingPending)) := by
    simp [AgentRegistry.step, AgentRegistry.hangUp, found]
  exact ⟨_, leads_ending (.hangUp n) rfl stepped .refl, by simp⟩

theorem ends_touchingHost (found : registry.sessions n = some (.accepted host .touchingHost)) :
    ∃ later, machine.Leads (Event.Ends n) registry later ∧ later.hosts host = none := by
  have stepped : registry.step (.touchHost n) =
      some (registry.setSession n (.accepted host .reading)) := by
    simp [AgentRegistry.step, AgentRegistry.advance, found]
  obtain ⟨later, leads, free⟩ :=
    @ends_reading (registry.setSession n (.accepted host .reading)) n host (by simp)
  exact ⟨later, leads_ending (.touchHost n) rfl stepped leads, free⟩

/-- From wherever it serves, a call comes to `disconnect` by its own steps. -/
theorem ends (found : registry.sessions n = some (.accepted host phase))
    (serves : phase.serves = true) :
    ∃ later, machine.Leads (Event.Ends n) registry later ∧ later.hosts host = none := by
  cases phase with
  | settingOutbound =>
      let touching := { registry.setSession n (.accepted host .touchingHost) with connected := true }
      have stepped : registry.step (.setOutbound n) = some touching := by
        simp [AgentRegistry.step, AgentRegistry.advance, found, touching]
      obtain ⟨later, leads, free⟩ := @ends_touchingHost touching n host (by simp [touching])
      exact ⟨later, leads_ending (.setOutbound n) rfl stepped leads, free⟩
  | touchingHost => exact ends_touchingHost found
  | reading => exact ends_reading found
  | resolving =>
      have stepped : registry.step (.resolve n) =
          some (registry.setSession n (.accepted host .reading)) := by
        simp [AgentRegistry.step, AgentRegistry.advance, found]
      obtain ⟨later, leads, free⟩ :=
        @ends_reading (registry.setSession n (.accepted host .reading)) n host (by simp)
      exact ⟨later, leads_ending (.resolve n) rfl stepped leads, free⟩
  | failingPending | ended | dropped => cases serves

/-- A host is registered exactly while one call serves it. -/
structure Served (registry : AgentRegistry) : Prop where
  owned : ∀ host n, registry.hosts host = some n → ∃ phase,
    registry.sessions n = some (.accepted host phase) ∧ phase.serves = true
  released : ∀ host n, registry.hosts host = some n →
    ∃ later, machine.Leads (Event.Ends n) registry later ∧ later.hosts host = none
  accepts : ∀ host m, registry.sessions m = some .authenticating →
    (∀ n phase, registry.sessions n = some (.accepted host phase) → phase.serves = false) →
      ∃ next, registry.step (.authenticate m (some host)) = some next ∧
        next.hosts host = some m ∧ next.sessions m = some (.accepted host .settingOutbound)
  single : ∀ host n m phase phase', registry.sessions n = some (.accepted host phase) →
    registry.sessions m = some (.accepted host phase') → phase.serves = true →
      phase'.serves = true → n = m

/-- The agent hangs up while the hub records when it was last seen. -/
def hangsUpEarly : List Event :=
  [.call, .authenticate 0 (some 1), .setOutbound 0, .drop 0, .call, .authenticate 1 (some 1)]

/-- One session after the other, with a second call in between that is refused. -/
def oneByOne : List Event :=
  [.call, .authenticate 0 (some 1), .call, .authenticate 1 (some 1), .setOutbound 0, .touchHost 0,
    .receive 0, .resolve 0, .hangUp 0, .failPending 0, .call, .authenticate 2 (some 1)]

end Berth.Registry
