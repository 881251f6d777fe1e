import Berth.Auth.Hosts
import Berth.Auth.Sessions
import Berth.Session.Messages
import Berth.Session.Registry

/-!
The hosts of a hub: the requests of users that revoke them, the sessions their agents open, and the
calls that send something on these sessions.
-/

namespace Berth.Hosts

open Interleave

inductive Payload where
  | request (request : Request)
  | upload (part : UploadZipAndExtractRequest)
  | relay (part : RelayHttpRequest)
  deriving DecidableEq

/-- Whose link a call asks for: that of an app's host, or of a host. -/
inductive Target where
  | app (appId : String)
  | host (hostId : Int)
  deriving DecidableEq

/-- `welcomed` are the session calls whose `authenticate` has answered a host and that have not
registered it yet, `closed` those whose response stream is gone. A caller holds what it has got: the
answer of `validate_host_id`, links, and the senders of their sessions. -/
structure Fleet where
  accounts : Auth.AuthConfig
  registry : Registry.AgentRegistry
  welcomed : List (Nat × Int)
  closed : List Nat
  apps : List (String × Int)
  validated : List (Nat × Int)
  links : List (Nat × Nat)
  senders : List (Nat × Nat)

inductive Event where
  | account (command : Command Auth.Call Auth.Choice)
  | authenticate (n : Nat) (headers : HeaderMap) (choice : Auth.Choice)
  | connect (n : Nat)
  | session (event : Registry.Event)
  | close (n : Nat)
  | validateHostId (caller : Nat) (host : Int)
  | writeHostId (caller : Nat) (appId : String) (host : Int)
  | agentLinkFor (caller : Nat) (target : Target)
  | outbound (caller n : Nat)
  | send (caller n : Nat) (payload : Payload)

namespace Fleet

variable (env : Auth.Env) (fleet : Fleet)

/-- The host that a payload sent on the session gets to. -/
def reaches (n : Nat) : Option Int :=
  match fleet.registry.sessions n with
  | some (.accepted host phase) => if phase = .dropped ∨ n ∈ fleet.closed then none else some host
  | _ => none

/-- A step of a user's request. With the process all sessions are gone. -/
def account (command : Command Auth.Call Auth.Choice) : Option Fleet :=
  (fleet.accounts.exec (Auth.accounts env) command).map fun (event, accounts) =>
    match event with
    | .restart => ⟨accounts, .new, [], [], fleet.apps, [], [], []⟩
    | _ => { fleet with accounts }

def refuse (n : Nat) : Option Fleet :=
  (fleet.registry.authenticate n none).map fun registry => { fleet with registry }

/-- The one query of `authenticate` is answered. -/
def authenticate (n : Nat) (headers : HeaderMap) (choice : Auth.Choice) : Option Fleet :=
  match (Auth.authenticate env headers).run.eval Auth.perform [choice] fleet.accounts.shared with
  | some (.ok host, _) =>
      if fleet.registry.sessions n = some .authenticating then
        some { fleet with welcomed := (n, host.id) :: fleet.welcomed }
      else none
  | some (.error _, _) => fleet.refuse n
  | none => none

def connect (n : Nat) : Option Fleet :=
  match fleet.welcomed.find? fun entry => entry.1 = n with
  | none => none
  | some (_, host) => (fleet.registry.authenticate n (some host)).map fun registry =>
      { fleet with registry, welcomed := fleet.welcomed.filter fun entry => entry.1 ≠ n }

/-- What goes on in a session, apart from its authentication. -/
def session : Registry.Event → Option Fleet
  | .authenticate _ _ => none
  | event => (fleet.registry.step event).map fun registry => { fleet with registry }

/-- `validate_host_id`, which `create_app` and `update_app` call before they write. -/
def validateHostId (caller : Nat) (host : Int) : Option Fleet :=
  match fleet.accounts.shared.db.hosts.rows.find? fun row => row.id = host with
  | some row =>
      if row.revoked then some fleet
      else some { fleet with validated := (caller, host) :: fleet.validated }
  | none => some fleet

def writeHostId (caller : Nat) (appId : String) (host : Int) : Option Fleet :=
  if (caller, host) ∈ fleet.validated then
    some { fleet with
      apps := (appId, host) :: fleet.apps.filter fun entry => entry.1 ≠ appId }
  else none

def hostOf : Target → Option Int
  | .app appId => (fleet.apps.find? fun entry => entry.1 = appId).map Prod.snd
  | .host host => some host

/-- Without a session the link is a new one that nothing can be sent on. -/
def agentLinkFor (caller : Nat) (target : Target) : Option Fleet :=
  (fleet.hostOf target).map fun host =>
    match fleet.registry.hosts host with
    | some n => { fleet with links := (caller, n) :: fleet.links }
    | none => fleet

def hasOutbound (n : Nat) : Bool :=
  match fleet.registry.sessions n with
  | some (.accepted _ phase) =>
      phase = .touchingHost || phase = .reading || phase = .resolving || phase = .failingPending
  | _ => false

def outbound (caller n : Nat) : Option Fleet :=
  if (caller, n) ∈ fleet.links ∧ fleet.hasOutbound n then
    some { fleet with senders := (caller, n) :: fleet.senders }
  else none

/-- Sending changes nothing but the agent. -/
def send (caller n : Nat) : Option Fleet :=
  if (caller, n) ∈ fleet.senders ∧ (fleet.reaches n).isSome then some fleet else none

def step : Event → Option Fleet
  | .account command => fleet.account env command
  | .authenticate n headers choice => fleet.authenticate env n headers choice
  | .connect n => fleet.connect n
  | .session event => fleet.session event
  | .close n => some { fleet with closed := n :: fleet.closed }
  | .validateHostId caller host => fleet.validateHostId caller host
  | .writeHostId caller appId host => fleet.writeHostId caller appId host
  | .agentLinkFor caller target => fleet.agentLinkFor caller target
  | .outbound caller n => fleet.outbound caller n
  | .send caller n _ => fleet.send caller n

def start (state : Auth.State) (apps : List (String × Int)) : Fleet :=
  ⟨Config.idle state, .new, [], [], apps, [], [], []⟩

end Fleet

/-- The hub starts with some database and without sessions. -/
abbrev machine (env : Auth.Env) : Machine Fleet Event where
  initial := fun fleet => ∃ state apps, fleet = Fleet.start state apps
  step := Fleet.step env

variable {env : Auth.Env} {fleet next : Fleet} {event : Event} {n : Nat} {host : Int}

/-- The host whose row an event of the accounts marks as revoked. -/
def revokedNow : Auth.AuthEvent → Option Int
  | .act _ _ (.query (.revokeHost host _)) _ _ => some host
  | _ => none

/-- A host is revoked while it has no session, nor one that has just been authenticated. -/
def Quiet (env : Auth.Env) (fleet : Fleet) : Event → Prop
  | .account command =>
      ∀ step ∈ fleet.accounts.exec (Auth.accounts env) command, ∀ host ∈ revokedNow step.1,
        (∀ n < fleet.registry.started, fleet.reaches n ≠ some host) ∧
          ∀ entry ∈ fleet.welcomed, entry.2 ≠ host
  | _ => True

instance (event : Event) : Decidable (Quiet env fleet event) :=
  match event with
  | .account command => inferInstanceAs (Decidable
      (∀ step ∈ fleet.accounts.exec (Auth.accounts env) command, ∀ host ∈ revokedNow step.1,
        (∀ n < fleet.registry.started, fleet.reaches n ≠ some host) ∧
          ∀ entry ∈ fleet.welcomed, entry.2 ≠ host))
  | .authenticate _ _ _ | .connect _ | .session _ | .close _ | .validateHostId _ _
  | .writeHostId _ _ _ | .agentLinkFor _ _ | .outbound _ _ | .send _ _ _ =>
      inferInstanceAs (Decidable True)

/-- Nobody of a revoked host is let in, or still there. -/
structure Barred (env : Auth.Env) (fleet : Fleet) : Prop where
  accounts : ∃ state, Reachable (Auth.accounts env) (fun _ _ => True) (Config.idle state)
    fleet.accounts
  numbered : Registry.Numbered fleet.registry
  reached : ∀ n host, fleet.reaches n = some host → ¬ Auth.Revoked fleet.accounts.shared.db host
  welcomed : ∀ n host, (n, host) ∈ fleet.welcomed → ¬ Auth.Revoked fleet.accounts.shared.db host

theorem reaches_eq : fleet.reaches n = some host ↔ ∃ phase,
    fleet.registry.sessions n = some (.accepted host phase) ∧ phase ≠ .dropped ∧
      n ∉ fleet.closed := by
  simp only [Fleet.reaches]
  split
  · rename_i other phase isSession
    simp only [isSession, Option.some.injEq, Registry.Session.accepted.injEq]
    split
    · rename_i gone
      simp only [reduceCtorEq, false_iff]
      rintro ⟨_, ⟨rfl, rfl⟩, kept, opened⟩
      exact gone.elim kept opened
    · rename_i there
      rw [not_or] at there
      constructor
      · rintro isHost
        exact ⟨phase, ⟨Option.some.inj isHost, rfl⟩, there⟩
      · rintro ⟨_, ⟨rfl, rfl⟩, _⟩
        rfl
  · rename_i notAccepted
    simp only [reduceCtorEq, false_iff]
    rintro ⟨phase, isSession, _⟩
    exact notAccepted _ _ isSession

section Sessions

open Registry (AgentRegistry Phase setSession_sessions advance_eq)

variable {registry after : AgentRegistry} {phase : Phase}

theorem accepted_of_setSession {m : Nat} {session : Registry.Session}
    (found : (registry.setSession m session).sessions n = some (.accepted host phase)) :
    session = .accepted host phase ∧ n = m ∨ registry.sessions n = some (.accepted host phase) := by
  rw [setSession_sessions] at found
  split at found
  · rename_i same
    exact .inl ⟨Option.some.inj found, same⟩
  · exact .inr found

theorem accepted_of_advance {m : Nat} {before later : Phase}
    (advanced : registry.advance m before later = some after) (alive : before ≠ .dropped)
    (found : after.sessions n = some (.accepted host phase)) (kept : phase ≠ .dropped) :
    ∃ phase', registry.sessions n = some (.accepted host phase') ∧ phase' ≠ .dropped := by
  obtain ⟨other, isSession, rfl⟩ := advance_eq advanced
  rcases accepted_of_setSession found with ⟨eq, rfl⟩ | old
  · cases eq
    exact ⟨before, isSession, alive⟩
  · exact ⟨phase, old, kept⟩

/-- Only an authentication lets a host in. -/
theorem accepted_of_step {event : Registry.Event} (later : ∀ n host, event ≠ .authenticate n host)
    (stepped : registry.step event = some after)
    (found : after.sessions n = some (.accepted host phase)) (kept : phase ≠ .dropped) :
    ∃ phase', registry.sessions n = some (.accepted host phase') ∧ phase' ≠ .dropped := by
  cases event with
  | call =>
      cases stepped
      rcases accepted_of_setSession found with ⟨eq, _⟩ | old
      · cases eq
      · exact ⟨phase, old, kept⟩
  | authenticate m other => exact absurd rfl (later m other)
  | setOutbound m =>
      obtain ⟨advanced, advances, rfl⟩ := Option.map_eq_some_iff.1 stepped
      exact accepted_of_advance advances (by decide) found kept
  | touchHost m | receive m | resolve m | failPending m =>
      exact accepted_of_advance stepped (by decide) found kept
  | hangUp m =>
      simp only [AgentRegistry.step, AgentRegistry.hangUp] at stepped
      split at stepped <;> cases stepped
      rename_i other isReading
      rcases accepted_of_setSession found with ⟨eq, rfl⟩ | old
      · cases eq
        exact ⟨_, isReading, by rintro ⟨⟩⟩
      · exact ⟨phase, old, kept⟩
  | drop m =>
      simp only [AgentRegistry.step, AgentRegistry.drop] at stepped
      split at stepped
      · cases stepped
        rcases accepted_of_setSession found with ⟨eq, _⟩ | old
        · cases eq
        · exact ⟨phase, old, kept⟩
      · split at stepped <;> cases stepped
        rcases accepted_of_setSession found with ⟨eq, _⟩ | old
        · cases eq
          exact absurd rfl kept
        · exact ⟨phase, old, kept⟩
      · cases stepped
  | reconcile =>
      cases stepped
      exact ⟨phase, found, kept⟩

theorem accepted_of_authenticate {m : Nat} {answer : Option Int}
    (stepped : registry.authenticate m answer = some after)
    (found : after.sessions n = some (.accepted host phase)) :
    answer = some host ∨ registry.sessions n = some (.accepted host phase) := by
  simp only [AgentRegistry.authenticate] at stepped
  split at stepped
  · rename_i other _
    cases stepped
    simp only [AgentRegistry.connect] at found
    split at found
    · rcases accepted_of_setSession found with ⟨eq, _⟩ | old
      · cases eq
      · exact .inr old
    · rcases accepted_of_setSession found with ⟨eq, _⟩ | old
      · cases eq
        exact .inl rfl
      · exact .inr old
  · cases stepped
    rcases accepted_of_setSession found with ⟨eq, _⟩ | old
    · cases eq
    · exact .inr old
  · cases stepped

end Sessions

/-! What the steps keep. -/

/-- Who is reached was reached before, and the accounts are the same. -/
theorem Barred.fewer (barred : Barred env fleet) (accounts : next.accounts = fleet.accounts)
    (numbered : Registry.Numbered next.registry)
    (reached : ∀ n host, next.reaches n = some host → fleet.reaches n = some host)
    (welcomed : ∀ entry ∈ next.welcomed, entry ∈ fleet.welcomed) : Barred env next := by
  refine ⟨accounts ▸ barred.accounts, numbered, ?_, ?_⟩
  · intro n host isReached
    rw [accounts]
    exact barred.reached n host (reached n host isReached)
  · intro n host member
    rw [accounts]
    exact barred.welcomed n host (welcomed _ member)

/-- Nothing has changed but what the callers hold. -/
theorem Barred.same (barred : Barred env fleet) (accounts : next.accounts = fleet.accounts)
    (registry : next.registry = fleet.registry) (welcomed : next.welcomed = fleet.welcomed)
    (closed : next.closed = fleet.closed) : Barred env next := by
  refine barred.fewer accounts (registry ▸ barred.numbered) ?_ fun _ member => welcomed ▸ member
  intro n host isReached
  rwa [Fleet.reaches, registry, closed] at isReached

/-- Which hosts a step of the accounts revokes. -/
theorem revoked_of_exec {cfg cfg' : Auth.AuthConfig} {command : Command Auth.Call Auth.Choice}
    {event : Auth.AuthEvent} (executed : cfg.exec (Auth.accounts env) command = some (event, cfg'))
    (revoked : Auth.Revoked cfg'.shared.db host) :
    Auth.Revoked cfg.shared.db host ∨ revokedNow event = some host := by
  have moves := (Config.exec_executes executed).moves
  rcases Auth.db_of_moves moves with same | ⟨thread, call, action, choice, result, rfl, performed⟩
  · rw [Config.world_shared, Config.world_shared] at same
    exact .inl (same ▸ revoked)
  · rcases Auth.hosts_of_perform performed with same | ⟨q, rfl, step⟩
    · rw [Config.world_shared, Config.world_shared] at same
      rw [Auth.Revoked, same] at revoked
      exact .inl revoked
    · rcases step.only host revoked with old | revokes
      · exact .inl old
      · cases q with
        | revokeHost other now =>
            cases revokes
            exact .inr rfl
        | _ => exact revokes.elim

theorem Barred.account {command : Command Auth.Call Auth.Choice} (barred : Barred env fleet)
    (quiet : Quiet env fleet (.account command)) (stepped : fleet.account env command = some next) :
    Barred env next := by
  obtain ⟨⟨event, cfg⟩, executed, rfl⟩ := Option.map_eq_some_iff.1 stepped
  obtain ⟨state, reachable⟩ := barred.accounts
  have accounts : ∃ state, Reachable (Auth.accounts env) (fun _ _ => True) (Config.idle state) cfg :=
    ⟨state, reachable.step executed trivial⟩
  have absent : ∀ host, revokedNow event = some host →
      (∀ n, fleet.reaches n ≠ some host) ∧ ∀ n, (n, host) ∉ fleet.welcomed := by
    intro host now
    obtain ⟨unreached, unwelcome⟩ := quiet _ executed host now
    refine ⟨?_, fun n member => unwelcome _ member rfl⟩
    intro n isReached
    by_cases below : n < fleet.registry.started
    · exact unreached n below isReached
    · obtain ⟨phase, isSession, _⟩ := reaches_eq.1 isReached
      rw [barred.numbered n (by omega)] at isSession
      cases isSession
  have kept : Barred env { fleet with accounts := cfg } := by
    refine ⟨accounts, barred.numbered, ?_, ?_⟩
    · intro n host isReached revoked
      rcases revoked_of_exec executed revoked with old | now
      · exact barred.reached n host isReached old
      · exact (absent host now).1 n isReached
    · intro n host member revoked
      rcases revoked_of_exec executed revoked with old | now
      · exact barred.welcomed n host member old
      · exact (absent host now).2 n member
  cases event with
  | restart =>
      refine ⟨accounts, fun _ _ => rfl, ?_, nofun⟩
      intro n host isReached
      cases isReached
  | start _ _ | act _ _ _ _ _ | fork _ _ _ _ | finish _ _ _ | drop _ _ => exact kept

theorem Barred.refuse (barred : Barred env fleet) (stepped : fleet.refuse n = some next) :
    Barred env next := by
  obtain ⟨registry, refused, rfl⟩ := Option.map_eq_some_iff.1 stepped
  have moved : fleet.registry.step (.authenticate n none) = some registry := refused
  refine barred.fewer rfl (barred.numbered.moves moved) ?_ fun _ => id
  intro m host isReached
  obtain ⟨phase, found, kept, opened⟩ := reaches_eq.1 isReached
  rcases accepted_of_authenticate refused found with eq | old
  · cases eq
  · exact reaches_eq.2 ⟨phase, old, kept, opened⟩

theorem Barred.authenticate {headers : HeaderMap} {choice : Auth.Choice} (barred : Barred env fleet)
    (stepped : fleet.authenticate env n headers choice = some next) : Barred env next := by
  simp only [Fleet.authenticate] at stepped
  split at stepped
  · rename_i row after ran
    split at stepped <;> cases stepped
    obtain ⟨member, active⟩ := Auth.unrevoked_of_authenticate (Program.runs_of_eval ran)
    refine ⟨barred.accounts, barred.numbered, barred.reached, ?_⟩
    intro m host isWelcomed
    rcases List.mem_cons.1 isWelcomed with eq | old
    · cases eq
      rintro ⟨other, otherMember, sameId, isRevoked⟩
      rw [Serial.eq_of_id_eq otherMember member sameId, active] at isRevoked
      cases isRevoked
    · exact barred.welcomed m host old
  · exact barred.refuse stepped
  · cases stepped

theorem Barred.connect (barred : Barred env fleet) (stepped : fleet.connect n = some next) :
    Barred env next := by
  simp only [Fleet.connect] at stepped
  split at stepped
  · cases stepped
  · rename_i m host found
    have isWelcomed : (m, host) ∈ fleet.welcomed := List.mem_of_find?_eq_some found
    obtain ⟨registry, connected, rfl⟩ := Option.map_eq_some_iff.1 stepped
    have moved : fleet.registry.step (.authenticate n (some host)) = some registry := connected
    refine ⟨barred.accounts, barred.numbered.moves moved, ?_, ?_⟩
    · intro m' host' isReached
      obtain ⟨phase, accepted, kept, opened⟩ := reaches_eq.1 isReached
      rcases accepted_of_authenticate connected accepted with eq | old
      · cases eq
        exact barred.welcomed m host isWelcomed
      · exact barred.reached m' host' (reaches_eq.2 ⟨phase, old, kept, opened⟩)
    · intro m' host' member
      exact barred.welcomed m' host' (List.mem_filter.1 member).1

theorem Barred.session {event : Registry.Event} (barred : Barred env fleet)
    (stepped : fleet.session event = some next) : Barred env next := by
  have later : ∀ n host, event ≠ .authenticate n host := by
    rintro n host rfl
    cases stepped
  have moved : ∃ registry, fleet.registry.step event = some registry ∧
      next = { fleet with registry } := by
    cases event with
    | authenticate n host => cases stepped
    | call | reconcile =>
        cases stepped
        exact ⟨_, rfl, rfl⟩
    | _ =>
        obtain ⟨registry, moved, eq⟩ := Option.map_eq_some_iff.1 stepped
        exact ⟨registry, moved, eq.symm⟩
  obtain ⟨registry, moved, rfl⟩ := moved
  refine barred.fewer rfl (barred.numbered.moves moved) ?_ fun _ => id
  intro m host isReached
  obtain ⟨phase, found, kept, opened⟩ := reaches_eq.1 isReached
  obtain ⟨phase', old, kept'⟩ := accepted_of_step later moved found kept
  exact reaches_eq.2 ⟨phase', old, kept', opened⟩

theorem Barred.moves (barred : Barred env fleet) (quiet : Quiet env fleet event)
    (stepped : fleet.step env event = some next) : Barred env next := by
  cases event with
  | account command => exact barred.account quiet stepped
  | authenticate n headers choice => exact barred.authenticate stepped
  | connect n => exact barred.connect stepped
  | session event => exact barred.session stepped
  | close n =>
      cases stepped
      refine barred.fewer rfl barred.numbered ?_ fun _ => id
      intro m host isReached
      obtain ⟨phase, found, kept, opened⟩ := reaches_eq.1 isReached
      exact reaches_eq.2 ⟨phase, found, kept, fun gone => opened (List.mem_cons_of_mem _ gone)⟩
  | validateHostId caller host =>
      simp only [Fleet.step, Fleet.validateHostId] at stepped
      split at stepped
      · split at stepped <;> cases stepped <;> exact barred.same rfl rfl rfl rfl
      · cases stepped
        exact barred
  | writeHostId caller appId host =>
      simp only [Fleet.step, Fleet.writeHostId] at stepped
      split at stepped <;> cases stepped
      exact barred.same rfl rfl rfl rfl
  | agentLinkFor caller target =>
      obtain ⟨host, _, rfl⟩ := Option.map_eq_some_iff.1 stepped
      split <;> exact barred.same rfl rfl rfl rfl
  | outbound caller n =>
      simp only [Fleet.step, Fleet.outbound] at stepped
      split at stepped <;> cases stepped
      exact barred.same rfl rfl rfl rfl
  | send caller n payload =>
      simp only [Fleet.step, Fleet.send] at stepped
      split at stepped <;> cases stepped
      exact barred

theorem barred_of_reachable (reachable : (machine env).ReachableBy (Quiet env) fleet) :
    Barred env fleet := by
  refine reachable.invariant _ ?_ fun _ _ _ barred stepped quiet => barred.moves quiet stepped
  rintro fleet ⟨state, apps, rfl⟩
  exact ⟨⟨state, .refl⟩, fun _ _ => rfl, nofun, nofun⟩

/-- Ada is signed in, and host 1 has a token. -/
def adaAndHost : Auth.State where
  db := {
    users := ⟨[⟨1, "ada", "secret", "admin", 0, 0⟩], 2, by decide, by decide, by decide⟩
    apiTokens := ∅
    hosts := ⟨[⟨1, "edge", "edge", "secret", false, none, none, none, 0, 0⟩], 2, by decide,
      by decide, by decide⟩
    permissions := [] }
  sessions := [("ada-token", ⟨"ada", 0⟩)]
  loginAttempts := []
  issued := ["ada-token"]
  now := 0

def hostHeader : HeaderMap :=
  (buildHeaders [⟨"authorization", "Bearer " ++ Auth.formatToken "edge" "secret"⟩]).getD []

def hostConnects : List Event :=
  [.session .call, .authenticate 0 hostHeader {}, .connect 0, .session (.setOutbound 0),
    .session (.touchHost 0)]

/-- A caller gets hold of the session's sender, for the app of host 1. -/
def callerHoldsSender : List Event := [.agentLinkFor 0 (.app "app"), .outbound 0 0]

def adaRevokesHost : List Event :=
  (.start (.account "DELETE" (Auth.cookieHeader "ada-token") (.revokeHost 1)) ::
    steps 0 11 ({} : Auth.Choice)).map .account

def containerStart : Payload :=
  .request (.startRunContainer "deployment" "container" ⟨.node24, none, "npm start", 8080⟩
    [⟨"KEY", .plain "value"⟩])

def afterRevocation (fleet : Fleet) : Bool :=
  fleet.registry.sessions 0 = some (.accepted 1 .reading) &&
    fleet.accounts.history.any fun moment => Auth.revokedBy moment.event = some 1

theorem hasRevoked_of_afterRevocation (after : afterRevocation fleet = true) :
    fleet.registry.sessions 0 = some (.accepted 1 .reading) ∧
      Auth.HasRevoked fleet.accounts.world 1 := by
  simp only [afterRevocation, Bool.and_eq_true, decide_eq_true_eq, List.any_eq_true] at after
  obtain ⟨isSession, moment, member, isRevoked⟩ := after
  exact ⟨isSession, moment, member, isRevoked⟩

end Berth.Hosts
