import Berth.Auth.Requests
import Berth.Interleave.Discipline

/-!
Revocation of hosts: a host that has been revoked stays so, and when `revoke_host` has returned it
is.
-/

namespace Berth.Auth

open Interleave Interleave.Discipline

variable {env : Env} {w w' : AuthWorld} {event : AuthEvent} {thread : Nat} {call : Call}
variable {db db' : Database} {id : Int}

def Known (db : Database) (id : Int) : Prop := ∃ host ∈ db.hosts.rows, host.id = id

def Revoked (db : Database) (id : Int) : Prop :=
  ∃ host ∈ db.hosts.rows, host.id = id ∧ host.revoked = true

/-- The one query that revokes a host. -/
def Query.revokes (id : Int) : Query → Prop
  | .revokeHost other _ => other = id
  | _ => False

/-! What a query does to the hosts. -/

structure HostsStep (db : Database) (q : Query) (db' : Database) : Prop where
  known : ∀ id, Known db id → Known db' id
  revoked : ∀ id, Revoked db id → Revoked db' id
  only : ∀ id, Revoked db' id → Revoked db id ∨ q.revokes id
  done : ∀ id, Known db id → q.revokes id → Revoked db' id

theorem hostsStep_of_same {q : Query} (apart : ∀ id, ¬ q.revokes id)
    (same : db'.hosts = db.hosts) : HostsStep db q db' := by
  refine ⟨?_, ?_, ?_, fun id _ revokes => absurd revokes (apart id)⟩
  · intro id known
    rwa [Known, same]
  · intro id revoked
    rwa [Revoked, same]
  · intro id revoked
    rw [Revoked, same] at revoked
    exact .inl revoked

theorem hostsStep_of_exec {q : Query} {result : q.Result}
    (executed : db.exec q = some (result, db')) : HostsStep db q db' := by
  cases q with
  | revokeHost other now =>
      cases executed
      have kept : ∀ host ∈ db.hosts.rows, ∃ host' ∈ (db.revokeHost other now).hosts.rows,
          host'.id = host.id ∧ host'.revoked = (decide (host.id = other) || host.revoked) := by
        intro host member
        rw [Database.revokeHost_rows]
        refine ⟨_, List.mem_map_of_mem member, ?_⟩
        by_cases chosen : host.id = other <;> simp [Serial.changed, chosen]
      refine ⟨?_, ?_, ?_, ?_⟩
      · rintro id ⟨host, member, rfl⟩
        obtain ⟨host', member', sameId, _⟩ := kept host member
        exact ⟨host', member', sameId⟩
      · rintro id ⟨host, member, rfl, isRevoked⟩
        obtain ⟨host', member', sameId, both⟩ := kept host member
        exact ⟨host', member', sameId, by simp [both, isRevoked]⟩
      · rintro id ⟨host', member', rfl, isRevoked⟩
        rw [Database.revokeHost_rows] at member'
        obtain ⟨host, member, rfl⟩ := List.mem_map.1 member'
        simp only [Serial.changed, decide_eq_true_eq] at isRevoked ⊢
        split
        · rename_i chosen
          exact .inr chosen.symm
        · rename_i other
          rw [if_neg other] at isRevoked
          exact .inl ⟨host, member, rfl, isRevoked⟩
      · rintro id ⟨host, member, rfl⟩ revokes
        obtain ⟨host', member', sameId, both⟩ := kept host member
        have chosen : other = host.id := revokes
        exact ⟨host', member', sameId, by simp [both, chosen]⟩
  | createHost name tokenId tokenHash now =>
      obtain ⟨hosts, inserted, eq⟩ := Option.map_eq_some_iff.1 executed
      cases eq
      refine ⟨?_, ?_, ?_, fun _ _ revokes => revokes.elim⟩
      · rintro id ⟨host, member, sameId⟩
        exact ⟨host, (Serial.mem_insert? inserted).2 (.inl member), sameId⟩
      · rintro id ⟨host, member, sameId, isRevoked⟩
        exact ⟨host, (Serial.mem_insert? inserted).2 (.inl member), sameId, isRevoked⟩
      · rintro id ⟨host, member, sameId, isRevoked⟩
        rcases (Serial.mem_insert? inserted).1 member with old | rfl
        · exact .inl ⟨host, old, sameId, isRevoked⟩
        · cases isRevoked
  | createUser | createApiToken =>
      obtain ⟨_, _, eq⟩ := Option.map_eq_some_iff.1 executed
      cases eq
      exact hostsStep_of_same (fun _ => id) rfl
  | _ =>
      cases executed
      exact hostsStep_of_same (fun _ => id) rfl

/-- A step changes the hosts by one query or not at all. -/
theorem hosts_of_perform {action : Act} {choice : Choice} {result : action.Res} {state state' : State}
    (performed : perform action choice state = some (result, state')) :
    state'.db.hosts = state.db.hosts ∨ ∃ q, action = .query q ∧ HostsStep state.db q state'.db := by
  cases action with
  | query q =>
      simp only [perform, State.runQuery] at performed
      split at performed
      · cases performed
        exact .inl rfl
      · split at performed
        · rename_i executed
          cases performed
          exact .inr ⟨q, rfl, hostsStep_of_exec executed⟩
        · cases performed
          exact .inl rfl
  | randomText =>
      simp only [perform, State.draw] at performed
      split at performed <;> cases performed
      exact .inl rfl
  | issueSession username createdAt =>
      simp only [perform, State.draw] at performed
      split at performed <;> cases performed
      exact .inl rfl
  | _ =>
      cases performed
      exact .inl rfl

theorem known_of_perform {action : Act} {choice : Choice} {result : action.Res}
    {state state' : State} (performed : perform action choice state = some (result, state'))
    (known : Known state.db id) : Known state'.db id := by
  rcases hosts_of_perform performed with same | ⟨_, _, step⟩
  · rwa [Known, same]
  · exact step.known id known

theorem revoked_of_perform {action : Act} {choice : Choice} {result : action.Res}
    {state state' : State} (performed : perform action choice state = some (result, state'))
    (revoked : Revoked state.db id) : Revoked state'.db id := by
  rcases hosts_of_perform performed with same | ⟨_, _, step⟩
  · rwa [Revoked, same]
  · exact step.revoked id revoked

/-- An agent is let in as a host that is not revoked. -/
theorem unrevoked_of_authenticate {headers : HeaderMap} {row : Host} {state state' : State}
    (runs : Program.Runs perform (authenticate env headers).run state (.ok row) state') :
    row ∈ state.db.hosts.rows ∧ row.revoked = false := by
  simp only [authenticate] at runs
  split at runs
  · cases runs.1
  split at runs
  · cases runs.1
  obtain ⟨found, _, finding, last⟩ := Fallible.runs_bind_ok.1 runs
  cases found with
  | none => cases last.1
  | some host =>
      cases last.1
      obtain ⟨stored, _, looked, rest⟩ := Fallible.runs_bind_ok.1 finding
      rcases runs_query_cases looked with ⟨_, eq, _⟩ | ⟨_, _, eq, executed, rfl⟩
      · cases eq
      cases executed
      cases eq
      split at rest
      · cases rest.1
      rename_i isStored
      split at rest
      · cases rest.1
      rename_i active
      split at rest
      · cases rest.1
      cases rest.1
      exact ⟨List.mem_of_find?_eq_some isStored, by simpa using active⟩

/-! When `revoke_host` has returned. -/

def revokedBy : AuthEvent → Option Int
  | .finish _ (.account _ _ (.revokeHost id)) (.ok _) => some id
  | _ => none

def HasRevoked (w : AuthWorld) (id : Int) : Prop :=
  w.Did fun event => revokedBy event = some id

def revocations : Discipline Act Act.Res Call Reply State Choice where
  Allowed := fun _ _ => True
  Permit := fun w event => ∀ id, revokedBy event = some id → Revoked w.shared.db id
  Inv := fun w => ∀ id, HasRevoked w id → Revoked w.shared.db id

theorem db_of_moves (moves : w.Moves (accounts env) event w') : w'.shared.db = w.shared.db ∨
    ∃ thread call action choice result, event = .act thread call action choice result ∧
      perform action choice w.shared = some (result, w'.shared) := by
  cases moves with
  | act member performed => exact .inr ⟨_, _, _, _, _, rfl, performed⟩
  | start _ | fork _ | finish _ | drop _ | restart => exact .inl rfl

theorem known_moves (moves : w.Moves (accounts env) event w') (known : Known w.shared.db id) :
    Known w'.shared.db id := by
  rcases db_of_moves moves with same | ⟨_, _, _, _, _, _, performed⟩
  · rwa [same]
  · exact known_of_perform performed known

theorem revoked_moves (moves : w.Moves (accounts env) event w') (revoked : Revoked w.shared.db id) :
    Revoked w'.shared.db id := by
  rcases db_of_moves moves with same | ⟨_, _, _, _, _, _, performed⟩
  · rwa [same]
  · exact revoked_of_perform performed revoked

section Requests

variable {α β : Type}

theorem free_revocations : Free (accounts env) revocations thread call (fun _ => True)
    (fun _ => True) := by
  intro w event w' own _ _ _ id isRevoked
  cases own <;> cases isRevoked

/-- A part that does not matter. -/
theorem safe_revocations_bind {program : AsyncResult α} {after : α → AsyncResult β}
    {post : β → AuthWorld → Prop}
    (rest : ∀ value w, Safe (accounts env) revocations thread call (after value).run
      (Outcome post fun _ _ => True) w) :
    Safe (accounts env) revocations thread call (program >>= after).run
      (Outcome post fun _ _ => True) w := by
  refine Safe.bindE ((Safe.free (Program.uses_all _) free_revocations).mono ?_)
  intro outcome w' _
  cases outcome with
  | ok value => exact rest value w'
  | error err => trivial

theorem stable_known : Stable (accounts env) revocations thread call fun w => Known w.shared.db id :=
  fun _ _ _ interferes known => known_moves interferes.moves known

theorem executed_of_moves {q : Query} {choice : Choice} {value : q.Result}
    (moves : w.Moves (accounts env) (.act thread call (.query q) choice (.ok value)) w') :
    w.shared.db.exec q = some (value, w'.shared.db) := by
  cases moves with
  | act _ performed =>
      simp only [accounts, perform, State.runQuery] at performed
      split at performed
      · cases performed
      · split at performed
        · rename_i executed
          cases performed
          exact executed
        · cases performed

theorem safe_revokeHost : Safe (accounts env) revocations thread call (revokeHost id).run
    (Outcome (fun _ w' => Revoked w'.shared.db id) fun _ _ => True) w := by
  refine Safe.bindE (Safe.perform (stable_const True) trivial ?_)
  intro w₁ choice result w₂ _ ready moves allowed
  refine ⟨free_revocations w₁ _ w₂ (.act trivial) ready moves allowed, fun _ => ?_⟩
  cases result with
  | error err => trivial
  | ok found =>
  cases found with
  | none => trivial
  | some host =>
  have read := executed_of_moves moves
  have same : w₂.shared.db = w₁.shared.db := (congrArg Prod.snd (Option.some.inj read)).symm
  obtain ⟨member, rfl⟩ := Serial.find_id.1 (congrArg Prod.fst (Option.some.inj read))
  have known : Known w₂.shared.db host.id := same ▸ ⟨host, member, rfl⟩
  have frame : Frame (accounts env) revocations thread call (fun _ => True) (fun _ => True)
      fun w => Known w.shared.db host.id :=
    ⟨stable_known, fun _ _ _ _ known _ _ moves _ _ => known_moves moves known⟩
  refine Safe.bindE ((Safe.frame (Program.uses_all _) free_revocations frame known).mono ?_)
  intro now w₃ known
  cases now with
  | error err => trivial
  | ok now =>
  refine Safe.perform stable_known known ?_
  intro w₄ choice result w₅ known ready moves allowed
  refine ⟨free_revocations w₄ _ w₅ (.act trivial) ready moves allowed, fun _ => ?_⟩
  cases result with
  | error err => trivial
  | ok _ => exact (hostsStep_of_exec (executed_of_moves moves)).done host.id known rfl

theorem safe_revocation {method : String} {headers : HeaderMap} :
    Safe (accounts env) revocations thread call
      (serve env (.account method headers (.revokeHost id))).run
      (Outcome (fun _ w' => Revoked w'.shared.db id) fun _ _ => True) w := by
  apply safe_revocations_bind
  intro _ w₁
  apply safe_revocations_bind
  intro _ w₂
  apply safe_revocations_bind
  intro user w₃
  apply safe_revocations_bind
  intro _ w₄
  apply safe_revocations_bind
  intro _ w₅
  refine Safe.bindE (safe_revokeHost.mono fun outcome w₆ revoked => ?_)
  cases outcome with
  | ok _ => exact revoked
  | error _ => trivial

theorem safe_request (env : Env) (thread : Nat) (call : Call) (w : AuthWorld) :
    Safe (accounts env) revocations thread call ((accounts env).body call)
      (Final (accounts env) revocations thread call) w := by
  by_cases revokes : ∃ method headers id, call = .account method headers (.revokeHost id)
  · obtain ⟨method, headers, id, rfl⟩ := revokes
    refine safe_revocation.mono ?_
    intro reply w' after w'' rely _ _ other isRevoked
    cases reply with
    | error err => cases isRevoked
    | ok response =>
        cases isRevoked
        refine Stable.rely (fun _ _ _ interferes revoked => ?_) rely after
        exact revoked_moves interferes.moves revoked
  · refine (Safe.free (Program.uses_all _) free_revocations).mono ?_
    intro reply w' _ w'' _ _ _ other isRevoked
    simp only [revokedBy] at isRevoked
    split at isRevoked
    · rename_i isFinish
      cases isFinish
      exact absurd ⟨_, _, _, rfl⟩ revokes
    · cases isRevoked

end Requests

theorem revocations_sound (env : Env) : Discipline.Sound (accounts env) revocations where
  keeps := by
    intro w event w' _ revoked moves _ permit id hasRevoked
    rcases (moves.did_iff _).1 hasRevoked with now | before
    · have owned : event.Owned := by
        cases event with
        | finish _ _ _ => trivial
        | start _ _ | act _ _ _ _ _ | fork _ _ _ _ | drop _ _ | restart => cases now
      exact revoked_moves moves (permit owned id now)
    · exact revoked_moves moves (revoked id before)
  starts := fun w call w' _ _ _ _ _ => safe_request env w.next call w'
  forks := fun w _ _ forked w' _ _ _ _ _ _ => safe_request env w.next forked w'

theorem revoked_of_hasRevoked {state : State} {cfg : AuthConfig}
    (reachable : Reachable (accounts env) (fun _ _ => True) (Config.idle state) cfg)
    (hasRevoked : HasRevoked cfg.world id) : Revoked cfg.shared.db id :=
  (revocations_sound env).invariant (secure_idle fun _ done => absurd done (Config.idle_not_did _ _))
    reachable id hasRevoked

end Berth.Auth
