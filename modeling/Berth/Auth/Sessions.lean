import Berth.Interleave.Discipline
import Berth.Interleave.Past
import Berth.Auth.Requests

/-!
Sessions and the credentials they were issued for, while logins, password changes and deletions
overlap in any way.
-/

namespace Berth.Auth

open Interleave Interleave.Discipline

variable {env : Env} {w w' : AuthWorld} {event : AuthEvent} {thread : Nat} {call : Call}
variable {username token : String}

/-! The events of interest. -/

/-- A login reads the password hash and checks it. -/
def checkedBy : AuthEvent → Option Nat
  | .act thread (.login _ _ _) (.query (.userByName _)) _ _ => some thread
  | _ => none

def issuedBy : AuthEvent → Option (Nat × String × String)
  | .act thread _ (.issueSession username _) _ token => some (thread, username, token)
  | _ => none

/-- The sessions of a user are scanned for revocation. -/
def scannedBy : AuthEvent → Option (Nat × String)
  | .act thread _ (.revokeSessionsFor username) _ _ => some (thread, username)
  | _ => none

/-- Whose role, password or existence a request is about. -/
def Endpoint.credentialsOf : Endpoint → Option String
  | .updateUser username role password =>
      if role.isSome || password.isSome then some username else none
  | .deleteUser username => some username
  | _ => none

/-- A request has returned that changed somebody's credentials. -/
def changedBy : AuthEvent → Option (Nat × String)
  | .finish thread (.account _ _ endpoint) (.ok _) =>
      endpoint.credentialsOf.map fun username => (thread, username)
  | _ => none

/-- The token of a request is good for a session of an existing user. -/
def SessionAccepted (state : State) (token : String) : Prop :=
  ∃ headers current after, cookieValue headers sessionCookie = some token ∧
    Program.Runs perform (currentUser headers).run state (.ok current) after

/-- A login that issues its session has checked the password after every revocation scan for its
user, and when it did, no request that had made such a scan was still running. -/
def Timely (history : List AuthMoment) (event : AuthEvent) : Prop :=
  ∀ thread username token, issuedBy event = some (thread, username, token) →
    ∀ newer check older, history = newer ++ check :: older → checkedBy check.event = some thread →
      (∀ moment ∈ newer, ∀ other, scannedBy moment.event ≠ some (other, username)) ∧
        ∀ moment ∈ older, ∀ other, scannedBy moment.event = some (other, username) →
          ∀ call, (other, call) ∉ check.live

/-- Once credentials have been changed, no session is accepted that was issued on a check made
before. -/
def OldSessionsEnded (w : AuthWorld) : Prop :=
  ∀ newest change newer check older,
    w.history = newest ++ change :: (newer ++ check :: older) →
      ∀ changer username, changedBy change.event = some (changer, username) →
        ∀ login, checkedBy check.event = some login →
          ∀ issue ∈ newest ++ change :: newer, ∀ token,
            issuedBy issue.event = some (login, username, token) →
              ¬ SessionAccepted w.shared token

/-! What a step does to the sessions. -/

structure SessionsStep (state : State) (event : AuthEvent) (state' : State) : Prop where
  more : ∀ text ∈ state.issued, text ∈ state'.issued
  before : ∀ entry ∈ state'.sessions, entry ∈ state.sessions ∨
    ∃ thread, issuedBy event = some (thread, entry.2.username, entry.1) ∧ entry.1 ∉ state.issued
  drawn : ∀ thread username token, issuedBy event = some (thread, username, token) →
    token ∈ state'.issued ∧
      ∀ entry ∈ state'.sessions, entry.1 = token → entry.2.username = username
  scanned : ∀ thread username, scannedBy event = some (thread, username) →
    ∀ entry ∈ state'.sessions, entry.2.username ≠ username

theorem sessionsStep_of_fewer {state state' : State}
    (sessions : ∀ entry ∈ state'.sessions, entry ∈ state.sessions)
    (issued : ∀ text ∈ state.issued, text ∈ state'.issued) (noIssue : issuedBy event = none)
    (scanned : ∀ thread username, scannedBy event = some (thread, username) →
      ∀ entry ∈ state'.sessions, entry.2.username ≠ username) : SessionsStep state event state' where
  more := issued
  before := fun entry member => .inl (sessions entry member)
  drawn := fun _ _ _ isIssued => nomatch noIssue.symm.trans isIssued
  scanned := scanned

theorem sessionsStep_of_same {state state' : State} (sessions : state'.sessions = state.sessions)
    (issued : state'.issued = state.issued) (noIssue : issuedBy event = none)
    (noScan : scannedBy event = none) : SessionsStep state event state' :=
  sessionsStep_of_fewer (fun _ member => sessions ▸ member)
    (fun _ member => issued.symm ▸ member) noIssue
    fun _ _ scanned => nomatch noScan.symm.trans scanned

theorem sessionsStep_of_perform {state state' : State} {action : Act} {choice : Choice}
    {result : action.Res} (performed : perform action choice state = some (result, state')) :
    SessionsStep state (.act thread call action choice result) state' := by
  cases action with
  | issueSession username createdAt =>
      obtain ⟨⟨token, drawn⟩, isDrawn, eq⟩ := Option.map_eq_some_iff.1 performed
      cases eq
      simp only [State.draw] at isDrawn
      split at isDrawn
      · rename_i new
        cases isDrawn
        refine ⟨fun text member => List.mem_cons_of_mem _ member, ?_, ?_, ?_⟩
        · rintro ⟨other, session⟩ member
          rcases mem_insert.1 member with ⟨rfl, rfl⟩ | ⟨old, _⟩
          · exact .inr ⟨thread, rfl, new.2⟩
          · exact .inl old
        · intro thread username token isIssued
          cases isIssued
          refine ⟨List.mem_cons_self, ?_⟩
          rintro ⟨other, session⟩ member rfl
          rcases mem_insert.1 member with ⟨_, rfl⟩ | ⟨_, different⟩
          · rfl
          · exact absurd rfl different
        · intro thread username scanned
          cases scanned
      · cases isDrawn
  | revokeSessionsFor username =>
      cases performed
      refine sessionsStep_of_fewer (fun entry member => (List.mem_filter.1 member).1)
        (fun text member => member) rfl ?_
      intro thread other scanned entry member
      cases scanned
      simpa using (List.mem_filter.1 member).2
  | revokeOtherSessionsFor _ _ | removeSession _ =>
      cases performed
      exact sessionsStep_of_fewer (fun entry member => (List.mem_filter.1 member).1)
        (fun text member => member) rfl fun _ _ scanned => nomatch scanned
  | randomText =>
      simp only [perform, State.draw] at performed
      split at performed
      · cases performed
        exact sessionsStep_of_fewer (fun entry member => member)
          (fun text member => List.mem_cons_of_mem _ member) rfl fun _ _ scanned => nomatch scanned
      · cases performed
  | query q =>
      simp only [perform, State.runQuery] at performed
      split at performed
      · cases performed
        exact sessionsStep_of_same rfl rfl rfl rfl
      · split at performed <;> cases performed <;> exact sessionsStep_of_same rfl rfl rfl rfl
  | now | advance _ | findSession _ | findLoginAttempts _ | recordFailedLogin _ _
  | clearLoginAttempts _ | enter _ _ =>
      cases performed
      exact sessionsStep_of_same rfl rfl rfl rfl

theorem sessionsStep_of_moves (moves : w.Moves (accounts env) event w') :
    SessionsStep w.shared event w'.shared := by
  cases moves with
  | act member performed => exact sessionsStep_of_perform performed
  | restart =>
      exact sessionsStep_of_fewer (fun entry member => nomatch member) (fun text member => member)
        rfl fun _ _ scanned => nomatch scanned
  | start _ | fork _ | finish _ | drop _ => exact sessionsStep_of_same rfl rfl rfl rfl

/-! What is kept of the past. -/

/-- The record of sessions issued, scans made and credentials changed. -/
structure Recorded (w : AuthWorld) : Prop where
  chronicle : w.Chronicle
  timely : ∀ newer moment older, w.history = newer ++ moment :: older → Timely older moment.event
  scanned : ∀ newer moment older, w.history = newer ++ moment :: older →
    ∀ changer username, changedBy moment.event = some (changer, username) →
      ∃ scan ∈ older, scannedBy scan.event = some (changer, username)
  issued : ∀ moment ∈ w.history, ∀ login username token,
    issuedBy moment.event = some (login, username, token) → token ∈ w.shared.issued ∧
      ∀ entry ∈ w.shared.sessions, entry.1 = token → entry.2.username = username
  gone : ∀ newer scan older, w.history = newer ++ scan :: older →
    ∀ scanner username, scannedBy scan.event = some (scanner, username) →
      ∀ moment ∈ older, ∀ login token,
        issuedBy moment.event = some (login, username, token) →
          ∀ entry ∈ w.shared.sessions, entry.1 ≠ token

/-- A request that changed credentials has scanned the sessions. -/
def ScansFirst (w : AuthWorld) (event : AuthEvent) : Prop :=
  ∀ changer username, changedBy event = some (changer, username) →
    ∃ scan ∈ w.history, scannedBy scan.event = some (changer, username)

def credentials : Discipline Act Act.Res Call Reply State Choice where
  Allowed := fun w event => Timely w.history event
  Permit := ScansFirst
  Inv := Recorded

theorem Recorded.moves (recorded : Recorded w) (numbered : w.Numbered)
    (moves : w.Moves (accounts env) event w') (timely : Timely w.history event)
    (scans : event.Owned → ScansFirst w event) : Recorded w' := by
  have step := sessionsStep_of_moves moves
  have history : w'.history = ⟨w.shared, w.live, event⟩ :: w.history := moves.history
  have owned : ∀ changer username, changedBy event = some (changer, username) → event.Owned := by
    intro changer username changed
    cases event <;> trivial
  refine ⟨recorded.chronicle.moves numbered moves, ?_, ?_, ?_, ?_⟩
  · intro newer moment older eq
    rw [history] at eq
    rcases List.cons_eq_append_iff.1 eq with ⟨_, eq⟩ | ⟨newer', _, eq⟩
    · cases eq
      exact timely
    · exact recorded.timely newer' moment older eq
  · intro newer moment older eq changer username changed
    rw [history] at eq
    rcases List.cons_eq_append_iff.1 eq with ⟨_, eq⟩ | ⟨newer', _, eq⟩
    · cases eq
      exact scans (owned changer username changed) changer username changed
    · exact recorded.scanned newer' moment older eq changer username changed
  · intro moment member login username token isIssued
    rw [history] at member
    rcases List.mem_cons.1 member with rfl | old
    · exact step.drawn login username token isIssued
    · obtain ⟨isKnown, named⟩ := recorded.issued moment old login username token isIssued
      refine ⟨step.more token isKnown, fun entry isEntry same => ?_⟩
      rcases step.before entry isEntry with before | ⟨_, _, unknown⟩
      · exact named entry before same
      · exact absurd (same ▸ isKnown) unknown
  · intro newer scan older eq scanner username scanned moment member login token isIssued entry isEntry
    rw [history] at eq
    rcases List.cons_eq_append_iff.1 eq with ⟨_, eq⟩ | ⟨newer', _, eq⟩
    · cases eq
      rintro same
      rcases step.before entry isEntry with before | ⟨_, isNew, unknown⟩
      · have named := (recorded.issued moment member login username token isIssued).2 entry before same
        exact step.scanned scanner username scanned entry isEntry named
      · exact unknown (same ▸ (recorded.issued moment member login username token isIssued).1)
    · have older' : moment ∈ w.history := by rw [eq]; simp [member]
      rcases step.before entry isEntry with before | ⟨_, _, unknown⟩
      · exact recorded.gone newer' scan older eq scanner username scanned moment member login token
          isIssued entry before
      · rintro same
        exact unknown (same ▸ (recorded.issued moment older' login username token isIssued).1)

theorem recorded_idle (state : State) : Recorded (Config.idle state : AuthConfig).world := by
  refine ⟨World.chronicle_of_no_past rfl, ?_, ?_, ?_, ?_⟩
  · intro newer moment older eq
    simp [Config.idle] at eq
  · intro newer moment older eq
    simp [Config.idle] at eq
  · intro moment member
    simp [Config.idle] at member
  · intro newer moment older eq
    simp [Config.idle] at eq

/-! A request that changes credentials scans the sessions before it returns. -/

section Requests

variable {α β : Type} {thread : Nat}

def Scanned (thread : Nat) (username : String) (w : AuthWorld) : Prop :=
  w.Did fun event => scannedBy event = some (thread, username)

/-- Nothing but the reply is held to anything. -/
theorem free_credentials : Free (accounts env) credentials thread call (fun _ => True)
    (fun _ => True) := by
  intro w event w' own _ _ _ changer username changed
  cases own <;> cases changed

theorem safe_credentials_bind {program : AsyncResult α} {after : α → AsyncResult β}
    {post : β → AuthWorld → Prop}
    (rest : ∀ value w, Safe (accounts env) credentials thread call (after value).run
      (Outcome post fun _ _ => True) w) :
    Safe (accounts env) credentials thread call (program >>= after).run
      (Outcome post fun _ _ => True) w := by
  refine Safe.bindE ((Safe.free (Program.uses_all _) free_credentials).mono ?_)
  intro outcome w' _
  cases outcome with
  | ok value => exact rest value w'
  | error err => trivial

theorem safe_revokeSessionsFor {username : String} :
    Safe (accounts env) credentials thread call (act (.revokeSessionsFor username)).run
      (Outcome (fun _ w' => Scanned thread username w') fun _ _ => True) w := by
  intro w₁ choice result w₂ rely ready moves allowed
  refine ⟨free_credentials w₁ _ w₂ (.act trivial) ready moves allowed, fun _ => ?_⟩
  have now : Scanned thread username w₂ := (moves.did_iff _).2 (.inl rfl)
  exact now

theorem safe_updateUser {current : CurrentUser} {username : String} {role password : Option String}
    (changing : (role.isSome || password.isSome) = true) :
    Safe (accounts env) credentials thread call (updateUser env current username role password).run
      (Outcome (fun _ w' => Scanned thread username w') fun _ _ => True) w := by
  rw [updateUser]
  apply safe_credentials_bind
  intro _ w₁
  apply safe_credentials_bind
  intro found w₂
  cases found with
  | none => exact trivial
  | some user =>
      apply safe_credentials_bind
      intro stored w₃
      apply safe_credentials_bind
      intro hash w₄
      apply safe_credentials_bind
      intro now w₅
      apply safe_credentials_bind
      intro _ w₆
      simp only [changing, if_true]
      refine Safe.bindE (safe_revokeSessionsFor.mono fun outcome w₇ scanned => ?_)
      cases outcome with
      | ok _ => exact scanned
      | error _ => trivial

theorem safe_deleteUser {current : CurrentUser} {username : String} :
    Safe (accounts env) credentials thread call (deleteUser current username).run
      (Outcome (fun _ w' => Scanned thread username w') fun _ _ => True) w := by
  rw [deleteUser]
  apply safe_credentials_bind
  intro _ w₁
  split
  · exact trivial
  apply safe_credentials_bind
  intro found w₂
  cases found with
  | none => exact trivial
  | some user =>
      apply safe_credentials_bind
      intro _ w₃
      apply safe_credentials_bind
      intro _ w₄
      refine Safe.bindE (safe_revokeSessionsFor.mono fun outcome w₅ scanned => ?_)
      cases outcome with
      | ok _ => exact scanned
      | error _ => trivial

theorem safe_cookieOnlyRoute {method : String} {headers : HeaderMap}
    {handler : CurrentUser → AsyncResult α} {post : α → AuthWorld → Prop}
    (safe : ∀ user w, Safe (accounts env) credentials thread call (handler user).run
      (Outcome post fun _ _ => True) w) :
    Safe (accounts env) credentials thread call (cookieOnlyRoute method headers handler).run
      (Outcome post fun _ _ => True) w := by
  apply safe_credentials_bind
  intro _ w₁
  apply safe_credentials_bind
  intro _ w₂
  apply safe_credentials_bind
  intro user w₃
  apply safe_credentials_bind
  intro _ w₄
  exact safe user w₄

theorem safe_handle {headers : HeaderMap} {endpoint : Endpoint} {current : CurrentUser}
    {username : String} (about : endpoint.credentialsOf = some username) :
    Safe (accounts env) credentials thread call (handle env headers endpoint current).run
      (Outcome (fun _ w' => Scanned thread username w') fun _ _ => True) w := by
  cases endpoint <;> simp only [Endpoint.credentialsOf, reduceCtorEq] at about
  case updateUser other role password =>
    split at about
    · rename_i changing
      cases about
      exact safe_updateUser changing
    · cases about
  case deleteUser other =>
    cases about
    exact safe_deleteUser

theorem safe_account {method : String} {headers : HeaderMap} {endpoint : Endpoint}
    {username : String} (about : endpoint.credentialsOf = some username) :
    Safe (accounts env) credentials thread call
      (serve env (.account method headers endpoint)).run
      (Outcome (fun _ w' => Scanned thread username w') fun _ _ => True) w :=
  safe_cookieOnlyRoute fun _ _ => safe_handle about

theorem safe_call (env : Env) (thread : Nat) (call : Call) (w : AuthWorld) :
    Safe (accounts env) credentials thread call ((accounts env).body call)
      (Final (accounts env) credentials thread call) w := by
  have unchanging : (∀ reply, changedBy (.finish thread call reply) = none) →
      Safe (accounts env) credentials thread call ((accounts env).body call)
        (Final (accounts env) credentials thread call) w := by
    intro none
    refine (Safe.free (Program.uses_all _) free_credentials).mono ?_
    intro reply w' _ w'' _ _ _ changer username changed
    exact nomatch (none reply).symm.trans changed
  cases call with
  | login _ _ _ | logout _ | agentSession _ | advance _ => exact unchanging fun _ => rfl
  | account method headers endpoint =>
      cases about : endpoint.credentialsOf with
      | none =>
          refine unchanging fun reply => ?_
          cases reply with
          | ok response => simp only [changedBy, about, Option.map_none]
          | error err => rfl
      | some username =>
          refine (safe_account about).mono ?_
          intro reply w' scanned w'' rely _ _ changer other changed
          cases reply with
          | error err => cases changed
          | ok response =>
              simp only [changedBy, about, Option.map_some, Option.some.injEq] at changed
              cases changed
              have before : Scanned thread username w' := scanned
              exact (stable_did _).rely rely before

end Requests

theorem credentials_sound (env : Env) : Discipline.Sound (accounts env) credentials where
  keeps := fun _ _ _ numbered recorded moves timely scans =>
    recorded.moves numbered moves timely scans
  starts := fun w call w' _ _ _ _ _ => safe_call env w.next call w'
  forks := fun w _ _ forked w' _ _ _ _ _ _ => safe_call env w.next forked w'

/-! What is gone is not accepted. -/

theorem not_accepted_of_gone {state : State}
    (gone : ∀ entry ∈ state.sessions, entry.1 ≠ token) : ¬ SessionAccepted state token := by
  rintro ⟨headers, current, after, presented, runs⟩
  obtain ⟨username, _, resolved, _⟩ := Fallible.runs_bind_ok.1 runs
  rw [resolveCookieUsername, presented] at resolved
  obtain ⟨found, _, looked, rest⟩ := Fallible.runs_bind_ok.1 resolved
  obtain ⟨choice, result, eq, performed⟩ := runs_act.1 looked
  cases eq
  cases performed
  cases isFound : lookup state.sessions token with
  | none =>
      rw [isFound] at rest
      cases (Fallible.runs_throw.1 rest).1
  | some session => exact gone _ (mem_of_lookup isFound) rfl

theorem scannedBy_thread {scanner : Nat} (scanned : scannedBy event = some (scanner, username)) :
    event.thread = some scanner := by
  cases event with
  | act thread call action choice result => cases action <;> cases scanned; rfl
  | start _ _ | fork _ _ _ _ | finish _ _ _ | drop _ _ | restart => cases scanned

theorem changedBy_finish {changer : Nat} (changed : changedBy event = some (changer, username)) :
    ∃ call reply, event = .finish changer call reply := by
  cases event with
  | finish thread call reply =>
      cases call <;> cases reply <;> try cases changed
      obtain ⟨_, _, eq⟩ := Option.map_eq_some_iff.1 changed
      cases eq
      exact ⟨_, _, rfl⟩
  | start _ _ | fork _ _ _ _ | act _ _ _ _ _ | drop _ _ | restart => cases changed

/-- The scan of a request that has returned by now comes after every session that was issued on an
earlier check. -/
theorem Recorded.scan_after_issue (recorded : Recorded w)
    {front between older newest newer : List AuthMoment} {issue check change scan : AuthMoment}
    {login changer : Nat} (issuedAt : w.history = front ++ issue :: (between ++ check :: older))
    (isIssued : issuedBy issue.event = some (login, username, token))
    (isCheck : checkedBy check.event = some login)
    (changedAt : w.history = newest ++ change :: (newer ++ check :: older))
    (isChange : changedBy change.event = some (changer, username))
    (isScan : scannedBy scan.event = some (changer, username)) :
    scan ∉ between ++ check :: older := by
  have timely := recorded.timely front issue _ issuedAt login username token isIssued between check
    older rfl isCheck
  intro member
  rcases List.mem_append.1 member with later | rest
  · exact timely.1 scan later changer isScan
  rcases List.mem_cons.1 rest with rfl | earlier
  · cases eq : scan.event with
    | act thread call action choice result =>
        rw [eq] at isScan isCheck
        cases action <;> cases isScan
        cases call <;> cases isCheck
    | start _ _ | fork _ _ _ _ | finish _ _ _ | drop _ _ | restart =>
        rw [eq] at isScan
        cases isScan
  · obtain ⟨call, reply, finished⟩ := changedBy_finish isChange
    exact timely.2 scan earlier changer isScan call
      (recorded.chronicle.alive_between changedAt finished earlier (scannedBy_thread isScan))

theorem Recorded.oldSessionsEnded (recorded : Recorded w) : OldSessionsEnded w := by
  intro newest change newer check older changedAt changer username isChange login isCheck issue
    member token isIssued
  apply not_accepted_of_gone
  obtain ⟨scan, scanMember, isScan⟩ :=
    recorded.scanned newest change _ changedAt changer username isChange
  rcases List.mem_append.1 member with isNewest | rest
  · obtain ⟨front, between, rfl⟩ := List.append_of_mem isNewest
    have issuedAt : w.history = front ++ issue :: ((between ++ change :: newer) ++ check :: older) := by
      simpa using changedAt
    exact absurd (by simp_all) (recorded.scan_after_issue issuedAt isIssued isCheck changedAt isChange
      isScan)
  rcases List.mem_cons.1 rest with rfl | isNewer
  · obtain ⟨call, reply, finished⟩ := changedBy_finish isChange
    rw [finished] at isIssued
    cases isIssued
  · obtain ⟨front, between, rfl⟩ := List.append_of_mem isNewer
    have issuedAt : w.history =
        (newest ++ change :: front) ++ issue :: (between ++ check :: older) := by
      simpa using changedAt
    have notEarlier := recorded.scan_after_issue issuedAt isIssued isCheck changedAt isChange isScan
    have isFront : scan ∈ front ∨ scan = issue := by
      rcases List.mem_append.1 scanMember with later | earlier
      · rcases List.mem_append.1 later with inFront | inRest
        · exact .inl inFront
        rcases List.mem_cons.1 inRest with same | inBetween
        · exact .inr same
        · exact absurd (List.mem_append_left _ inBetween) notEarlier
      · exact absurd (List.mem_append_right _ earlier) notEarlier
    rcases isFront with inFront | rfl
    · obtain ⟨first, last, rfl⟩ := List.append_of_mem inFront
      have scannedAt : w.history = (newest ++ change :: first) ++ scan ::
          (last ++ issue :: (between ++ check :: older)) := by
        simpa using changedAt
      exact recorded.gone _ scan _ scannedAt changer username isScan issue (by simp) login token
        isIssued
    · cases eq : scan.event with
      | act thread call action choice result =>
          rw [eq] at isScan isIssued
          cases action <;> cases isScan
          cases isIssued
      | start _ _ | fork _ _ _ _ | finish _ _ _ | drop _ _ | restart =>
          rw [eq] at isScan
          cases isScan

/-- In every run whose logins are timely, changed credentials end the sessions issued on earlier
checks. -/
theorem changed_credentials_end_sessions (env : Env) (state : State) (cfg : AuthConfig)
    (reachable : Reachable (accounts env) (fun w event => Timely w.history event)
      (Config.idle state) cfg) : OldSessionsEnded cfg.world :=
  ((credentials_sound env).invariant (secure_idle (recorded_idle state)) reachable).oldSessionsEnded

/-! Runs that are played. -/

def timelyIn (thread : Nat) (username : String) : List AuthMoment → Bool
  | [] => true
  | moment :: older =>
      ((scannedBy moment.event).all fun scan => scan.2 ≠ username ||
        older.all fun past => checkedBy past.event ≠ some thread) &&
      (checkedBy moment.event ≠ some thread || older.all fun past =>
        (scannedBy past.event).all fun scan => scan.2 ≠ username ||
          moment.live.all fun entry => entry.1 ≠ scan.1) &&
      timelyIn thread username older

def isTimely (w : AuthWorld) (event : AuthEvent) : Bool :=
  (issuedBy event).all fun issue => timelyIn issue.1 issue.2.1 w.history

theorem timelyIn_apart {thread : Nat} {newer older : List AuthMoment} {check : AuthMoment}
    (checked : timelyIn thread username (newer ++ check :: older) = true)
    (isCheck : checkedBy check.event = some thread) :
    (∀ moment ∈ newer, ∀ other, scannedBy moment.event ≠ some (other, username)) ∧
      ∀ moment ∈ older, ∀ other, scannedBy moment.event = some (other, username) →
        ∀ call, (other, call) ∉ check.live := by
  induction newer with
  | nil =>
      simp only [List.nil_append, timelyIn, Bool.and_eq_true, Bool.or_eq_true, decide_eq_true_eq,
        List.all_eq_true] at checked
      refine ⟨by simp, ?_⟩
      intro moment member other scanned call live
      have quiet := (checked.1.2.resolve_left (not_not_intro isCheck)) moment member
      rw [scanned] at quiet
      simpa using (by simpa using quiet : ∀ a b, (a, b) ∈ check.live → a ≠ other) other call live
  | cons first newer ih =>
      simp only [List.cons_append, timelyIn, Bool.and_eq_true] at checked
      obtain ⟨noScan, quiet⟩ := ih checked.2
      refine ⟨?_, quiet⟩
      intro moment member other
      rcases List.mem_cons.1 member with rfl | later
      · intro scanned
        have apart := checked.1.1
        rw [scanned] at apart
        simp [isCheck] at apart
      · exact noScan moment later other

theorem timely_of_isTimely (w : AuthWorld) (event : AuthEvent) (checked : isTimely w event = true) :
    Timely w.history event := by
  intro thread username token isIssued newer check older eq isCheck
  rw [isTimely, isIssued, eq] at checked
  exact timelyIn_apart (by simpa using checked) isCheck

/-- Ada, an administrator who is signed in, and Bob. -/
def adaAndBob : State where
  db := {
    users := ⟨[⟨1, "ada", "secret", "admin", 0, 0⟩, ⟨2, "bob", "secret", "member", 0, 0⟩], 3,
      by decide, by decide, by decide⟩
    apiTokens := ∅
    hosts := ∅
    permissions := [] }
  sessions := [("ada-token", ⟨"ada", 0⟩)]
  loginAttempts := []
  issued := ["ada-token"]
  now := 0

def cookieHeader (token : String) : HeaderMap :=
  (buildHeaders [⟨"cookie", "berth_session=" ++ token⟩, ⟨"sec-fetch-site", "same-origin"⟩]).getD []

def bobLogsIn : Call := .login "192.0.2.1" "bob" "secret"

def adaSetsBobsPassword : Call :=
  .account "PATCH" (cookieHeader "ada-token") (.updateUser "bob" none (some "changed"))

/-- The whole request is served at once. -/
def setBobsPassword : List (Command Call Choice) :=
  .start adaSetsBobsPassword :: steps 1 13 ({ text := "salt" } : Choice)

/-- Bob's password is checked, then changed, and then his session is issued. -/
def checkedBeforeTheChange : List (Command Call Choice) :=
  .start bobLogsIn :: steps 0 3 ({} : Choice) ++ setBobsPassword ++ steps 0 3 ({ text := "bob-token" } : Choice)

def loggedInBeforeTheChange : List (Command Call Choice) :=
  .start bobLogsIn :: steps 0 7 ({ text := "bob-token" } : Choice) ++ setBobsPassword

def momentAt (history : List AuthMoment) (index : Nat) :
    Option (List AuthMoment × AuthMoment × List AuthMoment) :=
  match history.drop index with
  | [] => none
  | moment :: older => some (history.take index, moment, older)

theorem append_of_momentAt {history newer older : List AuthMoment} {index : Nat}
    {moment : AuthMoment} (split : momentAt history index = some (newer, moment, older)) :
    history = newer ++ moment :: older := by
  simp only [momentAt] at split
  split at split
  · cases split
  · rename_i eq
    cases split
    rw [← eq, List.take_append_drop]

/-- Bob's session is the newest event, and it is good. -/
def bobIsLetIn (w : AuthWorld) : Bool :=
  (momentAt w.history 3).any fun (newest, change, past) =>
    (momentAt past 13).any fun (_, check, _) =>
      changedBy change.event = some (1, "bob") && checkedBy check.event = some 0 &&
      newest.any (fun issue => issuedBy issue.event = some (0, "bob", "bob-token")) &&
      ((currentUser (cookieHeader "bob-token")).run.eval perform [({} : Choice), {}, {}]
        w.shared).any fun ran => ran.1.toOption.isSome

theorem accepted_of_eval {headers : HeaderMap} {choices : List Choice} {state after : State}
    {current : CurrentUser} (presented : cookieValue headers sessionCookie = some token)
    (evaluated : (currentUser headers).run.eval perform choices state = some (.ok current, after)) :
    SessionAccepted state token :=
  ⟨headers, current, after, presented, Program.runs_of_eval evaluated⟩

theorem not_ended_of_bobIsLetIn (letIn : bobIsLetIn w = true) : ¬ OldSessionsEnded w := by
  intro ended
  obtain ⟨⟨newest, change, past⟩, changeAt, letIn⟩ := (Option.any_eq_true _ _).1 letIn
  obtain ⟨⟨newer, check, older⟩, checkAt, letIn⟩ := (Option.any_eq_true _ _).1 letIn
  simp only [Bool.and_eq_true, decide_eq_true_eq, List.any_eq_true] at letIn
  obtain ⟨⟨⟨isChange, isCheck⟩, issue, member, isIssued⟩, ran⟩ := letIn
  obtain ⟨⟨outcome, after⟩, evaluated, isOk⟩ := (Option.any_eq_true _ _).1 ran
  cases outcome with
  | error err => simp [Except.toOption] at isOk
  | ok current =>
      refine ended newest change newer check older ?_ 1 "bob" isChange 0 isCheck issue
        (List.mem_append_left _ member) "bob-token" isIssued ?_
      · rw [append_of_momentAt changeAt, append_of_momentAt checkAt]
      · exact accepted_of_eval (by decide +kernel) evaluated

theorem session_outlives_change : ∃ cfg, Reachable (accounts ⟨.plain, 30⟩) (fun _ _ => True)
    (Config.idle adaAndBob) cfg ∧ ¬ OldSessionsEnded cfg.world := by
  have ran : (runChecked (accounts ⟨.plain, 30⟩) (fun _ _ => true) (Config.idle adaAndBob)
      checkedBeforeTheChange).any (fun cfg => bobIsLetIn cfg.world) = true := by decide +kernel
  obtain ⟨cfg, reachable, letIn⟩ := runChecked_any (fun _ _ _ => trivial) ran
  exact ⟨cfg, reachable, not_ended_of_bobIsLetIn letIn⟩

/-- A login before the change, in a run with both. -/
theorem changed_credentials_end_bobs_session : ∃ cfg : AuthConfig,
    cfg.history.any (fun moment => issuedBy moment.event = some (0, "bob", "bob-token")) = true ∧
      cfg.history.any (fun moment => changedBy moment.event = some (1, "bob")) = true ∧
        OldSessionsEnded cfg.world := by
  have ran : (runChecked (accounts ⟨.plain, 30⟩) isTimely (Config.idle adaAndBob)
      loggedInBeforeTheChange).any (fun cfg =>
        cfg.history.any (fun moment => issuedBy moment.event = some (0, "bob", "bob-token")) &&
          cfg.history.any fun moment => changedBy moment.event = some (1, "bob")) = true := by
    decide +kernel
  obtain ⟨cfg, reachable, both⟩ := runChecked_any timely_of_isTimely ran
  obtain ⟨issued, changed⟩ := Bool.and_eq_true_iff.1 both
  exact ⟨cfg, issued, changed, changed_credentials_end_sessions _ _ _ reachable⟩

end Berth.Auth
