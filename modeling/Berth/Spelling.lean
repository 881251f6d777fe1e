import Mathlib.Data.Set.Finite.Basic
import Berth.Agreement
import Berth.Auth.Requests
import Berth.EnvVars
import Berth.Session.LogFollow

/-!
The operations that take the id of a deployment as a text, and what two texts that stand for the
same id make of one state. The text is parsed to look the row up; directories, log pumps and the
agent know the deployment by the text itself.
-/

namespace Berth

open Interleave Interleave.Fallible

/-! The handlers that show logs. -/

/-- What the log handlers look at: which phase is being pumped for a deployment, the files of its
directory, and how the operating system refuses to read the logs of a phase, if it does. -/
structure LogStore where
  registry : String → Option LogFollow.LogKind
  files : Path → LogFollow.Dir
  refused : Path → LogFollow.LogKind → Option IoError

def LogStore.readBacklog (store : LogStore) (dir : Path) (kind : LogFollow.LogKind) :
    AppResult Bytes :=
  match store.refused dir kind with
  | some err => .error (.io err)
  | none => .ok (LogFollow.readBacklog (store.files dir) kind)

/-- The body is the backlog, and after it what is broadcast if `live`. -/
structure LogsResponse where
  follow : Bool
  backlog : Bytes
  live : Bool

/-- The phase that is shown when none is asked for. -/
def LogStore.currentPhase (store : LogStore) (dir : Path) (deploymentId : String) :
    Option LogFollow.LogKind :=
  match store.registry deploymentId with
  | some kind => some kind
  | none => LogFollow.resolveTerminalPhase (store.files dir)

def deploymentLogs (store : LogStore) (appId id : String) (logsQuery : LogFollow.LogsQuery) :
    AsyncResult LogsResponse := do
  let _ ← getDeployment appId id
  let app ← getAppById appId
  let dir := deploymentDir app.id id
  let kind ← match logsQuery.phase with
    | some kind => pure kind
    | none =>
        match store.currentPhase dir id with
        | some kind => pure kind
        | none => throw (.noContainer id)
  let backlog ← liftResult (store.readBacklog dir kind)
  pure ⟨logsQuery.follow, backlog, logsQuery.follow && decide (store.registry id = some kind)⟩

def PermissionLevel.satisfies : PermissionLevel → PermissionLevel → Bool
  | .write, _ | .read, .read => true
  | .read, .write => false

def App.hasPermission (app : App) (username : String) (required : PermissionLevel) : Bool :=
  app.permissions.any fun grant => grant.username = username && grant.level.satisfies required

def PermissionLevel.text : PermissionLevel → String
  | read => "read"
  | write => "write"

def checkAppPermission (user : Auth.CurrentUser) (app : App) (required : PermissionLevel) :
    AppResult Unit :=
  match user.role with
  | .admin => .ok ()
  | .member =>
      if app.hasPermission user.username required then .ok ()
      else .error (.forbidden ("you don't have " ++ required.text ++ " access to this app"))

/-- A tool of the MCP server answers an error with its text. -/
def asText {α : Type} (program : AsyncResult α) : Fallible Act Act.Res Call String α :=
  ExceptT.mk do
    let outcome ← program.run
    pure (outcome.mapError AppError.toString)

/-- The MCP tool; `fromUtf8Lossy` is `String::from_utf8_lossy`. -/
def getDeploymentLogs (fromUtf8Lossy : Bytes → String) (store : LogStore) (user : Auth.CurrentUser)
    (appId deploymentId : String) : Fallible Act Act.Res Call String String := do
  let app ← asText (getAppById appId)
  asText (liftResult (checkAppPermission user app .read))
  let _ ← asText (getDeployment appId deploymentId)
  let dir := deploymentDir app.id deploymentId
  match store.currentPhase dir deploymentId with
  | none => throw "no logs recorded for this deployment yet"
  | some kind =>
      let backlog ← asText (liftResult (store.readBacklog dir kind))
      pure (fromUtf8Lossy backlog)

/-! The operations. -/

inductive Operation where
  | getDeployment
  | activateWithContainers
  | deleteDeploymentWithContainers
  | deploymentLogs (logsQuery : LogFollow.LogsQuery)
  | getDeploymentLogs (user : Auth.CurrentUser)

def Operation.Result : Operation → Type
  | getDeployment => AppResult Deployment
  | activateWithContainers | deleteDeploymentWithContainers => AppResult Unit
  | deploymentLogs _ => AppResult LogsResponse
  | getDeploymentLogs _ => Except String String

/-- What the operations work on besides the state of the hub. -/
structure Surroundings where
  store : LogStore
  fromUtf8Lossy : Bytes → String

def Operation.body (env : Surroundings) (appId deploymentId : String) :
    (operation : Operation) → Async operation.Result
  | getDeployment => (Berth.getDeployment appId deploymentId).run
  | activateWithContainers => (Berth.activateWithContainers appId deploymentId).run
  | deleteDeploymentWithContainers => (Berth.deleteDeploymentWithContainers appId deploymentId).run
  | deploymentLogs logsQuery => (Berth.deploymentLogs env.store appId deploymentId logsQuery).run
  | getDeploymentLogs user =>
      (Berth.getDeploymentLogs env.fromUtf8Lossy env.store user appId deploymentId).run

/-- Nobody is in the middle of a call: the write lock is free. -/
def State.atRest (state : State) : State := { state with lock := none }

/-- From the state at rest, the operation ends with the same results in the same states, whichever
of the two texts it is given. -/
def Interchangeable (env : Surroundings) (thread : Nat) (state : State) (appId left right : String)
    (operation : Operation) : Prop :=
  Program.Same (perform thread) state.atRest (operation.body env appId left)
    (operation.body env appId right)

variable {thread : Nat} {state after : State} {appText text left right : String} {id : Uuid}
variable {env : Surroundings}

/-! What depends on the id alone. -/

theorem findDeploymentRow_spelled (parsed : Uuid.parseStr text = some id) (appId : Uuid) :
    findDeploymentRow appId text = findDeploymentRow appId id.toString := by
  unfold findDeploymentRow
  rw [parsed, Uuid.parseStr_toString]

theorem getDeployment_spelled (parsed : Uuid.parseStr text = some id) :
    getDeployment appText text = getDeployment appText id.toString := by
  unfold getDeployment
  simp only [findDeploymentRow_spelled parsed]

theorem containerNameOf_spelled (parsed : Uuid.parseStr text = some id) :
    containerNameOf appText text = containerNameOf appText id.toString := by
  unfold containerNameOf
  rw [getDeployment_spelled parsed]

theorem activateDeployment_spelled (parsed : Uuid.parseStr text = some id) :
    activateDeployment appText text = activateDeployment appText id.toString := by
  unfold activateDeployment setActive
  simp only [findDeploymentRow_spelled parsed]

/-! What lookups find. -/

theorem perform_looks {action : Act} {choice : Choice} {result : action.Res} (looks : action.Looks)
    (performed : perform thread action choice state = some (result, after)) : after = state := by
  cases action with
  | query q =>
      rcases perform_query performed with ⟨_, _, rfl⟩ | ⟨_, _, executed, _, rfl⟩
      · rfl
      · rw [(Database.exec_read looks executed)]
  | encrypt _ | decrypt _ =>
      cases performed
      rfl
  | _ => exact looks.elim

/-- Looking something up changes nothing. -/
theorem runs_looks {α : Type} {program : Async α} {value : α}
    (uses : program.Uses Act.Looks fun _ => False)
    (runs : program.Runs (perform thread) state value after) : after = state :=
  runs.keeps uses (fun _ _ _ _ _ looks performed same =>
    (perform_looks looks performed).trans same) rfl

theorem runs_findDeploymentRow {appId : Uuid} {row : DeploymentRow}
    (parsed : Uuid.parseStr text = some id)
    (runs : Program.Runs (perform thread) (findDeploymentRow appId text).run state (.ok row) after) :
    state.db.deployment? id = some row ∧ row.appId = appId := by
  unfold findDeploymentRow at runs
  rw [parsed] at runs
  obtain ⟨found, _, read, last⟩ := runs_bind_ok.1 runs
  rcases runs_hubQuery read with ⟨_, eq, _⟩ | ⟨_, db, eq, executed, _⟩
  · cases eq
  cases eq
  cases found with
  | none => cases last.1
  | some other =>
      cases last.1
      have there := (Prod.mk.inj (Option.some.inj executed)).1
      obtain ⟨there, inApp⟩ := Option.filter_eq_some_iff.1 there
      exact ⟨there, by simpa using inApp⟩

/-- The app has a deployment with this id. -/
def HasDeployment (db : Database) (appText : String) (id : Uuid) : Prop :=
  ∃ app row, Uuid.parseStr appText = some app.id ∧ db.app? app.id = some app ∧
    db.deployment? id = some row ∧ row.appId = app.id

theorem runs_getDeployment {deployment : Deployment} (parsed : Uuid.parseStr text = some id)
    (runs : Program.Runs (perform thread) (getDeployment appText text).run state (.ok deployment)
      after) : HasDeployment state.db appText id := by
  obtain ⟨app, between, first, rest⟩ := runs_bind_ok.1 runs
  obtain ⟨row, _, second, _⟩ := runs_bind_ok.1 rest
  obtain ⟨rfl, appParsed, there⟩ := runs_findAppRowById first
  obtain ⟨found, inApp⟩ := runs_findDeploymentRow parsed second
  exact ⟨app, row, appParsed, there, found, inApp⟩

theorem runs_getAppById {outcome : AppResult App}
    (runs : Program.Runs (perform thread) (getAppById appText).run state outcome after) :
    after = state := runs_looks (takes_getAppById looks_looks appText) runs

theorem runs_removeDeploymentRow {appId : Uuid} (parsed : Uuid.parseStr text = some id)
    (runs : Program.Runs (perform thread) (removeDeploymentRow appText text).run state (.ok appId)
      after) : HasDeployment state.db appText id := by
  obtain ⟨app, _, first, rest⟩ := runs_bind_ok.1 runs
  obtain ⟨rfl, appParsed, there⟩ := runs_findAppRowById first
  obtain ⟨_, between, guarded, rest⟩ := runs_bind_ok.1 rest
  cases runs_looks (takes_requireInactive app text) guarded
  obtain ⟨row, _, second, _⟩ := runs_bind_ok.1 rest
  obtain ⟨found, inApp⟩ := runs_findDeploymentRow parsed second
  exact ⟨app, row, appParsed, there, found, inApp⟩

theorem runs_deleteDeployment (parsed : Uuid.parseStr text = some id)
    (runs : Program.Runs (perform thread) (deleteDeployment appText text).run state (.ok ()) after) :
    HasDeployment state.db appText id := by
  obtain ⟨appId, _, removed, _⟩ := runs_bind_ok.1 runs
  obtain ⟨locked, _, ran, db, _⟩ := runs_withWriteLock removed
  exact db ▸ runs_removeDeploymentRow parsed ran

theorem runs_asText {α : Type} {program : AsyncResult α} {value : α}
    (runs : Program.Runs (perform thread) (asText program).run state (.ok value) after) :
    Program.Runs (perform thread) program.run state (.ok value) after := by
  obtain ⟨outcome, between, first, last⟩ := Program.runs_bind.1 runs
  cases outcome with
  | ok result =>
      obtain ⟨eq, rfl⟩ := last
      cases eq
      exact first
  | error err => cases last.1

/-! Texts that are not told apart. -/

/-- What `delete_deployment` compares: the text is that of the app's active id. -/
def IsActiveText (db : Database) (appText text : String) : Prop :=
  ∃ app, Uuid.parseStr appText = some app.id ∧ db.app? app.id = some app ∧
    app.activeDeploymentId.map Uuid.toString = some text

section Absent

variable (isLeft : Uuid.parseStr left = some id) (isRight : Uuid.parseStr right = some id)

theorem same_withWriteLock {α : Type} {body body' : AsyncResult α}
    (same : ∀ locked : State, locked.db = state.db →
      Program.Same (perform thread) locked body.run body'.run) :
    Program.Same (perform thread) state (withWriteLock body).run (withWriteLock body').run := by
  refine Program.same_bind Program.same_refl fun _ locked locking => ?_
  refine Program.same_bind (same locked ?_) fun _ _ _ => Program.same_refl
  obtain ⟨choice, performed⟩ := Program.runs_perform.1 locking
  simp only [perform] at performed
  split at performed <;> cases performed
  rfl

include isLeft isRight

theorem getDeployment_same :
    Program.Same (perform thread) state (getDeployment appText left).run
      (getDeployment appText right).run := by
  rw [getDeployment_spelled isLeft, getDeployment_spelled isRight]
  exact Program.same_refl

theorem removeDeploymentRow_same
    (guarded : IsActiveText state.db appText left ↔ IsActiveText state.db appText right) :
    Program.Same (perform thread) state (removeDeploymentRow appText left).run
      (removeDeploymentRow appText right).run := by
  refine same_bind Program.same_refl fun app after runs => ?_
  obtain ⟨rfl, parsed, there⟩ := runs_findAppRowById runs
  have isActive : ∀ text, IsActiveText after.db appText text ↔
      app.activeDeploymentId.map Uuid.toString = some text := by
    intro text
    refine ⟨fun ⟨other, parsed', there', active⟩ => ?_, fun active => ⟨app, parsed, there, active⟩⟩
    rw [parsed] at parsed'
    rw [← Option.some.inj parsed', there] at there'
    exact Option.some.inj there' ▸ active
  rw [isActive, isActive] at guarded
  have same : requireInactive app left = requireInactive app right := by
    unfold requireInactive
    by_cases active : app.activeDeploymentId.map Uuid.toString = some left
    · rw [if_pos active, if_pos (guarded.1 active)]
    · rw [if_neg active, if_neg fun other => active (guarded.2 other)]
  rw [same, findDeploymentRow_spelled isLeft, findDeploymentRow_spelled isRight]
  exact Program.same_refl

variable (absent : ¬ HasDeployment state.db appText id)
include absent

theorem startIfRun_same (app : App) :
    Program.Same (perform thread) state (startIfRun app appText left).run
      (startIfRun app appText right).run := by
  unfold startIfRun
  split
  · refine same_bind (getDeployment_same isLeft isRight) fun deployment after runs => ?_
    exact absurd (runs_getDeployment isLeft runs) absent
  · exact Program.same_refl

theorem activateWithContainers_same :
    Program.Same (perform thread) state (activateWithContainers appText left).run
      (activateWithContainers appText right).run := by
  refine same_bind Program.same_refl fun app after runs => ?_
  cases runs_getAppById runs
  refine same_bind (startIfRun_same isLeft isRight absent app) fun _ _ _ => ?_
  rw [activateDeployment_spelled isLeft, activateDeployment_spelled isRight]
  exact Program.same_refl

theorem deleteDeploymentWithContainers_same
    (guarded : IsActiveText state.db appText left ↔ IsActiveText state.db appText right) :
    Program.Same (perform thread) state (deleteDeploymentWithContainers appText left).run
      (deleteDeploymentWithContainers appText right).run := by
  refine same_bind Program.same_refl fun app after runs => ?_
  cases runs_getAppById runs
  rw [containerNameOf_spelled isLeft, containerNameOf_spelled isRight]
  refine same_bind Program.same_refl fun containerName after runs => ?_
  cases runs_looks (takes_containerNameOf looks_looks appText id.toString) runs
  refine same_bind ?_ fun _ after runs => absurd (runs_deleteDeployment isLeft runs) absent
  refine same_bind (same_withWriteLock fun locked db => ?_) fun appId after runs => ?_
  · exact removeDeploymentRow_same isLeft isRight (db ▸ guarded)
  · obtain ⟨locked, _, ran, db, _⟩ := runs_withWriteLock runs
    exact absurd (db ▸ runs_removeDeploymentRow isLeft ran) absent

theorem deploymentLogs_same (store : LogStore) (logsQuery : LogFollow.LogsQuery) :
    Program.Same (perform thread) state (deploymentLogs store appText left logsQuery).run
      (deploymentLogs store appText right logsQuery).run :=
  same_bind (getDeployment_same isLeft isRight) fun _ _ runs =>
    absurd (runs_getDeployment isLeft runs) absent

theorem getDeploymentLogs_same (fromUtf8Lossy : Bytes → String) (store : LogStore)
    (user : Auth.CurrentUser) :
    Program.Same (perform thread) state
      (getDeploymentLogs fromUtf8Lossy store user appText left).run
      (getDeploymentLogs fromUtf8Lossy store user appText right).run := by
  refine same_bind Program.same_refl fun app after runs => ?_
  cases runs_getAppById (runs_asText runs)
  refine same_bind Program.same_refl fun _ after runs => ?_
  cases (runs_liftStored.1 (runs_asText runs)).2
  refine same_bind (Program.same_bind (getDeployment_same isLeft isRight)
    fun _ _ _ => Program.same_refl) fun _ _ runs => ?_
  exact absurd (runs_getDeployment isLeft (runs_asText runs)) absent

end Absent

/-! What a deletion answers. -/

/-- The errors of a deletion that are about the deployment. -/
def AppError.IsRefusal : AppError → Prop
  | .deleteActiveDeployment | .deploymentNotFound _ => True
  | _ => False

section Errors

variable {errs : AppError → Prop} (others : ∀ err : AppError, ¬ err.IsRefusal → errs err)

theorem raises_withWriteLock {α : Type} {body : AsyncResult α}
    (raises : Raises (perform thread) errs body) :
    Raises (perform thread) errs (withWriteLock body) := by
  intro state err after runs
  obtain ⟨locked, _, ran, _⟩ := runs_withWriteLock runs
  exact raises locked err _ ran

include others

theorem raises_query (q : Query) : Raises (perform thread) errs (query q) := by
  intro state err after runs
  rcases runs_hubQuery runs with ⟨_, eq, _⟩ | ⟨_, _, eq, _⟩
  · cases eq
    exact others _ id
  · cases eq

theorem raises_findAppRowById (appText : String) :
    Raises (perform thread) errs (findAppRowById appText) := by
  unfold findAppRowById
  split
  · exact raises_throw (others _ id)
  · refine raises_bind (raises_query others _) fun found => ?_
    cases found with
    | none => exact raises_throw (others _ id)
    | some row => exact raises_pure row

theorem raises_getAppById (appText : String) :
    Raises (perform thread) errs (getAppById appText) := by
  refine raises_bind (raises_findAppRowById others appText) fun row => ?_
  refine raises_bind (raises_bind (raises_query others _) fun rows => ?_) fun _ => raises_pure _
  exact raises_bind (raises_query others _) fun _ => raises_pure _

theorem raises_findDeploymentRow (parsed : Uuid.parseStr text = some id)
    (missing : errs (.deploymentNotFound id.toString)) (appId : Uuid) :
    Raises (perform thread) errs (findDeploymentRow appId text) := by
  unfold findDeploymentRow
  rw [parsed]
  refine raises_bind (raises_query others _) fun found => ?_
  cases found with
  | none => exact raises_throw missing
  | some row => exact raises_pure row

theorem raises_removeDeploymentRow (parsed : Uuid.parseStr text = some id)
    (missing : errs (.deploymentNotFound id.toString))
    (guarded : ∀ app, Raises (perform thread) errs (requireInactive app text)) :
    Raises (perform thread) errs (removeDeploymentRow appText text) := by
  refine raises_bind (raises_findAppRowById others appText) fun app => ?_
  refine raises_bind (guarded app) fun _ => ?_
  refine raises_bind (raises_findDeploymentRow others parsed missing app.id) fun row => ?_
  exact raises_bind (raises_query others _) fun _ => raises_pure _

omit others in
theorem rename_raises {source target : Path} {err : AppError}
    (runs : Program.Runs (perform thread) (rename source target).run state (.error err) after) :
    ∃ failure, err = .io failure := by
  obtain ⟨choice, performed⟩ := Program.runs_perform.1 runs
  have ran := Option.some.inj performed
  unfold State.rename at ran
  repeat' split at ran
  all_goals cases ran
  all_goals exact ⟨_, rfl⟩

theorem raises_removeDirAll (path : Path) : Raises (perform thread) errs (removeDirAll path) := by
  intro state err after runs
  obtain ⟨choice, performed⟩ := Program.runs_perform.1 runs
  have ran := Option.some.inj performed
  unfold State.removeDirAll at ran
  repeat' split at ran
  all_goals cases ran
  all_goals exact others _ id

/-- A directory that is not there is reported under the text of the request. -/
theorem raises_deleteDeploymentDir (missing : errs (.deploymentNotFound text)) (appId : Uuid) :
    Raises (perform thread) errs (deleteDeploymentDir appId text) := by
  refine raises_bind (raises_lift _) fun staging state err after runs => ?_
  obtain ⟨moved, between, renamed, rest⟩ := runs_attempt_bind.1 runs
  rcases runs_bind.1 rest with ⟨_, failed, eq⟩ | ⟨_, _, _, last⟩
  · cases eq
    have reported := (runs_liftStored.1 failed).1
    cases moved with
    | ok _ => cases reported
    | error raised =>
        obtain ⟨failure, rfl⟩ := rename_raises renamed
        cases reported
        simp only [asDeploymentNotFound]
        split
        · exact missing
        · exact others _ id
  · exact raises_removeDirAll others _ _ _ _ last

theorem raises_ask (host : Int) (request : Request) :
    Raises (perform thread) errs (ask host request) := by
  intro state err after runs
  obtain ⟨choice, performed⟩ := Program.runs_perform.1 runs
  have unheard : ∀ timedOut, errs (noReply request timedOut) := by
    intro timedOut
    unfold noReply
    repeat' split
    all_goals exact others _ id
  rcases ask_cases (Option.some.inj performed) with
    ⟨_, eq⟩ | ⟨_, eq, _⟩ | ⟨_, _, eq, _⟩ | ⟨_, _, eq, _⟩
  · cases eq
    exact others _ id
  · cases eq
  · cases eq
    exact unheard _
  · cases eq
    exact unheard _

theorem raises_command {α : Type} {toAppError : AgentError → AppError}
    (plain : ∀ err, ¬ (toAppError err).IsRefusal) {reply : AsyncResult (Except AgentError α)}
    (raises : Raises (perform thread) errs reply) :
    Raises (perform thread) errs (command toAppError reply) := by
  refine raises_bind raises fun outcome => ?_
  cases outcome with
  | ok value => exact raises_pure value
  | error err => exact raises_throw (others _ (plain err))

theorem raises_removeFromAgent (host : Int) (containerName : Option String) :
    Raises (perform thread) errs (removeFromAgent host text containerName) := by
  cases containerName with
  | none => exact raises_pure ()
  | some name =>
      refine raises_bind (raises_command others (fun err => ?_) (raises_ask others _ _))
        fun _ => raises_command others (fun err => ?_) (raises_ask others _ _)
      · unfold agentError
        split <;> exact id
      · unfold fsAgentError
        split <;> exact id

omit others in
theorem raises_containerNameOf : Raises (perform thread) errs (containerNameOf appText text) := by
  refine raises_bind (raises_attempt _) fun found => ?_
  cases found <;> exact raises_pure _

theorem raises_deleteDeploymentWithContainers (parsed : Uuid.parseStr text = some id)
    (missing : ∀ text', text' = text ∨ text' = id.toString → errs (.deploymentNotFound text'))
    (guarded : ∀ app, Raises (perform thread) errs (requireInactive app text)) :
    Raises (perform thread) errs (deleteDeploymentWithContainers appText text) := by
  refine raises_bind (raises_getAppById others appText) fun app => ?_
  refine raises_bind raises_containerNameOf fun containerName => ?_
  refine raises_bind ?_ fun _ => raises_removeFromAgent others app.hostId containerName
  have removing : Raises (perform thread) errs (removeDeploymentRow appText text) :=
    raises_removeDeploymentRow others parsed (missing _ (.inr rfl)) guarded
  exact raises_bind (raises_withWriteLock removing) fun appId =>
    raises_deleteDeploymentDir others (missing _ (.inl rfl)) appId

end Errors

/-! Texts that are told apart. -/

theorem runs_query_error (q : Query) (message : String) :
    Program.Runs (perform thread) (query q).run state (.error (.db message)) state :=
  Program.runs_perform.2 ⟨{ failure := some message }, rfl⟩

theorem runs_withWriteLock_of {α : Type} {body : AsyncResult α} {outcome : AppResult α}
    (isFree : state.lock = none)
    (runs : Program.Runs (perform thread) body.run { state with lock := some thread } outcome after) :
    ∃ unlocked : State, unlocked.files = after.files ∧ unlocked.stagers = after.stagers ∧
      Program.Runs (perform thread) (withWriteLock body).run state outcome unlocked := by
  refine ⟨{ after with lock := if after.lock = some thread then none else after.lock }, rfl, rfl, ?_⟩
  have locking : Program.Runs (perform thread) (act .lock) state () { state with lock := some thread } :=
    Program.runs_perform.2 ⟨{}, by simp [perform, isFree]⟩
  have unlocking : Program.Runs (perform thread) (act .unlock) after ()
      { after with lock := if after.lock = some thread then none else after.lock } :=
    Program.runs_perform.2 ⟨{}, rfl⟩
  exact Program.runs_bind.2 ⟨_, _, locking, Program.runs_bind.2 ⟨_, _, runs,
    Program.runs_bind.2 ⟨_, _, unlocking, rfl, rfl⟩⟩⟩

section Found

variable {app : AppRow} (thread : Nat) (parsed : Uuid.parseStr appText = some app.id)
include parsed

theorem runs_findAppRowById_of (there : state.db.app? app.id = some app) :
    Program.Runs (perform thread) (findAppRowById appText).run state (.ok app) state := by
  unfold findAppRowById
  rw [parsed]
  have executed : state.db.exec (.appById app.id) = some (some app, state.db) := by
    simp only [Database.exec, there]
    rfl
  exact runs_bind_ok.2 ⟨_, _, runs_of_exec executed, rfl, rfl⟩

theorem runs_getAppById_of (there : state.db.app? app.id = some app) :
    ∃ found, Program.Runs (perform thread) (getAppById appText).run state (.ok found) state := by
  obtain ⟨found, permissions⟩ := runs_permissions app
  exact ⟨found, runs_bind_ok.2 ⟨app, state, runs_findAppRowById_of thread parsed there, permissions⟩⟩

/-- The lookup of the container's name may fail, and then there is none. -/
theorem runs_containerNameOf_none (state : State) (text : String) :
    Program.Runs (perform thread) (containerNameOf appText text).run state (.ok none) state := by
  have failed : Program.Runs (perform thread) (findAppRowById appText).run state
      (.error (.db "")) state := by
    unfold findAppRowById
    rw [parsed]
    exact runs_bind.2 (.inl ⟨_, runs_query_error _ "", rfl⟩)
  have lookup : Program.Runs (perform thread) (getDeployment appText text).run state
      (.error (.db "")) state := runs_bind.2 (.inl ⟨_, failed, rfl⟩)
  exact runs_attempt_bind.2 ⟨_, _, lookup, rfl, rfl⟩

end Found

/-- No active id has any other text than its own. -/
theorem requireInactive_spelled (parsed : Uuid.parseStr text = some id)
    (other : text ≠ id.toString) (app : AppRow) : requireInactive app text = pure () := by
  refine if_neg fun active => ?_
  obtain ⟨activeId, _, rfl⟩ := Option.map_eq_some_iff.1 active
  rw [Uuid.parseStr_toString] at parsed
  exact other (congrArg Uuid.toString (Option.some.inj parsed))

theorem exists_unused (files : FileTree Component) (label : String) (seq : Nat) :
    ∃ number, ¬ files.Has (tmpDir ++ [.staged label number seq none]) := by
  have infinite : (Set.range fun number => tmpDir ++ [Component.staged label number seq none]).Infinite :=
    Set.infinite_range_of_injective fun left right same => by simpa using same
  obtain ⟨_, ⟨number, rfl⟩, unused⟩ := infinite.exists_notMem_finite (List.finite_toSet files.paths)
  exact ⟨number, unused⟩

section Renaming

variable {source target : Path} (unused : ¬ state.files.Has target)
include unused

theorem runs_rename_ok (has : state.files.Has source) (hasParent : state.files.HasParent target) :
    Program.Runs (perform thread) (rename source target).run state (.ok ())
      (state.withFiles (state.files.move source target)) := by
  have renamed : state.rename source target {} =
      (.ok (), state.withFiles (state.files.move source target)) := by
    simp only [State.rename, has, hasParent, unused, not_true_eq_false, if_false]
  exact Program.runs_perform.2 ⟨{}, congrArg some renamed⟩

theorem runs_rename_notFound (missing : ¬ (state.files.Has source ∧ state.files.HasParent target)) :
    Program.Runs (perform thread) (rename source target).run state (.error notFound) state := by
  have failed : state.rename source target {} = (.error notFound, state) := by
    by_cases has : state.files.Has source
    · have noParent : ¬ state.files.HasParent target := fun hasParent => missing ⟨has, hasParent⟩
      simp only [State.rename, has, noParent, unused, not_true_eq_false, not_false_eq_true, if_true,
        if_false]
    · simp only [State.rename, has, not_false_eq_true, if_true]
  exact Program.runs_perform.2 ⟨{}, congrArg some failed⟩

end Renaming

theorem runs_removeDirAll_of {path : Path} (has : state.files.Has path) :
    Program.Runs (perform thread) (removeDirAll path).run state (.ok ())
      (state.withFiles (state.files.removeBelow path [])) := by
  have removed : state.removeDirAll path {} =
      (.ok (), state.withFiles (state.files.removeBelow path [])) := by
    simp only [State.removeDirAll, has, not_true_eq_false, if_false]
  exact Program.runs_perform.2 ⟨{}, congrArg some removed⟩

/-- A deletion can come to an end that tells which text it was asked with. -/
theorem runs_deleteDeploymentDir_of (thread : Nat) (state : State) (appId : Uuid) (text : String) :
    ∃ outcome after,
    Program.Runs (perform thread) (deleteDeploymentDir appId text).run state outcome after ∧
      (outcome = .error (.deploymentNotFound text) ∨ outcome = .ok () ∧
        state.files.Has (deploymentDir appId.toString text) ∧
        ¬ after.files.Has (deploymentDir appId.toString text)) := by
  let dir := deploymentDir appId.toString text
  obtain ⟨number, unused⟩ := exists_unused state.files "deleted-deployment" state.stagers.length
  let staging : Path :=
    tmpDir ++ [.staged "deleted-deployment" number state.stagers.length none]
  let drawn : State := { state with stagers := state.stagers ++ [thread] }
  have draws : Program.Runs (perform thread) (act (.uniqueTmpPath "deleted-deployment" none)) state
      staging drawn := Program.runs_perform.2 ⟨{ number }, rfl⟩
  by_cases there : state.files.Has dir ∧ state.files.HasParent staging
  · let moved := drawn.withFiles (state.files.move dir staging)
    have renames : Program.Runs (perform thread) (rename dir staging).run drawn (.ok ()) moved :=
      runs_rename_ok unused there.1 there.2
    have has : moved.files.Has staging := FileTree.has_move.2 (.inl List.prefix_rfl)
    let removed := moved.withFiles (moved.files.removeBelow staging [])
    have removes : Program.Runs (perform thread) (removeDirAll staging).run moved (.ok ()) removed :=
      runs_removeDirAll_of has
    have finishes : Program.Runs (perform thread) (deleteDeploymentDir appId text).run state (.ok ())
        removed := runs_lift_bind.2 ⟨staging, drawn, draws, runs_attempt_bind.2
          ⟨.ok (), moved, renames, runs_bind_ok.2 ⟨(), moved, ⟨rfl, rfl⟩, removes⟩⟩⟩
    have gone : ¬ removed.files.Has dir := by
      intro still
      rcases FileTree.has_move.1 (FileTree.has_removeBelow.1 still).1 with
        above | ⟨_, outside⟩ | ⟨rest, same, _⟩
      · simp [dir, deploymentDir, deploymentsDir, appDir, appsDir, staging, tmpDir] at above
      · exact outside List.prefix_rfl
      · simp [dir, deploymentDir, deploymentsDir, appDir, appsDir, staging, tmpDir] at same
    exact ⟨.ok (), removed, finishes, .inr ⟨rfl, there.1, gone⟩⟩
  · have renames : Program.Runs (perform thread) (rename dir staging).run drawn (.error notFound)
        drawn := runs_rename_notFound unused there
    have reported : Program.Runs (perform thread) (liftResult
        (Except.mapError (asDeploymentNotFound text) (.error notFound) : AppResult Unit)).run drawn
        (.error (.deploymentNotFound text)) drawn := ⟨rfl, rfl⟩
    refine ⟨.error (.deploymentNotFound text), drawn, ?_, .inl rfl⟩
    exact runs_lift_bind.2 ⟨staging, drawn, draws, runs_attempt_bind.2
      ⟨.error notFound, drawn, renames, runs_bind.2 (.inl ⟨_, reported, rfl⟩)⟩⟩

/-- A deletion that is not about the active deployment as it is written finds the row. -/
theorem runs_removeDeploymentRow_of (thread : Nat) (has : HasDeployment state.db appText id)
    (isText : Uuid.parseStr text = some id) (other : text ≠ id.toString) : ∃ appId after,
    Program.Runs (perform thread) (removeDeploymentRow appText text).run state (.ok appId) after ∧
      after.files = state.files := by
  obtain ⟨app, row, parsed, there, found, inApp⟩ := has
  have finds : Program.Runs (perform thread) (findDeploymentRow app.id text).run state (.ok row)
      state := by
    unfold findDeploymentRow
    rw [isText]
    have executed : state.db.exec (.deploymentById id app.id) = some (some row, state.db) := by
      simp only [Database.exec, found, Option.filter, inApp, decide_true, if_true]
      rfl
    exact runs_bind_ok.2 ⟨some row, state, runs_of_exec executed, rfl, rfl⟩
  obtain ⟨db, executed⟩ : ∃ db, state.db.exec (.deleteDeployment row.id) = some ((), db) :=
    ⟨_, rfl⟩
  refine ⟨app.id, { state with db }, ?_, rfl⟩
  refine runs_bind_ok.2 ⟨app, state, runs_findAppRowById_of thread parsed there, ?_⟩
  rw [requireInactive_spelled isText other]
  refine runs_bind_ok.2 ⟨(), state, ⟨rfl, rfl⟩, runs_bind_ok.2 ⟨row, state, finds, ?_⟩⟩
  exact runs_bind_ok.2 ⟨(), _, runs_of_exec executed, rfl, rfl⟩

theorem runs_deletion_of (thread : Nat) (has : HasDeployment state.db appText id) (isFree : state.lock = none)
    (isText : Uuid.parseStr text = some id) (other : text ≠ id.toString) : ∃ appId outcome after,
    Program.Runs (perform thread) (deleteDeploymentWithContainers appText text).run state outcome
      after ∧ (outcome = .error (.deploymentNotFound text) ∨
        state.files.Has (deploymentDir appId text) ∧ ¬ after.files.Has (deploymentDir appId text)) := by
  have ⟨app, _, parsed, there, _⟩ := has
  obtain ⟨found, finds⟩ := runs_getAppById_of thread parsed there
  have names := runs_containerNameOf_none thread parsed state text
  let held : State := { state with lock := some thread }
  have inHeld : HasDeployment held.db appText id := has
  obtain ⟨appId, locked, removes, sameFiles⟩ := runs_removeDeploymentRow_of thread inHeld isText other
  obtain ⟨unlocked, files, _, unlocks⟩ := runs_withWriteLock_of isFree removes
  obtain ⟨outcome, after, moves, result⟩ := runs_deleteDeploymentDir_of thread unlocked
    appId text
  rw [files, sameFiles] at result
  have deletes : Program.Runs (perform thread) (deleteDeployment appText text).run state outcome
      after := runs_bind.2 (.inr ⟨appId, unlocked, unlocks, moves⟩)
  rcases result with rfl | ⟨rfl, before, gone⟩
  · refine ⟨appId.toString, _, after, ?_, .inl rfl⟩
    exact runs_bind.2 (.inr ⟨found, state, finds, runs_bind.2 (.inr ⟨none, state, names,
      runs_bind.2 (.inl ⟨_, deletes, rfl⟩)⟩)⟩)
  · refine ⟨appId.toString, .ok (), after, ?_, .inr ⟨before, gone⟩⟩
    exact runs_bind_ok.2 ⟨found, state, finds, runs_bind_ok.2 ⟨none, state, names,
      runs_bind_ok.2 ⟨(), after, deletes, rfl, rfl⟩⟩⟩

/-! The directory of another text. -/

def Act.StaysOff (path : Path) (action : Act) : Prop := ∀ root, action.Clears root → ¬ root <+: path

section Spared

variable {owner other : String} (apart : text ≠ other)

theorem staysOff_of_calm {path : Path} {action : Act} (calm : ∀ root, ¬ action.Clears root) :
    action.StaysOff path := fun root clears => absurd clears (calm root)

theorem keeps_of_staysOff {α : Type} {program : Async α} {path : Path}
    (uses : program.Uses (Act.StaysOff path) fun _ => False) :
    Program.Keeps (perform thread) (fun state => state.files.Has path) program :=
  Program.keeps_of_uses uses fun _ _ _ _ _ stays performed has =>
    (perform_filesChange performed).has has stays

include apart

theorem keeps_deleteDeploymentDir (appId : Uuid) :
    Program.Keeps (perform thread) (fun state => state.files.Has (deploymentDir owner other))
      (deleteDeploymentDir appId text).run := by
  intro state outcome after runs has
  obtain ⟨staging, drawn, draws, rest⟩ := runs_lift_bind.1 runs
  obtain ⟨choice, performed⟩ := Program.runs_perform.1 draws
  cases performed
  refine keeps_of_staysOff ?_ _ _ _ rest has
  refine uses_bind (uses_attempt (Program.uses_perform ?_)) fun moved =>
    uses_bind (takes_liftResult _) fun _ => Program.uses_perform ?_
  · rintro root rfl lies
    simp only [deploymentDir, deploymentsDir, appDir, appsDir, List.cons_append, List.nil_append,
      List.cons_prefix_cons, Component.text.injEq] at lies
    exact apart lies.2.2.2.1
  · rintro root rfl lies
    simp [deploymentDir, deploymentsDir, appDir, appsDir, tmpDir] at lies

theorem keeps_deleteDeploymentWithContainers :
    Program.Keeps (perform thread) (fun state => state.files.Has (deploymentDir owner other))
      (deleteDeploymentWithContainers appText text).run := by
  let dir := deploymentDir owner other
  have looks : ∀ action : Act, action.Looks → action.StaysOff dir := by
    intro action looks
    cases action <;> first | exact staysOff_of_calm fun _ => id | exact looks.elim
  have asks : ∀ host request, Act.StaysOff dir (.agent host request) :=
    fun _ _ => staysOff_of_calm fun _ => id
  have removing : Takes (Act.StaysOff dir) (fun _ => False) (removeDeploymentRow appText text) :=
    uses_bind (takes_findAppRowById looks appText) fun app =>
      uses_bind (takes_requireInactive app text) fun _ =>
        uses_bind (takes_findDeploymentRow looks app.id text) fun row =>
          uses_bind (takes_query (staysOff_of_calm fun _ => id)) fun _ => uses_pure _
  have locking := takes_withWriteLock (staysOff_of_calm fun _ => id) (staysOff_of_calm fun _ => id)
    removing
  refine keeps_bind (keeps_of_staysOff (takes_getAppById looks appText)) fun app => ?_
  refine keeps_bind (keeps_of_staysOff (takes_containerNameOf looks appText text)) fun name => ?_
  refine keeps_bind (keeps_bind (keeps_of_staysOff locking) fun appId => ?_) fun _ => ?_
  · exact keeps_deleteDeploymentDir apart appId
  · exact keeps_of_staysOff (takes_removeFromAgent asks app.hostId text name)

end Spared

/-! The two texts of one deployment. -/

section Apart

variable (isLeft : Uuid.parseStr left = some id) (isRight : Uuid.parseStr right = some id)
variable (isFree : state.lock = none)
include isLeft isRight isFree

/-- Deleting a deployment that is there tells which text it was asked with. -/
theorem deletions_differ (has : HasDeployment state.db appText id) (apart : left ≠ right)
    (spelled : right ≠ id.toString) :
    ¬ Program.Same (perform thread) state (deleteDeploymentWithContainers appText left).run
      (deleteDeploymentWithContainers appText right).run := by
  intro same
  obtain ⟨appId, outcome, after, runs, refused | ⟨before, gone⟩⟩ :=
    runs_deletion_of thread has isFree isRight spelled
  · subst refused
    have others : ∀ err : AppError, ¬ err.IsRefusal → err ≠ .deploymentNotFound right := by
      rintro _ plain rfl
      exact plain trivial
    have guarded : ∀ app, Raises (perform thread) (· ≠ .deploymentNotFound right)
        (requireInactive app left) := by
      intro app
      unfold requireInactive
      split
      · exact raises_throw (by simp)
      · exact raises_pure ()
    refine raises_deleteDeploymentWithContainers others isLeft ?_ guarded _ _ _
      ((same _ _).2 runs) rfl
    rintro text (rfl | rfl) eq
    · exact apart (AppError.deploymentNotFound.inj eq)
    · exact spelled (AppError.deploymentNotFound.inj eq).symm
  · exact gone (keeps_deleteDeploymentWithContainers apart _ _ _ ((same _ _).2 runs) before)

/-- Deleting the active deployment under its own text is refused, under another one it is not. -/
theorem refusals_differ (active : IsActiveText state.db appText left)
    (inactive : ¬ IsActiveText state.db appText right) :
    ¬ Program.Same (perform thread) state (deleteDeploymentWithContainers appText left).run
      (deleteDeploymentWithContainers appText right).run := by
  intro same
  have ⟨app, parsed, there, isActive⟩ := active
  have canonical : left = id.toString := by
    obtain ⟨activeId, _, rfl⟩ := Option.map_eq_some_iff.1 isActive
    rw [Uuid.parseStr_toString] at isLeft
    exact congrArg Uuid.toString (Option.some.inj isLeft)
  have spelled : right ≠ id.toString := by
    rintro rfl
    exact inactive (canonical ▸ active)
  obtain ⟨found, finds⟩ := runs_getAppById_of thread parsed there
  have names := runs_containerNameOf_none thread parsed state left
  have refuses : Program.Runs (perform thread) (removeDeploymentRow appText left).run
      { state with lock := some thread } (.error .deleteActiveDeployment)
      { state with lock := some thread } := by
    refine runs_bind.2 (.inr ⟨app, _, runs_findAppRowById_of thread parsed there, ?_⟩)
    refine runs_bind.2 (.inl ⟨_, ?_, rfl⟩)
    rw [requireInactive, if_pos isActive]
    exact ⟨rfl, rfl⟩
  obtain ⟨unlocked, _, _, unlocks⟩ := runs_withWriteLock_of isFree refuses
  have runs : Program.Runs (perform thread) (deleteDeploymentWithContainers appText left).run state
      (.error .deleteActiveDeployment) unlocked :=
    runs_bind.2 (.inr ⟨found, state, finds, runs_bind.2 (.inr ⟨none, state, names,
      runs_bind.2 (.inl ⟨_, runs_bind.2 (.inl ⟨_, unlocks, rfl⟩), rfl⟩)⟩)⟩)
  have others : ∀ err : AppError, ¬ err.IsRefusal → err ≠ .deleteActiveDeployment := by
    rintro _ plain rfl
    exact plain trivial
  have guarded : ∀ app, Raises (perform thread) (· ≠ .deleteActiveDeployment)
      (requireInactive app right) := by
    intro app
    rw [requireInactive_spelled isRight spelled]
    exact raises_pure ()
  exact raises_deleteDeploymentWithContainers others isRight (fun _ _ => by simp) guarded _ _ _
    ((same _ _).1 runs) rfl

end Apart

/-- Two texts of one id are interchangeable for all operations exactly if they are the same text, or
the app has no such deployment and the guard of the deletion does not tell them apart either. -/
theorem interchangeable_iff (env : Surroundings) (thread : Nat) (state : State) (appText left right : String)
    (id : Uuid) (isLeft : Uuid.parseStr left = some id) (isRight : Uuid.parseStr right = some id) :
    (∀ operation, Interchangeable env thread state appText left right operation) ↔
      left = right ∨ (¬ HasDeployment state.db appText id ∧
        (IsActiveText state.db appText left ↔ IsActiveText state.db appText right)) := by
  constructor
  · intro interchangeable
    have same : Program.Same (perform thread) state.atRest
        (deleteDeploymentWithContainers appText left).run
        (deleteDeploymentWithContainers appText right).run :=
      interchangeable .deleteDeploymentWithContainers
    have isFree : state.atRest.lock = none := rfl
    by_cases equal : left = right
    · exact .inl equal
    refine .inr ⟨fun has => ?_, fun active => ?_, fun active => ?_⟩
    · by_cases spelled : right = id.toString
      · exact deletions_differ isRight isLeft isFree has (Ne.symm equal)
          (fun canonical => equal (canonical.trans spelled.symm)) (same.symm)
      · exact deletions_differ isLeft isRight isFree has equal spelled same
    · by_contra inactive
      exact refusals_differ isLeft isRight isFree active inactive same
    · by_contra inactive
      exact refusals_differ isRight isLeft isFree active inactive same.symm
  · rintro (rfl | ⟨absent, guarded⟩) operation
    · exact Program.same_refl
    have absent : ¬ HasDeployment state.atRest.db appText id := absent
    cases operation with
    | getDeployment => exact getDeployment_same isLeft isRight
    | activateWithContainers => exact activateWithContainers_same isLeft isRight absent
    | deleteDeploymentWithContainers =>
        exact deleteDeploymentWithContainers_same isLeft isRight absent guarded
    | deploymentLogs logsQuery => exact deploymentLogs_same isLeft isRight absent env.store logsQuery
    | getDeploymentLogs user =>
        exact getDeploymentLogs_same isLeft isRight absent env.fromUtf8Lossy env.store user

/-! The upper-case id of a deployment that is active. -/

def servedApp : AppRow := ⟨Uuid.repeated 1, "app", .upload, [], some (Uuid.repeated 10), 1⟩

def servedRow : DeploymentRow :=
  ⟨Uuid.repeated 10, servedApp.id, none, 0, none, none, none, .ready, none⟩

/-- A hub with one app, whose only deployment is the active one. -/
def servedHub : State :=
  let fresh := State.fresh plainKey [] [⟨1, false⟩]
  { fresh with
    db := { fresh.db with apps := ⟨[servedApp], by simp⟩, deployments := ⟨[servedRow], by simp⟩ }
    files := FileTree.empty.add [tmpDir, deploymentFilesDir servedApp.id.toString servedRow.id.toString] }

/-- No logs anywhere. -/
def silent : Surroundings where
  store := ⟨fun _ => none, fun _ _ => none, fun _ _ => none⟩
  fromUtf8Lossy := fun _ => ""

theorem servedHub_has : HasDeployment servedHub.db servedApp.id.toString servedRow.id :=
  ⟨servedApp, servedRow, Uuid.parseStr_toString _, by decide, by decide, rfl⟩

theorem toUpper_ne_toString : servedRow.id.toUpper ≠ servedRow.id.toString := by decide +kernel

/-- The active deployment is deleted from the database, and then said not to exist. -/
theorem uppercase_deletes_active :
    ¬ Interchangeable silent 0 servedHub servedApp.id.toString servedRow.id.toString
      servedRow.id.toUpper .deleteDeploymentWithContainers ∧
    ∃ after, Program.Runs (perform 0) (deleteDeploymentWithContainers servedApp.id.toString
        servedRow.id.toUpper).run servedHub (.error (.deploymentNotFound servedRow.id.toUpper)) after ∧
      servedApp.activeDeploymentId = some servedRow.id ∧ after.db.deployment? servedRow.id = none := by
  refine ⟨deletions_differ (Uuid.parseStr_toString _) (Uuid.parseStr_toUpper _) rfl servedHub_has
    toUpper_ne_toString.symm toUpper_ne_toString, ?_⟩
  have played : ((deleteDeploymentWithContainers servedApp.id.toString servedRow.id.toUpper).run.eval
      (perform 0) (List.replicate 12 {}) servedHub).any (fun ended =>
        decide (ended.1 = .error (.deploymentNotFound servedRow.id.toUpper)) &&
          decide (ended.2.db.deployment? servedRow.id = none)) = true := by decide +kernel
  obtain ⟨⟨outcome, after⟩, ran, checked⟩ := (Option.any_eq_true _ _).1 played
  obtain ⟨refused, gone⟩ := Bool.and_eq_true_iff.1 checked
  cases of_decide_eq_true refused
  exact ⟨after, Program.runs_of_eval ran, rfl, of_decide_eq_true gone⟩

/-- The same two texts do no harm where the app has no such deployment. -/
theorem interchangeable_iff_served :
    (∀ operation, Interchangeable silent 0 servedHub servedApp.id.toString
      (Uuid.repeated 11).toString (Uuid.repeated 11).toUpper operation) ∧
    ¬ ∀ operation, Interchangeable silent 0 servedHub servedApp.id.toString servedRow.id.toString
      servedRow.id.toUpper operation := by
  constructor
  · have absent : ¬ HasDeployment servedHub.db servedApp.id.toString (Uuid.repeated 11) := by
      rintro ⟨app, row, _, _, found, _⟩
      cases found
    have inactive : ∀ text, Uuid.parseStr text = some (Uuid.repeated 11) →
        ¬ IsActiveText servedHub.db servedApp.id.toString text := by
      rintro text parsed ⟨app, isApp, there, active⟩
      rw [Uuid.parseStr_toString] at isApp
      rw [← Option.some.inj isApp] at there
      cases there
      cases active
      rw [Uuid.parseStr_toString] at parsed
      exact absurd parsed (by decide)
    exact (interchangeable_iff silent 0 servedHub _ _ _ _ (Uuid.parseStr_toString _)
      (Uuid.parseStr_toUpper _)).2 (.inr ⟨absent, iff_of_false
        (inactive _ (Uuid.parseStr_toString _)) (inactive _ (Uuid.parseStr_toUpper _))⟩)
  · intro interchangeable
    rcases (interchangeable_iff silent 0 servedHub _ _ _ _ (Uuid.parseStr_toString _)
      (Uuid.parseStr_toUpper _)).1 interchangeable with same | ⟨absent, _⟩
    · exact toUpper_ne_toString same.symm
    · exact absent servedHub_has

end Berth
