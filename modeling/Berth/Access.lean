import Berth.Interleave.FrontEnd
import Berth.Isolation
import Berth.Spelling

/-!
The two front ends of the hub, the routes of `/api/apps` and the tools of the MCP server, with the
permission checks in front of their calls. An app changes, and is shown, only by requests whose
sender has passed the check for that app.
-/

namespace Berth

open Interleave Interleave.Fallible
open Auth (CurrentUser)

/-! What is shown. -/

structure AppView where
  id : String
  name : String
  activeDeploymentId : Option String
  hostId : Int
  source : AppSource
  envVars : List EnvVar
  permissions : List AppPermission
  deriving DecidableEq

def secretMask : String := "••••••••"

def maskSecrets (envVars : List EnvVar) : List EnvVar :=
  envVars.map fun envVar =>
    match envVar.value with
    | .secret _ => { envVar with value := .secret secretMask }
    | .plain _ => envVar

def appView (app : App) : AsyncResult AppView := do
  let active ← activeDeploymentId app.id
  pure ⟨app.id, app.name, active, app.hostId, app.source, maskSecrets app.envVars, app.permissions⟩

inductive ContainerStatus where
  | running
  | stopped
  | unknown
  deriving DecidableEq

structure DeploymentView where
  deployment : Deployment
  isActive : Bool
  containerStatus : Option ContainerStatus

/-- What the agents answer when they are asked about a container, and what the logs hold. -/
structure Sights (Stats : Type) where
  isRunning : Int → String → AppResult Bool
  stats : Int → String → AppResult Stats
  store : LogStore
  fromUtf8Lossy : Bytes → String

variable {Stats : Type}

section Handlers

variable (sights : Sights Stats)

def Sights.containerStatus (hostId : Int) (containerName : String) : ContainerStatus :=
  match sights.isRunning hostId containerName with
  | .ok true => .running
  | .ok false => .stopped
  | .error _ => .unknown

def deploymentView (activeId : Option String) (hostId : Int) (deployment : Deployment) :
    DeploymentView where
  deployment := deployment
  isActive := activeId = some deployment.id
  containerStatus := deployment.containerName.map (sights.containerStatus hostId)

/-- `None` where the deployment has no container, or it is not running. -/
def containerStats (hostId : Int) : Option String → AsyncResult (Option Stats)
  | none => pure none
  | some containerName => do
      if ← liftResult (sights.isRunning hostId containerName) then
        let stats ← liftResult (sights.stats hostId containerName)
        pure (some stats)
      else pure none

/-- What an answer can show. The MCP server writes it as JSON text. -/
inductive Content (Stats : Type) where
  | apps (views : List AppView)
  | app (view : AppView)
  | deployments (views : List DeploymentView)
  | deployment (deployment : Deployment)
  | logs (response : LogsResponse)
  | text (logs : String)
  | stats (stats : Option Stats)
  | nothing

def shownTo (user : CurrentUser) (app : App) : Bool :=
  user.role = .admin || app.hasPermission user.username .read

def listAppViews (user : CurrentUser) : AsyncResult (Content Stats) := do
  let apps ← listApps
  let views ← Fallible.collect appView (apps.filter (shownTo user))
  pure (.apps views)

def getAppView (appId : String) : AsyncResult (Content Stats) := do
  let app ← getAppById appId
  let view ← appView app
  pure (.app view)

/-- The deployments, with the active one marked. -/
def listDeploymentViews (hostId : Int) (appId : String) : AsyncResult (Content Stats) := do
  let active ← activeDeploymentId appId
  let deployments ← listDeployments appId
  pure (.deployments (deployments.map (deploymentView sights active hostId)))

def statsOf (hostId : Int) (appId id : String) : AsyncResult (Content Stats) := do
  let deployment ← getDeployment appId id
  let stats ← containerStats sights hostId deployment.containerName
  pure (.stats stats)

/-! The routes. -/

inductive Method where
  | get
  | head
  | post
  | patch
  | delete
  deriving DecidableEq

inductive Route where
  | listApps
  | createApp (name : String) (source : AppSource) (envVars : List EnvVarInput) (hostId : Int)
  | getApp (appId : String)
  | deleteApp (appId : String)
  | updateApp (appId : String) (name : Option String) (envVars : Option (List EnvVarInput))
      (hostId : Option Int)
  | updateAppPermissions (appId : String) (permissions : List AppPermission)
  | createDeployment (appId : String) (fields : List Field)
  | listDeployments (appId : String)
  | deleteDeployment (appId id : String)
  | activateDeployment (appId id : String)
  | createGitDeployment (appId : String)
  | deploymentLogs (appId id : String) (logsQuery : LogFollow.LogsQuery)
  | deploymentStats (appId id : String)

def Route.method : Route → Method
  | listApps | getApp _ | listDeployments _ | deploymentLogs _ _ _ | deploymentStats _ _ => .get
  | createApp .. | updateAppPermissions _ _ | createDeployment _ _ | activateDeployment _ _
  | createGitDeployment _ => .post
  | updateApp .. => .patch
  | deleteApp _ | deleteDeployment _ _ => .delete

/-- The parameter `app_id` of the path. -/
def Route.appId : Route → Option String
  | listApps | createApp .. => none
  | getApp appId | deleteApp appId | updateApp appId _ _ _ | updateAppPermissions appId _
  | createDeployment appId _ | listDeployments appId | deleteDeployment appId _
  | activateDeployment appId _ | createGitDeployment appId | deploymentLogs appId _ _
  | deploymentStats appId _ => some appId

/-- A route for `GET` answers `HEAD` as well. -/
def Route.serves (route : Route) (method : Method) : Bool :=
  method = route.method || method = .head && route.method = .get

/-- What `enforce_app_access` asks for. -/
def Method.requires (method : Method) : PermissionLevel :=
  if method = .get ∨ method = .head then .read else .write

/-- The check in front of every route below an app. -/
def enforceAppAccess (user : CurrentUser) (method : Method) (appId : String) : AsyncResult Unit := do
  let app ← getAppById appId
  liftResult (checkAppPermission user app method.requires)

/-- The handlers that only read. -/
def Route.reads (user : CurrentUser) : Route → Option (AsyncResult (Content Stats))
  | listApps => some (listAppViews user)
  | getApp appId => some (getAppView appId)
  | listDeployments appId => some do
      let app ← getAppById appId
      listDeploymentViews sights app.hostId appId
  | deploymentLogs appId id logsQuery => some do
      let response ← Berth.deploymentLogs sights.store appId id logsQuery
      pure (.logs response)
  | deploymentStats appId id => some do
      let app ← getAppById appId
      statsOf sights app.hostId appId id
  | createApp .. | deleteApp _ | updateApp .. | updateAppPermissions .. | createDeployment ..
  | deleteDeployment .. | activateDeployment .. | createGitDeployment _ => none

/-! The tools. -/

inductive Tool where
  | listApps
  | getApp (appId : String)
  | createApp (name : String) (source : AppSource) (envVars : List EnvVarInput) (hostId : Int)
  | deleteApp (appId : String)
  | listDeployments (appId : String)
  | deployFromGit (appId : String)
  | activateDeployment (appId deploymentId : String)
  | deleteDeployment (appId deploymentId : String)
  | getDeploymentLogs (appId deploymentId : String)
  | getDeploymentStats (appId deploymentId : String)

/-- The check that each tool makes by itself, with the app it has found. -/
def toolAccess (user : CurrentUser) (appId : String) (required : PermissionLevel) :
    AsyncResult App := do
  let app ← getAppById appId
  liftResult (checkAppPermission user app required)
  pure app

/-- The tools that only read, with their checks. -/
def Tool.reads (user : CurrentUser) :
    Tool → Option (Fallible Act Act.Res Call String (Content Stats))
  | listApps => some (asText (listAppViews user))
  | getApp appId => some <| asText do
      let app ← toolAccess user appId .read
      let view ← appView app
      pure (.app view)
  | listDeployments appId => some <| asText do
      let app ← toolAccess user appId .read
      listDeploymentViews sights app.hostId appId
  | getDeploymentLogs appId deploymentId => some do
      let logs ← Berth.getDeploymentLogs sights.fromUtf8Lossy sights.store user appId deploymentId
      pure (.text logs)
  | getDeploymentStats appId deploymentId => some <| asText do
      let app ← toolAccess user appId .read
      statsOf sights app.hostId appId deploymentId
  | createApp .. | deleteApp _ | deployFromGit _ | activateDeployment .. | deleteDeployment .. =>
      none

/-- The parameter `app_id` of a tool. -/
def Tool.appId : Tool → Option String
  | listApps | createApp .. => none
  | getApp appId | deleteApp appId | listDeployments appId | deployFromGit appId
  | activateDeployment appId _ | deleteDeployment appId _ | getDeploymentLogs appId _
  | getDeploymentStats appId _ => some appId

/-! Requests. -/

inductive Incoming where
  | rest (method : Method) (route : Route)
  | tool (tool : Tool)

/-- A request of a user who has been found by the session or the token. -/
structure AppRequest where
  user : CurrentUser
  incoming : Incoming

inductive Answer (Stats : Type) where
  | rest (result : AppResult (Content Stats))
  | tool (result : Except String (Content Stats))

/-- A `Member` is granted `Write` on what they create. -/
def creatorOf (user : CurrentUser) : Option String :=
  match user.role with
  | .admin => none
  | .member => some user.username

/-- Stands in for the call of a request that has none; nobody ever gets to it. -/
def noCall : Call := .updateApp "" none none none

def Route.call (user : CurrentUser) : Route → Call
  | createApp name source envVars hostId => .createApp name source envVars (creatorOf user) hostId
  | deleteApp appId => .deleteAppWithContainers appId
  | updateApp appId name envVars hostId => .updateApp appId name envVars hostId
  | updateAppPermissions appId permissions => .updateAppPermissions appId permissions
  | createDeployment appId fields => .uploadDeployment appId fields
  | deleteDeployment appId id => .deleteDeploymentWithContainers appId id
  | activateDeployment appId id => .activateWithContainers appId id
  | createGitDeployment appId => .startGitDeployment appId
  | listApps | getApp _ | listDeployments _ | deploymentLogs .. | deploymentStats .. => noCall

def Tool.call (user : CurrentUser) : Tool → Call
  | createApp name source envVars hostId => .createApp name source envVars (creatorOf user) hostId
  | deleteApp appId => .deleteAppWithContainers appId
  | deployFromGit appId => .startGitDeployment appId
  | activateDeployment appId deploymentId => .activateWithContainers appId deploymentId
  | deleteDeployment appId deploymentId => .deleteDeploymentWithContainers appId deploymentId
  | listApps | getApp _ | listDeployments _ | getDeploymentLogs .. | getDeploymentStats .. => noCall

namespace AppRequest

def call (request : AppRequest) : Call :=
  match request.incoming with
  | .rest _ route => route.call request.user
  | .tool tool => tool.call request.user

/-- The check of a route, where it is below an app. -/
def access (user : CurrentUser) (method : Method) (route : Route) : AsyncResult Unit :=
  match route.appId with
  | some appId => enforceAppAccess user method appId
  | none => pure ()

/-- Answers by itself with the result, where there is one. -/
def passes {ε : Type} (answer : ε → Answer Stats) (check : Fallible Act Act.Res Call ε Unit) :
    Async (Except (Answer Stats) Unit) := do
  let outcome ← check.run
  pure (outcome.mapError answer)

def guard (request : AppRequest) : Async (Except (Answer Stats) Unit) :=
  match request.incoming with
  | .rest method route =>
      match route.reads sights request.user with
      | some handler => do
          let result ← (do
            access request.user method route
            handler).run
          pure (.error (.rest result))
      | none => passes (fun err => .rest (.error err)) (access request.user method route)
  | .tool tool =>
      match tool.reads sights request.user with
      | some handler => do
          let result ← handler.run
          pure (.error (.tool result))
      | none =>
          match tool.appId with
          | some appId => passes (fun err => .tool (.error err.toString)) do
              let _ ← toolAccess request.user appId .write
          | none => pure (.ok ())

def answer (request : AppRequest) (result : AppResult (Content Stats)) : Answer Stats :=
  match request.incoming with
  | .rest _ _ => .rest result
  | .tool _ => .tool (result.mapError AppError.toString)

/-- What is shown of what the call has replied. -/
def view (request : AppRequest) : Reply → Async (Answer Stats)
  | .app (.ok app) => do
      let view ← (appView app).run
      pure (request.answer (view.map .app))
  | .app (.error err) => pure (request.answer (.error err))
  | .deployment result => pure (request.answer (result.map .deployment))
  | .unit result => pure (request.answer (result.map fun _ => .nothing))
  | .pending _ | .none => pure (request.answer (.ok .nothing))

/-- The router knows the method for the route. -/
def routed (request : AppRequest) : Bool :=
  match request.incoming with
  | .rest method route => route.serves method
  | .tool _ => true

/-- The app that a request is about, if it is about one. -/
def appId (request : AppRequest) : Option String :=
  match request.incoming with
  | .rest _ route => route.appId
  | .tool tool => tool.appId

end AppRequest

/-- The startup, the passes and what goes on outside happen without a request. -/
def Call.unrequested : Call → Bool
  | .startup | .onAgentConnected | .agentConnects _ | .agentDisconnects _ | .agentWorks _
  | .administer _ _ => true
  | _ => false

def frontEnd : FrontEnd Act Act.Res Call Reply State AppRequest (Answer Stats) where
  call := AppRequest.call
  guard := AppRequest.guard sights
  view := AppRequest.view
  admits state request := state.serving && request.routed
  inner := Call.unrequested

/-- The hub behind its two front ends. -/
def server (limit : Nat) : Semantics Act Act.Res (Entry AppRequest Call)
    (Output (Answer Stats) Reply) State Choice :=
  (frontEnd sights).semantics (hub limit)

end Handlers

abbrev ServerEvent (Stats : Type) : Type :=
  Event Act Act.Res (Entry AppRequest Call) (Output (Answer Stats) Reply) Choice

abbrev ServerWorld (Stats : Type) : Type :=
  World Act Act.Res (Entry AppRequest Call) (Output (Answer Stats) Reply) State Choice

abbrev ServerConfig (Stats : Type) : Type :=
  Config Act Act.Res (Entry AppRequest Call) (Output (Answer Stats) Reply) State Choice

/-! Whatever the front ends do by themselves only looks things up. -/

section Looking

variable {sights : Sights Stats} {acts : Act → Prop} {calls : Call → Prop}
variable (looks : ∀ action : Act, action.Looks → acts action)

theorem uses_asText {α : Type} {program : AsyncResult α} (takes : Takes acts calls program) :
    Program.Uses acts calls (asText program).run := takes.bind fun _ => Program.uses_done _

include looks

theorem takes_appView (app : App) : Takes acts calls (appView app) :=
  uses_bind (takes_activeDeploymentId looks app.id) fun _ => uses_pure _

theorem takes_listAppViews (user : CurrentUser) :
    Takes acts calls (listAppViews user : AsyncResult (Content Stats)) :=
  uses_bind (takes_listApps looks) fun _ =>
    uses_bind (uses_collect (takes_appView looks) _) fun _ => uses_pure _

theorem takes_getAppView (appId : String) :
    Takes acts calls (getAppView appId : AsyncResult (Content Stats)) :=
  uses_bind (takes_getAppById looks appId) fun app =>
    uses_bind (takes_appView looks app) fun _ => uses_pure _

theorem takes_listDeploymentViews (hostId : Int) (appId : String) :
    Takes acts calls (listDeploymentViews sights hostId appId) :=
  uses_bind (takes_activeDeploymentId looks appId) fun _ =>
    uses_bind (takes_listDeployments looks appId) fun _ => uses_pure _

omit looks in
theorem takes_containerStats (hostId : Int) (name : Option String) :
    Takes acts calls (containerStats sights hostId name) := by
  cases name with
  | none => exact uses_pure _
  | some containerName =>
      refine uses_bind (takes_liftResult _) fun isRunning => ?_
      cases isRunning with
      | false => exact uses_pure _
      | true => exact uses_bind (takes_liftResult _) fun _ => uses_pure _

theorem takes_statsOf (hostId : Int) (appId id : String) :
    Takes acts calls (statsOf sights hostId appId id) :=
  uses_bind (takes_getDeployment looks appId id) fun _ =>
    uses_bind (takes_containerStats hostId _) fun _ => uses_pure _

theorem takes_deploymentLogs (store : LogStore) (appId id : String)
    (logsQuery : LogFollow.LogsQuery) :
    Takes acts calls (Berth.deploymentLogs store appId id logsQuery) := by
  refine uses_bind (takes_getDeployment looks appId id) fun _ => ?_
  refine uses_bind (takes_getAppById looks appId) fun app => ?_
  have shows (kind : LogFollow.LogKind) : Takes acts calls (do
      let backlog ← liftResult (store.readBacklog (deploymentDir app.id id) kind)
      pure (⟨logsQuery.follow, backlog,
        logsQuery.follow && decide (store.registry id = some kind)⟩ : LogsResponse)) :=
    uses_bind (takes_liftResult _) fun _ => uses_pure _
  dsimp only
  cases logsQuery.phase with
  | some kind => exact uses_bind (uses_pure kind) shows
  | none =>
      dsimp only
      cases store.currentPhase (deploymentDir app.id id) id with
      | some kind => exact uses_bind (uses_pure kind) shows
      | none => exact uses_bind (uses_throw _) shows

theorem uses_getDeploymentLogs (fromUtf8Lossy : Bytes → String) (store : LogStore)
    (user : CurrentUser) (appId deploymentId : String) :
    Program.Uses acts calls
      (Berth.getDeploymentLogs fromUtf8Lossy store user appId deploymentId).run := by
  refine uses_bind (uses_asText (takes_getAppById looks appId)) fun app => ?_
  refine uses_bind (uses_asText (takes_liftResult _)) fun _ => ?_
  refine uses_bind (uses_asText (takes_getDeployment looks appId deploymentId)) fun _ => ?_
  dsimp only
  cases store.currentPhase (deploymentDir app.id deploymentId) deploymentId with
  | none => exact uses_throw _
  | some kind => exact uses_bind (uses_asText (takes_liftResult _)) fun _ => uses_pure _

theorem takes_enforceAppAccess (user : CurrentUser) (method : Method) (appId : String) :
    Takes acts calls (enforceAppAccess user method appId) :=
  uses_bind (takes_getAppById looks appId) fun _ => takes_liftResult _

theorem takes_toolAccess (user : CurrentUser) (appId : String) (required : PermissionLevel) :
    Takes acts calls (toolAccess user appId required) :=
  uses_bind (takes_getAppById looks appId) fun _ =>
    uses_bind (takes_liftResult _) fun _ => uses_pure _

theorem takes_access (user : CurrentUser) (method : Method) (route : Route) :
    Takes acts calls (AppRequest.access user method route) := by
  unfold AppRequest.access
  cases route.appId with
  | none => exact uses_pure _
  | some appId => exact takes_enforceAppAccess looks user method appId

theorem Route.reads_takes {user : CurrentUser} {route : Route} {handler : AsyncResult (Content Stats)}
    (reads : route.reads sights user = some handler) : Takes acts calls handler := by
  cases route with
  | listApps =>
      cases reads
      exact takes_listAppViews looks user
  | getApp appId =>
      cases reads
      exact takes_getAppView looks appId
  | listDeployments appId =>
      cases reads
      exact uses_bind (takes_getAppById looks appId) fun app =>
        takes_listDeploymentViews looks app.hostId appId
  | deploymentLogs appId id logsQuery =>
      cases reads
      exact uses_bind (takes_deploymentLogs looks sights.store appId id logsQuery) fun _ =>
        uses_pure _
  | deploymentStats appId id =>
      cases reads
      exact uses_bind (takes_getAppById looks appId) fun app =>
        takes_statsOf looks app.hostId appId id
  | createApp _ _ _ _ | deleteApp _ | updateApp _ _ _ _ | updateAppPermissions _ _
  | createDeployment _ _ | deleteDeployment _ _ | activateDeployment _ _
  | createGitDeployment _ => cases reads

theorem Tool.reads_uses {user : CurrentUser} {tool : Tool}
    {handler : Fallible Act Act.Res Call String (Content Stats)}
    (reads : tool.reads sights user = some handler) : Program.Uses acts calls handler.run := by
  cases tool with
  | listApps =>
      cases reads
      exact uses_asText (takes_listAppViews looks user)
  | getApp appId =>
      cases reads
      exact uses_asText (uses_bind (takes_toolAccess looks user appId .read) fun app =>
        uses_bind (takes_appView looks app) fun _ => uses_pure _)
  | listDeployments appId =>
      cases reads
      exact uses_asText (uses_bind (takes_toolAccess looks user appId .read) fun app =>
        takes_listDeploymentViews looks app.hostId appId)
  | getDeploymentLogs appId deploymentId =>
      cases reads
      exact uses_bind (uses_getDeploymentLogs looks _ _ user appId deploymentId) fun _ => uses_pure _
  | getDeploymentStats appId deploymentId =>
      cases reads
      exact uses_asText (uses_bind (takes_toolAccess looks user appId .read) fun app =>
        takes_statsOf looks app.hostId appId deploymentId)
  | createApp _ _ _ _ | deleteApp _ | deployFromGit _ | activateDeployment _ _
  | deleteDeployment _ _ => cases reads

theorem AppRequest.guard_uses (request : AppRequest) : (request.guard sights).Uses acts calls := by
  unfold guard
  cases request.incoming with
  | rest method route =>
      dsimp only
      have checks : Takes acts calls (access request.user method route) := takes_access looks _ _ _
      cases reads : route.reads sights request.user with
      | none => exact Program.Uses.bind checks fun _ => Program.uses_done _
      | some handler =>
          exact Program.Uses.bind (uses_bind checks fun _ => Route.reads_takes looks reads)
            fun _ => Program.uses_done _
  | tool tool =>
      dsimp only
      cases reads : tool.reads sights request.user with
      | some handler =>
          exact Program.Uses.bind (Tool.reads_uses looks reads) fun _ => Program.uses_done _
      | none =>
          dsimp only
          cases tool.appId with
          | none => exact Program.uses_done _
          | some appId =>
              exact Program.Uses.bind
                (uses_bind (takes_toolAccess looks request.user appId .write) fun _ => uses_pure _)
                fun _ => Program.uses_done _

theorem AppRequest.view_uses (request : AppRequest) (reply : Reply) :
    (request.view reply : Async (Answer Stats)).Uses acts calls := by
  cases reply with
  | app outcome =>
      cases outcome with
      | ok app => exact Program.Uses.bind (takes_appView looks app) fun _ => Program.uses_done _
      | error err => exact Program.uses_done _
  | deployment _ | unit _ | pending _ | none => exact Program.uses_done _

end Looking

/-- Nobody holds the write lock before their first action. -/
def LockTaken (w : HubWorld) : Prop :=
  ∀ thread, FrontEnd.Fresh w thread → w.shared.lock ≠ some thread

theorem LockTaken.moves {limit : Nat} {w w' : HubWorld} {event : HubEvent} (taken : LockTaken w)
    (moves : w.Moves (hub limit) event w') : LockTaken w' := by
  intro thread isFresh
  have before := taken thread fun did => isFresh (moves.did did)
  cases moves with
  | start _ | fork _ | finish _ => exact before
  | restart => simp [hub, restart]
  | drop member =>
      simp only [hub, release]
      split
      · simp
      · exact before
  | @act other call action choice result shared member performed =>
      cases perform_coreChange performed with
      | lock _ lock _ _ _ =>
          intro held
          cases lock.symm.trans held
          exact isFresh ⟨_, List.mem_cons_self, call, .lock, choice, result, rfl⟩
      | unlock lock _ _ _ =>
          change shared.lock ≠ some thread
          rw [lock]
          split
          · simp
          · exact before
      | nowV7 _ lock _ _ _ | uniqueTmpPath lock _ _ _ | serve lock _ _ _ | same lock _ _ _ =>
          change shared.lock ≠ some thread
          rw [lock]
          exact before

theorem lockTaken {state : State} (unlocked : state.lock = none) {limit : Nat} {cfg : HubConfig}
    {condition : HubWorld → HubEvent → Prop}
    (reachable : Reachable (hub limit) condition (Config.idle state) cfg) : LockTaken cfg.world := by
  refine reachable.invariant ?_ fun w event w' taken moves _ => taken.moves moves
  intro thread _ held
  cases unlocked.symm.trans held

/-- What the front ends do by themselves shows in nothing that the hub keeps. -/
theorem harmless (sights : Sights Stats) {state : State} (unlocked : state.lock = none) (limit : Nat) :
    FrontEnd.Harmless (frontEnd sights) (hub limit) Act.Looks (Config.idle state) where
  guard request := request.guard_uses looks_looks
  view request reply := request.view_uses looks_looks reply
  silent looks performed := perform_looks looks performed
  admits state live request admitted := by
    have serving := (Bool.and_eq_true_iff.1 admitted).1
    change admits state live request.call = true
    unfold AppRequest.call
    cases request.incoming with
    | rest method route => cases route <;> exact serving
    | tool tool => cases tool <;> exact serving
  release {cfg thread} reachable fresh := by
    have free : cfg.shared.lock ≠ some thread := lockTaken unlocked reachable thread fresh
    simp only [hub, release, if_neg free]

/-- A run of the hub behind its front ends is a run of the hub alone: every state it gets to is one
that the calls can get to, with the same calls in progress. -/
theorem server_refines_hub {sights : Sights Stats} {limit : Nat} {state : State}
    (unlocked : state.lock = none) {cfg : ServerConfig Stats}
    (reachable : Reachable (server sights limit) (fun _ _ => True) (Config.idle state) cfg) :
    ∃ hub' : HubConfig, Reachable (hub limit) (fun _ _ => True) (Config.idle state) hub' ∧
      hub'.shared = cfg.shared ∧
        hub'.live = cfg.live.map fun entry => (entry.1, (frontEnd sights).callOf entry.2) := by
  obtain ⟨hub', reachable', simulates, _⟩ := FrontEnd.simulated (harmless sights unlocked limit)
    reachable
  exact ⟨hub', reachable', simulates.shared, FrontEnd.paired_live simulates.pool⟩

/-- No container runs, and nothing has been logged. -/
def Sights.none : Sights Unit where
  isRunning _ _ := .ok false
  stats _ _ := .ok ()
  store := ⟨fun _ => .none, fun _ _ => .none, fun _ _ => .none⟩
  fromUtf8Lossy _ := ""

def ada : CurrentUser := ⟨7, "ada", .member⟩

def hubOfAda : State := State.fresh plainKey [⟨7, "ada"⟩] [⟨1, false⟩]

/-- A member has created an app, and renames it. -/
def createThenRename (count : Nat) : List (Command (Entry AppRequest Call) Choice) :=
  let app := Uuid.repeated 1
  let plain : Choice := {}
  .start (.inner .startup) :: steps 0 7 plain ++
  .start (.request ⟨ada, .rest .post (.createApp "app" .upload [] 1)⟩) :: steps 1 15 { id := app } ++
  .start (.request ⟨ada, .rest .patch (.updateApp app.toString (some "next") .none .none)⟩) ::
    steps 2 count plain

theorem server_refines_hub_renaming : ∃ cfg : ServerConfig Unit,
    ((cfg.shared.db.app? (Uuid.repeated 1)).map AppRow.name = some "next" ∧
        cfg.live.length = 1) ∧
      ∃ hub' : HubConfig, Reachable (hub 1000) (fun _ _ => True) (Config.idle hubOfAda) hub' ∧
        hub'.shared = cfg.shared ∧
          hub'.live = cfg.live.map fun entry => (entry.1, (frontEnd Sights.none).callOf entry.2) := by
  have ran : (runChecked (server Sights.none 1000) (fun _ _ => true) (Config.idle hubOfAda)
      (createThenRename 6)).any (fun cfg => decide
        ((cfg.shared.db.app? (Uuid.repeated 1)).map AppRow.name = some "next") &&
          decide (cfg.live.length = 1)) = true := by decide +kernel
  obtain ⟨cfg, reachable, holds⟩ := runChecked_any (fun _ _ _ => trivial) ran
  simp only [Bool.and_eq_true, decide_eq_true_eq] at holds
  exact ⟨cfg, holds, server_refines_hub rfl reachable⟩

end Berth
