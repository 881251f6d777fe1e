import Berth.Authority

/-!
What the answers to requests show. Whoever is shown something of an app was found entitled to it
first, and nobody is ever shown a secret.
-/

namespace Berth

open Interleave Interleave.Fallible
open Auth (CurrentUser)

variable {Stats : Type} {sights : Sights Stats} {limit thread : Nat}
variable {w w' : ServerWorld Stats} {user : CurrentUser} {content : Content Stats}

/-! What there is in an answer. -/

def Answer.shows : Answer Stats → Option (Content Stats)
  | .rest (.ok content) | .tool (.ok content) => some content
  | .rest (.error _) | .tool (.error _) => none

def Content.views : Content Stats → List AppView
  | .apps views => views
  | .app view => [view]
  | .deployments _ | .deployment _ | .logs _ | .text _ | .stats _ | .nothing => []

def Content.deployed : Content Stats → List Deployment
  | .deployments views => views.map DeploymentView.deployment
  | .deployment shown => [shown]
  | .apps _ | .app _ | .logs _ | .text _ | .stats _ | .nothing => []

/-- What the tool asks for. -/
def Tool.requires : Tool → PermissionLevel
  | listApps | getApp _ | listDeployments _ | getDeploymentLogs .. | getDeploymentStats .. => .read
  | createApp .. | deleteApp _ | deployFromGit _ | activateDeployment .. | deleteDeployment .. =>
      .write

def AppRequest.requires (request : AppRequest) : PermissionLevel :=
  match request.incoming with
  | .rest method _ => method.requires
  | .tool tool => tool.requires

/-- The deployment that the logs or the stats are asked for of. -/
def Route.asksAbout : Route → Option String
  | deploymentLogs _ id _ | deploymentStats _ id => some id
  | _ => none

def Tool.asksAbout : Tool → Option String
  | getDeploymentLogs _ deploymentId | getDeploymentStats _ deploymentId => some deploymentId
  | _ => none

def AppRequest.asksAbout (request : AppRequest) : Option String :=
  match request.incoming with
  | .rest _ route => route.asksAbout
  | .tool tool => tool.asksAbout

/-- The request has inserted the row of the app. -/
def CreatedFor (w : ServerWorld Stats) (thread : Nat) (request : AppRequest) (appId : Uuid) : Prop :=
  ∃ row creatorId choice, row.id = appId ∧ w.Did (· = .act thread (.request request)
    (.query (.insertApp row creatorId)) choice (.ok ()))

/-- The request may show the app: its user is entitled to read it, and it is the one asked for where
one was; or it has just been created for this request. -/
def MayShow (w : ServerWorld Stats) (thread : Nat) (request : AppRequest) (appId : Uuid) : Prop :=
  (Entitled w thread request.user appId .read ∧
      ∀ appText ∈ request.appId, Uuid.parseStr appText = some appId) ∨
    CreatedFor w thread request appId

/-- The deployment was found among those of the app, or the request has just inserted it there. -/
def OfApp (w : ServerWorld Stats) (thread : Nat) (request : AppRequest) (appId id : Uuid) : Prop :=
  ∃ row : DeploymentRow, row.id = id ∧ row.appId = appId ∧
    ((Saw w thread fun db => db.deployment? id = some row) ∨ ∃ choice,
      w.Did (· = .act thread (.request request) (.query (.insertDeployment row)) choice (.ok ())))

/-- The request has passed the check for the app it is about. -/
def Passed (w : ServerWorld Stats) (thread : Nat) (request : AppRequest) : Prop :=
  ∀ appText ∈ request.appId, ∃ id, Uuid.parseStr appText = some id ∧
    Entitled w thread request.user id request.requires

/-- The deployment asked about is one of the app that the request is about. -/
def AsksWithin (w : ServerWorld Stats) (thread : Nat) (request : AppRequest) : Prop :=
  ∀ text ∈ request.asksAbout, ∃ appText ∈ request.appId, ∃ appId id,
    Uuid.parseStr appText = some appId ∧ Uuid.parseStr text = some id ∧
      OfApp w thread request appId id

/-- What is shown may be shown: a request about an app has passed the check, the apps shown may be
shown to the user, without their secrets, and the deployments belong to the app asked for. -/
structure Disclosed (w : ServerWorld Stats) (thread : Nat) (request : AppRequest)
    (content : Content Stats) : Prop where
  passed : Passed w thread request
  within : AsksWithin w thread request
  views : ∀ view ∈ content.views, ∃ id : Uuid, view.id = id.toString ∧ MayShow w thread request id
  masked : ∀ view ∈ content.views, ∀ envVar ∈ view.envVars, ∀ secret,
    envVar.value = .secret secret → secret = secretMask
  deployed : ∀ deployment ∈ content.deployed, ∃ appText ∈ request.appId, ∃ appId id : Uuid,
    Uuid.parseStr appText = some appId ∧ deployment.id = id.toString ∧
      OfApp w thread request appId id

theorem Entitled.read {required : PermissionLevel} {appId : Uuid}
    (entitled : Entitled w thread user appId required) : Entitled w thread user appId .read := by
  cases entitled with
  | admin isAdmin => exact .admin isAdmin
  | @granted userId level enough grant named =>
      have reads : level.satisfies .read = true := by cases level <;> rfl
      exact .granted reads grant named

/-! What the functions that show something give. -/

section Gives

variable {answers : List (Σ action : Act, action.Res)} {app : App} {view : AppView}

theorem maskSecrets_masks {envVars : List EnvVar} : ∀ envVar ∈ maskSecrets envVars, ∀ secret,
    envVar.value = .secret secret → secret = secretMask := by
  intro envVar among secret isSecret
  obtain ⟨given, _, rfl⟩ := List.mem_map.1 among
  cases value : given.value with
  | secret hidden =>
      simp only [value] at isSecret
      cases isSecret
      rfl
  | plain shown =>
      simp only [value] at isSecret
      cases isSecret

theorem gives_appView (gives : Program.Gives (appView app).run answers (.ok view)) :
    view.id = app.id ∧ view.envVars = maskSecrets app.envVars := by
  obtain ⟨active, _, _, _, _, ends⟩ := gives_bind_ok gives
  cases gives_pure ends
  exact ⟨rfl, rfl⟩

theorem gives_asText {α : Type} {program : AsyncResult α} {value : α}
    (gives : Program.Gives (asText program).run answers (.ok value)) :
    Program.Gives program.run answers (.ok value) := by
  obtain ⟨outcome, earlier, later, rfl, first, ends⟩ := Program.gives_bind gives
  obtain ⟨rfl, eq⟩ := Program.follows_done ends
  cases outcome with
  | error err => cases eq
  | ok given =>
      cases eq
      rwa [List.append_nil]

theorem gives_withWriteLock {α : Type} {body : AsyncResult α} {value : α}
    (gives : Program.Gives (withWriteLock body).run answers (.ok value)) :
    ∃ part, part ⊆ answers ∧ Program.Gives body.run part (.ok value) := by
  obtain ⟨_, _, rest, rfl, _, gives⟩ := Program.gives_bind gives
  obtain ⟨result, part, last, rfl, given, ends⟩ := Program.gives_bind gives
  obtain ⟨_, _, _, _, _, ends⟩ := Program.gives_bind ends
  cases Program.gives_done ends
  refine ⟨part, fun answer among => ?_, given⟩
  exact List.mem_append_right _ (List.mem_append_left _ among)

theorem gives_replyTo {α : Type} {wrap : AppResult α → Reply} {handler : AsyncResult α}
    {reply : Reply} (gives : (replyTo wrap handler).Gives answers reply) :
    ∃ outcome, reply = wrap outcome ∧ handler.run.Gives answers outcome := by
  obtain ⟨outcome, earlier, later, rfl, given, ends⟩ := Program.gives_bind gives
  obtain ⟨rfl, eq⟩ := Program.follows_done ends
  cases eq
  exact ⟨outcome, rfl, by rwa [List.append_nil]⟩

/-- What is listed was shown to have the grant. -/
theorem gives_listAppViews
    (gives : Program.Gives (listAppViews user).run answers (.ok content)) :
    ∃ views, content = .apps views ∧ ∀ view ∈ views, ∃ (app : App) (row : AppRow) (part : List _),
      shownTo user app = true ∧ part ⊆ answers ∧
        Program.Gives (appFromRowWithPermissions row).run part (.ok app) ∧
          view.id = app.id ∧ view.envVars = maskSecrets app.envVars := by
  obtain ⟨apps, first, rest, rfl, listed, shows⟩ := gives_bind_ok gives
  obtain ⟨views, shown, last, rfl, collected, ends⟩ := gives_bind_ok shows
  cases gives_pure ends
  obtain ⟨rows, earlier, later, rfl, _, loaded⟩ := gives_bind_ok listed
  refine ⟨views, rfl, fun view among => ?_⟩
  obtain ⟨app, isShown, part, _, viewed⟩ := gives_collect collected view among
  obtain ⟨isApp, shows⟩ := List.mem_filter.1 isShown
  obtain ⟨row, _, part', within, loads⟩ := gives_collect loaded app isApp
  refine ⟨app, row, part', shows, fun answer isAmong => ?_, loads, gives_appView viewed⟩
  exact List.mem_append_left _ (List.mem_append_right _ (within isAmong))

theorem gives_getAppView {appText : String}
    (gives : Program.Gives (getAppView appText).run answers (.ok content)) :
    ∃ app view part, content = .app view ∧ part ⊆ answers ∧
      Program.Gives (getAppById appText).run part (.ok app) ∧
        view.id = app.id ∧ view.envVars = maskSecrets app.envVars := by
  obtain ⟨app, first, rest, rfl, found, gives⟩ := gives_bind_ok gives
  obtain ⟨view, shown, last, rfl, viewed, ends⟩ := gives_bind_ok gives
  cases gives_pure ends
  exact ⟨app, view, first, rfl, List.subset_append_left _ _, found, gives_appView viewed⟩

/-- What is listed was found in the table. -/
theorem gives_listDeploymentViews {hostId : Int} {appText : String}
    (gives : Program.Gives (listDeploymentViews sights hostId appText).run answers (.ok content)) :
    ∃ views, content = .deployments views ∧ ∃ (id : Uuid) (row : AppRow) (rows : List DeploymentRow),
      Uuid.parseStr appText = some id ∧
        (⟨.query (.appById id), .ok (some row)⟩ : Σ action : Act, action.Res) ∈ answers ∧
          (⟨.query (.deploymentsOf row.id), .ok rows⟩ : Σ action : Act, action.Res) ∈ answers ∧
            ∀ view ∈ views, ∃ deployed ∈ rows, view.deployment.id = deployed.id.toString := by
  obtain ⟨active, first, rest, rfl, _, gives⟩ := gives_bind_ok gives
  obtain ⟨deployments, listed, last, rfl, lists, ends⟩ := gives_bind_ok gives
  cases gives_pure ends
  obtain ⟨row, found, later, rfl, looked, lists⟩ := gives_bind_ok lists
  obtain ⟨rows, asked, end_, rfl, reads, ends⟩ := gives_bind_ok lists
  cases gives_pure ends
  obtain ⟨id, parsed, isRow⟩ := gives_findAppRowById looked
  refine ⟨_, rfl, id, row, rows, parsed, ?_, ?_, fun view among => ?_⟩
  · simp [isRow]
  · simp [gives_query reads]
  · obtain ⟨deployment, isDeployment, rfl⟩ := List.mem_map.1 among
    obtain ⟨deployed, isDeployed, rfl⟩ := List.mem_map.1 isDeployment
    exact ⟨deployed, (List.mem_insertionSort _).1 isDeployed, rfl⟩

/-! What the calls reply. -/

theorem gives_insertNewApp {name : String} {source : AppSource} {envVars : List EnvVar}
    {creator : Option String} {hostId : Int}
    (gives : Program.Gives (insertNewApp name source envVars creator hostId).run answers (.ok app)) :
    ∃ (row : AppRow) (creatorId : Option Int), app.id = row.id.toString ∧
      (⟨.query (.insertApp row creatorId), .ok ()⟩ : Σ action : Act, action.Res) ∈ answers := by
  obtain ⟨_, _, rest₁, rfl, _, gives⟩ := gives_bind_ok gives
  obtain ⟨_, _, rest₂, rfl, _, gives⟩ := gives_bind_ok gives
  obtain ⟨creatorId, _, rest₃, rfl, _, gives⟩ := gives_bind_ok gives
  obtain ⟨id, _, rest₄, rfl, _, gives⟩ := gives_bind_ok gives
  obtain ⟨staging, _, rest₅, rfl, _, gives⟩ := gives_bind_ok gives
  obtain ⟨_, _, rest₆, rfl, _, gives⟩ := gives_bind_ok gives
  obtain ⟨_, _, rest₇, rfl, _, gives⟩ := gives_bind_ok gives
  obtain ⟨_, _, rest₈, rfl, _, gives⟩ := gives_bind_ok gives
  obtain ⟨_, inserts, rest₉, rfl, inserted, gives⟩ := gives_bind_ok gives
  obtain ⟨permissions, _, _, _, rfl⟩ := gives_appFromRowWithPermissions gives
  exact ⟨_, creatorId, rfl, by simp [gives_query inserted]⟩

theorem gives_createApp {name : String} {source : AppSource} {inputs : List EnvVarInput}
    {creator : Option String} {hostId : Int}
    (gives : Program.Gives (createApp name source inputs creator hostId).run answers (.ok app)) :
    ∃ (row : AppRow) (creatorId : Option Int), app.id = row.id.toString ∧
      (⟨.query (.insertApp row creatorId), .ok ()⟩ : Σ action : Act, action.Res) ∈ answers := by
  obtain ⟨_, _, rest₁, rfl, _, gives⟩ := gives_bind_ok gives
  obtain ⟨_, _, rest₂, rfl, _, gives⟩ := gives_bind_ok gives
  obtain ⟨_, _, rest₃, rfl, _, gives⟩ := gives_bind_ok gives
  obtain ⟨_, _, rest₄, rfl, _, gives⟩ := gives_bind_ok gives
  obtain ⟨part, within, gives⟩ := gives_withWriteLock gives
  obtain ⟨row, creatorId, isRow, inserted⟩ := gives_insertNewApp gives
  exact ⟨row, creatorId, isRow, by simp [within inserted]⟩

/-- The reply is about the app that the call was asked for. -/
def Finds (answers : List (Σ action : Act, action.Res)) (appText : String) (row : AppRow) : Prop :=
  ∃ id, Uuid.parseStr appText = some id ∧
    (⟨.query (.appById id), .ok (some row)⟩ : Σ action : Act, action.Res) ∈ answers

theorem Finds.mono {appText : String} {row : AppRow} {more : List (Σ action : Act, action.Res)}
    (finds : Finds answers appText row) (within : answers ⊆ more) : Finds more appText row := by
  obtain ⟨id, parsed, asked⟩ := finds
  exact ⟨id, parsed, within asked⟩

theorem gives_updateApp {appText : String} {name : Option String}
    {envVars : Option (List EnvVarInput)} {hostId : Option Int}
    (gives : Program.Gives (updateApp appText name envVars hostId).run answers (.ok app)) :
    ∃ row, Finds answers appText row ∧ app.id = row.id.toString := by
  obtain ⟨_, _, rest₁, rfl, _, gives⟩ := gives_bind_ok gives
  obtain ⟨row, _, rest₂, rfl, found, gives⟩ := gives_bind_ok gives
  obtain ⟨_, _, rest₃, rfl, _, gives⟩ := gives_bind_ok gives
  obtain ⟨_, _, rest₄, rfl, _, gives⟩ := gives_bind_ok gives
  obtain ⟨_, _, rest₅, rfl, _, gives⟩ := gives_bind_ok gives
  obtain ⟨_, _, rest₆, rfl, _, gives⟩ := gives_bind_ok gives
  obtain ⟨permissions, _, _, _, rfl⟩ := gives_appFromRowWithPermissions gives
  have finds : Finds _ appText row := gives_findAppRowById found
  exact ⟨row, finds.mono fun answer among => by simp [among], rfl⟩

theorem gives_updateAppPermissions {appText : String} {granted : List AppPermission}
    (gives : Program.Gives (updateAppPermissions appText granted).run answers (.ok app)) :
    ∃ row, Finds answers appText row ∧ app.id = row.id.toString := by
  obtain ⟨row, _, rest₁, rfl, found, gives⟩ := gives_bind_ok gives
  obtain ⟨_, _, rest₂, rfl, _, gives⟩ := gives_bind_ok gives
  obtain ⟨_, _, rest₃, rfl, _, gives⟩ := gives_bind_ok gives
  obtain ⟨permissions, _, _, _, rfl⟩ := gives_appFromRowWithPermissions gives
  have finds : Finds _ appText row := gives_findAppRowById found
  exact ⟨row, finds.mono fun answer among => by simp [among], rfl⟩

/-- The reply is a deployment that the call has inserted for the app it was asked for. -/
def Inserts (answers : List (Σ action : Act, action.Res)) (appText : String)
    (deployment : Deployment) : Prop :=
  ∃ (appRow : AppRow) (row : DeploymentRow), Finds answers appText appRow ∧
    row.appId = appRow.id ∧ deployment.id = row.id.toString ∧
      (⟨.query (.insertDeployment row), .ok ()⟩ : Σ action : Act, action.Res) ∈ answers

theorem Inserts.mono {appText : String} {deployment : Deployment}
    {more : List (Σ action : Act, action.Res)} (inserts : Inserts answers appText deployment)
    (within : answers ⊆ more) : Inserts more appText deployment := by
  obtain ⟨appRow, row, finds, ofApp, isRow, inserted⟩ := inserts
  exact ⟨appRow, row, finds.mono within, ofApp, isRow, within inserted⟩

theorem gives_placeDeployment {appText : String} {id : Uuid} {staging : Path}
    {originalFilename : Option String} {size : Nat} {deployment : Deployment}
    (gives : Program.Gives (placeDeployment appText id staging originalFilename size).run answers
      (.ok deployment)) : Inserts answers appText deployment := by
  obtain ⟨appRow, _, rest₁, rfl, found, gives⟩ := gives_bind_ok gives
  obtain ⟨_, _, rest₂, rfl, _, gives⟩ := gives_bind_ok gives
  obtain ⟨_, inserts, rest₃, rfl, inserted, ends⟩ := gives_bind_ok gives
  cases gives_pure ends
  obtain ⟨part, within, looked⟩ := gives_onError found
  obtain ⟨part', within', asked⟩ := gives_onError inserted
  have finds : Finds part appText appRow := gives_findAppRowById looked
  refine ⟨appRow, _, finds.mono fun answer among => by simp [within among], rfl, rfl, ?_⟩
  simp [within' (gives_query asked)]

theorem gives_createDeployment {appText : String} {zipPath : Path}
    {originalFilename : Option String} {size : Nat} {deployment : Deployment}
    (gives : Program.Gives (createDeployment appText zipPath originalFilename size).run answers
      (.ok deployment)) : Inserts answers appText deployment := by
  obtain ⟨id, _, rest₁, rfl, _, gives⟩ := gives_bind_ok gives
  obtain ⟨staging, _, rest₂, rfl, _, gives⟩ := gives_bind_ok gives
  obtain ⟨_, _, rest₃, rfl, _, gives⟩ := gives_bind_ok gives
  obtain ⟨placed, _, rest₄, rfl, locked, gives⟩ := gives_bind_ok gives
  obtain ⟨_, _, rest₅, rfl, _, ends⟩ := gives_bind_ok gives
  cases gives_pure ends
  obtain ⟨part, within, places⟩ := gives_withWriteLock locked
  exact (gives_placeDeployment places).mono fun answer among => by simp [within among]

theorem gives_uploadDeployment {appText : String} {fields : List Field} {deployment : Deployment}
    (gives : Program.Gives (uploadDeployment appText fields limit).run answers (.ok deployment)) :
    Inserts answers appText deployment := by
  obtain ⟨zipPath, _, rest₁, rfl, _, gives⟩ := gives_bind_ok gives
  obtain ⟨streamed, _, rest₂, rfl, _, gives⟩ := gives_bind_ok gives
  obtain ⟨result, _, rest₃, rfl, attempted, gives⟩ := gives_bind_ok gives
  obtain ⟨_, _, rest₄, rfl, _, ends⟩ := gives_bind_ok gives
  cases gives_liftResult ends
  exact (gives_createDeployment (gives_attempt attempted)).mono fun answer among => by simp [among]

theorem gives_startGitDeployment {appText : String} {deployment : Deployment}
    (gives : Program.Gives (startGitDeployment appText).run answers (.ok deployment)) :
    Inserts answers appText deployment := by
  obtain ⟨pending, _, rest, rfl, locked, gives⟩ := gives_bind_ok gives
  obtain ⟨_, _, last, rfl, _, ends⟩ := gives_bind_ok gives
  cases gives_pure ends
  obtain ⟨part, within, gives⟩ := gives_withWriteLock locked
  obtain ⟨appRow, _, rest₁, rfl, found, gives⟩ := gives_bind_ok gives
  obtain ⟨gitSource, _, rest₂, rfl, _, gives⟩ := gives_bind_ok gives
  obtain ⟨_, _, rest₃, rfl, _, gives⟩ := gives_bind_ok gives
  obtain ⟨id, _, rest₄, rfl, _, gives⟩ := gives_bind_ok gives
  obtain ⟨_, _, rest₅, rfl, _, gives⟩ := gives_bind_ok gives
  obtain ⟨_, inserts, rest₆, rfl, inserted, ends⟩ := gives_bind_ok gives
  cases gives_pure ends
  have finds : Finds _ appText appRow := gives_findAppRowById found
  refine ⟨appRow, _, finds.mono fun answer among => ?_, rfl, rfl, ?_⟩
  · exact List.mem_append_left _ (within (by simp [among]))
  · exact List.mem_append_left _ (within (by simp [gives_query inserted]))

theorem gives_getDeployment {appText text : String} {deployment : Deployment}
    (gives : Program.Gives (getDeployment appText text).run answers (.ok deployment)) :
    ∃ row id deployed, Finds answers appText row ∧ Uuid.parseStr text = some id ∧
      (⟨.query (.deploymentById id row.id), .ok (some deployed)⟩ : Σ action : Act, action.Res) ∈
        answers := by
  obtain ⟨row, _, rest, rfl, found, gives⟩ := gives_bind_ok gives
  obtain ⟨deployed, _, last, rfl, looked, _⟩ := gives_bind_ok gives
  unfold findDeploymentRow at looked
  split at looked
  · exact absurd looked gives_throw
  · rename_i id parsed
    obtain ⟨given, _, _, rfl, asked, ends⟩ := gives_bind_ok looked
    cases given with
    | none => exact absurd ends gives_throw
    | some other =>
        cases gives_pure ends
        have finds : Finds _ appText row := gives_findAppRowById found
        exact ⟨row, id, deployed, finds.mono (List.subset_append_left _ _), parsed,
          by simp [gives_query asked]⟩

end Gives

/-! What that says about the database. -/

section Answers

variable {request : AppRequest} {answers : List (Σ action : Act, action.Res)} {appText : String}
variable (answered : Answered (server sights limit) w thread (.request request) answers)
include answered

theorem did_query {q : Query} {value : q.Result}
    (among : (⟨.query q, .ok value⟩ : Σ action : Act, action.Res) ∈ answers) :
    ∃ choice, w.Did (· = .act thread (.request request) (.query q) choice (.ok value)) := by
  obtain ⟨moment, past, choice, _, eq, _⟩ := answered _ among
  exact ⟨choice, moment, past, eq⟩

theorem Finds.parsed {row : AppRow} (finds : Finds answers appText row) :
    Uuid.parseStr appText = some row.id := by
  obtain ⟨id, parsed, asked⟩ := finds
  rw [parsed, (saw_app answered asked).2]

theorem Inserts.ofApp {deployment : Deployment} (inserts : Inserts answers appText deployment) :
    ∃ appId id : Uuid, Uuid.parseStr appText = some appId ∧ deployment.id = id.toString ∧
      OfApp w thread request appId id := by
  obtain ⟨appRow, row, finds, ofApp, isRow, inserted⟩ := inserts
  obtain ⟨choice, did⟩ := did_query answered inserted
  exact ⟨appRow.id, row.id, finds.parsed answered, isRow, row, rfl, ofApp, .inr ⟨choice, did⟩⟩

theorem ofApp_of_listed {appId : Uuid} {rows : List DeploymentRow} {row : DeploymentRow}
    (listed : (⟨.query (.deploymentsOf appId), .ok rows⟩ : Σ action : Act, action.Res) ∈ answers)
    (among : row ∈ rows) : OfApp w thread request appId row.id := by
  have saw : Saw w thread fun db => db.deployment? row.id = some row ∧ row.appId = appId :=
    (saw_query answered listed).mono fun db executed => by
      obtain ⟨_, eq⟩ := executed
      have there := (Prod.mk.inj (Option.some.inj eq)).1
      exact Database.mem_deploymentsOf.1 (there ▸ among)
  have ofApp : row.appId = appId := by
    obtain ⟨_, _, _, _, ofApp⟩ := saw
    exact ofApp
  exact ⟨row, rfl, ofApp, .inl (saw.mono fun _ found => found.1)⟩

/-! The answers of the handlers that only read. -/

omit answered in
theorem AsksWithin.none (isNone : request.asksAbout = .none) : AsksWithin w thread request := by
  simp [AsksWithin, isNone]

theorem asksWithin_of_found {text : String} (about : request.appId = some appText)
    (asks : request.asksAbout = some text) {deployment : Deployment}
    (found : Program.Gives (getDeployment appText text).run answers (.ok deployment)) :
    AsksWithin w thread request := by
  intro other isOther
  cases asks.symm.trans isOther
  obtain ⟨row, id, deployed, finds, parsed, isDeployed⟩ := gives_getDeployment found
  have saw : Saw w thread fun db =>
      db.deployment? id = some deployed ∧ deployed.id = id ∧ deployed.appId = row.id :=
    (saw_query answered isDeployed).mono fun db executed => by
      obtain ⟨_, eq⟩ := executed
      have there := (Prod.mk.inj (Option.some.inj eq)).1
      obtain ⟨there, ofApp⟩ := Option.filter_eq_some_iff.1 there
      exact ⟨there, Database.deployment?_id there, by simpa using ofApp⟩
  have same : deployed.id = id ∧ deployed.appId = row.id := by
    obtain ⟨_, _, _, _, same⟩ := saw
    exact same
  refine ⟨appText, about, row.id, id, finds.parsed answered, parsed, deployed, same.1, same.2, ?_⟩
  exact .inl (saw.mono fun _ there => same.1 ▸ there.1)

omit answered in
theorem Disclosed.bare (passed : Passed w thread request) (within : AsksWithin w thread request)
    (noViews : content.views = [])
    (noneDeployed : content.deployed = []) : Disclosed w thread request content := by
  refine ⟨passed, within, ?_, ?_, ?_⟩ <;> simp [noViews, noneDeployed]

omit answered in
theorem Disclosed.app {view : AppView} {app : App} (passed : Passed w thread request)
    (within : AsksWithin w thread request) {id : Uuid} (isApp : app.id = id.toString) (mayShow : MayShow w thread request id)
    (shows : view.id = app.id ∧ view.envVars = maskSecrets app.envVars) :
    Disclosed w thread request (.app view) := by
  refine ⟨passed, within, ?_, ?_, fun _ among => absurd among List.not_mem_nil⟩
  · intro shown among
    cases List.mem_singleton.1 among
    exact ⟨id, shows.1.trans isApp, mayShow⟩
  · intro shown among
    cases List.mem_singleton.1 among
    rw [shows.2]
    exact maskSecrets_masks

omit answered in
/-- What the user has passed the check for may be shown. -/
theorem mayShow_of_passed (passed : Passed w thread request) (about : request.appId = some appText)
    {id : Uuid} (parsed : Uuid.parseStr appText = some id) : MayShow w thread request id := by
  obtain ⟨other, parsed', entitled⟩ := passed appText about
  cases parsed.symm.trans parsed'
  refine .inl ⟨entitled.read, fun text isText => ?_⟩
  cases about.symm.trans isText
  exact parsed

theorem found_app {app : App}
    (found : Program.Gives (getAppById appText).run answers (.ok app)) :
    ∃ id : Uuid, Uuid.parseStr appText = some id ∧ app.id = id.toString := by
  obtain ⟨row, part, _, finds, loads⟩ := gives_getAppById found
  obtain ⟨permissions, _, _, _, rfl⟩ := gives_appFromRowWithPermissions loads
  exact ⟨row.id, Finds.parsed answered finds, rfl⟩

theorem disclosed_getAppView (passed : Passed w thread request)
    (about : request.appId = some appText) (asks : request.asksAbout = none)
    (gives : Program.Gives (getAppView appText).run answers (.ok content)) :
    Disclosed w thread request content := by
  obtain ⟨app, view, part, rfl, within, found, shows⟩ := gives_getAppView gives
  obtain ⟨id, parsed, isApp⟩ := found_app (answered.mono within) found
  exact .app passed (.none asks) isApp (mayShow_of_passed passed about parsed) shows

theorem disclosed_listAppViews (unnamed : request.appId = none) (asks : request.asksAbout = none)
    (gives : Program.Gives (listAppViews request.user).run answers (.ok content)) :
    Disclosed w thread request content := by
  obtain ⟨views, rfl, all⟩ := gives_listAppViews gives
  refine ⟨by simp [Passed, unnamed], .none asks, fun view among => ?_, fun view among => ?_, ?_⟩
  · obtain ⟨app, row, part, shows, within, loads, isApp, _⟩ := all view among
    obtain ⟨permissions, part', within', loaded, rfl⟩ := gives_appFromRowWithPermissions loads
    refine ⟨row.id, isApp, .inl ⟨?_, by simp [unnamed]⟩⟩
    rcases Bool.or_eq_true_iff.1 shows with isAdmin | enough
    · exact .admin (of_decide_eq_true isAdmin)
    · exact entitled_of_permissions (answered.mono (List.Subset.trans within' within)) loaded enough
  · obtain ⟨app, _, _, _, _, _, _, masks⟩ := all view among
    rw [masks]
    exact maskSecrets_masks
  · exact fun _ among => absurd among List.not_mem_nil

theorem disclosed_listDeploymentViews (passed : Passed w thread request)
    (about : request.appId = some appText) (asks : request.asksAbout = none) {hostId : Int}
    (gives : Program.Gives (listDeploymentViews sights hostId appText).run answers (.ok content)) :
    Disclosed w thread request content := by
  obtain ⟨views, rfl, id, row, rows, parsed, found, listed, all⟩ := gives_listDeploymentViews gives
  refine ⟨passed, .none asks, by simp [Content.views], by simp [Content.views],
    fun deployment among => ?_⟩
  obtain ⟨view, isView, rfl⟩ := List.mem_map.1 among
  obtain ⟨deployed, isDeployed, isId⟩ := all view isView
  have finds : Finds answers appText row := ⟨id, parsed, found⟩
  exact ⟨appText, about, row.id, deployed.id, finds.parsed answered, isId,
    ofApp_of_listed answered listed isDeployed⟩

theorem passed_of_access {method : Method} {route : Route}
    (isIncoming : request.incoming = .rest method route)
    (access : Program.Gives (AppRequest.access request.user method route).run answers (.ok ())) :
    Passed w thread request := by
  intro appText about
  have isAbout : route.appId = some appText := by
    simpa only [AppRequest.appId, isIncoming, Option.mem_def] using about
  simp only [AppRequest.access, isAbout] at access
  simp only [AppRequest.requires, isIncoming]
  exact entitled_of_enforced answered access

/-- What a route that only reads answers. -/
theorem disclosed_of_route {method : Method} {route : Route}
    (isIncoming : request.incoming = .rest method route) {handler : AsyncResult (Content Stats)}
    (reads : route.reads sights request.user = some handler) (passed : Passed w thread request)
    (gives : Program.Gives handler.run answers (.ok content)) :
    Disclosed w thread request content := by
  have about : request.appId = route.appId := by rw [AppRequest.appId, isIncoming]
  have asks : request.asksAbout = route.asksAbout := by rw [AppRequest.asksAbout, isIncoming]
  cases route with
  | listApps =>
      cases reads
      exact disclosed_listAppViews answered about asks gives
  | getApp appId =>
      cases reads
      exact disclosed_getAppView answered passed about asks gives
  | listDeployments appId =>
      cases reads
      obtain ⟨app, _, rest, rfl, _, gives⟩ := gives_bind_ok gives
      exact disclosed_listDeploymentViews (answered.mono (List.subset_append_right _ _)) passed
        about asks gives
  | deploymentLogs appId id logsQuery =>
      cases reads
      obtain ⟨response, first, rest, rfl, logs, ends⟩ := gives_bind_ok gives
      cases gives_pure ends
      obtain ⟨deployment, part, rest', rfl, found, _⟩ := gives_bind_ok logs
      exact .bare passed (asksWithin_of_found (answered.mono fun answer among => by simp [among])
        about asks found) rfl rfl
  | deploymentStats appId id =>
      cases reads
      obtain ⟨app, _, rest, rfl, _, gives⟩ := gives_bind_ok gives
      obtain ⟨deployment, part, rest', rfl, found, gives⟩ := gives_bind_ok gives
      obtain ⟨stats, _, last, rfl, _, ends⟩ := gives_bind_ok gives
      cases gives_pure ends
      exact .bare passed (asksWithin_of_found (answered.mono fun answer among => by simp [among])
        about asks found) rfl rfl
  | createApp _ _ _ _ | deleteApp _ | updateApp _ _ _ _ | updateAppPermissions _ _
  | createDeployment _ _ | deleteDeployment _ _ | activateDeployment _ _
  | createGitDeployment _ => cases reads

/-- What a tool that only reads answers. -/
theorem disclosed_of_tool {tool : Tool} (isIncoming : request.incoming = .tool tool)
    {handler : Fallible Act Act.Res Call String (Content Stats)}
    (reads : tool.reads sights request.user = some handler)
    (gives : Program.Gives handler.run answers (.ok content)) :
    Disclosed w thread request content := by
  have about : request.appId = tool.appId := by rw [AppRequest.appId, isIncoming]
  have asks : request.asksAbout = tool.asksAbout := by rw [AppRequest.asksAbout, isIncoming]
  have passes {appText : String} (isAbout : request.appId = some appText)
      (entitled : ∃ id, Uuid.parseStr appText = some id ∧
        Entitled w thread request.user id tool.requires) : Passed w thread request := by
    intro text isText
    cases isAbout.symm.trans isText
    simp only [AppRequest.requires, isIncoming]
    exact entitled
  cases tool with
  | listApps =>
      cases reads
      exact disclosed_listAppViews answered about asks (gives_asText gives)
  | getApp appId =>
      cases reads
      obtain ⟨app, earlier, rest, rfl, access, gives⟩ := gives_bind_ok (gives_asText gives)
      have here := answered.mono (List.subset_append_left earlier rest)
      have passed := passes about (entitled_of_toolAccess here access)
      obtain ⟨view, _, last, rfl, viewed, ends⟩ := gives_bind_ok gives
      cases gives_pure ends
      obtain ⟨part, within, found, _⟩ := gives_toolAccess access
      obtain ⟨id, parsed, isApp⟩ := found_app (here.mono within) found
      exact .app passed (.none asks) isApp (mayShow_of_passed passed about parsed)
        (gives_appView viewed)
  | listDeployments appId =>
      cases reads
      obtain ⟨app, earlier, rest, rfl, access, gives⟩ := gives_bind_ok (gives_asText gives)
      have here := answered.mono (List.subset_append_left earlier rest)
      have passed := passes about (entitled_of_toolAccess here access)
      exact disclosed_listDeploymentViews (answered.mono (List.subset_append_right _ _)) passed
        about asks gives
  | getDeploymentLogs appId deploymentId =>
      cases reads
      obtain ⟨logs, earlier, rest, rfl, shown, ends⟩ := gives_bind_ok gives
      cases gives_pure ends
      obtain ⟨app, first, rest', rfl, foundApp, shown⟩ := gives_bind_ok shown
      obtain ⟨_, _, last, rfl, checks, shown⟩ := gives_bind_ok shown
      obtain ⟨deployment, part, _, rfl, found, _⟩ := gives_bind_ok shown
      have checked := gives_liftResult (gives_asText checks)
      have passed := passes about (entitled_of_check
        (answered.mono fun answer among => by simp [among]) (gives_asText foundApp) checked)
      exact .bare passed (asksWithin_of_found (answered.mono fun answer among => by simp [among])
        about asks (gives_asText found)) rfl rfl
  | getDeploymentStats appId deploymentId =>
      cases reads
      obtain ⟨app, earlier, rest, rfl, access, gives⟩ := gives_bind_ok (gives_asText gives)
      have here := answered.mono (List.subset_append_left earlier rest)
      have passed := passes about (entitled_of_toolAccess here access)
      obtain ⟨deployment, part, rest', rfl, found, gives⟩ := gives_bind_ok gives
      obtain ⟨stats, _, last, rfl, _, ends⟩ := gives_bind_ok gives
      cases gives_pure ends
      exact .bare passed (asksWithin_of_found (answered.mono fun answer among => by simp [among])
        about asks found) rfl rfl
  | createApp _ _ _ _ | deleteApp _ | deployFromGit _ | activateDeployment _ _
  | deleteDeployment _ _ => cases reads

/-- What a request answers by itself. -/
theorem disclosed_of_guard {answer : Answer Stats}
    (gives : (request.guard sights).Gives answers (.error answer))
    (shows : answer.shows = some content) : Disclosed w thread request content := by
  unfold AppRequest.guard at gives
  cases isIncoming : request.incoming with
  | rest method route =>
      simp only [isIncoming] at gives
      cases reads : route.reads sights request.user with
      | none =>
          simp only [reads] at gives
          obtain ⟨outcome, _, _, rfl, _, ends⟩ := Program.gives_bind gives
          cases outcome <;> cases Program.gives_done ends
          cases shows
      | some handler =>
          simp only [reads] at gives
          obtain ⟨result, part, _, rfl, handles, ends⟩ := Program.gives_bind gives
          cases Program.gives_done ends
          cases result with
          | error err => cases shows
          | ok value =>
              cases shows
              obtain ⟨_, first, rest, rfl, access, handles⟩ := gives_bind_ok handles
              have passed := passed_of_access
                (answered.mono fun answer among => by simp [among]) isIncoming access
              exact disclosed_of_route (answered.mono fun answer among => by simp [among])
                isIncoming reads passed handles
  | tool tool =>
      simp only [isIncoming] at gives
      cases reads : tool.reads sights request.user with
      | some handler =>
          simp only [reads] at gives
          obtain ⟨result, part, _, rfl, handles, ends⟩ := Program.gives_bind gives
          cases Program.gives_done ends
          cases result with
          | error err => cases shows
          | ok value =>
              cases shows
              exact disclosed_of_tool (answered.mono (List.subset_append_left _ _)) isIncoming reads
                handles
      | none =>
          simp only [reads] at gives
          cases about : tool.appId with
          | none =>
              simp only [about] at gives
              cases Program.gives_done gives
          | some appText =>
              simp only [about] at gives
              obtain ⟨outcome, _, _, rfl, _, ends⟩ := Program.gives_bind gives
              cases outcome <;> cases Program.gives_done ends
              cases shows

omit answered in
/-- Whatever goes on to its call asks for `Write`, and not about a deployment. -/
theorem requires_of_guard (routed : request.routed = true)
    (passes : (request.guard sights).Gives answers (.ok ())) :
    request.requires = .write ∧ request.asksAbout = none := by
  unfold AppRequest.guard at passes
  unfold AppRequest.routed at routed
  cases isIncoming : request.incoming with
  | rest method route =>
      simp only [isIncoming] at passes routed
      simp only [AppRequest.requires, AppRequest.asksAbout, isIncoming]
      cases reads : route.reads sights request.user with
      | none =>
          refine ⟨requires_write routed reads, ?_⟩
          cases route <;> first | rfl | cases reads
      | some handler =>
          simp only [reads] at passes
          obtain ⟨_, _, _, _, _, ends⟩ := Program.gives_bind passes
          cases Program.gives_done ends
  | tool tool =>
      simp only [isIncoming] at passes
      simp only [AppRequest.requires, AppRequest.asksAbout, isIncoming]
      cases reads : tool.reads sights request.user with
      | none => cases tool <;> first | exact ⟨rfl, rfl⟩ | cases reads
      | some handler =>
          simp only [reads] at passes
          obtain ⟨_, _, _, _, _, ends⟩ := Program.gives_bind passes
          cases Program.gives_done ends

theorem passed_of_guard (routed : request.routed = true)
    (passes : (request.guard sights).Gives answers (.ok ())) : Passed w thread request := by
  intro appText about
  rw [(requires_of_guard routed passes).1]
  exact entitled_of_guard answered routed about passes

omit answered in
theorem shows_of_answer {result : AppResult (Content Stats)}
    (shows : (request.answer result).shows = some content) : result = .ok content := by
  unfold AppRequest.answer at shows
  cases isIncoming : request.incoming <;> simp only [isIncoming] at shows
  all_goals cases result <;> cases shows
  all_goals rfl

/-- The app in the reply of a call may be shown. -/
theorem mayShow_of_call {app : App} (passed : Passed w thread request)
    (gives : (body limit request.call).Gives answers (.app (.ok app))) :
    ∃ id : Uuid, app.id = id.toString ∧ MayShow w thread request id := by
  have finds {appText : String} {row : AppRow} (found : Finds answers appText row)
      (names : request.call.territory.app row.id) : MayShow w thread request row.id := by
    obtain ⟨text, about, parsed⟩ := appId_of_names names
    exact mayShow_of_passed passed about parsed
  cases calls : request.call with
  | createApp name source inputs creator hostId =>
      rw [calls] at gives
      obtain ⟨outcome, eq, gives⟩ := gives_replyTo gives
      cases eq
      obtain ⟨row, creatorId, isRow, inserted⟩ := gives_createApp gives
      obtain ⟨choice, did⟩ := did_query answered inserted
      exact ⟨row.id, isRow, .inr ⟨row, creatorId, choice, rfl, did⟩⟩
  | updateApp appText name envVars newHost =>
      rw [calls] at gives finds
      obtain ⟨outcome, eq, gives⟩ := gives_replyTo gives
      cases eq
      obtain ⟨row, found, isRow⟩ := gives_updateApp gives
      exact ⟨row.id, isRow, finds found (found.parsed answered)⟩
  | updateAppPermissions appText permissions =>
      rw [calls] at gives finds
      obtain ⟨outcome, eq, gives⟩ := gives_replyTo gives
      cases eq
      obtain ⟨row, found, isRow⟩ := gives_updateAppPermissions gives
      exact ⟨row.id, isRow, finds found (found.parsed answered)⟩
  | _ =>
      rw [calls] at gives
      obtain ⟨_, _, _, _, _, ends⟩ := Program.gives_bind gives
      cases Program.gives_done ends

/-- The deployment in the reply of a call belongs to the app asked for. -/
theorem ofApp_of_call {deployment : Deployment}
    (gives : (body limit request.call).Gives answers (.deployment (.ok deployment))) :
    ∃ appText ∈ request.appId, ∃ appId id : Uuid, Uuid.parseStr appText = some appId ∧
      deployment.id = id.toString ∧ OfApp w thread request appId id := by
  have named {text : String} (inserts : Inserts answers text deployment)
      (names : ∀ appId, Uuid.parseStr text = some appId → request.call.territory.app appId) :
      ∃ appText ∈ request.appId, ∃ appId id : Uuid, Uuid.parseStr appText = some appId ∧
        deployment.id = id.toString ∧ OfApp w thread request appId id := by
    obtain ⟨appId, id, parsed, isId, ofApp⟩ := inserts.ofApp answered
    obtain ⟨appText, about, parsed'⟩ := appId_of_names (names appId parsed)
    exact ⟨appText, about, appId, id, parsed', isId, ofApp⟩
  cases calls : request.call with
  | uploadDeployment text fields =>
      rw [calls] at gives named
      obtain ⟨outcome, eq, gives⟩ := gives_replyTo gives
      cases eq
      exact named (gives_uploadDeployment gives) fun _ => id
  | startGitDeployment text =>
      rw [calls] at gives named
      obtain ⟨outcome, eq, gives⟩ := gives_replyTo gives
      cases eq
      exact named (gives_startGitDeployment gives) fun _ => id
  | createDeployment text zipPath originalFilename size =>
      rw [calls] at gives named
      obtain ⟨outcome, eq, gives⟩ := gives_replyTo gives
      cases eq
      exact named (gives_createDeployment gives) fun _ => id
  | _ =>
      rw [calls] at gives
      obtain ⟨_, _, _, _, _, ends⟩ := Program.gives_bind gives
      cases Program.gives_done ends

/-- What a request shows of the reply of its call. -/
theorem disclosed_of_view {reply : Reply} {answer : Answer Stats} (passed : Passed w thread request)
    (asks : request.asksAbout = none) {part : List (Σ action : Act, action.Res)}
    (called : (body limit request.call).Gives answers reply)
    (views : (request.view reply : Async (Answer Stats)).Gives part answer)
    (shows : answer.shows = some content) : Disclosed w thread request content := by
  cases reply with
  | app outcome =>
      cases outcome with
      | error err =>
          cases Program.gives_done views
          cases shows_of_answer shows
      | ok app =>
          obtain ⟨result, earlier, later, rfl, viewed, ends⟩ := Program.gives_bind views
          cases Program.gives_done ends
          cases result with
          | error err => cases shows_of_answer shows
          | ok view =>
              cases shows_of_answer shows
              obtain ⟨id, isApp, mayShow⟩ := mayShow_of_call answered passed called
              exact .app passed (.none asks) isApp mayShow (gives_appView viewed)
  | deployment outcome =>
      cases Program.gives_done views
      cases outcome with
      | error err => cases shows_of_answer shows
      | ok deployment =>
          cases shows_of_answer shows
          refine ⟨passed, .none asks, by simp [Content.views], by simp [Content.views],
            fun shown among => ?_⟩
          cases List.mem_singleton.1 among
          exact ofApp_of_call answered called
  | unit outcome =>
      cases Program.gives_done views
      cases outcome with
      | error err => cases shows_of_answer shows
      | ok value =>
          cases shows_of_answer shows
          exact .bare passed (.none asks) rfl rfl
  | pending _ | none =>
      cases Program.gives_done views
      cases shows_of_answer shows
      exact .bare passed (.none asks) rfl rfl

end Answers

/-- Whatever a request is answered may be shown to its user. -/
theorem answers_disclose {state : State} (blank : state.Blank) (unlocked : state.lock = none)
    {cfg next : ServerConfig Stats}
    (reachable : Reachable (server sights limit) (fun _ _ => True) (Config.idle state) cfg)
    {command : Command (Entry AppRequest Call) Choice} {request : AppRequest}
    {answer : Answer Stats}
    (finished : cfg.exec (server sights limit) command =
      some (.finish thread (.request request) (.answer answer), next))
    (shows : answer.shows = some content) : Disclosed cfg.world thread request content := by
  have executes := Config.exec_executes finished
  generalize isEvent : Event.finish thread (Entry.request request) (Output.answer answer) = event
    at executes
  cases executes with
  | @finish task output member program =>
      obtain ⟨thread', entry', rest⟩ := task
      cases isEvent
      cases program
      obtain ⟨routed⟩ := entered_in_run blank unlocked reachable _ (Config.mem_live member)
      obtain ⟨answers, follows, answered⟩ := follows_in_run reachable _ member
      rcases FrontEnd.gives_request follows with
        ⟨_, eq, earlier, later, rfl, guarded⟩ |
          ⟨reply, _, eq, earlier, middle, later, rfl, passes, called, views⟩
      · cases eq
        exact disclosed_of_guard (answered.mono (List.subset_append_left _ _)) guarded shows
      · cases eq
        have passed := passed_of_guard (answered.mono (List.subset_append_left _ _)) routed passes
        exact disclosed_of_view (answered.mono fun answer among => by simp [among]) passed
          (requires_of_guard routed passes).2 called views shows
  | _ => cases isEvent

/-- A member has created an app with a secret, and asks for it. -/
def createThenGet : List (Command (Entry AppRequest Call) Choice) :=
  let app := Uuid.repeated 1
  let plain : Choice := {}
  .start (.inner .startup) :: steps 0 7 plain ++
  .start (.request ⟨ada, .rest .post (.createApp "app" .upload [⟨"TOKEN", .secret (some "key")⟩] 1)⟩) ::
    steps 1 16 { id := app } ++
  .start (.request ⟨ada, .rest .get (.getApp app.toString)⟩) :: steps 2 7 plain

/-- The environment variables that the end of a request shows. -/
def shownEnvVars : ServerEvent Stats → List (List EnvVar)
  | .finish _ (.request _) (.answer answer) =>
      (answer.shows.elim [] Content.views).map AppView.envVars
  | _ => []

theorem answers_disclose_masked : ∃ (cfg next : ServerConfig Unit) (thread : Nat)
    (request : AppRequest) (answer : Answer Unit) (content : Content Unit),
    cfg.exec (server Sights.none 1000) (.step 2 {}) =
        some (.finish thread (.request request) (.answer answer), next) ∧
      answer.shows = some content ∧
        content.views.map AppView.envVars = [[⟨"TOKEN", .secret secretMask⟩]] ∧
          Disclosed cfg.world thread request content := by
  have ran : (runChecked (server Sights.none 1000) (fun _ _ => true) (Config.idle hubOfAda)
      createThenGet).any (fun cfg => (cfg.exec (server Sights.none 1000) (.step 2 {})).any
        fun executed => decide (shownEnvVars executed.1 = [[⟨"TOKEN", .secret secretMask⟩]])) =
      true := by decide +kernel
  obtain ⟨cfg, reachable, holds⟩ := runChecked_any (fun _ _ _ => trivial) ran
  obtain ⟨⟨event, next⟩, executed, holds⟩ := (Option.any_eq_true _ _).1 holds
  have shown := of_decide_eq_true holds
  cases event with
  | finish thread entry output =>
      cases entry with
      | inner call => cases shown
      | request request =>
          cases output with
          | reply reply => cases shown
          | answer answer =>
              cases shows : answer.shows with
              | none =>
                  simp only [shownEnvVars, shows] at shown
                  cases shown
              | some content =>
                  simp only [shownEnvVars, shows] at shown
                  exact ⟨cfg, next, thread, request, answer, content, executed, shows, shown,
                    answers_disclose State.blank_fresh rfl reachable executed shows⟩
  | _ => cases shown

end Berth
