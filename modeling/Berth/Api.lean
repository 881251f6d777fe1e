import Berth.Storage

/-!
The route handlers over the storage functions and the agents, the reconciliation that runs when an
agent connects, and the startup of the hub.
-/

namespace Berth

open Interleave

/-! Requests to an agent. -/

def agentError (err : AgentError) : AppError :=
  match err.kind with
  | .startFailed => .containerStartFailed err.message
  | .commandFailed => .commandFailed err.message
  | .unavailable => .containerUnavailable err.message

def fsAgentError (err : AgentError) : AppError :=
  match err.kind with
  | .commandFailed => .commandFailed err.message
  | .startFailed | .unavailable => .agentOperationFailed err.message

def ask (host : Int) (request : Request) : AsyncResult request.Reply :=
  ExceptT.mk (act (.agent host request))

/-- Sends a request and turns an error of the agent into one of the hub. -/
def command {α : Type} (toAppError : AgentError → AppError)
    (reply : AsyncResult (Except AgentError α)) : AsyncResult α := do
  match ← reply with
  | .ok value => pure value
  | .error err => throw (toAppError err)

def start (host : Int) (deploymentId containerName : String) (runConfig : RunConfig)
    (envVars : List EnvVar) : AsyncResult Unit :=
  command agentError (ask host (.startRunContainer deploymentId containerName runConfig envVars))

def stopAndRemove (host : Int) (containerName : String) (isInstall : Bool) : AsyncResult Unit :=
  command agentError (ask host (.stopAndRemoveContainer containerName isInstall))

def runBuildCommand (host : Int) (containerName image buildCommand : String)
    (envVars : List EnvVar) : AsyncResult Unit :=
  command agentError (ask host (.runBuildCommand containerName image buildCommand envVars))

def createAgentDeploymentDir (host : Int) (deploymentId : String) : AsyncResult Unit :=
  command fsAgentError (ask host (.createDeploymentDir deploymentId))

def deleteAgentDeploymentDir (host : Int) (deploymentId : String) : AsyncResult Unit :=
  command fsAgentError (ask host (.deleteDeploymentDir deploymentId))

def listAgentDeploymentDirs (host : Int) : AsyncResult (List String) :=
  command fsAgentError (ask host .listDeploymentDirs)

def uploadZipAndExtract (host : Int) (deploymentId : String) : AsyncResult Unit :=
  command fsAgentError (ask host (.uploadZipAndExtract deploymentId))

/-! Activation and deletion. -/

/-- Stops the container of the deployment that is active, unless it is the one being activated. A
failure to find or to stop it is only logged. -/
def stopPrevious (app : App) (appId deploymentId : String) : AsyncResult Unit := do
  match ← activeDeploymentId appId with
  | none => pure ()
  | some previousId =>
      if previousId ≠ deploymentId then
        match ← Fallible.attempt (getDeployment appId previousId) with
        | .error _ => pure ()
        | .ok previous =>
            match previous.containerName with
            | none => pure ()
            | some previousContainer =>
                let _ ← Fallible.attempt (stopAndRemove app.hostId previousContainer false)
                pure ()

def startAndReplace (app : App) (runConfig : RunConfig) (appId deploymentId : String) :
    AsyncResult Unit := do
  let deployment ← getDeployment appId deploymentId
  match deployment.containerName with
  | none => throw (.containerStartFailed "run-mode deployment has no container_name")
  | some containerName =>
      let envVars ← decryptEnvVars app.envVars
      start app.hostId deploymentId containerName runConfig envVars
      stopPrevious app appId deploymentId

def startIfRun (app : App) (appId deploymentId : String) : AsyncResult Unit :=
  match app.runConfig with
  | some runConfig => startAndReplace app runConfig appId deploymentId
  | none => pure ()

def activateWithContainers (appId deploymentId : String) : AsyncResult Unit := do
  let app ← getAppById appId
  startIfRun app appId deploymentId
  activateDeployment appId deploymentId

def stopDeployment (hostId : Int) (deployment : Deployment) : AsyncResult Unit :=
  match deployment.containerName with
  | some containerName => stopAndRemove hostId containerName false
  | none => pure ()

def deleteAppWithContainers (appId : String) : AsyncResult Unit := do
  let app ← getAppById appId
  let deployments ← listDeployments appId
  Fallible.forEach (stopDeployment app.hostId) deployments
  deleteApp appId

/-- `get_deployment(..).ok().and_then(|deployment| deployment.container_name)`. -/
def containerNameOf (appId deploymentId : String) : AsyncResult (Option String) := do
  match ← Fallible.attempt (getDeployment appId deploymentId) with
  | .ok deployment => pure deployment.containerName
  | .error _ => pure none

def removeFromAgent (hostId : Int) (deploymentId : String) : Option String → AsyncResult Unit
  | some containerName => do
      stopAndRemove hostId containerName false
      deleteAgentDeploymentDir hostId deploymentId
  | none => pure ()

def deleteDeploymentWithContainers (appId deploymentId : String) : AsyncResult Unit := do
  let app ← getAppById appId
  let containerName ← containerNameOf appId deploymentId
  deleteDeployment appId deploymentId
  removeFromAgent app.hostId deploymentId containerName

/-! Uploads. -/

/-- Writes the chunks of the file field, as long as they stay under the upload limit. -/
def writeChunks (zipPath : Path) (limit : Nat) (total : Nat) :
    List (Except String Nat) → AsyncResult Nat
  | [] => pure total
  | .error message :: _ => throw (.multipart message)
  | .ok size :: rest => do
      let total := total + size
      if total > limit then
        throw .tooLarge
      ExceptT.mk (act (.writeFile zipPath))
      writeChunks zipPath limit total rest

def streamUploadToDisk (zipPath : Path) (limit : Nat) :
    List Field → AsyncResult (Option String × Nat)
  | [] => throw .missingUploadFile
  | field :: rest =>
      if field.name ≠ some "file" then streamUploadToDisk zipPath limit rest
      else do
        ExceptT.mk (act (.createFile zipPath))
        let total ← writeChunks zipPath limit 0 field.chunks
        pure (field.fileName, total)

def uploadDeployment (appId : String) (fields : List Field) (limit : Nat) :
    AsyncResult Deployment := do
  let zipPath ← uniqueTmpPath "upload" (some "zip")
  let (originalFilename, uploadSizeBytes) ←
    Fallible.onError (streamUploadToDisk zipPath limit fields) (removeFileLogged zipPath)
  let result ← Fallible.attempt (createDeployment appId zipPath originalFilename uploadSizeBytes)
  Fallible.lift (removeFileLogged zipPath)
  liftResult result

/-! Git deployments. -/

def startGitDeployment (appId : String) : AsyncResult Deployment := do
  let (deployment, gitSource) ← createPendingGitDeployment appId
  Fallible.lift (Program.spawn (.runGitDeployment appId deployment.id gitSource))
  pure deployment

def shipRunDeploymentToAgent (appId deploymentId : String) : AsyncResult Unit := do
  let appRow ← findAppRowById appId
  let filesDir := deploymentFilesDir appRow.id.toString deploymentId
  let zipPath ← uniqueTmpPath "ship-to-agent" (some "zip")
  ExceptT.mk (act (.zipDir filesDir zipPath))
  let result ← Fallible.attempt do
    createAgentDeploymentDir appRow.hostId deploymentId
    uploadZipAndExtract appRow.hostId deploymentId
  Fallible.lift (removeFileLogged zipPath)
  liftResult result

def timeoutElapsed : AsyncResult Bool := Fallible.lift (act .timeoutElapsed)

/-- The clone, raced against the fetch timeout; a clone that loses is waited for and dropped. -/
def cloneWithTimeout (staging : Path) (gitSource : GitSource) : AsyncResult (Path × String) := do
  let result ← Fallible.attempt (cloneRepo staging gitSource)
  if ← timeoutElapsed then
    throw (.git "timed out waiting for git fetch")
  liftResult result

def runBuild (app : App) (deploymentId : String) (mode : GitDeployMode) : AsyncResult Unit :=
  match mode with
  | .build build => do
      let envVars ← decryptEnvVars app.envVars
      runBuildCommand app.hostId (containerName app.id deploymentId) build.image.imageTag
        build.command envVars
  | .static _ | .run _ => pure ()

def shipIfRun (appId deploymentId : String) (mode : GitDeployMode) : AsyncResult Unit :=
  match mode with
  | .run _ => shipRunDeploymentToAgent appId deploymentId
  | .static _ | .build _ => pure ()

/-- Everything up to the content being in place: clone, build, move. Whatever fails here takes the
staging directory with it. -/
def prepareGitDeployment (app : App) (staging : Path) (appId deploymentId : String)
    (gitSource : GitSource) : AsyncResult Unit :=
  Fallible.onError
    (do
      let (checkoutDir, commitSha) ← cloneWithTimeout staging gitSource
      runBuild app deploymentId gitSource.mode
      finishGitDeployment staging checkoutDir appId deploymentId gitSource commitSha)
    (removeDirAllLogged staging)

def executeGitDeployment (appId deploymentId : String) (gitSource : GitSource) :
    AsyncResult Unit := do
  let app ← getAppById appId
  let staging ← uniqueTmpPath "git-deployment"
  prepareGitDeployment app staging appId deploymentId gitSource
  shipIfRun appId deploymentId gitSource.mode
  activateWithContainers appId deploymentId
  markGitDeploymentReady appId deploymentId

def runGitDeployment (appId deploymentId : String) (gitSource : GitSource) : Async Unit := do
  match ← (executeGitDeployment appId deploymentId gitSource).run with
  | .ok () => pure ()
  | .error err =>
      let _ ← (failGitDeployment appId deploymentId err.toString).run
      pure ()

/-! Reconciliation. -/

def interrupted : String := "interrupted by server restart"

def failPendingDeployment (app : App) (deployment : Deployment) : Async Unit :=
  if deployment.status ≠ .pending then pure ()
  else do
    match deployment.containerName with
    | some containerName =>
        let _ ← (stopAndRemove app.hostId containerName true).run
    | none => pure ()
    let _ ← (failGitDeployment app.id deployment.id interrupted).run
    pure ()

def failPendingDeploymentsOf (app : App) : Async Unit := do
  match ← (listDeployments app.id).run with
  | .error _ => pure ()
  | .ok deployments => Program.forEach (failPendingDeployment app) deployments

def failPendingDeployments : Async Unit := do
  match ← listApps.run with
  | .error _ => pure ()
  | .ok apps => Program.forEach failPendingDeploymentsOf apps

def reconcileApp (app : App) : AsyncResult Unit :=
  match app.runConfig with
  | none => pure ()
  | some runConfig => do
      match ← activeDeploymentId app.id with
      | none => pure ()
      | some deploymentId => do
          let deployment ← getDeployment app.id deploymentId
          match deployment.containerName with
          | none => pure ()
          | some containerName => do
              let envVars ← decryptEnvVars app.envVars
              start app.hostId deploymentId containerName runConfig envVars

def reconcileAppLogged (app : App) : Async Unit := do
  let _ ← (reconcileApp app).run
  pure ()

def reconcileRunModeContainers : Async Unit := do
  match ← listApps.run with
  | .error _ => pure ()
  | .ok apps => Program.forEach reconcileAppLogged apps

def sweepAgentDir (host : Int) (valid : List Uuid) (deploymentId : String) : Async Unit :=
  match Uuid.parseStr deploymentId with
  | none => pure ()
  | some id =>
      if id ∈ valid then pure ()
      else do
        let _ ← (deleteAgentDeploymentDir host deploymentId).run
        pure ()

def sweepAgentDirsOnHost (valid : List Uuid) (host : Int) : Async Unit := do
  match ← (listAgentDeploymentDirs host).run with
  | .error _ => pure ()
  | .ok ids => Program.forEach (sweepAgentDir host valid) ids

def sweepAgentOrphanedDeploymentDirs : Async Unit := do
  match ← (query .allDeployments).run with
  | .error _ => pure ()
  | .ok rows =>
      let valid := (rows.filter fun row => row.containerName.isSome).map DeploymentRow.id
      let hosts ← act .connectedHosts
      Program.forEach (sweepAgentDirsOnHost valid) hosts

def onAgentConnected : Async Unit := do
  failPendingDeployments
  reconcileRunModeContainers
  sweepAgentOrphanedDeploymentDirs

/-! The hub as a whole. -/

/-- What `main` does before it serves anything. -/
def startup : AsyncResult Unit := do
  createDirAll appsDir
  sweepTmpDir
  sweepOrphanedDirs
  Fallible.lift (act .serve)

def replyTo {α : Type} (wrap : AppResult α → Reply) (handler : AsyncResult α) : Async Reply := do
  let result ← handler.run
  pure (wrap result)

def silently {α : Type} (task : Async α) : Async Reply := do
  let _ ← task
  pure .none

def body (limit : Nat) : Call → Async Reply
  | .createApp name source envVars creator hostId =>
      replyTo .app (createApp name source envVars creator hostId)
  | .updateApp appId name envVars hostId => replyTo .app (updateApp appId name envVars hostId)
  | .updateAppPermissions appId permissions =>
      replyTo .app (updateAppPermissions appId permissions)
  | .deleteApp appId => replyTo .unit (deleteApp appId)
  | .deleteAppWithContainers appId => replyTo .unit (deleteAppWithContainers appId)
  | .createDeployment appId zipPath originalFilename uploadSizeBytes =>
      replyTo .deployment (createDeployment appId zipPath originalFilename uploadSizeBytes)
  | .uploadDeployment appId fields => replyTo .deployment (uploadDeployment appId fields limit)
  | .createPendingGitDeployment appId => replyTo .pending (createPendingGitDeployment appId)
  | .startGitDeployment appId => replyTo .deployment (startGitDeployment appId)
  | .runGitDeployment appId deploymentId gitSource =>
      silently (runGitDeployment appId deploymentId gitSource)
  | .activateDeployment appId deploymentId =>
      replyTo .unit (activateDeployment appId deploymentId)
  | .activateWithContainers appId deploymentId =>
      replyTo .unit (activateWithContainers appId deploymentId)
  | .deleteDeployment appId deploymentId => replyTo .unit (deleteDeployment appId deploymentId)
  | .deleteDeploymentWithContainers appId deploymentId =>
      replyTo .unit (deleteDeploymentWithContainers appId deploymentId)
  | .onAgentConnected => silently onAgentConnected
  | .startup => replyTo .unit startup
  | .agentConnects host => silently (act (.connect host))
  | .agentDisconnects host => silently (act (.disconnect host))
  | .agentWorks host => silently (act (.runBacklog host))
  | .administer users hosts => silently (act (.administer users hosts))

/-- A hub that is not serving yet is started up; one that is takes everything but the work it forks
by itself. -/
def admits (state : State) (live : List (Nat × Call)) : Call → Bool
  | .startup => !state.serving && live.isEmpty
  | .runGitDeployment _ _ _ => false
  | _ => state.serving

/-- The hub; `limit` is the configured upload limit. -/
def hub (limit : Nat) : Semantics Act Act.Res Call Reply State Choice where
  body := body limit
  perform := perform
  admits := admits
  release := release
  restart := restart

end Berth
