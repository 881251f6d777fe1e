import Mathlib.Data.List.Sort
import Berth.Calls

/-!
The storage functions: the database rows and directories of apps and deployments, kept in step.
-/

namespace Berth

open Interleave

/-! Looking rows up. -/

def findAppRowById (appId : String) : AsyncResult AppRow :=
  match Uuid.parseStr appId with
  | none => throw (.appNotFound appId)
  | some id => do
      match ← query (.appById id) with
      | some row => pure row
      | none => throw (.appNotFound appId)

def findDeploymentRow (appId : Uuid) (deploymentId : String) : AsyncResult DeploymentRow :=
  match Uuid.parseStr deploymentId with
  | none => throw (.deploymentNotFound deploymentId)
  | some id => do
      match ← query (.deploymentById id appId) with
      | some row => pure row
      | none => throw (.deploymentNotFound id.toString)

def findUserId (username : String) : AsyncResult Int := do
  match ← query (.userByName username) with
  | some user => pure user.id
  | none => throw (.userNotFound username)

/-- A grant whose user has been deleted is skipped. -/
def resolvePermissions (rows : List PermissionRow) (users : List UserRow) : List AppPermission :=
  rows.filterMap fun row =>
    (users.find? fun user => user.id = row.userId).map fun user => ⟨user.username, row.level⟩

def loadPermissions (appRow : AppRow) : AsyncResult (List AppPermission) := do
  let rows ← query (.permissionsOf appRow.id)
  let users ← query (.usersIn (rows.map PermissionRow.userId).eraseDups)
  pure (resolvePermissions rows users)

def appFromRow (row : AppRow) (permissions : List AppPermission) : App where
  id := row.id.toString
  name := row.name
  hostId := row.hostId
  source := row.source
  envVars := row.envVars
  permissions := permissions

def appFromRowWithPermissions (row : AppRow) : AsyncResult App := do
  let permissions ← loadPermissions row
  pure (appFromRow row permissions)

def DeploymentRow.deploymentStatus (row : DeploymentRow) : DeploymentStatus :=
  match row.status with
  | .pending => .pending
  | .ready => .ready
  | .failed => .failed (row.failureError.getD "")

def deploymentFromRow (row : DeploymentRow) (appName : String) : Deployment where
  id := row.id.toString
  app := appName
  originalFilename := row.originalFilename
  uploadSizeBytes := row.uploadSizeBytes
  git := row.gitInfo
  buildInfo := row.buildInfo
  containerName := row.containerName
  status := row.deploymentStatus

def getAppById (appId : String) : AsyncResult App := do
  let row ← findAppRowById appId
  appFromRowWithPermissions row

def listApps : AsyncResult (List App) := do
  let rows ← query .allApps
  let sorted := rows.insertionSort fun left right => ¬ right.name < left.name
  Fallible.collect appFromRowWithPermissions sorted

def listDeployments (appId : String) : AsyncResult (List Deployment) := do
  let appRow ← findAppRowById appId
  let rows ← query (.deploymentsOf appRow.id)
  let sorted := rows.insertionSort fun left right => ¬ right.id < left.id
  pure (sorted.map fun row => deploymentFromRow row appRow.name)

def getDeployment (appId deploymentId : String) : AsyncResult Deployment := do
  let appRow ← findAppRowById appId
  let row ← findDeploymentRow appRow.id deploymentId
  pure (deploymentFromRow row appRow.name)

def activeDeploymentId (appId : String) : AsyncResult (Option String) := do
  match ← Fallible.attempt (findAppRowById appId) with
  | .ok row => pure (row.activeDeploymentId.map Uuid.toString)
  | .error _ => pure none

/-! Environment variables. -/

def encrypt (plaintext : String) : AsyncResult String := ExceptT.mk (act (.encrypt plaintext))

def decrypt (ciphertext : String) : AsyncResult String := ExceptT.mk (act (.decrypt ciphertext))

def EnvVarValue.isSecret : EnvVarValue → Bool
  | secret _ => true
  | plain _ => false

def resolveEnvVarInput (existing : List EnvVar) (input : EnvVarInput) : AsyncResult EnvVar :=
  match input.value with
  | .plain value => pure ⟨input.key, .plain value⟩
  | .secret (some value) =>
      if value ≠ "" then do
        let ciphertext ← encrypt value
        pure ⟨input.key, .secret ciphertext⟩
      else throw (.invalidEnvVar input.key)
  | .secret none =>
      match existing.find? fun envVar => envVar.key = input.key ∧ envVar.value.isSecret with
      | some envVar => pure ⟨input.key, envVar.value⟩
      | none => throw (.invalidEnvVar input.key)

def resolveEnvVarInputs (inputs : List EnvVarInput) (existing : List EnvVar) :
    AsyncResult (List EnvVar) :=
  Fallible.collect (resolveEnvVarInput existing) inputs

def decryptEnvVar (envVar : EnvVar) : AsyncResult EnvVar :=
  match envVar.value with
  | .plain value => pure ⟨envVar.key, .plain value⟩
  | .secret ciphertext => do
      let value ← decrypt ciphertext
      pure ⟨envVar.key, .plain value⟩

def decryptEnvVars (envVars : List EnvVar) : AsyncResult (List EnvVar) :=
  Fallible.collect decryptEnvVar envVars

/-! Apps. -/

def liftResult {α : Type} (result : AppResult α) : AsyncResult α :=
  match result with
  | .ok value => pure value
  | .error err => throw err

def validateHostId (hostId : Int) : AsyncResult Unit := do
  match ← query (.hostById hostId) with
  | some host => if host.revoked then throw .hostNotFound else pure ()
  | none => throw .hostNotFound

def validateSource : AppSource → AppResult Unit
  | .upload => .ok ()
  | .git source =>
      match validateRepoUrl source.repoUrl with
      | .error err => .error err
      | .ok () =>
          match source.mode with
          | .run run => validateRunConfig run
          | .build build => validateBuildConfig build
          | .static _ => .ok ()

def requireFreeName (name : String) : AsyncResult Unit := do
  match ← query (.appByName name) with
  | some _ => throw (.appAlreadyExists name)
  | none => pure ()

def findCreatorId : Option String → AsyncResult (Option Int)
  | some username => do
      let userId ← findUserId username
      pure (some userId)
  | none => pure none

/-- What `create_app` does under the write lock. -/
def insertNewApp (name : String) (source : AppSource) (envVars : List EnvVar)
    (creator : Option String) (hostId : Int) : AsyncResult App := do
  requireFreeName name
  validateHostId hostId
  let creatorId ← findCreatorId creator
  let id ← nowV7
  let staging ← uniqueTmpPath "create-app"
  createDir staging
  createDir (staging ++ [.text "deployments"])
  Fallible.onError (rename staging (appDir id.toString)) (removeDirAllLogged staging)
  let row : AppRow := ⟨id, name, source, envVars, none, hostId⟩
  query (.insertApp row creatorId)
  appFromRowWithPermissions row

def createApp (name : String) (source : AppSource) (envVars : List EnvVarInput)
    (creator : Option String) (hostId : Int) : AsyncResult App := do
  liftResult (validateSlug name)
  liftResult (validateEnvVarInputs envVars)
  let envVars ← resolveEnvVarInputs envVars []
  liftResult (validateSource source)
  withWriteLock (insertNewApp name source envVars creator hostId)

/-- The new value of an optional field of an update. -/
def mapGiven {α β : Type} (given : Option α) (body : α → AsyncResult β) :
    AsyncResult (Option β) :=
  match given with
  | some value => do
      let result ← body value
      pure (some result)
  | none => pure none

/-- A changed name has to be valid and free. -/
def validateRename (row : AppRow) (name : String) : AsyncResult Unit :=
  if name = row.name then pure ()
  else do
    liftResult (validateSlug name)
    requireFreeName name

def updateApp (appId : String) (name : Option String) (envVars : Option (List EnvVarInput))
    (hostId : Option Int) : AsyncResult App := do
  let _ ← mapGiven envVars fun envVars => liftResult (validateEnvVarInputs envVars)
  let row ← findAppRowById appId
  let envVars ← mapGiven envVars fun envVars => resolveEnvVarInputs envVars row.envVars
  let _ ← mapGiven hostId validateHostId
  let _ ← mapGiven name (validateRename row)
  query (.updateApp row.id name envVars hostId)
  appFromRowWithPermissions (row.change name envVars hostId)

def resolveGrant (permission : AppPermission) : AsyncResult (Int × PermissionLevel) := do
  let userId ← findUserId permission.username
  pure (userId, permission.level)

def updateAppPermissions (appId : String) (permissions : List AppPermission) :
    AsyncResult App := do
  let appRow ← findAppRowById appId
  let resolved ← Fallible.collect resolveGrant permissions
  query (.replacePermissions appRow.id resolved)
  appFromRowWithPermissions appRow

def removeApp (appId : String) : AsyncResult Unit := do
  let appRow ← findAppRowById appId
  query (.deleteApp appRow.id)
  let staging ← uniqueTmpPath "deleted"
  rename (appDir appRow.id.toString) staging
  removeDirAll staging

def deleteApp (appId : String) : AsyncResult Unit := withWriteLock (removeApp appId)

/-! Deployments. -/

def setActive (appId deploymentId : String) : AsyncResult Unit := do
  let appRow ← findAppRowById appId
  let deploymentRow ← findDeploymentRow appRow.id deploymentId
  query (.setActiveDeployment appRow.id deploymentRow.id)

def activateDeployment (appId deploymentId : String) : AsyncResult Unit :=
  withWriteLock (setActive appId deploymentId)

/-- The guard of `delete_deployment`: it compares the text of the active id. -/
def requireInactive (appRow : AppRow) (deploymentId : String) : AsyncResult Unit :=
  if appRow.activeDeploymentId.map Uuid.toString = some deploymentId then
    throw .deleteActiveDeployment
  else pure ()

/-- Removes the row of a deployment unless it is the active one, and answers the app's id. -/
def removeDeploymentRow (appId deploymentId : String) : AsyncResult Uuid := do
  let appRow ← findAppRowById appId
  requireInactive appRow deploymentId
  let deploymentRow ← findDeploymentRow appRow.id deploymentId
  query (.deleteDeployment deploymentRow.id)
  pure appRow.id

def asDeploymentNotFound (deploymentId : String) : AppError → AppError
  | .io err => if err.kind = .notFound then .deploymentNotFound deploymentId else .io err
  | err => err

/-- Moves a deployment's directory, named by the text it was asked for with, out of the way. -/
def deleteDeploymentDir (appId : Uuid) (deploymentId : String) : AsyncResult Unit := do
  let staging ← uniqueTmpPath "deleted-deployment"
  let moved ← Fallible.attempt (rename (deploymentDir appId.toString deploymentId) staging)
  liftResult (moved.mapError (asDeploymentNotFound deploymentId))
  removeDirAll staging

def deleteDeployment (appId deploymentId : String) : AsyncResult Unit := do
  let appId ← withWriteLock (removeDeploymentRow appId deploymentId)
  deleteDeploymentDir appId deploymentId

def stageDeploymentFiles (staging zipPath : Path) : AsyncResult Unit := do
  createDir staging
  let filesDir := staging ++ [.text "files"]
  createDir filesDir
  ExceptT.mk (act (.unpackZip zipPath filesDir))

/-- `i64::try_from(size).unwrap_or(i64::MAX)`, as the row stores it. -/
def storedSize (size : Nat) : Nat := min size (2 ^ 63 - 1)

def uploadedRow (id appId : Uuid) (originalFilename : Option String) (uploadSizeBytes : Nat) :
    DeploymentRow :=
  ⟨id, appId, originalFilename, storedSize uploadSizeBytes, none, none, none, .ready, none⟩

/-- Moves the staged files into place and records them. Whatever fails here is cleaned up. -/
def placeDeployment (appId : String) (id : Uuid) (staging : Path)
    (originalFilename : Option String) (uploadSizeBytes : Nat) : AsyncResult Deployment := do
  let appRow ← Fallible.onError (findAppRowById appId) (removeDirAllLogged staging)
  let target := deploymentDir appRow.id.toString id.toString
  Fallible.onError (rename staging target) (removeDirAllLogged staging)
  let row := uploadedRow id appRow.id originalFilename uploadSizeBytes
  Fallible.onError (query (.insertDeployment row)) (removeDirAllLogged target)
  pure (deploymentFromRow row appRow.name)

def createDeployment (appId : String) (zipPath : Path) (originalFilename : Option String)
    (uploadSizeBytes : Nat) : AsyncResult Deployment := do
  let id ← nowV7
  let staging ← uniqueTmpPath "deployment"
  Fallible.onError (stageDeploymentFiles staging zipPath) (removeDirAllLogged staging)
  let deployment ← withWriteLock
    (placeDeployment appId id staging originalFilename uploadSizeBytes)
  activateDeployment appId deployment.id
  pure deployment

def pendingRow (id appId : Uuid) (mode : GitDeployMode) : DeploymentRow :=
  let name := match mode with
    | .run _ => some (containerName appId.toString id.toString)
    | .static _ | .build _ => none
  ⟨id, appId, none, 0, none, none, name, .pending, none⟩

def requireGitSource (appRow : AppRow) : AsyncResult GitSource :=
  match appRow.source with
  | .upload => throw (.notGitSourced appRow.name)
  | .git gitSource => pure gitSource

def requireNonePending (appRow : AppRow) : AsyncResult Unit := do
  let rows ← query (.deploymentsOf appRow.id)
  if rows.any fun row => row.status = .pending then
    throw (.deploymentInProgress appRow.name)
  else pure ()

def insertPending (appId : String) : AsyncResult (Deployment × GitSource) := do
  let appRow ← findAppRowById appId
  let gitSource ← requireGitSource appRow
  requireNonePending appRow
  let id ← nowV7
  createDir (deploymentDir appRow.id.toString id.toString)
  let row := pendingRow id appRow.id gitSource.mode
  query (.insertDeployment row)
  pure (deploymentFromRow row appRow.name, gitSource)

def createPendingGitDeployment (appId : String) : AsyncResult (Deployment × GitSource) :=
  withWriteLock (insertPending appId)

def cloneRepo (staging : Path) (gitSource : GitSource) : AsyncResult (Path × String) := do
  createDir staging
  let checkoutDir := staging ++ [.text "_checkout"]
  let commitSha ← ExceptT.mk (act (.cloneShallow gitSource checkoutDir))
  removeDirAll (checkoutDir ++ [.text ".git"])
  pure (checkoutDir, commitSha)

/-- The parts of a text between its slashes. -/
def splitSlash : List Char → List (List Char)
  | [] => [[]]
  | c :: rest =>
      if c = '/' then [] :: splitSlash rest
      else
        match splitSlash rest with
        | [] => [[c]]
        | part :: parts => (c :: part) :: parts

/-- The components of a relative path; `none` if it is absolute or climbs up. -/
def relativeComponents (text : String) : Option Path :=
  let parts := splitSlash text.toList
  if startsWith text "/" ∨ ['.', '.'] ∈ parts then none
  else some ((parts.filter fun part => part ≠ [] ∧ part ≠ ['.']).map fun part =>
    .text (String.ofList part))

def resolvePublishDir (checkoutDir : Path) (publishDir : Option String) : AsyncResult Path :=
  match publishDir with
  | none => pure checkoutDir
  | some publishDir =>
      match relativeComponents publishDir with
      | none => throw (.invalidPublishDir publishDir)
      | some relative => do
          let resolved := checkoutDir ++ relative
          if ← pathExists resolved then pure resolved else throw (.invalidPublishDir publishDir)

/-- Moves the servable content of the checkout to `staging/files`. -/
def placeContent (staging checkoutDir : Path) (mode : GitDeployMode) : AsyncResult Unit :=
  let filesDir := staging ++ [.text "files"]
  match mode with
  | .run _ => rename checkoutDir filesDir
  | .static publishDir => do
      let contentRoot ← resolvePublishDir checkoutDir publishDir
      rename contentRoot filesDir
      Fallible.lift (removeDirAllLogged checkoutDir)
  | .build build => do
      let contentRoot ← resolvePublishDir checkoutDir (some build.outputDir)
      rename contentRoot filesDir
      Fallible.lift (removeDirAllLogged checkoutDir)

def GitDeployMode.buildInfo : GitDeployMode → Option BuildInfo
  | build config => some ⟨config.image, config.command⟩
  | static _ | run _ => none

def finishGitDeployment (staging checkoutDir : Path) (appId deploymentId : String)
    (gitSource : GitSource) (commitSha : String) : AsyncResult Unit := do
  placeContent staging checkoutDir gitSource.mode
  let filesDir := staging ++ [.text "files"]
  let contentSize ← ExceptT.mk (act (.dirSizeBytes filesDir))
  let appRow ← findAppRowById appId
  rename filesDir (deploymentFilesDir appRow.id.toString deploymentId)
  let deploymentRow ← findDeploymentRow appRow.id deploymentId
  query (.updateGitInfo deploymentRow.id (some ⟨commitSha, gitSource.branch⟩)
    gitSource.mode.buildInfo (storedSize contentSize))
  Fallible.lift (removeDirAllLogged staging)

def statusColumns : DeploymentStatus → DeploymentState × Option String
  | .pending => (.pending, none)
  | .ready => (.ready, none)
  | .failed error => (.failed, some error)

def setDeploymentStatus (appId deploymentId : String) (status : DeploymentStatus) :
    AsyncResult Unit := do
  let appRow ← findAppRowById appId
  let deploymentRow ← findDeploymentRow appRow.id deploymentId
  let (stateTag, failureError) := statusColumns status
  query (.updateStatus deploymentRow.id stateTag failureError)

def markGitDeploymentReady (appId deploymentId : String) : AsyncResult Unit :=
  setDeploymentStatus appId deploymentId .ready

def failGitDeployment (appId deploymentId error : String) : AsyncResult Unit :=
  setDeploymentStatus appId deploymentId (.failed error)

/-! The sweeps at startup. -/

def sweepTmpDir : AsyncResult Unit := do
  if ← pathExists tmpDir then
    removeDirAll tmpDir
  createDirAll tmpDir

def readDirOrEmpty (path : Path) : AsyncResult (List Component) := do
  match ← Fallible.attempt (readDir path) with
  | .ok entries => pure entries
  | .error (.io err) => if err.kind = .notFound then pure [] else throw (.io err)
  | .error err => throw err

/-- The UUID a directory entry is named by, in whatever spelling. -/
def entryId : Component → Option Uuid
  | .text name => Uuid.parseStr name
  | .staged .. => none

def sweepEntry (valid : List Uuid) (directory : Path) (entry : Component)
    (keep : AsyncResult Unit) : AsyncResult Unit :=
  match entryId entry with
  | none => pure ()
  | some id => if id ∈ valid then keep else removeDirAll (directory ++ [entry])

def sweepOrphanedDeploymentDirs (appDirName : Component) (appId : Uuid) : AsyncResult Unit := do
  let rows ← query (.deploymentsOf appId)
  let directory := appsDir ++ [appDirName, .text "deployments"]
  let entries ← readDirOrEmpty directory
  Fallible.forEach
    (fun entry => sweepEntry (rows.map DeploymentRow.id) directory entry (pure ())) entries

def sweepOrphanedDirs : AsyncResult Unit := do
  let rows ← query .allApps
  let entries ← readDirOrEmpty appsDir
  Fallible.forEach
    (fun entry => sweepEntry (rows.map AppRow.id) appsDir entry
      ((entryId entry).elim (pure ()) (sweepOrphanedDeploymentDirs entry))) entries

end Berth
