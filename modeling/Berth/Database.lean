import Berth.Data.Table
import Berth.Models
import Berth.Uuid

/-!
The database of the hub: its rows, and the queries the storage functions issue. Each query is one
committed transaction. The JSON columns are kept as the values they encode.
-/

namespace Berth

inductive DeploymentState where
  | pending
  | ready
  | failed
  deriving DecidableEq

structure AppRow where
  id : Uuid
  name : String
  source : AppSource
  envVars : List EnvVar
  activeDeploymentId : Option Uuid
  hostId : Int
  deriving DecidableEq

structure DeploymentRow where
  id : Uuid
  appId : Uuid
  originalFilename : Option String
  uploadSizeBytes : Nat
  gitInfo : Option GitDeploymentInfo
  buildInfo : Option BuildInfo
  containerName : Option String
  status : DeploymentState
  failureError : Option String
  deriving DecidableEq

structure PermissionRow where
  appId : Uuid
  userId : Int
  level : PermissionLevel
  deriving DecidableEq

structure UserRow where
  id : Int
  username : String
  deriving DecidableEq

structure HostRow where
  id : Int
  revoked : Bool
  deriving DecidableEq

structure Database where
  apps : Table AppRow Uuid AppRow.id
  deployments : Table DeploymentRow Uuid DeploymentRow.id
  permissions : List PermissionRow
  users : List UserRow
  hosts : List HostRow
  deriving Inhabited

inductive Query where
  | appById (id : Uuid)
  | appByName (name : String)
  | allApps
  | permissionsOf (appId : Uuid)
  | usersIn (ids : List Int)
  | userByName (username : String)
  | hostById (id : Int)
  | deploymentById (id appId : Uuid)
  | deploymentsOf (appId : Uuid)
  | allDeployments
  | insertApp (row : AppRow) (creator : Option Int)
  | updateApp (id : Uuid) (name : Option String) (envVars : Option (List EnvVar))
      (hostId : Option Int)
  | setActiveDeployment (appId deploymentId : Uuid)
  | deleteApp (id : Uuid)
  | replacePermissions (appId : Uuid) (granted : List (Int × PermissionLevel))
  | insertDeployment (row : DeploymentRow)
  | updateGitInfo (id : Uuid) (gitInfo : Option GitDeploymentInfo) (buildInfo : Option BuildInfo)
      (uploadSizeBytes : Nat)
  | updateStatus (id : Uuid) (status : DeploymentState) (failureError : Option String)
  | deleteDeployment (id : Uuid)

namespace Query

def Result : Query → Type
  | appById _ | appByName _ => Option AppRow
  | allApps => List AppRow
  | permissionsOf _ => List PermissionRow
  | usersIn _ => List UserRow
  | userByName _ => Option UserRow
  | hostById _ => Option HostRow
  | deploymentById _ _ => Option DeploymentRow
  | deploymentsOf _ | allDeployments => List DeploymentRow
  | insertApp _ _ | updateApp _ _ _ _ | setActiveDeployment _ _ | deleteApp _ => Unit
  | replacePermissions _ _ | insertDeployment _ | updateGitInfo _ _ _ _ | updateStatus _ _ _ | deleteDeployment _ => Unit

/-- Queries that only look something up. -/
def IsRead : Query → Bool
  | appById _ | appByName _ | allApps | permissionsOf _ | usersIn _ | userByName _ | hostById _
  | deploymentById _ _ | deploymentsOf _ | allDeployments => true
  | insertApp _ _ | updateApp _ _ _ _ | setActiveDeployment _ _ | deleteApp _
  | replacePermissions _ _ | insertDeployment _ | updateGitInfo _ _ _ _ | updateStatus _ _ _
  | deleteDeployment _ => false

end Query

def AppRow.change (row : AppRow) (name : Option String) (envVars : Option (List EnvVar))
    (hostId : Option Int) : AppRow :=
  { row with
    name := name.getD row.name
    envVars := envVars.getD row.envVars
    hostId := hostId.getD row.hostId }

def DeploymentRow.record (row : DeploymentRow) (gitInfo : Option GitDeploymentInfo)
    (buildInfo : Option BuildInfo) (uploadSizeBytes : Nat) : DeploymentRow :=
  { row with gitInfo, buildInfo, uploadSizeBytes }

def DeploymentRow.become (row : DeploymentRow) (status : DeploymentState)
    (failureError : Option String) : DeploymentRow :=
  { row with status, failureError }

namespace Database

variable (db : Database)

def app? (id : Uuid) : Option AppRow := db.apps.get? id

def deployment? (id : Uuid) : Option DeploymentRow := db.deployments.get? id

def deploymentsOf (appId : Uuid) : List DeploymentRow :=
  db.deployments.rows.filter fun row => row.appId = appId

/-- `App.name` carries a unique index. -/
def nameTaken (name : String) (except : Option Uuid) : Bool :=
  db.apps.rows.any fun row => row.name = name && some row.id ≠ except

/-- `none` where a unique index rejects the write. -/
def exec (db : Database) : (query : Query) → Option (query.Result × Database)
  | .appById id => some (db.app? id, db)
  | .appByName name => some (db.apps.rows.find? fun row => row.name = name, db)
  | .allApps => some (db.apps.rows, db)
  | .permissionsOf appId => some (db.permissions.filter fun row => row.appId = appId, db)
  | .usersIn ids => some (db.users.filter fun user => user.id ∈ ids, db)
  | .userByName username => some (db.users.find? fun user => user.username = username, db)
  | .hostById id => some (db.hosts.find? fun host => host.id = id, db)
  | .deploymentById id appId =>
      some ((db.deployment? id).filter fun row => row.appId = appId, db)
  | .deploymentsOf appId => some (db.deploymentsOf appId, db)
  | .allDeployments => some (db.deployments.rows, db)
  | .insertApp row creator =>
      if db.nameTaken row.name none then none
      else (db.apps.insert? row).map fun apps =>
        let granted := creator.toList.map fun userId => ⟨row.id, userId, .write⟩
        ((), { db with apps, permissions := db.permissions ++ granted })
  | .updateApp id name envVars hostId =>
      if name.any fun name => db.nameTaken name (some id) then none
      else
        let apps := db.apps.modify id (fun row => row.change name envVars hostId) fun _ => rfl
        some ((), { db with apps })
  | .setActiveDeployment appId deploymentId =>
      let apps := db.apps.modify appId
        (fun row => { row with activeDeploymentId := some deploymentId }) fun _ => rfl
      some ((), { db with apps })
  | .deleteApp id =>
      some ((), { db with
        apps := db.apps.deleteWhere fun row => row.id = id
        deployments := db.deployments.deleteWhere fun row => row.appId = id
        permissions := db.permissions.filter fun row => row.appId ≠ id })
  | .replacePermissions appId granted =>
      let rows := granted.map fun grant => ⟨appId, grant.1, grant.2⟩
      some ((), { db with
        permissions := (db.permissions.filter fun row => row.appId ≠ appId) ++ rows })
  | .insertDeployment row =>
      (db.deployments.insert? row).map fun deployments => ((), { db with deployments })
  | .updateGitInfo id gitInfo buildInfo uploadSizeBytes =>
      let deployments := db.deployments.modify id
        (fun row => row.record gitInfo buildInfo uploadSizeBytes) fun _ => rfl
      some ((), { db with deployments })
  | .updateStatus id status failureError =>
      let deployments := db.deployments.modify id (fun row => row.become status failureError)
        fun _ => rfl
      some ((), { db with deployments })
  | .deleteDeployment id =>
      some ((), { db with deployments := db.deployments.deleteWhere fun row => row.id = id })

variable {db} {db' : Database}

theorem exec_read {query : Query} {result : query.Result} (read : query.IsRead = true)
    (executed : db.exec query = some (result, db')) : db' = db := by
  cases query <;> first | (cases executed; rfl) | cases read

theorem mem_deploymentsOf {row : DeploymentRow} {appId : Uuid} :
    row ∈ db.deploymentsOf appId ↔ db.deployment? row.id = some row ∧ row.appId = appId := by
  simp [deploymentsOf, deployment?, Table.mem_rows]

theorem deployment?_id {id : Uuid} {row : DeploymentRow} (found : db.deployment? id = some row) :
    row.id = id := Table.get?_key found

theorem app?_id {id : Uuid} {row : AppRow} (found : db.app? id = some row) : row.id = id :=
  Table.get?_key found

/-! What each write does to the rows of the two tables. -/

section Writes

theorem exec_insertApp {row : AppRow} {creator : Option Int}
    (executed : db.exec (.insertApp row creator) = some ((), db')) :
    db.app? row.id = none ∧ (∀ id, db'.app? id = if id = row.id then some row else db.app? id) ∧
      db'.deployments = db.deployments := by
  simp only [exec] at executed
  split at executed
  · cases executed
  · cases inserted : db.apps.insert? row with
    | none => simp [inserted] at executed
    | some apps =>
        rw [inserted] at executed
        cases executed
        obtain ⟨fresh, lookup⟩ := Table.insert?_eq_some inserted
        exact ⟨fresh, lookup, rfl⟩

theorem exec_updateApp {id : Uuid} {name : Option String} {envVars : Option (List EnvVar)}
    {hostId : Option Int} (executed : db.exec (.updateApp id name envVars hostId) = some ((), db')) :
    (∀ other, db'.app? other =
      if other = id then (db.app? other).map fun row => row.change name envVars hostId
      else db.app? other) ∧ db'.deployments = db.deployments := by
  simp only [exec] at executed
  split at executed
  · cases executed
  · cases executed
    refine ⟨fun other => Table.get?_modify ?_, rfl⟩
    exact fun _ => rfl

theorem exec_setActiveDeployment {appId deploymentId : Uuid}
    (executed : db.exec (.setActiveDeployment appId deploymentId) = some ((), db')) :
    (∀ other, db'.app? other =
      if other = appId then
        (db.app? other).map fun row => { row with activeDeploymentId := some deploymentId }
      else db.app? other) ∧ db'.deployments = db.deployments := by
  cases executed
  refine ⟨fun other => Table.get?_modify ?_, rfl⟩
  exact fun _ => rfl

theorem exec_deleteApp {id : Uuid} (executed : db.exec (.deleteApp id) = some ((), db')) :
    (∀ other, db'.app? other = if other = id then none else db.app? other) ∧
      ∀ other, db'.deployment? other = (db.deployment? other).filter fun row => row.appId ≠ id := by
  cases executed
  refine ⟨fun other => ?_, fun other => ?_⟩
  · simp only [app?, Table.get?_deleteWhere]
    cases found : db.apps.get? other with
    | none => simp
    | some row =>
        have key := Table.get?_key found
        subst key
        by_cases same : row.id = id <;> simp [same]
  · simp only [deployment?, Table.get?_deleteWhere]
    simp

theorem exec_replacePermissions {appId : Uuid} {granted : List (Int × PermissionLevel)}
    (executed : db.exec (.replacePermissions appId granted) = some ((), db')) :
    db'.apps = db.apps ∧ db'.deployments = db.deployments := by
  cases executed
  exact ⟨rfl, rfl⟩

theorem exec_insertDeployment {row : DeploymentRow}
    (executed : db.exec (.insertDeployment row) = some ((), db')) :
    db.deployment? row.id = none ∧
      (∀ id, db'.deployment? id = if id = row.id then some row else db.deployment? id) ∧
      db'.apps = db.apps := by
  simp only [exec] at executed
  cases inserted : db.deployments.insert? row with
  | none => simp [inserted] at executed
  | some deployments =>
      rw [inserted] at executed
      cases executed
      obtain ⟨fresh, lookup⟩ := Table.insert?_eq_some inserted
      exact ⟨fresh, lookup, rfl⟩

theorem exec_updateGitInfo {id : Uuid} {gitInfo : Option GitDeploymentInfo}
    {buildInfo : Option BuildInfo} {uploadSizeBytes : Nat}
    (executed : db.exec (.updateGitInfo id gitInfo buildInfo uploadSizeBytes) = some ((), db')) :
    (∀ other, db'.deployment? other =
      if other = id then
        (db.deployment? other).map fun row => row.record gitInfo buildInfo uploadSizeBytes
      else db.deployment? other) ∧ db'.apps = db.apps := by
  cases executed
  refine ⟨fun other => Table.get?_modify ?_, rfl⟩
  exact fun _ => rfl

theorem exec_updateStatus {id : Uuid} {status : DeploymentState} {failureError : Option String}
    (executed : db.exec (.updateStatus id status failureError) = some ((), db')) :
    (∀ other, db'.deployment? other =
      if other = id then (db.deployment? other).map fun row => row.become status failureError
      else db.deployment? other) ∧ db'.apps = db.apps := by
  cases executed
  refine ⟨fun other => Table.get?_modify ?_, rfl⟩
  exact fun _ => rfl

theorem exec_deleteDeployment {id : Uuid}
    (executed : db.exec (.deleteDeployment id) = some ((), db')) :
    (∀ other, db'.deployment? other = if other = id then none else db.deployment? other) ∧
      db'.apps = db.apps := by
  cases executed
  refine ⟨fun other => ?_, rfl⟩
  simp only [deployment?, Table.get?_deleteWhere]
  cases found : db.deployments.get? other with
  | none => simp
  | some row =>
      have key := Table.get?_key found
      subst key
      by_cases same : row.id = id <;> simp [same]

end Writes

end Database

end Berth
