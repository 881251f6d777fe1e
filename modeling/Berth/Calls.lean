import Berth.Hub

/-!
The calls a hub serves, and the two kinds of functions it is written in: `Async` ones, and
`AsyncResult` ones that may return early with an error.
-/

namespace Berth

open Interleave

/-- One field of a multipart upload: the sizes of its chunks, or the error that ended it. -/
structure Field where
  name : Option String
  fileName : Option String
  chunks : List (Except String Nat)
  deriving DecidableEq

/-- Everything that can be in progress. The calls of the storage functions stand next to the
route handlers built on them; the last group is what goes on outside the hub. -/
inductive Call where
  | createApp (name : String) (source : AppSource) (envVars : List EnvVarInput)
      (creator : Option String) (hostId : Int)
  | updateApp (appId : String) (name : Option String) (envVars : Option (List EnvVarInput))
      (hostId : Option Int)
  | updateAppPermissions (appId : String) (permissions : List AppPermission)
  | deleteApp (appId : String)
  | deleteAppWithContainers (appId : String)
  | createDeployment (appId : String) (zipPath : Path) (originalFilename : Option String)
      (uploadSizeBytes : Nat)
  | uploadDeployment (appId : String) (fields : List Field)
  | createPendingGitDeployment (appId : String)
  | startGitDeployment (appId : String)
  | runGitDeployment (appId deploymentId : String) (gitSource : GitSource)
  | activateDeployment (appId deploymentId : String)
  | activateWithContainers (appId deploymentId : String)
  | deleteDeployment (appId deploymentId : String)
  | deleteDeploymentWithContainers (appId deploymentId : String)
  | onAgentConnected
  | startup
  | agentConnects (host : Int)
  | agentDisconnects (host : Int)
  | agentWorks (host : Int)
  | administer (users : List UserRow) (hosts : List HostRow)
  deriving DecidableEq

inductive Reply where
  | app (result : AppResult App)
  | deployment (result : AppResult Deployment)
  | pending (result : AppResult (Deployment × GitSource))
  | unit (result : AppResult Unit)
  | none

abbrev Async (α : Type) : Type := Program Act Act.Res Call α

abbrev AsyncResult (α : Type) : Type := Fallible Act Act.Res Call AppError α

abbrev HubEvent : Type := Event Act Act.Res Call Reply Choice

abbrev HubWorld : Type := World Act Act.Res Call Reply State Choice

abbrev HubConfig : Type := Config Act Act.Res Call Reply State Choice

/-! Single actions as functions of the hub. -/

abbrev act (action : Act) : Async action.Res := Program.perform action

def query (q : Query) : AsyncResult q.Result := ExceptT.mk (act (.query q))

def nowV7 : AsyncResult Uuid := Fallible.lift (act .nowV7)

def uniqueTmpPath (label : String) (extension : Option String := none) : AsyncResult Path :=
  Fallible.lift (act (.uniqueTmpPath label extension))

def createDir (path : Path) : AsyncResult Unit := ExceptT.mk (act (.createDir path))

def createDirAll (path : Path) : AsyncResult Unit :=
  ExceptT.mk (act (.createDirAll path))

def rename (source target : Path) : AsyncResult Unit :=
  ExceptT.mk (act (.rename source target))

def removeDirAll (path : Path) : AsyncResult Unit :=
  ExceptT.mk (act (.removeDirAll path))

def removeFile (path : Path) : AsyncResult Unit :=
  ExceptT.mk (act (.removeFile path))

def readDir (path : Path) : AsyncResult (List Component) :=
  ExceptT.mk (act (.readDir path))

def pathExists (path : Path) : AsyncResult Bool :=
  Fallible.lift (act (.pathExists path))

/-- `std::fs::remove_dir_all(path).ok()`, also where a failure is only logged. -/
def removeDirAllLogged (path : Path) : Async Unit := do
  let _ ← (removeDirAll path).run
  pure ()

def removeFileLogged (path : Path) : Async Unit := do
  let _ ← (removeFile path).run
  pure ()

/-- `write_lock` is held while `body` runs, and given back however it ends. -/
def withWriteLock {α : Type} (body : AsyncResult α) : AsyncResult α :=
  ExceptT.mk do
    let _ ← act .lock
    let result ← body.run
    let _ ← act .unlock
    pure result

end Berth
