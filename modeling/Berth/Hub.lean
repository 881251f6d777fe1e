import Berth.Interleave.System
import Berth.Data.FileTree
import Berth.Database
import Berth.Agent

/-!
The state of a running hub together with its agents, and the atomic steps its functions take: the
write lock, fresh ids and staging paths, single queries, single filesystem operations, single
requests to an agent.
-/

namespace Berth

/-- A path component: a text, or a staging name as `unique_tmp_path` makes it. -/
inductive Component where
  | text (value : String)
  | staged (label : String) (timestamp seq : Nat) (extension : Option String)
  deriving DecidableEq

abbrev Path : Type := List Component

def appsDir : Path := [.text "apps"]

def tmpDir : Path := [.text "tmp"]

def appDir (appId : String) : Path := appsDir ++ [.text appId]

def deploymentsDir (appId : String) : Path := appDir appId ++ [.text "deployments"]

def deploymentDir (appId deploymentId : String) : Path :=
  deploymentsDir appId ++ [.text deploymentId]

def deploymentFilesDir (appId deploymentId : String) : Path :=
  deploymentDir appId deploymentId ++ [.text "files"]

structure SecretsKey where
  encrypt : (nonce : Nat) → String → AppResult String
  decrypt : String → AppResult String

/-- What an agent still has to do after the hub stopped waiting for it. -/
inductive Chore where
  | request (request : Request)
  | cleanup (container : String)
  deriving DecidableEq

structure State where
  db : Database
  files : FileTree Component
  agents : Int → Agent
  backlog : List (Int × Chore)
  secretsKey : SecretsKey
  /-- Every id `Uuid::now_v7` has returned, with the thread that asked for it. -/
  issued : List (Uuid × Nat)
  newest : Option Uuid
  /-- The thread that drew each sequence number of this process. -/
  stagers : List Nat
  lock : Option Nat
  connected : List Int
  serving : Bool

def State.owner (state : State) (id : Uuid) : Option Nat :=
  (state.issued.find? fun entry => entry.1 = id).map Prod.snd

def State.stager (state : State) (seq : Nat) : Option Nat := state.stagers[seq]?

inductive Act where
  | lock
  | unlock
  | nowV7
  | uniqueTmpPath (label : String) (extension : Option String)
  | query (query : Query)
  | encrypt (plaintext : String)
  | decrypt (ciphertext : String)
  | createDir (path : Path)
  | createDirAll (path : Path)
  | rename (source target : Path)
  | removeDirAll (path : Path)
  | removeFile (path : Path)
  | readDir (path : Path)
  | pathExists (path : Path)
  | createFile (path : Path)
  | writeFile (path : Path)
  | unpackZip (zip target : Path)
  | zipDir (source zip : Path)
  | cloneShallow (source : GitSource) (target : Path)
  | dirSizeBytes (path : Path)
  | timeoutElapsed
  | agent (host : Int) (request : Request)
  | connectedHosts
  | connect (host : Int)
  | disconnect (host : Int)
  | runBacklog (host : Int)
  | administer (users : List UserRow) (hosts : List HostRow)
  | serve

def Act.Res : Act → Type
  | lock | unlock => Unit
  | nowV7 => Uuid
  | uniqueTmpPath _ _ => Path
  | query q => AppResult q.Result
  | encrypt _ | decrypt _ => AppResult String
  | createDir _ | createDirAll _ | rename _ _ | removeDirAll _ | removeFile _ => AppResult Unit
  | readDir _ => AppResult (List Component)
  | pathExists _ | timeoutElapsed => Bool
  | createFile _ | writeFile _ | unpackZip _ _ | zipDir _ _ => AppResult Unit
  | cloneShallow _ _ => AppResult String
  | dirSizeBytes _ => AppResult Nat
  | agent _ request => AppResult request.Reply
  | connectedHosts => List Int
  | connect _ | disconnect _ | runBacklog _ | administer _ _ | serve => Unit

/-- How far a request and its reply get: `lost` is carried out but not heard of, `late` is carried
out after the hub has given up on it. -/
inductive Delivery where
  | unreachable
  | replied
  | lost (timedOut : Bool)
  | late (timedOut : Bool)
  deriving DecidableEq

/-- Whatever an atomic step leaves open. -/
structure Choice where
  failure : Option String := none
  id : Uuid := default
  number : Nat := 0
  text : String := ""
  entries : List Path := []
  flag : Bool := false
  delivery : Delivery := .replied
  fault : Option Fault := none

def notFound : AppError := .io ⟨.notFound, "No such file or directory (os error 2)"⟩

def alreadyExists : AppError := .io ⟨.alreadyExists, "File exists (os error 17)"⟩

def ioFailure (message : String) : AppError := .io ⟨.other, message⟩

/-- What the hub makes of a reply that never came. -/
def noReply (request : Request) (timedOut : Bool) : AppError :=
  if request.IsStreamed then .agentError "agent closed the stream without a final result"
  else if timedOut then .agentTimeout
  else .agentUnavailable

namespace State

variable (state : State)

def withAgent (host : Int) (agent : Agent) (cleanup : Option String) : State :=
  { state with
    agents := fun other => if other = host then agent else state.agents other
    backlog := state.backlog ++ cleanup.toList.map fun name => (host, .cleanup name) }

/-- The agent of `host` carries the request out. -/
def carryOut (host : Int) (request : Request) (fault : Option Fault) :
    request.Reply × State :=
  let (reply, agent, cleanup) := (state.agents host).handle fault request
  (reply, state.withAgent host agent cleanup)

def ask (host : Int) (request : Request) (choice : Choice) : AppResult request.Reply × State :=
  if host ∉ state.connected then (.error .agentUnavailable, state)
  else
  match choice.delivery with
  | .unreachable => (.error .agentUnavailable, state)
  | .replied =>
      let (reply, after) := state.carryOut host request choice.fault
      (.ok reply, after)
  | .lost timedOut =>
      (.error (noReply request timedOut), (state.carryOut host request choice.fault).2)
  | .late timedOut =>
      (.error (noReply request timedOut),
        { state with backlog := state.backlog ++ [(host, .request request)] })

/-- The agent of `host` gets to one of its chores. -/
def work (host : Int) (choice : Choice) : Option State :=
  match state.backlog[choice.number]? with
  | none => none
  | some (owner, chore) =>
      if owner ≠ host then none
      else
        let rest := { state with backlog := state.backlog.eraseIdx choice.number }
        match chore with
        | .request request => some (rest.carryOut host request choice.fault).2
        | .cleanup name => some (rest.withAgent host ((rest.agents host).removeContainer name) none)

def runQuery (query : Query) (choice : Choice) : AppResult query.Result × State :=
  match choice.failure with
  | some message => (.error (.db message), state)
  | none =>
      match state.db.exec query with
      | some (result, db) => (.ok result, { state with db })
      | none => (.error (.db "UNIQUE constraint failed"), state)

def withFiles (files : FileTree Component) : State := { state with files }

def createDir (path : Path) (choice : Choice) : AppResult Unit × State :=
  match choice.failure with
  | some message => (.error (ioFailure message), state)
  | none =>
      if state.files.Has path then (.error alreadyExists, state)
      else if ¬ state.files.HasParent path then (.error notFound, state)
      else (.ok (), state.withFiles (state.files.add [path]))

def createDirAll (path : Path) (choice : Choice) : AppResult Unit × State :=
  match choice.failure with
  | some message => (.error (ioFailure message), state)
  | none =>
      let missing := path.inits.filter fun front => front ≠ [] ∧ ¬ state.files.Has front
      (.ok (), state.withFiles (state.files.add missing))

/-- Every target the hub names is fresh, so an existing one is simply an error here. -/
def rename (source target : Path) (choice : Choice) : AppResult Unit × State :=
  match choice.failure with
  | some message => (.error (ioFailure message), state)
  | none =>
      if ¬ state.files.Has source then (.error notFound, state)
      else if state.files.Has target then (.error alreadyExists, state)
      else if ¬ state.files.HasParent target then (.error notFound, state)
      else (.ok (), state.withFiles (state.files.move source target))

/-- A failing removal may already have removed something: all but `choice.entries`. -/
def removeDirAll (path : Path) (choice : Choice) : AppResult Unit × State :=
  if ¬ state.files.Has path then (.error notFound, state)
  else
  match choice.failure with
  | some message =>
      (.error (ioFailure message), state.withFiles (state.files.removeBelow path choice.entries))
  | none => (.ok (), state.withFiles (state.files.removeBelow path []))

def removeFile (path : Path) (choice : Choice) : AppResult Unit × State :=
  if ¬ state.files.Has path then (.error notFound, state)
  else
  match choice.failure with
  | some message => (.error (ioFailure message), state)
  | none => (.ok (), state.withFiles (state.files.removeBelow path []))

def readDir (path : Path) (choice : Choice) : AppResult (List Component) :=
  if ¬ state.files.Has path then .error notFound
  else
  match choice.failure with
  | some message => .error (ioFailure message)
  | none => .ok (state.files.children path)

/-- Opens a file for writing, creating it if need be. -/
def createFile (path : Path) (choice : Choice) : AppResult Unit × State :=
  match choice.failure with
  | some message => (.error (ioFailure message), state)
  | none =>
      if ¬ state.files.HasParent path then (.error notFound, state)
      else (.ok (), state.withFiles (state.files.add [path]))

def populate (target : Path) (choice : Choice) : State :=
  state.withFiles (state.files.add (choice.entries.map fun entry => target ++ entry))

def unpackZip (zip target : Path) (choice : Choice) : AppResult Unit × State :=
  if ¬ state.files.Has zip then (.error notFound, state)
  else
  match choice.failure with
  | some message => (.error (.zip message), state.populate target choice)
  | none => (.ok (), state.populate target choice)

def zipDir (source zip : Path) (choice : Choice) : AppResult Unit × State :=
  if ¬ state.files.HasParent zip then (.error notFound, state)
  else
  match choice.failure with
  | some message => (.error (.zip message), state.withFiles (state.files.add [zip]))
  | none =>
      if ¬ state.files.Has source then (.error notFound, state.withFiles (state.files.add [zip]))
      else (.ok (), state.withFiles (state.files.add [zip]))

def cloneShallow (target : Path) (choice : Choice) : AppResult String × State :=
  match choice.failure with
  | some message => (.error (.git message), state.populate target choice)
  | none =>
      let contents := choice.entries.map fun entry => target ++ entry
      (.ok choice.text, state.withFiles (state.files.add (target :: contents)))

def dirSizeBytes (path : Path) (choice : Choice) : AppResult Nat :=
  if ¬ state.files.Has path then .error notFound
  else
  match choice.failure with
  | some message => .error (ioFailure message)
  | none => .ok choice.number

end State

def perform (thread : Nat) (action : Act) (choice : Choice) (state : State) :
    Option (action.Res × State) :=
  match action with
  | .lock =>
      match state.lock with
      | some _ => none
      | none => some ((), { state with lock := some thread })
  | .unlock =>
      some ((), { state with lock := if state.lock = some thread then none else state.lock })
  | .nowV7 =>
      if (state.owner choice.id).isSome ∨ ∃ newest ∈ state.newest, ¬ newest < choice.id then none
      else some (choice.id, { state with
        issued := (choice.id, thread) :: state.issued, newest := some choice.id })
  | .uniqueTmpPath label extension =>
      let seq := state.stagers.length
      some (tmpDir ++ [Component.staged label choice.number seq extension],
        { state with stagers := state.stagers ++ [thread] })
  | .query query => some (state.runQuery query choice)
  | .encrypt plaintext => some (state.secretsKey.encrypt choice.number plaintext, state)
  | .decrypt ciphertext => some (state.secretsKey.decrypt ciphertext, state)
  | .createDir path => some (state.createDir path choice)
  | .createDirAll path => some (state.createDirAll path choice)
  | .rename source target => some (state.rename source target choice)
  | .removeDirAll path => some (state.removeDirAll path choice)
  | .removeFile path => some (state.removeFile path choice)
  | .readDir path => some (state.readDir path choice, state)
  | .pathExists path => some (decide (state.files.Has path), state)
  | .createFile path => some (state.createFile path choice)
  | .writeFile _ =>
      match choice.failure with
      | some message => some (.error (ioFailure message), state)
      | none => some (.ok (), state)
  | .unpackZip zip target => some (state.unpackZip zip target choice)
  | .zipDir source zip => some (state.zipDir source zip choice)
  | .cloneShallow _ target => some (state.cloneShallow target choice)
  | .dirSizeBytes path => some (state.dirSizeBytes path choice, state)
  | .timeoutElapsed => some (choice.flag, state)
  | .agent host request => some (state.ask host request choice)
  | .connectedHosts => some (state.connected, state)
  | .connect host =>
      if host ∈ state.connected then none
      else some ((), { state with connected := host :: state.connected })
  | .disconnect host =>
      some ((), { state with connected := state.connected.filter (· ≠ host) })
  | .runBacklog host => (state.work host choice).map fun after => ((), after)
  | .administer users hosts => some ((), { state with db := { state.db with users, hosts } })
  | .serve => some ((), { state with serving := true })

/-- A dropped future gives up the write lock if it holds it. -/
def release (thread : Nat) (state : State) : State :=
  { state with lock := if state.lock = some thread then none else state.lock }

/-- The process is gone: what it kept in memory is lost, database, files and agents remain. -/
def restart (state : State) : State :=
  { state with lock := none, newest := none, stagers := [], connected := [], serving := false }

end Berth
