import Mathlib.Algebra.Order.Ring.Int

/-!
The wire and storage types of an app and its deployments, their validation, and the error type
of the hub.
-/

namespace Berth

inductive IoErrorKind where
  | notFound
  | alreadyExists
  | other
  deriving DecidableEq

structure IoError where
  kind : IoErrorKind
  message : String
  deriving DecidableEq

inductive AppError where
  | appNotFound (app : String)
  | deploymentNotFound (deployment : String)
  | appAlreadyExists (name : String)
  | deleteActiveDeployment
  | invalidName (name : String)
  | invalidRepoUrl (url : String)
  | notGitSourced (app : String)
  | deploymentInProgress (app : String)
  | invalidPublishDir (dir : String)
  | invalidRunConfig (reason : String)
  | invalidBuildConfig (reason : String)
  | invalidEnvVar (key : String)
  | invalidUsername (username : String)
  | invalidRole (role : String)
  | invalidPassword (reason : String)
  | userNotFound (username : String)
  | userAlreadyExists (username : String)
  | invalidTokenExpiry (expiresAt : Int)
  | tokenNotFound
  | hostNotFound
  | hostAlreadyExists (name : String)
  | invalidCredentials
  | tooManyLoginAttempts (minutes : Int)
  | passwordHash (message : String)
  | unauthenticated
  | forbidden (reason : String)
  | db (message : String)
  | git (message : String)
  | containerStartFailed (message : String)
  | containerUnavailable (message : String)
  | commandFailed (message : String)
  | noContainer (deployment : String)
  | agentUnavailable
  | agentTimeout
  | agentError (message : String)
  | agentOperationFailed (message : String)
  | tooLarge
  | missingUploadFile
  | zip (message : String)
  | multipart (message : String)
  | io (err : IoError)
  | corruptData (message : String)
  deriving DecidableEq

namespace AppError

/-- The `Display` text of an error. -/
def toString : AppError → String
  | appNotFound app => "app not found: " ++ app
  | deploymentNotFound deployment => "deployment not found: " ++ deployment
  | appAlreadyExists name => "app already exists: " ++ name
  | deleteActiveDeployment => "cannot delete the active deployment"
  | invalidName name => "invalid name: " ++ name
  | invalidRepoUrl url => "invalid repo url: " ++ url
  | notGitSourced app => "app " ++ app ++ " is not git-sourced"
  | deploymentInProgress app => "app " ++ app ++ " already has a deployment in progress"
  | invalidPublishDir dir => "invalid publish dir: " ++ dir
  | invalidRunConfig reason => "invalid run config: " ++ reason
  | invalidBuildConfig reason => "invalid build config: " ++ reason
  | invalidEnvVar key => "invalid env var key: " ++ key
  | invalidUsername username => "invalid username: " ++ username
  | invalidRole role => "invalid role: " ++ role
  | invalidPassword reason => reason
  | userNotFound username => "user not found: " ++ username
  | userAlreadyExists username => "user already exists: " ++ username
  | invalidTokenExpiry _ =>
      "invalid token expiry: must be in the future and within the configured maximum"
  | tokenNotFound => "token not found"
  | hostNotFound => "host not found"
  | hostAlreadyExists name => "host already exists: " ++ name
  | invalidCredentials => "invalid credentials"
  | tooManyLoginAttempts minutes =>
      "too many failed login attempts - try again in " ++ ToString.toString minutes ++ " minute(s)"
  | passwordHash message => "password hashing failed: " ++ message
  | unauthenticated => "not authenticated"
  | forbidden reason => reason
  | db message => "database error: " ++ message
  | git message => "git fetch failed: " ++ message
  | containerStartFailed message => "container failed to start: " ++ message
  | containerUnavailable message => "container backend unavailable: " ++ message
  | commandFailed message => message
  | noContainer deployment => "deployment " ++ deployment ++ " has no container"
  | agentUnavailable => "no agent is currently connected"
  | agentTimeout => "agent did not respond in time"
  | agentError message => "agent error: " ++ message
  | agentOperationFailed message => "agent operation failed: " ++ message
  | tooLarge => "upload too large"
  | missingUploadFile => "missing 'file' field in upload"
  | zip message => "zip error: " ++ message
  | multipart message => message
  | io err => err.message
  | corruptData message => "corrupt database row: " ++ message

end AppError

abbrev AppResult (α : Type) : Type := Except AppError α

inductive EnvVarValue where
  | plain (value : String)
  | secret (ciphertext : String)
  deriving DecidableEq

structure EnvVar where
  key : String
  value : EnvVarValue
  deriving DecidableEq

/-- `secret none` means "keep the existing encrypted value". -/
inductive EnvVarInputValue where
  | plain (value : String)
  | secret (value : Option String)
  deriving DecidableEq

structure EnvVarInput where
  key : String
  value : EnvVarInputValue
  deriving DecidableEq

inductive RunImage where
  | node24
  | python314
  deriving DecidableEq

def RunImage.imageTag : RunImage → String
  | node24 => "docker.io/library/node:24"
  | python314 => "docker.io/library/python:3.14"

structure BuildConfig where
  image : RunImage
  command : String
  outputDir : String
  deriving DecidableEq

instance neZeroPorts : NeZero (2 ^ 16) := ⟨by decide⟩

structure RunConfig where
  image : RunImage
  installCommand : Option String
  startCommand : String
  containerPort : Fin (2 ^ 16)
  deriving DecidableEq

inductive GitDeployMode where
  | static (publishDir : Option String)
  | build (config : BuildConfig)
  | run (config : RunConfig)
  deriving DecidableEq

structure GitSource where
  repoUrl : String
  branch : String
  mode : GitDeployMode
  deriving DecidableEq

inductive AppSource where
  | upload
  | git (source : GitSource)
  deriving DecidableEq

inductive PermissionLevel where
  | read
  | write
  deriving DecidableEq

structure AppPermission where
  username : String
  level : PermissionLevel
  deriving DecidableEq

inductive DeploymentStatus where
  | pending
  | ready
  | failed (error : String)
  deriving DecidableEq

structure GitDeploymentInfo where
  commitSha : String
  branch : String
  deriving DecidableEq

structure BuildInfo where
  image : RunImage
  command : String
  deriving DecidableEq

structure App where
  id : String
  name : String
  hostId : Int
  source : AppSource
  envVars : List EnvVar
  permissions : List AppPermission
  deriving DecidableEq

structure Deployment where
  id : String
  app : String
  originalFilename : Option String
  uploadSizeBytes : Nat
  git : Option GitDeploymentInfo
  buildInfo : Option BuildInfo
  containerName : Option String
  status : DeploymentStatus
  deriving DecidableEq

def AppSource.runConfig : AppSource → Option RunConfig
  | git { mode := .run config, .. } => some config
  | git _ | upload => none

def App.runConfig (app : App) : Option RunConfig := app.source.runConfig

/-- `char::is_whitespace`. -/
def isWhitespace (c : Char) : Bool :=
  (9 ≤ c.toNat && c.toNat ≤ 13) || c.toNat == 0x20 || c.toNat == 0x85 || c.toNat == 0xA0 ||
    c.toNat == 0x1680 || (0x2000 ≤ c.toNat && c.toNat ≤ 0x200A) || c.toNat == 0x2028 ||
    c.toNat == 0x2029 || c.toNat == 0x202F || c.toNat == 0x205F || c.toNat == 0x3000

/-- `text.trim().is_empty()`. -/
def isBlank (text : String) : Bool := text.toList.all isWhitespace

def startsWith (text lead : String) : Bool := lead.toList.isPrefixOf text.toList

def isAsciiLowercase (c : Char) : Bool := 'a' ≤ c && c ≤ 'z'

def isAsciiAlphabetic (c : Char) : Bool := isAsciiLowercase c || ('A' ≤ c && c ≤ 'Z')

def isAsciiDigit (c : Char) : Bool := '0' ≤ c && c ≤ '9'

def validateRepoUrl (repoUrl : String) : AppResult Unit :=
  if ["https://", "http://", "ssh://", "git://"].any (startsWith repoUrl) then .ok ()
  else .error (.invalidRepoUrl repoUrl)

def validateRunConfig (run : RunConfig) : AppResult Unit :=
  if run.containerPort = 0 then .error (.invalidRunConfig "container port must be 1-65535")
  else if isBlank run.startCommand then
    .error (.invalidRunConfig "start command is required in run mode")
  else .ok ()

def validateBuildConfig (build : BuildConfig) : AppResult Unit :=
  if isBlank build.command then .error (.invalidBuildConfig "build command is required")
  else if isBlank build.outputDir then .error (.invalidBuildConfig "output dir is required")
  else .ok ()

def validEnvVarKey (key : String) : Bool :=
  key.toList.head?.any (fun c => isAsciiAlphabetic c || c == '_') &&
    key.toList.all fun c => isAsciiAlphabetic c || isAsciiDigit c || c == '_'

def validateEnvVarKeys (seen : List String) : List EnvVarInput → AppResult Unit
  | [] => .ok ()
  | envVar :: rest =>
      if !validEnvVarKey envVar.key then .error (.invalidEnvVar envVar.key)
      else if envVar.key ∈ seen then .error (.invalidEnvVar envVar.key)
      else validateEnvVarKeys (envVar.key :: seen) rest

def validateEnvVarInputs (envVars : List EnvVarInput) : AppResult Unit :=
  validateEnvVarKeys [] envVars

def validateSlug (name : String) : AppResult Unit :=
  let chars := name.toList
  if !chars.isEmpty && name.utf8ByteSize ≤ 63 && chars.head? != some '-' &&
      chars.getLast? != some '-' &&
      chars.all (fun c => isAsciiLowercase c || isAsciiDigit c || c == '-') then .ok ()
  else .error (.invalidName name)

/-- Deterministic, so startup reconciliation can look containers up by name. -/
def containerName (appId deploymentId : String) : String :=
  "berth-" ++ appId ++ "-" ++ deploymentId

end Berth
