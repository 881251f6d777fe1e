import Berth.Auth.Accounts
import Berth.Interleave.Alone

/-!
The handlers of the account, token and host routes, and the layers that find out who sends a
request.
-/

namespace Berth.Auth

open Interleave

/-- The routes of `/api/me`, `/api/users` and `/api/hosts`. -/
inductive Endpoint where
  | me
  | listUsers
  | createUser (username password role : String)
  | updateUser (username : String) (role password : Option String)
  | deleteUser (username : String)
  | changeOwnPassword (currentPassword newPassword : String)
  | listOwnTokens
  | createOwnToken (name : String) (expiresAt : Int)
  | revokeOwnToken (id : Int)
  | listHosts
  | createHost (name : String)
  | revokeHost (id : Int)
  deriving DecidableEq

inductive Call where
  | login (ip username password : String)
  | logout (headers : HeaderMap)
  | account (method : String) (headers : HeaderMap) (endpoint : Endpoint)
  | agentSession (headers : HeaderMap)
  | advance (seconds : Nat)
  deriving DecidableEq

structure UserView where
  username : String
  role : String
  deriving DecidableEq

inductive Response where
  | noContent
  | signedIn (token : String) (user : UserView)
  | user (user : UserView)
  | users (users : List UserView)
  | apiTokens (tokens : List ApiToken)
  | apiToken (token : ApiToken) (plaintextToken : String)
  | hosts (hosts : List Host)
  | host (host : Host) (plaintextToken : String)
  | agent (host : Host)
  deriving DecidableEq

abbrev Reply : Type := AppResult Response

abbrev Async (α : Type) : Type := Program Act Act.Res Call α

abbrev AsyncResult (α : Type) : Type := Fallible Act Act.Res Call AppError α

abbrev AuthEvent : Type := Event Act Act.Res Call Reply Choice

abbrev AuthMoment : Type := Moment Act Act.Res Call Reply State Choice

abbrev AuthWorld : Type := World Act Act.Res Call Reply State Choice

abbrev AuthConfig : Type := Config Act Act.Res Call Reply State Choice

def act (action : Act) : AsyncResult action.Res := Fallible.lift (Program.perform action)

def query (q : Query) : AsyncResult q.Result :=
  ExceptT.mk (Program.perform (Act.query q))

def liftResult {α : Type} (result : AppResult α) : AsyncResult α := ExceptT.mk (pure result)

def nowEpochSecs : AsyncResult Int := act .now

section Alone

variable {α : Type} {state state' : State}

theorem runs_act {action : Act} {outcome : AppResult action.Res} :
    Program.Runs perform (act action).run state outcome state' ↔
      ∃ choice result, outcome = .ok result ∧
        perform action choice state = some (result, state') := by
  constructor
  · intro runs
    obtain ⟨result, rfl, ran⟩ := Fallible.runs_lift.1 runs
    obtain ⟨choice, performed⟩ := Program.runs_perform.1 ran
    exact ⟨choice, result, rfl, performed⟩
  · rintro ⟨choice, result, rfl, performed⟩
    exact Fallible.runs_lift.2 ⟨result, rfl, Program.runs_perform.2 ⟨choice, performed⟩⟩

theorem runs_query {q : Query} {outcome : AppResult q.Result} :
    Program.Runs perform (query q).run state outcome state' ↔
      ∃ choice, state.runQuery q choice = (outcome, state') := by
  refine Program.runs_perform.trans (exists_congr fun choice => ?_)
  exact Option.some_inj

theorem runs_query_of_exec {q : Query} {result : q.Result} {db : Database}
    (executed : state.db.exec q = some (result, db)) :
    Program.Runs perform (query q).run state (.ok result) { state with db } := by
  refine runs_query.2 ⟨{}, ?_⟩
  simp only [State.runQuery, executed]

theorem runs_liftResult {result outcome : AppResult α}
    {performing : (action : Act) → Choice → State → Option (action.Res × State)} :
    Program.Runs performing (liftResult result).run state outcome state' ↔
      outcome = result ∧ state' = state := Iff.rfl

@[simp] theorem runs_nowEpochSecs {outcome : AppResult Int} :
    Program.Runs perform nowEpochSecs.run state outcome state' ↔
      outcome = .ok state.now ∧ state' = state := by
  refine runs_act.trans ?_
  constructor
  · rintro ⟨choice, result, rfl, performed⟩
    cases performed
    exact ⟨rfl, rfl⟩
  · rintro ⟨rfl, rfl⟩
    exact ⟨{}, _, rfl, rfl⟩

theorem runs_query_cases {q : Query} {outcome : AppResult q.Result}
    (runs : Program.Runs perform (query q).run state outcome state') :
    (∃ message, outcome = .error (.db message) ∧ state' = state) ∨
      ∃ result db, outcome = .ok result ∧ state.db.exec q = some (result, db) ∧
        state' = { state with db } := by
  obtain ⟨choice, ran⟩ := runs_query.1 runs
  simp only [State.runQuery] at ran
  split at ran
  · cases ran
    exact .inl ⟨_, rfl, rfl⟩
  · split at ran
    · rename_i result db executed
      cases ran
      exact .inr ⟨result, db, rfl, executed, rfl⟩
    · cases ran
      exact .inl ⟨_, rfl, rfl⟩

theorem yields_liftResult {result outcome : AppResult α} :
    Program.Yields perform (liftResult result).run outcome ↔ outcome = result := Iff.rfl

end Alone

section Footprints

variable {α β : Type} {acts : Act → Prop} {calls : Call → Prop}

theorem uses_act {action : Act} (allowed : acts action) :
    Program.Uses acts calls (act action).run :=
  Fallible.uses_lift (Program.uses_perform allowed)

theorem uses_query {q : Query} (allowed : acts (.query q)) :
    Program.Uses acts calls (query q).run :=
  Program.uses_perform allowed

/-- What comes after a plain result may count on it. -/
theorem uses_liftResult_bind {result : AppResult α} {after : α → AsyncResult β}
    (rest : ∀ value, result = .ok value → Program.Uses acts calls (after value).run) :
    Program.Uses acts calls (liftResult result >>= after).run := by
  cases result with
  | ok value => exact rest value rfl
  | error err => exact Program.uses_done _

end Footprints

/-! Who sends a request. -/

structure CurrentUser where
  id : Int
  username : String
  role : AccountRole
  deriving DecidableEq

/-- What a user was found by. -/
inductive Credential where
  | cookie
  | bearer
  deriving DecidableEq

def sessionMaxAgeSecs : Int := 60 * 60 * 24 * 30

def resolveCookieUsername (headers : HeaderMap) : AsyncResult String :=
  match cookieValue headers sessionCookie with
  | none => throw .unauthenticated
  | some token => do
      match ← act (.findSession token) with
      | none => throw .unauthenticated
      | some session =>
          let now ← nowEpochSecs
          if now - session.createdAt > sessionMaxAgeSecs then
            act (.removeSession token)
            throw .unauthenticated
          else pure session.username

def currentUserOf (user : User) : AppResult CurrentUser :=
  (userRole user).map fun role => ⟨user.id, user.username, role⟩

def loadCurrentUser (username : String) : AsyncResult CurrentUser := do
  match ← query (.userByName username) with
  | none => throw .unauthenticated
  | some user => liftResult (currentUserOf user)

def currentUser (headers : HeaderMap) : AsyncResult CurrentUser := do
  let username ← resolveCookieUsername headers
  loadCurrentUser username

def CurrentUser.requireAdmin (user : CurrentUser) : AppResult Unit :=
  match user.role with
  | .admin => .ok ()
  | .member => .error (.forbidden "admin access required")

section Env

variable (env : Env)

/-- The row a token belongs to must be there. -/
def userOfToken (token : ApiToken) : AsyncResult User := do
  match ← query (.userById token.userId) with
  | some user => pure user
  | none => throw (.db "record not found")

def findUserByApiToken (tokenId secret : String) : AsyncResult (Option User) := do
  match ← query (.apiTokenByTokenId tokenId) with
  | none => pure none
  | some token =>
      let now ← nowEpochSecs
      if token.revoked || token.expiresAt ≤ now then pure none
      else if !env.argon2.verify secret token.tokenHash then pure none
      else
        let user ← userOfToken token
        pure (some user)

def loadUserFromBearer (headers : HeaderMap) : AsyncResult (Option CurrentUser) :=
  match bearerToken headers with
  | none => pure none
  | some bearer =>
      match parseBearerValue bearer with
      | none => throw .unauthenticated
      | some (tokenId, secret) => do
          match ← findUserByApiToken env tokenId secret with
          | none => throw .unauthenticated
          | some user =>
              let current ← liftResult (currentUserOf user)
              pure (some current)

def apiUser (headers : HeaderMap) : AsyncResult (CurrentUser × Credential) := do
  match ← loadUserFromBearer env headers with
  | some user => pure (user, .bearer)
  | none =>
      let user ← currentUser headers
      pure (user, .cookie)

def bearerUser (headers : HeaderMap) : AsyncResult CurrentUser := do
  match ← loadUserFromBearer env headers with
  | some user => pure user
  | none => throw .unauthenticated

end Env

/-! The layers, outermost first. -/

section Layers

variable {α : Type}

def requireAuthenticated (headers : HeaderMap) (next : AsyncResult α) : AsyncResult α := do
  let _ ← currentUser headers
  next

def requireAuthenticatedBearerOrCookie (env : Env) (headers : HeaderMap) (next : AsyncResult α) :
    AsyncResult α := do
  let _ ← apiUser env headers
  next

def enforceSameOrigin (method : String) (headers : HeaderMap) (next : AsyncResult α) :
    AsyncResult α := do
  liftResult (verifySameOrigin method headers)
  next

/-- A route of the cookie-only group: its handler takes a `CurrentUser`. -/
def cookieOnlyRoute (method : String) (headers : HeaderMap) (handler : CurrentUser → AsyncResult α) :
    AsyncResult α :=
  requireAuthenticated headers <| enforceSameOrigin method headers do
    let user ← currentUser headers
    act (.enter user.id user.username)
    handler user

/-- A route of the bearer-or-cookie group: its handler, or the access check in front of it, takes
an `ApiUser`. -/
def bearerOrCookieRoute (env : Env) (method : String) (headers : HeaderMap)
    (handler : CurrentUser × Credential → AsyncResult α) : AsyncResult α :=
  requireAuthenticatedBearerOrCookie env headers <| enforceSameOrigin method headers do
    let user ← apiUser env headers
    act (.enter user.1.id user.1.username)
    handler user

end Layers

/-! Accounts. -/

section Env

variable (env : Env)

def hashText (text : String) : AsyncResult String := do
  let salt ← act .randomText
  liftResult ((env.argon2.hash text salt).mapError .passwordHash)

def User.view (user : User) : UserView := ⟨user.username, user.role⟩

def loginMaxFailures : Nat := 10

def checkLoginLockout (ip : String) : AsyncResult Unit := do
  let now ← nowEpochSecs
  match ← act (.findLoginAttempts ip) with
  | none => pure ()
  | some attempts =>
      let elapsed := now - attempts.windowStart
      if elapsed > loginLockoutWindowSecs ∨ attempts.count < loginMaxFailures then pure ()
      else throw (.tooManyLoginAttempts ((loginLockoutWindowSecs - elapsed + 59).tdiv 60))

def recordFailedLogin (ip : String) : AsyncResult Unit := do
  let now ← nowEpochSecs
  act (.recordFailedLogin ip now)

def refuseLogin {α : Type} (ip : String) : AsyncResult α := do
  recordFailedLogin ip
  throw .invalidCredentials

def login (ip username password : String) : AsyncResult Response := do
  checkLoginLockout ip
  match ← query (.userByName username) with
  | none => refuseLogin ip
  | some user =>
      if env.argon2.verify password user.passwordHash then
        act (.clearLoginAttempts ip)
        let createdAt ← nowEpochSecs
        let token ← act (.issueSession user.username createdAt)
        pure (.signedIn token user.view)
      else refuseLogin ip

def logout (headers : HeaderMap) : AsyncResult Response :=
  match cookieValue headers sessionCookie with
  | none => pure .noContent
  | some token => do
      act (.removeSession token)
      pure .noContent

def listUsers (current : CurrentUser) : AsyncResult Response := do
  liftResult current.requireAdmin
  let users ← query .allUsers
  pure (.users (users.map User.view))

def createUser (current : CurrentUser) (username password role : String) : AsyncResult Response := do
  liftResult current.requireAdmin
  liftResult (validateUsername username)
  liftResult (validatePassword password)
  let role ← liftResult (AccountRole.fromStr role)
  match ← query (.userByName username) with
  | some _ => throw (.userAlreadyExists username)
  | none =>
      let passwordHash ← hashText env password
      let now ← nowEpochSecs
      let user ← query (.createUser username passwordHash role.asStr now)
      pure (.user user.view)

/-- The role to store, if one is given. -/
def newRole (current : CurrentUser) (username : String) : Option String → AppResult (Option String)
  | none => .ok none
  | some text =>
      match AccountRole.fromStr text with
      | .error err => .error err
      | .ok role =>
          if username = current.username ∧ role ≠ .admin then
            .error (.forbidden "you can't change your own role")
          else .ok (some role.asStr)

/-- The password hash to store, if a password is given. -/
def newPasswordHash (current : CurrentUser) (username : String) :
    Option String → AsyncResult (Option String)
  | none => pure none
  | some password => do
      if username = current.username then
        throw (.forbidden "use the password change form in Settings for your own account")
      else
        liftResult (validatePassword password)
        let passwordHash ← hashText env password
        pure (some passwordHash)

def updateUser (current : CurrentUser) (username : String) (role password : Option String) :
    AsyncResult Response := do
  liftResult current.requireAdmin
  match ← query (.userByName username) with
  | none => throw (.userNotFound username)
  | some user =>
      let newRole ← liftResult (newRole current username role)
      let newHash ← newPasswordHash env current username password
      let now ← nowEpochSecs
      query (.updateUser user.id newRole newHash now)
      if role.isSome || password.isSome then
        act (.revokeSessionsFor username)
        pure (.user (user.change newRole newHash now).view)
      else pure (.user (user.change newRole newHash now).view)

def deleteUser (current : CurrentUser) (username : String) : AsyncResult Response := do
  liftResult current.requireAdmin
  if username = current.username then
    throw (.forbidden "you can't delete your own account")
  else
    match ← query (.userByName username) with
    | none => throw (.userNotFound username)
    | some user =>
        query (.deletePermissionsOf user.id)
        query (.deleteUser username)
        act (.revokeSessionsFor username)
        pure .noContent

def changeOwnPassword (headers : HeaderMap) (current : CurrentUser)
    (currentPassword newPassword : String) : AsyncResult Response := do
  match ← query (.userByName current.username) with
  | none => throw .unauthenticated
  | some user =>
      if !env.argon2.verify currentPassword user.passwordHash then throw .invalidCredentials
      else
        liftResult (validatePassword newPassword)
        let passwordHash ← hashText env newPassword
        let now ← nowEpochSecs
        query (.updateUser user.id none (some passwordHash) now)
        match cookieValue headers sessionCookie with
        | none => pure .noContent
        | some token =>
            act (.revokeOtherSessionsFor current.username token)
            pure .noContent

/-! Tokens and hosts. -/

/-- A token id, a secret and the hash of the secret. -/
def generateToken : AsyncResult (String × String × String) := do
  let tokenId ← act .randomText
  let secret ← act .randomText
  let tokenHash ← hashText env secret
  pure (tokenId, secret, tokenHash)

def createApiToken (userId : Int) (name : String) (expiresAt : Int) :
    AsyncResult (ApiToken × String) := do
  let now ← nowEpochSecs
  liftResult (validateExpiry now expiresAt env.apiTokenMaxExpiryDays)
  let (tokenId, secret, tokenHash) ← generateToken env
  let row ← query (.createApiToken userId name tokenId tokenHash expiresAt now)
  pure (row, formatToken tokenId secret)

def trimText (text : String) : String := String.ofList (trim text.toList)

def createOwnToken (current : CurrentUser) (name : String) (expiresAt : Int) :
    AsyncResult Response := do
  if isBlank name then throw (.invalidName name)
  else
    let (row, plaintextToken) ← createApiToken env current.id (trimText name) expiresAt
    pure (.apiToken row plaintextToken)

def listOwnTokens (current : CurrentUser) : AsyncResult Response := do
  let tokens ← query (.apiTokensOf current.id)
  pure (.apiTokens tokens)

def revokeApiToken (userId tokenRowId : Int) : AsyncResult Unit := do
  match ← query (.apiTokenById tokenRowId userId) with
  | none => throw .tokenNotFound
  | some token =>
      let now ← nowEpochSecs
      query (.revokeApiToken token.id now)

def revokeOwnToken (current : CurrentUser) (id : Int) : AsyncResult Response := do
  revokeApiToken current.id id
  pure .noContent

def listHosts : AsyncResult Response := do
  let hosts ← query .allHosts
  pure (.hosts hosts)

def createHost (name : String) : AsyncResult (Host × String) := do
  if isBlank name then throw (.invalidName name)
  else
    let now ← nowEpochSecs
    let (tokenId, secret, tokenHash) ← generateToken env
    match ← query (.hostByName name) with
    | some _ => throw (.hostAlreadyExists name)
    | none =>
        let row ← query (.createHost name tokenId tokenHash now)
        pure (row, formatToken tokenId secret)

def createHostEndpoint (current : CurrentUser) (name : String) : AsyncResult Response := do
  liftResult current.requireAdmin
  let (row, plaintextToken) ← createHost env (trimText name)
  pure (.host row plaintextToken)

def revokeHost (hostId : Int) : AsyncResult Unit := do
  match ← query (.hostById hostId) with
  | none => throw .hostNotFound
  | some host =>
      let now ← nowEpochSecs
      query (.revokeHost host.id now)

def revokeHostEndpoint (current : CurrentUser) (id : Int) : AsyncResult Response := do
  liftResult current.requireAdmin
  revokeHost id
  pure .noContent

def findHostByToken (tokenId secret : String) : AsyncResult (Option Host) := do
  match ← query (.hostByTokenId tokenId) with
  | none => pure none
  | some host =>
      if host.revoked then pure none
      else if !env.argon2.verify secret host.tokenHash then pure none
      else pure (some host)

/-- `authenticate` of an agent's session; it answers every refusal with the same status. -/
def authenticate (headers : HeaderMap) : AsyncResult Host :=
  match bearerToken headers with
  | none => throw .unauthenticated
  | some bearer =>
      match parseBearerValue bearer with
      | none => throw .unauthenticated
      | some (tokenId, secret) => do
          match ← findHostByToken env tokenId secret with
          | none => throw .unauthenticated
          | some host => pure host

/-! Startup. -/

def bootstrapAdmin (adminUsername adminPassword : String) : AsyncResult Unit := do
  match ← query (.userWithRole AccountRole.admin.asStr) with
  | some _ => pure ()
  | none =>
      liftResult (validateUsername adminUsername)
      liftResult (validatePassword adminPassword)
      let passwordHash ← hashText env adminPassword
      let now ← nowEpochSecs
      let _ ← query (.createUser adminUsername passwordHash AccountRole.admin.asStr now)
      pure ()

/-! What the calls run. -/

def handle (headers : HeaderMap) (endpoint : Endpoint) (current : CurrentUser) :
    AsyncResult Response :=
  match endpoint with
  | .me => pure (.user ⟨current.username, current.role.asStr⟩)
  | .listUsers => listUsers current
  | .createUser username password role => createUser env current username password role
  | .updateUser username role password => updateUser env current username role password
  | .deleteUser username => deleteUser current username
  | .changeOwnPassword currentPassword newPassword =>
      changeOwnPassword env headers current currentPassword newPassword
  | .listOwnTokens => listOwnTokens current
  | .createOwnToken name expiresAt => createOwnToken env current name expiresAt
  | .revokeOwnToken id => revokeOwnToken current id
  | .listHosts => listHosts
  | .createHost name => createHostEndpoint env current name
  | .revokeHost id => revokeHostEndpoint current id

def serve : Call → AsyncResult Response
  | .login ip username password => login env ip username password
  | .logout headers => logout headers
  | .account method headers endpoint =>
      cookieOnlyRoute method headers (handle env headers endpoint)
  | .agentSession headers => do
      let host ← authenticate env headers
      pure (.agent host)
  | .advance seconds => do
      act (.advance seconds)
      pure .noContent

/-- The account side of the hub, any number of calls in progress. -/
def accounts : Semantics Act Act.Res Call Reply State Choice where
  body call := (serve env call).run
  perform _ := perform
  admits _ _ _ := true
  release _ state := state
  restart := restart

end Env

end Berth.Auth
