import Berth.Data.Serial
import Berth.Database
import Berth.Interleave.System
import Berth.Session.Http

/-!
What the hub knows of users, tokens and sessions: the rows of its database, the sessions it keeps
in memory, and the atomic actions its handlers perform on them.
-/

namespace Berth.Auth

structure User where
  id : Int
  username : String
  passwordHash : String
  role : String
  createdAt : Int
  updatedAt : Int
  deriving DecidableEq

structure ApiToken where
  id : Int
  userId : Int
  name : String
  tokenId : String
  tokenHash : String
  expiresAt : Int
  revoked : Bool
  createdAt : Int
  updatedAt : Int
  deriving DecidableEq

structure Host where
  id : Int
  name : String
  tokenId : String
  tokenHash : String
  revoked : Bool
  lastSeenAt : Option Int
  ip : Option String
  lastConnectedIp : Option String
  createdAt : Int
  updatedAt : Int
  deriving DecidableEq

structure Session where
  username : String
  createdAt : Int
  deriving DecidableEq

structure LoginAttempts where
  count : Nat
  windowStart : Int
  deriving DecidableEq

abbrev Users : Type := Serial User User.id [User.username]

abbrev ApiTokens : Type := Serial ApiToken ApiToken.id [ApiToken.tokenId]

abbrev Hosts : Type := Serial Host Host.id [Host.tokenId, Host.name]

structure Database where
  users : Users
  apiTokens : ApiTokens
  hosts : Hosts
  permissions : List PermissionRow
  deriving Inhabited

/-- `issued` are the texts drawn at random so far; a text of 16 or 32 random bytes is taken to be
new every time. -/
structure State where
  db : Database
  sessions : List (String × Session)
  loginAttempts : List (String × LoginAttempts)
  issued : List String
  now : Int
  deriving Inhabited

/-! The maps kept in memory. -/

section Map

variable {κ β : Type} [DecidableEq κ]

def lookup (entries : List (κ × β)) (key : κ) : Option β :=
  (entries.find? fun entry => entry.1 = key).map Prod.snd

def remove (entries : List (κ × β)) (key : κ) : List (κ × β) :=
  entries.filter fun entry => entry.1 ≠ key

def insert (entries : List (κ × β)) (key : κ) (value : β) : List (κ × β) :=
  (key, value) :: remove entries key

variable {entries : List (κ × β)} {key key' : κ} {value value' : β}

theorem mem_of_lookup (found : lookup entries key = some value) : (key, value) ∈ entries := by
  obtain ⟨⟨key', value'⟩, isFound, rfl⟩ := Option.map_eq_some_iff.1 found
  have same : key' = key := by simpa using List.find?_some isFound
  exact same ▸ List.mem_of_find?_eq_some isFound

theorem mem_remove : (key', value) ∈ remove entries key ↔ (key', value) ∈ entries ∧ key' ≠ key := by
  simp [remove]

theorem mem_insert : (key', value') ∈ insert entries key value ↔
    (key' = key ∧ value' = value) ∨ ((key', value') ∈ entries ∧ key' ≠ key) := by
  simp [insert, mem_remove]

@[simp] theorem lookup_remove : lookup (remove entries key) key = none := by
  simp [lookup, remove]

@[simp] theorem lookup_remove_of_ne (different : key' ≠ key) :
    lookup (remove entries key) key' = lookup entries key' := by
  have same (entry : κ × β) : (!decide (entry.1 = key) && decide (entry.1 = key')) =
      decide (entry.1 = key') := by
    by_cases isKey : entry.1 = key'
    · simp [isKey, different]
    · simp [isKey]
  simp [lookup, remove, List.find?_filter, same]

@[simp] theorem lookup_insert : lookup (insert entries key value) key = some value := by
  simp [lookup, insert]

@[simp] theorem lookup_insert_of_ne (different : key' ≠ key) :
    lookup (insert entries key value) key' = lookup entries key' := by
  have removed : lookup (remove entries key) key' = lookup entries key' := lookup_remove_of_ne different
  rw [← removed]
  simp [lookup, insert, Ne.symm different]

end Map

/-! The queries. -/

inductive Query where
  | allUsers
  | userByName (username : String)
  | userById (id : Int)
  | userWithRole (role : String)
  | createUser (username passwordHash role : String) (now : Int)
  | updateUser (id : Int) (role passwordHash : Option String) (now : Int)
  | deletePermissionsOf (userId : Int)
  | deleteUser (username : String)
  | apiTokensOf (userId : Int)
  | apiTokenByTokenId (tokenId : String)
  | apiTokenById (id userId : Int)
  | createApiToken (userId : Int) (name tokenId tokenHash : String) (expiresAt now : Int)
  | revokeApiToken (id now : Int)
  | allHosts
  | hostById (id : Int)
  | hostByName (name : String)
  | hostByTokenId (tokenId : String)
  | createHost (name tokenId tokenHash : String) (now : Int)
  | revokeHost (id now : Int)
  deriving DecidableEq

def Query.Result : Query → Type
  | allUsers => List User
  | userByName _ | userById _ | userWithRole _ => Option User
  | createUser _ _ _ _ => User
  | apiTokensOf _ => List ApiToken
  | apiTokenByTokenId _ | apiTokenById _ _ => Option ApiToken
  | createApiToken _ _ _ _ _ _ => ApiToken
  | allHosts => List Host
  | hostById _ | hostByName _ | hostByTokenId _ => Option Host
  | createHost _ _ _ _ => Host
  | updateUser _ _ _ _ | deletePermissionsOf _ | deleteUser _ | revokeApiToken _ _
  | revokeHost _ _ => Unit

def User.change (user : User) (role passwordHash : Option String) (now : Int) : User :=
  { user with
    role := role.getD user.role
    passwordHash := passwordHash.getD user.passwordHash
    updatedAt := now }

namespace Database

def newUser (username passwordHash role : String) (now id : Int) : User :=
  { id, username, passwordHash, role, createdAt := now, updatedAt := now }

def newApiToken (userId : Int) (name tokenId tokenHash : String) (expiresAt now id : Int) :
    ApiToken :=
  { id, userId, name, tokenId, tokenHash, expiresAt, revoked := false, createdAt := now,
    updatedAt := now }

def newHost (name tokenId tokenHash : String) (now id : Int) : Host :=
  { id, name, tokenId, tokenHash, revoked := false, lastSeenAt := none, ip := none,
    lastConnectedIp := none, createdAt := now, updatedAt := now }

variable (db : Database)

def updateUser (id : Int) (role passwordHash : Option String) (now : Int) : Database :=
  let users := db.users.modify (fun user => user.id = id)
    (fun user => user.change role passwordHash now) (fun _ => rfl)
    fun index isIndex user => by rw [List.mem_singleton.1 isIndex]; rfl
  { db with users }

def revokeApiToken (id now : Int) : Database :=
  let apiTokens := db.apiTokens.modify (fun token => token.id = id)
    (fun token => { token with revoked := true, updatedAt := now }) (fun _ => rfl)
    fun index isIndex token => by rw [List.mem_singleton.1 isIndex]
  { db with apiTokens }

def revokeHost (id now : Int) : Database :=
  let hosts := db.hosts.modify (fun host => host.id = id)
    (fun host => { host with revoked := true, updatedAt := now }) (fun _ => rfl)
    fun index isIndex host => by
      rcases List.mem_pair.1 isIndex with rfl | rfl <;> rfl
  { db with hosts }

@[simp] theorem updateUser_rows {id now : Int} {role passwordHash : Option String} :
    (db.updateUser id role passwordHash now).users.rows = db.users.rows.map
      (Serial.changed (fun user => user.id = id) fun user => user.change role passwordHash now) :=
  rfl

@[simp] theorem revokeApiToken_rows {id now : Int} :
    (db.revokeApiToken id now).apiTokens.rows = db.apiTokens.rows.map
      (Serial.changed (fun token => token.id = id) fun token =>
        { token with revoked := true, updatedAt := now }) :=
  rfl

@[simp] theorem revokeHost_rows {id now : Int} :
    (db.revokeHost id now).hosts.rows = db.hosts.rows.map
      (Serial.changed (fun host => host.id = id) fun host =>
        { host with revoked := true, updatedAt := now }) :=
  rfl

/-- `none` where a unique index rejects the write. -/
def exec : (query : Query) → Option (query.Result × Database)
  | .allUsers => some (db.users.rows, db)
  | .userByName username => some (db.users.rows.find? fun user => user.username = username, db)
  | .userById id => some (db.users.rows.find? fun user => user.id = id, db)
  | .userWithRole role => some (db.users.rows.find? fun user => user.role = role, db)
  | .createUser username passwordHash role now =>
      (db.users.insert? (newUser username passwordHash role now) fun _ => rfl).map fun users =>
        (newUser username passwordHash role now db.users.next, { db with users })
  | .updateUser id role passwordHash now => some ((), db.updateUser id role passwordHash now)
  | .deletePermissionsOf userId =>
      some ((), { db with permissions := db.permissions.filter fun row => row.userId ≠ userId })
  | .deleteUser username =>
      some ((), { db with users := db.users.deleteWhere fun user => user.username = username })
  | .apiTokensOf userId => some (db.apiTokens.rows.filter fun token => token.userId = userId, db)
  | .apiTokenByTokenId tokenId =>
      some (db.apiTokens.rows.find? fun token => token.tokenId = tokenId, db)
  | .apiTokenById id userId =>
      some (db.apiTokens.rows.find? fun token => token.id = id ∧ token.userId = userId, db)
  | .createApiToken userId name tokenId tokenHash expiresAt now =>
      let make := newApiToken userId name tokenId tokenHash expiresAt now
      (db.apiTokens.insert? make fun _ => rfl).map fun apiTokens =>
        (make db.apiTokens.next, { db with apiTokens })
  | .revokeApiToken id now => some ((), db.revokeApiToken id now)
  | .allHosts => some (db.hosts.rows, db)
  | .hostById id => some (db.hosts.rows.find? fun host => host.id = id, db)
  | .hostByName name => some (db.hosts.rows.find? fun host => host.name = name, db)
  | .hostByTokenId tokenId => some (db.hosts.rows.find? fun host => host.tokenId = tokenId, db)
  | .createHost name tokenId tokenHash now =>
      (db.hosts.insert? (newHost name tokenId tokenHash now) fun _ => rfl).map fun hosts =>
        (newHost name tokenId tokenHash now db.hosts.next, { db with hosts })
  | .revokeHost id now => some ((), db.revokeHost id now)

end Database

/-! The actions. -/

/-- `enter` changes nothing: it marks the moment from which a handler runs for a user. -/
inductive Act where
  | now
  | advance (seconds : Nat)
  | randomText
  | query (query : Query)
  | findSession (token : String)
  | removeSession (token : String)
  | issueSession (username : String) (createdAt : Int)
  | revokeSessionsFor (username : String)
  | revokeOtherSessionsFor (username keepToken : String)
  | findLoginAttempts (ip : String)
  | recordFailedLogin (ip : String) (now : Int)
  | clearLoginAttempts (ip : String)
  | enter (userId : Int) (username : String)
  deriving DecidableEq

def Act.Res : Act → Type
  | now => Int
  | randomText | issueSession _ _ => String
  | query q => AppResult q.Result
  | findSession _ => Option Session
  | findLoginAttempts _ => Option LoginAttempts
  | advance _ | removeSession _ | revokeSessionsFor _ | revokeOtherSessionsFor _ _
  | recordFailedLogin _ _ | clearLoginAttempts _ | enter _ _ => Unit

/-- What an action leaves open: whether a query fails, and which text is drawn. -/
structure Choice where
  failure : Option String := none
  text : String := ""
  deriving DecidableEq

/-- The alphabet of `URL_SAFE_NO_PAD`. -/
def isUrlsafe (c : Char) : Bool := c.isAlphanum || c = '-' || c = '_'

def loginLockoutWindowSecs : Int := 15 * 60

namespace State

variable (state : State)

def runQuery (query : Query) (choice : Choice) : AppResult query.Result × State :=
  match choice.failure with
  | some message => (.error (.db message), state)
  | none =>
      match state.db.exec query with
      | some (result, db) => (.ok result, { state with db })
      | none => (.error (.db "UNIQUE constraint failed"), state)

/-- A new random text in `URL_SAFE_NO_PAD`. -/
def draw (text : String) : Option (String × State) :=
  if text.toList.all isUrlsafe ∧ text ∉ state.issued then
    some (text, { state with issued := text :: state.issued })
  else none

/-- The entry after one more failure; `count` is a `u32`. -/
def failedLogin (attempts : Option LoginAttempts) (now : Int) : LoginAttempts :=
  match attempts with
  | some attempts =>
      if now - attempts.windowStart > loginLockoutWindowSecs then ⟨1, now⟩
      else ⟨(attempts.count + 1) % 2 ^ 32, attempts.windowStart⟩
  | none => ⟨1, now⟩

def retain (kept : String × Session → Bool) : State :=
  { state with sessions := state.sessions.filter kept }

end State

def perform (action : Act) (choice : Choice) (state : State) : Option (action.Res × State) :=
  match action with
  | .now => some (state.now, state)
  | .advance seconds => some ((), { state with now := state.now + seconds })
  | .randomText => state.draw choice.text
  | .query query => some (state.runQuery query choice)
  | .findSession token => some (lookup state.sessions token, state)
  | .removeSession token => some ((), { state with sessions := remove state.sessions token })
  | .issueSession username createdAt =>
      (state.draw choice.text).map fun (token, state) =>
        (token, { state with sessions := insert state.sessions token ⟨username, createdAt⟩ })
  | .revokeSessionsFor username =>
      some ((), state.retain fun entry => entry.2.username ≠ username)
  | .revokeOtherSessionsFor username keepToken =>
      some ((), state.retain fun entry => entry.2.username ≠ username || entry.1 = keepToken)
  | .findLoginAttempts ip => some (lookup state.loginAttempts ip, state)
  | .recordFailedLogin ip now =>
      let attempts := State.failedLogin (lookup state.loginAttempts ip) now
      some ((), { state with loginAttempts := insert state.loginAttempts ip attempts })
  | .clearLoginAttempts ip =>
      some ((), { state with loginAttempts := remove state.loginAttempts ip })
  | .enter _ _ => some ((), state)

/-- Sessions and counted logins are lost with the process. -/
def restart (state : State) : State := { state with sessions := [], loginAttempts := [] }

end Berth.Auth
