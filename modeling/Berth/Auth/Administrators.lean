import Berth.Auth.Bearer
import Berth.Auth.Sessions

/-!
Administrators who demote and delete each other, and what the next startup makes of it.
-/

namespace Berth.Auth

open Interleave Interleave.Discipline

/-! The writes that take an administrator away. -/

/-- After this write the user is no administrator any more. -/
def Query.hits (user : User) : Query → Bool
  | .updateUser id role _ _ => user.id = id && role.any fun role => role ≠ AccountRole.admin.asStr
  | .deleteUser username => user.username = username
  | _ => false

def Query.removesAdmins : Query → Bool
  | .updateUser _ role _ _ => role.any fun role => role ≠ AccountRole.admin.asStr
  | .deleteUser _ => true
  | _ => false

def IsAdmin (db : Database) (id : Int) (username : String) : Prop :=
  ∃ user ∈ db.users.rows, user.id = id ∧ user.username = username ∧
    user.role = AccountRole.admin.asStr

def HasAdmin (db : Database) : Prop := ∃ user ∈ db.users.rows, user.role = AccountRole.admin.asStr

/-- The next startup, with any valid name and password in its configuration, ends with an
administrator. -/
def Recovers (env : Env) (state : State) : Prop :=
  ∀ username password, validateUsername username = .ok () → validatePassword password = .ok () →
    ∀ outcome after,
      Program.Runs reliably (bootstrapAdmin env username password).run (restart state) outcome after →
        outcome = .ok () ∧ HasAdmin after.db

def AdminKept (env : Env) (state : State) : Prop := HasAdmin state.db ∨ Recovers env state

/-- What a query does to the names, the numbers and the administrators. -/
structure UsersStep (db : Database) (q : Query) (db' : Database) : Prop where
  next : db.users.next ≤ db'.users.next
  old : ∀ user' ∈ db'.users.rows, user'.id = db.users.next ∨
    ∃ user ∈ db.users.rows, user.id = user'.id ∧ user.username = user'.username
  spared : ∀ user ∈ db.users.rows, q.hits user = false → user.role = AccountRole.admin.asStr →
    IsAdmin db' user.id user.username

variable {env : Env} {db db' : Database} {q : Query}

theorem hits_of_not_removesAdmins {user : User} (harmless : q.removesAdmins = false) :
    q.hits user = false := by
  cases q with
  | updateUser id role passwordHash now =>
      simp only [Query.removesAdmins] at harmless
      simp only [Query.hits, harmless, Bool.and_false]
  | deleteUser username => cases harmless
  | _ => rfl

theorem usersStep_of_same (same : db'.users = db.users) : UsersStep db q db' where
  next := same ▸ Int.le_refl _
  old := fun user' member => .inr ⟨user', same ▸ member, rfl, rfl⟩
  spared := fun user member _ admin => ⟨user, same ▸ member, rfl, rfl, admin⟩

theorem usersStep_of_exec {result : q.Result} (executed : db.exec q = some (result, db')) :
    UsersStep db q db' := by
  cases q with
  | createUser username passwordHash role now =>
      obtain ⟨users, inserted, eq⟩ := Option.map_eq_some_iff.1 executed
      cases eq
      have rows : ∀ user, user ∈ users.rows ↔ user ∈ db.users.rows ∨ user = _ :=
        fun user => Serial.mem_insert? inserted
      refine ⟨?_, ?_, ?_⟩
      · have next : users.next = db.users.next + 1 := (Serial.insert?_eq_some inserted).2.2
        exact show db.users.next ≤ users.next by omega
      · intro user' member
        rcases (rows user').1 member with old | rfl
        · exact .inr ⟨user', old, rfl, rfl⟩
        · exact .inl rfl
      · intro user member _ admin
        exact ⟨user, (rows user).2 (.inl member), rfl, rfl, admin⟩
  | updateUser id role passwordHash now =>
      cases executed
      have renamed : ∀ user : User, (Serial.changed (fun user => user.id = id)
          (fun user => user.change role passwordHash now) user).username = user.username :=
        fun user => Serial.column_changed User.username rfl
      have renumbered : ∀ user : User, (Serial.changed (fun user => user.id = id)
          (fun user => user.change role passwordHash now) user).id = user.id :=
        fun user => Serial.column_changed User.id rfl
      refine ⟨Int.le_refl _, ?_, ?_⟩
      · intro user' member
        obtain ⟨user, old, rfl⟩ := List.mem_map.1 member
        exact .inr ⟨user, old, (renumbered user).symm, (renamed user).symm⟩
      · intro user member spared admin
        refine ⟨_, List.mem_map_of_mem member, renumbered user, renamed user, ?_⟩
        simp only [Serial.changed]
        split
        · rename_i chosen
          cases role with
          | none => exact admin
          | some role =>
              simp only [Query.hits, chosen, Bool.true_and, Option.any_some] at spared
              simpa [User.change] using spared
        · exact admin
  | deleteUser username =>
      cases executed
      refine ⟨Int.le_refl _, ?_, ?_⟩
      · intro user' member
        exact .inr ⟨user', (Serial.mem_deleteWhere.1 member).1, rfl, rfl⟩
      · intro user member spared admin
        exact ⟨user, Serial.mem_deleteWhere.2 ⟨member, spared⟩, rfl, rfl, admin⟩
  | createApiToken | createHost =>
      obtain ⟨_, _, eq⟩ := Option.map_eq_some_iff.1 executed
      cases eq
      exact usersStep_of_same rfl
  | _ =>
      cases executed
      exact usersStep_of_same rfl

/-! What happens in a run. -/

def enteredBy : AuthEvent → Option (Nat × Int × String)
  | .act thread _ (.enter id username) _ _ => some (thread, id, username)
  | _ => none

def removalBy : AuthEvent → Option (Nat × Query)
  | .act thread _ (.query q) _ _ => if q.removesAdmins then some (thread, q) else none
  | _ => none

/-- The handler of the thread runs for this user. -/
def Entered (thread : Nat) (id : Int) (username : String) (w : AuthWorld) : Prop :=
  w.Did fun event => enteredBy event = some (thread, id, username)

/-- Whoever demotes or deletes somebody is still an administrator at that moment. -/
def StillAdmin (w : AuthWorld) (event : AuthEvent) : Prop :=
  ∀ thread q, removalBy event = some (thread, q) → ∀ id username, Entered thread id username w →
    IsAdmin w.shared.db id username

/-- Whoever demotes or deletes somebody does not do so to the own account. -/
def SparesItself (w : AuthWorld) (event : AuthEvent) : Prop :=
  ∀ thread q, removalBy event = some (thread, q) → ∃ id username, Entered thread id username w ∧
    ∀ user ∈ w.shared.db.users.rows, user.id = id → user.username = username → q.hits user = false

def administrators : Discipline Act Act.Res Call Reply State Choice where
  Allowed := StillAdmin
  Permit := SparesItself
  Inv := fun w => HasAdmin w.shared.db

variable {w w' : AuthWorld} {event : AuthEvent} {thread : Nat} {call : Call}

theorem draw_db {state state' : State} {text text' : String}
    (drawn : state.draw text = some (text', state')) : state'.db = state.db := by
  simp only [State.draw] at drawn
  split at drawn
  · cases drawn
    rfl
  · cases drawn

/-- A step changes the users by one query or not at all. -/
theorem usersStep_of_moves (moves : w.Moves (accounts env) event w') :
    w'.shared.db.users = w.shared.db.users ∨ ∃ thread call q choice result,
      event = .act thread call (.query q) choice result ∧
        UsersStep w.shared.db q w'.shared.db := by
  cases moves with
  | @act thread call action choice result shared member performed =>
      cases action with
      | query q =>
          refine .inr ⟨thread, call, q, choice, result, rfl, ?_⟩
          simp only [accounts, perform, State.runQuery] at performed
          split at performed
          · cases performed
            exact usersStep_of_same rfl
          · split at performed
            · rename_i executed
              cases performed
              exact usersStep_of_exec executed
            · cases performed
              exact usersStep_of_same rfl
      | randomText => exact .inl (congrArg Database.users (draw_db performed))
      | issueSession username createdAt =>
          obtain ⟨⟨token, state⟩, drawn, eq⟩ := Option.map_eq_some_iff.1 performed
          cases eq
          have same : state.db = w.shared.db := draw_db drawn
          exact .inl (congrArg Database.users same)
      | _ =>
          cases performed
          exact .inl rfl
  | _ => exact .inl rfl

theorem hasAdmin_moves (admin : HasAdmin w.shared.db) (moves : w.Moves (accounts env) event w')
    (still : StillAdmin w event) (spares : event.Owned → SparesItself w event) :
    HasAdmin w'.shared.db := by
  rcases usersStep_of_moves moves with same | ⟨thread, call, q, choice, result, rfl, step⟩
  · rw [HasAdmin, same]
    exact admin
  by_cases removes : q.removesAdmins
  · have removal : removalBy (.act thread call (.query q) choice result) = some (thread, q) := by
      simp only [removalBy, removes, if_true]
    obtain ⟨id, username, entered, spared⟩ := spares trivial thread q removal
    obtain ⟨user, member, rfl, rfl, isAdmin⟩ := still thread q removal id username entered
    obtain ⟨user', member', _, _, isAdmin'⟩ :=
      step.spared user member (spared user member rfl rfl) isAdmin
    exact ⟨user', member', isAdmin'⟩
  · obtain ⟨user, member, isAdmin⟩ := admin
    have harmless : q.removesAdmins = false := by simpa using removes
    obtain ⟨user', member', _, _, isAdmin'⟩ :=
      step.spared user member (hits_of_not_removesAdmins harmless) isAdmin
    exact ⟨user', member', isAdmin'⟩

/-- Who has this number, and is not yet to come, has this name. -/
def Named (id : Int) (username : String) (w : AuthWorld) : Prop :=
  id < w.shared.db.users.next ∧
    ∀ user ∈ w.shared.db.users.rows, user.id = id → user.username = username

theorem Named.moves {id : Int} {username : String} (named : Named id username w)
    (moves : w.Moves (accounts env) event w') : Named id username w' := by
  rcases usersStep_of_moves moves with same | ⟨_, _, q, _, _, _, step⟩
  · rw [Named, same]
    exact named
  · have next := step.next
    have below := named.1
    refine ⟨by omega, ?_⟩
    intro user' member isId
    rcases step.old user' member with new | ⟨user, old, sameId, sameName⟩
    · omega
    · exact sameName ▸ named.2 user old (sameId.trans isId)

theorem named_of_member {user : User} (member : user ∈ w.shared.db.users.rows) :
    Named user.id user.username w :=
  ⟨w.shared.db.users.below user member,
    fun _ other same => congrArg User.username (Serial.eq_of_id_eq other member same)⟩

/-! What the handlers can do to the administrators. -/

section Requests

variable {α β : Type}

/-- No demotion and no deletion. -/
def Act.harmless : Act → Bool
  | .query q => !q.removesAdmins
  | _ => true

structure Harmless (program : AsyncResult α) : Prop where
  uses : Program.Uses (fun action => action.harmless = true) (fun _ => True) program.run

theorem harmless_bind {program : AsyncResult α} {after : α → AsyncResult β}
    (first : Harmless program) (rest : ∀ value, Harmless (after value)) :
    Harmless (program >>= after) :=
  ⟨Fallible.uses_bind first.uses fun value => (rest value).uses⟩

theorem harmless_pure (value : α) : Harmless (pure value : AsyncResult α) :=
  ⟨Fallible.uses_pure value⟩

theorem harmless_throw (err : AppError) : Harmless (throw err : AsyncResult α) :=
  ⟨Fallible.uses_throw err⟩

theorem harmless_liftResult (result : AppResult α) : Harmless (liftResult result) :=
  ⟨Program.uses_done _⟩

theorem harmless_act {action : Act} (allowed : action.harmless = true) : Harmless (act action) :=
  ⟨uses_act allowed⟩

theorem harmless_query {q : Query} (allowed : q.removesAdmins = false) : Harmless (query q) :=
  ⟨uses_query (by simp only [Act.harmless, allowed, Bool.not_false])⟩

theorem harmless_hashText {text : String} : Harmless (hashText env text) := by
  apply harmless_bind (harmless_act rfl)
  intro salt
  exact harmless_liftResult _

theorem harmless_currentUser {headers : HeaderMap} : Harmless (currentUser headers) := by
  refine harmless_bind ?_ fun username => ?_
  · rw [resolveCookieUsername]
    cases cookieValue headers sessionCookie with
    | none => exact harmless_throw _
    | some token =>
        apply harmless_bind (harmless_act rfl)
        intro found
        cases found with
        | none => exact harmless_throw _
        | some session =>
            apply harmless_bind (harmless_act rfl)
            intro now
            split
            · exact harmless_bind (harmless_act rfl) fun _ => harmless_throw _
            · exact harmless_pure _
  · apply harmless_bind (harmless_query rfl)
    intro found
    cases found with
    | none => exact harmless_throw _
    | some user => exact harmless_liftResult _

theorem harmless_login {ip username password : String} :
    Harmless (login env ip username password) := by
  have refuses : Harmless (refuseLogin ip : AsyncResult Response) :=
    harmless_bind (harmless_bind (harmless_act rfl) fun _ => harmless_act rfl)
      fun _ => harmless_throw _
  refine harmless_bind ?_ fun _ => harmless_bind (harmless_query rfl) fun found => ?_
  · apply harmless_bind (harmless_act rfl)
    intro now
    apply harmless_bind (harmless_act rfl)
    intro found
    cases found with
    | none => exact harmless_pure ()
    | some attempts =>
        dsimp only
        split
        · exact harmless_pure ()
        · exact harmless_throw _
  · cases found with
    | none => exact refuses
    | some user =>
        dsimp only
        split
        · apply harmless_bind (harmless_act rfl)
          intro _
          apply harmless_bind (harmless_act rfl)
          intro createdAt
          exact harmless_bind (harmless_act rfl) fun token => harmless_pure _
        · exact refuses

theorem harmless_logout {headers : HeaderMap} : Harmless (logout headers) := by
  rw [logout]
  split
  · exact harmless_pure _
  · exact harmless_bind (harmless_act rfl) fun _ => harmless_pure _

theorem harmless_createUser {current : CurrentUser} {username password role : String} :
    Harmless (createUser env current username password role) := by
  apply harmless_bind (harmless_liftResult _)
  intro _
  apply harmless_bind (harmless_liftResult _)
  intro _
  apply harmless_bind (harmless_liftResult _)
  intro _
  apply harmless_bind (harmless_liftResult _)
  intro role
  apply harmless_bind (harmless_query rfl)
  intro found
  cases found with
  | some _ => exact harmless_throw _
  | none =>
      apply harmless_bind harmless_hashText
      intro passwordHash
      apply harmless_bind (harmless_act rfl)
      intro now
      exact harmless_bind (harmless_query rfl) fun user => harmless_pure _

theorem harmless_changeOwnPassword {headers : HeaderMap} {current : CurrentUser}
    {currentPassword newPassword : String} :
    Harmless (changeOwnPassword env headers current currentPassword newPassword) := by
  apply harmless_bind (harmless_query rfl)
  intro found
  cases found with
  | none => exact harmless_throw _
  | some user =>
      dsimp only
      split
      · exact harmless_throw _
      · apply harmless_bind (harmless_liftResult _)
        intro _
        apply harmless_bind harmless_hashText
        intro passwordHash
        apply harmless_bind (harmless_act rfl)
        intro now
        apply harmless_bind (harmless_query rfl)
        intro _
        cases cookieValue headers sessionCookie with
        | none => exact harmless_pure _
        | some token => exact harmless_bind (harmless_act rfl) fun _ => harmless_pure _

theorem harmless_generateToken : Harmless (generateToken env) := by
  apply harmless_bind (harmless_act rfl)
  intro tokenId
  apply harmless_bind (harmless_act rfl)
  intro secret
  exact harmless_bind harmless_hashText fun tokenHash => harmless_pure _

theorem harmless_createApiToken {userId : Int} {name : String} {expiresAt : Int} :
    Harmless (createApiToken env userId name expiresAt) := by
  apply harmless_bind (harmless_act rfl)
  intro now
  apply harmless_bind (harmless_liftResult _)
  intro _
  apply harmless_bind harmless_generateToken
  rintro ⟨tokenId, secret, tokenHash⟩
  exact harmless_bind (harmless_query rfl) fun row => harmless_pure _

theorem harmless_createOwnToken {current : CurrentUser} {name : String} {expiresAt : Int} :
    Harmless (createOwnToken env current name expiresAt) := by
  rw [createOwnToken]
  split
  · exact harmless_throw _
  · apply harmless_bind harmless_createApiToken
    rintro ⟨row, plaintextToken⟩
    exact harmless_pure _

theorem harmless_revokeOwnToken {current : CurrentUser} {id : Int} :
    Harmless (revokeOwnToken current id) := by
  refine harmless_bind ?_ fun _ => harmless_pure _
  apply harmless_bind (harmless_query rfl)
  intro found
  cases found with
  | none => exact harmless_throw _
  | some token => exact harmless_bind (harmless_act rfl) fun now => harmless_query rfl

theorem harmless_createHost {name : String} : Harmless (createHost env name) := by
  rw [createHost]
  split
  · exact harmless_throw _
  · apply harmless_bind (harmless_act rfl)
    intro now
    apply harmless_bind harmless_generateToken
    rintro ⟨tokenId, secret, tokenHash⟩
    apply harmless_bind (harmless_query rfl)
    intro found
    cases found with
    | some _ => exact harmless_throw _
    | none => exact harmless_bind (harmless_query rfl) fun row => harmless_pure _

theorem harmless_createHostEndpoint {current : CurrentUser} {name : String} :
    Harmless (createHostEndpoint env current name) := by
  apply harmless_bind (harmless_liftResult _)
  intro _
  apply harmless_bind harmless_createHost
  rintro ⟨row, plaintextToken⟩
  exact harmless_pure _

theorem harmless_revokeHost {current : CurrentUser} {id : Int} :
    Harmless (revokeHostEndpoint current id) := by
  apply harmless_bind (harmless_liftResult _)
  intro _
  refine harmless_bind ?_ fun _ => harmless_pure _
  apply harmless_bind (harmless_query rfl)
  intro found
  cases found with
  | none => exact harmless_throw _
  | some host => exact harmless_bind (harmless_act rfl) fun now => harmless_query rfl

theorem harmless_authenticate {headers : HeaderMap} : Harmless (authenticate env headers) := by
  rw [authenticate]
  split
  · exact harmless_throw _
  · split
    · exact harmless_throw _
    · refine harmless_bind ?_ fun found => ?_
      · apply harmless_bind (harmless_query rfl)
        intro found
        cases found with
        | none => exact harmless_pure _
        | some host =>
            dsimp only
            split
            · exact harmless_pure _
            · split <;> exact harmless_pure _
      · cases found with
        | none => exact harmless_throw _
        | some host => exact harmless_pure _

end Requests

/-! Nobody demotes or deletes the own account. -/

section Safety

variable {α β : Type} {w : AuthWorld}

theorem free_harmless : Free (accounts env) administrators thread call
    (fun action => action.harmless = true) (fun _ => True) := by
  intro w event w' own _ _ _ other q removal
  cases own with
  | fork _ => cases removal
  | @act action choice result among =>
      cases action with
      | query q =>
          have harmless : q.removesAdmins = false := by simpa [Act.harmless] using among
          simp [removalBy, harmless] at removal
      | _ => cases removal

/-- What no step of anybody ends. -/
def Lasts (env : Env) (fact : AuthWorld → Prop) : Prop :=
  ∀ w event w', w.Moves (accounts env) event w' → fact w → fact w'

theorem Lasts.stable {fact : AuthWorld → Prop} (lasts : Lasts env fact) :
    Stable (accounts env) administrators thread call fact :=
  fun w w' event interferes holds => lasts w event w' interferes.moves holds

theorem Lasts.and {fact fact' : AuthWorld → Prop} (lasts : Lasts env fact)
    (lasts' : Lasts env fact') : Lasts env fun w => fact w ∧ fact' w :=
  fun w event w' moves holds =>
    ⟨lasts w event w' moves holds.1, lasts' w event w' moves holds.2⟩

theorem lasts_entered {id : Int} {username : String} : Lasts env (Entered thread id username) :=
  fun _ _ _ moves entered => moves.did entered

theorem lasts_named {id : Int} {username : String} : Lasts env (Named id username) :=
  fun _ _ _ moves named => named.moves moves

theorem safe_harmless {program : AsyncResult α} (harmless : Harmless program) :
    Safe (accounts env) administrators thread call program.run (fun _ _ => True) w :=
  Safe.free harmless.uses free_harmless

theorem safe_harmless_bind {program : AsyncResult α} {after : α → AsyncResult β}
    {fact : AuthWorld → Prop} (harmless : Harmless program) (lasts : Lasts env fact) (holds : fact w)
    (rest : ∀ value w', fact w' →
      Safe (accounts env) administrators thread call (after value).run (fun _ _ => True) w') :
    Safe (accounts env) administrators thread call (program >>= after).run (fun _ _ => True) w := by
  have frame : Frame (accounts env) administrators thread call
      (fun action => action.harmless = true) (fun _ => True) fact :=
    ⟨lasts.stable, fun w event w' _ holds _ _ moves _ _ => lasts w event w' moves holds⟩
  exact Safe.thenE (Safe.frame harmless.uses free_harmless frame holds) rest fun _ _ _ => trivial

theorem safe_liftResult_bind {result : AppResult α} {after : α → AsyncResult β}
    (rest : ∀ value, result = .ok value →
      Safe (accounts env) administrators thread call (after value).run (fun _ _ => True) w) :
    Safe (accounts env) administrators thread call (liftResult result >>= after).run
      (fun _ _ => True) w := by
  cases result with
  | ok value => exact rest value rfl
  | error err => exact trivial

theorem found_of_moves {username : String} {choice : Choice} {found : Option User}
    (moves : w.Moves (accounts env)
      (.act thread call (.query (.userByName username)) choice (.ok found)) w') :
    w.shared.db.users.rows.find? (fun user => user.username = username) = found := by
  cases moves with
  | act _ performed =>
      have ran : w.shared.runQuery (.userByName username) choice = (.ok found, _) :=
        Option.some.inj performed
      simp only [State.runQuery] at ran
      split at ran
      · cases ran
      · split at ran
        · rename_i executed
          cases executed
          cases ran
          rfl
        · cases ran

/-- A user that is found keeps number and name. -/
theorem safe_userByName_bind {username : String} {after : Option User → AsyncResult β}
    {fact : AuthWorld → Prop} (lasts : Lasts env fact) (holds : fact w)
    (absent : ∀ w', Safe (accounts env) administrators thread call (after none).run
      (fun _ _ => True) w')
    (present : ∀ user w', fact w' → Named user.id username w' →
      Safe (accounts env) administrators thread call (after (some user)).run (fun _ _ => True) w') :
    Safe (accounts env) administrators thread call (query (.userByName username) >>= after).run
      (fun _ _ => True) w := by
  refine Safe.bindE (Safe.perform lasts.stable holds ?_)
  intro w' choice result w'' holds' ready moves allowed
  refine ⟨free_harmless w' _ w'' (.act rfl) ready moves allowed, fun _ => ?_⟩
  cases result with
  | error err => trivial
  | ok found =>
      cases found with
      | none => exact absent w''
      | some user =>
          refine present user w'' (lasts w' _ w'' moves holds') ?_
          have named : Named user.id user.username w' ∧ user.username = username := by
            obtain ⟨member, same⟩ := (Serial.find_index (by simp)).1 (found_of_moves moves)
            exact ⟨named_of_member member, same⟩
          exact named.2 ▸ named.1.moves moves

theorem sparesItself_of_hits {id : Int} {username : String} {q : Query} {choice : Choice}
    {result : AppResult q.Result} (entered : Entered thread id username w)
    (spares : q.removesAdmins = true → ∀ user ∈ w.shared.db.users.rows,
      user.id = id → user.username = username → q.hits user = false) :
    SparesItself w (.act thread call (.query q) choice result) := by
  intro other q' removal
  simp only [removalBy] at removal
  split at removal
  · rename_i removes
    cases removal
    exact ⟨id, username, entered, spares removes⟩
  · cases removal

theorem safe_removal_bind {id : Int} {username : String} {q : Query}
    {after : q.Result → AsyncResult β} {fact : AuthWorld → Prop} (lasts : Lasts env fact)
    (holds : fact w) (entered : Entered thread id username w)
    (spares : q.removesAdmins = true → ∀ w', fact w' → ∀ user ∈ w'.shared.db.users.rows,
      user.id = id → user.username = username → q.hits user = false)
    (rest : ∀ result, Harmless (after result)) :
    Safe (accounts env) administrators thread call (query q >>= after).run (fun _ _ => True) w := by
  refine Safe.bindE (Safe.perform (lasts.and lasts_entered).stable ⟨holds, entered⟩ ?_)
  intro w' choice result w'' both _ _ _
  refine ⟨?_, fun _ => ?_⟩
  · exact sparesItself_of_hits both.2 fun removes => spares removes w' both.1
  · cases result with
    | error err => trivial
    | ok result => exact safe_harmless (rest result)

theorem newRole_other {current : CurrentUser} {username : String} {role : Option String}
    {stored : String} (isNew : newRole current username role = .ok (some stored))
    (demotes : stored ≠ AccountRole.admin.asStr) : username ≠ current.username := by
  rintro rfl
  cases role with
  | none => cases isNew
  | some text =>
      simp only [newRole] at isNew
      split at isNew
      · cases isNew
      · rename_i parsed _
        split at isNew
        · cases isNew
        · rename_i own
          simp only [true_and, ne_eq, not_not] at own
          cases isNew
          exact demotes (congrArg AccountRole.asStr own)

theorem harmless_newPasswordHash {current : CurrentUser} {username : String}
    {password : Option String} : Harmless (newPasswordHash env current username password) := by
  cases password with
  | none => exact harmless_pure _
  | some password =>
      rw [newPasswordHash]
      split
      · exact harmless_throw _
      · apply harmless_bind (harmless_liftResult _)
        intro _
        exact harmless_bind harmless_hashText fun passwordHash => harmless_pure _

theorem safe_update {current : CurrentUser} {username : String} {role password : Option String}
    (entered : Entered thread current.id current.username w) :
    Safe (accounts env) administrators thread call (updateUser env current username role password).run
      (fun _ _ => True) w := by
  refine safe_harmless_bind (harmless_liftResult _) lasts_entered entered fun _ w₁ entered => ?_
  refine safe_userByName_bind lasts_entered entered (fun _ => trivial) fun user w₂ entered named => ?_
  refine safe_liftResult_bind fun stored isNew => ?_
  have lasts : Lasts env fun w => Entered thread current.id current.username w ∧
      Named user.id username w := lasts_entered.and lasts_named
  refine safe_harmless_bind harmless_newPasswordHash lasts ⟨entered, named⟩ fun hash w₃ both => ?_
  refine safe_harmless_bind (harmless_act rfl) lasts both fun now w₄ both => ?_
  refine safe_removal_bind lasts_named both.2 both.1 ?_ ?_
  · intro removes w₅ named other member isId isName
    cases stored with
    | none => cases removes
    | some stored =>
        have different : username ≠ current.username :=
          newRole_other isNew (by simpa [Query.removesAdmins] using removes)
        have apart : other.id ≠ user.id := by
          intro same
          exact different ((named.2 other member same).symm.trans isName)
        simp only [Query.hits, apart, decide_false, Bool.false_and]
  · intro _
    split
    · exact harmless_bind (harmless_act rfl) fun _ => harmless_pure _
    · exact harmless_pure _

theorem safe_delete {current : CurrentUser} {username : String}
    (entered : Entered thread current.id current.username w) :
    Safe (accounts env) administrators thread call (deleteUser current username).run
      (fun _ _ => True) w := by
  refine safe_harmless_bind (harmless_liftResult _) lasts_entered entered fun _ w₁ entered => ?_
  split
  · trivial
  rename_i different
  refine safe_harmless_bind (harmless_query rfl) lasts_entered entered fun found w₂ entered => ?_
  cases found with
  | none => trivial
  | some user =>
      refine safe_harmless_bind (harmless_query rfl) lasts_entered entered fun _ w₃ entered => ?_
      refine safe_removal_bind lasts_entered entered entered ?_ ?_
      · intro _ w₄ _ other _ _ isName
        simpa [Query.hits, isName] using Ne.symm different
      · exact fun _ => harmless_bind (harmless_act rfl) fun _ => harmless_pure _

theorem safe_handled {headers : HeaderMap} {endpoint : Endpoint} {current : CurrentUser}
    (entered : Entered thread current.id current.username w) :
    Safe (accounts env) administrators thread call (handle env headers endpoint current).run
      (fun _ _ => True) w := by
  cases endpoint with
  | updateUser username role password => exact safe_update entered
  | deleteUser username => exact safe_delete entered
  | me => exact safe_harmless (harmless_pure _)
  | createUser username password role => exact safe_harmless harmless_createUser
  | listUsers =>
      apply safe_harmless
      apply harmless_bind (harmless_liftResult _)
      intro _
      exact harmless_bind (harmless_query rfl) fun users => harmless_pure _
  | changeOwnPassword currentPassword newPassword => exact safe_harmless harmless_changeOwnPassword
  | listOwnTokens => exact safe_harmless (harmless_bind (harmless_query rfl) fun _ => harmless_pure _)
  | createOwnToken name expiresAt => exact safe_harmless harmless_createOwnToken
  | revokeOwnToken id => exact safe_harmless harmless_revokeOwnToken
  | listHosts => exact safe_harmless (harmless_bind (harmless_query rfl) fun _ => harmless_pure _)
  | createHost name => exact safe_harmless harmless_createHostEndpoint
  | revokeHost id => exact safe_harmless harmless_revokeHost

theorem safe_account_request {method : String} {headers : HeaderMap} {endpoint : Endpoint} :
    Safe (accounts env) administrators thread call
      (cookieOnlyRoute method headers (handle env headers endpoint)).run (fun _ _ => True) w := by
  have lasts : Lasts env fun _ => True := fun _ _ _ _ _ => trivial
  refine safe_harmless_bind harmless_currentUser lasts trivial fun _ w₁ _ => ?_
  refine safe_harmless_bind (harmless_liftResult _) lasts trivial fun _ w₂ _ => ?_
  refine safe_harmless_bind harmless_currentUser lasts trivial fun user w₃ _ => ?_
  refine Safe.bindE fun w₄ choice result w₅ _ ready moves allowed => ?_
  refine ⟨free_harmless w₄ _ w₅ (.act rfl) ready moves allowed, fun _ => ?_⟩
  have entered : Entered thread user.id user.username w₅ := (moves.did_iff _).2 (.inl rfl)
  exact safe_handled entered

theorem safe_serve (env : Env) (thread : Nat) (call : Call) (w : AuthWorld) :
    Safe (accounts env) administrators thread call ((accounts env).body call)
      (Final (accounts env) administrators thread call) w := by
  have safe : Safe (accounts env) administrators thread call (serve env call).run
      (fun _ _ => True) w := by
    cases call with
    | account method headers endpoint => exact safe_account_request
    | login ip username password => exact safe_harmless harmless_login
    | logout headers => exact safe_harmless harmless_logout
    | agentSession headers =>
        exact safe_harmless (harmless_bind harmless_authenticate fun host => harmless_pure _)
    | advance seconds =>
        exact safe_harmless (harmless_bind (harmless_act rfl) fun _ => harmless_pure _)
  refine safe.mono fun reply w' _ => ?_
  exact fun _ _ _ _ _ _ removal => nomatch removal

end Safety

theorem administrators_sound (env : Env) : Discipline.Sound (accounts env) administrators where
  keeps := fun _ _ _ _ admin moves still spares => hasAdmin_moves admin moves still spares
  starts := fun w call w' _ _ _ _ _ => safe_serve env w.next call w'
  forks := fun w _ _ forked w' _ _ _ _ _ _ => safe_serve env w.next forked w'

/-- As long as only administrators demote and delete, one remains. -/
theorem administrators_remain (env : Env) (state : State) (cfg : AuthConfig)
    (admin : HasAdmin state.db)
    (reachable : Reachable (accounts env) StillAdmin (Config.idle state) cfg) :
    AdminKept env cfg.shared :=
  .inl ((administrators_sound env).invariant (secure_idle admin) reachable)

/-! Runs that are played. -/

def isStillAdmin (w : AuthWorld) (event : AuthEvent) : Bool :=
  (removalBy event).all fun removal => w.history.all fun moment =>
    (enteredBy moment.event).all fun entered => entered.1 ≠ removal.1 ||
      w.shared.db.users.rows.any fun user => user.id = entered.2.1 &&
        user.username = entered.2.2 && user.role = AccountRole.admin.asStr

theorem stillAdmin_of_isStillAdmin (w : AuthWorld) (event : AuthEvent)
    (checked : isStillAdmin w event = true) : StillAdmin w event := by
  rintro thread q removal id username ⟨moment, member, entered⟩
  rw [isStillAdmin, removal] at checked
  have present := List.all_eq_true.1 (by simpa using checked) moment member
  rw [entered] at present
  simpa [IsAdmin, and_assoc] using present

/-- Ada and Bob, both administrators and both signed in. -/
def twoAdmins : State where
  db := {
    users := ⟨[⟨1, "ada", "secret", "admin", 0, 0⟩, ⟨2, "bob", "secret", "admin", 0, 0⟩], 3,
      by decide, by decide, by decide⟩
    apiTokens := ∅
    hosts := ∅
    permissions := [] }
  sessions := [("ada-token", ⟨"ada", 0⟩), ("bob-token", ⟨"bob", 0⟩)]
  loginAttempts := []
  issued := ["ada-token", "bob-token"]
  now := 0

def demotes (token username : String) : Call :=
  .account "PATCH" (cookieHeader token) (.updateUser username (some "member") none)

/-- Each has been found to be an administrator when the other one writes. -/
def demoteEachOther : List (Command Call Choice) :=
  .start (demotes "ada-token" "bob") :: .start (demotes "bob-token" "ada") ::
    (steps 0 9 ({} : Choice) ++ steps 1 9 ({} : Choice) ++ steps 0 3 ({} : Choice) ++
      steps 1 3 ({} : Choice))

theorem not_kept_of_play {state after : State} {username password : String}
    {choices : List Choice} {err : AppError}
    (noAdmin : state.db.users.rows.all (fun user => user.role ≠ AccountRole.admin.asStr) = true)
    (validName : validateUsername username = .ok ())
    (validPassword : validatePassword password = .ok ())
    (evaluated : (bootstrapAdmin env username password).run.eval reliably choices (restart state) =
      some (.error err, after)) : ¬ AdminKept env state := by
  rintro (⟨user, member, admin⟩ | recovers)
  · exact absurd admin (by simpa using List.all_eq_true.1 noAdmin user member)
  · have started := recovers username password validName validPassword (.error err) after
      (Program.runs_of_eval evaluated)
    cases started.1

theorem both_admins_lost : ∃ cfg : AuthConfig, HasAdmin twoAdmins.db ∧
    Reachable (accounts ⟨.plain, 30⟩) (fun _ _ => True) (Config.idle twoAdmins) cfg ∧
      ¬ AdminKept ⟨.plain, 30⟩ cfg.shared := by
  have ran : (runChecked (accounts ⟨.plain, 30⟩) (fun _ _ => true) (Config.idle twoAdmins)
      demoteEachOther).any (fun cfg =>
        (cfg.shared.db.users.rows.all fun user => user.role ≠ AccountRole.admin.asStr) &&
        ((bootstrapAdmin ⟨.plain, 30⟩ "ada" "secret").run.eval reliably
          [({} : Choice), { text := "salt" }, {}, {}] (restart cfg.shared)).any fun ran =>
            match ran.1 with
            | .error _ => true
            | .ok _ => false) = true := by decide +kernel
  obtain ⟨cfg, reachable, lost⟩ := runChecked_any (fun _ _ _ => trivial) ran
  obtain ⟨noAdmin, failed⟩ := Bool.and_eq_true_iff.1 lost
  obtain ⟨⟨outcome, after⟩, evaluated, isError⟩ := (Option.any_eq_true _ _).1 failed
  refine ⟨cfg, ⟨_, List.mem_cons_self, rfl⟩, reachable, ?_⟩
  cases outcome with
  | ok _ => cases isError
  | error err => exact not_kept_of_play noAdmin rfl rfl evaluated

/-- Ada demotes Bob. -/
theorem administrators_remain_after_ada : ∃ cfg : AuthConfig,
    cfg.history.any (fun moment => (removalBy moment.event).isSome) = true ∧
      AdminKept ⟨.plain, 30⟩ cfg.shared := by
  have ran : (runChecked (accounts ⟨.plain, 30⟩) isStillAdmin (Config.idle twoAdmins)
      (.start (demotes "ada-token" "bob") :: steps 0 12 ({} : Choice))).any (fun cfg =>
        cfg.history.any fun moment => (removalBy moment.event).isSome) = true := by decide +kernel
  obtain ⟨cfg, reachable, removed⟩ := runChecked_any stillAdmin_of_isStillAdmin ran
  have admin : HasAdmin twoAdmins.db := ⟨_, List.mem_cons_self, rfl⟩
  exact ⟨cfg, removed, administrators_remain ⟨.plain, 30⟩ twoAdmins cfg admin reachable⟩

end Berth.Auth
