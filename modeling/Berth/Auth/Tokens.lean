import Berth.Auth.Requests

/-!
The life of API tokens and of the tokens of hosts, over any sequence of the operations that create,
revoke and outlive them.
-/

namespace Berth.Auth

open Interleave

/-- A token as it was handed out: the row it belongs to, and its text. -/
inductive Minted where
  | apiToken (row : ApiToken) (plaintext : String)
  | host (row : Host) (plaintext : String)
  deriving DecidableEq

inductive Op where
  | bootstrapAdmin (username password : String)
  | createUser (current : CurrentUser) (username password role : String)
  | updateUser (current : CurrentUser) (username : String) (role password : Option String)
  | deleteUser (current : CurrentUser) (username : String)
  | createApiToken (userId : Int) (name : String) (expiresAt : Int)
  | revokeApiToken (userId id : Int)
  | createHost (name : String)
  | revokeHost (id : Int)
  | advance (seconds : Nat)

def Op.run (env : Env) : Op → AsyncResult (List Minted)
  | .bootstrapAdmin username password => do
      Auth.bootstrapAdmin env username password
      pure []
  | .createUser current username password role => do
      let _ ← Auth.createUser env current username password role
      pure []
  | .updateUser current username role password => do
      let _ ← Auth.updateUser env current username role password
      pure []
  | .deleteUser current username => do
      let _ ← Auth.deleteUser current username
      pure []
  | .createApiToken userId name expiresAt => do
      let (row, plaintext) ← Auth.createApiToken env userId name expiresAt
      pure [.apiToken row plaintext]
  | .revokeApiToken userId id => do
      Auth.revokeApiToken userId id
      pure []
  | .createHost name => do
      let (row, plaintext) ← Auth.createHost env name
      pure [.host row plaintext]
  | .revokeHost id => do
      Auth.revokeHost id
      pure []
  | .advance seconds => do
      act (.advance seconds)
      pure []

def mintedBy : AppResult (List Minted) → List Minted
  | .ok minted => minted
  | .error _ => []

def State.blank (now : Int) : State where
  db := ⟨∅, ∅, ∅, []⟩
  sessions := []
  loginAttempts := []
  issued := []
  now := now

/-- What one operation after the other makes of an empty database, with the tokens handed out. -/
inductive History (env : Env) : List Minted → State → Prop
  | start (now : Int) : History env [] (State.blank now)
  | step {minted : List Minted} {state state' : State} {op : Op}
      {outcome : AppResult (List Minted)} (before : History env minted state)
      (ran : Program.Runs perform (op.run env).run state outcome state') :
      History env (mintedBy outcome ++ minted) state'

variable {env : Env} {minted : List Minted} {state state' : State} {x : String}

/-! What holds of the rows. -/

/-- The row stores the id and the hash of this text. -/
def MadeOf (env : Env) (tokenId tokenHash plaintext : String) : Prop :=
  ∃ secret salt, plaintext = formatToken tokenId secret ∧ '.' ∉ tokenId.toList ∧
    env.argon2.hash secret salt = .ok tokenHash

structure Sound (env : Env) (minted : List Minted) (state : State) : Prop where
  roles : ∀ user ∈ state.db.users.rows, ∃ role, userRole user = .ok role
  tokensMinted : ∀ token ∈ state.db.apiTokens.rows,
    ∃ row plaintext, Minted.apiToken row plaintext ∈ minted ∧ row.id = token.id
  tokensMade : ∀ row plaintext, Minted.apiToken row plaintext ∈ minted →
    ∃ token ∈ state.db.apiTokens.rows, token.id = row.id ∧
      MadeOf env token.tokenId token.tokenHash plaintext
  hostsMade : ∀ row plaintext, Minted.host row plaintext ∈ minted →
    ∃ host ∈ state.db.hosts.rows, MadeOf env host.tokenId host.tokenHash plaintext
  tokensDrawn : ∀ token ∈ state.db.apiTokens.rows, token.tokenId ∈ state.issued
  hostsDrawn : ∀ host ∈ state.db.hosts.rows, host.tokenId ∈ state.issued
  apart : ∀ token ∈ state.db.apiTokens.rows, ∀ host ∈ state.db.hosts.rows,
    token.tokenId ≠ host.tokenId

theorem blank_sound (now : Int) : Sound env [] (State.blank now) := by
  constructor <;> simp [State.blank]

/-! Actions that have nothing to do with new tokens. -/

/-- Roles are stored as the code spells them, and no token is stored. -/
def Act.Plain : Act → Prop
  | .query (.createUser _ _ role _) => ∃ r : AccountRole, role = r.asStr
  | .query (.updateUser _ role _ _) => ∀ text, role = some text → ∃ r : AccountRole, text = r.asStr
  | .query (.createApiToken _ _ _ _ _ _) | .query (.createHost _ _ _ _) => False
  | _ => True

theorem userRole_change {user : User} {role passwordHash : Option String} {now : Int}
    (valid : ∃ r, userRole user = .ok r)
    (spelled : ∀ text, role = some text → ∃ r : AccountRole, text = r.asStr) :
    ∃ r, userRole (user.change role passwordHash now) = .ok r := by
  cases role with
  | none => exact valid
  | some text =>
      obtain ⟨r, rfl⟩ := spelled text rfl
      exact ⟨r, AccountRole.fromStr_asStr r⟩

/-- More drawn texts do no harm. -/
theorem Sound.draw (sound : Sound env minted state) (same : state'.db = state.db)
    (more : ∀ text ∈ state.issued, text ∈ state'.issued) : Sound env minted state' where
  roles := by rw [same]; exact sound.roles
  tokensMinted := by rw [same]; exact sound.tokensMinted
  tokensMade := by rw [same]; exact sound.tokensMade
  hostsMade := by rw [same]; exact sound.hostsMade
  tokensDrawn := by rw [same]; exact fun token member => more _ (sound.tokensDrawn token member)
  hostsDrawn := by rw [same]; exact fun host member => more _ (sound.hostsDrawn host member)
  apart := by rw [same]; exact sound.apart

theorem Sound.setUsers {users : Users} (sound : Sound env minted state)
    (roles : ∀ user ∈ users.rows, ∃ role, userRole user = .ok role) :
    Sound env minted { state with db := { state.db with users } } :=
  { sound with roles }

theorem exec_plain {q : Query} {result : q.Result} {db : Database} (plain : (Act.query q).Plain)
    (executed : state.db.exec q = some (result, db)) (sound : Sound env minted state) :
    Sound env minted { state with db } := by
  cases q with
  | createUser username passwordHash role now =>
      obtain ⟨r, rfl⟩ := plain
      obtain ⟨users, inserted, eq⟩ := Option.map_eq_some_iff.1 executed
      cases eq
      refine sound.setUsers fun user member => ?_
      rcases (Serial.mem_insert? inserted).1 member with old | rfl
      · exact sound.roles user old
      · exact ⟨r, AccountRole.fromStr_asStr r⟩
  | updateUser id role passwordHash now =>
      cases executed
      refine sound.setUsers fun user member => ?_
      obtain ⟨old, oldMember, rfl⟩ := List.mem_map.1 member
      simp only [Serial.changed]
      split
      · exact userRole_change (sound.roles old oldMember) plain
      · exact sound.roles old oldMember
  | deleteUser username =>
      cases executed
      exact sound.setUsers fun user member => sound.roles user (Serial.mem_deleteWhere.1 member).1
  | revokeApiToken id now =>
      cases executed
      refine { sound with tokensMinted := ?_, tokensMade := ?_, tokensDrawn := ?_, apart := ?_ }
      · intro token member
        obtain ⟨old, oldMember, rfl⟩ := List.mem_map.1 member
        rw [Serial.column_changed ApiToken.id rfl]
        exact sound.tokensMinted old oldMember
      · intro row plaintext isMinted
        obtain ⟨token, member, same, made⟩ := sound.tokensMade row plaintext isMinted
        refine ⟨_, List.mem_map_of_mem member, ?_, ?_⟩
        · rw [Serial.column_changed ApiToken.id rfl, same]
        · rw [Serial.column_changed ApiToken.tokenId rfl, Serial.column_changed ApiToken.tokenHash rfl]
          exact made
      · intro token member
        obtain ⟨old, oldMember, rfl⟩ := List.mem_map.1 member
        rw [Serial.column_changed ApiToken.tokenId rfl]
        exact sound.tokensDrawn old oldMember
      · intro token member
        obtain ⟨old, oldMember, rfl⟩ := List.mem_map.1 member
        rw [Serial.column_changed ApiToken.tokenId rfl]
        exact sound.apart old oldMember
  | revokeHost id now =>
      cases executed
      refine { sound with hostsMade := ?_, hostsDrawn := ?_, apart := ?_ }
      · intro row plaintext isMinted
        obtain ⟨host, member, made⟩ := sound.hostsMade row plaintext isMinted
        refine ⟨_, List.mem_map_of_mem member, ?_⟩
        rw [Serial.column_changed Host.tokenId rfl, Serial.column_changed Host.tokenHash rfl]
        exact made
      · intro host member
        obtain ⟨old, oldMember, rfl⟩ := List.mem_map.1 member
        rw [Serial.column_changed Host.tokenId rfl]
        exact sound.hostsDrawn old oldMember
      · intro token tokenMember host member
        obtain ⟨old, oldMember, rfl⟩ := List.mem_map.1 member
        rw [Serial.column_changed Host.tokenId rfl]
        exact sound.apart token tokenMember old oldMember
  | createApiToken userId name tokenId tokenHash expiresAt now => exact plain.elim
  | createHost name tokenId tokenHash now => exact plain.elim
  | deletePermissionsOf userId => cases executed; exact { sound with }
  | allUsers | userByName _ | userById _ | userWithRole _ | apiTokensOf _ | apiTokenByTokenId _
  | apiTokenById _ _ | allHosts | hostById _ | hostByName _ | hostByTokenId _ =>
      cases executed
      exact sound

theorem perform_plain {action : Act} {choice : Choice} {result : action.Res}
    (plain : action.Plain) (performed : perform action choice state = some (result, state'))
    (sound : Sound env minted state) : Sound env minted state' := by
  cases action with
  | query q =>
      simp only [perform, State.runQuery] at performed
      split at performed
      · cases performed; exact sound
      · split at performed
        · cases performed
          exact exec_plain plain (by assumption) sound
        · cases performed; exact sound
  | randomText =>
      simp only [perform, State.draw] at performed
      split at performed
      · cases performed
        exact sound.draw rfl fun text member => List.mem_cons_of_mem _ member
      · cases performed
  | issueSession username createdAt =>
      obtain ⟨⟨token, drawn⟩, isDrawn, eq⟩ := Option.map_eq_some_iff.1 performed
      cases eq
      simp only [State.draw] at isDrawn
      split at isDrawn
      · cases isDrawn
        exact sound.draw rfl fun text member => List.mem_cons_of_mem _ member
      · cases isDrawn
  | now | advance _ | findSession _ | removeSession _ | revokeSessionsFor _
  | revokeOtherSessionsFor _ _ | findLoginAttempts _ | recordFailedLogin _ _
  | clearLoginAttempts _ | enter _ _ =>
      cases performed
      exact sound.draw rfl fun text member => member

abbrev Plainly {α : Type} (program : AsyncResult α) : Prop :=
  Program.Uses Act.Plain (fun _ => True) program.run

theorem newRole_spelled {current : CurrentUser} {username : String} {role stored : Option String}
    (accepted : newRole current username role = .ok stored) :
    ∀ text, stored = some text → ∃ r : AccountRole, text = r.asStr := by
  cases role with
  | none =>
      cases accepted
      simp
  | some text =>
      simp only [newRole] at accepted
      split at accepted
      · cases accepted
      · rename_i r _
        split at accepted
        · cases accepted
        · cases accepted
          rintro _ ⟨rfl⟩
          exact ⟨r, rfl⟩

theorem hashText_plain (text : String) : Plainly (hashText env text) :=
  Fallible.uses_bind (uses_act trivial) fun _ => Program.uses_done _

theorem newPasswordHash_plain (current : CurrentUser) (username : String)
    (password : Option String) : Plainly (newPasswordHash env current username password) := by
  cases password with
  | none => exact Fallible.uses_pure _
  | some password =>
      simp only [newPasswordHash]
      split
      · exact Fallible.uses_throw _
      · refine uses_liftResult_bind fun _ _ => Fallible.uses_bind (hashText_plain password) ?_
        exact fun _ => Fallible.uses_pure _

theorem bootstrapAdmin_plain (username password : String) :
    Plainly (bootstrapAdmin env username password) := by
  refine Fallible.uses_bind (uses_query trivial) fun admin => ?_
  cases admin with
  | some user => exact Fallible.uses_pure _
  | none =>
      refine uses_liftResult_bind fun _ _ => uses_liftResult_bind fun _ _ => ?_
      refine Fallible.uses_bind (hashText_plain password) fun passwordHash => ?_
      refine Fallible.uses_bind (uses_act trivial) fun now => ?_
      exact Fallible.uses_bind (uses_query ⟨.admin, rfl⟩) fun _ => Fallible.uses_pure _

theorem createUser_plain (current : CurrentUser) (username password role : String) :
    Plainly (createUser env current username password role) := by
  refine uses_liftResult_bind fun _ _ => uses_liftResult_bind fun _ _ => ?_
  refine uses_liftResult_bind fun _ _ => uses_liftResult_bind fun role _ => ?_
  refine Fallible.uses_bind (uses_query trivial) fun existing => ?_
  cases existing with
  | some user => exact Fallible.uses_throw _
  | none =>
      refine Fallible.uses_bind (hashText_plain password) fun passwordHash => ?_
      refine Fallible.uses_bind (uses_act trivial) fun now => ?_
      exact Fallible.uses_bind (uses_query ⟨role, rfl⟩) fun _ => Fallible.uses_pure _

theorem updateUser_plain (current : CurrentUser) (username : String)
    (role password : Option String) : Plainly (updateUser env current username role password) := by
  refine uses_liftResult_bind fun _ _ => Fallible.uses_bind (uses_query trivial) fun found => ?_
  cases found with
  | none => exact Fallible.uses_throw _
  | some user =>
      refine uses_liftResult_bind fun stored accepted => ?_
      refine Fallible.uses_bind (newPasswordHash_plain current username password) fun _ => ?_
      refine Fallible.uses_bind (uses_act trivial) fun now => ?_
      refine Fallible.uses_bind (uses_query (newRole_spelled accepted)) fun _ => ?_
      split
      · exact Fallible.uses_bind (uses_act trivial) fun _ => Fallible.uses_pure _
      · exact Fallible.uses_pure _

theorem deleteUser_plain (current : CurrentUser) (username : String) :
    Plainly (deleteUser current username) := by
  refine uses_liftResult_bind fun _ _ => ?_
  split
  · exact Fallible.uses_throw _
  · refine Fallible.uses_bind (uses_query trivial) fun found => ?_
    cases found with
    | none => exact Fallible.uses_throw _
    | some user =>
        refine Fallible.uses_bind (uses_query trivial) fun _ => ?_
        refine Fallible.uses_bind (uses_query trivial) fun _ => ?_
        exact Fallible.uses_bind (uses_act trivial) fun _ => Fallible.uses_pure _

theorem revokeApiToken_plain (userId id : Int) : Plainly (revokeApiToken userId id) := by
  refine Fallible.uses_bind (uses_query trivial) fun found => ?_
  cases found with
  | none => exact Fallible.uses_throw _
  | some token => exact Fallible.uses_bind (uses_act trivial) fun now => uses_query trivial

theorem revokeHost_plain (id : Int) : Plainly (revokeHost id) := by
  refine Fallible.uses_bind (uses_query trivial) fun found => ?_
  cases found with
  | none => exact Fallible.uses_throw _
  | some host => exact Fallible.uses_bind (uses_act trivial) fun now => uses_query trivial

/-! Creating a token. -/

/-- What a new id, secret and hash have to do with the texts drawn before. -/
structure Generated (env : Env) (state state' : State) (tokenId secret tokenHash : String) :
    Prop where
  undotted : '.' ∉ tokenId.toList
  fresh : tokenId ∉ state.issued
  drawn : tokenId ∈ state'.issued
  hashed : ∃ salt, env.argon2.hash secret salt = .ok tokenHash
  db : state'.db = state.db
  more : ∀ text ∈ state.issued, text ∈ state'.issued

theorem runs_randomText {outcome : AppResult String}
    (runs : Program.Runs perform (act .randomText).run state outcome state') :
    ∃ text, outcome = .ok text ∧ text.toList.all isUrlsafe = true ∧ text ∉ state.issued ∧
      state' = { state with issued := text :: state.issued } := by
  obtain ⟨choice, text, rfl, performed⟩ := runs_act.1 runs
  simp only [perform, State.draw] at performed
  split at performed
  · rename_i valid
    cases performed
    exact ⟨_, rfl, valid.1, valid.2, rfl⟩
  · cases performed

theorem generated_of_runs {tokenId secret tokenHash : String}
    (runs : Program.Runs perform (generateToken env).run state
      (.ok (tokenId, secret, tokenHash)) state') :
    Generated env state state' tokenId secret tokenHash := by
  obtain ⟨_, _, first, runs⟩ := Fallible.runs_bind_ok.1 runs
  obtain ⟨id, eq, valid, fresh, rfl⟩ := runs_randomText first
  cases eq
  obtain ⟨_, _, second, runs⟩ := Fallible.runs_bind_ok.1 runs
  obtain ⟨text, eq, _, _, rfl⟩ := runs_randomText second
  cases eq
  obtain ⟨hash, _, hashing, last⟩ := Fallible.runs_bind_ok.1 runs
  obtain ⟨salt, _, salting, hashed⟩ := Fallible.runs_bind_ok.1 hashing
  obtain ⟨_, eq, _, _, rfl⟩ := runs_randomText salting
  cases eq
  obtain ⟨isHash, rfl⟩ := runs_liftResult.1 hashed
  obtain ⟨eq, rfl⟩ := Fallible.runs_pure.1 last
  cases eq
  refine ⟨fun dotted => ?_, fresh, ?_, ⟨salt, ?_⟩, rfl, ?_⟩
  · have allowed := List.all_eq_true.1 valid '.' dotted
    exact absurd allowed (by decide)
  · exact List.mem_cons_of_mem _ (List.mem_cons_of_mem _ List.mem_cons_self)
  · cases made : env.argon2.hash secret salt with
    | ok stored =>
        rw [made] at isHash
        cases isHash
        rfl
    | error err =>
        rw [made] at isHash
        cases isHash
  · intro text member
    exact List.mem_cons_of_mem _ (List.mem_cons_of_mem _ (List.mem_cons_of_mem _ member))

theorem generateToken_plain : Plainly (generateToken env) := by
  refine Fallible.uses_bind (uses_act trivial) fun tokenId => ?_
  refine Fallible.uses_bind (uses_act trivial) fun secret => ?_
  exact Fallible.uses_bind (hashText_plain secret) fun _ => Fallible.uses_pure _

theorem generateToken_sound {outcome : AppResult (String × String × String)}
    (runs : Program.Runs perform (generateToken env).run state outcome state')
    (sound : Sound env minted state) : Sound env minted state' :=
  runs.keeps generateToken_plain (fun _ _ _ _ _ plain performed => perform_plain plain performed)
    sound

section Create

variable {between : State} {tokenId secret tokenHash : String}

theorem Generated.tokenId_fresh (generated : Generated env state between tokenId secret tokenHash)
    (sound : Sound env minted state) :
    (∀ token ∈ between.db.apiTokens.rows, token.tokenId ≠ tokenId) ∧
      ∀ host ∈ between.db.hosts.rows, host.tokenId ≠ tokenId := by
  rw [generated.db]
  constructor
  · intro token member same
    exact generated.fresh (same ▸ sound.tokensDrawn token member)
  · intro host member same
    exact generated.fresh (same ▸ sound.hostsDrawn host member)

theorem Generated.madeOf (generated : Generated env state between tokenId secret tokenHash) :
    MadeOf env tokenId tokenHash (formatToken tokenId secret) := by
  obtain ⟨salt, hashed⟩ := generated.hashed
  exact ⟨secret, salt, rfl, generated.undotted, hashed⟩

theorem Sound.createApiToken (sound : Sound env minted state) (sound' : Sound env minted between)
    (generated : Generated env state between tokenId secret tokenHash) {userId : Int} {name : String}
    {expiresAt now : Int} {row : ApiToken} {db : Database}
    (executed : between.db.exec (.createApiToken userId name tokenId tokenHash expiresAt now) =
      some (row, db)) :
    Sound env (.apiToken row (formatToken tokenId secret) :: minted) { between with db } := by
  obtain ⟨apiTokens, inserted, eq⟩ := Option.map_eq_some_iff.1 executed
  cases eq
  have rows : ∀ token, token ∈ apiTokens.rows ↔ token ∈ between.db.apiTokens.rows ∨ token = _ :=
    fun token => Serial.mem_insert? inserted
  refine { sound' with tokensMinted := ?_, tokensMade := ?_, hostsMade := ?_, tokensDrawn := ?_,
                       apart := ?_ }
  · intro token member
    rcases (rows token).1 member with old | rfl
    · obtain ⟨row, plaintext, isMinted, same⟩ := sound'.tokensMinted token old
      exact ⟨row, plaintext, List.mem_cons_of_mem _ isMinted, same⟩
    · exact ⟨_, _, List.mem_cons_self, rfl⟩
  · intro row plaintext isMinted
    rcases List.mem_cons.1 isMinted with eq | old
    · cases eq
      exact ⟨_, (rows _).2 (.inr rfl), rfl, generated.madeOf⟩
    · obtain ⟨token, member, made⟩ := sound'.tokensMade row plaintext old
      exact ⟨token, (rows token).2 (.inl member), made⟩
  · intro row plaintext isMinted
    rcases List.mem_cons.1 isMinted with eq | old
    · cases eq
    · exact sound'.hostsMade row plaintext old
  · intro token member
    rcases (rows token).1 member with old | rfl
    · exact sound'.tokensDrawn token old
    · exact generated.drawn
  · intro token member
    rcases (rows token).1 member with old | rfl
    · exact sound'.apart token old
    · exact fun host isHost same => (generated.tokenId_fresh sound).2 host isHost same.symm

theorem Sound.createHost (sound : Sound env minted state) (sound' : Sound env minted between)
    (generated : Generated env state between tokenId secret tokenHash) {name : String} {now : Int}
    {row : Host} {db : Database}
    (executed : between.db.exec (.createHost name tokenId tokenHash now) = some (row, db)) :
    Sound env (.host row (formatToken tokenId secret) :: minted) { between with db } := by
  obtain ⟨hosts, inserted, eq⟩ := Option.map_eq_some_iff.1 executed
  cases eq
  have rows : ∀ host, host ∈ hosts.rows ↔ host ∈ between.db.hosts.rows ∨ host = _ :=
    fun host => Serial.mem_insert? inserted
  refine { sound' with tokensMinted := ?_, tokensMade := ?_, hostsMade := ?_, hostsDrawn := ?_,
                       apart := ?_ }
  · intro token member
    obtain ⟨row, plaintext, isMinted, same⟩ := sound'.tokensMinted token member
    exact ⟨row, plaintext, List.mem_cons_of_mem _ isMinted, same⟩
  · intro row plaintext isMinted
    rcases List.mem_cons.1 isMinted with eq | old
    · cases eq
    · exact sound'.tokensMade row plaintext old
  · intro row plaintext isMinted
    rcases List.mem_cons.1 isMinted with eq | old
    · cases eq
      exact ⟨_, (rows _).2 (.inr rfl), generated.madeOf⟩
    · obtain ⟨host, member, made⟩ := sound'.hostsMade row plaintext old
      exact ⟨host, (rows host).2 (.inl member), made⟩
  · intro host member
    rcases (rows host).1 member with old | rfl
    · exact sound'.hostsDrawn host old
    · exact generated.drawn
  · intro token isToken host member
    rcases (rows host).1 member with old | rfl
    · exact sound'.apart token isToken host old
    · exact (generated.tokenId_fresh sound).1 token isToken

end Create

/-! Every history. -/

/-- A new token is recorded with its row, and a failure leaves no token behind. -/
theorem createApiToken_sound {userId : Int} {name : String} {expiresAt : Int}
    {outcome : AppResult (ApiToken × String)}
    (runs : Program.Runs perform (createApiToken env userId name expiresAt).run state outcome state')
    (sound : Sound env minted state) :
    Sound env (mintedBy (outcome.map fun made => [.apiToken made.1 made.2]) ++ minted) state' := by
  rcases Fallible.runs_bind.1 runs with ⟨_, ran, rfl⟩ | ⟨now, _, ran, runs₁⟩
  · exact (runs_nowEpochSecs.1 ran).2 ▸ sound
  obtain ⟨_, rfl⟩ := runs_nowEpochSecs.1 ran
  rcases Fallible.runs_bind.1 runs₁ with ⟨_, ran, rfl⟩ | ⟨_, _, ran, runs₂⟩
  · exact (runs_liftResult.1 ran).2 ▸ sound
  obtain ⟨_, rfl⟩ := runs_liftResult.1 ran
  rcases Fallible.runs_bind.1 runs₂ with ⟨_, ran, rfl⟩ | ⟨⟨tokenId, secret, hash⟩, _, ran, runs₃⟩
  · exact generateToken_sound ran sound
  have sound' := generateToken_sound ran sound
  rcases Fallible.runs_bind.1 runs₃ with ⟨_, created, rfl⟩ | ⟨row, _, created, last⟩
  · rcases runs_query_cases created with ⟨_, _, rfl⟩ | ⟨_, _, eq, _⟩
    · exact sound'
    · cases eq
  · obtain ⟨rfl, rfl⟩ := Fallible.runs_pure.1 last
    rcases runs_query_cases created with ⟨_, eq, _⟩ | ⟨_, db, eq, executed, rfl⟩
    · cases eq
    · cases eq
      exact sound.createApiToken sound' (generated_of_runs ran) executed

theorem createHost_sound {name : String} {outcome : AppResult (Host × String)}
    (runs : Program.Runs perform (createHost env name).run state outcome state')
    (sound : Sound env minted state) :
    Sound env (mintedBy (outcome.map fun made => [.host made.1 made.2]) ++ minted) state' := by
  simp only [createHost] at runs
  split at runs
  · obtain ⟨rfl, rfl⟩ := runs
    exact sound
  rcases Fallible.runs_bind.1 runs with ⟨_, ran, rfl⟩ | ⟨now, _, ran, runs₁⟩
  · exact (runs_nowEpochSecs.1 ran).2 ▸ sound
  obtain ⟨_, rfl⟩ := runs_nowEpochSecs.1 ran
  rcases Fallible.runs_bind.1 runs₁ with ⟨_, ran, rfl⟩ | ⟨⟨tokenId, secret, hash⟩, _, ran, runs₂⟩
  · exact generateToken_sound ran sound
  have sound' := generateToken_sound ran sound
  rcases Fallible.runs_bind.1 runs₂ with ⟨_, looked, rfl⟩ | ⟨existing, _, looked, runs₃⟩
  · rcases runs_query_cases looked with ⟨_, _, rfl⟩ | ⟨_, _, eq, _⟩
    · exact sound'
    · cases eq
  rcases runs_query_cases looked with ⟨_, eq, _⟩ | ⟨_, _, _, executed, rfl⟩
  · cases eq
  cases executed
  cases existing with
  | some host =>
      obtain ⟨rfl, rfl⟩ := Fallible.runs_throw.1 runs₃
      exact sound'
  | none =>
      rcases Fallible.runs_bind.1 runs₃ with ⟨_, created, rfl⟩ | ⟨row, _, created, last⟩
      · rcases runs_query_cases created with ⟨_, _, rfl⟩ | ⟨_, _, eq, _⟩
        · exact sound'
        · cases eq
      · obtain ⟨rfl, rfl⟩ := Fallible.runs_pure.1 last
        rcases runs_query_cases created with ⟨_, eq, _⟩ | ⟨_, db, eq, executed, rfl⟩
        · cases eq
        · cases eq
          exact sound.createHost sound' (generated_of_runs ran) executed

/-- An operation hands on what a creating program has made. -/
theorem runs_handing {α : Type} {program : AsyncResult α} {hand : α → List Minted}
    {outcome : AppResult (List Minted)}
    (runs : Program.Runs perform (do
      let made ← program
      pure (hand made) : AsyncResult (List Minted)).run state outcome state') :
    ∃ made, Program.Runs perform program.run state made state' ∧ outcome = made.map hand := by
  rcases Fallible.runs_bind.1 runs with ⟨err, ran, rfl⟩ | ⟨made, _, ran, last⟩
  · exact ⟨.error err, ran, rfl⟩
  · obtain ⟨rfl, rfl⟩ := Fallible.runs_pure.1 last
    exact ⟨.ok made, ran, rfl⟩

theorem plain_sound {α : Type} {program : AsyncResult α} {outcome : AppResult (List Minted)}
    (plain : Plainly program)
    (runs : Program.Runs perform (do
      let _ ← program
      pure [] : AsyncResult (List Minted)).run state outcome state')
    (sound : Sound env minted state) : Sound env (mintedBy outcome ++ minted) state' := by
  obtain ⟨made, ran, rfl⟩ := runs_handing runs
  have none : mintedBy (made.map fun _ => []) = [] := by cases made <;> rfl
  rw [none]
  exact ran.keeps plain (fun _ _ _ _ _ isPlain performed => perform_plain isPlain performed) sound

theorem History.sound (history : History env minted state) : Sound env minted state := by
  induction history with
  | start now => exact blank_sound now
  | @step minted state state' op outcome before ran sound =>
      cases op with
      | bootstrapAdmin username password =>
          exact plain_sound (bootstrapAdmin_plain username password) ran sound
      | createUser current username password role =>
          exact plain_sound (createUser_plain current username password role) ran sound
      | updateUser current username role password =>
          exact plain_sound (updateUser_plain current username role password) ran sound
      | deleteUser current username =>
          exact plain_sound (deleteUser_plain current username) ran sound
      | createApiToken userId name expiresAt =>
          obtain ⟨made, created, rfl⟩ := runs_handing ran
          exact createApiToken_sound created sound
      | revokeApiToken userId id => exact plain_sound (revokeApiToken_plain userId id) ran sound
      | createHost name =>
          obtain ⟨made, created, rfl⟩ := runs_handing ran
          exact createHost_sound created sound
      | revokeHost id => exact plain_sound (revokeHost_plain id) ran sound
      | advance seconds =>
          have plain : Plainly (act (.advance seconds)) := uses_act trivial
          exact plain_sound plain ran sound

end Berth.Auth
