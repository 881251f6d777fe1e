import Berth.Auth.Tokens

/-!
Bearer values: which of them are accepted, for whom, and how the others are refused.
-/

namespace Berth.Auth

open Interleave

variable {env : Env} {minted : List Minted} {state state' : State} {x : String}

/-! Presenting a token. -/

/-- The hub as it is while the database answers. -/
def reliably (action : Act) (choice : Choice) (state : State) : Option (action.Res × State) :=
  perform action { choice with failure := none } state

theorem runs_reliably_query {q : Query} {outcome : AppResult q.Result} {result : q.Result}
    (executed : state.db.exec q = some (result, state.db))
    (runs : Program.Runs reliably (query q).run state outcome state') :
    outcome = .ok result ∧ state' = state := by
  obtain ⟨choice, performed⟩ := Program.runs_perform.1 runs
  simp only [reliably, perform, State.runQuery, executed] at performed
  cases performed
  exact ⟨rfl, rfl⟩

theorem runs_reliably_now {outcome : AppResult Int}
    (runs : Program.Runs reliably nowEpochSecs.run state outcome state') :
    outcome = .ok state.now ∧ state' = state := by
  obtain ⟨_, rfl, ran⟩ := Fallible.runs_lift.1 runs
  obtain ⟨choice, performed⟩ := Program.runs_perform.1 ran
  cases performed
  exact ⟨rfl, rfl⟩

/-- The row of a token that is good for this text now. -/
structure Presents (env : Env) (state : State) (x : String) (token : ApiToken) : Prop where
  member : token ∈ state.db.apiTokens.rows
  text : ∃ secret, x = formatToken token.tokenId secret ∧ '.' ∉ token.tokenId.toList ∧
    env.argon2.verify secret token.tokenHash = true
  unrevoked : token.revoked = false
  unexpired : state.now < token.expiresAt

theorem Presents.unique {token token' : ApiToken} (presents : Presents env state x token)
    (presents' : Presents env state x token') : token = token' := by
  obtain ⟨secret, same, undotted, _⟩ := presents.text
  obtain ⟨secret', same', undotted', _⟩ := presents'.text
  have parsed := parseBearerValue_eq_some.2 ⟨same, undotted⟩
  have parsed' := parseBearerValue_eq_some.2 ⟨same', undotted'⟩
  rw [parsed, Option.some.injEq, Prod.mk.injEq] at parsed'
  exact Serial.eq_of_index_eq (by simp) presents.member presents'.member parsed'.1

/-- What becomes of a bearer value. -/
inductive Loaded (env : Env) (state : State) (x : String) : AppResult (Option CurrentUser) → Prop
  | accepted {token : ApiToken} {user : User} (presents : Presents env state x token)
      (owner : user ∈ state.db.users.rows) (id : user.id = token.userId) :
      Loaded env state x ((currentUserOf user).map some)
  | orphaned {token : ApiToken} (presents : Presents env state x token)
      (gone : ∀ user ∈ state.db.users.rows, user.id ≠ token.userId) :
      Loaded env state x (.error (.db "record not found"))
  | refused (unknown : ∀ token, ¬ Presents env state x token) :
      Loaded env state x (.error .unauthenticated)

theorem Loaded.presents {outcome : AppResult (Option CurrentUser)} {current : CurrentUser}
    (loaded : Loaded env state x outcome) (isSome : outcome = .ok (some current)) :
    ∃ token, Presents env state x token := by
  cases loaded with
  | accepted presents _ _ => exact ⟨_, presents⟩
  | orphaned presents _ => exact ⟨_, presents⟩
  | refused _ => cases isSome

theorem presents_of_found {tokenId secret : String} {token : ApiToken}
    (parsed : parseBearerValue x = some (tokenId, secret))
    (found : state.db.apiTokens.rows.find? (fun token => token.tokenId = tokenId) = some token) :
    Presents env state x token ↔ (token.revoked = false ∧ state.now < token.expiresAt) ∧
      env.argon2.verify secret token.tokenHash = true := by
  obtain ⟨same, undotted⟩ := parseBearerValue_eq_some.1 parsed
  obtain ⟨member, rfl⟩ := (Serial.find_index (by simp)).1 found
  constructor
  · rintro ⟨_, ⟨secret', same', undotted', verified⟩, unrevoked, unexpired⟩
    rw [parseBearerValue_eq_some.2 ⟨same', undotted'⟩] at parsed
    cases parsed
    exact ⟨⟨unrevoked, unexpired⟩, verified⟩
  · rintro ⟨⟨unrevoked, unexpired⟩, verified⟩
    exact ⟨member, ⟨secret, same, undotted, verified⟩, unrevoked, unexpired⟩

theorem Presents.found {tokenId secret : String} {token : ApiToken}
    (presents : Presents env state x token) (parsed : parseBearerValue x = some (tokenId, secret)) :
    state.db.apiTokens.rows.find? (fun token => token.tokenId = tokenId) = some token := by
  obtain ⟨secret', same, undotted, _⟩ := presents.text
  rw [parseBearerValue_eq_some.2 ⟨same, undotted⟩] at parsed
  cases parsed
  exact (Serial.find_index (by simp)).2 ⟨presents.member, rfl⟩

/-- The row is found, and its owner is looked up: the outcomes of `find_user_by_api_token`. -/
theorem loaded_of_findUser {tokenId secret : String} {found : AppResult (Option User)}
    (parsed : parseBearerValue x = some (tokenId, secret))
    (runs : Program.Runs reliably (findUserByApiToken env tokenId secret).run state found state') :
    Loaded env state x (match found with
      | .ok (some user) => (currentUserOf user).map some
      | .ok none => .error .unauthenticated
      | .error err => .error err) := by
  have refusal (absent : ∀ token, state.db.apiTokens.rows.find?
      (fun token => token.tokenId = tokenId) = some token → ¬ Presents env state x token) :
      Loaded env state x (.error .unauthenticated) :=
    .refused fun token presents => absent token (presents.found parsed) presents
  have bad (token : ApiToken) (found : state.db.apiTokens.rows.find?
      (fun token => token.tokenId = tokenId) = some token)
      (isBad : ¬ ((token.revoked = false ∧ state.now < token.expiresAt) ∧
        env.argon2.verify secret token.tokenHash = true)) :
      Loaded env state x (.error .unauthenticated) :=
    refusal fun other isFound presents => isBad ((presents_of_found parsed found).1
      (Option.some.inj (isFound.symm.trans found) ▸ presents))
  rcases Fallible.runs_bind.1 runs with ⟨_, looked, _⟩ | ⟨row, _, looked, rest⟩
  · cases (runs_reliably_query rfl looked).1
  obtain ⟨eq, rfl⟩ := runs_reliably_query rfl looked
  cases eq
  split at rest
  · rename_i absent
    obtain ⟨rfl, _⟩ := Fallible.runs_pure.1 rest
    exact refusal fun token found => nomatch absent.symm.trans found
  rename_i token found
  rcases Fallible.runs_bind.1 rest with ⟨_, ran, _⟩ | ⟨now, _, ran, rest⟩
  · cases (runs_reliably_now ran).1
  obtain ⟨eq, rfl⟩ := runs_reliably_now ran
  cases eq
  split at rest
  · rename_i dead
    obtain ⟨rfl, _⟩ := Fallible.runs_pure.1 rest
    refine bad token found fun ⟨⟨unrevoked, unexpired⟩, _⟩ => ?_
    simp only [unrevoked, Bool.false_or, decide_eq_true_eq] at dead
    omega
  rename_i alive
  simp only [Bool.or_eq_true, decide_eq_true_eq, not_or, Bool.not_eq_true, Int.not_le] at alive
  split at rest
  · rename_i wrong
    obtain ⟨rfl, _⟩ := Fallible.runs_pure.1 rest
    refine bad token found fun ⟨_, verified⟩ => ?_
    simp [verified] at wrong
  rename_i right
  have presents := (presents_of_found parsed found).2 ⟨alive, by simpa using right⟩
  rcases Fallible.runs_bind.1 rest with ⟨err, owned, rfl⟩ | ⟨user, _, owned, last⟩
  · rcases Fallible.runs_bind.1 owned with ⟨_, ran, _⟩ | ⟨_, _, ran, owned⟩
    · cases (runs_reliably_query rfl ran).1
    obtain ⟨eq, rfl⟩ := runs_reliably_query rfl ran
    cases eq
    split at owned
    · cases (Fallible.runs_pure.1 owned).1
    · rename_i absent
      cases (Fallible.runs_throw.1 owned).1
      exact .orphaned presents (by simpa using List.find?_eq_none.1 absent)
  · rcases Fallible.runs_bind.1 owned with ⟨_, ran, _⟩ | ⟨_, _, ran, owned⟩
    · cases (runs_reliably_query rfl ran).1
    obtain ⟨eq, rfl⟩ := runs_reliably_query rfl ran
    cases eq
    split at owned
    · rename_i owner isOwner
      cases (Fallible.runs_pure.1 owned).1
      obtain ⟨rfl, _⟩ := Fallible.runs_pure.1 last
      obtain ⟨member, same⟩ := Serial.find_id.1 isOwner
      exact .accepted presents member same
    · cases (Fallible.runs_throw.1 owned).1

theorem loaded_of_runs {headers : HeaderMap} {outcome : AppResult (Option CurrentUser)}
    (presented : bearerToken headers = some x)
    (runs : Program.Runs reliably (loadUserFromBearer env headers).run state outcome state') :
    Loaded env state x outcome := by
  simp only [loadUserFromBearer, presented] at runs
  split at runs
  · rename_i malformed
    obtain ⟨rfl, _⟩ := Fallible.runs_throw.1 runs
    refine .refused fun token presents => ?_
    obtain ⟨secret, same, undotted, _⟩ := presents.text
    exact nomatch malformed.symm.trans (parseBearerValue_eq_some.2 ⟨same, undotted⟩)
  · rename_i tokenId secret parsed
    rcases Fallible.runs_bind.1 runs with ⟨err, found, rfl⟩ | ⟨user, _, found, rest⟩
    · exact loaded_of_findUser parsed found
    · cases user with
      | none =>
          obtain ⟨rfl, _⟩ := Fallible.runs_throw.1 rest
          exact loaded_of_findUser parsed found
      | some user =>
          have loaded : Loaded env state x ((currentUserOf user).map some) :=
            loaded_of_findUser parsed found
          rcases Fallible.runs_bind.1 rest with ⟨err, ran, rfl⟩ | ⟨current, _, ran, last⟩
          · rw [← (runs_liftResult.1 ran).1] at loaded
            exact loaded
          · obtain ⟨rfl, _⟩ := Fallible.runs_pure.1 last
            rw [← (runs_liftResult.1 ran).1] at loaded
            exact loaded

/-! The life cycle. -/

/-- `x` was handed out for this row, which is neither revoked nor expired. -/
structure LiveToken (minted : List Minted) (state : State) (x : String) (token : ApiToken) :
    Prop where
  member : token ∈ state.db.apiTokens.rows
  minted : ∃ row, Minted.apiToken row x ∈ minted ∧ row.id = token.id
  unrevoked : token.revoked = false
  unexpired : state.now < token.expiresAt

/-- `x` is a live token of the user, who exists. -/
def Accepts (minted : List Minted) (state : State) (x : String) (current : CurrentUser) : Prop :=
  ∃ token user, LiveToken minted state x token ∧ user ∈ state.db.users.rows ∧
    user.id = token.userId ∧ currentUserOf user = .ok current

/-- `x` is a live token of a user who is gone. -/
def Orphaned (minted : List Minted) (state : State) (x : String) : Prop :=
  ∃ token, LiveToken minted state x token ∧ ∀ user ∈ state.db.users.rows, user.id ≠ token.userId

theorem Sound.madeOf (sound : Sound env minted state) {token : ApiToken} {row : ApiToken}
    (member : token ∈ state.db.apiTokens.rows) (isMinted : Minted.apiToken row x ∈ minted)
    (same : row.id = token.id) : MadeOf env token.tokenId token.tokenHash x := by
  obtain ⟨other, otherMember, otherId, made⟩ := sound.tokensMade row x isMinted
  rw [Serial.eq_of_id_eq member otherMember (same.symm.trans otherId.symm)]
  exact made

theorem Sound.presents_iff (sound : Sound env minted state) (exact_ : env.argon2.Exact)
    {token : ApiToken} : Presents env state x token ↔ LiveToken minted state x token := by
  constructor
  · rintro ⟨member, ⟨secret, same, undotted, verified⟩, unrevoked, unexpired⟩
    obtain ⟨row, plaintext, isMinted, id⟩ := sound.tokensMinted token member
    obtain ⟨made, salt, text, _, hashed⟩ := sound.madeOf member isMinted id
    have eq : secret = made := (exact_ made salt _ hashed secret).1 verified
    rw [eq, ← text] at same
    exact ⟨member, ⟨row, same ▸ isMinted, id⟩, unrevoked, unexpired⟩
  · rintro ⟨member, ⟨row, isMinted, id⟩, unrevoked, unexpired⟩
    obtain ⟨secret, salt, same, undotted, hashed⟩ := sound.madeOf member isMinted id
    exact ⟨member, ⟨secret, same, undotted, (exact_ secret salt _ hashed secret).2 rfl⟩, unrevoked,
      unexpired⟩

theorem LiveToken.unique (sound : Sound env minted state) (exact_ : env.argon2.Exact)
    {token token' : ApiToken} (live : LiveToken minted state x token)
    (live' : LiveToken minted state x token') : token = token' :=
  ((sound.presents_iff exact_).2 live).unique ((sound.presents_iff exact_).2 live')

/-- A bearer value is accepted for the user of a live token, and refused in the same way otherwise,
unless the user is gone. -/
theorem Sound.load_law (sound : Sound env minted state) (exact_ : env.argon2.Exact)
    {outcome : AppResult (Option CurrentUser)} (loaded : Loaded env state x outcome) :
    ((∀ current, outcome = .ok (some current) ↔ Accepts minted state x current) ∧
      ((∀ current, ¬ Accepts minted state x current) → outcome = .error .unauthenticated)) ↔
    ¬ Orphaned minted state x := by
  cases loaded with
  | @accepted token user presents owner id =>
      have live := (sound.presents_iff exact_).1 presents
      have notOrphaned : ¬ Orphaned minted state x := by
        rintro ⟨other, otherLive, gone⟩
        exact gone user owner (id.trans (congrArg _ (live.unique sound exact_ otherLive)))
      obtain ⟨role, isRole⟩ := sound.roles user owner
      have current : currentUserOf user = .ok ⟨user.id, user.username, role⟩ := by
        rw [currentUserOf, isRole]
        rfl
      refine iff_of_true ⟨fun other => ?_, fun none => absurd ⟨token, user, live, owner, id, current⟩
        (none _)⟩ notOrphaned
      rw [current]
      constructor
      · intro eq
        cases eq
        exact ⟨token, user, live, owner, id, current⟩
      · rintro ⟨token', user', live', owner', id', current'⟩
        have sameToken := live.unique sound exact_ live'
        have sameUser : user = user' :=
          Serial.eq_of_id_eq owner owner' (by rw [id, id', sameToken])
        rw [← sameUser, current] at current'
        cases current'
        rfl
  | @orphaned token presents gone =>
      have live := (sound.presents_iff exact_).1 presents
      refine iff_of_false (fun ⟨_, refused⟩ => ?_) (not_not_intro ⟨token, live, gone⟩)
      refine nomatch refused ?_
      rintro current ⟨token', user, live', owner, id, _⟩
      exact gone user owner (id.trans (congrArg _ (live'.unique sound exact_ live)))
  | refused unknown =>
      have none (token : ApiToken) : ¬ LiveToken minted state x token :=
        fun live => unknown token ((sound.presents_iff exact_).2 live)
      refine iff_of_true ⟨fun current => ?_, fun _ => rfl⟩ fun ⟨token, live, _⟩ => none token live
      exact iff_of_false (by simp) fun ⟨token, _, live, _⟩ => none token live

/-! The longest life a token may be given. -/

def FitsI64 (n : Int) : Prop := -2 ^ 63 ≤ n ∧ n < 2 ^ 63

theorem wrap64_of_fits {n : Int} (fits : FitsI64 n) : wrap64 n = n := by
  obtain ⟨lower, upper⟩ := fits
  simp only [wrap64, Int.bmod_def]
  omega

theorem validateExpiry_ok {now expiresAt maxExpiryDays : Int}
    (days : FitsI64 (maxExpiryDays * 86400)) (sum : FitsI64 (now + maxExpiryDays * 86400)) :
    validateExpiry now expiresAt maxExpiryDays = .ok () ↔
      now < expiresAt ∧ expiresAt ≤ now + 86400 * maxExpiryDays := by
  simp only [validateExpiry, wrap64_of_fits days, wrap64_of_fits sum, Int.mul_comm 86400]
  split
  · rename_i inside
    exact iff_of_true rfl inside
  · rename_i outside
    exact iff_of_false (fun eq => nomatch eq) outside

theorem generateToken_error {err : AppError}
    (runs : Program.Runs perform (generateToken env).run state (.error err) state') :
    ∃ message, err = .passwordHash message := by
  rcases Fallible.runs_bind.1 runs with ⟨_, ran, _⟩ | ⟨_, _, _, runs₁⟩
  · obtain ⟨_, eq, _⟩ := runs_randomText ran
    cases eq
  rcases Fallible.runs_bind.1 runs₁ with ⟨_, ran, _⟩ | ⟨secret, _, _, runs₂⟩
  · obtain ⟨_, eq, _⟩ := runs_randomText ran
    cases eq
  rcases Fallible.runs_bind.1 runs₂ with ⟨_, ran, eq⟩ | ⟨_, _, _, last⟩
  · cases eq
    rcases Fallible.runs_bind.1 ran with ⟨_, ran, _⟩ | ⟨salt, _, _, hashed⟩
    · obtain ⟨_, eq, _⟩ := runs_randomText ran
      cases eq
    · obtain ⟨eq, _⟩ := runs_liftResult.1 hashed
      cases made : env.argon2.hash secret salt with
      | ok hash => simp [made, Except.mapError] at eq
      | error message =>
          rw [made] at eq
          cases eq
          exact ⟨message, rfl⟩
  · cases (Fallible.runs_pure.1 last).1

/-- A token is refused for its expiry exactly when the check says so. -/
theorem createApiToken_refused {userId : Int} {name : String} {expiresAt : Int}
    {outcome : AppResult (ApiToken × String)}
    (runs : Program.Runs perform (createApiToken env userId name expiresAt).run state outcome state') :
    outcome = .error (.invalidTokenExpiry expiresAt) ↔
      validateExpiry state.now expiresAt env.apiTokenMaxExpiryDays ≠ .ok () := by
  rcases Fallible.runs_bind.1 runs with ⟨_, ran, _⟩ | ⟨now, _, ran, runs₁⟩
  · cases (runs_nowEpochSecs.1 ran).1
  obtain ⟨eq, rfl⟩ := runs_nowEpochSecs.1 ran
  cases eq
  rcases Fallible.runs_bind.1 runs₁ with ⟨err, ran, rfl⟩ | ⟨_, _, ran, runs₂⟩
  · obtain ⟨eq, rfl⟩ := runs_liftResult.1 ran
    rw [← eq]
    simp only [validateExpiry] at eq
    split at eq
    · cases eq
    · cases eq
      simp
  obtain ⟨eq, rfl⟩ := runs_liftResult.1 ran
  refine iff_of_false ?_ (not_not_intro eq.symm)
  rcases Fallible.runs_bind.1 runs₂ with ⟨err, ran, rfl⟩ | ⟨⟨tokenId, secret, hash⟩, _, ran, runs₃⟩
  · obtain ⟨message, rfl⟩ := generateToken_error ran
    simp
  rcases Fallible.runs_bind.1 runs₃ with ⟨_, created, rfl⟩ | ⟨row, _, created, last⟩
  · rcases runs_query_cases created with ⟨_, eq, _⟩ | ⟨_, _, eq, _⟩
    · cases eq
      simp
    · cases eq
  · obtain ⟨rfl, _⟩ := Fallible.runs_pure.1 last
    simp

/-! Tokens of hosts. -/

theorem host_of_authenticate {headers : HeaderMap} {host : Host}
    (presented : bearerToken headers = some x)
    (runs : Program.Runs perform (authenticate env headers).run state (.ok host) state') :
    host ∈ state.db.hosts.rows ∧ ∃ secret, parseBearerValue x = some (host.tokenId, secret) := by
  simp only [authenticate, presented] at runs
  split at runs
  · cases (Fallible.runs_throw.1 runs).1
  rename_i tokenId secret parsed
  obtain ⟨found, _, finding, last⟩ := Fallible.runs_bind_ok.1 runs
  cases found with
  | none => cases (Fallible.runs_throw.1 last).1
  | some row =>
      cases (Fallible.runs_pure.1 last).1
      obtain ⟨row, _, looked, rest⟩ := Fallible.runs_bind_ok.1 finding
      rcases runs_query_cases looked with ⟨_, eq, _⟩ | ⟨_, _, eq, executed, rfl⟩
      · cases eq
      cases executed
      cases eq
      split at rest
      · cases (Fallible.runs_pure.1 rest).1
      rename_i stored isStored
      split at rest
      · cases (Fallible.runs_pure.1 rest).1
      split at rest
      · cases (Fallible.runs_pure.1 rest).1
      cases (Fallible.runs_pure.1 rest).1
      obtain ⟨member, same⟩ := (Serial.find_index (by simp)).1 isStored
      exact ⟨member, secret, same ▸ parsed⟩

/-- No text is both a token of a user and one of a host. -/
theorem Sound.tokens_apart (sound : Sound env minted state) {token : ApiToken} {host : Host}
    (tokenMember : token ∈ state.db.apiTokens.rows) (hostMember : host ∈ state.db.hosts.rows)
    {secret secret' : String} (asToken : parseBearerValue x = some (token.tokenId, secret))
    (asHost : parseBearerValue x = some (host.tokenId, secret')) : False := by
  rw [asToken] at asHost
  exact sound.apart token tokenMember host hostMember (congrArg Prod.fst (Option.some.inj asHost))

theorem MadeOf.parsed {tokenId tokenHash : String} (made : MadeOf env tokenId tokenHash x) :
    ∃ secret, parseBearerValue x = some (tokenId, secret) := by
  obtain ⟨secret, salt, same, undotted, _⟩ := made
  exact ⟨secret, parseBearerValue_eq_some.2 ⟨same, undotted⟩⟩

/-- What bearer tokens are good for after any history. The first field holds where the token is not
one of a deleted user, the third where the longest life does not overflow. -/
structure TokenLaw (env : Env) (minted : List Minted) (state : State) : Prop where
  load : ∀ headers x outcome after, bearerToken headers = some x →
    Program.Runs reliably (loadUserFromBearer env headers).run state outcome after →
      (((∀ current, outcome = .ok (some current) ↔ Accepts minted state x current) ∧
        ((∀ current, ¬ Accepts minted state x current) → outcome = .error .unauthenticated)) ↔
      ¬ Orphaned minted state x)
  unsent : ∀ headers outcome after, bearerToken headers = none →
    Program.Runs reliably (bearerUser env headers).run state outcome after →
      outcome = .error .unauthenticated
  expiry : FitsI64 (env.apiTokenMaxExpiryDays * 86400) →
    FitsI64 (state.now + env.apiTokenMaxExpiryDays * 86400) → ∀ userId name expiresAt outcome after,
      Program.Runs perform (createApiToken env userId name expiresAt).run state outcome after →
        (outcome = .error (.invalidTokenExpiry expiresAt) ↔
          ¬ (state.now < expiresAt ∧ expiresAt ≤ state.now + 86400 * env.apiTokenMaxExpiryDays))
  hostTokens : ∀ row x headers outcome after, Minted.host row x ∈ minted →
    bearerToken headers = some x →
      Program.Runs reliably (loadUserFromBearer env headers).run state outcome after →
        ∀ current, outcome ≠ .ok (some current)
  userTokens : ∀ row x headers outcome after, Minted.apiToken row x ∈ minted →
    bearerToken headers = some x →
      Program.Runs perform (authenticate env headers).run state outcome after →
        ∀ host, outcome ≠ .ok host

def playOps (env : Env) : List (Op × List Choice) → List Minted × State →
    Option (List Minted × State)
  | [], reached => some reached
  | (op, choices) :: rest, (minted, state) =>
      match (op.run env).run.eval perform choices state with
      | none => none
      | some (outcome, state') => playOps env rest (mintedBy outcome ++ minted, state')

theorem History.play {ops : List (Op × List Choice)} {minted' : List Minted}
    (history : History env minted state)
    (played : playOps env ops (minted, state) = some (minted', state')) :
    History env minted' state' := by
  induction ops generalizing minted state with
  | nil =>
      cases played
      exact history
  | cons entry rest ih =>
      obtain ⟨op, choices⟩ := entry
      simp only [playOps] at played
      split at played
      · cases played
      · rename_i outcome between evaluated
        exact ih (history.step (Program.runs_of_eval evaluated)) played

/-- Ada, an administrator, creates Bob, who gets a token `berth_id.secret`. -/
def bobsToken : List (Op × List Choice) :=
  let text (text : String) : Choice := { text }
  let ada : CurrentUser := ⟨1, "ada", .admin⟩
  [(.bootstrapAdmin "ada" "secret", [{}, text "s1", {}, {}]),
   (.createUser ada "bob" "secret" "member", [{}, text "s2", {}, {}]),
   (.createApiToken 2 "laptop" 2000, [{}, text "id", text "secret", text "s3", {}])]

def bobIsDeleted : List (Op × List Choice) :=
  [(.deleteUser ⟨1, "ada", .admin⟩ "bob", [{}, {}, {}, {}])]

def bobsHeader : HeaderMap := (buildHeaders [⟨"authorization", "Bearer berth_id.secret"⟩]).getD []

/-- A token without its user is refused in another way than an unknown one. -/
theorem refused_otherwise {headers : HeaderMap} {choices : List Choice}
    {outcome : AppResult (Option CurrentUser)} {after : State} (history : History env minted state)
    (presented : bearerToken headers = some x)
    (evaluated : (loadUserFromBearer env headers).run.eval reliably choices state =
      some (outcome, after))
    (unowned : ∀ token ∈ state.db.apiTokens.rows, ∀ user ∈ state.db.users.rows,
      user.id ≠ token.userId) (otherwise : outcome ≠ .error .unauthenticated) :
    ∃ minted state outcome after, History env minted state ∧ bearerToken headers = some x ∧
      Program.Runs reliably (loadUserFromBearer env headers).run state outcome after ∧
      (∀ current, ¬ Accepts minted state x current) ∧ outcome ≠ .error .unauthenticated := by
  refine ⟨minted, state, outcome, after, history, presented, Program.runs_of_eval evaluated, ?_,
    otherwise⟩
  rintro current ⟨token, user, live, owner, id, _⟩
  exact unowned token live.member user owner id

end Berth.Auth
