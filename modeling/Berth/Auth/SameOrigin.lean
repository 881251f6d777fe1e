import Berth.Auth.Requests
import Berth.Interleave.Alone

/-!
The same-origin check against the credential that a group of routes really uses.
-/

namespace Berth.Auth

open Interleave

variable {env : Env} {method : String} {headers : HeaderMap} {α : Type}

inductive Group where
  | bearerOrCookie
  | cookieOnly
  deriving DecidableEq

/-- The layers of a group around a handler, which gets the user and how it was found. -/
def Group.route (env : Env) (group : Group) (method : String) (headers : HeaderMap)
    (handler : CurrentUser × Credential → AsyncResult α) : AsyncResult α :=
  match group with
  | .bearerOrCookie => bearerOrCookieRoute env method headers handler
  | .cookieOnly => cookieOnlyRoute method headers fun user => handler (user, .cookie)

/-- The handler can be reached with this user, whatever else the hub does meanwhile. -/
def HandlerRuns (env : Env) (group : Group) (method : String) (headers : HeaderMap)
    (user : CurrentUser) (credential : Credential) : Prop :=
  Program.Yields perform (group.route env method headers pure).run (.ok (user, credential))

def CarriesSameOrigin (headers : HeaderMap) : Prop :=
  ∃ entry ∈ headers, entry.1.text = "sec-fetch-site" ∧ entry.2.toStr = some "same-origin"

theorem carriesSameOrigin_of_headerText
    (same : headerText headers "sec-fetch-site" = some "same-origin") :
    CarriesSameOrigin headers := by
  obtain ⟨value, found, text⟩ := Option.bind_eq_some_iff.1 same
  obtain ⟨entry, isFirst, rfl⟩ := Option.map_eq_some_iff.1 found
  exact ⟨entry, List.mem_of_find?_eq_some isFirst, by simpa using List.find?_some isFirst, text⟩

theorem verifySameOrigin_ok : verifySameOrigin method headers = .ok () ↔
    isSafeMethod method = true ∨ (bearerToken headers).isSome ∨
      (cookieValue headers sessionCookie).isNone ∨
        headerText headers "sec-fetch-site" = some "same-origin" := by
  simp only [verifySameOrigin]
  split
  · simp_all
  · split
    · simp_all
    · split
      · simp_all
      · split <;> simp_all

/-! What must have been presented for a user to be found. -/

theorem cookie_of_currentUser {user : CurrentUser}
    (yields : Program.Yields perform (currentUser headers).run (.ok user)) :
    (cookieValue headers sessionCookie).isSome := by
  obtain ⟨username, resolved, _⟩ := Fallible.yields_bind_ok.1 yields
  cases presented : cookieValue headers sessionCookie with
  | none =>
      rw [resolveCookieUsername, presented] at resolved
      exact nomatch resolved
  | some token => rfl

theorem no_bearer_of_loadUserFromBearer
    (yields : Program.Yields perform (loadUserFromBearer env headers).run (.ok none)) :
    bearerToken headers = none := by
  cases presented : bearerToken headers with
  | none => rfl
  | some bearer =>
      simp only [loadUserFromBearer, presented] at yields
      cases parsed : parseBearerValue bearer with
      | none =>
          rw [parsed] at yields
          exact nomatch yields
      | some parts =>
          rw [parsed] at yields
          obtain ⟨found, _, rest⟩ := Fallible.yields_bind_ok.1 yields
          cases found with
          | none => exact nomatch rest
          | some user =>
              obtain ⟨current, _, last⟩ := Fallible.yields_bind_ok.1 rest
              cases last

theorem apiUser_cookie {user : CurrentUser}
    (yields : Program.Yields perform (apiUser env headers).run (.ok (user, .cookie))) :
    bearerToken headers = none ∧ (cookieValue headers sessionCookie).isSome := by
  obtain ⟨found, loaded, rest⟩ := Fallible.yields_bind_ok.1 yields
  cases found with
  | some current => cases rest
  | none =>
      obtain ⟨current, fromCookie, _⟩ := Fallible.yields_bind_ok.1 rest
      exact ⟨no_bearer_of_loadUserFromBearer loaded, cookie_of_currentUser fromCookie⟩

/-- Behind the layers the check has passed and the handler's own user has been found. -/
theorem checked_of_route {β γ : Type} {first : AsyncResult β} {second : AsyncResult γ}
    {after : γ → AsyncResult α} {value : α}
    (yields : Program.Yields perform
      (first >>= fun _ => enforceSameOrigin method headers (second >>= after)).run (.ok value)) :
    verifySameOrigin method headers = .ok () ∧
      ∃ found, Program.Yields perform second.run (.ok found) ∧
        Program.Yields perform (after found).run (.ok value) := by
  obtain ⟨_, _, layered⟩ := Fallible.yields_bind_ok.1 yields
  obtain ⟨passed, verified, handled⟩ := Fallible.yields_bind_ok.1 layered
  exact ⟨(yields_liftResult.1 verified).symm, Fallible.yields_bind_ok.1 handled⟩

/-! A session that is let in. -/

theorem runs_currentUser {state : State} {token : String} {session : Session} {user : User}
    {current : CurrentUser} (presented : cookieValue headers sessionCookie = some token)
    (found : lookup state.sessions token = some session)
    (young : state.now - session.createdAt ≤ sessionMaxAgeSecs)
    (stored : state.db.users.rows.find? (fun user => user.username = session.username) = some user)
    (role : currentUserOf user = .ok current) :
    Program.Runs perform (currentUser headers).run state (.ok current) state := by
  refine Fallible.runs_bind.2 (.inr ⟨session.username, state, ?_, ?_⟩)
  · rw [resolveCookieUsername, presented]
    refine Fallible.runs_bind.2 (.inr ⟨some session, state, ?_, ?_⟩)
    · exact runs_act.2 ⟨{}, _, rfl, by rw [perform, found]⟩
    · refine Fallible.runs_bind.2 (.inr ⟨state.now, state, runs_act.2 ⟨{}, _, rfl, rfl⟩, ?_⟩)
      rw [if_neg (by omega)]
      exact Fallible.runs_pure.2 ⟨rfl, rfl⟩
  · refine Fallible.runs_bind.2 (.inr ⟨some user, state, ?_, ?_⟩)
    · exact runs_query_of_exec (by rw [Database.exec, stored])
    · exact runs_liftResult.2 ⟨role.symm, rfl⟩

/-- One user with one session. -/
def signedIn (token : String) : State where
  db := {
    users := ⟨[⟨1, "ada", "", "admin", 0, 0⟩], 2, List.forall_mem_singleton.2 (by decide),
      List.nodup_singleton _, List.forall_mem_singleton.2 (List.nodup_singleton _)⟩
    apiTokens := ∅
    hosts := ∅
    permissions := [] }
  sessions := [(token, ⟨"ada", 0⟩)]
  loginAttempts := []
  issued := [token]
  now := 0

theorem currentUser_signedIn {token : String}
    (presented : cookieValue headers sessionCookie = some token) :
    Program.Runs perform (currentUser headers).run (signedIn token)
      (.ok ⟨1, "ada", .admin⟩) (signedIn token) := by
  have found : lookup (signedIn token).sessions token = some ⟨"ada", 0⟩ := by
    simp [lookup, signedIn]
  have young : (0 : Int) - 0 ≤ sessionMaxAgeSecs := by decide
  exact runs_currentUser presented found young rfl rfl

/-- The handler of a route that trusts the cookie alone is reached past the check wherever the
check is passed. -/
theorem cookieOnly_runs {token : String}
    (presented : cookieValue headers sessionCookie = some token)
    (passed : verifySameOrigin method headers = .ok ()) :
    HandlerRuns env .cookieOnly method headers ⟨1, "ada", .admin⟩ .cookie := by
  have found := (currentUser_signedIn presented).yields
  refine Fallible.yields_bind_ok.2 ⟨_, found, Fallible.yields_bind_ok.2 ⟨(), ?_, ?_⟩⟩
  · rw [passed]
    rfl
  · have entered : Program.Runs perform (act (.enter 1 "ada")).run (signedIn token) (.ok ())
        (signedIn token) := runs_act.2 ⟨{}, (), rfl, rfl⟩
    exact Fallible.yields_bind_ok.2
      ⟨_, found, Fallible.yields_bind_ok.2 ⟨(), entered.yields, rfl⟩⟩

/-- Writes on behalf of a cookie come from the same origin, except on the cookie-only routes when
the request also has a bearer token, of whatever content, in its first `Authorization` header. -/
theorem cookie_writes_are_same_origin (env : Env) (group : Group) (method : String)
    (headers : HeaderMap) :
    (∀ user, HandlerRuns env group method headers user .cookie → isSafeMethod method = false →
      CarriesSameOrigin headers) ↔
    ¬ (group = .cookieOnly ∧ isSafeMethod method = false ∧ (bearerToken headers).isSome ∧
      (cookieValue headers sessionCookie).isSome ∧ ¬ CarriesSameOrigin headers) := by
  constructor
  · rintro holds ⟨rfl, writes, bearer, cookie, foreign⟩
    obtain ⟨token, presented⟩ := Option.isSome_iff_exists.1 cookie
    have passed : verifySameOrigin method headers = .ok () :=
      verifySameOrigin_ok.2 (.inr (.inl bearer))
    exact foreign (holds _ (cookieOnly_runs presented passed) writes)
  · intro condition user runs writes
    by_contra foreign
    have unseen : headerText headers "sec-fetch-site" ≠ some "same-origin" :=
      fun same => foreign (carriesSameOrigin_of_headerText same)
    cases group with
    | bearerOrCookie =>
        obtain ⟨passed, found, isFound, entered⟩ := checked_of_route runs
        obtain ⟨_, _, last⟩ := Fallible.yields_bind_ok.1 entered
        cases last
        obtain ⟨noBearer, cookie⟩ := apiUser_cookie isFound
        have present : cookieValue headers sessionCookie ≠ none := Option.isSome_iff_ne_none.1 cookie
        simp [verifySameOrigin_ok, writes, noBearer, present, unseen] at passed
    | cookieOnly =>
        obtain ⟨passed, found, isFound, _⟩ := checked_of_route runs
        have cookie := cookie_of_currentUser isFound
        have present : cookieValue headers sessionCookie ≠ none := Option.isSome_iff_ne_none.1 cookie
        have bearer : (bearerToken headers).isSome := by
          simpa [verifySameOrigin_ok, writes, present, unseen] using passed
        exact condition ⟨rfl, writes, bearer, cookie, foreign⟩

/-- Another site's request with a session cookie and a made-up bearer token. -/
def crossSite : HeaderMap :=
  (buildHeaders [⟨"authorization", "Bearer x"⟩, ⟨"cookie", "berth_session=token"⟩,
    ⟨"sec-fetch-site", "cross-site"⟩]).getD []

theorem foreign_write_runs {token : String}
    (presented : cookieValue headers sessionCookie = some token)
    (passed : verifySameOrigin method headers = .ok ()) (writes : isSafeMethod method = false)
    (foreign : ∀ entry ∈ headers, ¬ (entry.1.text = "sec-fetch-site" ∧
      entry.2.toStr = some "same-origin")) :
    ¬ ∀ user, HandlerRuns env .cookieOnly method headers user .cookie →
      isSafeMethod method = false → CarriesSameOrigin headers := by
  intro holds
  obtain ⟨entry, member, carries⟩ := holds _ (cookieOnly_runs presented passed) writes
  exact foreign entry member carries

theorem cross_site_write_runs :
    ¬ ∀ user, HandlerRuns ⟨.plain, 30⟩ .cookieOnly "POST" crossSite user .cookie →
      isSafeMethod "POST" = false → CarriesSameOrigin crossSite := by
  have presented : cookieValue crossSite sessionCookie = some "token" := by decide +kernel
  have passed : verifySameOrigin "POST" crossSite = .ok () := by decide +kernel
  exact foreign_write_runs presented passed (by decide) (by decide +kernel)

end Berth.Auth
