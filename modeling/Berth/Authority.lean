import Berth.Access

/-!
Who may change an app, and who is shown it, in every run of the hub behind its front ends. A thread
is known by what the database has answered it: whoever acts for an app was either found to be an
administrator, or was shown the grant.
-/

namespace Berth

open Interleave Interleave.Fallible
open Auth (CurrentUser)

variable {Stats : Type} {sights : Sights Stats} {limit : Nat}

/-- The thread was answered from a database of which the fact holds. -/
def Saw (w : ServerWorld Stats) (thread : Nat) (fact : Database → Prop) : Prop :=
  ∃ moment ∈ w.history, moment.event.thread = some thread ∧ fact moment.shared.db

/-- What `check_app_permission` has made sure of, from what it was answered. -/
inductive Entitled (w : ServerWorld Stats) (thread : Nat) (user : CurrentUser) (appId : Uuid)
    (required : PermissionLevel) : Prop
  | admin (isAdmin : user.role = .admin)
  | granted {userId : Int} {level : PermissionLevel} (enough : level.satisfies required = true)
      (grant : Saw w thread fun db => ⟨appId, userId, level⟩ ∈ db.permissions)
      (named : Saw w thread fun db => ⟨userId, user.username⟩ ∈ db.users)

variable {w w' : ServerWorld Stats} {thread : Nat} {user : CurrentUser} {appId : Uuid}
variable {required : PermissionLevel}

theorem Saw.moves {fact : Database → Prop} {event : ServerEvent Stats} (saw : Saw w thread fact)
    (moves : w.Moves (server sights limit) event w') : Saw w' thread fact := by
  obtain ⟨moment, past, rest⟩ := saw
  refine ⟨moment, ?_, rest⟩
  rw [moves.history]
  exact List.mem_cons_of_mem _ past

theorem Entitled.moves {event : ServerEvent Stats} (entitled : Entitled w thread user appId required)
    (moves : w.Moves (server sights limit) event w') : Entitled w' thread user appId required := by
  cases entitled with
  | admin isAdmin => exact .admin isAdmin
  | granted enough grant named => exact .granted enough (grant.moves moves) (named.moves moves)

/-! What the lookups were answered. -/

section Lookups

variable {answers : List (Σ action : Act, action.Res)}

theorem gives_query {q : Query} {value : q.Result}
    (gives : Program.Gives (query q).run answers (.ok value)) :
    (⟨.query q, .ok value⟩ : Σ action : Act, action.Res) ∈ answers := Program.gives_perform gives

theorem gives_liftResult {α : Type} {result : AppResult α} {value : α}
    (gives : Program.Gives (liftResult result).run answers (.ok value)) : result = .ok value := by
  cases result with
  | ok given => rw [gives_pure gives]
  | error err => exact absurd gives gives_throw

theorem gives_findAppRowById {appText : String} {row : AppRow}
    (gives : Program.Gives (findAppRowById appText).run answers (.ok row)) :
    ∃ id, Uuid.parseStr appText = some id ∧
      (⟨.query (.appById id), .ok (some row)⟩ : Σ action : Act, action.Res) ∈ answers := by
  unfold findAppRowById at gives
  split at gives
  · exact absurd gives gives_throw
  · rename_i id parsed
    obtain ⟨found, earlier, later, rfl, asked, rest⟩ := gives_bind_ok gives
    cases found with
    | none => exact absurd rest gives_throw
    | some other =>
        cases gives_pure rest
        exact ⟨id, parsed, List.mem_append_left _ (gives_query asked)⟩

theorem gives_loadPermissions {row : AppRow} {permissions : List AppPermission}
    (gives : Program.Gives (loadPermissions row).run answers (.ok permissions)) :
    ∃ rows ids users,
      (⟨.query (.permissionsOf row.id), .ok rows⟩ : Σ action : Act, action.Res) ∈ answers ∧
        (⟨.query (.usersIn ids), .ok users⟩ : Σ action : Act, action.Res) ∈ answers ∧
          permissions = resolvePermissions rows users := by
  obtain ⟨rows, first, rest, rfl, granted, gives⟩ := gives_bind_ok gives
  obtain ⟨users, second, last, rfl, named, ends⟩ := gives_bind_ok gives
  refine ⟨rows, _, users, List.mem_append_left _ (gives_query granted), ?_, gives_pure ends⟩
  exact List.mem_append_right _ (List.mem_append_left _ (gives_query named))

theorem gives_appFromRowWithPermissions {row : AppRow} {app : App}
    (gives : Program.Gives (appFromRowWithPermissions row).run answers (.ok app)) :
    ∃ permissions part, part ⊆ answers ∧
      Program.Gives (loadPermissions row).run part (.ok permissions) ∧
        app = appFromRow row permissions := by
  obtain ⟨permissions, earlier, later, rfl, loaded, ends⟩ := gives_bind_ok gives
  exact ⟨permissions, earlier, List.subset_append_left _ _, loaded, gives_pure ends⟩

theorem gives_getAppById {appText : String} {app : App}
    (gives : Program.Gives (getAppById appText).run answers (.ok app)) :
    ∃ row part, part ⊆ answers ∧ (∃ id, Uuid.parseStr appText = some id ∧
        (⟨.query (.appById id), .ok (some row)⟩ : Σ action : Act, action.Res) ∈ answers) ∧
      Program.Gives (appFromRowWithPermissions row).run part (.ok app) := by
  obtain ⟨row, earlier, later, rfl, found, loads⟩ := gives_bind_ok gives
  obtain ⟨id, parsed, asked⟩ := gives_findAppRowById found
  exact ⟨row, later, List.subset_append_right _ _, ⟨id, parsed, List.mem_append_left _ asked⟩, loads⟩

end Lookups

/-! What they say about the database. -/

section Answers

variable {entry : Entry AppRequest Call} {answers : List (Σ action : Act, action.Res)}

theorem saw_query {q : Query} {value : q.Result}
    (answered : Answered (server sights limit) w thread entry answers)
    (among : (⟨.query q, .ok value⟩ : Σ action : Act, action.Res) ∈ answers) :
    Saw w thread fun db => ∃ db', db.exec q = some (value, db') := by
  obtain ⟨moment, past, choice, after, eq, performed⟩ := answered _ among
  refine ⟨moment, past, congrArg Event.thread eq, ?_⟩
  change perform thread (.query q) choice moment.shared = some (.ok value, after) at performed
  rcases perform_query performed with ⟨err, failed, _⟩ | ⟨other, db, executed, same, _⟩
  · cases failed
  · cases same
    exact ⟨db, executed⟩

theorem Saw.mono {fact weaker : Database → Prop} (saw : Saw w thread fact)
    (follows : ∀ db, fact db → weaker db) : Saw w thread weaker := by
  obtain ⟨moment, past, own, holds⟩ := saw
  exact ⟨moment, past, own, follows _ holds⟩

theorem saw_app {row : AppRow} (answered : Answered (server sights limit) w thread entry answers)
    (among : (⟨.query (.appById appId), .ok (some row)⟩ : Σ action : Act, action.Res) ∈ answers) :
    Saw w thread (fun db => db.app? appId = some row) ∧ row.id = appId := by
  have saw : Saw w thread fun db => db.app? appId = some row :=
    (saw_query answered among).mono fun db executed => by
      obtain ⟨_, eq⟩ := executed
      exact (Prod.mk.inj (Option.some.inj eq)).1
  refine ⟨saw, ?_⟩
  obtain ⟨_, _, _, found⟩ := saw
  exact Table.get?_key found

/-- Who has enough permission was shown a grant, and the user it is for. -/
theorem entitled_of_permissions {row : AppRow} {permissions : List AppPermission}
    (answered : Answered (server sights limit) w thread entry answers)
    (loaded : Program.Gives (loadPermissions row).run answers (.ok permissions))
    (enough : (appFromRow row permissions).hasPermission user.username required = true) :
    Entitled w thread user row.id required := by
  obtain ⟨rows, ids, users, granted, named, rfl⟩ := gives_loadPermissions loaded
  obtain ⟨permission, member, holds⟩ := List.any_eq_true.1 enough
  obtain ⟨grant, isRow, resolved⟩ := List.mem_filterMap.1 member
  obtain ⟨found, isUser, rfl⟩ := Option.map_eq_some_iff.1 resolved
  obtain ⟨sameName, satisfies⟩ := Bool.and_eq_true_iff.1 holds
  have ofUser : found.id = grant.userId := by simpa using List.find?_some isUser
  have name : found.username = user.username := of_decide_eq_true sameName
  have grants : Saw w thread fun db => ⟨row.id, grant.userId, grant.level⟩ ∈ db.permissions := by
    refine (saw_query answered granted).mono fun db executed => ?_
    obtain ⟨_, eq⟩ := executed
    have listed := (Prod.mk.inj (Option.some.inj eq)).1
    rw [← listed] at isRow
    obtain ⟨there, ofApp⟩ := List.mem_filter.1 isRow
    have sameApp : grant.appId = row.id := of_decide_eq_true ofApp
    exact sameApp ▸ there
  refine .granted satisfies grants ((saw_query answered named).mono fun db executed => ?_)
  obtain ⟨_, eq⟩ := executed
  have listed := (Prod.mk.inj (Option.some.inj eq)).1
  have there := List.mem_of_find?_eq_some isUser
  rw [← listed] at there
  have same : (⟨grant.userId, user.username⟩ : UserRow) = found := by rw [← ofUser, ← name]
  exact same ▸ (List.mem_filter.1 there).1

/-- Who has passed the check for an app was found to be entitled to it. -/
theorem entitled_of_check {appText : String} {app : App}
    (answered : Answered (server sights limit) w thread entry answers)
    (found : Program.Gives (getAppById appText).run answers (.ok app))
    (checked : checkAppPermission user app required = .ok ()) :
    ∃ id, Uuid.parseStr appText = some id ∧ Entitled w thread user id required := by
  obtain ⟨row, part, within, ⟨id, parsed, asked⟩, loads⟩ := gives_getAppById found
  obtain ⟨permissions, part', within', loaded, rfl⟩ := gives_appFromRowWithPermissions loads
  obtain ⟨_, sameId⟩ := saw_app answered asked
  refine ⟨id, parsed, sameId ▸ ?_⟩
  unfold checkAppPermission at checked
  split at checked
  · rename_i isAdmin
    exact .admin isAdmin
  · split at checked
    · rename_i enough
      exact entitled_of_permissions (answered.mono (List.Subset.trans within' within)) loaded enough
    · cases checked

/-! The checks of the two front ends. -/

theorem gives_passes {ε : Type} {answer : ε → Answer Stats}
    {check : Fallible Act Act.Res Call ε Unit}
    (gives : (AppRequest.passes answer check).Gives answers (.ok ())) :
    Program.Gives check.run answers (.ok ()) := by
  obtain ⟨outcome, earlier, later, rfl, checked, ends⟩ := Program.gives_bind gives
  obtain ⟨rfl, eq⟩ := Program.follows_done ends
  cases outcome with
  | error err => cases eq
  | ok value => rwa [List.append_nil]

theorem entitled_of_enforced {method : Method} {appText : String}
    (answered : Answered (server sights limit) w thread entry answers)
    (gives : Program.Gives (enforceAppAccess user method appText).run answers (.ok ())) :
    ∃ id, Uuid.parseStr appText = some id ∧ Entitled w thread user id method.requires := by
  obtain ⟨app, earlier, later, rfl, found, checks⟩ := gives_bind_ok gives
  exact entitled_of_check (answered.mono (List.subset_append_left _ _)) found
    (gives_liftResult checks)

theorem gives_toolAccess {appText : String} {app : App}
    (gives : Program.Gives (toolAccess user appText required).run answers (.ok app)) :
    ∃ part, part ⊆ answers ∧ Program.Gives (getAppById appText).run part (.ok app) ∧
      checkAppPermission user app required = .ok () := by
  obtain ⟨found, earlier, rest, rfl, lookup, gives⟩ := gives_bind_ok gives
  obtain ⟨_, middle, last, rfl, checks, ends⟩ := gives_bind_ok gives
  cases gives_pure ends
  exact ⟨earlier, List.subset_append_left _ _, lookup, gives_liftResult checks⟩

theorem entitled_of_toolAccess {appText : String} {app : App}
    (answered : Answered (server sights limit) w thread entry answers)
    (gives : Program.Gives (toolAccess user appText required).run answers (.ok app)) :
    ∃ id, Uuid.parseStr appText = some id ∧ Entitled w thread user id required := by
  obtain ⟨part, within, lookup, checked⟩ := gives_toolAccess gives
  exact entitled_of_check (answered.mono within) lookup checked

/-- A route that does not only read is not for `GET`, so it takes `Write`. -/
theorem requires_write {method : Method} {route : Route} (serves : route.serves method = true)
    (changes : route.reads sights user = none) : method.requires = .write := by
  have notRead : method ≠ .get ∧ method ≠ .head := by
    cases route with
    | listApps | getApp _ | listDeployments _ | deploymentLogs _ _ _ | deploymentStats _ _ =>
        cases changes
    | _ => cases method <;> simp_all [Route.serves, Route.method]
  simp [Method.requires, notRead]

/-- Whoever gets past the guard of a request that is about an app is entitled to change it. -/
theorem entitled_of_guard {request : AppRequest} {appText : String}
    (answered : Answered (server sights limit) w thread entry answers)
    (routed : request.routed = true) (about : request.appId = some appText)
    (passed : (request.guard sights).Gives answers (.ok ())) :
    ∃ id, Uuid.parseStr appText = some id ∧ Entitled w thread request.user id .write := by
  unfold AppRequest.guard at passed
  unfold AppRequest.routed at routed
  unfold AppRequest.appId at about
  cases isIncoming : request.incoming with
  | rest method route =>
      simp only [isIncoming] at passed routed about
      cases reads : route.reads sights request.user with
      | some handler =>
          simp only [reads] at passed
          obtain ⟨_, _, _, _, _, ends⟩ := Program.gives_bind passed
          cases Program.gives_done ends
      | none =>
          simp only [reads, AppRequest.access, about] at passed
          rw [← requires_write routed reads]
          exact entitled_of_enforced answered (gives_passes passed)
  | tool tool =>
      simp only [isIncoming] at passed about
      cases reads : tool.reads sights request.user with
      | some handler =>
          simp only [reads] at passed
          obtain ⟨_, _, _, _, _, ends⟩ := Program.gives_bind passed
          cases Program.gives_done ends
      | none =>
          simp only [reads, about] at passed
          obtain ⟨app, earlier, later, rfl, gives, _⟩ := gives_bind_ok (gives_passes passed)
          exact entitled_of_toolAccess (answered.mono (List.subset_append_left _ _)) gives

end Answers

/-! Runs. -/

section Runs

variable {state : State} {cfg next : ServerConfig Stats} {event : ServerEvent Stats}

/-- Whoever does more than look around for a request that is about an app has passed the check. -/
theorem entitled_of_loud {condition : ServerWorld Stats → ServerEvent Stats → Prop}
    (reachable : Reachable (server sights limit) condition (Config.idle state) cfg)
    {request : AppRequest} {program : Program Act Act.Res (Entry AppRequest Call)
      (Output (Answer Stats) Reply)} (member : ⟨thread, .request request, program⟩ ∈ cfg.pool)
    (loud : ¬ program.Quiet Act.Looks) (routed : request.routed = true) {appText : String}
    (about : request.appId = some appText) :
    ∃ id, Uuid.parseStr appText = some id ∧
      Entitled cfg.world thread request.user id .write := by
  obtain ⟨answers, follows, answered⟩ := follows_in_run reachable _ member
  obtain ⟨earlier, later, rest, rfl, passed, _⟩ := FrontEnd.follows_loud
    (request.guard_uses looks_looks) (request.view_uses looks_looks) loud follows
  exact entitled_of_guard (answered.mono (List.subset_append_left _ _)) routed about passed

/-- How something that is in progress has come about. -/
inductive Entered (w : ServerWorld Stats) (thread : Nat) : Entry AppRequest Call → Prop
  | request {request : AppRequest} (routed : request.routed = true) :
      Entered w thread (.request request)
  | unrequested {call : Call} (isUnrequested : call.unrequested = true) :
      Entered w thread (.inner call)
  | executor {parent : Nat} {request : AppRequest} {appText text : String} {gitSource : GitSource}
      {id : Uuid} (about : request.appId = some appText) (parsed : Uuid.parseStr appText = some id)
      (forked : w.Did (· = .fork parent (.request request) thread
        (.inner (.runGitDeployment appText text gitSource))))
      (entitled : Entitled w parent request.user id .write) :
      Entered w thread (.inner (.runGitDeployment appText text gitSource))

theorem Entered.moves {entry : Entry AppRequest Call} (entered : Entered w thread entry)
    (moves : w.Moves (server sights limit) event w') : Entered w' thread entry := by
  cases entered with
  | request routed => exact .request routed
  | unrequested isUnrequested => exact .unrequested isUnrequested
  | executor about parsed forked entitled =>
      exact .executor about parsed (moves.did forked) (entitled.moves moves)

/-- Only the start of a git deployment forks: behind the checks this is one of two requests. -/
theorem appId_of_startGitDeployment {request : AppRequest} {appText : String}
    (starts : request.call = .startGitDeployment appText) : request.appId = some appText := by
  unfold AppRequest.call at starts
  unfold AppRequest.appId
  cases isIncoming : request.incoming with
  | rest method route =>
      simp only [isIncoming] at starts
      cases route <;> cases starts
      rfl
  | tool tool =>
      simp only [isIncoming] at starts
      cases tool <;> cases starts
      rfl

theorem call_requested (request : AppRequest) : request.call.unrequested = false := by
  unfold AppRequest.call
  cases request.incoming with
  | rest method route => cases route <;> rfl
  | tool tool => cases tool <;> rfl

/-- The work without a request is done under no request. -/
theorem inner_of_unrequested {entry : Entry AppRequest Call} {call : Call}
    (isCall : (frontEnd sights).callOf entry = call) (isUnrequested : call.unrequested = true) :
    entry = .inner call := by
  cases entry with
  | inner other => exact congrArg Entry.inner isCall
  | request request =>
      change request.call = call at isCall
      rw [← isCall, call_requested] at isUnrequested
      cases isUnrequested

/-- What is in progress has come in through a front end, or was never meant to. -/
theorem entered_in_run (blank : state.Blank) (unlocked : state.lock = none)
    (reachable : Reachable (server sights limit) (fun _ _ => True) (Config.idle state) cfg) :
    ∀ entry ∈ cfg.live, Entered cfg.world entry.1 entry.2 := by
  induction reachable with
  | refl => simp
  | @step cfg cfg' command event before executed _ ih =>
      have executes := Config.exec_executes executed
      have moves := executes.moves
      rintro ⟨thread, entry⟩ live
      rcases moves.live_cases live with old | ⟨_, _, admitted⟩ | ⟨_, parent, forking, rfl, forks⟩
      · exact (ih _ old).moves moves
      · cases entry with
        | request request => exact .request (Bool.and_eq_true_iff.1 admitted).2
        | inner call => exact .unrequested (Bool.and_eq_true_iff.1 admitted).1
      · -- behind the front ends this is a fork of the hub
        obtain ⟨hub', before', simulates, distinct⟩ :=
          FrontEnd.simulated (harmless sights unlocked limit) before
        obtain ⟨hub'', _, mirrors⟩ := simulates.step (harmless sights unlocked limit)
          (before'.numbered (idle_numbered state)) distinct before' executed
        cases entry with
        | request request => exact mirrors.elim
        | inner forked =>
            obtain ⟨command', executed'⟩ := mirrors
            have fine := meets_next blank before' (Config.exec_executes executed') trivial
            obtain ⟨_, appText, row, gitSource, starts, rfl, _, _, parsed⟩ :=
              fine.permitted.forks _ _ _ _ rfl
            have entered := ih _ forks
            cases forking with
            | inner call =>
                change call = .startGitDeployment appText at starts
                subst starts
                rcases entered with _ | isUnrequested
                cases isUnrequested
            | request request =>
                have about := appId_of_startGitDeployment starts
                obtain ⟨routed⟩ := entered
                generalize isEvent : Event.fork parent (Entry.request request) thread _ = event
                  at executes moves
                cases executes with
                | @fork task forked' after member program =>
                    obtain ⟨thread', entry', rest⟩ := task
                    cases isEvent
                    cases program
                    obtain ⟨id, parsed', entitled⟩ := entitled_of_loud before member id routed about
                    exact .executor about parsed' ((moves.did_iff _).2 (.inl rfl))
                      (entitled.moves moves)
                | _ => cases isEvent

/-- The event acts for the app with the authority to do so: for a request that names the app and
has passed the check, as the executor that such a request has forked, in a pass that fails what has
been interrupted, at the startup, or in the administration of users. -/
inductive Authorised (w : ServerWorld Stats) (appId : Uuid) : ServerEvent Stats → Prop
  | request {thread : Nat} {request : AppRequest} {appText : String} {action : Act}
      {choice : Choice} {result : action.Res} (about : request.appId = some appText)
      (parsed : Uuid.parseStr appText = some appId)
      (entitled : Entitled w thread request.user appId .write) :
      Authorised w appId (.act thread (.request request) action choice result)
  | executor {thread parent : Nat} {request : AppRequest} {appText text : String}
      {gitSource : GitSource} {action : Act} {choice : Choice} {result : action.Res}
      (about : request.appId = some appText) (parsed : Uuid.parseStr appText = some appId)
      (forked : w.Did (· = .fork parent (.request request) thread
        (.inner (.runGitDeployment appText text gitSource))))
      (entitled : Entitled w parent request.user appId .write) :
      Authorised w appId
        (.act thread (.inner (.runGitDeployment appText text gitSource)) action choice result)
  | interrupts {thread : Nat} {id : Uuid} {row : DeploymentRow} {choice : Choice}
      (found : w.shared.db.deployment? id = some row) (ofApp : row.appId = appId) :
      Authorised w appId (.act thread (.inner .onAgentConnected)
        (.query (.updateStatus id .failed (some interrupted))) choice (.ok ()))
  | starts {thread : Nat} {action : Act} {choice : Choice} {result : action.Res} :
      Authorised w appId (.act thread (.inner .startup) action choice result)
  | administers {thread : Nat} {users : List UserRow} {hosts : List HostRow} {action : Act}
      {choice : Choice} {result : action.Res} :
      Authorised w appId (.act thread (.inner (.administer users hosts)) action choice result)

/-- The call behind a request names no other app than the request. -/
theorem appId_of_names {request : AppRequest} (names : request.call.territory.app appId) :
    ∃ appText, request.appId = some appText ∧ Uuid.parseStr appText = some appId := by
  have noText : Uuid.parseStr "" = none := by decide
  unfold AppRequest.call at names
  unfold AppRequest.appId
  cases isIncoming : request.incoming with
  | rest method route =>
      simp only [isIncoming] at names
      cases route with
      | listApps | getApp _ | listDeployments _ | deploymentLogs _ _ _ | deploymentStats _ _ =>
          exact absurd (noText.symm.trans names) (by simp)
      | createApp _ _ _ _ => exact names.elim
      | _ => exact ⟨_, rfl, names⟩
  | tool tool =>
      simp only [isIncoming] at names
      cases tool with
      | listApps | getApp _ | listDeployments _ | getDeploymentLogs _ _ | getDeploymentStats _ _ =>
          exact absurd (noText.symm.trans names) (by simp)
      | createApp _ _ _ _ => exact names.elim
      | _ => exact ⟨_, rfl, names⟩

/-- Whoever acts in the territory of an app has the authority for it. -/
theorem authorised_of_names {condition : ServerWorld Stats → ServerEvent Stats → Prop}
    (reachable : Reachable (server sights limit) condition (Config.idle state) cfg)
    {entry : Entry AppRequest Call} {action : Act} {choice : Choice} {result : action.Res}
    (executes : cfg.Executes (server sights limit) (.act thread entry action choice result) next)
    (entered : Entered cfg.world thread entry) (loud : ¬ action.Looks)
    (names : ((frontEnd sights).callOf entry).territory.app appId) :
    Authorised cfg.world appId (.act thread entry action choice result) := by
  generalize isEvent : Event.act thread entry action choice result = event at executes
  cases executes with
  | @act task action' after choice' result' shared member program performed =>
      obtain ⟨thread', entry', rest⟩ := task
      cases isEvent
      cases program
      cases entered with
      | @request request routed =>
          obtain ⟨appText, about, parsed⟩ := appId_of_names names
          obtain ⟨id, parsed', entitled⟩ := entitled_of_loud reachable member loud routed about
          cases parsed.symm.trans parsed'
          exact .request about parsed entitled
      | @unrequested call isUnrequested =>
          cases call with
          | startup | onAgentConnected | agentConnects _ | agentDisconnects _ | agentWorks _
          | administer _ _ => exact names.elim
          | _ => cases isUnrequested
      | executor about parsed forked entitled =>
          cases parsed.symm.trans names
          exact .executor about parsed forked entitled
  | _ => cases isEvent

/-- The hub with this state, whatever is in progress. -/
def State.world (state : State) : HubWorld := (Config.idle state).world

end Runs

end Berth
