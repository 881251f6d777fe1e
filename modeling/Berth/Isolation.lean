import Berth.Territory

/-!
An app at times when nobody acts for it: its row, its grants, its deployments and its directory stay
what they are, whatever the hub does for other apps.
-/

namespace Berth

open Interleave

variable {limit thread : Nat} {call : Call} {w w' w'' : HubWorld} {event : HubEvent} {appId : Uuid}

/-! Files. -/

/-- What an action may add to, move or remove. -/
def Act.targets : Act → List Path
  | .createDir path | .createDirAll path | .removeDirAll path | .removeFile path
  | .createFile path | .cloneShallow _ path | .unpackZip _ path | .zipDir _ path => [path]
  | .rename source target => [source, target]
  | _ => []

section Files

variable {root path : Path} {choice : Choice} {state state' : State}

theorem populate_elsewhere {target : Path} (apart : FileTree.Apart root target)
    (below : root <+: path) :
    (state.populate target choice).files.Has path ↔ state.files.Has path := by
  refine FileTree.has_add_elsewhere (fun whole member => ?_) below
  obtain ⟨entry, _, rfl⟩ := List.mem_map.1 member
  exact apart.append entry

/-- A step leaves alone what lies apart from its targets. -/
theorem perform_elsewhere {action : Act} {result : action.Res}
    (performed : perform thread action choice state = some (result, state'))
    (apart : ∀ target ∈ action.targets, FileTree.Apart root target) (below : root <+: path) :
    state'.files.Has path ↔ state.files.Has path := by
  by_cases onFiles : action.OnFiles
  swap
  · rw [perform_filesSame onFiles performed]
  cases action with
  | createDir target =>
      have ran := Option.some.inj performed
      have elsewhere := (apart target List.mem_cons_self).1
      unfold State.createDir at ran
      split at ran
      · cases ran
        rfl
      split at ran
      · cases ran
        rfl
      split at ran <;> cases ran
      · rfl
      · exact FileTree.has_add_elsewhere (by simpa using elsewhere) below
  | createDirAll target =>
      have ran := Option.some.inj performed
      have elsewhere := (apart target List.mem_cons_self).1
      unfold State.createDirAll at ran
      split at ran <;> cases ran
      · rfl
      · refine FileTree.has_add_elsewhere (fun whole member lies => elsewhere ?_) below
        exact lies.trans ((List.mem_inits _ _).1 (List.mem_filter.1 member).1)
  | rename source target =>
      have ran := Option.some.inj performed
      unfold State.rename at ran
      split at ran
      · cases ran
        rfl
      split at ran
      · cases ran
        rfl
      split at ran
      · cases ran
        rfl
      split at ran <;> cases ran
      · rfl
      · exact FileTree.has_move_elsewhere (apart source (by simp [Act.targets]))
          (apart target (by simp [Act.targets])) below
  | removeDirAll target =>
      have ran := Option.some.inj performed
      have elsewhere := apart target List.mem_cons_self
      unfold State.removeDirAll at ran
      split at ran
      · cases ran
        rfl
      · split at ran <;> cases ran <;> exact FileTree.has_removeBelow_elsewhere elsewhere below
  | removeFile target =>
      have ran := Option.some.inj performed
      have elsewhere := apart target List.mem_cons_self
      unfold State.removeFile at ran
      split at ran
      · cases ran
        rfl
      · split at ran <;> cases ran
        · rfl
        · exact FileTree.has_removeBelow_elsewhere elsewhere below
  | createFile target =>
      have ran := Option.some.inj performed
      have elsewhere := (apart target List.mem_cons_self).1
      unfold State.createFile at ran
      split at ran
      · cases ran
        rfl
      · split at ran <;> cases ran
        · rfl
        · exact FileTree.has_add_elsewhere (by simpa using elsewhere) below
  | unpackZip zip target =>
      have ran := Option.some.inj performed
      have elsewhere := apart target List.mem_cons_self
      unfold State.unpackZip at ran
      split at ran
      · cases ran
        rfl
      · split at ran <;> cases ran <;> exact populate_elsewhere elsewhere below
  | zipDir source zip =>
      have ran := Option.some.inj performed
      have elsewhere := (apart zip List.mem_cons_self).1
      have added : (state.files.add [zip]).Has path ↔ state.files.Has path :=
        FileTree.has_add_elsewhere (by simpa using elsewhere) below
      unfold State.zipDir at ran
      split at ran
      · cases ran
        rfl
      · split at ran
        · cases ran
          exact added
        · split at ran <;> cases ran <;> exact added
  | cloneShallow source target =>
      have ran := Option.some.inj performed
      have elsewhere := apart target List.mem_cons_self
      unfold State.cloneShallow at ran
      split at ran <;> cases ran
      · exact populate_elsewhere elsewhere below
      · refine FileTree.has_add_elsewhere (fun whole member => ?_) below
        rcases List.mem_cons.1 member with rfl | content
        · exact elsewhere.1
        · obtain ⟨entry, _, rfl⟩ := List.mem_map.1 content
          exact elsewhere.append entry
  | readDir _ | pathExists _ | dirSizeBytes _ =>
      cases Option.some.inj performed
      rfl
  | writeFile _ =>
      simp only [perform] at performed
      split at performed <;> cases performed <;> rfl
  | _ => exact onFiles.elim

/-- A move to a path that exists fails. -/
theorem rename_taken {source target : Path} {outcome : AppResult Unit}
    (ran : state.rename source target choice = (outcome, state')) (taken : state.files.Has target) :
    state'.files = state.files := by
  unfold State.rename at ran
  split at ran
  · cases ran
    rfl
  split at ran
  · cases ran
    rfl
  cases ran
  rfl

end Files

theorem apart_tmpDir (id : Uuid) (rest : Path) :
    FileTree.Apart (appDir id.toString) (tmpDir ++ rest) := by
  constructor <;> rintro ⟨_, eq⟩ <;> simp [appDir, appsDir, tmpDir] at eq

theorem apart_appDir {id other : Uuid} (different : id ≠ other) (rest : Path) :
    FileTree.Apart (appDir id.toString) (appDir other.toString ++ rest) := by
  constructor <;> rintro ⟨_, eq⟩ <;> simp [appDir, appsDir] at eq
  · exact different (Uuid.toString_injective eq.1)
  · exact different (Uuid.toString_injective eq.1.symm)

namespace Territory

variable {within : Territory} {path : Path}

/-- What a call owns lies apart from the directory of every app that it does not name. -/
theorem Owns.apart (owned : within.Owns path) (foreign : ¬ within.app appId) :
    FileTree.Apart (appDir appId.toString) path := by
  cases owned with
  | staged _ => exact apart_tmpDir ..
  | @app id mine =>
      have different : appId ≠ id := by
        rintro rfl
        exact foreign mine
      simpa using apart_appDir different []
  | @deployment other id text mine _ rest _ =>
      have different : appId ≠ other := by
        rintro rfl
        exact foreign mine
      simpa [deploymentDir, deploymentsDir] using
        apart_appDir different (.text "deployments" :: .text text :: rest)

end Territory

/-- The files of an app that a call does not name. -/
theorem files_elsewhere {action : Act} {choice : Choice} {result : action.Res} {state state' : State}
    {within : Territory} {path : Path}
    (performed : perform thread action choice state = some (result, state'))
    (actsWithin : action.Within within) (foreign : ¬ within.app appId)
    (placed : state.files.Has (appDir appId.toString)) (below : appDir appId.toString <+: path) :
    state'.files.Has path ↔ state.files.Has path := by
  by_cases moves : ∃ source target, action = .rename source target
  · obtain ⟨source, target, rfl⟩ := moves
    obtain ⟨owned, places⟩ := actsWithin
    rcases places with owned' | ⟨id, _, rfl⟩
    · refine perform_elsewhere performed (fun other member => ?_) below
      rcases List.mem_cons.1 member with rfl | last
      · exact owned.apart foreign
      · cases List.mem_singleton.1 last
        exact owned'.apart foreign
    · by_cases same : appId = id
      · subst same
        rw [rename_taken (Option.some.inj performed) placed]
      · refine perform_elsewhere performed (fun other member => ?_) below
        rcases List.mem_cons.1 member with rfl | last
        · exact owned.apart foreign
        · cases List.mem_singleton.1 last
          simpa using apart_appDir same []
  · refine perform_elsewhere performed (fun target member => ?_) below
    cases action with
    | createDir | createDirAll | removeDirAll | removeFile | createFile | cloneShallow =>
        cases List.mem_singleton.1 member
        exact Territory.Owns.apart actsWithin foreign
    | unpackZip | zipDir =>
        cases List.mem_singleton.1 member
        exact actsWithin.2.apart foreign
    | rename source target => exact absurd ⟨source, target, rfl⟩ moves
    | _ => cases member

/-! Grants. -/

def grantsOf (w : HubWorld) (appId : Uuid) : List PermissionRow :=
  w.shared.db.permissions.filter fun grant => grant.appId = appId

theorem filter_other_app {appId other : Uuid} (different : other ≠ appId)
    (grants : List PermissionRow) :
    (grants.filter fun grant => grant.appId ≠ other).filter (fun grant => grant.appId = appId) =
      grants.filter fun grant => grant.appId = appId := by
  rw [List.filter_filter]
  refine List.filter_congr fun grant _ => ?_
  by_cases same : grant.appId = appId
  · simp [same, different.symm]
  · simp [same]

/-- What a query does to the grants of an app that it is not about. -/
theorem exec_grants_elsewhere {db db' : Database} {q : Query} {value : q.Result}
    {within : Territory} (executed : db.exec q = some (value, db')) (queriesWithin : q.Within within)
    (foreign : ¬ within.app appId) (taken : db.app? appId ≠ none) :
    db'.permissions.filter (fun grant => grant.appId = appId) =
      db.permissions.filter fun grant => grant.appId = appId := by
  cases q with
  | insertApp row creator =>
      obtain ⟨fresh, _⟩ := Database.exec_insertApp executed
      have different : row.id ≠ appId := fun same => taken (same ▸ fresh)
      simp only [Database.exec] at executed
      split at executed
      · cases executed
      · obtain ⟨apps, _, eq⟩ := Option.map_eq_some_iff.1 executed
        cases eq
        have others : ((creator.toList.map fun userId =>
            (⟨row.id, userId, .write⟩ : PermissionRow)).filter fun grant => grant.appId = appId) = [] := by
          simp [different]
        rw [List.filter_append, others, List.append_nil]
  | deleteApp id =>
      have different : id ≠ appId := fun same => foreign (same ▸ queriesWithin)
      cases executed
      exact filter_other_app different _
  | replacePermissions id granted =>
      have different : id ≠ appId := fun same => foreign (same ▸ queriesWithin)
      cases executed
      have others : ((granted.map fun grant => (⟨id, grant.1, grant.2⟩ : PermissionRow)).filter
          fun grant => grant.appId = appId) = [] := by
        refine List.filter_eq_nil_iff.2 fun grant member => ?_
        obtain ⟨entry, _, rfl⟩ := List.mem_map.1 member
        simpa using different
      rw [List.filter_append, others, List.append_nil]
      exact filter_other_app different _
  | updateApp id name envVars hostId =>
      simp only [Database.exec] at executed
      split at executed <;> cases executed
      rfl
  | insertDeployment row =>
      obtain ⟨deployments, _, eq⟩ := Option.map_eq_some_iff.1 executed
      cases eq
      rfl
  | setActiveDeployment _ _ | updateGitInfo _ _ _ _ | updateStatus _ _ _ | deleteDeployment _ =>
      cases executed
      rfl
  | appById _ | appByName _ | allApps | permissionsOf _ | usersIn _ | userByName _ | hostById _
  | deploymentById _ _ | deploymentsOf _ | allDeployments =>
      cases Database.exec_read rfl executed
      rfl

/-- Besides queries nothing changes the grants. -/
theorem perform_grants {action : Act} {choice : Choice} {result : action.Res}
    {state state' : State} (notQuery : ∀ q, action ≠ .query q)
    (performed : perform thread action choice state = some (result, state')) :
    state'.db.permissions = state.db.permissions := by
  by_cases core : action.IsCore
  · cases action with
    | query q => exact absurd rfl (notQuery q)
    | lock | nowV7 =>
        simp only [perform] at performed
        split at performed <;> cases performed
        rfl
    | unlock | uniqueTmpPath _ _ | administer _ _ | serve =>
        cases Option.some.inj performed
        rfl
    | _ => exact core.elim
  · rw [(perform_sameCore core performed).db]

/-! Everything that the hub keeps of an app. -/

/-- The app's row, its grants, the rows of its deployments and what is below its directory are the
same in both worlds. -/
structure Unchanged (appId : Uuid) (w w' : HubWorld) : Prop where
  row : app? w' appId = app? w appId
  grants : grantsOf w' appId = grantsOf w appId
  deployments : ∀ id row, row.appId = appId →
    (deployment? w' id = some row ↔ deployment? w id = some row)
  files : ∀ path, appDir appId.toString <+: path → (Has w' path ↔ Has w path)

theorem Unchanged.of_same (db : w'.shared.db = w.shared.db)
    (files : w'.shared.files = w.shared.files) : Unchanged appId w w' := by
  refine ⟨?_, ?_, fun id row _ => ?_, fun path _ => ?_⟩
  · rw [app?, db, app?]
  · rw [grantsOf, db, grantsOf]
  · rw [deployment?, db, deployment?]
  · rw [Has, files, Has]

theorem Unchanged.trans (first : Unchanged appId w w') (later : Unchanged appId w' w'') :
    Unchanged appId w w'' where
  row := later.row.trans first.row
  grants := later.grants.trans first.grants
  deployments id row ofApp := (later.deployments id row ofApp).trans (first.deployments id row ofApp)
  files path below := (later.files path below).trans (first.files path below)

/-- Somebody acts for the app: a call that names it, a pass that fails one of its deployments, the
startup, or the administration of users, who take their grants along when they go. -/
inductive ActsFor (appId : Uuid) (w : HubWorld) : HubEvent → Prop
  | named {thread : Nat} {call : Call} {action : Act} {choice : Choice} {result : action.Res}
      (names : call.territory.app appId) : ActsFor appId w (.act thread call action choice result)
  | fails {thread : Nat} {id : Uuid} {row : DeploymentRow} {status : DeploymentState}
      {failureError : Option String} {choice : Choice} {result : AppResult Unit}
      (found : deployment? w id = some row) (ofApp : row.appId = appId) :
      ActsFor appId w (.act thread .onAgentConnected
        (.query (.updateStatus id status failureError)) choice result)
  | starts {thread : Nat} {action : Act} {choice : Choice} {result : action.Res} :
      ActsFor appId w (.act thread .startup action choice result)
  | administers {thread : Nat} {users : List UserRow} {hosts : List HostRow} {action : Act}
      {choice : Choice} {result : action.Res} :
      ActsFor appId w (.act thread (.administer users hosts) action choice result)

/-- Whoever executes a deployment, or deletes it, was called with the app it belongs to. -/
theorem executes_named (ledger : Ledger w) {id : Uuid} {row : DeploymentRow}
    (live : (thread, call) ∈ w.live) (executes : call.territory.executes id)
    (found : deployment? w id = some row) : call.territory.app row.appId := by
  cases call with
  | runGitDeployment appText text gitSource =>
      obtain ⟨forker, first, _, inserted, _, rfl, parsed⟩ := ledger.crew.executor _ _ _ _ live
      have sameId : first.id = id :=
        Option.some.inj ((Uuid.parseStr_toString first.id).symm.trans executes)
      obtain ⟨maker, origin, inserted', sameId', sameApp, _⟩ := ledger.rows.origin id row found
      have same := ledger.rows.once _ _ _ _ inserted inserted' (sameId.trans sameId'.symm)
      rw [← sameApp, ← same]
      exact parsed
  | _ => exact False.elim executes

theorem deletes_named (permitted : Permitted w event) {id : Uuid} {row : DeploymentRow}
    {choice : Choice} {value : Unit}
    (eq : event = .act thread call (.query (.deleteDeployment id)) choice (.ok value))
    (found : deployment? w id = some row) : call.territory.app row.appId := by
  obtain ⟨_, appText, text, app, old, isDelete, parsed, _, _, _, there, ofApp⟩ :=
    permitted.writes _ _ _ _ _ eq
  cases found.symm.trans there
  rw [ofApp]
  rcases isDelete with rfl | rfl <;> exact parsed

section Step

variable {action : Act} {choice : Choice} {result : action.Res}

/-- The rows of deployments after a write to a deployment of another app. -/
theorem deployments_elsewhere (id : Uuid) (change : DeploymentRow → Option DeploymentRow)
    (after : ∀ other, deployment? w' other =
      if other = id then (deployment? w other).bind change else deployment? w other)
    (kept : ∀ old new, change old = some new → new.appId = old.appId)
    (foreign : ∀ row, deployment? w id = some row → row.appId ≠ appId) {other : Uuid}
    {row : DeploymentRow} (ofApp : row.appId = appId) :
    deployment? w' other = some row ↔ deployment? w other = some row := by
  rw [after other]
  by_cases same : other = id
  · subst same
    rw [if_pos rfl]
    constructor
    · intro changed
      obtain ⟨old, found, new⟩ := Option.bind_eq_some_iff.1 changed
      exact absurd ((kept old row new).symm.trans ofApp) (foreign old found)
    · exact fun found => absurd ofApp (foreign row found)
  · rw [if_neg same]

theorem Unchanged.act (meets : Meets (fun w event => ¬ ActsFor appId w event) w
      (.act thread call action choice result))
    (moves : w.Moves (hub limit) (.act thread call action choice result) w')
    (actsWithin : action.Within call.territory) {app : AppRow} (found : app? w appId = some app) :
    Unchanged appId w w' := by
  have foreign : ¬ call.territory.app appId := fun names => meets.condition (.named names)
  have performed := act_performed moves
  have live := acting_live moves
  have taken : app? w appId ≠ none := by simp [found]
  have files : ∀ path, appDir appId.toString <+: path → (Has w' path ↔ Has w path) := fun path =>
    files_elsewhere performed actsWithin foreign (meets.ledger.disk.appDirs appId app found)
  have grants : grantsOf w' appId = grantsOf w appId := by
    by_cases isQuery : ∃ q, action = .query q
    · obtain ⟨q, rfl⟩ := isQuery
      rcases perform_query performed with ⟨_, _, same⟩ | ⟨value, db, executed, _, same⟩
      · rw [grantsOf, grantsOf, same]
      · rw [grantsOf, grantsOf, same]
        exact exec_grants_elsewhere executed actsWithin foreign taken
    · have notQuery : ∀ q, action ≠ .query q := fun q eq => isQuery ⟨q, eq⟩
      rw [grantsOf, grantsOf, perform_grants notQuery performed]
  have executed {id : Uuid} (executes : call.territory.executes id) (row : DeploymentRow)
      (there : deployment? w id = some row) : row.appId ≠ appId := fun ofApp =>
    foreign (ofApp ▸ executes_named meets.ledger live executes there)
  suffices rows : app? w' appId = app? w appId ∧ ∀ id row, row.appId = appId →
      (deployment? w' id = some row ↔ deployment? w id = some row) from
    ⟨rows.1, grants, rows.2, files⟩
  cases rowsChange moves with
  | same apps deployments => exact ⟨apps appId, fun id row _ => by rw [deployments id]⟩
  | @insertApp _ _ row _ _ fresh apps deployments =>
      have different : appId ≠ row.id := fun same => taken (same ▸ fresh)
      exact ⟨by rw [apps appId, if_neg different], fun id row _ => by rw [deployments id]⟩
  | @updateApp _ _ id _ _ _ _ apps deployments | @setActive _ _ id _ _ apps deployments =>
      have different : appId ≠ id := fun same => foreign (same ▸ actsWithin)
      exact ⟨by rw [apps appId, if_neg different], fun id row _ => by rw [deployments id]⟩
  | @deleteApp _ _ id _ apps deployments =>
      have different : appId ≠ id := fun same => foreign (same ▸ actsWithin)
      refine ⟨by rw [apps appId, if_neg different], fun other row ofApp => ?_⟩
      rw [deployments other, Option.filter_eq_some_iff]
      have kept : row.appId ≠ id := ofApp ▸ different
      simp [kept]
  | @insertDeployment _ _ inserted _ fresh apps deployments =>
      have different : inserted.appId ≠ appId := fun same => foreign (same ▸ actsWithin)
      refine ⟨apps appId, fun id row ofApp => ?_⟩
      rw [deployments id]
      by_cases same : id = inserted.id
      · rw [if_pos same, same, fresh]
        refine iff_of_false (fun eq => ?_) (by simp)
        cases eq
        exact different ofApp
      · rw [if_neg same]
  | @updateGitInfo _ _ id gitInfo buildInfo size _ apps deployments =>
      refine ⟨apps appId, fun other row ofApp => ?_⟩
      refine deployments_elsewhere id (some ∘ fun row => row.record gitInfo buildInfo size) ?_ ?_
        (executed actsWithin) ofApp
      · simpa only [Option.map_eq_bind] using deployments
      · rintro old new ⟨⟩
        rfl
  | @updateStatus _ _ id status failureError _ apps deployments =>
      refine ⟨apps appId, fun other row ofApp => ?_⟩
      have foreignRow : ∀ row, deployment? w id = some row → row.appId ≠ appId := by
        intro row there sameApp
        rcases actsWithin with executes | fails
        · exact executed executes row there sameApp
        · cases call with
          | onAgentConnected => exact meets.condition (.fails there sameApp)
          | _ => exact fails
      refine deployments_elsewhere id (some ∘ fun row => row.become status failureError) ?_ ?_
        foreignRow ofApp
      · simpa only [Option.map_eq_bind] using deployments
      · rintro old new ⟨⟩
        rfl
  | @deleteDeployment _ _ id _ apps deployments =>
      refine ⟨apps appId, fun other row ofApp => ?_⟩
      refine deployments_elsewhere id (fun _ => none) ?_ ?_ ?_ ofApp
      · simpa using deployments
      · rintro old new ⟨⟩
      · intro row there sameApp
        have named := deletes_named meets.permitted rfl there
        rw [sameApp] at named
        exact foreign named

end Step

/-- No event changes an app for which it does not act. -/
theorem Unchanged.step {state : State} (blank : state.Blank) {cfg next : HubConfig}
    (reachable : Reachable (hub limit) (fun _ _ => True) (Config.idle state) cfg)
    {command : Command Call Choice} (executed : cfg.exec (hub limit) command = some (event, next))
    (idle : ¬ ActsFor appId cfg.world event) {app : AppRow} (found : app? cfg.world appId = some app) :
    Unchanged appId cfg.world next.world := by
  have executes := Config.exec_executes executed
  have moves := executes.moves
  have fine := meets_next blank reachable executes trivial
  cases event with
  | act thread call action choice result =>
      have started : call ≠ .startup := by
        rintro rfl
        exact idle .starts
      exact Unchanged.act ⟨idle, fine.numbered, fine.ledger, fine.permitted⟩ moves
        (within_in_run blank reachable executes started) found
  | start _ _ | fork _ _ _ _ | finish _ _ _ | drop _ _ | restart =>
      generalize cfg.world = w, next.world = w' at moves
      cases moves
      exact .of_same rfl rfl

/-- Checks that the event is not an action for the app: one of a creation, or of an upload to another
app. -/
def elsewhere (appId : Uuid) : HubEvent → Bool
  | .act _ (.createApp ..) _ _ _ => true
  | .act _ (.uploadDeployment appText _) _ _ _ => Uuid.parseStr appText ≠ some appId
  | .act _ _ _ _ _ => false
  | _ => true

theorem elsewhere_sound (checked : elsewhere appId event = true) : ¬ ActsFor appId w event := by
  rintro (@⟨_, call, _, _, _, names⟩ | _ | _ | _)
  · cases call with
    | createApp => exact names
    | uploadDeployment appText fields => exact of_decide_eq_true checked names
    | _ => cases checked
  all_goals cases checked

/-- Another app is created, and gets its first deployment. -/
def nextDoor : List (Command Call Choice) :=
  let app := Uuid.repeated 5
  .start (.createApp "next" .upload [] none 1) :: steps 4 13 { id := app } ++
  .start (.uploadDeployment app.toString [⟨some "file", none, [.ok 10]⟩]) ::
    steps 5 20 { id := Uuid.repeated 6, entries := [[.text "index.html"]] }

end Berth
