import Berth.Interleave.Observer
import Berth.OneAtATime

/-!
What visitors of an app are sent to, while the app is redeployed under them. Finding the active
deployment takes several lookups, with anything the hub does in between.
-/

namespace Berth

open Interleave Interleave.Fallible

/-! The lookups. -/

inductive ServeTarget where
  | notFound
  | static (filesDir : Path)
  | run (containerName : String) (runConfig : RunConfig) (hostId : Int)

def findAppRow (name : String) : AsyncResult AppRow := do
  match ← query (.appByName name) with
  | some row => pure row
  | none => throw (.appNotFound name)

def getApp (name : String) : AsyncResult App := do
  let row ← findAppRow name
  appFromRowWithPermissions row

/-- Nothing else than directories is ever at the place of the files. -/
def resolveServeTarget (appName : String) : AsyncResult ServeTarget := do
  match ← Fallible.attempt (getApp appName) with
  | .error _ => pure .notFound
  | .ok app =>
      match ← activeDeploymentId app.id with
      | none => pure .notFound
      | some deploymentId =>
          match ← Fallible.attempt (getDeployment app.id deploymentId) with
          | .error _ => pure .notFound
          | .ok deployment =>
              match deployment.containerName with
              | some containerName =>
                  match app.runConfig with
                  | none => pure .notFound
                  | some runConfig => pure (.run containerName runConfig app.hostId)
              | none =>
                  let activeFilesDir := deploymentFilesDir app.id deploymentId
                  if ← pathExists activeFilesDir then pure (.static activeFilesDir)
                  else pure .notFound

variable {limit thread : Nat} {w w' : HubWorld} {event : HubEvent} {state : State}
variable {cfg last : HubConfig} {name : String} {appId : Uuid} {source : AppSource}

/-! No two apps have the same name. -/

def Database.NamesUnique (db : Database) : Prop :=
  ∀ id id' row row', db.app? id = some row → db.app? id' = some row' → row.name = row'.name →
    id = id'

theorem not_nameTaken {db : Database} {except : Option Uuid} {id : Uuid} {row : AppRow}
    (free : db.nameTaken name except = false) (found : db.app? id = some row)
    (same : row.name = name) : some id = except := by
  by_contra different
  have member : row ∈ db.apps.rows := (Table.get?_eq_some.1 found).1
  have taken : db.nameTaken name except = true := by
    refine List.any_eq_true.2 ⟨row, member, ?_⟩
    rw [Database.app?_id found]
    simp [same, different]
  rw [free] at taken
  cases taken

theorem exec_namesUnique {db db' : Database} {q : Query} {value : q.Result}
    (executed : db.exec q = some (value, db')) (unique : db.NamesUnique) : db'.NamesUnique := by
  have kept (rows : ∀ id row, db'.app? id = some row → ∃ old, db.app? id = some old ∧
      old.name = row.name) : db'.NamesUnique := by
    intro id id' row row' found found' same
    obtain ⟨old, before, name⟩ := rows id row found
    obtain ⟨old', before', name'⟩ := rows id' row' found'
    exact unique id id' old old' before before' (by rw [name, name', same])
  have same (apps : db'.apps = db.apps) : db'.NamesUnique :=
    kept fun id row found => ⟨row, by rw [Database.app?, ← apps]; exact found, rfl⟩
  cases q with
  | insertApp row creator =>
      have free : db.nameTaken row.name none = false := by
        simp only [Database.exec] at executed
        split at executed
        · cases executed
        · rename_i free
          exact Bool.eq_false_of_not_eq_true free
      obtain ⟨_, lookup, _⟩ := Database.exec_insertApp executed
      have other {id : Uuid} {old : AppRow} (found : db.app? id = some old) : old.name ≠ row.name :=
        fun same => by cases not_nameTaken free found same
      intro id id' one two found found' same
      rw [lookup] at found found'
      split at found <;> split at found'
      · rename_i here there
        exact here.trans there.symm
      · cases found
        exact absurd same.symm (other found')
      · cases found'
        exact absurd same (other found)
      · exact unique id id' one two found found' same
  | updateApp id given envVars hostId =>
      have free : ∀ wanted, given = some wanted → db.nameTaken wanted (some id) = false := by
        rintro wanted rfl
        simp only [Database.exec] at executed
        split at executed
        · cases executed
        · rename_i free
          exact Bool.eq_false_of_not_eq_true free
      obtain ⟨lookup, _⟩ := Database.exec_updateApp executed
      cases given with
      | none =>
          refine kept fun other row found => ?_
          rw [lookup] at found
          split at found
          · obtain ⟨old, before, rfl⟩ := Option.map_eq_some_iff.1 found
            exact ⟨old, before, rfl⟩
          · exact ⟨row, found, rfl⟩
      | some wanted =>
          have other {id' : Uuid} {old : AppRow} (found : db.app? id' = some old)
              (same : old.name = wanted) : id' = id :=
            Option.some.inj (not_nameTaken (free wanted rfl) found same)
          intro one two row row' found found' same
          rw [lookup] at found found'
          split at found <;> split at found'
          · rename_i here there
            exact here.trans there.symm
          · rename_i here _
            obtain ⟨old, _, rfl⟩ := Option.map_eq_some_iff.1 found
            exact here.trans (other found' same.symm).symm
          · rename_i _ here
            obtain ⟨old, _, rfl⟩ := Option.map_eq_some_iff.1 found'
            exact (other found same).trans here.symm
          · exact unique one two row row' found found' same
  | setActiveDeployment changed deploymentId =>
      obtain ⟨lookup, _⟩ := Database.exec_setActiveDeployment executed
      refine kept fun other row found => ?_
      rw [lookup] at found
      split at found
      · obtain ⟨old, before, rfl⟩ := Option.map_eq_some_iff.1 found
        exact ⟨old, before, rfl⟩
      · exact ⟨row, found, rfl⟩
  | deleteApp gone =>
      obtain ⟨lookup, _⟩ := Database.exec_deleteApp executed
      refine kept fun other row found => ?_
      rw [lookup] at found
      split at found
      · cases found
      · exact ⟨row, found, rfl⟩
  | replacePermissions _ _ => exact same (Database.exec_replacePermissions executed).1
  | insertDeployment _ => exact same (Database.exec_insertDeployment executed).2.2
  | updateGitInfo _ _ _ _ => exact same (Database.exec_updateGitInfo executed).2
  | updateStatus _ _ _ => exact same (Database.exec_updateStatus executed).2
  | deleteDeployment _ => exact same (Database.exec_deleteDeployment executed).2
  | appById _ | appByName _ | allApps | permissionsOf _ | usersIn _ | userByName _ | hostById _
  | deploymentById _ _ | deploymentsOf _ | allDeployments =>
      cases Database.exec_read rfl executed
      exact unique

theorem namesUnique_moves (moves : w.Moves (hub limit) event w')
    (unique : w.shared.db.NamesUnique) : w'.shared.db.NamesUnique := by
  cases moves with
  | start _ | fork _ | finish _ | drop _ | restart => exact unique
  | @act thread call action choice result shared member performed =>
      by_cases isQuery : ∃ q, action = .query q
      · obtain ⟨q, rfl⟩ := isQuery
        change perform thread (.query q) choice w.shared = some (result, shared) at performed
        rcases perform_query performed with ⟨err, _, rfl⟩ | ⟨value, db, executed, rfl, rfl⟩
        · exact unique
        · exact exec_namesUnique executed unique
      · obtain ⟨apps, _⟩ := perform_rows (fun q eq => isQuery ⟨q, eq⟩) performed
        intro id id' row row' found found'
        simp only [Database.app?, apps] at found found'
        exact unique id id' row row' found found'

/-- No run of the hub ever gives two apps the same name. -/
theorem namesUnique_in_run (blank : state.Blank) {condition : HubWorld → HubEvent → Prop}
    (reachable : Reachable (hub limit) condition (Config.idle state) cfg) :
    cfg.world.shared.db.NamesUnique :=
  invariant_of_meets (fun w => w.shared.db.NamesUnique) blank
    (fun _ _ _ _ found => absurd found blank.no_app)
    (fun _ _ _ _ moves unique => namesUnique_moves moves unique) reachable

theorem Database.NamesUnique.find {db : Database} (unique : db.NamesUnique) {row : AppRow}
    (found : db.app? appId = some row) :
    (db.apps.rows.find? fun other => other.name = row.name) = some row := by
  have member : row ∈ db.apps.rows := (Table.get?_eq_some.1 found).1
  cases search : db.apps.rows.find? fun other => other.name = row.name with
  | none => simpa using List.find?_eq_none.1 search row member
  | some other =>
      have there : db.app? other.id = some other :=
        Table.get?_eq_some.2 ⟨List.mem_of_find?_eq_some search, rfl⟩
      have checked := List.find?_some search
      have same : other.name = row.name := of_decide_eq_true checked
      rw [unique other.id appId other row there found same, found] at there
      exact there.symm

/-- A deployment only has a container if its app runs one. -/
def RunsContainers (w : HubWorld) : Prop :=
  ∀ id row, deployment? w id = some row → row.containerName.isSome →
    ∃ app, app? w row.appId = some app ∧ app.source.runConfig.isSome

theorem RunsContainers.moves (runs : RunsContainers w) (moves : w.Moves (hub limit) event w')
    (numbered : w.Numbered) (ledger : Ledger w) (permitted : Permitted w event)
    (sourced : Sourced w event) : RunsContainers w' := by
  intro id row found hasContainer
  have change := rowsChange moves
  rcases change.deployment_before found with ⟨old, before, step⟩ | ⟨_, _, thread, wrote⟩
  · obtain ⟨app, appFound, isRun⟩ := runs id old before (step.containerName ▸ hasContainer)
    obtain ⟨new, newFound⟩ := (ledger.moves numbered moves permitted).rows.parent id row found
    rw [← step.appId] at appFound
    rcases change.app_before newFound with ⟨app', appFound', step'⟩ | ⟨absent, _⟩
    · rw [appFound] at appFound'
      cases appFound'
      exact ⟨new, newFound, step'.source ▸ isRun⟩
    · rw [appFound] at absent
      cases absent
  · obtain ⟨source, has, suits⟩ := sourced thread row wrote
    obtain ⟨app, appFound, rfl⟩ := has.moves moves fun deleter deleted => by
      cases (wrote_inj wrote deleted).2
    exact ⟨app, appFound, suits.run hasContainer⟩

theorem runsContainers_in_run (blank : state.Blank) {condition : HubWorld → HubEvent → Prop}
    (reachable : Reachable (hub limit) condition (Config.idle state) cfg) :
    RunsContainers cfg.world :=
  (sourced_in_run blank reachable).invariant (fun _ _ found => absurd found blank.no_deployment)
    fun _ _ _ runs moves ⟨meets, sourced⟩ =>
      runs.moves moves meets.numbered meets.ledger meets.permitted sourced

/-! While the app is redeployed. -/

/-- The deployment is there, with something to be served. -/
def Stands (w : HubWorld) (appId id : Uuid) (container : Option String) : Prop :=
  ∃ row, deployment? w id = some row ∧ row.appId = appId ∧ row.containerName = container ∧
    (container = none → Has w (deploymentFilesDir appId.toString id.toString))

/-- The deployment is the active one of the app of this name, and stands. -/
def Live (w : HubWorld) (name : String) (appId id : Uuid) (container : Option String) : Prop :=
  ∃ app, app? w appId = some app ∧ app.name = name ∧ app.activeDeploymentId = some id ∧
    Stands w appId id container

/-- The app may be changed and redeployed at will, but it keeps its name and its deployments, and
nothing is made active that cannot be served. -/
structure Steady (name : String) (appId : Uuid) (w : HubWorld) (event : HubEvent) : Prop where
  keepsApp : ∀ thread, ¬ Wrote thread (.deleteApp appId) event
  keepsName : ∀ thread given envVars hostId,
    Wrote thread (.updateApp appId (some given) envVars hostId) event → given = name
  keeps : ∀ thread id row, Wrote thread (.deleteDeployment id) event →
    deployment? w id = some row → row.appId ≠ appId
  activates : ∀ thread id row, Wrote thread (.setActiveDeployment appId id) event →
    deployment? w id = some row → Stands w appId id row.containerName

theorem Stands.moves {id : Uuid} {container : Option String} (stands : Stands w appId id container)
    (moves : w.Moves (hub limit) event w') (permitted : Permitted w event)
    (steady : Steady name appId w event) : Stands w' appId id container := by
  obtain ⟨row, found, inApp, isContainer, content⟩ := stands
  have kept (plain : container = none) :
      Has w' (deploymentFilesDir appId.toString id.toString) := by
    have held (thread : Nat) : Held w thread (deploymentFilesDir appId.toString id.toString) :=
      inApp ▸ .deployment found [.text "files"]
    exact permitted.has moves (content plain) held
  rcases (rowsChange moves).deployment_after found with
    ⟨new, after, step⟩ | ⟨_, ⟨thread, wrote⟩ | ⟨thread, wrote⟩⟩
  · exact ⟨new, after, step.appId.trans inApp, step.containerName.trans isContainer, kept⟩
  · exact absurd inApp (steady.keeps thread id row wrote found)
  · exact absurd (inApp ▸ wrote) (steady.keepsApp thread)

theorem RowsChange.name_after {old new : AppRow} (change : RowsChange w w' event)
    (found : app? w appId = some old) (found' : app? w' appId = some new) :
    new.name = old.name ∨ ∃ thread given envVars hostId,
      Wrote thread (.updateApp appId (some given) envVars hostId) event ∧ new.name = given := by
  cases change with
  | same apps _ | insertDeployment _ apps _ | updateGitInfo apps _ | updateStatus apps _
  | deleteDeployment apps _ =>
      rw [apps, found] at found'
      cases found'
      exact .inl rfl
  | insertApp fresh apps _ =>
      rw [apps] at found'
      split at found'
      · rename_i here
        rw [here, fresh] at found
        cases found
      · rw [found] at found'
        cases found'
        exact .inl rfl
  | @updateApp thread call id given envVars hostId choice apps _ =>
      rw [apps, found] at found'
      split at found'
      · rename_i here
        cases found'
        subst here
        cases given with
        | none => exact .inl rfl
        | some given => exact .inr ⟨thread, given, envVars, hostId, wrote_act .., rfl⟩
      · cases found'
        exact .inl rfl
  | setActive apps _ =>
      rw [apps, found] at found'
      split at found' <;> cases found' <;> exact .inl rfl
  | deleteApp apps _ =>
      rw [apps, found] at found'
      split at found' <;> cases found'
      exact .inl rfl

theorem Live.moves {id : Uuid} {container : Option String} (live : Live w name appId id container)
    (moves : w.Moves (hub limit) event w') (permitted : Permitted w event)
    (steady : Steady name appId w event) : ∃ id container, Live w' name appId id container := by
  obtain ⟨app, found, isName, isActive, stands⟩ := live
  have change := rowsChange moves
  rcases change.app_after found with ⟨new, after, step⟩ | ⟨_, thread, wrote⟩
  · have named : new.name = name := by
      rcases change.name_after found after with same | ⟨thread, given, _, _, wrote, isGiven⟩
      · exact same.trans isName
      · exact isGiven.trans (steady.keepsName _ _ _ _ wrote)
    rcases step.active with same | ⟨thread, next, wrote, isNext⟩
    · exact ⟨id, container, new, after, named, same.trans isActive,
        stands.moves moves permitted steady⟩
    · obtain ⟨_, may⟩ := permitted.write wrote
      obtain ⟨row, there, _⟩ := MayActivate.found may
      exact ⟨next, row.containerName, new, after, named, isNext,
        (steady.activates thread next row wrote there).moves moves permitted steady⟩
  · exact absurd wrote (steady.keepsApp thread)

/-! What a visit sees. -/

/-- The database answers. -/
def Unfailing : (action : Act) → action.Res → Prop
  | .query _, outcome => ∃ value, outcome = .ok value
  | _, _ => True

section Lookups

variable {allowed : HubWorld → HubEvent → Prop} {text : String} {id : Uuid}

theorem observes_query {q : Query} {outcome : AppResult q.Result}
    (observes : Observes (hub limit) allowed Unfailing thread (query q).run cfg last outcome) :
    ∃ middle value, Between (hub limit) allowed cfg middle last ∧ outcome = .ok value ∧
      ∃ db, middle.world.shared.db.exec q = some (value, db) := by
  obtain ⟨middle, choice, between, ⟨value, rfl⟩, performed⟩ := observes_perform observes
  change perform thread (.query q) choice middle.shared = some (.ok value, middle.shared) at performed
  obtain ⟨db, executed, _⟩ := perform_query_ok performed
  exact ⟨middle, value, between, rfl, db, executed⟩

theorem observes_query_bind {α : Type} {q : Query} {after : q.Result → AsyncResult α}
    {outcome : AppResult α}
    (observes : Observes (hub limit) allowed Unfailing thread (query q >>= after).run cfg last
      outcome) :
    ∃ middle value later, Between (hub limit) allowed cfg middle later ∧
      (∃ db, middle.world.shared.db.exec q = some (value, db)) ∧
      Observes (hub limit) allowed Unfailing thread (after value).run later last outcome := by
  obtain ⟨later, ⟨answer, asks, rest⟩ | ⟨err, asks, _⟩⟩ := observes_bind_run observes
  · obtain ⟨middle, value, between, isAnswer, executed⟩ := observes_query asks
    cases isAnswer
    exact ⟨middle, answer, later, between, executed, rest⟩
  · obtain ⟨_, _, _, isAnswer, _⟩ := observes_query asks
    cases isAnswer

theorem observes_findAppRow {outcome : AppResult AppRow}
    (observes : Observes (hub limit) allowed Unfailing thread (findAppRow name).run cfg last
      outcome) :
    ∃ middle, Between (hub limit) allowed cfg middle last ∧
      outcome = (middle.world.shared.db.apps.rows.find? fun row => row.name = name).elim
        (.error (.appNotFound name)) .ok := by
  obtain ⟨middle, value, later, between, ⟨db, executed⟩, rest⟩ := observes_query_bind observes
  cases executed
  refine ⟨middle, between.later rest.reachable, ?_⟩
  cases search : middle.world.shared.db.apps.rows.find? fun row => row.name = name with
  | none | some row =>
      rw [search] at rest
      exact observes_done rest

theorem observes_findAppRowById {outcome : AppResult AppRow} (parsed : Uuid.parseStr text = some id)
    (observes : Observes (hub limit) allowed Unfailing thread (findAppRowById text).run cfg last
      outcome) :
    ∃ middle, Between (hub limit) allowed cfg middle last ∧
      outcome = (app? middle.world id).elim (.error (.appNotFound text)) .ok := by
  unfold findAppRowById at observes
  rw [parsed] at observes
  obtain ⟨middle, value, later, between, ⟨db, executed⟩, rest⟩ := observes_query_bind observes
  cases executed
  refine ⟨middle, between.later rest.reachable, ?_⟩
  change outcome = (middle.world.shared.db.app? id).elim _ _
  cases search : middle.world.shared.db.app? id with
  | none | some row =>
      rw [search] at rest
      exact observes_done rest

theorem observes_findDeploymentRow {outcome : AppResult DeploymentRow}
    (parsed : Uuid.parseStr text = some id)
    (observes : Observes (hub limit) allowed Unfailing thread (findDeploymentRow appId text).run cfg
      last outcome) :
    ∃ middle, Between (hub limit) allowed cfg middle last ∧
      outcome = ((deployment? middle.world id).filter fun row => row.appId = appId).elim
        (.error (.deploymentNotFound id.toString)) .ok := by
  unfold findDeploymentRow at observes
  rw [parsed] at observes
  obtain ⟨middle, value, later, between, ⟨db, executed⟩, rest⟩ := observes_query_bind observes
  cases executed
  refine ⟨middle, between.later rest.reachable, ?_⟩
  change outcome = ((middle.world.shared.db.deployment? id).filter fun row =>
    row.appId = appId).elim _ _
  cases search : (middle.world.shared.db.deployment? id).filter fun row => row.appId = appId with
  | none | some row =>
      rw [search] at rest
      exact observes_done rest

theorem observes_appFromRow {row : AppRow} {outcome : AppResult App}
    (observes : Observes (hub limit) allowed Unfailing thread (appFromRowWithPermissions row).run cfg
      last outcome) : ∃ permissions, outcome = .ok (appFromRow row permissions) := by
  obtain ⟨later, ⟨permissions, _, rest⟩ | ⟨err, loads, _⟩⟩ := observes_bind_run observes
  · exact ⟨permissions, observes_done rest⟩
  · obtain ⟨_, _, _, _, _, loads⟩ := observes_query_bind loads
    obtain ⟨_, _, _, _, _, loads⟩ := observes_query_bind loads
    cases observes_done loads

theorem observes_getApp {outcome : AppResult App}
    (observes : Observes (hub limit) allowed Unfailing thread (getApp name).run cfg last outcome) :
    ∃ middle permissions, Between (hub limit) allowed cfg middle last ∧
      outcome = (middle.world.shared.db.apps.rows.find? fun row => row.name = name).elim
        (.error (.appNotFound name)) fun row => .ok (appFromRow row permissions) := by
  obtain ⟨later, ⟨row, finds, rest⟩ | ⟨err, finds, reachable, rfl⟩⟩ := observes_bind_run observes
  · obtain ⟨middle, between, isRow⟩ := observes_findAppRow finds
    obtain ⟨permissions, rfl⟩ := observes_appFromRow rest
    refine ⟨middle, permissions, between.later rest.reachable, ?_⟩
    cases search : middle.world.shared.db.apps.rows.find? fun row => row.name = name with
    | none =>
        rw [search] at isRow
        cases isRow
    | some found =>
        rw [search] at isRow
        cases isRow
        rfl
  · obtain ⟨middle, between, isError⟩ := observes_findAppRow finds
    refine ⟨middle, [], between.later reachable, ?_⟩
    cases search : middle.world.shared.db.apps.rows.find? fun row => row.name = name with
    | none =>
        rw [search] at isError
        cases isError
        rfl
    | some found =>
        rw [search] at isError
        cases isError

theorem observes_activeDeploymentId {outcome : AppResult (Option String)}
    (parsed : Uuid.parseStr text = some id)
    (observes : Observes (hub limit) allowed Unfailing thread (activeDeploymentId text).run cfg last
      outcome) :
    ∃ middle, Between (hub limit) allowed cfg middle last ∧
      outcome = .ok ((app? middle.world id).bind fun row =>
        row.activeDeploymentId.map Uuid.toString) := by
  obtain ⟨later, inner, finds, rest⟩ := observes_attempt_bind observes
  obtain ⟨middle, between, rfl⟩ := observes_findAppRowById parsed finds
  refine ⟨middle, between.later rest.reachable, ?_⟩
  cases search : app? middle.world id with
  | none | some row =>
      rw [search] at rest
      exact observes_done rest

theorem observes_pathExists {path : Path} {outcome : AppResult Bool}
    (observes : Observes (hub limit) allowed Unfailing thread (pathExists path).run cfg last
      outcome) :
    ∃ middle, Between (hub limit) allowed cfg middle last ∧
      outcome = .ok (decide (middle.world.shared.files.Has path)) := by
  obtain ⟨later, there, looks, reachable, rfl⟩ := observes_lift observes
  obtain ⟨middle, choice, between, _, performed⟩ := observes_perform looks
  refine ⟨middle, between.later reachable, ?_⟩
  have answer : decide (middle.shared.files.Has path) = there :=
    congrArg Prod.fst (Option.some.inj performed)
  rw [← answer]
  rfl

/-- A deployment that is there all the time is found. -/
theorem observes_getDeployment {container : Option String} {outcome : AppResult Deployment}
    (there : ∀ middle : HubConfig, Reachable (hub limit) allowed cfg middle →
      (∃ app, app? middle.world appId = some app) ∧ Stands middle.world appId id container)
    (observes : Observes (hub limit) allowed Unfailing thread
      (getDeployment appId.toString id.toString).run cfg last outcome) :
    ∃ deployment, outcome = .ok deployment ∧ deployment.containerName = container := by
  obtain ⟨later, ⟨appRow, finds, rest⟩ | ⟨err, finds, _⟩⟩ := observes_bind_run observes
  · obtain ⟨first, between, isApp⟩ := observes_findAppRowById (Uuid.parseStr_toString appId) finds
    obtain ⟨⟨app, found⟩, _⟩ := there first between.before
    rw [found] at isApp
    cases isApp
    rw [Database.app?_id found] at rest
    obtain ⟨later', ⟨row, finds', rest'⟩ | ⟨err, finds', _⟩⟩ := observes_bind_run rest
    all_goals
      obtain ⟨second, between', isRow⟩ := observes_findDeploymentRow (Uuid.parseStr_toString id) finds'
      obtain ⟨_, row', found', inApp, isContainer, _⟩ :=
        there second (finds.reachable.trans between'.before)
      rw [found', Option.filter_some, if_pos (decide_eq_true inApp)] at isRow
      cases isRow
    exact ⟨_, observes_done rest', isContainer⟩
  · obtain ⟨first, between, isApp⟩ := observes_findAppRowById (Uuid.parseStr_toString appId) finds
    obtain ⟨⟨app, found⟩, _⟩ := there first between.before
    rw [found] at isApp
    cases isApp

/-- Files that are there all the time are served. -/
theorem observes_files {dir : Path} {outcome : AppResult ServeTarget}
    (there : ∀ middle : HubConfig, Reachable (hub limit) allowed cfg middle → Has middle.world dir)
    (observes : Observes (hub limit) allowed Unfailing thread (do
      if ← pathExists dir then pure (ServeTarget.static dir) else pure .notFound :
        AsyncResult ServeTarget).run cfg last outcome) : outcome = .ok (.static dir) := by
  obtain ⟨later, ⟨found, looks, rest⟩ | ⟨err, looks, _⟩⟩ := observes_bind_run observes
  all_goals
    obtain ⟨middle, between, isThere⟩ := observes_pathExists looks
    have has : middle.world.shared.files.Has dir := there middle between.before
    rw [decide_eq_true has] at isThere
    cases isThere
  exact observes_done rest

end Lookups

/-! Visitors are served. -/

/-- Where a visit is sent: to the files of the deployment, which are still there, or to its container,
on the host that the app had when it was looked up. -/
inductive ServeTarget.Sends (w : HubWorld) (seen : AppRow) (row : DeploymentRow) :
    ServeTarget → Prop
  | static (plain : row.containerName = none)
      (there : Has w (deploymentFilesDir row.appId.toString row.id.toString)) :
      Sends w seen row (.static (deploymentFilesDir row.appId.toString row.id.toString))
  | run {containerName : String} {runConfig : RunConfig}
      (isContainer : row.containerName = some containerName)
      (isConfig : seen.source.runConfig = some runConfig) :
      Sends w seen row (.run containerName runConfig seen.hostId)

/-- The row of the app's active deployment. -/
def ActiveRow (w : HubWorld) (appId : Uuid) (row : DeploymentRow) : Prop :=
  ∃ app, app? w appId = some app ∧ app.activeDeploymentId = some row.id ∧
    deployment? w row.id = some row ∧ row.appId = appId

section Serving

variable {id : Uuid} {container : Option String}
variable (blank : state.Blank)
variable (before : Reachable (hub limit) (fun _ _ => True) (Config.idle state) cfg)

include blank before in
theorem kept_while_steady (holds : HubWorld → Prop)
    (during : Reachable (hub limit) (Steady name appId) cfg last) (initial : holds cfg.world)
    (preserved : ∀ w event w', holds w → w.Moves (hub limit) event w' → Permitted w event →
      Steady name appId w event → holds w') : holds last.world := by
  have known := ledger_sound.grounded (fun _ _ _ => trivial)
    (ledger_sound.secure (ledger_secure blank) before) during
  exact known.invariant initial fun w event w' holds moves ⟨steady, known⟩ =>
    preserved w event w' holds moves (permitted_of_owned known.permit) steady

include blank before in
theorem live_while_steady (live : Live cfg.world name appId id container)
    (during : Reachable (hub limit) (Steady name appId) cfg last) :
    ∃ id container, Live last.world name appId id container :=
  kept_while_steady blank before (fun w => ∃ id container, Live w name appId id container) during
    ⟨id, container, live⟩ (by
      rintro _ _ _ ⟨_, _, live⟩ moves permitted steady
      exact live.moves moves permitted steady)

include blank before in
theorem stands_while_steady (stands : Stands cfg.world appId id container)
    (during : Reachable (hub limit) (Steady name appId) cfg last) :
    Stands last.world appId id container :=
  kept_while_steady blank before (fun w => Stands w appId id container) during stands
    fun _ _ _ stands moves permitted steady => stands.moves moves permitted steady

include blank before in
theorem source_while_steady {source : AppSource} (has : HasSource cfg.world appId source)
    (during : Reachable (hub limit) (Steady name appId) cfg last) :
    HasSource last.world appId source :=
  kept_while_steady blank before (fun w => HasSource w appId source) during has
    fun _ _ _ has moves _ steady => has.moves moves steady.keepsApp

include blank before in
theorem observes_liveApp {outcome : AppResult App} (live : Live cfg.world name appId id container)
    (observes : Observes (hub limit) (Steady name appId) Unfailing thread (getApp name).run cfg last
      outcome) :
    ∃ first seen permissions, Between (hub limit) (Steady name appId) cfg first last ∧
      app? first.world appId = some seen ∧ seen.name = name ∧
      outcome = .ok (appFromRow seen permissions) := by
  obtain ⟨first, permissions, between, isApp⟩ := observes_getApp observes
  obtain ⟨_, _, seen, there, isName, _⟩ := live_while_steady blank before live between.before
  have reachable := before.trans (between.before.mono fun _ _ _ => trivial)
  have search := (namesUnique_in_run blank reachable).find there
  rw [isName] at search
  rw [search, Option.elim_some] at isApp
  exact ⟨first, seen, permissions, between, there, isName, isApp⟩

include blank before in
theorem observes_liveDeployment {outcome : AppResult (Option String)}
    (live : Live cfg.world name appId id container)
    (observes : Observes (hub limit) (Steady name appId) Unfailing thread
      (activeDeploymentId appId.toString).run cfg last outcome) :
    ∃ middle id container, Between (hub limit) (Steady name appId) cfg middle last ∧
      Live middle.world name appId id container ∧ outcome = .ok (some id.toString) := by
  obtain ⟨middle, between, isActive⟩ :=
    observes_activeDeploymentId (Uuid.parseStr_toString appId) observes
  obtain ⟨id, container, live⟩ := live_while_steady blank before live between.before
  refine ⟨middle, id, container, between, live, ?_⟩
  obtain ⟨app, found, _, isId, _⟩ := live
  rw [isActive, found, Option.bind_some, isId, Option.map_some]

end Serving

/-- What the visit of the example run is answered. -/
def look : (action : Act) → State → Option action.Res
  | .query q, state => if q.IsRead then (state.db.exec q).map fun answer => .ok answer.1 else none
  | .pathExists path, state => some (decide (state.files.Has path))
  | _, _ => none

theorem look_performed (action : Act) (state : State) (result : action.Res)
    (looked : look action state = some result) :
    Unfailing action result ∧ ∃ choice,
      (hub limit).perform thread action choice state = some (result, state) := by
  cases action with
  | query q =>
      simp only [look] at looked
      split at looked
      · rename_i read
        obtain ⟨⟨value, db⟩, executed, rfl⟩ := Option.map_eq_some_iff.1 looked
        refine ⟨⟨value, rfl⟩, {}, ?_⟩
        cases Database.exec_read read executed
        change some (state.runQuery q {}) = _
        simp only [State.runQuery, executed]
        rfl
      · cases looked
  | pathExists path =>
      cases looked
      exact ⟨trivial, {}, rfl⟩
  | _ => cases looked

/-- Checks of one event that it is a steady one, and deletes and renames nothing at all. -/
def steady (appId : Uuid) (w : HubWorld) : HubEvent → Bool
  | .act _ _ (.query (.deleteApp _)) _ _ => false
  | .act _ _ (.query (.deleteDeployment _)) _ _ => false
  | .act _ _ (.query (.updateApp _ _ _ _)) _ _ => false
  | .act _ _ (.query (.setActiveDeployment _ id)) _ _ => (deployment? w id).all fun row =>
      row.appId = appId && w.shared.files.Has (deploymentFilesDir appId.toString id.toString)
  | _ => true

theorem steady_sound (checked : steady appId w event = true) : Steady name appId w event := by
  refine ⟨?_, ?_, ?_, ?_⟩
  · rintro thread ⟨call, choice, value, rfl⟩
    cases checked
  · rintro thread given envVars hostId ⟨call, choice, value, rfl⟩
    cases checked
  · rintro thread id row ⟨call, choice, value, rfl⟩
    cases checked
  · rintro thread id row ⟨call, choice, value, rfl⟩ found
    simp only [steady, found, Option.all_some, Bool.and_eq_true, decide_eq_true_eq] at checked
    exact ⟨row, found, checked.1, rfl, fun _ => checked.2⟩

/-- Checks that the deployment is the active one of the app, and that its files are there. -/
def liveFiles (w : HubWorld) (name : String) (appId id : Uuid) : Bool :=
  (app? w appId).any (fun app => app.name = name && app.activeDeploymentId = some id) &&
    (deployment? w id).any fun row => row.appId = appId && row.containerName = none &&
      w.shared.files.Has (deploymentFilesDir appId.toString id.toString)

theorem liveFiles_sound {id : Uuid} (checked : liveFiles w name appId id = true) :
    Live w name appId id none := by
  simp only [liveFiles, Bool.and_eq_true, Option.any_eq_true, decide_eq_true_eq] at checked
  obtain ⟨⟨app, found, isName, isActive⟩, row, there, ⟨inApp, isContainer⟩, content⟩ := checked
  exact ⟨app, found, isName, isActive, row, there, inApp, isContainer, fun _ => content⟩

/-- An upload to an app. -/
def uploaded : List (Command Call Choice) :=
  let app := Uuid.repeated 1
  let plain : Choice := {}
  let upload : Call := .uploadDeployment app.toString [⟨some "file", none, [.ok 1]⟩]
  .start .startup :: steps 0 7 plain ++
  .start (.createApp "app" .upload [] none 1) :: steps 1 13 { id := app } ++
  .start upload :: steps 2 20 { id := Uuid.repeated 10 }

/-- The next upload goes live when the visit has already found the app. -/
def nextUpload : List (List (Command Call Choice)) :=
  let upload : Call := .uploadDeployment (Uuid.repeated 1).toString [⟨some "file", none, [.ok 1]⟩]
  [[], .start upload :: steps 3 20 { id := Uuid.repeated 11 }]

end Berth
