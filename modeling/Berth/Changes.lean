import Berth.Steps

/-!
What one event of a run can do to the rows, the files and the bookkeeping of the hub. Later
invariants are checked against these changes, not against the steps themselves.
-/

namespace Berth

open Interleave

variable {limit : Nat} {w w' : HubWorld} {event : HubEvent}

/-- The event is a query of the thread, and it succeeded. -/
def Wrote (thread : Nat) (q : Query) (event : HubEvent) : Prop :=
  ∃ call choice value, event = .act thread call (.query q) choice (.ok value)

theorem Wrote.thread {thread : Nat} {q : Query} (wrote : Wrote thread q event) :
    event.thread = some thread := by
  obtain ⟨_, _, _, rfl⟩ := wrote
  rfl

theorem act_performed {thread : Nat} {call : Call} {action : Act} {choice : Choice}
    {result : action.Res}
    (moves : w.Moves (hub limit) (.act thread call action choice result) w') :
    perform thread action choice w.shared = some (result, w'.shared) := by
  cases moves with
  | act member performed => exact performed

theorem acting_live {thread : Nat} {call : Call} {action : Act} {choice : Choice}
    {result : action.Res}
    (moves : w.Moves (hub limit) (.act thread call action choice result) w') :
    (thread, call) ∈ w.live := by
  cases moves with
  | act member _ => exact member

def app? (w : HubWorld) (id : Uuid) : Option AppRow := w.shared.db.app? id

def deployment? (w : HubWorld) (id : Uuid) : Option DeploymentRow := w.shared.db.deployment? id

def Has (w : HubWorld) (path : Path) : Prop := w.shared.files.Has path

/-- The queries that change rows of apps or deployments. -/
def Query.WritesRows : Query → Prop
  | .insertApp _ _ | .updateApp _ _ _ _ | .setActiveDeployment _ _ | .deleteApp _
  | .insertDeployment _ | .updateGitInfo _ _ _ _ | .updateStatus _ _ _ | .deleteDeployment _ => True
  | _ => False

/-- Everything an event can do to the rows of apps and deployments. -/
inductive RowsChange (w w' : HubWorld) : HubEvent → Prop
  | same {event : HubEvent} (apps : ∀ id, app? w' id = app? w id)
      (deployments : ∀ id, deployment? w' id = deployment? w id)
      (silent : ∀ thread q, Wrote thread q event → ¬ q.WritesRows) : RowsChange w w' event
  | insertApp {thread call row creator choice} (fresh : app? w row.id = none)
      (apps : ∀ id, app? w' id = if id = row.id then some row else app? w id)
      (deployments : ∀ id, deployment? w' id = deployment? w id) :
      RowsChange w w' (.act thread call (.query (.insertApp row creator)) choice (.ok ()))
  | updateApp {thread call id name envVars hostId choice}
      (apps : ∀ other, app? w' other =
        if other = id then (app? w other).map fun row => row.change name envVars hostId
        else app? w other)
      (deployments : ∀ id, deployment? w' id = deployment? w id) :
      RowsChange w w' (.act thread call (.query (.updateApp id name envVars hostId)) choice (.ok ()))
  | setActive {thread call appId deploymentId choice}
      (apps : ∀ other, app? w' other =
        if other = appId then
          (app? w other).map fun row => { row with activeDeploymentId := some deploymentId }
        else app? w other)
      (deployments : ∀ id, deployment? w' id = deployment? w id) :
      RowsChange w w'
        (.act thread call (.query (.setActiveDeployment appId deploymentId)) choice (.ok ()))
  | deleteApp {thread call id choice}
      (apps : ∀ other, app? w' other = if other = id then none else app? w other)
      (deployments : ∀ other, deployment? w' other =
        (deployment? w other).filter fun row => row.appId ≠ id) :
      RowsChange w w' (.act thread call (.query (.deleteApp id)) choice (.ok ()))
  | insertDeployment {thread call row choice} (fresh : deployment? w row.id = none)
      (apps : ∀ id, app? w' id = app? w id)
      (deployments : ∀ id, deployment? w' id = if id = row.id then some row else deployment? w id) :
      RowsChange w w' (.act thread call (.query (.insertDeployment row)) choice (.ok ()))
  | updateGitInfo {thread call id gitInfo buildInfo size choice}
      (apps : ∀ id, app? w' id = app? w id)
      (deployments : ∀ other, deployment? w' other =
        if other = id then (deployment? w other).map fun row => row.record gitInfo buildInfo size
        else deployment? w other) :
      RowsChange w w'
        (.act thread call (.query (.updateGitInfo id gitInfo buildInfo size)) choice (.ok ()))
  | updateStatus {thread call id status failureError choice}
      (apps : ∀ id, app? w' id = app? w id)
      (deployments : ∀ other, deployment? w' other =
        if other = id then (deployment? w other).map fun row => row.become status failureError
        else deployment? w other) :
      RowsChange w w'
        (.act thread call (.query (.updateStatus id status failureError)) choice (.ok ()))
  | deleteDeployment {thread call id choice}
      (apps : ∀ id, app? w' id = app? w id)
      (deployments : ∀ other, deployment? w' other =
        if other = id then none else deployment? w other) :
      RowsChange w w' (.act thread call (.query (.deleteDeployment id)) choice (.ok ()))

theorem rowsChange_same (apps : w'.shared.db.apps = w.shared.db.apps)
    (deployments : w'.shared.db.deployments = w.shared.db.deployments)
    (silent : ∀ thread q, Wrote thread q event → ¬ q.WritesRows) : RowsChange w w' event :=
  .same (fun id => by simp only [app?, Database.app?, apps])
    (fun id => by simp only [deployment?, Database.deployment?, deployments]) silent

theorem rowsChange (moves : w.Moves (hub limit) event w') : RowsChange w w' event := by
  cases moves with
  | start _ | fork _ | finish _ | drop _ | restart =>
      exact rowsChange_same rfl rfl (by rintro _ _ ⟨_, _, _, ⟨⟩⟩)
  | @act thread call action choice result shared member performed =>
      change perform thread action choice w.shared = some (result, shared) at performed
      by_cases isQuery : ∃ q, action = .query q
      · obtain ⟨q, rfl⟩ := isQuery
        rcases perform_query performed with ⟨err, rfl, rfl⟩ | ⟨value, db, executed, rfl, rfl⟩
        · exact rowsChange_same rfl rfl (by rintro _ _ ⟨_, _, _, ⟨⟩⟩)
        · cases q with
          | insertApp row creator =>
              obtain ⟨fresh, apps, deployments⟩ := Database.exec_insertApp executed
              exact .insertApp fresh apps
                (fun id => by simp only [deployment?, Database.deployment?, deployments])
          | updateApp id name envVars hostId =>
              obtain ⟨apps, deployments⟩ := Database.exec_updateApp executed
              exact .updateApp apps
                (fun id => by simp only [deployment?, Database.deployment?, deployments])
          | setActiveDeployment appId deploymentId =>
              obtain ⟨apps, deployments⟩ := Database.exec_setActiveDeployment executed
              exact .setActive apps
                (fun id => by simp only [deployment?, Database.deployment?, deployments])
          | deleteApp id =>
              obtain ⟨apps, deployments⟩ := Database.exec_deleteApp executed
              exact .deleteApp apps deployments
          | insertDeployment row =>
              obtain ⟨fresh, deployments, apps⟩ := Database.exec_insertDeployment executed
              exact .insertDeployment fresh
                (fun id => by simp only [app?, Database.app?, apps]) deployments
          | updateGitInfo id gitInfo buildInfo size =>
              obtain ⟨deployments, apps⟩ := Database.exec_updateGitInfo executed
              exact .updateGitInfo (fun id => by simp only [app?, Database.app?, apps]) deployments
          | updateStatus id status failureError =>
              obtain ⟨deployments, apps⟩ := Database.exec_updateStatus executed
              exact .updateStatus (fun id => by simp only [app?, Database.app?, apps]) deployments
          | deleteDeployment id =>
              obtain ⟨deployments, apps⟩ := Database.exec_deleteDeployment executed
              exact .deleteDeployment (fun id => by simp only [app?, Database.app?, apps])
                deployments
          | replacePermissions appId granted =>
              obtain ⟨apps, deployments⟩ := Database.exec_replacePermissions executed
              exact rowsChange_same apps deployments (by rintro _ _ ⟨_, _, _, ⟨⟩⟩; exact id)
          | appById _ | appByName _ | allApps | permissionsOf _ | usersIn _ | userByName _
          | hostById _ | deploymentById _ _ | deploymentsOf _ | allDeployments =>
              cases Database.exec_read rfl executed
              exact rowsChange_same rfl rfl (by rintro _ _ ⟨_, _, _, ⟨⟩⟩; exact id)
      · have notQuery : ∀ q, action ≠ .query q := fun q eq => isQuery ⟨q, eq⟩
        obtain ⟨apps, deployments⟩ := perform_rows notQuery performed
        refine rowsChange_same apps deployments ?_
        rintro _ q ⟨_, _, _, ⟨⟩⟩
        exact absurd rfl (notQuery q)

/-- How a deployment row can look after an event that did not remove it. -/
structure DeploymentStep (id : Uuid) (old new : DeploymentRow) (event : HubEvent) : Prop where
  id_eq : new.id = old.id
  appId : new.appId = old.appId
  containerName : new.containerName = old.containerName
  status : (new.status = old.status ∧ new.failureError = old.failureError) ∨
    ∃ thread, Wrote thread (.updateStatus id new.status new.failureError) event

/-- How an app row can look after an event that did not remove it. -/
structure AppStep (id : Uuid) (old new : AppRow) (event : HubEvent) : Prop where
  id_eq : new.id = old.id
  source : new.source = old.source
  active : new.activeDeploymentId = old.activeDeploymentId ∨
    ∃ thread deploymentId, Wrote thread (.setActiveDeployment id deploymentId) event ∧
      new.activeDeploymentId = some deploymentId
  hostId : new.hostId = old.hostId ∨
    ∃ thread name envVars, Wrote thread (.updateApp id name envVars (some new.hostId)) event

theorem DeploymentStep.refl {id : Uuid} (row : DeploymentRow) :
    DeploymentStep id row row event := ⟨rfl, rfl, rfl, .inl ⟨rfl, rfl⟩⟩

theorem AppStep.refl {id : Uuid} (row : AppRow) : AppStep id row row event :=
  ⟨rfl, rfl, .inl rfl, .inl rfl⟩

theorem wrote_act (thread : Nat) (call : Call) (q : Query) (choice : Choice) (value : q.Result) :
    Wrote thread q (.act thread call (.query q) choice (.ok value)) := ⟨call, choice, value, rfl⟩

theorem Wrote.action {thread other : Nat} {call : Call} {action : Act} {choice : Choice}
    {result : action.Res} {q : Query}
    (wrote : Wrote other q (.act thread call action choice result)) :
    other = thread ∧ action = .query q := by
  obtain ⟨_, _, _, eq⟩ := wrote
  cases eq
  exact ⟨rfl, rfl⟩

/-- A deployment row either stays, or this event removed it, alone or with its app. -/
theorem RowsChange.deployment_after (change : RowsChange w w' event) {id : Uuid}
    {row : DeploymentRow} (found : deployment? w id = some row) :
    (∃ new, deployment? w' id = some new ∧ DeploymentStep id row new event) ∨
      (deployment? w' id = none ∧ ((∃ thread, Wrote thread (.deleteDeployment id) event) ∨
        ∃ thread, Wrote thread (.deleteApp row.appId) event)) := by
  cases change with
  | same apps deployments | insertApp _ apps deployments | updateApp apps deployments
  | setActive apps deployments =>
      exact .inl ⟨row, by rw [deployments, found], .refl row⟩
  | @deleteApp thread call app choice apps deployments =>
      by_cases here : row.appId = app
      · subst here
        exact .inr ⟨by simp [deployments, found], .inr ⟨thread, wrote_act ..⟩⟩
      · exact .inl ⟨row, by simp [deployments, found, here], .refl row⟩
  | @insertDeployment thread call inserted choice fresh apps deployments =>
      by_cases here : id = inserted.id
      · rw [here, fresh] at found
        cases found
      · exact .inl ⟨row, by rw [deployments, if_neg here, found], .refl row⟩
  | @updateGitInfo thread call changed gitInfo buildInfo size choice apps deployments =>
      by_cases here : id = changed
      · exact .inl ⟨row.record gitInfo buildInfo size,
          by rw [deployments, if_pos here, found]; rfl, ⟨rfl, rfl, rfl, .inl ⟨rfl, rfl⟩⟩⟩
      · exact .inl ⟨row, by rw [deployments, if_neg here, found], .refl row⟩
  | @updateStatus thread call changed status failureError choice apps deployments =>
      by_cases here : id = changed
      · subst here
        exact .inl ⟨row.become status failureError,
          by rw [deployments, if_pos rfl, found]; rfl, ⟨rfl, rfl, rfl, .inr ⟨thread, wrote_act ..⟩⟩⟩
      · exact .inl ⟨row, by rw [deployments, if_neg here, found], .refl row⟩
  | @deleteDeployment thread call deleted choice apps deployments =>
      by_cases here : id = deleted
      · subst here
        exact .inr ⟨by rw [deployments, if_pos rfl], .inl ⟨thread, wrote_act ..⟩⟩
      · exact .inl ⟨row, by rw [deployments, if_neg here, found], .refl row⟩

/-- A deployment row either was there before, or this event inserted it. -/
theorem RowsChange.deployment_before (change : RowsChange w w' event) {id : Uuid}
    {row : DeploymentRow} (found : deployment? w' id = some row) :
    (∃ old, deployment? w id = some old ∧ DeploymentStep id old row event) ∨
      (deployment? w id = none ∧ row.id = id ∧
        ∃ thread, Wrote thread (.insertDeployment row) event) := by
  cases before : deployment? w id with
  | some old =>
      rcases change.deployment_after before with ⟨new, found', step⟩ | ⟨absent, _⟩
      · rw [found] at found'
        cases found'
        exact .inl ⟨old, rfl, step⟩
      · rw [found] at absent
        cases absent
  | none =>
      refine .inr ⟨rfl, ?_⟩
      cases change with
      | same apps deployments | insertApp _ apps deployments | updateApp apps deployments
      | setActive apps deployments =>
          rw [deployments, before] at found
          cases found
      | deleteApp apps deployments => simp [deployments, before] at found
      | @insertDeployment thread call inserted choice fresh apps deployments =>
          rw [deployments] at found
          split at found
          · rename_i here
            cases found
            exact ⟨here.symm, thread, wrote_act ..⟩
          · rw [before] at found
            cases found
      | updateGitInfo apps deployments | updateStatus apps deployments =>
          rw [deployments, before] at found
          split at found <;> cases found
      | deleteDeployment apps deployments =>
          rw [deployments, before] at found
          split at found <;> cases found

/-- An app row either stays, or this event removed it. -/
theorem RowsChange.app_after (change : RowsChange w w' event) {id : Uuid} {row : AppRow}
    (found : app? w id = some row) :
    (∃ new, app? w' id = some new ∧ AppStep id row new event) ∨
      (app? w' id = none ∧ ∃ thread, Wrote thread (.deleteApp id) event) := by
  cases change with
  | same apps deployments | insertDeployment _ apps deployments | updateGitInfo apps deployments
  | updateStatus apps deployments | deleteDeployment apps deployments =>
      exact .inl ⟨row, by rw [apps, found], .refl row⟩
  | @insertApp thread call inserted creator choice fresh apps deployments =>
      by_cases here : id = inserted.id
      · rw [here, fresh] at found
        cases found
      · exact .inl ⟨row, by rw [apps, if_neg here, found], .refl row⟩
  | @updateApp thread call changed name envVars hostId choice apps deployments =>
      by_cases here : id = changed
      · subst here
        refine .inl ⟨row.change name envVars hostId, by rw [apps, if_pos rfl, found]; rfl,
          ⟨rfl, rfl, .inl rfl, ?_⟩⟩
        cases hostId with
        | none => exact .inl rfl
        | some hostId => exact .inr ⟨thread, name, envVars, wrote_act ..⟩
      · exact .inl ⟨row, by rw [apps, if_neg here, found], .refl row⟩
  | @setActive thread call changed deploymentId choice apps deployments =>
      by_cases here : id = changed
      · subst here
        exact .inl ⟨{ row with activeDeploymentId := some deploymentId },
          by rw [apps, if_pos rfl, found]; rfl,
          ⟨rfl, rfl, .inr ⟨thread, deploymentId, wrote_act .., rfl⟩, .inl rfl⟩⟩
      · exact .inl ⟨row, by rw [apps, if_neg here, found], .refl row⟩
  | @deleteApp thread call deleted choice apps deployments =>
      by_cases here : id = deleted
      · subst here
        exact .inr ⟨by rw [apps, if_pos rfl], thread, wrote_act ..⟩
      · exact .inl ⟨row, by rw [apps, if_neg here, found], .refl row⟩

/-- An app row either was there before, or this event inserted it. -/
theorem RowsChange.app_before (change : RowsChange w w' event) {id : Uuid} {row : AppRow}
    (found : app? w' id = some row) :
    (∃ old, app? w id = some old ∧ AppStep id old row event) ∨
      (app? w id = none ∧ row.id = id ∧
        ∃ thread creator, Wrote thread (.insertApp row creator) event) := by
  cases before : app? w id with
  | some old =>
      rcases change.app_after before with ⟨new, found', step⟩ | ⟨absent, _⟩
      · rw [found] at found'
        cases found'
        exact .inl ⟨old, rfl, step⟩
      · rw [found] at absent
        cases absent
  | none =>
      refine .inr ⟨rfl, ?_⟩
      cases change with
      | same apps deployments | insertDeployment _ apps deployments
      | updateGitInfo apps deployments | updateStatus apps deployments
      | deleteDeployment apps deployments =>
          rw [apps, before] at found
          cases found
      | @insertApp thread call inserted creator choice fresh apps deployments =>
          rw [apps] at found
          split at found
          · rename_i here
            cases found
            exact ⟨here.symm, thread, creator, wrote_act ..⟩
          · rw [before] at found
            cases found
      | updateApp apps deployments | setActive apps deployments | deleteApp apps deployments =>
          rw [apps, before] at found
          split at found <;> cases found

theorem RowsChange.app_gone (change : RowsChange w w' event) {thread : Nat} {id : Uuid}
    (wrote : Wrote thread (.deleteApp id) event) : app? w' id = none := by
  obtain ⟨call, choice, value, rfl⟩ := wrote
  cases change with
  | same _ _ silent => exact absurd trivial (silent _ _ (wrote_act ..))
  | deleteApp apps _ => rw [apps, if_pos rfl]

theorem RowsChange.deployment_gone (change : RowsChange w w' event) {thread : Nat} {id : Uuid}
    (wrote : Wrote thread (.deleteDeployment id) event) : deployment? w' id = none := by
  obtain ⟨call, choice, value, rfl⟩ := wrote
  cases change with
  | same _ _ silent => exact absurd trivial (silent _ _ (wrote_act ..))
  | deleteDeployment _ deployments => rw [deployments, if_pos rfl]

/-! Files, the write lock and the ids handed out. -/

theorem files_kept (moves : w.Moves (hub limit) event w') {path : Path} (has : Has w path)
    (kept : ∀ thread call action choice result root,
      event = .act thread call action choice result → action.Clears root → ¬ root <+: path) :
    Has w' path := by
  cases moves with
  | start _ | fork _ | finish _ | drop _ | restart => exact has
  | act member performed =>
      exact (perform_filesChange performed).has has
        (fun root clears => kept _ _ _ _ _ root rfl clears)

theorem owner_kept (moves : w.Moves (hub limit) event w') {id : Uuid} {thread : Nat}
    (owned : w.shared.owner id = some thread) : w'.shared.owner id = some thread := by
  cases moves with
  | start _ | fork _ | finish _ | drop _ | restart => exact owned
  | act member performed => exact (perform_coreChange performed).owner owned

theorem stager_kept (moves : w.Moves (hub limit) event w') (alive : event ≠ .restart)
    {seq thread : Nat} (drawn : w.shared.stager seq = some thread) :
    w'.shared.stager seq = some thread := by
  cases moves with
  | start _ | fork _ | finish _ | drop _ => exact drawn
  | restart => exact absurd rfl alive
  | act member performed => exact (perform_coreChange performed).stager drawn

theorem lock_kept (moves : w.Moves (hub limit) event w') {thread : Nat} (alive : event ≠ .restart)
    (other : event.thread ≠ some thread) (held : w.shared.lock = some thread) :
    w'.shared.lock = some thread := by
  cases moves with
  | start _ | fork _ | finish _ => exact held
  | restart => exact absurd rfl alive
  | drop member =>
      change (if w.shared.lock = some _ then none else w.shared.lock) = some thread
      rw [held, if_neg]
      exact fun same => other same.symm
  | act member performed =>
      exact (perform_coreChange performed).lock_kept held fun same => other (by rw [same]; rfl)

theorem perform_nowV7 {thread : Nat} {choice : Choice} {state state' : State} {id : Uuid}
    (performed : perform thread .nowV7 choice state = some (id, state')) :
    state.owner id = none ∧ state'.owner id = some thread ∧ state'.db = state.db := by
  simp only [perform] at performed
  split at performed <;> cases performed
  rename_i fresh
  simp only [not_or, Bool.not_eq_true, Option.isSome_eq_false_iff,
    Option.isNone_iff_eq_none] at fresh
  exact ⟨fresh.1, by simp [State.owner], rfl⟩

theorem perform_uniqueTmpPath {thread : Nat} {choice : Choice} {state state' : State}
    {label : String} {extension : Option String} {path : Path}
    (performed :
      perform thread (.uniqueTmpPath label extension) choice state = some (path, state')) :
    ∃ timestamp seq, path = tmpDir ++ [Component.staged label timestamp seq extension] ∧
      state'.stager seq = some thread := by
  cases Option.some.inj performed
  exact ⟨choice.number, _, rfl, by simp [State.stager]⟩

/-! What lookups answer. -/

theorem read_answer {thread : Nat} {call : Call} {q : Query} {choice : Choice} {value : q.Result}
    (read : q.IsRead = true)
    (moves : w.Moves (hub limit) (.act thread call (.query q) choice (.ok value)) w') :
    w'.shared = w.shared ∧ w.shared.db.exec q = some (value, w.shared.db) := by
  obtain ⟨db, executed, same⟩ := perform_query_ok (act_performed moves)
  have unchanged := Database.exec_read read executed
  subst unchanged
  exact ⟨same, executed⟩

theorem appById_answer {thread : Nat} {call : Call} {id : Uuid} {row : AppRow} {choice : Choice}
    (moves : w.Moves (hub limit) (.act thread call (.query (.appById id)) choice (.ok (some row))) w') :
    row.id = id ∧ app? w row.id = some row ∧ app? w' row.id = some row := by
  obtain ⟨same, executed⟩ := read_answer rfl moves
  have found : w.shared.db.app? id = some row := congrArg Prod.fst (Option.some.inj executed)
  have sameId := Database.app?_id found
  rw [app?, app?, same, sameId]
  exact ⟨rfl, found, found⟩

end Berth
