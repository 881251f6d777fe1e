import Berth.Rules

/-!
Which actions the functions of the hub can take at all, and what their lookups find.
-/

namespace Berth

open Interleave Interleave.Discipline Interleave.Fallible

variable {acts : Act → Prop} {calls : Call → Prop} {α : Type}

/-- The actions and forks of a fallible function are among these. -/
abbrev Takes (acts : Act → Prop) (calls : Call → Prop) (program : AsyncResult α) : Prop :=
  Program.Uses acts calls program.run

theorem takes_query {q : Query} (among : acts (.query q)) : Takes acts calls (query q) :=
  Program.uses_perform among

theorem takes_liftResult (result : AppResult α) : Takes acts calls (liftResult result) := by
  cases result <;> exact Program.uses_done _

theorem takes_requireGitSource (appRow : AppRow) : Takes acts calls (requireGitSource appRow) := by
  unfold requireGitSource
  cases appRow.source with
  | upload => exact uses_throw _
  | git gitSource => exact uses_pure _

theorem takes_requireInactive (appRow : AppRow) (deploymentId : String) :
    Takes acts calls (requireInactive appRow deploymentId) := by
  unfold requireInactive
  split
  · exact uses_throw _
  · exact uses_pure _

theorem takes_mapGiven {β : Type} {given : Option α} {body : α → AsyncResult β}
    (takes : ∀ value, Takes acts calls (body value)) : Takes acts calls (mapGiven given body) := by
  cases given with
  | none => exact uses_pure _
  | some value => exact uses_bind (takes value) fun _ => uses_pure _

section Lookups

variable (looks : ∀ action : Act, action.Looks → acts action)
include looks

theorem takes_read {q : Query} (read : q.IsRead = true) : Takes acts calls (query q) :=
  takes_query (looks _ read)

theorem takes_findAppRowById (appId : String) : Takes acts calls (findAppRowById appId) := by
  unfold findAppRowById
  split
  · exact uses_throw _
  · refine uses_bind (takes_read looks rfl) fun found => ?_
    cases found with
    | none => exact uses_throw _
    | some row => exact uses_pure _

theorem takes_findDeploymentRow (appId : Uuid) (deploymentId : String) :
    Takes acts calls (findDeploymentRow appId deploymentId) := by
  unfold findDeploymentRow
  split
  · exact uses_throw _
  · refine uses_bind (takes_read looks rfl) fun found => ?_
    cases found with
    | none => exact uses_throw _
    | some row => exact uses_pure _

theorem takes_findUserId (username : String) : Takes acts calls (findUserId username) := by
  refine uses_bind (takes_read looks rfl) fun found => ?_
  cases found with
  | none => exact uses_throw _
  | some user => exact uses_pure _

theorem takes_appFromRowWithPermissions (row : AppRow) :
    Takes acts calls (appFromRowWithPermissions row) :=
  uses_bind
    (uses_bind (takes_read looks rfl) fun _ =>
      uses_bind (takes_read looks rfl) fun _ => uses_pure _)
    fun _ => uses_pure _

theorem takes_getAppById (appId : String) : Takes acts calls (getAppById appId) :=
  uses_bind (takes_findAppRowById looks appId) fun row => takes_appFromRowWithPermissions looks row

theorem takes_listApps : Takes acts calls listApps :=
  uses_bind (takes_read looks rfl) fun _ => uses_collect (takes_appFromRowWithPermissions looks) _

theorem takes_listDeployments (appId : String) : Takes acts calls (listDeployments appId) :=
  uses_bind (takes_findAppRowById looks appId) fun _ =>
    uses_bind (takes_read looks rfl) fun _ => uses_pure _

theorem takes_getDeployment (appId deploymentId : String) :
    Takes acts calls (getDeployment appId deploymentId) :=
  uses_bind (takes_findAppRowById looks appId) fun row =>
    uses_bind (takes_findDeploymentRow looks row.id deploymentId) fun _ => uses_pure _

theorem takes_activeDeploymentId (appId : String) :
    Takes acts calls (activeDeploymentId appId) := by
  refine uses_bind (uses_attempt (takes_findAppRowById looks appId)) fun outcome => ?_
  cases outcome with
  | ok row => exact uses_pure _
  | error err => exact uses_pure _

theorem takes_containerNameOf (appId deploymentId : String) :
    Takes acts calls (containerNameOf appId deploymentId) := by
  refine uses_bind (uses_attempt (takes_getDeployment looks appId deploymentId)) fun outcome => ?_
  cases outcome with
  | ok deployment => exact uses_pure _
  | error err => exact uses_pure _

theorem takes_resolveEnvVarInputs (inputs : List EnvVarInput) (existing : List EnvVar) :
    Takes acts calls (resolveEnvVarInputs inputs existing) := by
  refine uses_collect (fun input => ?_) inputs
  unfold resolveEnvVarInput
  split
  · exact uses_pure _
  · split
    · exact uses_bind (Program.uses_perform (looks (.encrypt _) trivial)) fun _ => uses_pure _
    · exact uses_throw _
  · split
    · exact uses_pure _
    · exact uses_throw _

theorem takes_decryptEnvVars (envVars : List EnvVar) :
    Takes acts calls (decryptEnvVars envVars) := by
  refine uses_collect (fun envVar => ?_) envVars
  unfold decryptEnvVar
  split
  · exact uses_pure _
  · exact uses_bind (Program.uses_perform (looks (.decrypt _) trivial)) fun _ => uses_pure _

theorem takes_validateHostId (hostId : Int) : Takes acts calls (validateHostId hostId) := by
  refine uses_bind (takes_read looks rfl) fun found => ?_
  cases found with
  | none => exact uses_throw _
  | some host =>
      by_cases revoked : host.revoked = true
      · simp only [revoked, if_true]
        exact uses_throw _
      · simp only [revoked, Bool.false_eq_true, if_false]
        exact uses_pure _

theorem takes_requireFreeName (name : String) : Takes acts calls (requireFreeName name) := by
  refine uses_bind (takes_read looks rfl) fun found => ?_
  cases found with
  | none => exact uses_pure _
  | some row => exact uses_throw _

theorem takes_findCreatorId (creator : Option String) :
    Takes acts calls (findCreatorId creator) := by
  cases creator with
  | none => exact uses_pure _
  | some username => exact uses_bind (takes_findUserId looks username) fun _ => uses_pure _

theorem takes_validateRename (row : AppRow) (name : String) :
    Takes acts calls (validateRename row name) := by
  unfold validateRename
  split
  · exact uses_pure _
  · exact uses_bind (takes_liftResult _) fun _ => takes_requireFreeName looks name

theorem takes_requireNonePending (appRow : AppRow) :
    Takes acts calls (requireNonePending appRow) := by
  refine uses_bind (takes_read looks rfl) fun rows => ?_
  split
  · exact uses_throw _
  · exact uses_pure _

theorem takes_resolveGrant (permission : AppPermission) :
    Takes acts calls (resolveGrant permission) :=
  uses_bind (takes_findUserId looks _) fun _ => uses_pure _

end Lookups

/-! Requests to agents. -/

theorem takes_ask {host : Int} {request : Request} (among : acts (.agent host request)) :
    Takes acts calls (ask host request) := Program.uses_perform among

theorem takes_command {toAppError : AgentError → AppError}
    {reply : AsyncResult (Except AgentError α)} (takes : Takes acts calls reply) :
    Takes acts calls (command toAppError reply) := by
  refine uses_bind takes fun outcome => ?_
  cases outcome with
  | ok value => exact uses_pure _
  | error err => exact uses_throw _

theorem takes_removeFromAgent (asks : ∀ host request, acts (.agent host request)) (hostId : Int)
    (deploymentId : String) (name : Option String) :
    Takes acts calls (removeFromAgent hostId deploymentId name) := by
  cases name with
  | none => exact uses_pure _
  | some name =>
      exact uses_bind (takes_command (takes_ask (asks _ _))) fun _ =>
        takes_command (takes_ask (asks _ _))

theorem takes_stopDeployment (asks : ∀ host request, acts (.agent host request)) (hostId : Int)
    (deployment : Deployment) : Takes acts calls (stopDeployment hostId deployment) := by
  unfold stopDeployment
  cases deployment.containerName with
  | none => exact uses_pure _
  | some name => exact takes_command (takes_ask (asks _ _))

section Asking

variable (looks : ∀ action : Act, action.Looks → acts action)
variable (asks : ∀ host request, acts (.agent host request))
include looks asks

theorem takes_stopPrevious (app : App) (appId deploymentId : String) :
    Takes acts calls (stopPrevious app appId deploymentId) := by
  refine uses_bind (takes_activeDeploymentId looks appId) fun active => ?_
  cases active with
  | none => exact uses_pure _
  | some previousId =>
      by_cases different : previousId ≠ deploymentId
      · simp only [if_pos different]
        refine uses_bind (uses_attempt (takes_getDeployment looks appId previousId)) fun outcome => ?_
        cases outcome with
        | error err => exact uses_pure _
        | ok previous =>
            dsimp only
            cases previous.containerName with
            | none => exact uses_pure _
            | some name =>
                exact uses_bind (uses_attempt (takes_command (takes_ask (asks _ _))))
                  fun _ => uses_pure _
      · simp only [if_neg different]
        exact uses_pure _

theorem takes_startAndReplace (app : App) (runConfig : RunConfig) (appId deploymentId : String) :
    Takes acts calls (startAndReplace app runConfig appId deploymentId) := by
  refine uses_bind (takes_getDeployment looks appId deploymentId) fun deployment => ?_
  cases deployment.containerName with
  | none => exact uses_throw _
  | some name =>
      exact uses_bind (takes_decryptEnvVars looks app.envVars) fun _ =>
        uses_bind (takes_command (takes_ask (asks _ _))) fun _ =>
          takes_stopPrevious looks asks app appId deploymentId

theorem takes_startIfRun (app : App) (appId deploymentId : String) :
    Takes acts calls (startIfRun app appId deploymentId) := by
  unfold startIfRun
  cases app.runConfig with
  | none => exact uses_pure _
  | some runConfig => exact takes_startAndReplace looks asks app runConfig appId deploymentId

theorem takes_runBuild (app : App) (deploymentId : String) (mode : GitDeployMode) :
    Takes acts calls (runBuild app deploymentId mode) := by
  cases mode with
  | static _ | run _ => exact uses_pure _
  | build build =>
      exact uses_bind (takes_decryptEnvVars looks _) fun _ => takes_command (takes_ask (asks _ _))

end Asking

/-! What runs when an agent connects, short of the sweep. -/

theorem takes_reconcileApp (looks : ∀ action : Act, action.Looks → acts action)
    (starts : ∀ host id name runConfig envVars,
      acts (.agent host (.startRunContainer id name runConfig envVars))) (app : App) :
    Takes acts calls (reconcileApp app) := by
  unfold reconcileApp
  cases app.runConfig with
  | none => exact uses_pure _
  | some runConfig =>
      refine uses_bind (takes_activeDeploymentId looks app.id) fun active => ?_
      cases active with
      | none => exact uses_pure _
      | some deploymentId =>
          refine uses_bind (takes_getDeployment looks app.id deploymentId) fun deployment => ?_
          cases deployment.containerName with
          | none => exact uses_pure _
          | some name =>
              exact uses_bind (takes_decryptEnvVars looks app.envVars) fun _ =>
                takes_command (takes_ask (starts _ _ _ _ _))

theorem uses_reconcileRunModeContainers (looks : ∀ action : Act, action.Looks → acts action)
    (starts : ∀ host id name runConfig envVars,
      acts (.agent host (.startRunContainer id name runConfig envVars))) :
    reconcileRunModeContainers.Uses acts calls := by
  refine (takes_listApps looks).bind fun outcome => ?_
  cases outcome with
  | error err => trivial
  | ok apps =>
      exact Program.uses_forEach
        (fun app => (takes_reconcileApp looks starts app).bind fun _ => Program.uses_done _) apps

theorem takes_setDeploymentStatus (looks : ∀ action : Act, action.Looks → acts action)
    (sets : ∀ id status failureError, acts (.query (.updateStatus id status failureError)))
    (appId deploymentId : String) (status : DeploymentStatus) :
    Takes acts calls (setDeploymentStatus appId deploymentId status) :=
  uses_bind (takes_findAppRowById looks _) fun _ =>
    uses_bind (takes_findDeploymentRow looks _ _) fun _ => takes_query (sets _ _ _)

theorem uses_failPendingDeployment (looks : ∀ action : Act, action.Looks → acts action)
    (stops : ∀ host name isInstall, acts (.agent host (.stopAndRemoveContainer name isInstall)))
    (sets : ∀ id status failureError, acts (.query (.updateStatus id status failureError)))
    (app : App) (deployment : Deployment) :
    (failPendingDeployment app deployment).Uses acts calls := by
  unfold failPendingDeployment
  split
  · trivial
  · split
    · refine (takes_command (takes_ask (stops _ _ _))).bind fun _ => ?_
      exact (takes_setDeploymentStatus looks sets _ _ _).bind fun _ => trivial
    · exact (takes_setDeploymentStatus looks sets _ _ _).bind fun _ => trivial

theorem uses_failPendingDeploymentsOf (looks : ∀ action : Act, action.Looks → acts action)
    (stops : ∀ host name isInstall, acts (.agent host (.stopAndRemoveContainer name isInstall)))
    (sets : ∀ id status failureError, acts (.query (.updateStatus id status failureError)))
    (app : App) : (failPendingDeploymentsOf app).Uses acts calls := by
  refine (takes_listDeployments looks app.id).bind fun outcome => ?_
  cases outcome with
  | error err => trivial
  | ok deployments =>
      exact Program.uses_forEach (uses_failPendingDeployment looks stops sets app) deployments

theorem uses_failPendingDeployments (looks : ∀ action : Act, action.Looks → acts action)
    (stops : ∀ host name isInstall, acts (.agent host (.stopAndRemoveContainer name isInstall)))
    (sets : ∀ id status failureError, acts (.query (.updateStatus id status failureError))) :
    failPendingDeployments.Uses acts calls := by
  refine (takes_listApps looks).bind fun outcome => ?_
  cases outcome with
  | error err => trivial
  | ok apps => exact Program.uses_forEach (uses_failPendingDeploymentsOf looks stops sets) apps

/-! Files. -/

section Files

variable (files : ∀ action : Act, action.OnFiles → acts action)
include files

theorem takes_createDir (path : Path) : Takes acts calls (createDir path) :=
  Program.uses_perform (files _ trivial)

theorem takes_rename (source target : Path) : Takes acts calls (rename source target) :=
  Program.uses_perform (files _ trivial)

theorem takes_removeDirAll (path : Path) : Takes acts calls (removeDirAll path) :=
  Program.uses_perform (files _ trivial)

theorem uses_removeDirAllLogged (path : Path) :
    (removeDirAllLogged path).Uses acts calls :=
  (takes_removeDirAll files path).bind fun _ => Program.uses_done _

theorem uses_removeFileLogged (path : Path) : (removeFileLogged path).Uses acts calls :=
  (Program.uses_perform (files (.removeFile path) trivial)).bind fun _ => Program.uses_done _

end Files

/-! Preparing the content of a git deployment, in its staging directory. -/

section Staging

variable (removes : ∀ path, acts (.removeDirAll path))

theorem takes_resolvePublishDir (probes : ∀ path, acts (.pathExists path)) (checkoutDir : Path)
    (publishDir : Option String) :
    Takes acts calls (resolvePublishDir checkoutDir publishDir) := by
  unfold resolvePublishDir
  split
  · exact uses_pure _
  · split
    · exact uses_throw _
    · refine uses_bind (uses_lift (Program.uses_perform (probes _))) fun there => ?_
      cases there with
      | true => exact uses_pure _
      | false => exact uses_throw _

include removes

theorem takes_placeContent {staging : Path} (probes : ∀ path, acts (.pathExists path))
    (moves : ∀ source, acts (.rename source (staging ++ [.text "files"]))) (checkoutDir : Path)
    (mode : GitDeployMode) : Takes acts calls (placeContent staging checkoutDir mode) := by
  cases mode with
  | run config => exact Program.uses_perform (moves _)
  | static _ | build _ =>
      exact uses_bind (takes_resolvePublishDir probes _ _) fun _ =>
        uses_bind (Program.uses_perform (moves _)) fun _ =>
        uses_lift ((Program.uses_perform (removes _)).bind fun _ => Program.uses_done _)

theorem takes_cloneRepo {staging : Path} {gitSource : GitSource} (creates : acts (.createDir staging))
    (clones : acts (.cloneShallow gitSource (staging ++ [.text "_checkout"]))) :
    Takes acts calls (cloneRepo staging gitSource) :=
  uses_bind (Program.uses_perform creates) fun _ => uses_bind (Program.uses_perform clones) fun _ =>
    uses_bind (Program.uses_perform (removes _)) fun _ => uses_pure _

theorem takes_cloneWithTimeout {staging : Path} {gitSource : GitSource}
    (elapses : acts .timeoutElapsed) (creates : acts (.createDir staging))
    (clones : acts (.cloneShallow gitSource (staging ++ [.text "_checkout"]))) :
    Takes acts calls (cloneWithTimeout staging gitSource) := by
  refine uses_bind (uses_attempt (takes_cloneRepo removes creates clones)) fun result =>
    uses_bind (uses_lift (Program.uses_perform elapses)) fun elapsed => ?_
  cases elapsed with
  | true => exact uses_throw _
  | false => exact takes_liftResult result

end Staging

/-! The work of an executor, before it activates and settles its deployment. -/

def Act.Prepares (action : Act) : Prop :=
  action.Looks ∨ action.OnFiles ∨ (∃ host request, action = .agent host request) ∨
    (∃ label extension, action = .uniqueTmpPath label extension) ∨ action = .timeoutElapsed ∨
    ∃ id gitInfo buildInfo size, action = .query (.updateGitInfo id gitInfo buildInfo size)

section Preparing

variable (prepares : ∀ action : Act, action.Prepares → acts action)
include prepares

theorem prepares_looks (action : Act) (looks : action.Looks) : acts action :=
  prepares _ (.inl looks)

theorem prepares_files (action : Act) (files : action.OnFiles) : acts action :=
  prepares _ (.inr (.inl files))

theorem prepares_asks (host : Int) (request : Request) : acts (.agent host request) :=
  prepares _ (.inr (.inr (.inl ⟨_, _, rfl⟩)))

theorem takes_uniqueTmpPath (label : String) (extension : Option String) :
    Takes acts calls (uniqueTmpPath label extension) :=
  uses_lift (Program.uses_perform (prepares _ (.inr (.inr (.inr (.inl ⟨_, _, rfl⟩))))))

theorem takes_finishGitDeployment (staging checkoutDir : Path) (appId deploymentId : String)
    (gitSource : GitSource) (commitSha : String) :
    Takes acts calls
      (finishGitDeployment staging checkoutDir appId deploymentId gitSource commitSha) := by
  have looks := prepares_looks prepares
  have files := prepares_files prepares
  refine uses_bind (takes_placeContent (fun _ => files _ trivial) (fun _ => files _ trivial)
    (fun _ => files _ trivial) _ _) fun _ =>
    uses_bind (Program.uses_perform (files (.dirSizeBytes _) trivial)) fun _ =>
    uses_bind (takes_findAppRowById looks _) fun _ => uses_bind (takes_rename files _ _) fun _ =>
    uses_bind (takes_findDeploymentRow looks _ _) fun _ => uses_bind (takes_query ?_) fun _ =>
    uses_lift (uses_removeDirAllLogged files _)
  exact prepares _ (.inr (.inr (.inr (.inr (.inr ⟨_, _, _, _, rfl⟩)))))

theorem takes_prepareGitDeployment (app : App) (staging : Path) (appId deploymentId : String)
    (gitSource : GitSource) :
    Takes acts calls (prepareGitDeployment app staging appId deploymentId gitSource) := by
  have files := prepares_files prepares
  have clones : Takes acts calls (cloneWithTimeout staging gitSource) :=
    takes_cloneWithTimeout (fun _ => files _ trivial)
      (prepares _ (.inr (.inr (.inr (.inr (.inl rfl)))))) (files _ trivial) (files _ trivial)
  exact uses_onError
    (uses_bind clones fun _ =>
      uses_bind (takes_runBuild (prepares_looks prepares) (prepares_asks prepares) _ _ _) fun _ =>
      takes_finishGitDeployment prepares _ _ _ _ _ _)
    (uses_removeDirAllLogged files _)

theorem takes_shipIfRun (appId deploymentId : String) (mode : GitDeployMode) :
    Takes acts calls (shipIfRun appId deploymentId mode) := by
  have asks := prepares_asks prepares
  have files := prepares_files prepares
  cases mode with
  | static _ | build _ => exact uses_pure _
  | run config =>
      exact uses_bind (takes_findAppRowById (prepares_looks prepares) _) fun _ =>
        uses_bind (takes_uniqueTmpPath prepares _ _) fun _ =>
        uses_bind (Program.uses_perform (files (.zipDir _ _) trivial)) fun _ =>
        uses_bind (uses_attempt (uses_bind (takes_command (takes_ask (asks _ _))) fun _ =>
          takes_command (takes_ask (asks _ _)))) fun result =>
        uses_bind (uses_lift (uses_removeFileLogged files _)) fun _ => takes_liftResult result

end Preparing

section Locking

variable (lock : acts .lock) (unlock : acts .unlock)
include lock unlock

theorem takes_withWriteLock {body : AsyncResult α} (takes : Takes acts calls body) :
    Takes acts calls (withWriteLock body) :=
  (Program.uses_perform lock).bind fun _ => takes.bind fun _ =>
    (Program.uses_perform unlock).bind fun _ => Program.uses_done _

theorem takes_activateDeployment (looks : ∀ action : Act, action.Looks → acts action)
    (sets : ∀ appId id, acts (.query (.setActiveDeployment appId id)))
    (appId deploymentId : String) : Takes acts calls (activateDeployment appId deploymentId) :=
  takes_withWriteLock lock unlock (uses_bind (takes_findAppRowById looks _) fun _ =>
    uses_bind (takes_findDeploymentRow looks _ _) fun _ => takes_query (sets _ _))

theorem takes_activateWithContainers (looks : ∀ action : Act, action.Looks → acts action)
    (asks : ∀ host request, acts (.agent host request))
    (sets : ∀ appId id, acts (.query (.setActiveDeployment appId id)))
    (appId deploymentId : String) :
    Takes acts calls (activateWithContainers appId deploymentId) :=
  uses_bind (takes_getAppById looks _) fun app =>
    uses_bind (takes_startIfRun looks asks app _ _) fun _ =>
      takes_activateDeployment lock unlock looks sets _ _

theorem takes_createPendingGitDeployment (looks : ∀ action : Act, action.Looks → acts action)
    (files : ∀ action : Act, action.OnFiles → acts action) (draws : acts .nowV7)
    (inserts : ∀ row, acts (.query (.insertDeployment row))) (appId : String) :
    Takes acts calls (createPendingGitDeployment appId) := by
  exact takes_withWriteLock lock unlock (uses_bind (takes_findAppRowById looks _) fun appRow =>
    uses_bind (takes_requireGitSource appRow) fun _ =>
    uses_bind (takes_requireNonePending looks appRow) fun _ =>
    uses_bind (uses_lift (Program.uses_perform draws)) fun _ =>
    uses_bind (takes_createDir files _) fun _ =>
    uses_bind (takes_query (inserts _)) fun _ => uses_pure _)

end Locking

/-! What lookups answer. Each lemma keeps an assertion `fact` that survives looking things up. -/

section Answers

variable {limit thread : Nat} {call : Call} {D : Discipline Act Act.Res Call Reply State Choice}
variable {fact : HubWorld → Prop} {w : HubWorld}
variable (free : Free (hub limit) D thread call acts fun _ => False)
variable (frame : Frame (hub limit) D thread call acts (fun _ => False) fact)
include free frame

theorem safe_looks {program : AsyncResult α}
    (takes : Takes acts (fun _ => False) program) (holds : fact w) :
    Safe (hub limit) D thread call program.run (fun _ w' => fact w') w :=
  Safe.frame takes free frame holds

theorem safe_read {q : Query} {post : AppResult q.Result → HubWorld → Prop}
    (among : acts (.query q)) (read : q.IsRead = true) (holds : fact w)
    (ok : ∀ w₀ w' choice value, fact w' → D.Ready thread call w' →
      w₀.Moves (hub limit) (.act thread call (.query q) choice (.ok value)) w' →
      D.Allowed w₀ (.act thread call (.query q) choice (.ok value)) →
      w'.shared.db.exec q = some (value, w'.shared.db) → post (.ok value) w')
    (error : ∀ w₀ w' choice err, fact w' → D.Ready thread call w' →
      w₀.Moves (hub limit) (.act thread call (.query q) choice (.error err)) w' →
      D.Allowed w₀ (.act thread call (.query q) choice (.error err)) → post (.error err) w') :
    Safe (hub limit) D thread call (query q).run post w := by
  refine Safe.perform frame.stable holds fun w₀ choice result w' before ready moves allowed => ?_
  have permit := free w₀ _ w' (.act among) ready moves allowed
  refine ⟨permit, fun readyAfter => ?_⟩
  have after := frame.own w₀ _ w' (.act among) before ready readyAfter moves allowed permit
  cases result with
  | error err => exact error w₀ w' choice err after readyAfter moves allowed
  | ok value =>
      obtain ⟨same, executed⟩ := read_answer read moves
      exact ok w₀ w' choice value after readyAfter moves allowed (same ▸ executed)

theorem safe_findAppRowById {appId : String} (among : ∀ id, acts (.query (.appById id)))
    (holds : fact w) :
    Safe (hub limit) D thread call (findAppRowById appId).run
      (Outcome (fun row w' => fact w' ∧ Uuid.parseStr appId = some row.id ∧
        app? w' row.id = some row) fun _ w' => fact w') w := by
  unfold findAppRowById
  split
  · exact holds
  · rename_i id parsed
    refine Safe.bindE (safe_read free frame (among _) rfl holds ?_
      fun _ _ _ _ after _ _ _ => after)
    intro _ w' _ found after _ _ _ executed
    cases executed
    cases there : w'.shared.db.app? id with
    | none => exact after
    | some row =>
        have sameId := Database.app?_id there
        exact ⟨after, sameId ▸ parsed, sameId ▸ there⟩

theorem safe_findDeploymentRow {appId : Uuid} {deploymentId : String}
    (among : ∀ id, acts (.query (.deploymentById id appId))) (holds : fact w) :
    Safe (hub limit) D thread call (findDeploymentRow appId deploymentId).run
      (Outcome (fun row w' => fact w' ∧ Uuid.parseStr deploymentId = some row.id ∧
        deployment? w' row.id = some row ∧ row.appId = appId) fun _ w' => fact w') w := by
  unfold findDeploymentRow
  split
  · exact holds
  · rename_i id parsed
    refine Safe.bindE (safe_read free frame (among _) rfl holds ?_
      fun _ _ _ _ after _ _ _ => after)
    intro _ w' _ found after _ _ _ executed
    cases executed
    cases there : (w'.shared.db.deployment? id).filter fun row => row.appId = appId with
    | none => exact after
    | some row =>
        obtain ⟨there, inApp⟩ := Option.filter_eq_some_iff.1 there
        have sameId := Database.deployment?_id there
        exact ⟨after, sameId ▸ parsed, sameId ▸ there, by simpa using inApp⟩

variable (fact) in
omit free frame in
theorem safe_requireInactive {appRow : AppRow} {deploymentId : String} (holds : fact w) :
    Safe (hub limit) D thread call (requireInactive appRow deploymentId).run
      (Outcome (fun _ w' => fact w' ∧
          appRow.activeDeploymentId.map Uuid.toString ≠ some deploymentId)
        fun err w' => fact w' ∧ err = .deleteActiveDeployment ∧
          appRow.activeDeploymentId.map Uuid.toString = some deploymentId) w := by
  unfold requireInactive
  by_cases isActive : appRow.activeDeploymentId.map Uuid.toString = some deploymentId
  · rw [if_pos isActive]
    exact ⟨holds, rfl, isActive⟩
  · rw [if_neg isActive]
    exact ⟨holds, isActive⟩

theorem safe_requireNonePending {appRow : AppRow}
    (among : acts (.query (.deploymentsOf appRow.id))) (holds : fact w) :
    Safe (hub limit) D thread call (requireNonePending appRow).run
      (Outcome (fun _ w' => fact w' ∧ NonePending w' appRow.id) fun _ w' => fact w') w := by
  refine Safe.bindE (safe_read free frame among rfl holds ?_
      fun _ _ _ _ after _ _ _ => after)
  intro _ w' _ rows after _ _ _ executed
  cases executed
  dsimp only [Outcome]
  split
  · exact after
  · rename_i pending
    refine ⟨after, fun id row found inApp isPending => pending ?_⟩
    have sameId := Database.deployment?_id found
    exact List.any_eq_true.2
      ⟨row, Database.mem_deploymentsOf.2 ⟨sameId ▸ found, inApp⟩, by simpa using isPending⟩

end Answers

end Berth
