import Berth.Authority

/-!
Where the grants of a hub come from. Only two writes add any: the creation of an app, which grants
`Write` to the member who creates it, and the replacement of an app's grants.
-/

namespace Berth

open Interleave Interleave.Fallible
open Auth (CurrentUser)

/-! Programs that add no grants. -/

def Act.GrantsNothing : Act → Prop
  | .query (.insertApp _ _) | .query (.replacePermissions _ _) => False
  | _ => True

theorem looks_grantNothing (action : Act) (looks : action.Looks) : action.GrantsNothing := by
  cases action with
  | query q => cases q <;> trivial
  | _ => trivial

theorem files_grantNothing (action : Act) (onFiles : action.OnFiles) : action.GrantsNothing := by
  cases action with
  | query q => exact onFiles.elim
  | _ => trivial

theorem locks_grantNothing (action : Act) (locks : action.Locks) : action.GrantsNothing := by
  cases action with
  | query q => exact locks.elim
  | _ => trivial

theorem prepares_grantNothing (action : Act) (prepares : action.Prepares) :
    action.GrantsNothing := by
  rcases prepares with looks | files | ⟨_, _, rfl⟩ | ⟨_, _, rfl⟩ | rfl | ⟨_, _, _, _, rfl⟩
  · exact looks_grantNothing action looks
  · exact files_grantNothing action files
  all_goals trivial

/-- The program adds no grants. -/
abbrev AddsNone {α : Type} (program : AsyncResult α) : Prop :=
  Takes Act.GrantsNothing (fun _ => True) program

section Quiet

variable {α : Type}

theorem addsNone_withWriteLock {body : AsyncResult α} (adds : AddsNone body) :
    AddsNone (withWriteLock body) := takes_withWriteLock trivial trivial adds

theorem addsNone_uniqueTmpPath (label : String) (extension : Option String) :
    AddsNone (uniqueTmpPath label extension) := takes_uniqueTmpPath prepares_grantNothing _ _

theorem addsNone_findAppRowById (appText : String) : AddsNone (findAppRowById appText) :=
  takes_findAppRowById looks_grantNothing _

theorem addsNone_findDeploymentRow (appId : Uuid) (text : String) :
    AddsNone (findDeploymentRow appId text) := takes_findDeploymentRow looks_grantNothing _ _

theorem addsNone_activateDeployment (appText text : String) :
    AddsNone (activateDeployment appText text) :=
  takes_activateDeployment trivial trivial looks_grantNothing (fun _ _ => trivial) _ _

theorem addsNone_activateWithContainers (appText text : String) :
    AddsNone (activateWithContainers appText text) :=
  takes_activateWithContainers trivial trivial looks_grantNothing (fun _ _ => trivial)
    (fun _ _ => trivial) _ _

theorem addsNone_setDeploymentStatus (appText text : String) (status : DeploymentStatus) :
    AddsNone (setDeploymentStatus appText text status) :=
  takes_setDeploymentStatus looks_grantNothing (fun _ _ _ => trivial) _ _ _

theorem addsNone_updateApp (appText : String) (name : Option String)
    (envVars : Option (List EnvVarInput)) (hostId : Option Int) :
    AddsNone (updateApp appText name envVars hostId) := by
  have looks := looks_grantNothing
  exact uses_bind (takes_mapGiven fun _ => takes_liftResult _) fun _ =>
    uses_bind (addsNone_findAppRowById _) fun _ =>
    uses_bind (takes_mapGiven fun _ => takes_resolveEnvVarInputs looks _ _) fun _ =>
    uses_bind (takes_mapGiven fun _ => takes_validateHostId looks _) fun _ =>
    uses_bind (takes_mapGiven fun _ => takes_validateRename looks _ _) fun _ =>
    uses_bind (takes_query trivial) fun _ => takes_appFromRowWithPermissions looks _

theorem addsNone_deleteApp (appText : String) : AddsNone (deleteApp appText) := by
  have files := files_grantNothing
  exact addsNone_withWriteLock <| uses_bind (addsNone_findAppRowById _) fun _ =>
    uses_bind (takes_query trivial) fun _ => uses_bind (addsNone_uniqueTmpPath _ _) fun _ =>
    uses_bind (takes_rename files _ _) fun _ => takes_removeDirAll files _

theorem addsNone_deleteAppWithContainers (appText : String) :
    AddsNone (deleteAppWithContainers appText) := by
  have looks := looks_grantNothing
  exact uses_bind (takes_getAppById looks _) fun _ =>
    uses_bind (takes_listDeployments looks _) fun deployments =>
    uses_bind (uses_forEach (takes_stopDeployment (fun _ _ => trivial) _) deployments) fun _ =>
      addsNone_deleteApp _

theorem addsNone_deleteDeployment (appText text : String) :
    AddsNone (deleteDeployment appText text) := by
  have files := files_grantNothing
  have removes : AddsNone (removeDeploymentRow appText text) :=
    uses_bind (addsNone_findAppRowById _) fun _ => uses_bind (takes_requireInactive _ _) fun _ =>
    uses_bind (addsNone_findDeploymentRow _ _) fun _ => uses_bind (takes_query trivial) fun _ =>
    uses_pure _
  exact uses_bind (addsNone_withWriteLock removes) fun _ =>
    uses_bind (addsNone_uniqueTmpPath _ _) fun _ =>
    uses_bind (uses_attempt (takes_rename files _ _)) fun _ =>
    uses_bind (takes_liftResult _) fun _ => takes_removeDirAll files _

theorem addsNone_deleteDeploymentWithContainers (appText text : String) :
    AddsNone (deleteDeploymentWithContainers appText text) := by
  have looks := looks_grantNothing
  exact uses_bind (takes_getAppById looks _) fun _ =>
    uses_bind (takes_containerNameOf looks _ _) fun _ =>
    uses_bind (addsNone_deleteDeployment _ _) fun _ =>
      takes_removeFromAgent (fun _ _ => trivial) _ _ _

theorem addsNone_createDeployment (appText : String) (zipPath : Path)
    (originalFilename : Option String) (size : Nat) :
    AddsNone (createDeployment appText zipPath originalFilename size) :=
  takes_createDeployment trivial trivial prepares_grantNothing trivial (fun _ _ _ _ => trivial)
    (fun _ _ => trivial) _ _ _ _

theorem addsNone_uploadDeployment (appText : String) (fields : List Field) (limit : Nat) :
    AddsNone (uploadDeployment appText fields limit) :=
  takes_uploadDeployment trivial trivial prepares_grantNothing trivial (fun _ _ _ _ => trivial)
    (fun _ _ => trivial) _ _ _

theorem addsNone_createPendingGitDeployment (appText : String) :
    AddsNone (createPendingGitDeployment appText) :=
  takes_createPendingGitDeployment trivial trivial looks_grantNothing files_grantNothing trivial
    (fun _ => trivial) _

theorem addsNone_startGitDeployment (appText : String) : AddsNone (startGitDeployment appText) :=
  uses_bind (addsNone_createPendingGitDeployment _) fun _ =>
    uses_bind (uses_lift (Program.uses_spawn trivial)) fun _ => uses_pure _

theorem uses_runGitDeployment (appText text : String) (gitSource : GitSource) :
    (runGitDeployment appText text gitSource).Uses Act.GrantsNothing fun _ => True := by
  have prepares := prepares_grantNothing
  have executes : AddsNone (executeGitDeployment appText text gitSource) :=
    uses_bind (takes_getAppById looks_grantNothing _) fun app =>
      uses_bind (addsNone_uniqueTmpPath _ _) fun _ =>
      uses_bind (takes_prepareGitDeployment prepares app _ _ _ _) fun _ =>
      uses_bind (takes_shipIfRun prepares _ _ _) fun _ =>
      uses_bind (addsNone_activateWithContainers _ _) fun _ => addsNone_setDeploymentStatus _ _ _
  refine executes.bind fun outcome => ?_
  cases outcome with
  | ok value => exact Program.uses_done _
  | error err => exact (addsNone_setDeploymentStatus _ _ _).bind fun _ => Program.uses_done _

theorem uses_onAgentConnected : onAgentConnected.Uses Act.GrantsNothing fun _ => True := by
  have looks := looks_grantNothing
  have sweepsDir (host : Int) (valid : List Uuid) (text : String) :
      (sweepAgentDir host valid text).Uses Act.GrantsNothing fun _ => True := by
    unfold sweepAgentDir
    split
    · trivial
    · split
      · trivial
      · exact (takes_command (takes_ask trivial)).bind fun _ => trivial
  have sweepsHost (valid : List Uuid) (host : Int) :
      (sweepAgentDirsOnHost valid host).Uses Act.GrantsNothing fun _ => True := by
    refine (takes_command (takes_ask trivial)).bind fun outcome => ?_
    cases outcome with
    | error err => trivial
    | ok ids => exact Program.uses_forEach (sweepsDir host valid) ids
  have sweeps : sweepAgentOrphanedDeploymentDirs.Uses Act.GrantsNothing fun _ => True := by
    have reads : AddsNone (query .allDeployments) := takes_query trivial
    refine reads.bind fun outcome => ?_
    cases outcome with
    | error err => trivial
    | ok rows =>
        exact Program.Uses.bind (Program.uses_perform trivial) fun hosts =>
          Program.uses_forEach (sweepsHost _) hosts
  exact Program.Uses.bind
    (uses_failPendingDeployments looks (fun _ _ _ => trivial) fun _ _ _ => trivial) fun _ =>
    Program.Uses.bind (uses_reconcileRunModeContainers looks fun _ _ _ _ _ => trivial) fun _ =>
      sweeps

theorem addsNone_readDirOrEmpty (path : Path) : AddsNone (readDirOrEmpty path) := by
  refine uses_bind (uses_attempt (Program.uses_perform trivial)) fun outcome => ?_
  split
  · exact uses_pure _
  · split
    · exact uses_pure _
    · exact uses_throw _
  · exact uses_throw _

theorem addsNone_sweepEntry {valid : List Uuid} {directory : Path} {entry : Component}
    {keep : AsyncResult Unit} (keeps : AddsNone keep) :
    AddsNone (sweepEntry valid directory entry keep) := by
  unfold sweepEntry
  split
  · exact uses_pure _
  · split
    · exact keeps
    · exact takes_removeDirAll files_grantNothing _

theorem addsNone_startup : AddsNone startup := by
  have creates (path : Path) : AddsNone (createDirAll path) := Program.uses_perform trivial
  have sweepsTmp : AddsNone sweepTmpDir := by
    refine uses_bind (uses_lift (Program.uses_perform trivial)) fun there => ?_
    cases there with
    | true =>
        exact uses_bind (takes_removeDirAll files_grantNothing _) fun _ => creates tmpDir
    | false => exact creates tmpDir
  have sweepsBelow (name : Component) (id : Uuid) :
      AddsNone (sweepOrphanedDeploymentDirs name id) :=
    uses_bind (takes_read looks_grantNothing rfl) fun _ =>
      uses_bind (addsNone_readDirOrEmpty _) fun entries =>
      uses_forEach (fun _ => addsNone_sweepEntry (uses_pure ())) entries
  have sweeps : AddsNone sweepOrphanedDirs := by
    refine uses_bind (takes_read looks_grantNothing rfl) fun _ => ?_
    refine uses_bind (addsNone_readDirOrEmpty _) fun entries =>
      uses_forEach (fun entry => ?_) entries
    refine addsNone_sweepEntry ?_
    cases entryId entry with
    | none => exact uses_pure ()
    | some id => exact sweepsBelow entry id
  exact uses_bind (creates appsDir) fun _ => uses_bind sweepsTmp fun _ =>
    uses_bind sweeps fun _ => uses_lift (Program.uses_perform trivial)

def Call.Grants : Call → Prop
  | .createApp .. | .updateAppPermissions .. => True
  | _ => False

theorem uses_replyTo {wrap : AppResult α → Reply} {handler : AsyncResult α}
    (adds : AddsNone handler) : (replyTo wrap handler).Uses Act.GrantsNothing fun _ => True :=
  adds.bind fun _ => Program.uses_done _

theorem uses_body (limit : Nat) {call : Call} (grantsNone : ¬ call.Grants) :
    (body limit call).Uses Act.GrantsNothing fun _ => True := by
  cases call with
  | createApp | updateAppPermissions => exact absurd trivial grantsNone
  | updateApp => exact uses_replyTo (addsNone_updateApp _ _ _ _)
  | deleteApp => exact uses_replyTo (addsNone_deleteApp _)
  | deleteAppWithContainers => exact uses_replyTo (addsNone_deleteAppWithContainers _)
  | createDeployment => exact uses_replyTo (addsNone_createDeployment _ _ _ _)
  | uploadDeployment => exact uses_replyTo (addsNone_uploadDeployment _ _ _)
  | createPendingGitDeployment => exact uses_replyTo (addsNone_createPendingGitDeployment _)
  | startGitDeployment => exact uses_replyTo (addsNone_startGitDeployment _)
  | runGitDeployment =>
      exact (uses_runGitDeployment _ _ _).bind fun _ => Program.uses_done _
  | activateDeployment => exact uses_replyTo (addsNone_activateDeployment _ _)
  | activateWithContainers => exact uses_replyTo (addsNone_activateWithContainers _ _)
  | deleteDeployment => exact uses_replyTo (addsNone_deleteDeployment _ _)
  | deleteDeploymentWithContainers =>
      exact uses_replyTo (addsNone_deleteDeploymentWithContainers _ _)
  | onAgentConnected => exact uses_onAgentConnected.bind fun _ => Program.uses_done _
  | startup => exact uses_replyTo addsNone_startup
  | agentConnects | agentDisconnects | agentWorks | administer =>
      exact (Program.uses_perform trivial).bind fun _ => Program.uses_done _

end Quiet

/-! Who is granted what by the two calls that grant. -/

section Granting

variable {answers : List (Σ action : Act, action.Res)} {userId : Int} {name : String}
variable {source : AppSource} {envVars : List EnvVar} {creator : Option String} {hostId : Int}

/-- The user was looked up by this name, and found. -/
def Found (answers : List (Σ action : Act, action.Res)) (username : String) (userId : Int) : Prop :=
  ∃ user : UserRow, (⟨.query (.userByName username), .ok (some user)⟩ : Σ action : Act, action.Res) ∈
    answers ∧ user.id = userId

theorem Found.mono {more : List (Σ action : Act, action.Res)} {username : String}
    (found : Found answers username userId) (within : answers ⊆ more) :
    Found more username userId := by
  obtain ⟨user, among, isUser⟩ := found
  exact ⟨user, within among, isUser⟩

theorem gives_findUserId {username : String}
    (gives : Program.Gives (findUserId username).run answers (.ok userId)) :
    Found answers username userId := by
  obtain ⟨found, earlier, later, rfl, asked, ends⟩ := gives_bind_ok gives
  cases found with
  | none => exact absurd ends gives_throw
  | some user =>
      cases gives_pure ends
      exact ⟨user, List.mem_append_left _ (gives_query asked), rfl⟩

theorem gives_findCreatorId
    (gives : Program.Gives (findCreatorId creator).run answers (.ok (some userId))) :
    ∃ username, creator = some username ∧ Found answers username userId := by
  cases creator with
  | none => cases gives_pure gives
  | some username =>
      obtain ⟨id, earlier, later, rfl, looked, ends⟩ := gives_bind_ok gives
      cases gives_pure ends
      exact ⟨username, rfl, (gives_findUserId looked).mono (List.subset_append_left _ _)⟩

theorem gives_resolveGrant {permission : AppPermission} {grant : Int × PermissionLevel}
    (gives : Program.Gives (resolveGrant permission).run answers (.ok grant)) :
    Found answers permission.username grant.1 ∧ grant.2 = permission.level := by
  obtain ⟨id, earlier, later, rfl, looked, ends⟩ := gives_bind_ok gives
  cases gives_pure ends
  exact ⟨(gives_findUserId looked).mono (List.subset_append_left _ _), rfl⟩

variable {action : Act} (grants : ¬ action.GrantsNothing)
include grants

/-- Creating an app grants to nobody but its creator. -/
theorem follows_insertNewApp {next : action.Res → Program Act Act.Res Call (AppResult App)}
    (follows : Program.Follows (insertNewApp name source envVars creator hostId).run answers
      (.act action next)) :
    ∃ row creatorId, action = .query (.insertApp row creatorId) ∧
      ∀ userId ∈ creatorId, ∃ username ∈ creator, Found answers username userId := by
  have looks := looks_grantNothing
  have files := files_grantNothing
  have draws : AddsNone nowV7 := uses_lift (Program.uses_perform trivial)
  obtain ⟨_, _, rest₁, rfl, _, follows⟩ := follows_past (takes_requireFreeName looks _) grants follows
  obtain ⟨_, _, rest₂, rfl, _, follows⟩ := follows_past (takes_validateHostId looks _) grants follows
  obtain ⟨creatorId, part, rest₃, rfl, found, follows⟩ :=
    follows_past (takes_findCreatorId looks _) grants follows
  obtain ⟨id, _, rest₄, rfl, _, follows⟩ := follows_past draws grants follows
  obtain ⟨staging, _, rest₅, rfl, _, follows⟩ :=
    follows_past (addsNone_uniqueTmpPath _ _) grants follows
  obtain ⟨_, _, rest₆, rfl, _, follows⟩ := follows_past (takes_createDir files _) grants follows
  obtain ⟨_, _, rest₇, rfl, _, follows⟩ := follows_past (takes_createDir files _) grants follows
  obtain ⟨_, _, rest₈, rfl, _, follows⟩ := follows_past
    (uses_onError (takes_rename files _ _) (uses_removeDirAllLogged files _)) grants follows
  obtain ⟨rest, follows⟩ := follows_before (fun _ => takes_appFromRowWithPermissions looks _) grants
    follows
  rcases Program.follows_act follows with ⟨_, eq⟩ | ⟨_, _, _, ended⟩
  · cases eq
    refine ⟨_, creatorId, rfl, fun userId isCreator => ?_⟩
    cases isCreator
    obtain ⟨username, named, isFound⟩ := gives_findCreatorId found
    exact ⟨username, named, isFound.mono fun answer among => by simp [among]⟩
  · cases (Program.follows_done ended).2

/-- A program in the write lock takes its own actions only inside. -/
theorem follows_withWriteLock {α : Type} {body : AsyncResult α}
    {next : action.Res → Program Act Act.Res Call (AppResult α)}
    (follows : Program.Follows (withWriteLock body).run answers (.act action next)) :
    ∃ part rest, part ⊆ answers ∧ Program.Follows body.run part (.act action rest) := by
  have absent : ¬ action.Locks := fun locks => grants (locks_grantNothing action locks)
  have locks : Program.Uses Act.Locks (fun _ => True) (act .lock) := Program.uses_perform trivial
  obtain ⟨_, earlier, later, rfl, _, follows⟩ := Program.follows_second locks absent follows
  have unlocks (result : AppResult α) : Program.Uses Act.Locks (fun _ => True)
      (do
        let _ ← act .unlock
        pure result : Async (AppResult α)) :=
    (Program.uses_perform trivial).bind fun _ => Program.uses_done _
  obtain ⟨rest, follows⟩ := Program.follows_first unlocks absent follows
  exact ⟨later, rest, List.subset_append_right _ _, follows⟩

omit grants in
theorem follows_replyTo {α : Type} {wrap : AppResult α → Reply} {handler : AsyncResult α}
    {next : action.Res → Program Act Act.Res Call Reply}
    (follows : (replyTo wrap handler).Follows answers (.act action next)) :
    ∃ rest, Program.Follows handler.run answers (.act action rest) := by
  have replies (outcome : AppResult α) : Program.Uses (fun _ => False) (fun _ => True)
      (pure (wrap outcome) : Async Reply) := Program.uses_done _
  exact Program.follows_first replies id follows

theorem follows_createApp {inputs : List EnvVarInput} {limit : Nat}
    {next : action.Res → Program Act Act.Res Call Reply}
    (follows : (body limit (.createApp name source inputs creator hostId)).Follows answers
      (.act action next)) :
    ∃ row creatorId, action = .query (.insertApp row creatorId) ∧
      ∀ userId ∈ creatorId, ∃ username ∈ creator, Found answers username userId := by
  obtain ⟨_, follows⟩ := follows_replyTo follows
  obtain ⟨_, _, rest₁, rfl, _, follows⟩ := follows_past (takes_liftResult _) grants follows
  obtain ⟨_, _, rest₂, rfl, _, follows⟩ := follows_past (takes_liftResult _) grants follows
  obtain ⟨_, _, rest₃, rfl, _, follows⟩ :=
    follows_past (takes_resolveEnvVarInputs looks_grantNothing _ _) grants follows
  obtain ⟨_, _, rest₄, rfl, _, follows⟩ := follows_past (takes_liftResult _) grants follows
  obtain ⟨part, _, within, follows⟩ := follows_withWriteLock grants follows
  obtain ⟨row, creatorId, inserts, named⟩ := follows_insertNewApp grants follows
  refine ⟨row, creatorId, inserts, fun userId isCreator => ?_⟩
  obtain ⟨username, isName, found⟩ := named userId isCreator
  exact ⟨username, isName, found.mono fun answer among => by simp [within among]⟩

/-- Every new grant is for the app, and for a user, that it was asked for. -/
theorem follows_updateAppPermissions {appText : String} {permissions : List AppPermission}
    {limit : Nat} {next : action.Res → Program Act Act.Res Call Reply}
    (follows : (body limit (.updateAppPermissions appText permissions)).Follows answers
      (.act action next)) :
    ∃ id row granted, action = .query (.replacePermissions row.id granted) ∧
      Uuid.parseStr appText = some id ∧
      (⟨.query (.appById id), .ok (some row)⟩ : Σ action : Act, action.Res) ∈ answers ∧
      ∀ grant ∈ granted, ∃ permission ∈ permissions,
        Found answers permission.username grant.1 ∧ grant.2 = permission.level := by
  have looks := looks_grantNothing
  obtain ⟨_, follows⟩ := follows_replyTo follows
  obtain ⟨row, _, rest₁, rfl, looked, follows⟩ :=
    follows_past (addsNone_findAppRowById _) grants follows
  obtain ⟨granted, part, rest₂, rfl, collected, follows⟩ :=
    follows_past (uses_collect (takes_resolveGrant looks) _) grants follows
  obtain ⟨rest, follows⟩ := follows_before (fun _ => takes_appFromRowWithPermissions looks _) grants
    follows
  rcases Program.follows_act follows with ⟨_, eq⟩ | ⟨_, _, _, ended⟩
  · cases eq
    obtain ⟨id, parsed, asked⟩ := gives_findAppRowById looked
    refine ⟨id, row, granted, rfl, parsed, List.mem_append_left _ asked, fun grant member => ?_⟩
    obtain ⟨permission, isAsked, part', within, gives⟩ := gives_collect collected grant member
    obtain ⟨found, level⟩ := gives_resolveGrant gives
    exact ⟨permission, isAsked, found.mono fun answer among => by simp [within among], level⟩
  · cases (Program.follows_done ended).2

end Granting

/-! What a grant goes back to. -/

variable {Stats : Type} {sights : Sights Stats} {limit thread : Nat} {state : State}
variable {w w' : ServerWorld Stats} {cfg next : ServerConfig Stats} {event : ServerEvent Stats}
variable {grant : PermissionRow}

/-- The request has replaced the grants of the app, and asked for this one by the user's name. -/
structure AskedFor (w : ServerWorld Stats) (thread : Nat) (request : AppRequest)
    (grant : PermissionRow) : Prop where
  asked : ∃ appText permissions, request.call = .updateAppPermissions appText permissions ∧
    Uuid.parseStr appText = some grant.appId ∧ ∃ permission ∈ permissions,
      permission.level = grant.level ∧
        Saw w thread fun db => ⟨grant.userId, permission.username⟩ ∈ db.users
  replaced : ∃ granted choice, w.Did (· = .act thread (.request request)
    (.query (.replacePermissions grant.appId granted)) choice (.ok ()))

/-- A grant goes back to the member who has created the app, or to an administrator, through the
grants that were used to make it. -/
inductive Rooted (w : ServerWorld Stats) : PermissionRow → Prop
  | created {thread : Nat} {request : AppRequest} {row : AppRow} {userId : Int} {choice : Choice}
      (isMember : request.user.role = .member)
      (inserted : w.Did (· = .act thread (.request request)
        (.query (.insertApp row (some userId))) choice (.ok ())))
      (named : Saw w thread fun db => ⟨userId, request.user.username⟩ ∈ db.users) :
      Rooted w ⟨row.id, userId, .write⟩
  | admin {thread : Nat} {request : AppRequest} {grant : PermissionRow}
      (asked : AskedFor w thread request grant) (isAdmin : request.user.role = .admin) :
      Rooted w grant
  | holder {thread : Nat} {request : AppRequest} {grant : PermissionRow} {userId : Int}
      (asked : AskedFor w thread request grant) (held : Rooted w ⟨grant.appId, userId, .write⟩)
      (shown : Saw w thread fun db => ⟨grant.appId, userId, .write⟩ ∈ db.permissions)
      (named : Saw w thread fun db => ⟨userId, request.user.username⟩ ∈ db.users) :
      Rooted w grant

theorem AskedFor.moves {request : AppRequest} (asked : AskedFor w thread request grant)
    (moves : w.Moves (server sights limit) event w') : AskedFor w' thread request grant := by
  obtain ⟨⟨appText, permissions, isCall, parsed, permission, among, level, named⟩,
    granted, choice, replaced⟩ := asked
  refine ⟨?_, granted, choice, moves.did replaced⟩
  exact ⟨appText, permissions, isCall, parsed, permission, among, level, named.moves moves⟩

theorem Rooted.moves (rooted : Rooted w grant) (moves : w.Moves (server sights limit) event w') :
    Rooted w' grant := by
  induction rooted with
  | created isMember inserted named =>
      exact .created isMember (moves.did inserted) (named.moves moves)
  | admin asked isAdmin => exact .admin (asked.moves moves) isAdmin
  | holder asked _ shown named ih =>
      exact .holder (asked.moves moves) ih (shown.moves moves) (named.moves moves)

/-! The two writes that add a grant. -/

inductive Adds (grant : PermissionRow) : (action : Act) → action.Res → Prop
  | insertApp {row : AppRow} {userId : Int} (isGrant : grant = ⟨row.id, userId, .write⟩) :
      Adds grant (.query (.insertApp row (some userId))) (.ok ())
  | replacePermissions {granted : List (Int × PermissionLevel)}
      (among : (grant.userId, grant.level) ∈ granted) :
      Adds grant (.query (.replacePermissions grant.appId granted)) (.ok ())

theorem adds_of_exec {db db' : Database} {q : Query} {value : q.Result}
    (executed : db.exec q = some (value, db')) (there : grant ∈ db'.permissions) :
    grant ∈ db.permissions ∨ Adds grant (.query q) (.ok value) := by
  cases q with
  | insertApp row creator =>
      simp only [Database.exec] at executed
      split at executed
      · cases executed
      · obtain ⟨apps, _, eq⟩ := Option.map_eq_some_iff.1 executed
        cases eq
        rcases List.mem_append.1 there with old | new
        · exact .inl old
        · obtain ⟨userId, isCreator, isGrant⟩ := List.mem_map.1 new
          cases creator with
          | none => cases isCreator
          | some creator =>
              cases List.mem_singleton.1 isCreator
              exact .inr (.insertApp isGrant.symm)
  | deleteApp id =>
      cases executed
      exact .inl (List.mem_filter.1 there).1
  | replacePermissions id granted =>
      cases executed
      rcases List.mem_append.1 there with old | new
      · exact .inl (List.mem_filter.1 old).1
      · obtain ⟨⟨userId, level⟩, among, rfl⟩ := List.mem_map.1 new
        exact .inr (.replacePermissions among)
  | updateApp id name envVars hostId =>
      simp only [Database.exec] at executed
      split at executed <;> cases executed
      exact .inl there
  | insertDeployment row =>
      obtain ⟨deployments, _, eq⟩ := Option.map_eq_some_iff.1 executed
      cases eq
      exact .inl there
  | setActiveDeployment _ _ | updateGitInfo _ _ _ _ | updateStatus _ _ _ | deleteDeployment _ =>
      cases executed
      exact .inl there
  | appById _ | appByName _ | allApps | permissionsOf _ | usersIn _ | userByName _ | hostById _
  | deploymentById _ _ | deploymentsOf _ | allDeployments =>
      cases Database.exec_read rfl executed
      exact .inl there

theorem adds_of_perform {action : Act} {choice : Choice} {result : action.Res} {after : State}
    (performed : perform thread action choice state = some (result, after))
    (there : grant ∈ after.db.permissions) :
    grant ∈ state.db.permissions ∨ Adds grant action result := by
  by_cases isQuery : ∃ q, action = .query q
  · obtain ⟨q, rfl⟩ := isQuery
    rcases perform_query performed with ⟨err, _, rfl⟩ | ⟨value, db, executed, rfl, rfl⟩
    · exact .inl there
    · exact adds_of_exec executed there
  · rw [perform_grants (fun q eq => isQuery ⟨q, eq⟩) performed] at there
    exact .inl there

theorem Adds.grants {action : Act} {result : action.Res} (adds : Adds grant action result) :
    ¬ action.GrantsNothing := by
  cases adds <;> exact id

/-! Runs. -/

theorem saw_user {entry : Entry AppRequest Call} {answers : List (Σ action : Act, action.Res)}
    {username : String} {userId : Int}
    (answered : Answered (server sights limit) w thread entry answers)
    (found : Found answers username userId) :
    Saw w thread fun db => ⟨userId, username⟩ ∈ db.users := by
  obtain ⟨user, among, rfl⟩ := found
  refine (saw_query answered among).mono fun db executed => ?_
  obtain ⟨_, eq⟩ := executed
  have there := (Prod.mk.inj (Option.some.inj eq)).1
  have name : user.username = username := by simpa using List.find?_some there
  exact name ▸ List.mem_of_find?_eq_some there

theorem creator_of_call {request : AppRequest} {name username : String} {source : AppSource}
    {inputs : List EnvVarInput} {creator : Option String} {hostId : Int}
    (calls : request.call = .createApp name source inputs creator hostId)
    (isCreator : username ∈ creator) :
    request.user.role = .member ∧ request.user.username = username := by
  have isCreatorOf : creator = creatorOf request.user := by
    unfold AppRequest.call at calls
    cases isIncoming : request.incoming with
    | rest method route =>
        simp only [isIncoming] at calls
        cases route <;> cases calls
        rfl
    | tool tool =>
        simp only [isIncoming] at calls
        cases tool <;> cases calls
        rfl
  rw [isCreatorOf, creatorOf] at isCreator
  cases role : request.user.role with
  | admin =>
      rw [role] at isCreator
      cases isCreator
  | member =>
      rw [role] at isCreator
      exact ⟨rfl, Option.some.inj isCreator⟩

section Acting

variable {action : Act}
variable {after : action.Res → Program Act Act.Res (Entry AppRequest Call) (Output (Answer Stats) Reply)}
variable (reachable : Reachable (server sights limit) (fun _ _ => True) (Config.idle state) cfg)
include reachable

/-- What a request does besides looking around, its call does. -/
theorem call_follows {request : AppRequest}
    (member : ⟨thread, .request request, .act action after⟩ ∈ cfg.pool) (loud : ¬ action.Looks) :
    ∃ answers rest, Answered (server sights limit) cfg.world thread (.request request) answers ∧
      (body limit request.call).Follows answers (.act action rest) := by
  obtain ⟨answers, follows, answered⟩ := follows_in_run reachable _ member
  have views (reply : Reply) : ((frontEnd sights).view request reply).Uses Act.Looks fun _ => False :=
    request.view_uses looks_looks reply
  have notQuiet : ¬ (Program.act action after).Quiet Act.Looks := loud
  obtain ⟨earlier, later, rest, rfl, _, called, eq⟩ := FrontEnd.follows_loud
    (request.guard_uses looks_looks) views notQuiet follows
  obtain ⟨after, rfl⟩ := FrontEnd.act_of_loud views loud eq.symm
  exact ⟨later, after, answered.mono (List.subset_append_right _ _), called⟩

/-- Nothing that goes on without a request grants anything. -/
theorem inner_grantsNothing {call : Call}
    (member : ⟨thread, .inner call, .act action after⟩ ∈ cfg.pool) (grantsNone : ¬ call.Grants) :
    action.GrantsNothing := by
  obtain ⟨answers, follows, _⟩ := follows_in_run reachable _ member
  have served : ((server sights limit).body (.inner call)).Uses Act.GrantsNothing fun _ => True :=
    (uses_body limit grantsNone).behind.bind fun _ => Program.uses_done _
  exact (served.follows follows).1

end Acting

/-- Everything that has been granted so far is rooted. -/
structure AllRooted (w : ServerWorld Stats) : Prop where
  table : ∀ grant ∈ w.shared.db.permissions, Rooted w grant
  past : ∀ moment ∈ w.history, ∀ grant ∈ moment.shared.db.permissions, Rooted w grant

theorem satisfies_write {level : PermissionLevel} (enough : level.satisfies .write = true) :
    level = .write := by
  cases level with
  | read => cases enough
  | write => rfl

/-- Who asks for a grant with the authority to do so makes it rooted. -/
theorem rooted_of_asked {request : AppRequest} (rooted : AllRooted w)
    (asked : AskedFor w' thread request grant) (moves : w.Moves (server sights limit) event w')
    (entitled : Entitled w thread request.user grant.appId .write) : Rooted w' grant := by
  cases entitled with
  | admin isAdmin => exact .admin asked isAdmin
  | @granted userId level enough shown named =>
      cases satisfies_write enough
      have held : Rooted w ⟨grant.appId, userId, .write⟩ := by
        obtain ⟨moment, among, _, there⟩ := shown
        exact rooted.past moment among _ there
      exact .holder asked (held.moves moves) (shown.moves moves) (named.moves moves)

/-- Every new grant is rooted. -/
theorem rooted_of_adds (reachable : Reachable (server sights limit) (fun _ _ => True)
      (Config.idle state) cfg) {entry : Entry AppRequest Call} {action : Act} {choice : Choice}
    {result : action.Res}
    (executes : cfg.Executes (server sights limit) (.act thread entry action choice result) next)
    (entered : Entered cfg.world thread entry) (rooted : AllRooted cfg.world)
    (adds : Adds grant action result) : Rooted next.world grant := by
  have moves := executes.moves
  have now : next.world.Did (· = .act thread entry action choice result) :=
    (moves.did_iff _).2 (.inl rfl)
  have grants := adds.grants
  have loud : ¬ action.Looks := fun looks => grants (looks_grantNothing action looks)
  generalize isEvent : Event.act thread entry action choice result = event at executes
  cases executes with
  | @act task action' after choice' result' shared member program performed =>
      obtain ⟨thread', entry', rest⟩ := task
      cases isEvent
      cases program
      cases entered with
      | @unrequested call isUnrequested =>
          have none : ¬ call.Grants := by
            cases call <;> first | exact id | cases isUnrequested
          exact absurd (inner_grantsNothing reachable member none) grants
      | executor _ _ _ _ => exact absurd (inner_grantsNothing reachable member id) grants
      | @request request routed =>
          obtain ⟨answers, rest, answered, follows⟩ := call_follows reachable member loud
          cases calls : request.call with
          | createApp name source inputs creator hostId =>
              rw [calls] at follows
              obtain ⟨row, creatorId, inserts, named⟩ := follows_createApp grants follows
              cases adds with
              | replacePermissions _ => cases inserts
              | @insertApp row' userId isGrant =>
                  cases inserts
                  obtain ⟨username, isCreator, found⟩ := named userId rfl
                  obtain ⟨isMember, rfl⟩ := creator_of_call calls isCreator
                  rw [isGrant]
                  exact .created isMember now ((saw_user answered found).moves moves)
          | updateAppPermissions appText permissions =>
              rw [calls] at follows
              obtain ⟨id, row, granted, replaces, parsed, asked, resolved⟩ :=
                follows_updateAppPermissions grants follows
              cases adds with
              | insertApp _ => cases replaces
              | @replacePermissions granted' among =>
                  injection replaces with replaces
                  injection replaces with sameApp sameGranted
                  obtain ⟨_, isRow⟩ := saw_app answered asked
                  obtain ⟨permission, isAsked, found, level⟩ := resolved _ (sameGranted ▸ among)
                  have isFor : Uuid.parseStr appText = some grant.appId := by
                    rw [sameApp, isRow, parsed]
                  have names : request.call.territory.app grant.appId := by
                    rw [calls]
                    exact isFor
                  obtain ⟨text, about, isText⟩ := appId_of_names names
                  obtain ⟨other, parsed', entitled⟩ :=
                    entitled_of_loud reachable member loud routed about
                  cases isText.symm.trans parsed'
                  have named := (saw_user answered found).moves moves
                  refine rooted_of_asked rooted ⟨?_, _, _, now⟩ moves entitled
                  exact ⟨appText, permissions, calls, isFor, permission, isAsked, level.symm, named⟩
          | _ => exact absurd ((uses_body limit (by rw [calls]; exact id)).follows follows).1 grants
  | _ => cases isEvent

theorem allRooted_in_run (blank : state.Blank) (unlocked : state.lock = none)
    (ungranted : state.db.permissions = [])
    (reachable : Reachable (server sights limit) (fun _ _ => True) (Config.idle state) cfg) :
    AllRooted cfg.world := by
  induction reachable with
  | refl =>
      refine ⟨fun grant among => ?_, fun moment past => ?_⟩
      · change grant ∈ state.db.permissions at among
        rw [ungranted] at among
        cases among
      · cases past
  | @step cfg next command event before executed _ ih =>
      have executes := Config.exec_executes executed
      have moves := executes.moves
      have old (grant : PermissionRow) (among : grant ∈ cfg.shared.db.permissions) :
          Rooted next.world grant := (ih.table grant among).moves moves
      refine ⟨fun grant among => ?_, fun moment past grant among => ?_⟩
      · cases event with
        | act thread entry action choice result =>
            have entered := entered_in_run blank unlocked before _ moves.live_act
            rcases adds_of_perform moves.performed among with there | adds
            · exact old grant there
            · exact rooted_of_adds before executes entered ih adds
        | start _ _ | fork _ _ _ _ | finish _ _ _ | drop _ _ | restart =>
            refine old grant ?_
            cases executes
            exact among
      · rw [moves.history] at past
        rcases List.mem_cons.1 past with rfl | earlier
        · exact old grant among
        · exact (ih.past moment earlier grant among).moves moves

/-- Every grant of a hub that started without any goes back to the member who has created the app,
or to an administrator. -/
theorem grants_rooted (blank : state.Blank) (unlocked : state.lock = none)
    (ungranted : state.db.permissions = [])
    (reachable : Reachable (server sights limit) (fun _ _ => True) (Config.idle state) cfg)
    (among : grant ∈ cfg.shared.db.permissions) : Rooted cfg.world grant :=
  (allRooted_in_run blank unlocked ungranted reachable).table grant among

/-- A member has created an app, and grants another member to read it. -/
def createThenGrant : List (Command (Entry AppRequest Call) Choice) :=
  let app := Uuid.repeated 1
  let plain : Choice := {}
  .start (.inner .startup) :: steps 0 7 plain ++
  .start (.request ⟨ada, .rest .post (.createApp "app" .upload [] 1)⟩) :: steps 1 15 { id := app } ++
  .start (.request ⟨ada, .rest .post (.updateAppPermissions app.toString
    [⟨"ada", .write⟩, ⟨"grace", .read⟩])⟩) :: steps 2 7 plain

theorem grants_rooted_handed_on : ∃ cfg : ServerConfig Unit,
    ⟨Uuid.repeated 1, 8, .read⟩ ∈ cfg.shared.db.permissions ∧
      Rooted cfg.world ⟨Uuid.repeated 1, 8, .read⟩ := by
  have ran : (runChecked (server Sights.none 1000) (fun _ _ => true)
      (Config.idle (State.fresh plainKey [⟨7, "ada"⟩, ⟨8, "grace"⟩] [⟨1, false⟩]))
      createThenGrant).any (fun cfg => decide
        (⟨Uuid.repeated 1, 8, .read⟩ ∈ cfg.shared.db.permissions)) = true := by decide +kernel
  obtain ⟨cfg, reachable, holds⟩ := runChecked_any (fun _ _ _ => trivial) ran
  have among := of_decide_eq_true holds
  exact ⟨cfg, among, grants_rooted State.blank_fresh rfl rfl reachable among⟩

end Berth
