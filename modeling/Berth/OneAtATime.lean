import Berth.Terminal

/-!
How many git deployments of one app are in progress. The only exclusion is a Pending row: it holds
as long as nobody removes or fails the row of a deployment that is in somebody's hands.
-/

namespace Berth

open Interleave Interleave.Discipline Interleave.Fallible

variable {limit thread other : Nat} {call : Call} {w w' : HubWorld} {event : HubEvent}
variable {id appId : Uuid}

/-! The status is the last thing that an executor writes. -/

/-- An executor acts only as long as it has written no status. -/
def Rests (w : HubWorld) (event : HubEvent) : Prop :=
  ∀ thread appText id gitSource action choice result,
    event = .act thread (.runGitDeployment appText (Uuid.toString id) gitSource) action choice
      result → ¬ Settled w thread id

def resting : Discipline Act Act.Res Call Reply State Choice :=
  following (fun _ _ => True) Rests fun _ => True

theorem resting_grounded : Grounded resting := following_grounded

theorem free_resting (others : ∀ appText text gitSource,
    call ≠ .runGitDeployment appText text gitSource) :
    Free (hub limit) resting thread call (fun _ => True) fun _ => True := by
  intro w event w' own ready moves allowed
  rintro _ appText id gitSource action choice result rfl
  cases own
  exact absurd rfl (others _ _ _)

section Executor

variable {appText : String} {gitSource : GitSource}

theorem rests_open {acts : Act → Prop} {calls : Call → Prop}
    (own : event.By thread (.runGitDeployment appText id.toString gitSource) acts calls)
    (unsettled : ¬ Settled w thread id) : Rests w event := by
  rintro _ _ other _ _ _ _ rfl
  generalize same : (Call.runGitDeployment appText id.toString gitSource) = call at own
  cases own
  simp only [Call.runGitDeployment.injEq] at same
  rw [← Uuid.toString_injective same.2.1]
  exact unsettled

theorem safe_open {α : Type} {program : AsyncResult α}
    (takes : Takes (Act.LeavesStatus id) (fun _ => False) program)
    (unsettled : ¬ Settled w thread id) :
    Safe (hub limit) resting thread (.runGitDeployment appText id.toString gitSource) program.run
      (fun _ w' => ¬ Settled w' thread id) w := by
  have lasts : Lasting limit thread (.runGitDeployment appText id.toString gitSource)
      (Act.LeavesStatus id) (fun _ => False) fun w => ¬ Settled w thread id :=
    unsettled_lasts id fun _ leaves => leaves
  exact Safe.within takes (lasts.frame resting_grounded)
    (fun _ _ _ own unsettled _ _ _ => rests_open own unsettled) unsettled

/-- Only a write that fails leaves anything to do. -/
theorem safe_close {status : DeploymentStatus} (unsettled : ¬ Settled w thread id) :
    Safe (hub limit) resting thread (.runGitDeployment appText id.toString gitSource)
      (setDeploymentStatus appText id.toString status).run
      (Outcome (fun _ _ => True) fun _ w' => ¬ Settled w' thread id) w := by
  have looks := leaves_looks id
  refine Safe.thenE (safe_open (takes_findAppRowById looks appText) unsettled)
    (fun appRow w₁ unsettled => ?_) fun _ _ unsettled => unsettled
  refine Safe.thenE (safe_open (takes_findDeploymentRow looks appRow.id id.toString) unsettled)
    (fun row w₂ unsettled => ?_) fun _ _ unsettled => unsettled
  have lasts : Lasting limit thread (.runGitDeployment appText id.toString gitSource)
      (fun _ => False) (fun _ => False) fun w => ¬ Settled w thread id :=
    unsettled_lasts id fun _ => False.elim
  refine safe_action resting_grounded lasts unsettled
    fun w₃ choice outcome w₄ unsettled ready moves allowed => ⟨?_, fun _ _ => ?_⟩
  · exact @rests_open _ _ _ _ _ _ (fun _ => True) (fun _ => True) (.act trivial) unsettled
  · cases outcome with
    | ok _ => trivial
    | error err => exact failed_unsettled moves unsettled

theorem safe_rests (unsettled : ¬ Settled w thread id) :
    Safe (hub limit) resting thread (.runGitDeployment appText id.toString gitSource)
      (runGitDeployment appText id.toString gitSource) (fun _ _ => True) w := by
  have prepares := prepares_leavesStatus id
  have looks := leaves_looks id
  have executes : Safe (hub limit) resting thread
      (.runGitDeployment appText id.toString gitSource)
      (executeGitDeployment appText id.toString gitSource).run
      (Outcome (fun _ _ => True) fun _ w' => ¬ Settled w' thread id) w := by
    refine Safe.thenE (safe_open (takes_getAppById looks appText) unsettled)
      (fun app w₁ unsettled => ?_) fun _ _ unsettled => unsettled
    refine Safe.thenE (safe_open (takes_uniqueTmpPath prepares _ _) unsettled)
      (fun staging w₂ unsettled => ?_) fun _ _ unsettled => unsettled
    refine Safe.thenE (safe_open (takes_prepareGitDeployment prepares app staging appText _ gitSource)
      unsettled) (fun _ w₃ unsettled => ?_) fun _ _ unsettled => unsettled
    refine Safe.thenE (safe_open (takes_shipIfRun prepares appText _ gitSource.mode) unsettled)
      (fun _ w₄ unsettled => ?_) fun _ _ unsettled => unsettled
    have activates : Takes (Act.LeavesStatus id) (fun _ => False)
        (activateWithContainers appText id.toString) :=
      takes_activateWithContainers nofun nofun looks (fun _ _ => nofun) (fun _ _ => nofun) appText _
    exact Safe.thenE (safe_open activates unsettled) (fun _ w₅ unsettled => safe_close unsettled)
      fun _ _ unsettled => unsettled
  refine Safe.bind (executes.mono ?_)
  rintro (err | _) w₁ outcome
  · exact Safe.bind ((safe_close outcome).mono fun _ _ _ => trivial)
  · trivial

end Executor

theorem final_resting {reply : Reply} : Final (hub limit) resting thread call reply w := by
  rintro w' _ _ _ _ _ _ _ _ _ _ eq
  cases eq

theorem resting_sound : Sound (hub limit) resting where
  keeps _ _ _ _ _ _ _ _ := trivial
  starts w call w' numbered inv moves allowed ready := by
    refine (Safe.free (Program.uses_all _) (free_resting ?_)).mono fun _ _ _ => final_resting
    rintro appText text gitSource rfl
    cases moves with
    | start admitted => exact absurd admitted (by simp [hub, admits])
  forks w thread call forked w' numbered inv moves allowed permit ready := by
    obtain ⟨_, appText, row, gitSource, _, rfl, _⟩ := allowed.permitted.forks _ _ _ _ rfl
    have fresh : ¬ Settled w' w.next row.id := by
      intro settled
      rcases (moves.did_iff _).1 settled with ⟨_, _, _, _, _, eq⟩ | before
      · cases eq
      · exact not_settled_yet numbered row.id before
    exact Safe.bind ((safe_rests fresh).mono fun _ _ _ => final_resting)

/-- Once an executor has written a status it does nothing more. -/
theorem executor_rests {state : State} (blank : state.Blank) {cfg : HubConfig}
    (reachable : Reachable (hub limit) (fun _ _ => True) (Config.idle state) cfg)
    {command : Command Call Choice} {appText : String} {gitSource : GitSource} {action : Act}
    {choice : Choice} {result : action.Res} {next : HubConfig}
    (executed : cfg.exec (hub limit) command = some (.act thread
      (.runGitDeployment appText id.toString gitSource) action choice result, next)) :
    ¬ Settled cfg.world thread id := by
  have secure := resting_sound.secure (secure_idle trivial) (reachable_meets blank reachable)
  have executes := Config.exec_executes executed
  have allowed := meets_next blank reachable executes trivial
  exact secure.permit executes allowed trivial _ _ _ _ _ _ _ rfl

/-! Whoever inserts a Pending row has found the app's repository, and a row only gets a container
where the app runs one. -/

def HasSource (w : HubWorld) (appId : Uuid) (source : AppSource) : Prop :=
  ∃ app, app? w appId = some app ∧ app.source = source

def FromGit (w : HubWorld) (appId : Uuid) : Prop :=
  ∃ gitSource, HasSource w appId (.git gitSource)

theorem HasSource.moves {source : AppSource} (has : HasSource w appId source)
    (moves : w.Moves (hub limit) event w')
    (stays : ∀ thread, ¬ Wrote thread (.deleteApp appId) event) : HasSource w' appId source := by
  obtain ⟨app, found, same⟩ := has
  rcases (rowsChange moves).app_after found with ⟨new, after, step⟩ | ⟨_, other, wrote⟩
  · exact ⟨new, after, step.source.trans same⟩
  · exact absurd wrote (stays other)

/-- The row is one that the app can have. -/
structure Suits (row : DeploymentRow) (source : AppSource) : Prop where
  git : row.status = .pending → ∃ gitSource, source = .git gitSource
  run : row.containerName.isSome → source.runConfig.isSome

def Sourced (w : HubWorld) (event : HubEvent) : Prop :=
  ∀ thread row, Wrote thread (.insertDeployment row) event →
    ∃ source, HasSource w row.appId source ∧ Suits row source

def sourcing : Discipline Act Act.Res Call Reply State Choice :=
  following (fun _ _ => True) Sourced fun _ => True

theorem sourcing_grounded : Grounded sourcing := following_grounded

/-- The calls that insert Pending rows. -/
def Call.Pends (call : Call) (appText : String) : Prop :=
  call = .createPendingGitDeployment appText ∨ call = .startGitDeployment appText

/-- Whatever the action records is an uploaded deployment. -/
def Act.RecordsUploads (action : Act) : Prop :=
  ∀ row, action = .query (.insertDeployment row) → ∃ id appId name size,
    row = uploadedRow id appId name size

theorem suits_uploadedRow (id : Uuid) (name : Option String) (size : Nat) (source : AppSource) :
    Suits (uploadedRow id appId name size) source := ⟨by rintro ⟨⟩, by rintro ⟨⟩⟩

theorem suits_pendingRow (id : Uuid) (gitSource : GitSource) :
    Suits (pendingRow id appId gitSource.mode) (.git gitSource) := by
  refine ⟨fun _ => ⟨gitSource, rfl⟩, fun container => ?_⟩
  obtain ⟨repoUrl, branch, mode⟩ := gitSource
  cases mode with
  | static _ | build _ => cases container
  | run config => rfl

theorem free_uploading {calls : Call → Prop} :
    Free (hub limit) sourcing thread call Act.RecordsUploads calls := by
  rintro w event w' own ready moves allowed other row wrote
  obtain ⟨app, found⟩ := (allowed.permitted.insert wrote).choose_spec.parent
  obtain ⟨caller, choice, value, rfl⟩ := wrote
  cases own with
  | act records =>
      obtain ⟨id, appId, name, size, rfl⟩ := records row rfl
      exact ⟨app.source, ⟨app, found, rfl⟩, suits_uploadedRow id name size app.source⟩

theorem free_sourcing (noUpload : ¬ Uploads call) (others : ∀ appText, ¬ call.Pends appText) :
    Free (hub limit) sourcing thread call (fun _ => True) fun _ => True := by
  rintro w event w' own ready moves allowed other row wrote
  obtain ⟨caller, choice, value, rfl⟩ := wrote
  cases own
  cases (allowed.permitted.writes _ _ _ _ _ rfl).creates with
  | uploaded upload => exact absurd upload noUpload
  | pending _ git => exact absurd git (others _)

theorem free_sourcing_calm {calls : Call → Prop} :
    Free (hub limit) sourcing thread call Act.Calm calls := by
  rintro w event w' own ready moves allowed other row wrote
  obtain ⟨caller, choice, value, rfl⟩ := wrote
  cases own with
  | act calm => exact absurd trivial calm

theorem lasting_hasSource (id : Uuid) (source : AppSource) {calls : Call → Prop} :
    Lasting limit thread call Act.Calm calls fun w => Locked w thread ∧ HasSource w id source := by
  refine Lasting.locked fun w event w' around locked noWrite has => ?_
  exact has.moves around.moves fun other wrote => absurd trivial (noWrite _ _ wrote)

theorem safe_requireGitSource {D : Discipline Act Act.Res Call Reply State Choice} {appRow : AppRow}
    (fact : HubWorld → Prop) (holds : fact w) :
    Safe (hub limit) D thread call (requireGitSource appRow).run
      (Outcome (fun gitSource w' => appRow.source = .git gitSource ∧ fact w') fun _ _ => True) w := by
  unfold requireGitSource
  split
  · trivial
  · exact ⟨by assumption, holds⟩

theorem safe_sourcedInsert {appText : String} (locked : Locked w thread) :
    Safe (hub limit) sourcing thread call (insertPending appText).run (fun _ _ => True) w := by
  have locks : Lasting limit thread call Act.Calm (fun _ => False) fun w => Locked w thread :=
    lasting_locked
  refine Safe.seqE (safe_findAppRowById free_sourcing_calm (locks.frame sourcing_grounded)
    (fun _ => id) locked) ?_ fun _ _ _ => trivial
  rintro appRow w₁ ⟨locked, _, found⟩
  refine Safe.seqE (safe_requireGitSource (fun w => Locked w thread ∧ app? w appRow.id = some appRow)
    ⟨locked, found⟩) ?_ fun _ _ _ => trivial
  rintro gitSource w₂ ⟨source, locked, found⟩
  have known : Locked w₂ thread ∧ HasSource w₂ appRow.id (.git gitSource) :=
    ⟨locked, appRow, found, source⟩
  have lasts : Lasting limit thread call Act.Calm (fun _ => False) fun w =>
      Locked w thread ∧ HasSource w appRow.id (.git gitSource) := lasting_hasSource appRow.id _
  have frame := lasts.frame sourcing_grounded
  refine Safe.thenE (safe_looks free_sourcing_calm frame
    (takes_requireNonePending (fun _ looks => looks.soft.1) appRow) known) (fun _ w₃ known => ?_)
    fun _ _ _ => trivial
  refine Safe.thenE (Safe.frame (uses_lift (Program.uses_perform trivial)) free_sourcing_calm frame known)
    (fun id w₄ known => ?_) fun _ _ _ => trivial
  refine Safe.thenE (Safe.frame (Program.uses_perform trivial) free_sourcing_calm frame known)
    (fun _ w₅ known => ?_) fun _ _ _ => trivial
  have inserts : Safe (hub limit) sourcing thread call
      (query (.insertDeployment (pendingRow id appRow.id gitSource.mode))).run (fun _ _ => True) w₅ :=
    safe_action sourcing_grounded lasts known fun w₆ choice result w₇ known _ _ _ =>
      ⟨by rintro _ row ⟨_, _, _, ⟨⟩⟩; exact ⟨_, known.2, suits_pendingRow id gitSource⟩,
        fun _ _ => trivial⟩
  exact Safe.thenE inserts (fun _ _ _ => trivial) fun _ _ _ => trivial

theorem free_sourcing_locks : Free (hub limit) sourcing thread call Act.Locks fun _ => False := by
  rintro w event w' own ready moves allowed other row wrote
  obtain ⟨caller, choice, value, rfl⟩ := wrote
  cases own with
  | act locks => exact locks.elim

theorem safe_sourcedPending (appText : String) :
    Safe (hub limit) sourcing thread call (createPendingGitDeployment appText).run (fun _ _ => True)
      w :=
  safe_withWriteLock sourcing_grounded free_sourcing_locks (lasting_const True)
    (fun _ => lasting_const True) trivial fun _ _ locked => safe_sourcedInsert locked

theorem final_sourcing {reply : Reply} : Final (hub limit) sourcing thread call reply w := by
  rintro w' _ _ _ _ _ ⟨_, _, _, eq⟩
  cases eq

/-- What follows the insertion of the row is the fork alone. -/
theorem safe_sourcedStart (appText : String) :
    Safe (hub limit) sourcing thread call (startGitDeployment appText).run (fun _ _ => True) w := by
  have forks : ∀ forked w₁, Safe (hub limit) sourcing thread call (Program.spawn forked)
      (fun _ _ => True) w₁ := by
    intro forked w₁
    refine Safe.spawn (stable_const True) trivial fun w₂ w₃ _ _ _ _ => ⟨?_, fun _ => trivial⟩
    rintro _ _ ⟨_, _, _, eq⟩
    cases eq
  exact Safe.thenE (safe_sourcedPending appText) (fun pending w₁ _ =>
    Safe.thenE (Safe.lift (forks _ w₁)) (fun _ _ _ => trivial) fun _ _ _ => trivial)
    fun _ _ _ => trivial

theorem prepares_recordUploads (action : Act) (prepares : action.Prepares) :
    action.RecordsUploads := by
  rintro row rfl
  rcases prepares with looks | files | ⟨_, _, eq⟩ | ⟨_, _, eq⟩ | eq | ⟨_, _, _, _, eq⟩
  · cases looks
  · cases files
  all_goals cases eq

theorem safe_sourcedUpload (uploads : Uploads call) :
    Safe (hub limit) sourcing thread call (body limit call) (Final (hub limit) sourcing thread call)
      w := by
  have recorded (id appId : Uuid) (name : Option String) (size : Nat) :
      Act.RecordsUploads (.query (.insertDeployment (uploadedRow id appId name size))) := by
    rintro _ ⟨⟩
    exact ⟨id, appId, name, size, rfl⟩
  have others {action : Act} (other : ∀ row, action ≠ .query (.insertDeployment row)) :
      action.RecordsUploads := fun row eq => absurd eq (other row)
  have sets (appId id : Uuid) : Act.RecordsUploads (.query (.setActiveDeployment appId id)) :=
    others (by rintro _ ⟨⟩)
  have lock : Act.RecordsUploads .lock := others (by rintro _ ⟨⟩)
  have unlock : Act.RecordsUploads .unlock := others (by rintro _ ⟨⟩)
  have draws : Act.RecordsUploads .nowV7 := others (by rintro _ ⟨⟩)
  have free : Free (hub limit) sourcing thread call Act.RecordsUploads fun _ => False :=
    free_uploading
  obtain ⟨appText, zipPath, name, size, rfl⟩ | ⟨appText, fields, rfl⟩ := uploads
  · exact Safe.bind ((Safe.free (takes_createDeployment lock unlock prepares_recordUploads draws
      recorded sets appText zipPath name size) free).mono fun _ _ _ => final_sourcing)
  · exact Safe.bind ((Safe.free (takes_uploadDeployment lock unlock prepares_recordUploads draws
      recorded sets appText fields limit) free).mono fun _ _ _ => final_sourcing)

theorem sourcing_sound : Sound (hub limit) sourcing where
  keeps _ _ _ _ _ _ _ _ := trivial
  starts w call w' numbered inv moves allowed ready := by
    by_cases pends : ∃ appText, call.Pends appText
    · obtain ⟨appText, rfl | rfl⟩ := pends
      · exact Safe.bind ((safe_sourcedPending appText).mono fun _ _ _ => final_sourcing)
      · exact Safe.bind ((safe_sourcedStart appText).mono fun _ _ _ => final_sourcing)
    by_cases uploads : Uploads call
    · exact safe_sourcedUpload uploads
    · exact (Safe.free (Program.uses_all _) (free_sourcing uploads (not_exists.1 pends))).mono
        fun _ _ _ => final_sourcing
  forks w thread call forked w' numbered inv moves allowed permit ready := by
    obtain ⟨_, _, _, _, _, rfl, _⟩ := allowed.permitted.forks _ _ _ _ rfl
    refine (Safe.free (Program.uses_all _) (free_sourcing ?_ ?_)).mono fun _ _ _ => final_sourcing
    · rintro (⟨_, _, _, _, eq⟩ | ⟨_, _, eq⟩) <;> cases eq
    · rintro _ (eq | eq) <;> cases eq

/-- Every row is inserted for an app that it suits. -/
theorem sourced_in_run {condition : HubWorld → HubEvent → Prop} {state : State}
    (blank : state.Blank) {cfg : HubConfig}
    (reachable : Reachable (hub limit) condition (Config.idle state) cfg) :
    Reachable (hub limit) (fun w event => Meets condition w event ∧ Sourced w event)
      (Config.idle state) cfg := by
  have meets : Reachable (hub limit) (fun w event => Meets condition w event ∧
      sourcing.Known w event) (Config.idle state) cfg :=
    sourcing_sound.grounded (fun w event meets =>
      ⟨trivial, meets.numbered, meets.ledger, meets.permitted⟩) (secure_idle trivial)
      (reachable_meets blank reachable)
  refine meets.mono fun w event ⟨meets, known⟩ => ⟨meets, ?_⟩
  rintro thread row ⟨_, _, _, rfl⟩
  exact known.permit trivial _ _ (wrote_act ..)

/-! Deployments in progress. -/

/-- The thread has the deployment in hand: it has still to fork the executor, or is the executor and
has written no status. -/
def InHand (w : HubWorld) (thread : Nat) (id : Uuid) : Prop :=
  Starting w thread id ∨ Running w thread id ∧ ¬ Settled w thread id

/-- A git deployment of the app is in progress in the thread. -/
def Deploying (w : HubWorld) (thread : Nat) (appId : Uuid) : Prop :=
  ∃ maker row, Inserted w maker row ∧ row.appId = appId ∧ InHand w thread row.id

/-- Nobody removes what is in somebody's hands, and no pass writes its status. -/
structure LeftAlone (w : HubWorld) (event : HubEvent) : Prop where
  deployment : ∀ thread other id, InHand w thread id → ¬ Wrote other (.deleteDeployment id) event
  app : ∀ thread other appId, Deploying w thread appId → ¬ Wrote other (.deleteApp appId) event
  status : ∀ thread other id status failureError choice, InHand w thread id →
    event ≠ .act other .onAgentConnected (.query (.updateStatus id status failureError)) choice
      (.ok ())

theorem InHand.busy (inHand : InHand w thread id) : Busy w id :=
  ⟨thread, inHand.imp_right And.left⟩

theorem Settled.moves (settled : Settled w thread id) (moves : w.Moves (hub limit) event w') :
    Settled w' thread id := moves.did settled

theorem InHand.before (inHand : InHand w' thread id) (numbered : w.Numbered)
    (moves : w.Moves (hub limit) event w') (permitted : Permitted w event) :
    (∃ other, InHand w other id) ∨
      ∃ row, Wrote thread (.insertDeployment row) event ∧ row.id = id := by
  rcases inHand with starting | ⟨running, unsettled⟩
  · exact (starting.before numbered moves permitted).imp_left fun before => ⟨thread, .inl before⟩
  · rcases running.before moves permitted with before | ⟨forker, before⟩
    · exact .inl ⟨thread, .inr ⟨before, fun settled => unsettled (settled.moves moves)⟩⟩
    · exact .inl ⟨forker, .inl before⟩

/-- Whoever runs a deployment that is in hand has not written its status. -/
theorem InHand.unsettled (inHand : InHand w' thread id) (numbered : w.Numbered) (ledger : Ledger w)
    (moves : w.Moves (hub limit) event w') (permitted : Permitted w event)
    (running : Running w other id) : ¬ Settled w' other id := by
  intro settled
  rcases inHand with starting | ⟨runs, unsettled⟩
  · rcases starting.before numbered moves permitted with before | ⟨row, wrote, sameId⟩
    · exact ledger.not_both before running
    · exact (ledger.busy_recorded ⟨other, .inr running⟩).not_inserted ledger.rows permitted sameId
        wrote
  · rcases runs.before moves permitted with before | ⟨forker, before⟩
    · cases ledger.running_unique before running
      exact unsettled settled
    · exact ledger.not_both before running

/-- What is in hand is recorded as Pending, for an app that has a repository. -/
structure Underway (w : HubWorld) : Prop where
  pending : ∀ thread id, InHand w thread id → ∃ row, deployment? w id = some row ∧
    row.status = .pending
  git : ∀ thread appId, Deploying w thread appId → FromGit w appId

theorem deploying_of_row (rows : Rows w) {row : DeploymentRow} (inHand : InHand w thread id)
    (found : deployment? w id = some row) : Deploying w thread row.appId := by
  obtain ⟨maker, first, inserted, rfl, sameApp, _⟩ := rows.origin id row found
  exact ⟨maker, first, inserted, sameApp, inHand⟩

theorem Underway.still_pending (underway : Underway w) (numbered : w.Numbered) (ledger : Ledger w)
    (moves : w.Moves (hub limit) event w') (permitted : Permitted w event)
    (leftAlone : LeftAlone w event) (before : InHand w other id)
    (inHand : InHand w' thread id) : ∃ row, deployment? w' id = some row ∧ row.status = .pending := by
  obtain ⟨row, found, pending⟩ := underway.pending other id before
  rcases (rowsChange moves).deployment_after found with
    ⟨new, after, step⟩ | ⟨_, ⟨deleter, wrote⟩ | ⟨deleter, wrote⟩⟩
  · refine ⟨new, after, ?_⟩
    rcases step.status with ⟨same, _⟩ | ⟨writer, wrote⟩
    · exact same.trans pending
    rcases permitted.settles moves wrote with ⟨running, _, settled⟩ | ⟨_, _, _, choice, isPass⟩
    · exact absurd settled (inHand.unsettled numbered ledger moves permitted running)
    · exact absurd isPass (leftAlone.status other writer id _ _ choice before)
  · exact absurd wrote (leftAlone.deployment other deleter id before)
  · exact absurd wrote (leftAlone.app other deleter _ (deploying_of_row ledger.rows before found))

theorem Underway.moves (underway : Underway w) (meets : Meets LeftAlone w event)
    (sourced : Sourced w event) (moves : w.Moves (hub limit) event w') : Underway w' := by
  have after := meets.ledger.moves meets.numbered moves meets.permitted
  -- a call that has just inserted its row is in hand because the row is Pending
  have insertedNow : ∀ {thread id row}, InHand w' thread id →
      Wrote thread (.insertDeployment row) event → row.id = id → row.status = .pending := by
    intro thread id row inHand wrote sameId
    have inserted : Inserted w' thread row := (inserted_iff moves).2 (.inl wrote)
    rcases inHand with ⟨appText, _, live, _⟩ | ⟨running, _⟩
    · exact (after.crew.starter thread appText row live inserted).1
    · obtain ⟨forker, first, _, inserted', sameId', pending⟩ := after.crew.forker running
      rw [after.rows.once thread forker row first inserted inserted' (sameId.trans sameId'.symm)]
      exact pending
  refine ⟨fun thread id inHand => ?_, fun thread appId deploying => ?_⟩
  · rcases inHand.before meets.numbered moves meets.permitted with ⟨other, before⟩ | ⟨row, wrote, rfl⟩
    · exact underway.still_pending meets.numbered meets.ledger moves meets.permitted
        meets.condition before inHand
    · refine ⟨row, ?_, insertedNow inHand wrote rfl⟩
      obtain ⟨call, choice, value, rfl⟩ := wrote
      cases rowsChange moves with
      | same _ _ silent => exact absurd trivial (silent _ _ (wrote_act ..))
      | insertDeployment _ _ deployments => rw [deployments, if_pos rfl]
  · obtain ⟨maker, row, inserted, rfl, inHand⟩ := deploying
    rcases inHand.before meets.numbered moves meets.permitted with ⟨other, before⟩ | ⟨new, wrote, sameId⟩
    · rcases (inserted_iff moves).1 inserted with wrote | inserted
      · exact absurd wrote ((meets.ledger.busy_recorded before.busy).not_inserted meets.ledger.rows
          meets.permitted rfl)
      · have deploying : Deploying w other row.appId := ⟨maker, row, inserted, rfl, before⟩
        exact (underway.git other row.appId deploying).imp fun _ has => has.moves moves fun deleter =>
          meets.condition.app other deleter row.appId deploying
    · have same : new = row := after.rows.once thread maker new row
        ((inserted_iff moves).2 (.inl wrote)) inserted sameId
      subst same
      obtain ⟨source, has, suits⟩ := sourced thread new wrote
      obtain ⟨gitSource, rfl⟩ := suits.git (insertedNow inHand wrote rfl)
      refine ⟨gitSource, has.moves moves fun deleter deleted => ?_⟩
      cases (wrote_inj wrote deleted).2

theorem underway_reachable {condition : HubWorld → HubEvent → Prop}
    (leftAlone : ∀ w event, condition w event → LeftAlone w event) {state : State}
    (blank : state.Blank) {cfg : HubConfig}
    (reachable : Reachable (hub limit) condition (Config.idle state) cfg) : Underway cfg.world := by
  have reachable := sourced_in_run blank (reachable.mono leftAlone)
  refine reachable.invariant ⟨?_, ?_⟩ fun w event w' underway moves allowed =>
    underway.moves allowed.1 allowed.2 moves
  · rintro thread id (⟨_, _, live, _⟩ | ⟨⟨_, _, live⟩, _⟩) <;> cases live
  · rintro thread appId ⟨_, _, inserted, _⟩
    exact absurd inserted (Config.idle_not_did _ _)

/-- Two threads that deploy one app are the same thread. -/
theorem Underway.alone (underway : Underway w) (ledger : Ledger w)
    (deploying : Deploying w thread appId) (deploying' : Deploying w other appId) :
    thread = other := by
  obtain ⟨maker, first, inserted, rfl, inHand⟩ := deploying
  obtain ⟨maker', first', inserted', sameApp, inHand'⟩ := deploying'
  obtain ⟨row, found, pending⟩ := underway.pending thread first.id inHand
  obtain ⟨row', found', pending'⟩ := underway.pending other first'.id inHand'
  have inApp : ∀ {maker first row}, Inserted w maker first → deployment? w first.id = some row →
      row.appId = first.appId := by
    intro maker first row inserted found
    obtain ⟨maker', first', inserted', sameId, sameApp, _⟩ := ledger.rows.origin first.id row found
    rw [← sameApp, ledger.rows.once maker' maker first' first inserted' inserted sameId]
  have same : first.id = first'.id := ledger.rows.onePending _ _ row row' found found'
    ((inApp inserted found).trans (sameApp.symm.trans (inApp inserted' found').symm)) pending pending'
  rw [← same] at inHand'
  rcases inHand with starting | ⟨running, _⟩ <;> rcases inHand' with starting' | ⟨running', _⟩
  · exact ledger.starting_unique starting starting'
  · exact absurd running' (ledger.not_both starting)
  · exact absurd running (ledger.not_both starting')
  · exact ledger.running_unique running running'

/-- What a git deployment is, from its row to the last action of its executor. -/
structure OneDeployment (w : HubWorld) (event : HubEvent) : Prop where
  alone : ∀ thread other appId, Deploying w thread appId → Deploying w other appId → thread = other
  insertion : ∀ thread row, Wrote thread (.insertDeployment row) event → row.status = .pending →
    ∀ other, ¬ Deploying w other row.appId
  executor : ∀ thread appText text gitSource action choice result,
    event = .act thread (.runGitDeployment appText text gitSource) action choice result →
      ∃ appId, Uuid.parseStr appText = some appId ∧ Deploying w thread appId

/-- In a run in which nobody removes the row of a deployment in progress, or its app, and no pass
fails it, at most one git deployment of an app is in progress at any moment. -/
theorem one_git_deployment_at_a_time {state : State} (blank : state.Blank) {cfg next : HubConfig}
    (reachable : Reachable (hub limit) LeftAlone (Config.idle state) cfg)
    {command : Command Call Choice} (executed : cfg.exec (hub limit) command = some (event, next))
    (leftAlone : LeftAlone cfg.world event) : OneDeployment cfg.world event := by
  have underway := underway_reachable (fun _ _ => id) blank reachable
  have executes := Config.exec_executes executed
  have meets := meets_next blank reachable executes leftAlone
  refine ⟨fun thread other appId => underway.alone meets.ledger, ?_, ?_⟩
  · intro thread row wrote pending other ⟨maker, first, inserted, sameApp, inHand⟩
    obtain ⟨old, found, isPending⟩ := underway.pending other first.id inHand
    obtain ⟨maker', first', inserted', sameId, sameApp', _⟩ :=
      meets.ledger.rows.origin first.id old found
    have same := meets.ledger.rows.once maker' maker first' first inserted' inserted sameId
    obtain ⟨call, may⟩ := meets.permitted.insert wrote
    cases may.creates with
    | uploaded _ ready =>
        rw [pending] at ready
        cases ready
    | pending _ _ _ none =>
        exact none first.id old found (sameApp'.symm.trans (same ▸ sameApp)) isPending
  · rintro thread appText text gitSource action choice result rfl
    have live := acting_live executes.moves
    obtain ⟨forker, row, _, inserted, _, rfl, parsed⟩ := meets.ledger.crew.executor _ _ _ _ live
    have unsettled := executor_rests blank (reachable.mono fun _ _ _ => trivial) executed
    exact ⟨row.appId, parsed, forker, row, inserted, rfl, .inr ⟨⟨appText, gitSource, live⟩, unsettled⟩⟩

/-- Checks that an event neither removes anything nor is the write of a pass. -/
def leftAlone : HubEvent → Bool
  | .act _ _ (.query (.deleteDeployment _)) _ _ | .act _ _ (.query (.deleteApp _)) _ _
  | .act _ .onAgentConnected (.query (.updateStatus _ _ _)) _ _ => false
  | _ => true

theorem leftAlone_sound (checked : leftAlone event = true) : LeftAlone w event := by
  refine ⟨?_, ?_, ?_⟩
  · rintro _ _ _ _ ⟨_, _, _, rfl⟩
    cases checked
  · rintro _ _ _ _ ⟨_, _, _, rfl⟩
    cases checked
  · rintro _ _ _ _ _ _ _ rfl
    cases checked

/-- Checks that the thread runs a deployment of the app and has written no status. -/
def deploying (w : HubWorld) (thread : Nat) (appId id : Uuid) : Bool :=
  (w.live.any fun entry => entry.1 = thread && match entry.2 with
    | .runGitDeployment _ text _ => text = id.toString
    | _ => false) &&
  (w.history.any fun moment => match moment.event with
    | .act _ _ (.query (.insertDeployment row)) _ (.ok _) => row.id = id && row.appId = appId
    | _ => false) &&
  w.history.all fun moment => match moment.event with
    | .act other _ (.query (.updateStatus _ _ _)) _ _ => other ≠ thread
    | _ => true

theorem deploying_sound (checked : deploying w thread appId id = true) : Deploying w thread appId := by
  simp only [deploying, Bool.and_eq_true, List.any_eq_true, List.all_eq_true, decide_eq_true_eq] at checked
  obtain ⟨⟨⟨⟨_, call⟩, live, rfl, isRun⟩, ⟨moment, among, isInsert⟩⟩, unsettled⟩ := checked
  split at isRun
  · rename_i appText text gitSource eq
    split at isInsert
    · rename_i maker caller row choice value isEvent
      cases eq
      simp only [Bool.and_eq_true, decide_eq_true_eq] at isInsert isRun
      obtain ⟨rfl, rfl⟩ := isInsert
      refine ⟨maker, row, ⟨moment, among, ?_⟩, rfl, .inr ⟨⟨appText, gitSource, isRun ▸ live⟩, ?_⟩⟩
      · rw [isEvent]
        exact wrote_act ..
      · rintro ⟨other, otherAmong, status, failureError, _, _, _, wrote⟩
        have unlike := unsettled other otherAmong
        rw [wrote] at unlike
        simp at unlike
    · cases isInsert
  · cases isRun

theorem one_git_deployment_at_a_time_running : ∃ (cfg next : HubConfig) (event : HubEvent),
    cfg.exec (hub 1000) (.step 3 {}) = some (event, next) ∧
      Deploying cfg.world 3 (Uuid.repeated 1) ∧ OneDeployment cfg.world event := by
  have ran : (runChecked (hub 1000) (fun _ => leftAlone)
      (Config.idle (State.fresh plainKey [] [⟨1, false⟩])) siteDeployment).any (fun cfg =>
        deploying cfg.world 3 (Uuid.repeated 1) (Uuid.repeated 2) &&
          (cfg.exec (hub 1000) (.step 3 {})).any fun executed => leftAlone executed.1) = true := by
    decide +kernel
  obtain ⟨cfg, reachable, holds⟩ := runChecked_any (fun _ _ => leftAlone_sound) ran
  obtain ⟨busy, goesOn⟩ := Bool.and_eq_true_iff.1 holds
  obtain ⟨⟨event, next⟩, executed, fine⟩ := (Option.any_eq_true _ _).1 goesOn
  exact ⟨cfg, next, event, executed, deploying_sound busy,
    one_git_deployment_at_a_time State.blank_fresh reachable executed (leftAlone_sound fine)⟩

/-! A start that finds a deployment in progress. -/

/-- The errors of a start that is refused, or whose queries fail. -/
def Refuses {α : Type} (outcome : AppResult α) : Prop :=
  ∃ err, outcome = .error err ∧ ((∃ name, err = .deploymentInProgress name) ∨
    ∃ message, err = .db message)

/-- As long as the thread's start is in progress, another deployment of the app is. -/
structure Meanwhile (starter : Nat) (appId : Uuid) (w : HubWorld) (event : HubEvent) : Prop where
  leftAlone : LeftAlone w event
  deploying : ∀ appText, (starter, .startGitDeployment appText) ∈ w.live →
    ∃ other, other ≠ starter ∧ Deploying w other appId

/-- What a start meets then, whenever it looks. -/
def Blocked (starter : Nat) (appId : Uuid) (w : HubWorld) : Prop :=
  ∀ appText, (starter, .startGitDeployment appText) ∈ w.live →
    FromGit w appId ∧ ¬ NonePending w appId

/-- The start of the thread is refused. -/
def TurnedAway (starter : Nat) (appId : Uuid) (_ : HubWorld) (thread : Nat) (call : Call)
    (reply : Reply) : Prop :=
  thread = starter → ∀ appText, call = .startGitDeployment appText →
    Uuid.parseStr appText = some appId → ∃ outcome, reply = .deployment outcome ∧ Refuses outcome

section Refusals

variable {starter : Nat} {appText : String} {α : Type}

theorem Underway.blocked (underway : Underway w) (ledger : Ledger w)
    (meanwhile : Meanwhile starter appId w event) : Blocked starter appId w := by
  intro appText live
  obtain ⟨other, _, deploying⟩ := meanwhile.deploying appText live
  refine ⟨underway.git other appId deploying, fun none => ?_⟩
  obtain ⟨maker, first, inserted, rfl, inHand⟩ := deploying
  obtain ⟨row, found, pending⟩ := underway.pending other first.id inHand
  obtain ⟨maker', first', inserted', sameId, sameApp, _⟩ := ledger.rows.origin first.id row found
  have same := ledger.rows.once maker' maker first' first inserted' inserted sameId
  exact none first.id row found (sameApp.symm.trans (same ▸ rfl)) pending

theorem runQuery_failed {state state' : State} {q : Query} {choice : Choice} {err : AppError}
    (ran : state.runQuery q choice = (.error err, state')) : ∃ message, err = .db message := by
  unfold State.runQuery at ran
  split at ran
  · cases ran
    exact ⟨_, rfl⟩
  · split at ran <;> cases ran
    exact ⟨_, rfl⟩

theorem refuses_failed {q : Query} {choice : Choice} {err : AppError}
    (moves : w.Moves (hub limit) (.act thread call (.query q) choice (.error err)) w') :
    Refuses (.error err : AppResult α) :=
  ⟨err, rfl, .inr (runQuery_failed (Option.some.inj (act_performed moves)))⟩

abbrev refusing (starter : Nat) (appId : Uuid) :
    Discipline Act Act.Res Call Reply State Choice :=
  concluding (fun w _ => Blocked starter appId w) (TurnedAway starter appId)

theorem frame_refusing {acts : Act → Prop} {calls : Call → Prop} :
    Frame (hub limit) (refusing starter appId) thread call acts calls fun _ => True :=
  frame_const True

theorem free_refusing {calls : Call → Prop} :
    Free (hub limit) (refusing starter appId) thread call (fun _ => True) calls := free_concluding

/-- The start finds the app, and its repository. -/
theorem safe_refusedApp (parsed : Uuid.parseStr appText = some appId) :
    Safe (hub limit) (refusing starter appId) starter (.startGitDeployment appText)
      (findAppRowById appText).run
      (Outcome (fun row _ => row.id = appId ∧ ∃ gitSource, row.source = .git gitSource)
        fun err _ => Refuses (.error err : AppResult Unit)) w := by
  unfold findAppRowById
  rw [parsed]
  refine Safe.bindE (safe_read free_refusing frame_refusing trivial rfl trivial ?_ ?_)
  · intro w₀ w₁ choice found _ _ moves allowed _
    obtain ⟨gitSource, app, there, source⟩ := (allowed.condition appText (acting_live moves)).1
    have answer : found = some app :=
      (congrArg Prod.fst (Option.some.inj (read_answer rfl moves).2)).symm.trans there
    subst answer
    exact ⟨Database.app?_id there, gitSource, source⟩
  · intro w₀ w₁ choice err _ _ moves _
    exact refuses_failed moves

/-- The start finds the Pending row. -/
theorem safe_refusedPending {row : AppRow} (sameId : row.id = appId) :
    Safe (hub limit) (refusing starter appId) starter (.startGitDeployment appText)
      (requireNonePending row).run
      (Outcome (fun _ _ => False) fun err _ => Refuses (.error err : AppResult Unit)) w := by
  refine Safe.bindE (safe_read free_refusing frame_refusing trivial rfl trivial ?_ ?_)
  · intro w₀ w₁ choice rows _ _ moves allowed _
    have blocked := (allowed.condition appText (acting_live moves)).2
    have answer : w₀.shared.db.deploymentsOf row.id = rows :=
      congrArg Prod.fst (Option.some.inj (read_answer rfl moves).2)
    dsimp only [Outcome]
    split
    · exact ⟨_, rfl, .inl ⟨row.name, rfl⟩⟩
    · rename_i noneListed
      refine absurd (fun id old found inApp isPending => noneListed ?_) blocked
      have oldId := Database.deployment?_id found
      exact List.any_eq_true.2 ⟨old, answer ▸ Database.mem_deploymentsOf.2
        ⟨oldId ▸ found, inApp.trans sameId.symm⟩, by simpa using isPending⟩
  · intro w₀ w₁ choice err _ _ moves _
    exact refuses_failed moves

theorem safe_foundSource {row : AppRow} {gitSource : GitSource} (source : row.source = .git gitSource) :
    Safe (hub limit) (refusing starter appId) thread call (requireGitSource row).run
      (Outcome (fun _ _ => True) fun _ _ => False) w := by
  unfold requireGitSource
  rw [source]
  trivial

theorem Refuses.error {β : Type} {err : AppError} (refuses : Refuses (.error err : AppResult α)) :
    Refuses (.error err : AppResult β) := by
  obtain ⟨_, ⟨⟩, isRefusal⟩ := refuses
  exact ⟨err, rfl, isRefusal⟩

theorem safe_refusedStart (parsed : Uuid.parseStr appText = some appId) :
    Safe (hub limit) (refusing starter appId) starter (.startGitDeployment appText)
      (startGitDeployment appText).run (fun outcome _ => Refuses outcome) w := by
  have inserts : ∀ w₁, Safe (hub limit) (refusing starter appId) starter
      (.startGitDeployment appText) (insertPending appText).run (fun outcome _ => Refuses outcome)
      w₁ := by
    intro w₁
    refine Safe.seqE (safe_refusedApp parsed) ?_ fun _ _ => Refuses.error
    rintro row w₂ ⟨sameId, gitSource, source⟩
    refine Safe.seqE (safe_foundSource source) (fun _ w₃ _ => ?_) fun _ _ => False.elim
    exact Safe.seqE (safe_refusedPending sameId) (fun _ _ => False.elim) fun _ _ => Refuses.error
  have locked : Safe (hub limit) (refusing starter appId) starter (.startGitDeployment appText)
      (createPendingGitDeployment appText).run (fun outcome _ => Refuses outcome) w :=
    safe_withWriteLock concluding_grounded free_concluding (lasting_const True)
      (fun outcome => lasting_const (Refuses outcome)) trivial fun w₁ _ _ => inserts w₁
  refine Safe.bindE (locked.mono ?_)
  rintro outcome w₁ ⟨err, rfl, isRefusal⟩
  exact ⟨err, rfl, isRefusal⟩

theorem refusing_sound : Sound (hub limit) (refusing starter appId) := by
  refine concluding_sound fun w event call w' numbered meets moves _ => ?_
  by_cases isStart : w.next = starter ∧ ∃ appText, call = .startGitDeployment appText ∧
      Uuid.parseStr appText = some appId
  · obtain ⟨rfl, appText, rfl, parsed⟩ := isStart
    exact safe_concluded (safe_refusedStart parsed) (fun outcome => lasting_const (Refuses outcome))
      fun outcome _ refuses _ _ _ _ => ⟨outcome, rfl, refuses⟩
  · exact safe_indifferent (fun _ _ same appText eq parsed =>
      absurd ⟨same, appText, eq, parsed⟩ isStart) _

end Refusals

/-- A start that is in progress only while another deployment of the app is, in a run in which
nobody disturbs the deployments in progress, is refused, unless a query of its own fails. -/
theorem start_refused_meanwhile {state : State} (blank : state.Blank) {cfg next : HubConfig}
    {starter : Nat} (reachable : Reachable (hub limit) (Meanwhile starter appId) (Config.idle state) cfg)
    {command : Command Call Choice} {appText : String} {reply : Reply}
    (parsed : Uuid.parseStr appText = some appId)
    (executed : cfg.exec (hub limit) command =
      some (.finish starter (.startGitDeployment appText) reply, next))
    (meanwhile : Meanwhile starter appId cfg.world
      (.finish starter (.startGitDeployment appText) reply)) :
    ∃ outcome, reply = .deployment outcome ∧ Refuses outcome := by
  have blocked : Reachable (hub limit) (fun w _ => Blocked starter appId w) (Config.idle state) cfg :=
    (reachable.assume fun cfg₁ cfg₂ event before executes meanwhile =>
      (underway_reachable (fun _ _ holds => holds.leftAlone) blank before).blocked
        (meets_next blank before executes meanwhile).ledger meanwhile).mono fun _ _ => And.right
  have underway := underway_reachable (fun _ _ holds => Meanwhile.leftAlone holds) blank reachable
  have meets := meets_next blank reachable (Config.exec_executes executed) meanwhile
  exact concludes_in_run refusing_sound blank blocked executed
    (underway.blocked meets.ledger meanwhile) rfl appText rfl parsed

/-- Checks that the starter is in progress only while the executor is. -/
def meanwhile (starter executor : Nat) (appId id : Uuid) (w : HubWorld) (event : HubEvent) : Bool :=
  leftAlone event && starter ≠ executor && (w.live.all fun entry => entry.1 ≠ starter ||
    deploying w executor appId id)

theorem meanwhile_sound {starter executor : Nat}
    (checked : meanwhile starter executor appId id w event = true) :
    Meanwhile starter appId w event := by
  simp only [meanwhile, Bool.and_eq_true, List.all_eq_true, decide_eq_true_eq, Bool.or_eq_true] at checked
  obtain ⟨⟨fine, different⟩, all⟩ := checked
  refine ⟨leftAlone_sound fine, fun appText live => ⟨executor, Ne.symm different, ?_⟩⟩
  rcases all _ live with other | busy
  · exact absurd rfl other
  · exact deploying_sound busy

/-- Checks that the event ends a start for the app. -/
def endsStart (thread : Nat) (appText : String) : HubEvent → Bool
  | .finish other call _ => other = thread && call = .startGitDeployment appText
  | _ => false

theorem start_refused_meanwhile_running : ∃ (cfg next : HubConfig) (reply : Reply),
    cfg.exec (hub 1000) (.step 4 {}) =
        some (.finish 4 (.startGitDeployment (Uuid.repeated 1).toString) reply, next) ∧
      ∃ outcome, reply = .deployment outcome ∧ Refuses outcome := by
  let appText := (Uuid.repeated 1).toString
  let plain : Choice := {}
  have ran : (runChecked (hub 1000) (meanwhile 4 3 (Uuid.repeated 1) (Uuid.repeated 2))
      (Config.idle (State.fresh plainKey [] [⟨1, false⟩]))
      (siteDeployment ++ .start (.startGitDeployment appText) :: steps 4 4 plain)).any (fun cfg =>
        (cfg.exec (hub 1000) (.step 4 {})).any fun executed => endsStart 4 appText executed.1 &&
          meanwhile 4 3 (Uuid.repeated 1) (Uuid.repeated 2) cfg.world executed.1) = true := by
    decide +kernel
  obtain ⟨cfg, reachable, holds⟩ := runChecked_any (fun _ _ => meanwhile_sound) ran
  obtain ⟨⟨event, next⟩, executed, holds⟩ := (Option.any_eq_true _ _).1 holds
  obtain ⟨ends, fine⟩ := Bool.and_eq_true_iff.1 holds
  cases event with
  | finish thread call reply =>
      simp only [endsStart, Bool.and_eq_true, decide_eq_true_eq] at ends
      obtain ⟨rfl, rfl⟩ := ends
      exact ⟨cfg, next, reply, executed, start_refused_meanwhile State.blank_fresh reachable
        (Uuid.parseStr_toString _) executed (meanwhile_sound fine)⟩
  | _ => cases ends

end Berth
