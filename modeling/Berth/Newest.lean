import Mathlib.Data.List.Pairwise
import Berth.Conditions
import Berth.Interleave.Past

/-!
Which of several uploads to one app ends up live. An upload draws its id first, and records and
activates its deployment later, each under its own hold of the write lock.
-/

namespace Berth

open Interleave Interleave.Discipline Interleave.Fallible

variable {limit thread : Nat} {call : Call} {w w' : HubWorld} {event : HubEvent}
variable {id appId : Uuid} {appText : String}

/-- The id of the deployment that `list_deployments` sorts last. -/
def newest (db : Database) (appId : Uuid) : Option Uuid :=
  let rows := db.deploymentsOf appId
  let sorted := rows.insertionSort fun left right => ¬ right.id < left.id
  sorted.getLast?.map DeploymentRow.id

theorem newest_eq {db : Database} {row : DeploymentRow} (member : row ∈ db.deploymentsOf appId)
    (greatest : ∀ other ∈ db.deploymentsOf appId, ¬ row.id < other.id) :
    newest db appId = some row.id := by
  let before : DeploymentRow → DeploymentRow → Prop := fun left right => ¬ right.id < left.id
  have total : Std.Total before := ⟨fun left right => Uuid.not_lt_total left.id right.id⟩
  have trans : IsTrans DeploymentRow before := ⟨fun _ _ _ => Uuid.not_lt_trans⟩
  have pairwise := List.pairwise_insertionSort before (db.deploymentsOf appId)
  have inSorted : row ∈ (db.deploymentsOf appId).insertionSort before :=
    (List.mem_insertionSort before).2 member
  have nonempty := List.ne_nil_of_mem inSorted
  have last := pairwise.rel_getLast_of_rel_getLast_getLast inSorted (Uuid.not_lt_self _)
  have fromDb := (List.mem_insertionSort before).1 (List.getLast_mem nonempty)
  have same := Uuid.eq_of_not_lt last (greatest _ fromDb)
  rw [newest, List.getLast?_eq_some_getLast nonempty, Option.map_some, same]

/-! An upload that succeeds has activated what it has recorded. -/

def Activated (w : HubWorld) (appId id : Uuid) : Prop :=
  w.Did fun event => ∃ thread, Wrote thread (.setActiveDeployment appId id) event

/-- Whatever the thread has recorded, it has activated. -/
def Delivered (w : HubWorld) (thread : Nat) : Prop :=
  ∀ row, Inserted w thread row → Activated w row.appId row.id

/-- An upload only succeeds when it has activated its deployment. -/
def Delivers (w : HubWorld) (thread : Nat) (call : Call) (reply : Reply) : Prop :=
  Uploads call → ∀ deployment, reply = .deployment (.ok deployment) → Delivered w thread

def delivering : Discipline Act Act.Res Call Reply State Choice :=
  concluding (fun _ _ => True) Delivers

theorem delivering_grounded : Grounded delivering := concluding_grounded

theorem free_delivering {acts : Act → Prop} {calls : Call → Prop} :
    Free (hub limit) delivering thread call acts calls := free_concluding

theorem safe_anyway {α : Type} (program : Async α) :
    Safe (hub limit) delivering thread call program (fun _ _ => True) w :=
  Safe.free program.uses_all free_delivering

def Act.RecordsNothing (action : Act) : Prop := ∀ row, action ≠ .query (.insertDeployment row)

/-- What the thread has recorded so far. -/
theorem lasting_recorded (among : DeploymentRow → Prop) :
    Lasting limit thread call Act.RecordsNothing (fun _ => True) fun w =>
      ∀ row, Inserted w thread row → among row := by
  intro w event w' around own before row inserted
  rcases (inserted_iff around.moves).1 inserted with wrote | earlier
  · have mine := own wrote.thread
    obtain ⟨_, _, _, rfl⟩ := wrote
    cases mine with
    | act nothing => exact absurd rfl (nothing row)
  · exact before row earlier

theorem lasting_delivered :
    Lasting limit thread call Act.RecordsNothing (fun _ => True) fun w => Delivered w thread := by
  intro w event w' around own before row inserted
  exact around.moves.did (lasting_recorded (fun row => Activated w row.appId row.id) w event w' around
    own before row inserted)

theorem looks_recordNothing (action : Act) (looks : action.Looks) : action.RecordsNothing := by
  rintro row rfl
  cases looks

/-- A program that records nothing changes nothing about what the thread has recorded. -/
theorem safe_records {α : Type} {program : AsyncResult α} (among : DeploymentRow → Prop)
    (takes : Takes Act.RecordsNothing (fun _ => True) program)
    (holds : ∀ row, Inserted w thread row → among row) :
    Safe (hub limit) delivering thread call program.run
      (fun _ w' => ∀ row, Inserted w' thread row → among row) w :=
  Safe.frame takes free_delivering ((lasting_recorded among).frame delivering_grounded) holds

section Upload

variable {zipPath staging : Path} {originalFilename : Option String} {uploadSizeBytes : Nat}

/-- The one deployment the thread has recorded. -/
def Names (appText : String) (id : Uuid) (row : DeploymentRow) : Prop :=
  Uuid.parseStr appText = some row.appId ∧ row.id = id

theorem safe_setActiveNamed (named : ∀ row, Inserted w thread row → Names appText id row) :
    Safe (hub limit) delivering thread call (setActive appText id.toString).run
      (Outcome (fun _ w' => Delivered w' thread) fun _ _ => True) w := by
  have lasts : Lasting limit thread call Act.RecordsNothing (fun _ => True) fun w =>
      ∀ row, Inserted w thread row → Names appText id row := lasting_recorded _
  have frame := (lasts.mono looks_recordNothing fun _ => False.elim).frame delivering_grounded
  have looks : Free (hub limit) delivering thread call Act.Looks fun _ => False := free_delivering
  refine Safe.seqE (safe_findAppRowById looks frame (fun _ => rfl) named) ?_ fun _ _ _ => trivial
  rintro appRow w₁ ⟨named, appParsed, _⟩
  refine Safe.seqE (safe_findDeploymentRow looks frame (fun _ => rfl) named) ?_ fun _ _ _ => trivial
  rintro deploymentRow w₂ ⟨named, parsed, _⟩
  rw [Uuid.parseStr_toString] at parsed
  refine safe_action delivering_grounded lasts named ?_
  rintro w₃ choice (err | value) w₄ named ready moves allowed
  · exact ⟨concludes_act, fun _ _ => trivial⟩
  · refine ⟨concludes_act, fun around _ row inserted => ?_⟩
    have recorded := lasts _ _ _ around (fun _ => .act (by rintro _ ⟨⟩)) named row inserted
    have sameApp : appRow.id = row.appId := Option.some.inj (appParsed.symm.trans recorded.1)
    have sameId : deploymentRow.id = row.id :=
      (Option.some.inj parsed).symm.trans recorded.2.symm
    exact (moves.did_iff _).2 (.inl ⟨thread, sameApp ▸ sameId ▸ wrote_act ..⟩)

theorem safe_activateNamed (named : ∀ row, Inserted w thread row → Names appText id row) :
    Safe (hub limit) delivering thread call (activateDeployment appText id.toString).run
      (Outcome (fun _ w' => Delivered w' thread) fun _ _ => True) w := by
  have locks : ∀ action : Act, action.Locks → action.RecordsNothing := by
    rintro _ locks row rfl
    exact locks
  refine safe_withWriteLock delivering_grounded free_delivering
    ((lasting_recorded (Names appText id)).mono locks fun _ => False.elim) ?_ named
    fun w₁ named _ => safe_setActiveNamed named
  rintro (err | _)
  · exact lasting_const True
  · exact lasting_delivered.mono locks fun _ => False.elim

/-- The locked part of an upload records the deployment under the id drawn for it. -/
theorem safe_placeNamed (none : ∀ row, Inserted w thread row → False) :
    Safe (hub limit) delivering thread call
      (placeDeployment appText id staging originalFilename uploadSizeBytes).run
      (Outcome (fun deployment w' => deployment.id = id.toString ∧
        ∀ row, Inserted w' thread row → Names appText id row) fun _ _ => True) w := by
  have nothing : Lasting limit thread call Act.RecordsNothing (fun _ => True) fun w =>
      ∀ row, Inserted w thread row → False := lasting_recorded _
  have frame := (nothing.mono looks_recordNothing fun _ => False.elim).frame delivering_grounded
  have looks : Free (hub limit) delivering thread call Act.Looks fun _ => False := free_delivering
  refine Safe.bindE (Safe.onError ((safe_findAppRowById looks frame (fun _ => rfl) none).mono ?_))
  rintro (err | appRow) w₁ found
  · exact safe_anyway _
  obtain ⟨none, parsed, _⟩ := found
  have moves : Takes Act.RecordsNothing (fun _ => True) (Fallible.onError
      (rename staging (deploymentDir appRow.id.toString id.toString))
      (removeDirAllLogged staging)) :=
    uses_onError (Program.uses_perform (by rintro _ ⟨⟩))
      ((Program.uses_perform (by rintro _ ⟨⟩)).bind fun _ => Program.uses_done _)
  refine Safe.thenE (safe_records _ moves none) (fun _ w₂ none => ?_) fun _ _ _ => trivial
  refine Safe.bindE (Safe.onError (safe_action delivering_grounded nothing none ?_))
  rintro w₃ choice (err | value) w₄ none ready moves allowed
  · exact ⟨concludes_act, fun _ _ => safe_anyway _⟩
  · refine ⟨concludes_act, fun _ _ => ⟨rfl, fun row inserted => ?_⟩⟩
    rcases (inserted_iff moves).1 inserted with wrote | before
    · cases wrote.action.2
      exact ⟨parsed, rfl⟩
    · exact (none row before).elim

theorem safe_createDelivered (none : ∀ row, Inserted w thread row → False) :
    Safe (hub limit) delivering thread call
      (createDeployment appText zipPath originalFilename uploadSizeBytes).run
      (Outcome (fun _ w' => Delivered w' thread) fun _ _ => True) w := by
  have quiet : Takes Act.RecordsNothing (fun _ => True) nowV7 :=
    uses_lift (Program.uses_perform (by rintro _ ⟨⟩))
  refine Safe.thenE (safe_records _ quiet none) (fun id w₁ none => ?_) fun _ _ _ => trivial
  have draws : Takes Act.RecordsNothing (fun _ => True) (uniqueTmpPath "deployment") :=
    uses_lift (Program.uses_perform (by rintro _ ⟨⟩))
  refine Safe.thenE (safe_records _ draws none) (fun staging w₂ none => ?_) fun _ _ _ => trivial
  have stages : Takes Act.RecordsNothing (fun _ => True) (Fallible.onError
      (stageDeploymentFiles staging zipPath) (removeDirAllLogged staging)) := by
    refine uses_onError ?_ ((Program.uses_perform (by rintro _ ⟨⟩)).bind fun _ => Program.uses_done _)
    exact uses_bind (Program.uses_perform (by rintro _ ⟨⟩)) fun _ =>
      uses_bind (Program.uses_perform (by rintro _ ⟨⟩)) fun _ => Program.uses_perform (by rintro _ ⟨⟩)
  refine Safe.thenE (safe_records _ stages none) (fun _ w₃ none => ?_) fun _ _ _ => trivial
  have locks : ∀ action : Act, action.Locks → action.RecordsNothing := by
    rintro _ locks row rfl
    exact locks
  refine Safe.seqE (safe_withWriteLock delivering_grounded free_delivering
    ((lasting_recorded _).mono locks fun _ => False.elim) ?_ none
    fun w₄ none _ => safe_placeNamed none) ?_ fun _ _ _ => trivial
  · rintro (err | deployment)
    · exact lasting_const True
    · exact (lasting_const _).and ((lasting_recorded _).mono locks fun _ => False.elim)
  rintro deployment w₄ ⟨same, named⟩
  rw [same]
  exact Safe.seqE (safe_activateNamed named) (fun _ w₅ delivered => delivered)
    fun _ _ _ => trivial

theorem safe_uploadDelivered {fields : List Field}
    (none : ∀ row, Inserted w thread row → False) :
    Safe (hub limit) delivering thread call (uploadDeployment appText fields limit).run
      (Outcome (fun _ w' => Delivered w' thread) fun _ _ => True) w := by
  have draws : Takes Act.RecordsNothing (fun _ => True) (uniqueTmpPath "upload" (some "zip")) :=
    uses_lift (Program.uses_perform (by rintro _ ⟨⟩))
  have removes : ∀ zipPath,
      (removeFileLogged zipPath).Uses Act.RecordsNothing fun _ => True := fun _ =>
    (Program.uses_perform (by rintro _ ⟨⟩)).bind fun _ => Program.uses_done _
  refine Safe.thenE (safe_records _ draws none) (fun zipPath w₁ none => ?_) fun _ _ _ => trivial
  have streams : Takes Act.RecordsNothing (fun _ => True) (Fallible.onError
      (streamUploadToDisk zipPath limit fields) (removeFileLogged zipPath)) :=
    uses_onError (takes_streamUploadToDisk (by rintro _ ⟨⟩) (by rintro _ ⟨⟩) limit fields) (removes zipPath)
  refine Safe.thenE (safe_records _ streams none) (fun answer w₂ none => ?_) fun _ _ _ => trivial
  refine Safe.bindE (Safe.attempt ((safe_createDelivered none).mono ?_))
  rintro (err | deployment) w₃ delivered
  · exact Safe.bindE (Safe.lift ((safe_anyway _).mono fun _ _ _ => trivial))
  · have lasts : Lasting limit thread call Act.RecordsNothing (fun _ => True) fun w =>
        Delivered w thread := lasting_delivered
    exact Safe.bindE (Safe.lift ((Safe.frame (removes zipPath) free_delivering
      (lasts.frame delivering_grounded) delivered).mono fun _ _ done => done))

end Upload

theorem recorded_nothing (numbered : w.Numbered)
    (moves : w.Moves (hub limit) (.start w.next call) w') (row : DeploymentRow)
    (inserted : Inserted w' w.next row) : False := by
  rcases (inserted_iff moves).1 inserted with ⟨_, _, _, eq⟩ | before
  · cases eq
  · exact numbered.not_did (fun _ wrote => wrote.thread) before

theorem safe_replyDelivered {handler : AsyncResult Deployment}
    (safe : Safe (hub limit) delivering thread call handler.run
      (Outcome (fun _ w' => Delivered w' thread) fun _ _ => True) w) :
    Safe (hub limit) delivering thread call (replyTo .deployment handler)
      (Final (hub limit) delivering thread call) w := by
  refine safe_concluded safe ?_ ?_
  · rintro (err | deployment)
    · exact lasting_const True
    · exact lasting_delivered.mono (fun _ => False.elim) fun _ => False.elim
  · rintro (err | deployment) w' delivered uploads _ eq
    · cases eq
    · exact delivered

theorem delivering_sound : Sound (hub limit) delivering := by
  refine concluding_sound fun w event call w' numbered meets moves begins => ?_
  by_cases uploads : Uploads call
  · rcases begins with rfl | ⟨thread, forking, rfl⟩
    · have nothing := recorded_nothing numbered moves
      obtain ⟨appText, zipPath, name, size, rfl⟩ | ⟨appText, fields, rfl⟩ := uploads
      · exact safe_replyDelivered (safe_createDelivered nothing)
      · exact safe_replyDelivered (safe_uploadDelivered nothing)
    · obtain ⟨_, _, _, _, _, rfl, _⟩ := meets.permitted.forks _ _ _ _ rfl
      obtain ⟨_, _, _, _, eq⟩ | ⟨_, _, eq⟩ := uploads <;> cases eq
  · exact safe_indifferent (fun _ _ isUpload => absurd isUpload uploads) _

/-- The thread was an upload and has returned with a deployment. -/
def Returned (w : HubWorld) (thread : Nat) : Prop :=
  ∃ call deployment, Uploads call ∧ w.Did (· = .finish thread call (.deployment (.ok deployment)))

structure Fulfilled (w : HubWorld) : Prop where
  retired : w.Retired
  delivered : ∀ thread, Returned w thread → Delivered w thread

theorem fulfilled_always {state : State} (blank : state.Blank) {cfg : HubConfig}
    (reachable : Reachable (hub limit) (fun _ _ => True) (Config.idle state) cfg) :
    Fulfilled cfg.world := by
  have known := delivering_sound.grounded (fun _ _ meets => meets) (secure_idle trivial)
    (reachable_meets blank reachable)
  have start : Fulfilled (Config.idle state : HubConfig).world :=
    ⟨fun _ _ _ finished => absurd finished (Config.idle_not_did _ _),
      fun _ ⟨_, _, _, finished⟩ => absurd finished (Config.idle_not_did _ _)⟩
  refine known.invariant start ?_
  rintro w event w' ⟨retired, delivered⟩ moves ⟨meets, permit⟩
  refine ⟨retired.moves meets.numbered moves, ?_⟩
  rintro thread ⟨call, deployment, uploads, finished⟩ row inserted
  rcases (moves.did_iff _).1 finished with rfl | before
  · rcases (inserted_iff moves).1 inserted with ⟨_, _, _, eq⟩ | earlier
    · cases eq
    · exact moves.did (permit.permit trivial _ _ _ rfl uploads deployment rfl row earlier)
  · rcases (inserted_iff moves).1 inserted with ⟨caller, choice, value, rfl⟩ | earlier
    · cases moves with
      | act member _ => exact absurd member (retired _ _ _ before _)
    · exact moves.did (delivered thread ⟨call, deployment, uploads, before⟩ row earlier)

/-! Runs in which nothing but uploads touches the deployments of one app. -/

structure OnlyUploads (appId : Uuid) (w : HubWorld) (event : HubEvent) : Prop where
  activates : ∀ thread call id choice,
    event = .act thread call (.query (.setActiveDeployment appId id)) choice (.ok ()) → Uploads call
  records : ∀ thread call row choice,
    event = .act thread call (.query (.insertDeployment row)) choice (.ok ()) →
      row.appId = appId → Uploads call
  keeps : ∀ thread id row, Wrote thread (.deleteDeployment id) event →
    deployment? w id = some row → row.appId ≠ appId
  keepsApp : ∀ thread, ¬ Wrote thread (.deleteApp appId) event

/-- No upload activates its deployment where a newer one is already active. -/
def InOrder (appId : Uuid) (w : HubWorld) (event : HubEvent) : Prop :=
  ∀ thread call id choice row active,
    event = .act thread call (.query (.setActiveDeployment appId id)) choice (.ok ()) →
      Uploads call → app? w appId = some row → row.activeDeploymentId = some active → ¬ id < active

/-- A deployment of the app recorded since `start`. -/
def RecordedSince (start w : HubWorld) (appId : Uuid) (thread : Nat) (row : DeploymentRow) : Prop :=
  Inserted w thread row ∧ ¬ Inserted start thread row ∧ row.appId = appId

/-- There have been uploads to the app since `start`, they all have succeeded, and their ids are
greater than those of the deployments the app had before. -/
structure AllReturned (start w : HubWorld) (appId : Uuid) : Prop where
  some : ∃ thread row, RecordedSince start w appId thread row
  returned : ∀ thread row, RecordedSince start w appId thread row → Returned w thread
  later : ∀ thread old, Inserted start thread old → old.appId = appId →
    ∀ other row, RecordedSince start w appId other row → old.id < row.id

/-- The app has an active deployment, and it is not older than this one. -/
def ServesFrom (w : HubWorld) (appId id : Uuid) : Prop :=
  ∃ app active row, app? w appId = some app ∧ app.activeDeploymentId = some active ∧
    deployment? w active = some row ∧ row.appId = appId ∧ ¬ active < id

theorem serves_now (moves : w.Moves (hub limit) event w') (permitted : Permitted w event)
    (ledger : Ledger w) (wrote : Wrote thread (.setActiveDeployment appId id) event) :
    ServesFrom w' appId id := by
  obtain ⟨call, may⟩ := permitted.write wrote
  obtain ⟨row, found, inApp⟩ := MayActivate.found may
  obtain ⟨app, appFound⟩ := ledger.rows.parent id row found
  rw [inApp] at appFound
  obtain ⟨caller, choice, value, rfl⟩ := wrote
  cases rowsChange moves with
  | same _ _ silent => exact absurd trivial (silent _ _ (wrote_act ..))
  | setActive apps deployments =>
      refine ⟨{ app with activeDeploymentId := some id }, id, row, ?_, rfl,
        (deployments id).trans found, inApp, Uuid.not_lt_self id⟩
      rw [apps, if_pos rfl, appFound, Option.map_some]

/-- The uploads go on: what is live only becomes newer. -/
theorem ServesFrom.moves (serves : ServesFrom w appId id) (moves : w.Moves (hub limit) event w')
    (permitted : Permitted w event) (ledger : Ledger w) (only : OnlyUploads appId w event)
    (inOrder : InOrder appId w event) : ServesFrom w' appId id := by
  obtain ⟨app, active, row, found, isActive, there, inApp, notOlder⟩ := serves
  have change := rowsChange moves
  rcases change.app_after found with ⟨new, after, step⟩ | ⟨_, thread, wrote⟩
  · rcases step.active with same | ⟨thread, next, wrote, isNext⟩
    · rcases change.deployment_after there with
        ⟨row', there', step'⟩ | ⟨_, ⟨other, wrote⟩ | ⟨other, wrote⟩⟩
      · exact ⟨new, active, row', after, same.trans isActive, there', step'.appId.trans inApp,
          notOlder⟩
      · exact absurd inApp (only.keeps other active row wrote there)
      · exact absurd (inApp ▸ wrote) (only.keepsApp other)
    · obtain ⟨app', active', row', found', isActive', there', inApp', newer⟩ :=
        serves_now moves permitted ledger wrote
      obtain ⟨call, choice, value, rfl⟩ := wrote
      have forward := inOrder _ _ _ _ app active rfl (only.activates _ _ _ _ rfl) found isActive
      exact ⟨app', active', row', found', isActive', there', inApp',
        Uuid.not_lt_trans (Uuid.not_lt_trans notOlder forward) newer⟩
  · exact absurd wrote (only.keepsApp thread)

/-- How far the uploads since `start` have got. -/
structure Advancing (start : HubWorld) (appId : Uuid) (w : HubWorld) : Prop where
  recorded : ∀ id, Activated w appId id → Recorded w id
  serves : ∀ thread row, RecordedSince start w appId thread row → Activated w appId row.id →
    ServesFrom w appId row.id

theorem activated_recorded (moves : w.Moves (hub limit) event w') (permitted : Permitted w event)
    (ledger : Ledger w) (before : ∀ id, Activated w appId id → Recorded w id)
    (activated : Activated w' appId id) : Recorded w' id := by
  rcases (moves.did_iff _).1 activated with ⟨thread, wrote⟩ | earlier
  · obtain ⟨call, may⟩ := permitted.write wrote
    obtain ⟨row, found, _⟩ := MayActivate.found may
    obtain ⟨drawer, first, inserted, same, _⟩ := ledger.rows.origin id row found
    exact Recorded.moves ⟨drawer, first, inserted, same⟩ moves
  · exact (before id earlier).moves moves

theorem Advancing.moves {start : HubWorld} (advancing : Advancing start appId w)
    (moves : w.Moves (hub limit) event w') (permitted : Permitted w event) (ledger : Ledger w)
    (only : OnlyUploads appId w event) (inOrder : InOrder appId w event) :
    Advancing start appId w' := by
  refine ⟨fun id => activated_recorded moves permitted ledger advancing.recorded, ?_⟩
  rintro thread row ⟨inserted, fresh, inApp⟩ activated
  rcases (moves.did_iff _).1 activated with ⟨other, wrote⟩ | earlier
  · exact serves_now moves permitted ledger wrote
  · rcases (inserted_iff moves).1 inserted with wrote | before
    · exact absurd wrote ((advancing.recorded _ earlier).not_inserted ledger.rows permitted rfl)
    · exact (advancing.serves thread row ⟨before, fresh, inApp⟩ earlier).moves moves permitted
        ledger only inOrder

theorem recorded_always {state : State} (blank : state.Blank) {cfg : HubConfig}
    (reachable : Reachable (hub limit) (fun _ _ => True) (Config.idle state) cfg) :
    ∀ id, Activated cfg.world appId id → Recorded cfg.world id :=
  invariant_of_meets (fun w => ∀ id, Activated w appId id → Recorded w id) blank
    (fun _ activated => absurd activated (Config.idle_not_did _ _))
    (fun _ _ _ meets moves before _ =>
      activated_recorded moves meets.permitted meets.ledger before) reachable

/-- When all uploads have returned, the active deployment is the newest one, provided that none of
them was activated over a newer one. -/
theorem newest_upload_live {state : State} (blank : state.Blank) {start cfg : HubConfig}
    (before : Reachable (hub limit) (fun _ _ => True) (Config.idle state) start)
    (during : Reachable (hub limit)
      (fun w event => OnlyUploads appId w event ∧ InOrder appId w event) start cfg)
    (all : AllReturned start.world cfg.world appId) :
    ∃ app, app? cfg.world appId = some app ∧
      app.activeDeploymentId = newest cfg.world.shared.db appId := by
  have throughout := before.trans (during.mono fun _ _ _ => trivial)
  have known := ledger_sound.grounded (fun _ _ _ => trivial)
    (ledger_sound.secure (ledger_secure blank) before) during
  have initial : Advancing start.world appId start.world :=
    ⟨recorded_always blank before, fun _ _ since => absurd since.1 since.2.1⟩
  have advancing := known.invariant initial fun w event w' advancing moves ⟨fine, known⟩ =>
    advancing.moves moves (permitted_of_owned known.permit) known.inv fine.1 fine.2
  have ledger := reachable_ledger blank throughout
  have delivered := (fulfilled_always blank throughout).delivered
  have serves : ∀ thread row, RecordedSince start.world cfg.world appId thread row →
      ServesFrom cfg.world appId row.id := by
    intro thread row since
    have activated := delivered thread (all.returned thread row since) row since.1
    exact advancing.serves thread row since (since.2.2 ▸ activated)
  obtain ⟨first, upload, since⟩ := all.some
  obtain ⟨app, active, row, found, isActive, there, inApp, notOlder⟩ := serves first upload since
  refine ⟨app, found, isActive.trans ?_⟩
  have same := Database.deployment?_id there
  subst same
  refine (newest_eq (Database.mem_deploymentsOf.2 ⟨there, inApp⟩) ?_).symm
  intro other member
  obtain ⟨otherThere, otherInApp⟩ := Database.mem_deploymentsOf.1 member
  obtain ⟨thread, recorded, inserted, sameId, sameApp, _⟩ :=
    ledger.rows.origin other.id other otherThere
  rw [← sameId]
  by_cases old : Inserted start.world thread recorded
  · exact Uuid.not_lt_trans
      (Uuid.not_lt_of_lt (all.later thread recorded old (sameApp.trans otherInApp) first upload since))
      notOlder
  · obtain ⟨app', active', _, found', isActive', _, _, notOlder'⟩ :=
      serves thread recorded ⟨inserted, old, sameApp.trans otherInApp⟩
    rw [found] at found'
    cases found'
    rw [isActive] at isActive'
    cases isActive'
    exact notOlder'

/-- Two uploads to one app: the one with the smaller id records its deployment first, and then waits
for the other one, which is `count` steps long, before it goes on. -/
def overlappingUploads (count : Nat) : List (Command Call Choice) :=
  let app := Uuid.repeated 1
  let plain : Choice := {}
  let upload : Call := .uploadDeployment app.toString [⟨some "file", none, [.ok 1]⟩]
  .start .startup :: steps 0 7 plain ++
  .start (.createApp "app" .upload [] none 1) :: steps 1 13 { id := app } ++
  .start upload :: steps 2 13 { id := Uuid.repeated 10 } ++
  .start upload :: steps 3 count { id := Uuid.repeated 11 } ++ steps 2 7 plain ++
  steps 3 (20 - count) plain

/-- Checks of one event that only uploads record, activate or remove anything. -/
def onlyUploads : HubEvent → Bool
  | .act _ call (.query (.setActiveDeployment _ _)) _ _ => isUpload call
  | .act _ call (.query (.insertDeployment _)) _ _ => isUpload call
  | .act _ _ (.query (.deleteDeployment _)) _ _ => false
  | .act _ _ (.query (.deleteApp _)) _ _ => false
  | _ => true

theorem onlyUploads_sound (checked : onlyUploads event = true) : OnlyUploads appId w event := by
  refine ⟨?_, ?_, ?_, ?_⟩
  · rintro thread call id choice rfl
    exact uploads_of_isUpload checked
  · rintro thread call row choice rfl _
    exact uploads_of_isUpload checked
  · rintro thread id row ⟨call, choice, value, rfl⟩
    cases checked
  · rintro thread ⟨call, choice, value, rfl⟩
    cases checked

/-- Checks of one event that it does not activate a deployment over a newer one. -/
def inOrder (w : HubWorld) : HubEvent → Bool
  | .act _ _ (.query (.setActiveDeployment appId id)) _ _ =>
      (app? w appId).all fun row => row.activeDeploymentId.all fun active => ¬ id < active
  | _ => true

theorem inOrder_sound (checked : inOrder w event = true) : InOrder appId w event := by
  rintro thread call id choice row active rfl _ found isActive
  simpa [inOrder, found, isActive] using checked

/-- Checks of a history that every call that has recorded a deployment has succeeded. -/
def allReturned (w : HubWorld) : Bool :=
  w.history.all fun moment =>
    match moment.event with
    | .act thread _ (.query (.insertDeployment _)) _ _ => w.history.any fun later =>
        match later.event with
        | .finish other call (.deployment (.ok _)) => isUpload call && other = thread
        | _ => false
    | _ => true

theorem allReturned_sound (checked : allReturned w = true) {row : DeploymentRow}
    (inserted : Inserted w thread row) : Returned w thread := by
  obtain ⟨moment, member, call, choice, value, eq⟩ := inserted
  have found := List.all_eq_true.1 checked moment member
  rw [eq] at found
  obtain ⟨later, laterMember, finished⟩ := List.any_eq_true.1 found
  split at finished
  · rename_i other caller deployment isFinish
    simp only [Bool.and_eq_true, decide_eq_true_eq] at finished
    obtain ⟨uploads, rfl⟩ := finished
    exact ⟨caller, deployment, uploads_of_isUpload uploads, later, laterMember, isFinish⟩
  · cases finished

/-- Checks of a history that it contains an upload to the app. -/
def someRecorded (w : HubWorld) (appId : Uuid) : Bool :=
  w.history.any fun moment =>
    match moment.event with
    | .act _ _ (.query (.insertDeployment row)) _ (.ok _) => row.appId = appId
    | _ => false

theorem someRecorded_sound (checked : someRecorded w appId = true) :
    ∃ thread row, Inserted w thread row ∧ row.appId = appId := by
  obtain ⟨moment, member, found⟩ := List.any_eq_true.1 checked
  split at found
  · rename_i thread call row choice value eq
    exact ⟨thread, row, ⟨moment, member, call, choice, value, eq⟩, of_decide_eq_true found⟩
  · cases found

theorem allReturned_fresh {state : State} (returned : allReturned w = true)
    (recorded : someRecorded w appId = true) :
    AllReturned (Config.idle state : HubConfig).world w appId := by
  have nothing : ∀ thread row, ¬ Inserted (Config.idle state : HubConfig).world thread row :=
    fun _ _ => Config.idle_not_did _ _
  obtain ⟨thread, row, inserted, inApp⟩ := someRecorded_sound recorded
  exact ⟨⟨thread, row, inserted, nothing thread row, inApp⟩,
    fun _ _ since => allReturned_sound returned since.1,
    fun thread old before => absurd before (nothing thread old)⟩

theorem older_upload_goes_live : ¬ ∀ start cfg, Reachable (hub 1000) (fun _ _ => True)
    (Config.idle (State.fresh plainKey [] [⟨1, false⟩])) start →
    Reachable (hub 1000) (OnlyUploads (Uuid.repeated 1)) start cfg →
    AllReturned start.world cfg.world (Uuid.repeated 1) →
    ∃ app, app? cfg.world (Uuid.repeated 1) = some app ∧
      app.activeDeploymentId = newest cfg.world.shared.db (Uuid.repeated 1) := by
  intro always
  have ran : (runChecked (hub 1000) (fun _ event => onlyUploads event)
      (Config.idle (State.fresh plainKey [] [⟨1, false⟩])) (overlappingUploads 20)).any (fun cfg =>
        allReturned cfg.world && someRecorded cfg.world (Uuid.repeated 1) &&
          (app? cfg.world (Uuid.repeated 1)).all fun app =>
            app.activeDeploymentId ≠ newest cfg.world.shared.db (Uuid.repeated 1)) = true := by
    decide +kernel
  obtain ⟨cfg, reachable, holds⟩ := runChecked_any (fun _ _ => onlyUploads_sound) ran
  simp only [Bool.and_eq_true] at holds
  obtain ⟨⟨returned, recorded⟩, different⟩ := holds
  obtain ⟨app, found, same⟩ := always _ cfg .refl reachable (allReturned_fresh returned recorded)
  simp [found, same] at different

theorem newest_upload_live_in_order : ∃ cfg : HubConfig, ∃ app,
    app? cfg.world (Uuid.repeated 1) = some app ∧
      app.activeDeploymentId = newest cfg.world.shared.db (Uuid.repeated 1) := by
  have ran : (runChecked (hub 1000) (fun w event => onlyUploads event && inOrder w event)
      (Config.idle (State.fresh plainKey [] [⟨1, false⟩])) (overlappingUploads 13)).any (fun cfg =>
        allReturned cfg.world && someRecorded cfg.world (Uuid.repeated 1)) = true := by
    decide +kernel
  have sound : ∀ (w : HubWorld) event, (onlyUploads event && inOrder w event) = true →
      OnlyUploads (Uuid.repeated 1) w event ∧ InOrder (Uuid.repeated 1) w event := by
    intro w event checked
    rw [Bool.and_eq_true] at checked
    exact ⟨onlyUploads_sound checked.1, inOrder_sound checked.2⟩
  obtain ⟨cfg, reachable, holds⟩ := runChecked_any sound ran
  rw [Bool.and_eq_true] at holds
  exact ⟨cfg, newest_upload_live State.blank_fresh .refl reachable
    (allReturned_fresh holds.1 holds.2)⟩

end Berth
