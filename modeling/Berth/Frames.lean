import Berth.Ledger

/-!
What a thread of the hub may count on while others run: facts that no permitted step of somebody
else and no harmless step of its own invalidates.
-/

namespace Berth

open Interleave Interleave.Discipline

/-- Actions that leave the write lock and the rows of apps and deployments alone. -/
def Act.Calm : Act → Prop
  | .lock | .unlock | .serve => False
  | .query q => ¬ q.WritesRows
  | _ => True

/-- Actions that leave the rows alone and clear no path. -/
def Act.Gentle : Act → Prop
  | .serve | .rename _ _ | .removeDirAll _ | .removeFile _ => False
  | .query q => ¬ q.WritesRows
  | _ => True

def Act.Soft (action : Act) : Prop := action.Calm ∧ action.Gentle

/-- Actions that only look something up. -/
def Act.Looks : Act → Prop
  | .query q => q.IsRead = true
  | .encrypt _ | .decrypt _ => True
  | _ => False

theorem Act.Looks.soft {action : Act} (looks : action.Looks) : action.Soft := by
  cases action with
  | query q => cases q <;> first | exact ⟨id, id⟩ | cases looks
  | encrypt _ | decrypt _ => exact ⟨trivial, trivial⟩
  | lock | unlock | nowV7 | uniqueTmpPath _ _ | createDir _ | createDirAll _ | rename _ _
  | removeDirAll _ | removeFile _ | readDir _ | pathExists _ | createFile _ | writeFile _
  | unpackZip _ _ | zipDir _ _ | cloneShallow _ _ | dirSizeBytes _ | timeoutElapsed | agent _ _
  | connectedHosts | connect _ | disconnect _ | runBacklog _ | administer _ _ | serve =>
      exact looks.elim

theorem Act.Gentle.clears {action : Act} (gentle : action.Gentle) (root : Path) :
    ¬ action.Clears root := by
  cases action <;> first | exact id | exact gentle.elim

variable {limit : Nat} {thread : Nat} {call : Call} {w w' : HubWorld} {event : HubEvent}

/-- Actions that need no permission. -/
def Act.Harmless : Act → Prop
  | .serve | .rename _ _ | .removeDirAll _ | .removeFile _ => False
  | .query (.insertApp _ _) | .query (.setActiveDeployment _ _) | .query (.deleteApp _)
  | .query (.insertDeployment _) | .query (.updateStatus _ _ _)
  | .query (.deleteDeployment _) => False
  | _ => True

theorem Act.Gentle.harmless {action : Act} (gentle : action.Gentle) : action.Harmless := by
  cases action with
  | query q => cases q <;> first | trivial | exact absurd trivial gentle
  | serve | rename _ _ | removeDirAll _ | removeFile _ => exact gentle.elim
  | _ => trivial

theorem permitted_query {q : Query} {choice : Choice} {result : AppResult q.Result}
    (may : MayWrite w thread call q) :
    Permitted w (.act thread call (.query q) choice result) := by
  refine ⟨?_, ?_, ?_, ?_⟩ <;> intros
  · rename_i eq clears _
    cases eq
    exact clears.elim
  · rename_i eq
    cases eq
    exact may
  · rename_i eq
    cases eq
  · rename_i eq
    cases eq

theorem permitted_files {action : Act} {choice : Choice} {result : action.Res}
    (onFiles : action.OnFiles)
    (unheld : ∀ root path, action.Clears root → root <+: path → ¬ Held w thread path) :
    Permitted w (.act thread call action choice result) := by
  refine ⟨?_, ?_, ?_, ?_⟩ <;> intros <;> rename_i eq
  · rename_i path eq' clears
    cases eq'
    exact unheld _ _ clears eq
  · cases eq
    exact onFiles.elim
  · cases eq
  · cases eq
    exact onFiles.elim

theorem permitted_harmless {action : Act} {choice : Choice} {result : action.Res}
    (harmless : action.Harmless) : Permitted w (.act thread call action choice result) := by
  by_cases isQuery : ∃ q, action = .query q
  · obtain ⟨q, rfl⟩ := isQuery
    refine permitted_query ?_
    cases q <;> trivial
  · refine ⟨?_, ?_, ?_, ?_⟩ <;> intros <;> rename_i eq
    · rename_i path eq' clears
      cases eq'
      cases action <;> first | exact clears.elim | exact harmless.elim
    · cases eq
      exact absurd ⟨_, rfl⟩ isQuery
    · cases eq
    · cases eq
      exact harmless.elim

/-- A step of a permitted run, while the thread is alive. -/
structure Around (limit thread : Nat) (call : Call) (w : HubWorld) (event : HubEvent)
    (w' : HubWorld) : Prop where
  moves : w.Moves (hub limit) event w'
  numbered : w.Numbered
  ledger : Ledger w
  permitted : Permitted w event
  member : (thread, call) ∈ w.live
  still : (thread, call) ∈ w'.live

/-- The fact survives the steps of all others, and the thread's own steps among these. -/
def Lasting (limit thread : Nat) (call : Call) (acts : Act → Prop) (calls : Call → Prop)
    (fact : HubWorld → Prop) : Prop :=
  ∀ w event w', Around limit thread call w event w' →
    (event.thread = some thread → event.By thread call acts calls) → fact w → fact w'

/-- The disciplines whose runs keep the ledger. -/
structure Grounded (D : Discipline Act Act.Res Call Reply State Choice) : Prop where
  ledger : ∀ w event, D.Inv w → D.Allowed w event → Ledger w
  permitted : ∀ w event, D.Allowed w event → (event.Owned → D.Permit w event) → Permitted w event

theorem ledger_grounded : Grounded ledger :=
  ⟨fun _ _ inv _ => inv, fun _ _ _ permit => permitted_of_owned permit⟩

variable {D : Discipline Act Act.Res Call Reply State Choice} {acts acts' : Act → Prop}
variable {calls calls' : Call → Prop} {fact fact' : HubWorld → Prop} {id : Uuid}

theorem Lasting.frame (lasting : Lasting limit thread call acts calls fact)
    (grounded : Grounded D) : Frame (hub limit) D thread call acts calls fact := by
  refine ⟨?_, ?_⟩
  · intro w w' event interferes holds
    refine lasting w event w' ⟨interferes.moves, interferes.before.numbered, ?_, ?_,
      interferes.before.member, interferes.after.member⟩ (fun own => absurd own interferes.other) holds
    · exact grounded.ledger w event interferes.before.inv interferes.allowed
    · exact grounded.permitted w event interferes.allowed interferes.permit
  · intro w event w' own holds ready readyAfter moves allowed permit
    exact lasting w event w' ⟨moves, ready.numbered, grounded.ledger w _ ready.inv allowed,
      grounded.permitted w _ allowed fun _ => permit, ready.member, readyAfter.member⟩
      (fun _ => own) holds

theorem Lasting.mono (lasting : Lasting limit thread call acts calls fact)
    (fewer : ∀ action, acts' action → acts action)
    (fewerCalls : ∀ forked, calls' forked → calls forked) :
    Lasting limit thread call acts' calls' fact :=
  fun w event w' around own => lasting w event w' around fun same =>
    (own same).mono fewer fewerCalls

theorem Lasting.ofCalm (lasting : Lasting limit thread call Act.Calm calls fact) :
    Lasting limit thread call Act.Soft calls fact := lasting.mono (fun _ => And.left) fun _ => id

theorem Lasting.ofGentle (lasting : Lasting limit thread call Act.Gentle calls fact) :
    Lasting limit thread call Act.Soft calls fact := lasting.mono (fun _ => And.right) fun _ => id

theorem Lasting.and (left : Lasting limit thread call acts calls fact)
    (right : Lasting limit thread call acts calls fact') :
    Lasting limit thread call acts calls fun w => fact w ∧ fact' w :=
  fun w event w' around own holds =>
    ⟨left w event w' around own holds.1, right w event w' around own holds.2⟩

theorem Lasting.or (left : Lasting limit thread call acts calls fact)
    (right : Lasting limit thread call acts calls fact') :
    Lasting limit thread call acts calls fun w => fact w ∨ fact' w :=
  fun w event w' around own holds =>
    holds.imp (left w event w' around own) (right w event w' around own)

theorem Lasting.given {premise : Prop} (lasting : Lasting limit thread call acts calls fact) :
    Lasting limit thread call acts calls fun w => premise → fact w :=
  fun w event w' around own holds given => lasting w event w' around own (holds given)

/-- What does not come about by itself may be a premise. -/
theorem Lasting.imp (absent : Lasting limit thread call acts calls fun w => ¬ fact w)
    (kept : Lasting limit thread call acts calls fact') :
    Lasting limit thread call acts calls fun w => fact w → fact' w := by
  intro w event w' around own holds now
  by_cases before : fact w
  · exact kept w event w' around own (holds before)
  · exact absurd now (absent w event w' around own before)

theorem lasting_const (fact : Prop) : Lasting limit thread call acts calls fun _ => fact :=
  fun _ _ _ _ _ holds => holds

theorem lasting_did (happened : HubEvent → Prop) :
    Lasting limit thread call acts calls fun w => w.Did happened :=
  fun _ _ _ around _ holds => around.moves.did holds

/-- What the thread has not done so far, it has not done after other steps either. -/
theorem lasting_not_did {happened : HubEvent → Prop}
    (own : ∀ event, happened event → event.thread = some thread)
    (other : ∀ event, event.By thread call acts calls → ¬ happened event) :
    Lasting limit thread call acts calls fun w => ¬ w.Did happened := by
  intro w event w' around by_ not done
  rcases (around.moves.did_iff happened).1 done with now | before
  · exact other event (by_ (own event now)) now
  · exact not before

/-! The facts of the storage functions. -/

def Locked (w : HubWorld) (thread : Nat) : Prop := w.shared.lock = some thread

/-- The id was drawn by the thread, which has not used it yet. -/
def Fresh (w : HubWorld) (thread : Nat) (id : Uuid) : Prop :=
  w.shared.owner id = some thread ∧ ∀ row, row.id = id → ¬ Inserted w thread row

/-- The path was handed out to the thread for staging. -/
def Stages (w : HubWorld) (thread : Nat) (path : Path) : Prop :=
  ∃ label timestamp seq extension, path = tmpDir ++ [.staged label timestamp seq extension] ∧
    w.shared.stager seq = some thread

def Recorded (w : HubWorld) (id : Uuid) : Prop := ∃ thread row, Inserted w thread row ∧ row.id = id

/-- The row is gone for good. -/
def Removed (w : HubWorld) (id : Uuid) : Prop := deployment? w id = none ∧ Recorded w id

/-- The files are in place, unless the deployment has been deleted. -/
def Filed (w : HubWorld) (id : Uuid) : Prop :=
  Recorded w id ∧ ∀ row, deployment? w id = some row →
    Has w (deploymentFilesDir row.appId.toString id.toString)

theorem Around.alive (around : Around limit thread call w event w') : event ≠ .restart := by
  rintro rfl
  have still := around.still
  cases around.moves
  simp at still

theorem lasting_owner (id : Uuid) :
    Lasting limit thread call acts calls fun w => w.shared.owner id = some thread :=
  fun _ _ _ around _ owned => owner_kept around.moves owned

theorem lasting_stages (path : Path) :
    Lasting limit thread call acts calls fun w => Stages w thread path := by
  rintro w event w' around _ ⟨label, timestamp, seq, extension, eq, drawn⟩
  exact ⟨label, timestamp, seq, extension, eq, stager_kept around.moves around.alive drawn⟩

/-- Nobody but the thread itself gives its lock back. -/
theorem lasting_lockedUnless (fine : ∀ action, acts action → action ≠ .unlock) :
    Lasting limit thread call acts calls fun w => Locked w thread := by
  intro w event w' around own locked
  by_cases same : event.thread = some thread
  · cases own same with
    | act among =>
        cases perform_coreChange (act_performed around.moves) with
        | lock free => rw [Locked, free] at locked; cases locked
        | unlock => exact absurd rfl (fine _ among)
        | nowV7 _ lock | uniqueTmpPath lock | serve lock | same lock => exact lock.trans locked
    | fork _ =>
        cases around.moves
        exact locked
  · exact lock_kept around.moves around.alive same locked

theorem lasting_locked : Lasting limit thread call Act.Calm calls fun w => Locked w thread := by
  refine lasting_lockedUnless ?_
  rintro _ calm rfl
  exact calm

/-- Nobody inserts a row that has been inserted before. -/
theorem Recorded.not_inserted (recorded : Recorded w id) (rows : Rows w) (permitted : Permitted w event)
    {other : Nat} {row : DeploymentRow} (same : row.id = id) :
    ¬ Wrote other (.insertDeployment row) event := by
  intro wrote
  obtain ⟨call, may⟩ := permitted.insert wrote
  obtain ⟨drawer, first, inserted, idEq⟩ := recorded
  have drawn := rows.drawn drawer first inserted
  rw [idEq, ← same, may.drawn] at drawn
  cases drawn
  exact may.absent first (idEq.trans same.symm) inserted

theorem Recorded.moves (recorded : Recorded w id) (moves : w.Moves (hub limit) event w') : Recorded w' id := by
  obtain ⟨drawer, first, inserted, idEq⟩ := recorded
  exact ⟨drawer, first, moves.did inserted, idEq⟩

/-- What is inserted once is there or gone for good. -/
theorem Recorded.before (recorded : Recorded w id) (rows : Rows w) (moves : w.Moves (hub limit) event w')
    (permitted : Permitted w event) {row : DeploymentRow} (found : deployment? w' id = some row) :
    ∃ old, deployment? w id = some old ∧ DeploymentStep id old row event := by
  rcases (rowsChange moves).deployment_before found with before | ⟨_, same, other, wrote⟩
  · exact before
  · exact absurd wrote (recorded.not_inserted rows permitted same)

theorem Removed.moves (removed : Removed w id) (rows : Rows w)
    (moves : w.Moves (hub limit) event w') (permitted : Permitted w event) : Removed w' id := by
  refine ⟨?_, removed.2.moves moves⟩
  cases after : deployment? w' id with
  | none => rfl
  | some row =>
      obtain ⟨old, before, _⟩ := removed.2.before rows moves permitted after
      rw [removed.1] at before
      cases before

theorem lasting_removed (id : Uuid) : Lasting limit thread call acts calls fun w => Removed w id :=
  fun _ _ _ around _ removed =>
    removed.moves around.ledger.rows around.moves around.permitted

theorem lasting_filed (id : Uuid) : Lasting limit thread call acts calls fun w => Filed w id := by
  rintro w event w' around _ ⟨recorded, filed⟩
  refine ⟨recorded.moves around.moves, fun row found => ?_⟩
  obtain ⟨old, before, step⟩ :=
    recorded.before around.ledger.rows around.moves around.permitted found
  rw [step.appId]
  exact around.permitted.has around.moves (filed old before) fun _ =>
    .deployment before [.text "files"]

theorem lasting_fresh (fine : ∀ action, acts action → ∀ row, action ≠ .query (.insertDeployment row))
    (id : Uuid) : Lasting limit thread call acts calls fun w => Fresh w thread id := by
  rintro w event w' around own ⟨drawn, absent⟩
  refine ⟨owner_kept around.moves drawn, fun row same inserted => ?_⟩
  rcases (inserted_iff around.moves).1 inserted with wrote | before
  · have mine := own wrote.thread
    obtain ⟨_, _, _, rfl⟩ := wrote
    cases mine with
    | act among => exact fine _ among _ rfl
  · exact absent row same before

/-- What lies in a staging directory of the thread stays there. -/
theorem lasting_staged (path rest : Path) :
    Lasting limit thread call Act.Gentle calls fun w =>
      Stages w thread path ∧ Has w (path ++ rest) := by
  rintro w event w' around own ⟨stages, has⟩
  refine ⟨lasting_stages path w event w' around own stages, files_kept around.moves has ?_⟩
  intro other caller action choice result root eq clears below
  subst eq
  by_cases same : other = thread
  · subst same
    cases own rfl with
    | act gentle => exact gentle.clears root clears
  · obtain ⟨label, timestamp, seq, extension, rfl, drawn⟩ := stages
    have held : Held w other (tmpDir ++ Component.staged label timestamp seq extension :: rest) :=
      .staging (Ne.symm same) ⟨call, around.member⟩ drawn label timestamp extension rest
    exact around.permitted.clears _ _ _ _ _ root _ rfl clears below (by simpa using held)

/-! While the thread holds the write lock, nobody makes the writes that need it. -/

def Query.NeedsLock : Query → Prop
  | .insertApp _ _ | .setActiveDeployment _ _ | .deleteApp _ | .insertDeployment _
  | .deleteDeployment _ => True
  | _ => False

theorem MayWrite.locked {q : Query} (may : MayWrite w thread call q) (needs : q.NeedsLock) :
    Locked w thread := by
  cases q with
  | insertApp row creator => exact MayInsertApp.locked may
  | setActiveDeployment appId id => exact MayActivate.locked may
  | deleteApp id => exact may
  | insertDeployment row => exact MayInsert.locked may
  | deleteDeployment id => exact MayDelete.locked may
  | _ => exact needs.elim

theorem Query.NeedsLock.writes {q : Query} (needs : q.NeedsLock) : q.WritesRows := by
  cases q <;> trivial

theorem Lasting.locked
    (keeps : ∀ w event w', Around limit thread call w event w' → Locked w thread →
      (∀ other q, Wrote other q event → ¬ q.NeedsLock) → fact w → fact w') :
    Lasting limit thread call Act.Calm calls fun w => Locked w thread ∧ fact w := by
  rintro w event w' around own ⟨locked, holds⟩
  refine ⟨lasting_locked w event w' around own locked, keeps w event w' around locked ?_ holds⟩
  intro other q wrote needs
  obtain ⟨caller, may⟩ := around.permitted.write wrote
  have same := (may.locked needs).symm.trans locked
  cases same
  have mine := own wrote.thread
  obtain ⟨_, _, _, rfl⟩ := wrote
  cases mine with
  | act calm => exact calm needs.writes

/-- The app exists, with this active deployment. -/
def AppThere (w : HubWorld) (id : Uuid) (active : Option Uuid) : Prop :=
  ∃ row, app? w id = some row ∧ row.activeDeploymentId = active

def DeploymentOf (w : HubWorld) (id appId : Uuid) : Prop :=
  ∃ row, deployment? w id = some row ∧ row.appId = appId

def NonePending (w : HubWorld) (appId : Uuid) : Prop :=
  ∀ id row, deployment? w id = some row → row.appId = appId → row.status ≠ .pending

theorem lasting_app (id : Uuid) (active : Option Uuid) :
    Lasting limit thread call Act.Calm calls fun w => Locked w thread ∧ AppThere w id active := by
  refine Lasting.locked fun w event w' around locked noWrite ⟨row, found, eq⟩ => ?_
  rcases (rowsChange around.moves).app_after found with ⟨new, after, step⟩ | ⟨_, other, wrote⟩
  · refine ⟨new, after, ?_⟩
    rcases step.active with same | ⟨other, deploymentId, wrote, _⟩
    · exact same.trans eq
    · exact absurd trivial (noWrite _ _ wrote)
  · exact absurd trivial (noWrite _ _ wrote)

theorem lasting_noApp (id : Uuid) :
    Lasting limit thread call Act.Calm calls fun w => Locked w thread ∧ app? w id = none := by
  refine Lasting.locked fun w event w' around locked noWrite absent => ?_
  cases after : app? w' id with
  | none => rfl
  | some row =>
      rcases (rowsChange around.moves).app_before after with
        ⟨old, before, _⟩ | ⟨_, _, other, creator, wrote⟩
      · rw [absent] at before
        cases before
      · exact absurd trivial (noWrite _ _ wrote)

theorem lasting_deployment (id appId : Uuid) :
    Lasting limit thread call Act.Calm calls fun w => Locked w thread ∧ DeploymentOf w id appId := by
  refine Lasting.locked fun w event w' around locked noWrite ⟨row, found, eq⟩ => ?_
  rcases (rowsChange around.moves).deployment_after found with
    ⟨new, after, step⟩ | ⟨_, ⟨other, wrote⟩ | ⟨other, wrote⟩⟩
  · exact ⟨new, after, step.appId.trans eq⟩
  · exact absurd trivial (noWrite _ _ wrote)
  · exact absurd trivial (noWrite _ _ wrote)

theorem lasting_nonePending (appId : Uuid) :
    Lasting limit thread call Act.Calm calls fun w => Locked w thread ∧ NonePending w appId := by
  refine Lasting.locked fun w event w' around locked noWrite none id row found eq => ?_
  rcases (rowsChange around.moves).deployment_before found with
    ⟨old, before, step⟩ | ⟨_, _, other, wrote⟩
  · rcases step.status with same | ⟨other, wrote⟩
    · rw [same.1]
      exact none id old before (step.appId.symm.trans eq)
    · obtain ⟨caller, may⟩ := around.permitted.write wrote
      exact may.1
  · exact absurd trivial (noWrite _ _ wrote)

theorem own_clears {action : Act} {choice : Choice} {result : action.Res} {caller : Call}
    {root : Path} (own : event.thread = some thread → event.By thread call Act.Soft calls)
    (eq : event = .act thread caller action choice result) : ¬ action.Clears root := by
  subst eq
  cases own rfl with
  | act soft => exact soft.2.clears root

/-- What the thread has put in place under the lock stays until it is recorded. -/
theorem lasting_placed (id appId : Uuid) (rest : Path) :
    Lasting limit thread call Act.Soft calls fun w => Locked w thread ∧ Fresh w thread id ∧
      Has w (deploymentDir appId.toString id.toString ++ rest) := by
  rintro w event w' around own ⟨locked, fresh, has⟩
  have own' := fun same => (own same).mono (fun _ => And.left) fun _ forks => forks
  refine ⟨lasting_locked w event w' around own' locked,
    lasting_fresh ?_ id w event w' around own' fresh, files_kept around.moves has ?_⟩
  · rintro _ calm row rfl
    exact calm trivial
  · intro other caller action choice result root eq clears below
    refine around.permitted.clears _ _ _ _ _ root _ eq clears below
      (.placingDeployment ?_ ⟨call, around.member⟩ locked fresh.1 fresh.2 rest)
    rintro rfl
    exact own_clears own eq clears

theorem lasting_placedApp (id : Uuid) :
    Lasting limit thread call Act.Soft calls fun w => Locked w thread ∧
      w.shared.owner id = some thread ∧ Has w (appDir id.toString) := by
  rintro w event w' around own ⟨locked, drawn, has⟩
  have own' := fun same => (own same).mono (fun _ => And.left) fun _ forks => forks
  refine ⟨lasting_locked w event w' around own' locked, owner_kept around.moves drawn,
    files_kept around.moves has ?_⟩
  intro other caller action choice result root eq clears below
  refine around.permitted.clears _ _ _ _ _ root _ eq clears below
    (.placingApp ?_ ⟨call, around.member⟩ locked drawn)
  rintro rfl
  exact own_clears own eq clears

end Berth
