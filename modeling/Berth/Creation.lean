import Berth.Scratch

/-!
What a creation that fails leaves behind: of an app, of an uploaded deployment, or of a git
deployment that is to be pending.
-/

namespace Berth

open Interleave Interleave.Discipline Interleave.Fallible

variable {limit thread : Nat} {call : Call} {w w' : HubWorld} {event : HubEvent} {path : Path}
variable {acts : Act → Prop} {calls : Call → Prop} {spared : Path → Prop} {staging root : Path}
variable {good : HubWorld → Nat → Call → Reply → Prop}

def CreatesApp (call : Call) : Prop :=
  ∃ name source envVars creator hostId, call = .createApp name source envVars creator hostId

/-- The call inserts the row of a git deployment that is to be pending. -/
def CreatesPending (call : Call) : Prop :=
  (∃ appText, call = .createPendingGitDeployment appText) ∨
    ∃ appText, call = .startGitDeployment appText

def Creation (call : Call) : Prop := CreatesApp call ∨ Uploads call ∨ CreatesPending call

/-- No step of a creation fails after which the code cleans nothing up, and no cleanup fails. -/
structure Covers (w : HubWorld) (event : HubEvent) : Prop where
  removesDir : ∀ thread call root choice result, Creation call →
    event = .act thread call (.removeDirAll root) choice result → choice.failure = none
  removesFile : ∀ thread call root choice result, Creation call →
    event = .act thread call (.removeFile root) choice result → choice.failure = none
  createsSubdir : ∀ thread call root choice result, CreatesApp call → Staging root →
    event = .act thread call (.createDir (root ++ [.text "deployments"])) choice result →
      result = .ok ()
  insertsApp : ∀ thread call row creator choice result, CreatesApp call →
    event = .act thread call (.query (.insertApp row creator)) choice result → result = .ok ()
  readsPermissions : ∀ thread call id choice result, CreatesApp call →
    event = .act thread call (.query (.permissionsOf id)) choice result → ∃ rows, result = .ok rows
  readsUsers : ∀ thread call ids choice result, CreatesApp call →
    event = .act thread call (.query (.usersIn ids)) choice result → ∃ users, result = .ok users
  findsApp : ∀ thread call id choice result, Uploads call → Records w thread →
    event = .act thread call (.query (.appById id)) choice result → ∃ row, result = .ok (some row)
  findsDeployment : ∀ thread call id appId choice result, Uploads call → Records w thread →
    event = .act thread call (.query (.deploymentById id appId)) choice result →
      ∃ row, result = .ok (some row)
  activates : ∀ thread call appId id choice result, Uploads call → Records w thread →
    event = .act thread call (.query (.setActiveDeployment appId id)) choice result →
      result = .ok ()
  insertsPending : ∀ thread call row choice result, CreatesPending call →
    event = .act thread call (.query (.insertDeployment row)) choice result → result = .ok ()

/-! What a thread has recorded so far. -/

/-- The thread has recorded no app and no deployment. -/
def Unrecorded (w : HubWorld) (thread : Nat) : Prop :=
  (∀ row creator, ¬ w.Did (Wrote thread (.insertApp row creator))) ∧ ¬ Records w thread

def Act.Records : Act → Prop
  | .query (.insertApp _ _) | .query (.insertDeployment _) => True
  | _ => False

theorem Unrecorded.moves (unrecorded : Unrecorded w thread) (moves : w.Moves (hub limit) event w')
    (own : ∀ call action choice value, event = .act thread call (.query action) choice (.ok value) →
      ¬ Act.Records (.query action)) : Unrecorded w' thread := by
  refine ⟨fun row creator done => ?_, fun ⟨row, inserted⟩ => ?_⟩
  · rcases (moves.did_iff _).1 done with ⟨_, _, _, rfl⟩ | before
    · exact own _ _ _ _ rfl trivial
    · exact unrecorded.1 row creator before
  · rcases (inserted_iff moves).1 inserted with ⟨_, _, _, rfl⟩ | before
    · exact own _ _ _ _ rfl trivial
    · exact unrecorded.2 ⟨row, before⟩

theorem lasting_unrecorded :
    Lasting limit thread call (fun action => ¬ action.Records) calls fun w => Unrecorded w thread := by
  intro w event w' around own unrecorded
  refine unrecorded.moves around.moves ?_
  rintro caller q choice value rfl
  cases own rfl with
  | act silent => exact silent

/-- What has been created so far is not recorded, and only what is spared is there. -/
def Spotless (w : HubWorld) (thread : Nat) (spared : Path → Prop) : Prop :=
  Unrecorded w thread ∧ Leaves w thread spared

/-- Actions that neither put anything anywhere nor record anything. -/
def Act.Quiet (action : Act) : Prop := action.Idle ∧ ¬ action.Records

theorem lasting_spotless :
    Lasting limit thread call Act.Quiet calls fun w => Spotless w thread spared :=
  (lasting_unrecorded.mono (fun _ => And.right) fun _ => id).and
    (lasting_idle.mono (fun _ => And.left) fun _ => id)

theorem looks_quiet (action : Act) (looks : action.Looks) : action.Quiet := by
  refine ⟨looks_idle action looks, fun records => ?_⟩
  cases action with
  | query q => cases q <;> first | exact records.elim | cases looks
  | _ => exact records.elim

theorem locks_quiet (action : Act) (locks : action.Locks) : action.Quiet := by
  refine ⟨locks_idle action locks, fun records => ?_⟩
  cases action <;> first | exact locks.elim | exact records.elim

theorem lasting_spotlessLocks :
    Lasting limit thread call Act.Locks calls fun w => Spotless w thread spared :=
  lasting_spotless.mono locks_quiet fun _ => id

theorem safe_quiet {α : Type} {program : Async α} (uses : program.Uses Act.Quiet fun _ => False)
    (spotless : Spotless w thread spared) :
    Safe (hub limit) (concluding Covers good) thread call program
      (fun _ w' => Spotless w' thread spared) w :=
  Safe.frame uses free_concluding (lasting_spotless.frame concluding_grounded) spotless

theorem Spotless.mono {spared' : Path → Prop} (spotless : Spotless w thread spared)
    (wider : ∀ path, spared path → spared' path) : Spotless w thread spared' :=
  ⟨spotless.1, spotless.2.mono fun path _ => wider path⟩

theorem Spotless.act {caller : Call} {action : Act} {choice : Choice} {result : action.Res}
    (spotless : Spotless w thread spared)
    (moves : w.Moves (hub limit) (.act thread caller action choice result) w')
    (silent : ¬ action.Records)
    (kept : action.Spares spared ∨ w'.shared.files = w.shared.files) :
    Spotless w' thread spared := by
  constructor
  · refine spotless.1.moves moves ?_
    rintro _ _ _ _ ⟨⟩
    exact silent
  · rcases kept with spares | files
    · refine spotless.2.moves moves ?_
      rintro _ _ _ _ ⟨⟩
      exact spares
    · exact spotless.2.same moves files

theorem Spotless.refusedDir {target : Path} {caller : Call} {choice : Choice} {err : AppError}
    (spotless : Spotless w thread spared)
    (moves : w.Moves (hub limit) (.act thread caller (.createDir target) choice (.error err)) w') :
    Spotless w' thread spared :=
  spotless.act moves id (.inr (congrArg State.files (createDir_error (act_performed moves))))

theorem Spotless.madeDir {target : Path} {caller : Call} {choice : Choice} {result : AppResult Unit}
    (spotless : Spotless w thread fun path => spared path ∨ staging <+: path)
    (isStaging : Staging staging) (below : staging <+: target)
    (moves : w.Moves (hub limit) (.act thread caller (.createDir target) choice result) w') :
    Spotless w' thread fun path => spared path ∨ staging <+: path := by
  have stages : Act.Stages staging (.createDir target) := by
    rintro _ rfl
    exact below
  exact spotless.act moves id (.inl (stages.spares isStaging))

/-- One step of a thread, with what the condition says about it. -/
theorem safe_covered {fact : HubWorld → Prop} {action : Act} {post : action.Res → HubWorld → Prop}
    (lasts : Lasting limit thread call (fun _ => False) (fun _ => False) fact) (holds : fact w)
    (runs : ∀ (w₀ : HubWorld) choice result w', fact w₀ →
      Covers w₀ (.act thread call action choice result) →
      w₀.Moves (hub limit) (.act thread call action choice result) w' → post result w') :
    Safe (hub limit) (concluding Covers good) thread call (act action) post w := by
  refine safe_action concluding_grounded lasts holds ?_
  intro w₀ choice result w' before ready moves allowed
  exact ⟨concludes_act, fun _ _ => runs w₀ choice result w' before allowed.condition moves⟩

theorem lasting_still {fact : HubWorld → Prop} (lasts : Lasting limit thread call acts calls fact) :
    Lasting limit thread call (fun _ => False) (fun _ => False) fact :=
  lasts.mono (fun _ => False.elim) fun _ => False.elim

theorem lasting_spotlessStill :
    Lasting limit thread call (fun _ => False) (fun _ => False) fun w => Spotless w thread spared :=
  lasting_spotless.mono (fun _ => False.elim) fun _ => id

/-! Creating an app. -/

section App

variable (creates : CreatesApp call)
include creates

/-- Once the directory of an app is in place, recording it does not fail. -/
theorem safe_recordingApp (row : AppRow) (creatorId : Option Int) :
    Safe (hub limit) (concluding Covers good) thread call (do
      query (.insertApp row creatorId)
      appFromRowWithPermissions row : AsyncResult App).run
      (Outcome (fun _ _ => True) fun _ _ => False) w := by
  refine Safe.bindE (safe_covered (lasting_const True) trivial ?_)
  intro w₁ choice result w₂ _ covers moves
  cases covers.insertsApp _ _ _ _ _ _ creates rfl
  refine Safe.bindE (Safe.bindE (safe_covered (lasting_const True) trivial ?_))
  intro w₃ choice result w₄ _ covers moves
  obtain ⟨rows, rfl⟩ := covers.readsPermissions _ _ _ _ _ creates rfl
  refine Safe.bindE (safe_covered (lasting_const True) trivial ?_)
  intro w₅ choice result w₆ _ covers moves
  obtain ⟨users, rfl⟩ := covers.readsUsers _ _ _ _ _ creates rfl
  trivial

theorem safe_removingSpotless
    (spotless : Spotless w thread fun path => spared path ∨ root <+: path) :
    Safe (hub limit) (concluding Covers good) thread call (removeDirAllLogged root)
      (fun _ w' => Spotless w' thread spared) w := by
  have quiet : (removeDirAllLogged root).Uses (fun action => ¬ action.Records) (fun _ => False) :=
    (Program.uses_perform id).bind fun _ => Program.uses_done _
  have unrecorded : Safe (hub limit) (concluding Covers good) thread call (removeDirAllLogged root)
      (fun _ w' => Unrecorded w' thread) w :=
    Safe.frame quiet free_concluding (lasting_unrecorded.frame concluding_grounded) spotless.1
  exact unrecorded.and (safe_removingDir (fun w choice result covers =>
    covers.removesDir thread call root choice result (.inl creates) rfl) spotless.2)

/-- What fails before the directory is in place takes the staging directory with it. -/
theorem safe_insertingApp {name : String} {source : AppSource} {envVars : List EnvVar}
    {creator : Option String} {hostId : Int} (spotless : Spotless w thread fun _ => False) :
    Safe (hub limit) (concluding Covers good) thread call
      (insertNewApp name source envVars creator hostId).run
      (Outcome (fun _ _ => True) fun _ w' => Spotless w' thread fun _ => False) w := by
  refine Safe.thenE (safe_quiet (takes_requireFreeName looks_quiet name) spotless)
    (fun _ w₁ spotless => ?_) fun _ _ spotless => spotless
  refine Safe.thenE (safe_quiet (takes_validateHostId looks_quiet hostId) spotless)
    (fun _ w₂ spotless => ?_) fun _ _ spotless => spotless
  refine Safe.thenE (safe_quiet (takes_findCreatorId looks_quiet creator) spotless)
    (fun creatorId w₃ spotless => ?_) fun _ _ spotless => spotless
  have draws : Takes Act.Quiet (fun _ => False) nowV7 :=
    uses_lift (Program.uses_perform ⟨fun _ => False.elim, False.elim⟩)
  refine Safe.thenE (safe_quiet draws spotless) (fun id w₄ spotless => ?_)
    fun _ _ spotless => spotless
  refine Safe.bindE (safe_drawing lasting_spotless ⟨fun _ => False.elim, False.elim⟩ spotless
    fun staging w₅ spotless isStaging => ?_)
  refine Safe.bindE (safe_covered lasting_spotlessStill spotless ?_)
  rintro w₆ choice (err | _) w₇ spotless covers moves
  · exact spotless.refusedDir moves
  have staged : Spotless w₇ thread fun path => False ∨ staging <+: path :=
    (spotless.mono fun _ => False.elim).madeDir isStaging (List.prefix_refl staging) moves
  refine Safe.bindE (safe_covered lasting_spotlessStill staged ?_)
  intro w₈ choice result w₉ staged covers moves
  cases covers.createsSubdir _ _ _ _ _ creates isStaging rfl
  have staged := staged.madeDir isStaging (List.prefix_append staging _) moves
  refine Safe.bindE (Safe.onError (safe_covered lasting_spotlessStill staged ?_))
  rintro w₁₀ choice (err | value) w₁₁ staged covers moves
  · have files := congrArg State.files (rename_error (act_performed moves))
    exact safe_removingSpotless creates (staged.act moves (fun records => records) (.inr files))
  · refine (safe_recordingApp creates ⟨id, name, source, envVars, none, hostId⟩ creatorId).mono ?_
    rintro (err | app) w₁₂ done
    · exact done.elim
    · trivial

theorem safe_creatingApp {name : String} {source : AppSource} {envVars : List EnvVarInput}
    {creator : Option String} {hostId : Int} (spotless : Spotless w thread fun _ => False) :
    Safe (hub limit) (concluding Covers good) thread call
      (createApp name source envVars creator hostId).run
      (Outcome (fun _ _ => True) fun _ w' => Spotless w' thread fun _ => False) w := by
  refine Safe.thenE (safe_quiet (takes_liftResult _) spotless) (fun _ w₁ spotless => ?_)
    fun _ _ spotless => spotless
  refine Safe.thenE (safe_quiet (takes_liftResult _) spotless) (fun _ w₂ spotless => ?_)
    fun _ _ spotless => spotless
  refine Safe.thenE (safe_quiet (takes_resolveEnvVarInputs looks_quiet envVars []) spotless)
    (fun resolved w₃ spotless => ?_) fun _ _ spotless => spotless
  refine Safe.thenE (safe_quiet (takes_liftResult _) spotless) (fun _ w₄ spotless => ?_)
    fun _ _ spotless => spotless
  refine safe_withWriteLock concluding_grounded free_concluding lasting_spotlessLocks ?_ spotless
    fun w₅ spotless _ => safe_insertingApp creates spotless
  rintro (err | app)
  · exact lasting_spotlessLocks
  · exact lasting_const True

end App

/-! Creating a git deployment that is pending. -/

section Pending

variable (creates : CreatesPending call) {appText : String}
include creates

theorem safe_insertingPending (spotless : Spotless w thread fun _ => False) :
    Safe (hub limit) (concluding Covers good) thread call (insertPending appText).run
      (Outcome (fun _ _ => True) fun _ w' => Spotless w' thread fun _ => False) w := by
  refine Safe.thenE (safe_quiet (takes_findAppRowById looks_quiet appText) spotless)
    (fun appRow w₁ spotless => ?_) fun _ _ spotless => spotless
  refine Safe.thenE (safe_quiet (takes_requireGitSource appRow) spotless)
    (fun gitSource w₂ spotless => ?_) fun _ _ spotless => spotless
  refine Safe.thenE (safe_quiet (takes_requireNonePending looks_quiet appRow) spotless)
    (fun _ w₃ spotless => ?_) fun _ _ spotless => spotless
  have draws : Takes Act.Quiet (fun _ => False) nowV7 :=
    uses_lift (Program.uses_perform ⟨fun _ => False.elim, False.elim⟩)
  refine Safe.thenE (safe_quiet draws spotless) (fun id w₄ spotless => ?_)
    fun _ _ spotless => spotless
  refine Safe.bindE (safe_covered lasting_spotlessStill spotless ?_)
  rintro w₅ choice (err | _) w₆ spotless covers moves
  · exact spotless.refusedDir moves
  refine Safe.bindE (safe_covered (lasting_const True) trivial ?_)
  intro w₇ choice result w₈ _ covers moves
  cases covers.insertsPending _ _ _ _ _ creates rfl
  trivial

theorem safe_creatingPending (spotless : Spotless w thread fun _ => False) :
    Safe (hub limit) (concluding Covers good) thread call (createPendingGitDeployment appText).run
      (Outcome (fun _ _ => True) fun _ w' => Spotless w' thread fun _ => False) w := by
  refine safe_withWriteLock concluding_grounded free_concluding lasting_spotlessLocks ?_ spotless
    fun w₁ spotless _ => safe_insertingPending creates spotless
  rintro (err | pending)
  · exact lasting_spotlessLocks
  · exact lasting_const True

theorem safe_startingGit (spotless : Spotless w thread fun _ => False) :
    Safe (hub limit) (concluding Covers good) thread call (startGitDeployment appText).run
      (Outcome (fun _ _ => True) fun _ w' => Spotless w' thread fun _ => False) w := by
  refine Safe.seqE (safe_creatingPending creates spotless) ?_ fun _ _ spotless => spotless
  rintro ⟨deployment, gitSource⟩ w₁ _
  refine Safe.bindE (Safe.lift ((Safe.free (Program.uses_all _) free_concluding).mono ?_))
  exact fun _ _ _ => trivial

end Pending

/-! Uploading a deployment. -/

section Upload

variable (uploads : Uploads call) {appText deploymentText : String} {appId id : Uuid}
variable {zipPath : Path} {originalFilename : Option String} {uploadSizeBytes : Nat}

theorem safe_recordless {α : Type} {program : Async α}
    (uses : program.Uses (fun action => ¬ action.Records) fun _ => False)
    (unrecorded : Unrecorded w thread) :
    Safe (hub limit) (concluding Covers good) thread call program
      (fun _ w' => Unrecorded w' thread) w :=
  Safe.frame uses free_concluding (lasting_unrecorded.frame concluding_grounded) unrecorded

theorem looks_recordless (action : Act) (looks : action.Looks) : ¬ action.Records :=
  (looks_quiet action looks).2

theorem lasting_unrecordedLocks :
    Lasting limit thread call Act.Locks calls fun w => Unrecorded w thread :=
  lasting_unrecorded.mono (fun action locks => (locks_quiet action locks).2) fun _ => id

theorem uses_removeDirRecordless (path : Path) :
    (removeDirAllLogged path).Uses (fun action => ¬ action.Records) calls :=
  (Program.uses_perform fun records => records).bind fun _ => Program.uses_done _

theorem uses_removeFileRecordless (path : Path) :
    (removeFileLogged path).Uses (fun action => ¬ action.Records) calls :=
  (Program.uses_perform fun records => records).bind fun _ => Program.uses_done _

/-- The locked part of an upload records its deployment last. -/
theorem safe_placingUnrecorded (unrecorded : Unrecorded w thread) :
    Safe (hub limit) (concluding Covers good) thread call
      (placeDeployment appText id staging originalFilename uploadSizeBytes).run
      (Outcome (fun deployment w' => Records w' thread ∧ deployment.id = id.toString ∧
          ∃ appId, Uuid.parseStr appText = some appId)
        fun _ w' => Unrecorded w' thread) w := by
  have lasts : Lasting limit thread call (fun action => ¬ action.Records) (fun _ => False) fun w =>
      Unrecorded w thread := lasting_unrecorded
  refine Safe.bindE (Safe.onError ((safe_findAppRowById free_concluding
    (lasts.frame concluding_grounded) (fun _ records => records) unrecorded).mono ?_))
  rintro (err | appRow) w₁ found
  · exact safe_recordless (uses_removeDirRecordless staging) found
  obtain ⟨unrecorded, parsed, _⟩ := found
  have moves : Takes (fun action => ¬ action.Records) (fun _ => False) (Fallible.onError
      (rename staging (deploymentDir appRow.id.toString id.toString))
      (removeDirAllLogged staging)) :=
    uses_onError (Program.uses_perform fun records => records) (uses_removeDirRecordless staging)
  refine Safe.thenE (safe_recordless moves unrecorded) (fun _ w₂ unrecorded => ?_)
    fun _ _ unrecorded => unrecorded
  refine Safe.bindE (Safe.onError (safe_covered (lasting_still lasts) unrecorded ?_))
  rintro w₃ choice (err | value) w₄ unrecorded covers moves
  · refine safe_recordless (uses_removeDirRecordless _) (unrecorded.moves moves ?_)
    rintro _ _ _ _ ⟨⟩
  · exact ⟨⟨_, (moves.did_iff _).2 (.inl (wrote_act ..))⟩, rfl, appRow.id, parsed⟩

section Activation

include uploads

/-- What the upload has recorded, it finds again and activates. -/
theorem safe_activatingRecorded (appParsed : Uuid.parseStr appText = some appId)
    (parsed : Uuid.parseStr deploymentText = some id) (records : Records w thread) :
    Safe (hub limit) (concluding Covers good) thread call
      (activateDeployment appText deploymentText).run
      (Outcome (fun _ _ => True) fun _ _ => False) w := by
  refine safe_withWriteLock concluding_grounded free_concluding lasting_records ?_ records
    fun w₁ records _ => ?_
  · rintro (err | _) <;> exact lasting_const _
  unfold setActive findAppRowById findDeploymentRow
  simp only [appParsed, parsed]
  refine Safe.bindE (Safe.bindE (safe_covered lasting_records records ?_))
  intro w₂ choice result w₃ records covers moves
  obtain ⟨appRow, rfl⟩ := covers.findsApp _ _ _ _ _ uploads records rfl
  refine Safe.bindE (Safe.bindE (safe_covered lasting_records (records.moves moves) ?_))
  intro w₄ choice result w₅ records covers moves
  obtain ⟨deploymentRow, rfl⟩ := covers.findsDeployment _ _ _ _ _ _ uploads records rfl
  refine safe_covered lasting_records (records.moves moves) ?_
  intro w₆ choice result w₇ records covers _
  cases covers.activates _ _ _ _ _ _ uploads records rfl
  trivial

theorem safe_creatingUnrecorded (unrecorded : Unrecorded w thread) :
    Safe (hub limit) (concluding Covers good) thread call
      (createDeployment appText zipPath originalFilename uploadSizeBytes).run
      (Outcome (fun _ _ => True) fun _ w' => Unrecorded w' thread) w := by
  have recordless : ∀ {action : Act}, ¬ action.Records →
      (Program.perform action : Async action.Res).Uses (fun action => ¬ action.Records)
        fun _ => False := fun silent => Program.uses_perform silent
  refine Safe.thenE (safe_recordless (uses_lift (recordless fun records => records)) unrecorded)
    (fun id w₁ unrecorded => ?_) fun _ _ unrecorded => unrecorded
  refine Safe.thenE (safe_recordless (uses_lift (recordless fun records => records)) unrecorded)
    (fun staging w₂ unrecorded => ?_) fun _ _ unrecorded => unrecorded
  have stages : Takes (fun action => ¬ action.Records) (fun _ => False) (Fallible.onError
      (stageDeploymentFiles staging zipPath) (removeDirAllLogged staging)) := by
    refine uses_onError ?_ (uses_removeDirRecordless staging)
    exact uses_bind (recordless fun records => records) fun _ =>
      uses_bind (recordless fun records => records) fun _ => recordless fun records => records
  refine Safe.thenE (safe_recordless stages unrecorded) (fun _ w₃ unrecorded => ?_)
    fun _ _ unrecorded => unrecorded
  refine Safe.seqE (safe_withWriteLock concluding_grounded free_concluding lasting_unrecordedLocks ?_
    unrecorded fun w₄ unrecorded _ => safe_placingUnrecorded unrecorded) ?_
    fun _ _ unrecorded => unrecorded
  · rintro (err | deployment)
    · exact lasting_unrecordedLocks
    · exact lasting_records.and (lasting_const _)
  rintro deployment w₄ ⟨records, same, appId, appParsed⟩
  have parsed : Uuid.parseStr deployment.id = some id := same ▸ Uuid.parseStr_toString id
  exact Safe.seqE (safe_activatingRecorded uploads appParsed parsed records)
    (fun _ _ _ => trivial) fun _ _ never => never.elim

theorem safe_uploadingUnrecorded {fields : List Field} (unrecorded : Unrecorded w thread) :
    Safe (hub limit) (concluding Covers good) thread call
      (uploadDeployment appText fields limit).run
      (Outcome (fun _ _ => True) fun _ w' => Unrecorded w' thread) w := by
  have draws : Takes (fun action => ¬ action.Records) (fun _ => False)
      (uniqueTmpPath "upload" (some "zip")) :=
    uses_lift (Program.uses_perform fun records => records)
  refine Safe.thenE (safe_recordless draws unrecorded) (fun zipPath w₁ unrecorded => ?_)
    fun _ _ unrecorded => unrecorded
  have streams : Takes (fun action => ¬ action.Records) (fun _ => False) (Fallible.onError
      (streamUploadToDisk zipPath limit fields) (removeFileLogged zipPath)) :=
    uses_onError (takes_streamUploadToDisk (fun records => records) (fun records => records)
      limit fields) (uses_removeFileRecordless zipPath)
  refine Safe.thenE (safe_recordless streams unrecorded) (fun answer w₂ unrecorded => ?_)
    fun _ _ unrecorded => unrecorded
  refine Safe.bindE (Safe.attempt ((safe_creatingUnrecorded uploads unrecorded).mono ?_))
  rintro (err | deployment) w₃ created
  · exact Safe.bindE (Safe.lift (safe_recordless (uses_removeFileRecordless zipPath) created))
  · exact Safe.bindE (Safe.lift ((Safe.free (Program.uses_all _) free_concluding).mono
      fun _ _ _ => trivial))

end Activation

end Upload

/-! Whole runs. -/

def Reply.Fails : Reply → Prop
  | .app (.error _) | .deployment (.error _) | .pending (.error _) | .unit (.error _) => True
  | _ => False

/-- A creation that fails has left everything as it was. -/
def RollsBack (w : HubWorld) (thread : Nat) (call : Call) (reply : Reply) : Prop :=
  Creation call → reply.Fails → Spotless w thread fun _ => False

theorem safe_rollsBack {α : Type} {wrap : AppResult α → Reply} {handler : AsyncResult α}
    (works : ∀ value, ¬ (wrap (.ok value)).Fails)
    (safe : Safe (hub limit) (concluding Covers RollsBack) thread call handler.run
      (Outcome (fun _ _ => True) fun _ w' => Spotless w' thread fun _ => False) w) :
    Safe (hub limit) (concluding Covers RollsBack) thread call (replyTo wrap handler)
      (Final (hub limit) (concluding Covers RollsBack) thread call) w := by
  refine safe_concluded safe ?_ ?_
  · rintro (err | value)
    · exact lasting_spotlessStill
    · exact lasting_const True
  · rintro (err | value) w' spotless _ fails
    · exact spotless
    · exact absurd fails (works value)

theorem covers_tidying (uploads : Uploads call) : Tidying Covers call True :=
  ⟨fun _ thread root choice result _ covers =>
      covers.removesDir thread call root choice result (.inr (.inl uploads)) rfl,
    fun _ thread root choice result _ covers =>
      covers.removesFile thread call root choice result (.inr (.inl uploads)) rfl,
    fun _ _ thread _ _ choice result covers =>
      covers.removesDir thread call _ choice result (.inr (.inl uploads)) rfl⟩

theorem begins_spotless (numbered : w.Numbered) (moves : w.Moves (hub limit) event w')
    (begins : event = .start w.next call ∨ ∃ thread forking, event = .fork thread forking w.next call) :
    Spotless w' w.next fun _ => False := by
  refine ⟨?_, begins_nothing numbered moves begins⟩
  have before : Unrecorded w w.next :=
    ⟨fun row creator => numbered.not_did fun _ wrote => wrote.thread,
      fun ⟨row, inserted⟩ => numbered.not_did (fun _ wrote => wrote.thread) inserted⟩
  refine before.moves moves ?_
  rintro caller q choice value rfl
  rcases begins with eq | ⟨_, _, eq⟩ <;> cases eq

/-- An upload that fails has recorded nothing, so that it has taken everything back. -/
theorem safe_rollsBackUpload {handler : AsyncResult Deployment}
    (leaves : Safe (hub limit) (concluding Covers RollsBack) thread call handler.run
      (Outcome (fun _ w' => Leaves w' thread fun path => False ∨ ¬ Scratch path)
        fun _ w' => (Leaves w' thread fun path => False ∨ ¬ Scratch path) ∧
          (True → (Leaves w' thread fun _ => False) ∨ Records w' thread)) w)
    (unrecorded : Safe (hub limit) (concluding Covers RollsBack) thread call handler.run
      (Outcome (fun _ _ => True) fun _ w' => Unrecorded w' thread) w) :
    Safe (hub limit) (concluding Covers RollsBack) thread call (replyTo .deployment handler)
      (Final (hub limit) (concluding Covers RollsBack) thread call) w := by
  refine safe_rollsBack (fun _ => id) ((leaves.and unrecorded).mono ?_)
  rintro (err | deployment) w' ⟨left, unrecorded⟩
  · exact ⟨unrecorded, (left.2 trivial).resolve_right unrecorded.2⟩
  · trivial

theorem covers_sound : Sound (hub limit) (concluding Covers RollsBack) := by
  refine concluding_sound fun w event call w' numbered meets moves begins => ?_
  by_cases creation : Creation call
  · have spotless := begins_spotless numbered moves begins
    rcases creation with creates | uploads | creates
    · obtain ⟨name, source, envVars, creator, hostId, rfl⟩ := creates
      exact safe_rollsBack (fun _ => id) (safe_creatingApp ⟨_, _, _, _, _, rfl⟩ spotless)
    · have tidying := covers_tidying uploads
      obtain ⟨appText, zipPath, name, size, rfl⟩ | ⟨appText, fields, rfl⟩ := uploads
      · exact safe_rollsBackUpload (safe_creating tidying spotless.2)
          (safe_creatingUnrecorded (.inl ⟨_, _, _, _, rfl⟩) spotless.1)
      · exact safe_rollsBackUpload (safe_uploading tidying spotless.2)
          (safe_uploadingUnrecorded (.inr ⟨_, _, rfl⟩) spotless.1)
    · obtain ⟨appText, rfl⟩ | ⟨appText, rfl⟩ := creates
      · exact safe_rollsBack (fun _ => id) (safe_creatingPending (.inl ⟨_, rfl⟩) spotless)
      · exact safe_rollsBack (fun _ => id) (safe_startingGit (.inr ⟨_, rfl⟩) spotless)
  · exact safe_indifferent (fun _ _ isCreation => absurd isCreation creation) _

/-- No row that the thread has inserted is there, and no path that it has created. -/
structure NothingLeft (w : HubWorld) (thread : Nat) : Prop where
  app : ∀ row creator, w.Did (Wrote thread (.insertApp row creator)) → app? w row.id = none
  permission : ∀ row creator, w.Did (Wrote thread (.insertApp row creator)) →
    ∀ grant ∈ w.shared.db.permissions, grant.appId ≠ row.id
  deployment : ∀ row, Inserted w thread row → deployment? w row.id = none
  path : ∀ path, Inner path → ¬ Remains w thread path

theorem nothingLeft_of_spotless (spotless : Spotless w thread fun _ => False) :
    NothingLeft w thread where
  app row creator wrote := absurd wrote (spotless.1.1 row creator)
  permission row creator wrote := absurd wrote (spotless.1.1 row creator)
  deployment row inserted := absurd ⟨row, inserted⟩ spotless.1.2
  path path inner remains := spotless.2 path inner remains

/-- An app is created under a name that another app is given between the check of the name and the
insert. -/
def renamedMeanwhile : List (Command Call Choice) :=
  let plain : Choice := {}
  .start .startup :: steps 0 7 plain ++
  .start (.createApp "old" .upload [] none 1) :: steps 1 13 { id := Uuid.repeated 1 } ++
  .start (.createApp "new" .upload [] none 1) :: steps 2 8 { id := Uuid.repeated 2 } ++
  .start (.updateApp (Uuid.repeated 1).toString (some "new") none none) :: steps 3 6 plain ++
  steps 2 2 plain

/-- The next step of the thread is the last one of a creation that fails. -/
def creationFails (cfg : HubConfig) (thread : Nat) (check : HubWorld → Bool) : Bool :=
  match cfg.exec (hub 1000) (.step thread {}) with
  | some (.finish other (.createApp _ _ _ _ _) (.app (.error _)), next)
  | some (.finish other (.uploadDeployment _ _) (.deployment (.error _)), next) =>
      other = thread && check next.world
  | _ => false

theorem creationFails_sound {cfg : HubConfig} {check : HubWorld → Bool}
    (checked : creationFails cfg thread check = true) : ∃ call reply next, Creation call ∧
      reply.Fails ∧ cfg.exec (hub 1000) (.step thread {}) = some (.finish thread call reply, next) ∧
        check next.world = true := by
  unfold creationFails at checked
  split at checked
  · rename_i other name source envVars creator hostId err next executed
    simp only [Bool.and_eq_true, decide_eq_true_eq] at checked
    obtain ⟨rfl, checked⟩ := checked
    exact ⟨.createApp name source envVars creator hostId, .app (.error err), next,
      .inl ⟨_, _, _, _, _, rfl⟩, trivial, executed, checked⟩
  · rename_i other appText fields err next executed
    simp only [Bool.and_eq_true, decide_eq_true_eq] at checked
    obtain ⟨rfl, checked⟩ := checked
    exact ⟨.uploadDeployment appText fields, .deployment (.error err), next,
      .inr (.inl (.inr ⟨_, _, rfl⟩)), trivial, executed, checked⟩
  · cases checked

/-- Checks of one event that no query, no removal and no directory fails. -/
def covers : HubEvent → Bool
  | .act _ _ (.removeDirAll _) choice _ | .act _ _ (.removeFile _) choice _ => choice.failure.isNone
  | .act _ _ (.createDir _) _ result => match result with | .ok _ => true | .error _ => false
  | .act _ _ (.query (.appById _)) _ result | .act _ _ (.query (.deploymentById _ _)) _ result =>
      match result with | .ok (some _) => true | _ => false
  | .act _ _ (.query _) _ (.error _) => false
  | _ => true

theorem covers_of_check (checked : covers event = true) : Covers w event where
  removesDir := by
    rintro _ _ _ _ _ _ rfl
    exact Option.isNone_iff_eq_none.1 checked
  removesFile := by
    rintro _ _ _ _ _ _ rfl
    exact Option.isNone_iff_eq_none.1 checked
  createsSubdir := by
    rintro _ _ _ _ (err | value) _ _ rfl
    · cases checked
    · rfl
  insertsApp := by
    rintro _ _ _ _ _ (err | value) _ rfl
    · cases checked
    · rfl
  readsPermissions := by
    rintro _ _ _ _ (err | rows) _ rfl
    · cases checked
    · exact ⟨rows, rfl⟩
  readsUsers := by
    rintro _ _ _ _ (err | users) _ rfl
    · cases checked
    · exact ⟨users, rfl⟩
  findsApp := by
    rintro _ _ _ _ (err | _ | row) _ _ rfl
    · cases checked
    · cases checked
    · exact ⟨row, rfl⟩
  findsDeployment := by
    rintro _ _ _ _ _ (err | _ | row) _ _ rfl
    · cases checked
    · cases checked
    · exact ⟨row, rfl⟩
  activates := by
    rintro _ _ _ _ _ (err | value) _ _ rfl
    · cases checked
    · rfl
  insertsPending := by
    rintro _ _ _ _ (err | value) _ rfl
    · cases checked
    · rfl

/-- An upload of a zip that cannot be unpacked as a whole. -/
def corruptUpload : List (Command Call Choice) :=
  let app := Uuid.repeated 1
  let plain : Choice := {}
  .start .startup :: steps 0 7 plain ++
  .start (.createApp "app" .upload [] none 1) :: steps 1 13 { id := app } ++
  .start (.uploadDeployment app.toString [⟨some "file", none, [.ok 1]⟩]) ::
    steps 2 7 { id := Uuid.repeated 2 } ++
  steps 2 1 { failure := some "invalid Zip archive", entries := [[.text "index.html"]] } ++
  steps 2 2 plain

end Berth
