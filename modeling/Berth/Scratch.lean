import Berth.Remains

/-!
The scratch space of deployments: what an upload and the executor of a git deployment put under
`tmp`, and what they take away again.
-/

namespace Berth

open Interleave Interleave.Discipline Interleave.Fallible

variable {limit thread : Nat} {call : Call} {w w' : HubWorld} {event : HubEvent} {path : Path}
variable {condition : HubWorld → HubEvent → Prop} {good : HubWorld → Nat → Call → Reply → Prop}
variable {acts : Act → Prop} {calls : Call → Prop} {spared : Path → Prop} {staging root : Path}

/-- Where an action puts something. -/
def Act.Targets : Act → Path → Prop
  | .createDir target, path | .createDirAll target, path | .createFile target, path
  | .rename _ target, path | .unpackZip _ target, path | .zipDir _ target, path
  | .cloneShallow _ target, path => path = target
  | _, _ => False

theorem Act.Creates.near {action : Act} (creates : action.Creates path) (inner : Inner path) :
    ∃ target, action.Targets target ∧ (path <+: target ∨ target <+: path) := by
  have notEmpty : path ≠ [] := by
    rintro rfl
    simp [Inner, Scratch, appsDir, tmpDir] at inner
  cases action with
  | createDir target | createFile target | zipDir _ target =>
      exact ⟨target, rfl, .inl (creates.resolve_right notEmpty ▸ List.prefix_refl _)⟩
  | rename _ target => exact ⟨target, rfl, .inr (creates.resolve_right notEmpty)⟩
  | createDirAll target => exact ⟨target, rfl, .inl creates⟩
  | unpackZip _ target | cloneShallow _ target => exact ⟨target, rfl, creates⟩
  | _ => exact creates.elim

/-- A path as `unique_tmp_path` hands it out. -/
def Staging (path : Path) : Prop :=
  ∃ label timestamp seq extension, path = tmpDir ++ [.staged label timestamp seq extension]

/-- What lies on the way to something staged, and is not `tmp` itself, is staged too. -/
theorem Staging.lies (isStaging : Staging staging) {target : Path} (below : staging <+: target)
    (inner : Inner path) (near : path <+: target ∨ target <+: path) : staging <+: path := by
  rcases near with above | inside
  · rcases List.prefix_or_prefix_of_prefix above below with onTheWay | inside
    · obtain ⟨label, timestamp, seq, extension, rfl⟩ := isStaging
      rcases path with _ | ⟨first, _ | ⟨second, rest⟩⟩
      · simp [Inner, Scratch, appsDir, tmpDir] at inner
      · simp only [tmpDir, List.cons_append, List.nil_append, List.cons_prefix_cons] at onTheWay
        simp [Inner, Scratch, appsDir, tmpDir, onTheWay.1] at inner
      · simp only [tmpDir, List.cons_append, List.nil_append, List.cons_prefix_cons,
          List.prefix_nil] at onTheWay
        simp [tmpDir, onTheWay]
    · exact inside
  · exact below.trans inside

theorem Staging.scratch (isStaging : Staging staging) (lies : staging <+: path) : Scratch path := by
  obtain ⟨label, timestamp, seq, extension, rfl⟩ := isStaging
  refine ⟨(List.prefix_append _ _).trans lies, ?_⟩
  rintro rfl
  simp [tmpDir] at lies

/-- What lies near something under `apps` is no scratch. -/
theorem not_scratch {target : Path} (below : appsDir <+: target)
    (near : path <+: target ∨ target <+: path) : ¬ Scratch path := by
  rintro ⟨inTmp, _⟩
  have both : tmpDir <+: target ∨ appsDir <+: path := by
    rcases near with above | inside
    · exact .inl (inTmp.trans above)
    · exact .inr (below.trans inside)
  rcases both with tmp | apps
  · rcases List.prefix_or_prefix_of_prefix tmp below with lies | lies <;>
      simp [tmpDir, appsDir] at lies
  · rcases List.prefix_or_prefix_of_prefix inTmp apps with lies | lies <;>
      simp [tmpDir, appsDir] at lies

/-- Actions that put things in the staging directory or under `apps` only. -/
def Act.Stays (staging : Path) (action : Act) : Prop :=
  ∀ target, action.Targets target → staging <+: target ∨ appsDir <+: target

theorem Act.Stays.spares {action : Act} (stays : action.Stays staging) (isStaging : Staging staging) :
    action.Spares fun path => ¬ Scratch path ∨ staging <+: path := by
  intro path inner creates
  obtain ⟨target, targets, near⟩ := creates.near inner
  rcases stays target targets with below | below
  · exact .inr (isStaging.lies below inner near)
  · exact .inl (not_scratch below near)

/-- Actions that put nothing anywhere. -/
def Act.Idle (action : Act) : Prop := ∀ target, ¬ action.Targets target

theorem Act.Idle.spares {action : Act} (idle : action.Idle) : action.Spares spared := by
  intro path inner creates
  obtain ⟨target, targets, _⟩ := creates.near inner
  exact absurd targets (idle target)

/-- Actions that put things in the staging directory only. -/
def Act.Stages (staging : Path) (action : Act) : Prop :=
  ∀ target, action.Targets target → staging <+: target

theorem Act.Stages.spares {action : Act} (stages : action.Stages staging)
    (isStaging : Staging staging) : action.Spares fun path => spared path ∨ staging <+: path := by
  intro path inner creates
  obtain ⟨target, targets, near⟩ := creates.near inner
  exact .inr (isStaging.lies (stages target targets) inner near)

theorem lasting_idle :
    Lasting limit thread call Act.Idle calls fun w => Leaves w thread spared :=
  lasting_leaves.mono (fun _ idle => idle.spares) fun _ => id

theorem looks_idle (action : Act) (looks : action.Looks) : action.Idle := by
  cases action <;> first | exact fun _ => id | exact looks.elim

theorem locks_idle (action : Act) (locks : action.Locks) : action.Idle := by
  cases action <;> first | exact fun _ => id | exact locks.elim

theorem lasting_locking :
    Lasting limit thread call Act.Locks calls fun w => Leaves w thread spared :=
  lasting_idle.mono locks_idle fun _ => id

theorem asks_idle (host : Int) (request : Request) : (Act.agent host request).Idle := fun _ => id

/-! Steps that leave no more than before. -/

section Steps

variable {α : Type} {fact : HubWorld → Prop}

theorem safe_leaving {program : Async α} (uses : program.Uses acts fun _ => False)
    (spares : ∀ action, acts action → action.Spares spared) (leaves : Leaves w thread spared) :
    Safe (hub limit) (concluding condition good) thread call program
      (fun _ w' => Leaves w' thread spared) w :=
  Safe.frame uses free_concluding
    ((lasting_leaves.mono spares fun _ => id).frame concluding_grounded) leaves

theorem safe_idle {program : Async α} (uses : program.Uses Act.Idle fun _ => False)
    (leaves : Leaves w thread spared) :
    Safe (hub limit) (concluding condition good) thread call program
      (fun _ w' => Leaves w' thread spared) w :=
  safe_leaving uses (fun _ idle => idle.spares) leaves

/-- A step that takes a path away, with everything below it. -/
theorem safe_clearing {action : Act}
    (clears : ∀ w choice result w', condition w (.act thread call action choice result) →
      perform thread action choice w.shared = some (result, w'.shared) →
        ∀ path, Has w' path → Has w path ∧ ¬ root <+: path)
    (leaves : Leaves w thread fun path => spared path ∨ root <+: path) :
    Safe (hub limit) (concluding condition good) thread call (act action)
      (fun _ w' => Leaves w' thread spared) w := by
  have lasts : Lasting limit thread call Act.Idle (fun _ => False) fun w =>
      Leaves w thread fun path => spared path ∨ root <+: path :=
    lasting_idle
  refine safe_action concluding_grounded lasts leaves ?_
  intro w₁ choice result w₂ leaves ready moves allowed
  refine ⟨concludes_act, fun _ _ => ?_⟩
  have kept := clears w₁ choice result w₂ allowed.condition (act_performed moves)
  exact (leaves.without moves kept).mono fun path _ still => still.1.resolve_right still.2

/-- Removals that the operating system does not refuse. -/
theorem safe_removingDir
    (works : ∀ w choice result,
      condition w (.act thread call (.removeDirAll root) choice result) → choice.failure = none)
    (leaves : Leaves w thread fun path => spared path ∨ root <+: path) :
    Safe (hub limit) (concluding condition good) thread call (removeDirAllLogged root)
      (fun _ w' => Leaves w' thread spared) w :=
  Safe.bind (safe_clearing (fun w choice result _ met performed _ =>
    removeDirAll_clears performed (works w choice result met)) leaves)

theorem safe_removingFile
    (works : ∀ w choice result,
      condition w (.act thread call (.removeFile root) choice result) → choice.failure = none)
    (leaves : Leaves w thread fun path => spared path ∨ root <+: path) :
    Safe (hub limit) (concluding condition good) thread call (removeFileLogged root)
      (fun _ w' => Leaves w' thread spared) w :=
  Safe.bind (safe_clearing (fun w choice result _ met performed _ =>
    removeFile_clears performed (works w choice result met)) leaves)

theorem safe_drawing {label : String} {extension : Option String}
    {post : AppResult Path → HubWorld → Prop}
    (lasts : Lasting limit thread call acts (fun _ => False) fact)
    (among : acts (.uniqueTmpPath label extension)) (holds : fact w)
    (after : ∀ staging w', fact w' → Staging staging → post (.ok staging) w') :
    Safe (hub limit) (concluding condition good) thread call
      (uniqueTmpPath label extension).run post w := by
  refine Safe.lift (safe_action concluding_grounded lasts holds ?_)
  intro w₁ choice staging w₂ holds ready moves allowed
  refine ⟨concludes_act, fun around _ => ?_⟩
  obtain ⟨timestamp, seq, rfl, _⟩ := perform_uniqueTmpPath (act_performed moves)
  exact after _ w₂ (lasts _ _ _ around (fun _ => .act among) holds)
    ⟨label, timestamp, seq, extension, rfl⟩

end Steps

/-! Uploads. -/

/-- In runs that meet the condition, the call's removals of its own staging paths work, and if
`complete` also those of what it has placed under `apps`. -/
structure Tidying (condition : HubWorld → HubEvent → Prop) (call : Call) (complete : Prop) : Prop
    where
  staging : ∀ w thread root choice result, Staging root →
    condition w (.act thread call (.removeDirAll root) choice result) → choice.failure = none
  zip : ∀ w thread root choice result, Staging root →
    condition w (.act thread call (.removeFile root) choice result) → choice.failure = none
  placed : complete → ∀ w thread appId deploymentId choice result,
    condition w (.act thread call (.removeDirAll (deploymentDir appId deploymentId)) choice
      result) → choice.failure = none

/-- The thread has recorded a deployment. -/
def Records (w : HubWorld) (thread : Nat) : Prop := ∃ row, Inserted w thread row

theorem Records.moves (records : Records w thread) (moves : w.Moves (hub limit) event w') :
    Records w' thread := by
  obtain ⟨row, inserted⟩ := records
  exact ⟨row, moves.did inserted⟩

theorem lasting_records : Lasting limit thread call acts calls fun w => Records w thread :=
  fun _ _ _ around _ records => records.moves around.moves

section Upload

variable {complete : Prop} (tidying : Tidying condition call complete) {id : Uuid}
variable {appText : String} {zipPath : Path} {originalFilename : Option String}
variable {uploadSizeBytes : Nat}
include tidying

theorem safe_stagingFiles (isStaging : Staging staging) (leaves : Leaves w thread spared) :
    Safe (hub limit) (concluding condition good) thread call
      (Fallible.onError (stageDeploymentFiles staging zipPath) (removeDirAllLogged staging)).run
      (Outcome (fun _ w' => Leaves w' thread fun path => spared path ∨ staging <+: path)
        fun _ w' => Leaves w' thread spared) w := by
  have inside : ∀ rest target, target = staging ++ rest → staging <+: target := by
    rintro rest _ rfl
    exact List.prefix_append staging rest
  have stages : Takes (Act.Stages staging) (fun _ => False)
      (stageDeploymentFiles staging zipPath) := by
    refine uses_bind (Program.uses_perform ?_) fun _ =>
      uses_bind (Program.uses_perform (inside _)) fun _ => Program.uses_perform (inside _)
    rintro target rfl
    exact List.prefix_refl _
  have started : Leaves w thread fun path => spared path ∨ staging <+: path :=
    leaves.mono fun _ _ => .inl
  refine Safe.onError ((safe_leaving stages (fun _ stages => stages.spares isStaging)
    started).mono ?_)
  rintro (err | _) w₁ leaves
  · exact safe_removingDir (fun w choice result => tidying.staging w thread staging choice result
      isStaging) leaves
  · exact leaves

theorem safe_placing (isStaging : Staging staging)
    (leaves : Leaves w thread fun path => spared path ∨ staging <+: path) :
    Safe (hub limit) (concluding condition good) thread call
      (placeDeployment appText id staging originalFilename uploadSizeBytes).run
      (Outcome (fun _ w' => Records w' thread ∧ Leaves w' thread fun path =>
          spared path ∨ ¬ Scratch path)
        fun _ w' => (Leaves w' thread fun path => spared path ∨ ¬ Scratch path) ∧
          (complete → Leaves w' thread spared)) w := by
  have takenBack : ∀ {w₁ : HubWorld},
      (Leaves w₁ thread fun path => spared path ∨ staging <+: path) →
      Safe (hub limit) (concluding condition good) thread call (removeDirAllLogged staging)
        (fun _ w' => (Leaves w' thread fun path => spared path ∨ ¬ Scratch path) ∧
          (complete → Leaves w' thread spared)) w₁ := fun leaves =>
    (safe_removingDir (fun w choice result => tidying.staging w thread staging choice result
      isStaging) leaves).mono fun _ _ leaves => ⟨leaves.mono fun _ _ => .inl, fun _ => leaves⟩
  refine Safe.bindE (Safe.onError ((safe_idle (takes_findAppRowById looks_idle appText)
    leaves).mono ?_))
  rintro (err | appRow) w₁ leaves
  · exact takenBack leaves
  let target := deploymentDir appRow.id.toString id.toString
  have inApps : appsDir <+: target := by simp [target, deploymentDir, deploymentsDir, appDir]
  have lasts : Lasting limit thread call Act.Idle (fun _ => False) fun w =>
      Leaves w thread fun path => spared path ∨ staging <+: path :=
    lasting_idle
  refine Safe.bindE (Safe.onError (safe_action concluding_grounded lasts leaves ?_))
  intro w₂ choice result w₃ leaves ready moves allowed
  refine ⟨concludes_act, fun _ _ => ?_⟩
  rcases leaves.renamed moves with ⟨err, rfl, leaves⟩ | ⟨rfl, leaves⟩
  · exact takenBack leaves
  have placed : Leaves w₃ thread fun path => spared path ∨ target <+: path := by
    refine leaves.mono fun path inner still => ?_
    rcases still with ⟨either, moved⟩ | inside | rfl
    · refine either.imp_right fun lies => ?_
      exact absurd (isStaging.scratch lies) (not_scratch inApps (.inl (moved lies)))
    · exact .inr inside
    · simp [Inner, Scratch, appsDir, tmpDir] at inner
  have apart : ∀ {w₄ : HubWorld}, (Leaves w₄ thread fun path => spared path ∨ target <+: path) →
      Leaves w₄ thread fun path => spared path ∨ ¬ Scratch path :=
    fun leaves => leaves.mono fun path _ => .imp_right fun inside =>
      not_scratch inApps (.inr inside)
  have holds : Lasting limit thread call Act.Idle (fun _ => False) fun w =>
      Leaves w thread fun path => spared path ∨ target <+: path :=
    lasting_idle
  have inserts : (Act.query (.insertDeployment
    (uploadedRow id appRow.id originalFilename uploadSizeBytes))).Idle := fun _ => False.elim
  refine Safe.bindE (Safe.onError (safe_action concluding_grounded holds placed ?_))
  rintro w₄ choice (err | value) w₅ leaves ready moves allowed
  · -- the row could not be inserted: the directory is taken back
    refine ⟨concludes_act, fun around _ => ?_⟩
    have still := holds _ _ _ around (fun _ => .act inserts) leaves
    have removes : (removeDirAllLogged target).Uses Act.Idle (fun _ => False) :=
      (Program.uses_perform fun _ => False.elim).bind fun _ => Program.uses_done _
    by_cases isComplete : complete
    · exact (safe_removingDir (fun w choice result =>
        tidying.placed isComplete w thread _ _ choice result) still).mono fun _ _ leaves =>
          ⟨leaves.mono fun _ _ => .inl, fun _ => leaves⟩
    · exact (safe_idle removes still).mono fun _ _ leaves =>
        ⟨apart leaves, fun isComplete' => absurd isComplete' isComplete⟩
  · refine ⟨concludes_act, fun around _ => ⟨⟨_, (moves.did_iff _).2 (.inl (wrote_act ..))⟩, ?_⟩⟩
    exact apart (holds _ _ _ around (fun _ => .act inserts) leaves)

theorem safe_creating (leaves : Leaves w thread spared) :
    Safe (hub limit) (concluding condition good) thread call
      (createDeployment appText zipPath originalFilename uploadSizeBytes).run
      (Outcome (fun _ w' => Leaves w' thread fun path => spared path ∨ ¬ Scratch path)
        fun _ w' => (Leaves w' thread fun path => spared path ∨ ¬ Scratch path) ∧
          (complete → Leaves w' thread spared ∨ Records w' thread)) w := by
  have early : ∀ {w₁ : HubWorld}, Leaves w₁ thread spared →
      (Leaves w₁ thread fun path => spared path ∨ ¬ Scratch path) ∧
        (complete → Leaves w₁ thread spared ∨ Records w₁ thread) :=
    fun leaves => ⟨leaves.mono fun _ _ => .inl, fun _ => .inl leaves⟩
  have draws : Takes Act.Idle (fun _ => False) nowV7 :=
    uses_lift (Program.uses_perform fun _ => False.elim)
  refine Safe.thenE (safe_idle draws leaves) (fun id w₁ leaves => ?_) fun _ _ => early
  refine Safe.bindE (safe_drawing lasting_idle (fun _ => False.elim) leaves
    fun staging w₂ leaves isStaging => ?_)
  refine Safe.seqE (safe_stagingFiles tidying isStaging leaves) ?_ fun _ _ => early
  intro _ w₃ leaves
  refine Safe.seqE (safe_withWriteLock concluding_grounded free_concluding lasting_locking ?_ leaves
    fun w₄ leaves _ => safe_placing tidying isStaging leaves) (fun deployment w₄ placed => ?_)
    fun _ w₄ ⟨leaves, complete⟩ => ⟨leaves, fun isComplete => .inl (complete isComplete)⟩
  · rintro (err | deployment)
    · exact lasting_locking.and lasting_locking.given
    · exact lasting_records.and lasting_locking
  obtain ⟨records, leaves⟩ := placed
  have activates : Takes Act.Idle (fun _ => False) (activateDeployment appText deployment.id) :=
    takes_activateDeployment (fun _ => False.elim) (fun _ => False.elim) looks_idle
      (fun _ _ _ => False.elim) _ _
  have both : Lasting limit thread call Act.Idle (fun _ => False) fun w =>
      Records w thread ∧ Leaves w thread fun path => spared path ∨ ¬ Scratch path :=
    lasting_records.and lasting_idle
  refine Safe.thenE (Safe.frame activates free_concluding (both.frame concluding_grounded)
    ⟨records, leaves⟩) (fun _ w₅ held => held.2) fun _ w₅ held => ⟨held.2, fun _ => .inr held.1⟩

theorem safe_streaming {fields : List Field} (isStaging : Staging zipPath)
    (leaves : Leaves w thread spared) :
    Safe (hub limit) (concluding condition good) thread call (Fallible.onError
      (streamUploadToDisk zipPath limit fields) (removeFileLogged zipPath)).run
      (Outcome (fun _ w' => Leaves w' thread fun path => spared path ∨ zipPath <+: path)
        fun _ w' => Leaves w' thread spared) w := by
  have creates : Act.Stages zipPath (.createFile zipPath) := by
    rintro target rfl
    exact List.prefix_refl _
  have streams : Takes (Act.Stages zipPath) (fun _ => False)
      (streamUploadToDisk zipPath limit fields) :=
    takes_streamUploadToDisk creates (fun _ => False.elim) limit fields
  have started : Leaves w thread fun path => spared path ∨ zipPath <+: path :=
    leaves.mono fun _ _ => .inl
  refine Safe.onError ((safe_leaving streams (fun _ stages => stages.spares isStaging)
    started).mono ?_)
  rintro (err | answer) w₁ leaves
  · exact safe_removingFile (fun w choice result => tidying.zip w thread zipPath choice result
      isStaging) leaves
  · exact leaves

theorem safe_uploading {fields : List Field} (leaves : Leaves w thread spared) :
    Safe (hub limit) (concluding condition good) thread call
      (uploadDeployment appText fields limit).run
      (Outcome (fun _ w' => Leaves w' thread fun path => spared path ∨ ¬ Scratch path)
        fun _ w' => (Leaves w' thread fun path => spared path ∨ ¬ Scratch path) ∧
          (complete → Leaves w' thread spared ∨ Records w' thread)) w := by
  have kept : ∀ {w₁ : HubWorld}, Leaves w₁ thread spared →
      Leaves w₁ thread fun path => spared path ∨ ¬ Scratch path :=
    fun leaves => leaves.mono fun _ _ => .inl
  refine Safe.bindE (safe_drawing lasting_idle (fun _ => False.elim) leaves
    fun zipPath w₁ leaves isStaging => ?_)
  refine Safe.seqE (safe_streaming tidying isStaging leaves) ?_
    fun _ _ leaves => ⟨kept leaves, fun _ => .inl leaves⟩
  rintro ⟨originalFilename, uploadSizeBytes⟩ w₂ leaves
  -- what the upload itself leaves, with the uploaded zip still there
  refine Safe.bindE (Safe.attempt ((safe_creating tidying leaves).mono ?_))
  have removes : ∀ {w₃ : HubWorld} {rest : Path → Prop},
      (Leaves w₃ thread fun path => rest path ∨ zipPath <+: path) →
      Safe (hub limit) (concluding condition good) thread call (removeFileLogged zipPath)
        (fun _ w' => Leaves w' thread rest) w₃ := safe_removingFile fun w choice result =>
    tidying.zip w thread zipPath choice result isStaging
  have apart : ∀ {w₃ : HubWorld},
      (Leaves w₃ thread fun path => (spared path ∨ zipPath <+: path) ∨ ¬ Scratch path) →
      Leaves w₃ thread fun path => (spared path ∨ ¬ Scratch path) ∨ zipPath <+: path :=
    fun leaves => leaves.mono fun _ _ => or_right_comm.1
  rintro (err | deployment) w₃ created
  · obtain ⟨leaves, whole⟩ := created
    have recording : (removeFileLogged zipPath).Uses Act.Idle (fun _ => False) :=
      (Program.uses_perform fun _ => False.elim).bind fun _ => Program.uses_done _
    refine Safe.bindE (Safe.lift (((removes (apart leaves)).and (?_ : Safe _ _ _ _ _
      (fun _ w' => complete → Leaves w' thread spared ∨ Records w' thread) _)).mono
        fun _ _ both => both))
    by_cases isComplete : complete
    · rcases whole isComplete with leaves | records
      · exact (removes leaves).mono fun _ _ leaves _ => .inl leaves
      · have lasts : Lasting limit thread call Act.Idle (fun _ => False) fun w =>
            Records w thread := lasting_records
        exact (Safe.frame recording free_concluding (lasts.frame concluding_grounded)
          records).mono fun _ _ records _ => .inr records
    · exact (Safe.free recording free_concluding).mono fun _ _ _ isComplete' =>
        absurd isComplete' isComplete
  · exact Safe.bindE (Safe.lift ((removes (apart created)).mono fun _ _ leaves => leaves))

end Upload

/-! The executor of a git deployment. -/

/-- Zipping the content for the agent does not fail once the zip is there. -/
def Ships (condition : HubWorld → HubEvent → Prop) (call : Call) : Prop :=
  ∀ w thread source zip choice result,
    condition w (.act thread call (.zipDir source zip) choice result) →
      w.shared.files.HasParent zip → result = .ok ()

theorem zipDir_error {source zip : Path} {choice : Choice} {state state' : State} {err : AppError}
    (performed : perform thread (.zipDir source zip) choice state = some (.error err, state'))
    (noParent : ¬ state.files.HasParent zip) : state' = state := by
  have ran := Option.some.inj performed
  unfold State.zipDir at ran
  rw [if_pos noParent] at ran
  exact (Prod.mk.inj ran).2.symm

section Executor

variable (tidying : Tidying condition call False) {appId deploymentId : String}
variable {gitSource : GitSource}

/-- A program that stays in the staging directory and under `apps`. -/
theorem safe_staying {α : Type} {program : AsyncResult α} (isStaging : Staging staging)
    (takes : Takes (Act.Stays staging) (fun _ => False) program)
    (leaves : Leaves w thread fun path => ¬ Scratch path ∨ staging <+: path) :
    Safe (hub limit) (concluding condition good) thread call program.run
      (fun _ w' => Leaves w' thread fun path => ¬ Scratch path ∨ staging <+: path) w :=
  safe_leaving takes (fun _ stays => stays.spares isStaging) leaves

theorem Act.Idle.stays {action : Act} (idle : action.Idle) : action.Stays staging :=
  fun target targets => absurd targets (idle target)

theorem stays_inside {action : Act} (rest : Path)
    (inside : ∀ target, action.Targets target → target = staging ++ rest) :
    action.Stays staging := by
  intro target targets
  rw [inside target targets]
  exact .inl (List.prefix_append staging rest)

theorem takes_cloneStaying :
    Takes (Act.Stays staging) (fun _ => False) (cloneWithTimeout staging gitSource) :=
  takes_cloneWithTimeout (fun _ _ => False.elim) (fun _ => False.elim)
    (stays_inside [] fun _ eq => eq.trans (List.append_nil _).symm)
    (stays_inside [.text "_checkout"] fun _ eq => eq)

theorem takes_placeStaying (checkoutDir : Path) (mode : GitDeployMode) :
    Takes (Act.Stays staging) (fun _ => False) (placeContent staging checkoutDir mode) :=
  takes_placeContent (fun _ _ => False.elim) (fun _ _ => False.elim)
    (fun _ => stays_inside [.text "files"] fun _ eq => eq) checkoutDir mode

include tidying

theorem safe_removingStaging (isStaging : Staging staging)
    (leaves : Leaves w thread fun path => ¬ Scratch path ∨ staging <+: path) :
    Safe (hub limit) (concluding condition good) thread call (removeDirAllLogged staging)
      (fun _ w' => Leaves w' thread fun path => ¬ Scratch path) w :=
  safe_removingDir (fun w choice result => tidying.staging w thread staging choice result
    isStaging) leaves

theorem safe_finishing (isStaging : Staging staging) {checkoutDir : Path} {commitSha : String}
    (leaves : Leaves w thread fun path => ¬ Scratch path ∨ staging <+: path) :
    Safe (hub limit) (concluding condition good) thread call
      (finishGitDeployment staging checkoutDir appId deploymentId gitSource commitSha).run
      (Outcome (fun _ w' => Leaves w' thread fun path => ¬ Scratch path)
        fun _ w' => Leaves w' thread fun path => ¬ Scratch path ∨ staging <+: path) w := by
  have idle : ∀ action : Act, action.Looks → action.Stays staging :=
    fun action looks => (looks_idle action looks).stays
  refine Safe.thenE (safe_staying isStaging (takes_placeStaying checkoutDir _) leaves)
    (fun _ w₁ leaves => ?_) fun _ _ leaves => leaves
  refine Safe.thenE (safe_staying isStaging (Program.uses_perform fun _ => False.elim) leaves)
    (fun contentSize w₂ leaves => ?_) fun _ _ leaves => leaves
  refine Safe.thenE (safe_staying isStaging (takes_findAppRowById idle appId) leaves)
    (fun appRow w₃ leaves => ?_) fun _ _ leaves => leaves
  have moves : Act.Stays staging (.rename (staging ++ [.text "files"])
      (deploymentFilesDir appRow.id.toString deploymentId)) := by
    rintro target rfl
    exact .inr (by simp [deploymentFilesDir, deploymentDir, deploymentsDir, appDir])
  refine Safe.thenE (safe_staying isStaging (Program.uses_perform moves) leaves)
    (fun _ w₄ leaves => ?_) fun _ _ leaves => leaves
  refine Safe.thenE (safe_staying isStaging (takes_findDeploymentRow idle appRow.id deploymentId)
    leaves) (fun deploymentRow w₅ leaves => ?_) fun _ _ leaves => leaves
  refine Safe.thenE (safe_staying isStaging (Program.uses_perform fun _ => False.elim) leaves)
    (fun _ w₆ leaves => ?_) fun _ _ leaves => leaves
  exact Safe.lift (safe_removingStaging tidying isStaging leaves)

theorem safe_preparing {app : App} (isStaging : Staging staging)
    (leaves : Leaves w thread fun path => ¬ Scratch path) :
    Safe (hub limit) (concluding condition good) thread call
      (prepareGitDeployment app staging appId deploymentId gitSource).run
      (fun _ w' => Leaves w' thread fun path => ¬ Scratch path) w := by
  have started : Leaves w thread fun path => ¬ Scratch path ∨ staging <+: path :=
    leaves.mono fun _ _ => .inl
  have removes : ∀ {w₁ : HubWorld},
      (Leaves w₁ thread fun path => ¬ Scratch path ∨ staging <+: path) →
      Safe (hub limit) (concluding condition good) thread call (removeDirAllLogged staging)
        (fun _ w' => Leaves w' thread fun path => ¬ Scratch path) w₁ :=
    fun leaves => safe_removingStaging tidying isStaging leaves
  refine Safe.onError (Safe.thenE (safe_staying isStaging takes_cloneStaying started) ?_
    fun _ _ => removes)
  rintro ⟨checkoutDir, commitSha⟩ w₁ leaves
  have builds : Takes (Act.Stays staging) (fun _ => False)
      (runBuild app deploymentId gitSource.mode) :=
    takes_runBuild (fun action looks => (looks_idle action looks).stays)
      (fun host request => (asks_idle host request).stays) app deploymentId _
  refine Safe.thenE (safe_staying isStaging builds leaves) (fun _ w₂ leaves => ?_)
    fun _ _ => removes
  refine (safe_finishing tidying isStaging leaves).mono ?_
  rintro (err | _) w₃ leaves
  · exact removes leaves
  · exact leaves

theorem safe_shipping (ships : Ships condition call) {mode : GitDeployMode}
    (leaves : Leaves w thread fun path => ¬ Scratch path) :
    Safe (hub limit) (concluding condition good) thread call
      (shipIfRun appId deploymentId mode).run
      (fun _ w' => Leaves w' thread fun path => ¬ Scratch path) w := by
  cases mode with
  | static _ | build _ => exact leaves
  | run config =>
  refine Safe.thenE (safe_idle (takes_findAppRowById looks_idle appId) leaves)
    (fun appRow w₁ leaves => ?_) fun _ _ leaves => leaves
  refine Safe.bindE (safe_drawing lasting_idle (fun _ => False.elim) leaves
    fun zipPath w₂ leaves isStaging => ?_)
  let source := deploymentFilesDir appRow.id.toString deploymentId
  have zips : Act.Stages zipPath (.zipDir source zipPath) := by
    rintro target rfl
    exact List.prefix_refl _
  have lasts : Lasting limit thread call Act.Idle (fun _ => False) fun w =>
      Leaves w thread fun path => ¬ Scratch path := lasting_idle
  refine Safe.bindE (safe_action concluding_grounded lasts leaves ?_)
  rintro w₃ choice (err | _) w₄ leaves ready moves allowed
  · -- there is no `tmp` to put the zip in
    refine ⟨concludes_act, fun _ _ => ?_⟩
    by_cases parent : w₃.shared.files.HasParent zipPath
    · cases ships _ _ _ _ _ _ allowed.condition parent
    · exact leaves.same moves (congrArg State.files (zipDir_error (act_performed moves) parent))
  refine ⟨concludes_act, fun around _ => ?_⟩
  have shipped : Leaves w₄ thread fun path => ¬ Scratch path ∨ zipPath <+: path := by
    refine (leaves.mono fun _ _ => .inl).moves moves ?_
    rintro _ _ _ _ ⟨⟩
    exact zips.spares isStaging
  have asks : Takes Act.Idle (fun _ => False) (do
      createAgentDeploymentDir appRow.hostId deploymentId
      uploadZipAndExtract appRow.hostId deploymentId) :=
    uses_bind (takes_command (takes_ask (asks_idle _ _))) fun _ =>
      takes_command (takes_ask (asks_idle _ _))
  refine Safe.bindE (Safe.attempt ((safe_idle asks shipped).mono fun result w₅ leaves => ?_))
  refine Safe.bindE (Safe.lift ((safe_removingFile (fun w choice result =>
    tidying.zip w thread zipPath choice result isStaging) leaves).mono fun _ w₆ leaves => ?_))
  cases result with
  | ok value => exact leaves
  | error err => exact leaves

theorem safe_executing (ships : Ships condition call)
    (leaves : Leaves w thread fun path => ¬ Scratch path) :
    Safe (hub limit) (concluding condition good) thread call
      (runGitDeployment appId deploymentId gitSource)
      (fun _ w' => Leaves w' thread fun path => ¬ Scratch path) w := by
  have settles : ∀ status, Takes Act.Idle (fun _ => False)
      (setDeploymentStatus appId deploymentId status) :=
    takes_setDeploymentStatus looks_idle (fun _ _ _ _ => False.elim) appId deploymentId
  have activates : Takes Act.Idle (fun _ => False)
      (activateWithContainers appId deploymentId) :=
    takes_activateWithContainers (fun _ => False.elim) (fun _ => False.elim) looks_idle asks_idle
      (fun _ _ _ => False.elim) appId deploymentId
  have executes : Safe (hub limit) (concluding condition good) thread call
      (executeGitDeployment appId deploymentId gitSource).run
      (fun _ w' => Leaves w' thread fun path => ¬ Scratch path) w := by
    refine Safe.thenE (safe_idle (takes_getAppById looks_idle appId) leaves)
      (fun app w₁ leaves => ?_) fun _ _ leaves => leaves
    refine Safe.bindE (safe_drawing lasting_idle (fun _ => False.elim) leaves
      fun staging w₂ leaves isStaging => ?_)
    refine Safe.thenE (safe_preparing tidying isStaging leaves) (fun _ w₃ leaves => ?_)
      fun _ _ leaves => leaves
    refine Safe.thenE (safe_shipping tidying ships leaves) (fun _ w₄ leaves => ?_)
      fun _ _ leaves => leaves
    refine Safe.thenE (safe_idle activates leaves) (fun _ w₅ leaves => ?_) fun _ _ leaves => leaves
    exact safe_idle (settles .ready) leaves
  refine Safe.bind (executes.mono ?_)
  rintro (err | _) w₁ leaves
  · exact Safe.bind (safe_idle (settles _) leaves)
  · exact leaves

end Executor

/-! Whole runs. -/

/-- A zip upload, or the executor of a git deployment. -/
def Attempts (call : Call) : Prop :=
  Uploads call ∨ ∃ appId deploymentId gitSource, call = .runGitDeployment appId deploymentId gitSource

/-- No removal of an attempt's scratch fails, and no zip for the agent fails once it is begun. -/
structure Tidies (w : HubWorld) (event : HubEvent) : Prop where
  dirs : ∀ thread call root choice result, Attempts call → Staging root →
    event = .act thread call (.removeDirAll root) choice result → choice.failure = none
  files : ∀ thread call root choice result, Attempts call → Staging root →
    event = .act thread call (.removeFile root) choice result → choice.failure = none
  ships : ∀ thread call source zip choice result, Attempts call →
    event = .act thread call (.zipDir source zip) choice result →
      w.shared.files.HasParent zip → result = .ok ()

theorem tidying_of_attempts (attempts : Attempts call) : Tidying Tidies call False :=
  ⟨fun _ thread root choice result isStaging tidies =>
      tidies.dirs thread call root choice result attempts isStaging rfl,
    fun _ thread root choice result isStaging tidies =>
      tidies.files thread call root choice result attempts isStaging rfl, False.elim⟩

theorem ships_of_attempts (attempts : Attempts call) : Ships Tidies call :=
  fun _ thread source zip choice result tidies =>
    tidies.ships thread call source zip choice result attempts rfl

/-- An attempt leaves nothing under `tmp`. -/
def Tidy (w : HubWorld) (thread : Nat) (call : Call) (_ : Reply) : Prop :=
  Attempts call → Leaves w thread fun path => ¬ Scratch path

theorem begins_nothing (numbered : w.Numbered) (moves : w.Moves (hub limit) event w')
    (begins : event = .start w.next call ∨ ∃ thread forking, event = .fork thread forking w.next call) :
    Leaves w' w.next fun _ => False := by
  refine leaves_nothing numbered moves ?_
  rcases begins with rfl | ⟨thread, forking, rfl⟩
  · cases moves with
    | start admitted => rfl
  · cases moves with
    | fork member => rfl

theorem final_tidy {reply : Reply} (leaves : Leaves w thread fun path => ¬ Scratch path) :
    Final (hub limit) (concluding condition Tidy) thread call reply w :=
  final_concluded (lasting_idle.mono (fun _ => False.elim) fun _ => id) leaves
    fun _ leaves _ => leaves

/-- However an upload ends, what it leaves is not under `tmp`. -/
theorem safe_replyTidy {handler : AsyncResult Deployment} {whole : HubWorld → Prop}
    (safe : Safe (hub limit) (concluding condition Tidy) thread call handler.run
      (Outcome (fun _ w' => Leaves w' thread fun path => False ∨ ¬ Scratch path)
        fun _ w' => (Leaves w' thread fun path => False ∨ ¬ Scratch path) ∧ whole w') w) :
    Safe (hub limit) (concluding condition Tidy) thread call (replyTo .deployment handler)
      (Final (hub limit) (concluding condition Tidy) thread call) w := by
  have ends : ∀ {w' : HubWorld}, (Leaves w' thread fun path => False ∨ ¬ Scratch path) →
      Leaves w' thread fun path => ¬ Scratch path :=
    fun leaves => leaves.mono fun _ _ still => still.resolve_left id
  refine Safe.bind (safe.mono ?_)
  rintro (err | deployment) w₁ left
  · exact final_tidy (ends left.1)
  · exact final_tidy (ends left)

theorem tidies_sound : Sound (hub limit) (concluding Tidies Tidy) := by
  refine concluding_sound fun w event call w' numbered meets moves begins => ?_
  by_cases attempts : Attempts call
  · have tidying := tidying_of_attempts attempts
    have ships := ships_of_attempts attempts
    have nothing := begins_nothing numbered moves begins
    rcases attempts with
      (⟨appText, zipPath, name, size, rfl⟩ | ⟨appText, fields, rfl⟩) | ⟨_, _, _, rfl⟩
    · exact safe_replyTidy (safe_creating tidying nothing)
    · exact safe_replyTidy (safe_uploading tidying nothing)
    · have started : Leaves w' w.next fun path => ¬ Scratch path :=
        nothing.mono fun _ _ => False.elim
      exact Safe.bind ((safe_executing tidying ships started).mono fun _ _ => final_tidy)
  · exact safe_indifferent (fun _ _ isAttempt => absurd isAttempt attempts) _

/-- A run-mode deployment to a host that is not connected; `choice` is for the zip of its content,
and `count` steps follow. -/
def shippingDeployment (choice : Choice) (count : Nat) : List (Command Call Choice) :=
  let app := Uuid.repeated 1
  let plain : Choice := {}
  let run : RunConfig := ⟨.node24, none, "run", 80⟩
  .start .startup :: steps 0 7 plain ++
  .start (.createApp "app" (.git ⟨"https://git/app", "main", .run run⟩) [] none 1) ::
    steps 1 13 { id := app } ++
  .start (.startGitDeployment app.toString) :: steps 2 9 { id := Uuid.repeated 2 } ++
  steps 3 17 { entries := [[.text ".git"]] } ++ steps 3 1 choice ++ steps 3 count plain

def shippedZip : Path := tmpDir ++ [.staged "ship-to-agent" 0 2 (some "zip")]

def isAttempt : Call → Bool
  | .runGitDeployment _ _ _ => true
  | call => isUpload call

theorem attempts_of_isAttempt (checked : isAttempt call = true) : Attempts call := by
  cases call with
  | runGitDeployment _ _ _ => exact .inr ⟨_, _, _, rfl⟩
  | _ => exact .inl (uploads_of_isUpload checked)

/-- The next step of the thread is the last one of an attempt; how it leaves the path behind. -/
def attemptEnds (cfg : HubConfig) (thread : Nat) (check : HubWorld → Bool) : Bool :=
  match cfg.exec (hub 1000) (.step thread {}) with
  | some (.finish other call _, next) => isAttempt call && other = thread && check next.world
  | _ => false

theorem attemptEnds_sound {cfg : HubConfig} {check : HubWorld → Bool}
    (checked : attemptEnds cfg thread check = true) : ∃ call reply next, Attempts call ∧
      cfg.exec (hub 1000) (.step thread {}) = some (.finish thread call reply, next) ∧
        check next.world = true := by
  unfold attemptEnds at checked
  split at checked
  · rename_i other call reply next executed
    simp only [Bool.and_eq_true, decide_eq_true_eq] at checked
    obtain ⟨⟨attempt, rfl⟩, checked⟩ := checked
    exact ⟨call, reply, next, attempts_of_isAttempt attempt, executed, checked⟩
  · cases checked

/-- Checks of one event that no removal and no zip fails. -/
def tidies : HubEvent → Bool
  | .act _ _ (.removeDirAll _) choice _ | .act _ _ (.removeFile _) choice _ => choice.failure.isNone
  | .act _ _ (.zipDir _ _) _ (.error _) => false
  | _ => true

theorem tidies_sound_check (checked : tidies event = true) : Tidies w event := by
  constructor
  · rintro _ _ _ _ _ _ _ rfl
    exact Option.isNone_iff_eq_none.1 checked
  · rintro _ _ _ _ _ _ _ rfl
    exact Option.isNone_iff_eq_none.1 checked
  · rintro _ _ _ _ _ (err | value) _ rfl _
    · cases checked
    · rfl

end Berth
