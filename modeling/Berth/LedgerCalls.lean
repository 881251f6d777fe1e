import Berth.Footprints

/-!
Every call of the hub respects the ledger: each of its writes meets its precondition, and each path
it clears is one nobody counts on.
-/

namespace Berth

open Interleave Interleave.Discipline Interleave.Fallible

variable {limit thread : Nat} {call : Call} {w : HubWorld} {α : Type}
variable {acts : Act → Prop} {calls : Call → Prop} {fact : HubWorld → Prop}

theorem Lasting.stable (lasting : Lasting limit thread call acts calls fact) :
    Stable (hub limit) ledger thread call fact := (lasting.frame ledger_grounded).stable

theorem free_harmless : Free (hub limit) ledger thread call Act.Harmless fun _ => False := by
  intro w event w' own _ _ _
  cases own with
  | act harmless => exact permitted_harmless harmless
  | fork forks => exact forks.elim

theorem looks_harmless (action : Act) (looks : action.Looks) : action.Harmless :=
  looks.soft.2.harmless

theorem free_looks : Free (hub limit) ledger thread call Act.Looks fun _ => False :=
  free_harmless.mono looks_harmless fun _ => id

theorem Lasting.looks (lasting : Lasting limit thread call Act.Soft calls fact) :
    Frame (hub limit) ledger thread call Act.Looks calls fact :=
  (lasting.frame ledger_grounded).mono (fun _ => Act.Looks.soft) fun _ => id

/-- A program without dangerous steps keeps what it does not disturb. -/
theorem safe_harmless {program : Async α} (uses : program.Uses acts fun _ => False)
    (harmless : ∀ action, acts action → action.Harmless)
    (lasting : Lasting limit thread call acts (fun _ => False) fact) (holds : fact w) :
    Safe (hub limit) ledger thread call program (fun _ w' => fact w') w := by
  refine Safe.frame uses ?_ (lasting.frame ledger_grounded) holds
  intro w event w' own ready moves allowed
  refine free_harmless w event w' ?_ ready moves allowed
  cases own with
  | act among => exact .act (harmless _ among)
  | fork forks => exact forks.elim

/-! Staging directories. -/

theorem unheld_staged {path rest below : Path} (stages : Stages w thread path)
    (lies : path ++ rest <+: below) : ¬ Held w thread below := by
  obtain ⟨label, timestamp, seq, extension, rfl, drawn⟩ := stages
  intro held
  cases held with
  | app _ | placingApp _ _ _ _ | deployment _ _ | placingDeployment _ _ _ _ _ _ =>
      simp [tmpDir, appDir, appsDir, deploymentDir, deploymentsDir] at lies
  | staging different _ drawn' =>
      simp only [tmpDir, List.cons_append, List.nil_append, List.cons_prefix_cons] at lies
      obtain ⟨_, same, _⟩ := lies
      cases same
      rw [drawn] at drawn'
      exact different (Option.some.inj drawn').symm

theorem permitted_staged {action : Act} {choice : Choice} {result : action.Res} {path : Path}
    (onFiles : action.OnFiles) (stages : Stages w thread path)
    (inside : ∀ root, action.Clears root → ∃ rest, root = path ++ rest) :
    Permitted w (.act thread call action choice result) := by
  refine permitted_files onFiles fun root below clears lies => ?_
  obtain ⟨rest, rfl⟩ := inside root clears
  exact unheld_staged stages lies

/-- Filesystem work that clears nothing outside a staging directory of the thread. -/
def Act.Inside (path : Path) (action : Act) : Prop :=
  action.Harmless ∨ action.OnFiles ∧ ∀ root, action.Clears root → ∃ rest, root = path ++ rest

theorem safe_inside {path : Path} {program : Async α}
    (uses : program.Uses (Act.Inside path) fun _ => False) (stages : Stages w thread path)
    (lasting : Lasting limit thread call (Act.Inside path) (fun _ => False) fact)
    (holds : fact w) :
    Safe (hub limit) ledger thread call program (fun _ w' => fact w' ∧ Stages w' thread path) w := by
  have both := lasting.and (lasting_stages path)
  induction program generalizing w with
  | done value => exact ⟨holds, stages⟩
  | act action next ih =>
      intro w' choice result w'' rely ready moves allowed
      obtain ⟨before, stages'⟩ := both.stable.rely rely ⟨holds, stages⟩
      have permit : Permitted w' (.act thread call action choice result) := by
        rcases uses.1 with harmless | ⟨onFiles, inside⟩
        · exact permitted_harmless harmless
        · exact permitted_staged onFiles stages' inside
      refine ⟨permit, fun readyAfter => ?_⟩
      have after := (both.frame ledger_grounded).own w' _ w'' (.act uses.1) ⟨before, stages'⟩ ready
        readyAfter moves allowed permit
      exact ih result (uses.2 result) after.2 after.1
  | fork forked next ih => exact uses.1.elim

/-! The write lock, fresh ids and staging paths. -/

section Bookkeeping

variable {post : AppResult α → HubWorld → Prop}

/-- One step of the thread: what it may do by itself, and what holds afterwards. -/
theorem safe_act {action : Act} {post : action.Res → HubWorld → Prop}
    (harmless : action.Harmless) (among : acts action)
    (lasting : Lasting limit thread call acts (fun _ => False) fact) (holds : fact w)
    (after : ∀ (w₀ : HubWorld) choice result w', fact w' →
      perform thread action choice w₀.shared = some (result, w'.shared) → post result w') :
    Safe (hub limit) ledger thread call (act action) post w :=
  safe_action ledger_grounded lasting holds fun w₀ choice result w' before _ moves _ =>
    ⟨permitted_harmless harmless, fun around _ => after w₀ choice result w'
      (lasting w₀ _ w' around (fun _ => .act among) before) (act_performed moves)⟩

theorem free_locks : Free (hub limit) ledger thread call Act.Locks fun _ => False :=
  free_harmless.mono (fun _ locks => locks.gentle.harmless) fun _ => id

theorem safe_nowV7 {post : AppResult Uuid → HubWorld → Prop}
    (lasting : Lasting limit thread call Act.Soft (fun _ => False) fact) (holds : fact w)
    (after : ∀ id w', fact w' → Fresh w' thread id → post (.ok id) w') :
    Safe (hub limit) ledger thread call nowV7.run post w := by
  refine Safe.lift (Safe.perform lasting.stable holds fun w₀ choice id w' before ready moves allowed =>
    ⟨permitted_harmless trivial, fun readyAfter => ?_⟩)
  have soft : Act.nowV7.Soft := ⟨trivial, trivial⟩
  refine after id w' ((lasting.frame ledger_grounded).own w₀ _ w' (.act soft) before ready
    readyAfter moves allowed (permitted_harmless trivial)) ?_
  obtain ⟨free, owned, _⟩ := perform_nowV7 (act_performed moves)
  have old : ∀ row, Inserted w' thread row → Inserted w₀ thread row := by
    intro row inserted
    rcases (inserted_iff moves).1 inserted with ⟨_, _, _, eq⟩ | earlier
    · cases eq
    · exact earlier
  refine ⟨owned, fun row same inserted => ?_⟩
  have drawn := ready.inv.rows.drawn thread row (old row inserted)
  rw [same, free] at drawn
  cases drawn

theorem safe_uniqueTmpPath {label : String} {extension : Option String}
    {post : AppResult Path → HubWorld → Prop}
    (lasting : Lasting limit thread call Act.Soft (fun _ => False) fact) (holds : fact w)
    (after : ∀ path w', fact w' → Stages w' thread path → post (.ok path) w') :
    Safe (hub limit) ledger thread call (uniqueTmpPath label extension).run post w := by
  refine Safe.lift (safe_act trivial ⟨trivial, trivial⟩ lasting holds fun w₀ choice path w' fact' performed => ?_)
  obtain ⟨timestamp, seq, rfl, drawn⟩ := perform_uniqueTmpPath performed
  exact after _ w' fact' ⟨label, timestamp, seq, extension, rfl, drawn⟩

end Bookkeeping

/-! Filesystem steps. -/

section Filesystem

variable {post : AppResult Unit → HubWorld → Prop}

theorem safe_createDir {path : Path}
    (lasting : Lasting limit thread call Act.Soft (fun _ => False) fact) (holds : fact w)
    (ok : ∀ w', fact w' → Has w' path → post (.ok ()) w')
    (error : ∀ err w', fact w' → post (.error err) w') :
    Safe (hub limit) ledger thread call (createDir path).run post w := by
  refine safe_act trivial ⟨trivial, trivial⟩ lasting holds fun w₀ choice result w' fact' performed => ?_
  cases result with
  | ok value => exact ok w' fact' (createDir_ok performed)
  | error err => exact error err w' fact'

/-- Moves something nobody else counts on; `kept` is what the move itself does not disturb. -/
theorem safe_rename {source target : Path} {kept : HubWorld → Prop}
    (lasting : Lasting limit thread call Act.Soft (fun _ => False) fact)
    (keeps : Lasting limit thread call (· = .rename source target) (fun _ => False) kept)
    (weaker : ∀ w', fact w' → kept w') (holds : fact w)
    (unheld : ∀ w', fact w' → Ledger w' → ∀ path, source <+: path → ¬ Held w' thread path)
    (ok : ∀ (w₀ : HubWorld) w', fact w₀ → kept w' → Ledger w' → Has w₀ source →
      w'.shared.files = w₀.shared.files.move source target → post (.ok ()) w')
    (error : ∀ err w', kept w' → post (.error err) w') :
    Safe (hub limit) ledger thread call (rename source target).run post w := by
  refine Safe.perform lasting.stable holds fun w₀ choice result w' before ready moves allowed => ?_
  have permit : Permitted w₀ (.act thread call (.rename source target) choice result) :=
    permitted_files trivial fun root path clears => by
      cases clears
      exact unheld w₀ before ready.inv path
  refine ⟨permit, fun readyAfter => ?_⟩
  have after := (keeps.frame ledger_grounded).own w₀ _ w' (.act rfl) (weaker w₀ before) ready
    readyAfter moves allowed permit
  cases result with
  | error err => exact error err w' after
  | ok value =>
      obtain ⟨has, moved⟩ := rename_ok (act_performed moves)
      exact ok w₀ w' before after readyAfter.inv has moved

theorem renamed_has {w₀ w' : HubWorld} {source target : Path}
    (moved : w'.shared.files = w₀.shared.files.move source target) (rest : Path)
    (has : Has w₀ (source ++ rest)) : Has w' (target ++ rest) := by
  rw [Has, moved]
  exact FileTree.has_move.2 (.inr (.inr ⟨rest, rfl, has⟩))

theorem uses_removeDirAllLogged_inside (path : Path) :
    (removeDirAllLogged path).Uses (Act.Inside path) calls := by
  refine (Program.uses_perform (.inr ⟨trivial, ?_⟩)).bind fun _ => Program.uses_done _
  rintro root rfl
  exact ⟨[], by simp⟩

theorem uses_removeFileLogged_inside (path : Path) :
    (removeFileLogged path).Uses (Act.Inside path) calls := by
  refine (Program.uses_perform (.inr ⟨trivial, ?_⟩)).bind fun _ => Program.uses_done _
  rintro root rfl
  exact ⟨[], by simp⟩

theorem takes_removeDirAll_inside (path : Path) :
    Takes (Act.Inside path) calls (removeDirAll path) :=
  Program.uses_perform (.inr ⟨trivial, by rintro root rfl; exact ⟨[], by simp⟩⟩)

theorem safe_cleanup {path : Path} (stages : Stages w thread path) :
    Safe (hub limit) ledger thread call (removeDirAllLogged path) (fun _ _ => True) w :=
  (safe_inside (uses_removeDirAllLogged_inside path) stages (lasting_const True) trivial).mono
    fun _ _ _ => trivial

end Filesystem

/-! A write with its precondition. -/

theorem safe_write {q : Query} {post : AppResult q.Result → HubWorld → Prop}
    (lasting : Lasting limit thread call Act.Soft (fun _ => False) fact) (holds : fact w)
    (may : ∀ w', fact w' → Ledger w' → MayWrite w' thread call q)
    (after : ∀ w₀ choice result w', fact w₀ →
      Around limit thread call w₀ (.act thread call (.query q) choice result) w' → post result w') :
    Safe (hub limit) ledger thread call (query q).run post w :=
  safe_action ledger_grounded lasting holds fun w₀ choice result w' before ready _ _ =>
    ⟨permitted_query (may w₀ before ready.inv), fun around _ =>
      after w₀ choice result w' before around⟩

/-- Looking things up first, whatever comes of it. -/
theorem safe_after_looks {β : Type} {program : AsyncResult α} {after : α → AsyncResult β}
    {post : AppResult β → HubWorld → Prop} (takes : Takes Act.Looks (fun _ => False) program)
    (lasting : Lasting limit thread call Act.Soft (fun _ => False) fact) (holds : fact w)
    (rest : ∀ value w', fact w' →
      Safe (hub limit) ledger thread call (after value).run post w')
    (failed : ∀ err w', fact w' → post (.error err) w') :
    Safe (hub limit) ledger thread call (program >>= after).run post w :=
  Safe.thenE (safe_looks free_looks lasting.looks takes holds) rest failed

theorem looks_looks (action : Act) (looks : action.Looks) : action.Looks := looks

/-! Apps. -/

theorem safe_insertNewApp (name : String) (source : AppSource) (envVars : List EnvVar)
    (creator : Option String) (hostId : Int) (locked : Locked w thread) :
    Safe (hub limit) ledger thread call (insertNewApp name source envVars creator hostId).run
      (fun _ _ => True) w := by
  have locks : Lasting limit thread call Act.Calm (fun _ => False) fun w => Locked w thread :=
    lasting_locked
  refine safe_after_looks (takes_requireFreeName looks_looks name) locks.ofCalm locked
    (fun _ w₁ locked => ?_) fun _ _ _ => trivial
  refine safe_after_looks (takes_validateHostId looks_looks hostId) locks.ofCalm locked
    (fun _ w₂ locked => ?_) fun _ _ _ => trivial
  refine safe_after_looks (takes_findCreatorId looks_looks creator) locks.ofCalm locked
    (fun creatorId w₃ locked => ?_) fun _ _ _ => trivial
  refine Safe.bindE (safe_nowV7 locks.ofCalm locked fun id w₄ locked fresh => ?_)
  have owns := locks.and (lasting_owner id)
  refine Safe.bindE (safe_uniqueTmpPath owns.ofCalm ⟨locked, fresh.1⟩ fun staging w₅ owned stages => ?_)
  have stageds := owns.and (lasting_stages staging)
  refine Safe.bindE (safe_createDir stageds.ofCalm ⟨owned, stages⟩ (fun w₆ staged _ => ?_)
    fun _ _ _ => trivial)
  refine Safe.bindE (safe_createDir stageds.ofCalm staged (fun w₇ staged _ => ?_)
    fun _ _ _ => trivial)
  refine Safe.bindE (Safe.onError ?_)
  refine safe_rename stageds.ofCalm (stageds.mono ?_ fun _ => False.elim) (fun _ holds => holds) staged ?_ ?_ ?_
  · rintro _ rfl
    trivial
  · intro w' holds _ path lies
    exact unheld_staged holds.2 (show staging ++ [] <+: path by simpa using lies)
  · -- the directory is in place
    intro w₇ w₈ _ after _ has moved
    have placed : Has w₈ (appDir id.toString) := by
      simpa using renamed_has moved [] (by simpa using has)
    refine Safe.bindE (safe_write (lasting_placedApp id) ⟨after.1.1, after.1.2, placed⟩ ?_ ?_)
    · rintro w' ⟨locked, _, placed⟩ _
      exact ⟨locked, rfl, placed⟩
    · intro w₉ choice result w' _ _
      cases result with
      | error err => trivial
      | ok value =>
          exact (safe_looks free_looks (frame_const True)
            (takes_appFromRowWithPermissions looks_looks _) trivial).mono fun _ _ _ => trivial
  · intro err w₈ after
    exact (safe_cleanup after.2).mono fun _ _ _ => trivial

theorem safe_createApp (name : String) (source : AppSource) (envVars : List EnvVarInput)
    (creator : Option String) (hostId : Int) :
    Safe (hub limit) ledger thread call (createApp name source envVars creator hostId).run
      (fun _ _ => True) w := by
  refine safe_after_looks (takes_liftResult _) (lasting_const True) trivial (fun _ w₁ _ => ?_)
    fun _ _ _ => trivial
  refine safe_after_looks (takes_liftResult _) (lasting_const True) trivial (fun _ w₂ _ => ?_)
    fun _ _ _ => trivial
  refine safe_after_looks (takes_resolveEnvVarInputs looks_looks _ _) (lasting_const True) trivial
    (fun _ w₃ _ => ?_) fun _ _ _ => trivial
  refine safe_after_looks (takes_liftResult _) (lasting_const True) trivial (fun _ w₄ _ => ?_)
    fun _ _ _ => trivial
  exact safe_withWriteLock ledger_grounded free_locks (lasting_const True) (fun _ => lasting_const True) trivial
    fun w₅ _ locked => safe_insertNewApp name source _ creator hostId locked

theorem takes_updateApp (appId : String) (name : Option String)
    (envVars : Option (List EnvVarInput)) (hostId : Option Int) :
    Takes Act.Harmless calls (updateApp appId name envVars hostId) :=
  uses_bind (takes_mapGiven fun _ => takes_liftResult _) fun _ =>
    uses_bind (takes_findAppRowById looks_harmless _) fun _ =>
    uses_bind (takes_mapGiven fun _ => takes_resolveEnvVarInputs looks_harmless _ _) fun _ =>
    uses_bind (takes_mapGiven fun _ => takes_validateHostId looks_harmless _) fun _ =>
    uses_bind (takes_mapGiven fun _ => takes_validateRename looks_harmless _ _) fun _ =>
    uses_bind (takes_query trivial) fun _ => takes_appFromRowWithPermissions looks_harmless _

theorem takes_updateAppPermissions (appId : String) (permissions : List AppPermission) :
    Takes Act.Harmless calls (updateAppPermissions appId permissions) :=
  uses_bind (takes_findAppRowById looks_harmless _) fun _ =>
    uses_bind (uses_collect (takes_resolveGrant looks_harmless) _) fun _ =>
    uses_bind (takes_query trivial) fun _ => takes_appFromRowWithPermissions looks_harmless _

/-- Without its app row, nobody counts on anything in an app's directory. -/
theorem unheld_appDir {appId : Uuid} {below : Path} (rows : Rows w) (locked : Locked w thread)
    (gone : app? w appId = none) (lies : appDir appId.toString <+: below) :
    ¬ Held w thread below := by
  intro held
  cases held with
  | @app id row found =>
      have same : appId = id := by
        simpa [appDir, appsDir, Uuid.toString_inj] using lies
      rw [same, found] at gone
      cases gone
  | @deployment id row found rest =>
      have same : appId = row.appId := by
        simpa [appDir, appsDir, deploymentDir, deploymentsDir, Uuid.toString_inj] using lies
      obtain ⟨app, appFound⟩ := rows.parent id row found
      rw [same, appFound] at gone
      cases gone
  | placingApp different _ locked' _ =>
      exact different (Option.some.inj (locked'.symm.trans locked))
  | placingDeployment different _ locked' _ _ _ =>
      exact different (Option.some.inj (locked'.symm.trans locked))
  | staging _ _ _ _ _ _ _ => simp [appDir, appsDir, tmpDir] at lies

theorem safe_removeApp (appId : String) (locked : Locked w thread) :
    Safe (hub limit) ledger thread call (removeApp appId).run (fun _ _ => True) w := by
  have locks : Lasting limit thread call Act.Calm (fun _ => False) fun w => Locked w thread :=
    lasting_locked
  refine Safe.bindE ((safe_findAppRowById free_looks locks.ofCalm.looks (fun _ => rfl) locked).mono ?_)
  intro outcome w₁ found
  cases outcome with
  | error err => trivial
  | ok row =>
  have keeps : Lasting limit thread call (· = .query (.deleteApp row.id)) (fun _ => False)
      fun w => Locked w thread := lasting_lockedUnless (by rintro _ rfl; exact nofun)
  refine Safe.bindE (safe_write locks.ofCalm found.1 (fun _ locked _ => locked) ?_)
  intro w₂ choice result w₃ locked around
  cases result with
  | error err => trivial
  | ok value =>
  have gone : Locked w₃ thread ∧ app? w₃ row.id = none := by
    exact ⟨keeps _ _ _ around (fun _ => .act rfl) locked,
      (rowsChange around.moves).app_gone (wrote_act ..)⟩
  have absent : Lasting limit thread call Act.Calm (fun _ => False) fun w =>
      Locked w thread ∧ app? w row.id = none := lasting_noApp row.id
  refine Safe.bindE (safe_uniqueTmpPath absent.ofCalm gone fun staging w₄ gone stages => ?_)
  have both := absent.and (lasting_stages staging)
  refine Safe.bindE (safe_rename both.ofCalm (both.mono ?_ fun _ => False.elim)
    (fun _ holds => holds) ⟨gone, stages⟩ ?_ ?_ ?_)
  · rintro _ rfl
    trivial
  · rintro w' ⟨⟨locked, gone⟩, _⟩ ledger path lies
    exact unheld_appDir ledger.rows locked gone lies
  · intro w₅ w₆ _ after _ _ _
    exact (safe_inside (takes_removeDirAll_inside staging) after.2 (lasting_const True)
      trivial).mono fun _ _ _ => trivial
  · exact fun _ _ _ => trivial

theorem safe_deleteApp (appId : String) :
    Safe (hub limit) ledger thread call (deleteApp appId).run (fun _ _ => True) w :=
  safe_withWriteLock ledger_grounded free_locks (lasting_const True) (fun _ => lasting_const True) trivial
    fun _ _ locked => safe_removeApp appId locked

theorem asks_harmless (host : Int) (request : Request) : (Act.agent host request).Harmless :=
  trivial

theorem safe_freely {program : Async α} (uses : program.Uses Act.Harmless fun _ => False) :
    Safe (hub limit) ledger thread call program (fun _ _ => True) w :=
  Safe.free uses free_harmless

/-- What no step of anybody undoes is kept by every safe program. -/
theorem safe_keeps {program : Async α} {post : α → HubWorld → Prop}
    (safe : Safe (hub limit) ledger thread call program post w)
    (lasting : Lasting limit thread call (fun _ => True) (fun _ => True) fact) (holds : fact w) :
    Safe (hub limit) ledger thread call program (fun value w' => post value w' ∧ fact w') w :=
  safe.along program.uses_all (lasting.frame ledger_grounded) holds

theorem safe_deleteAppWithContainers (appId : String) :
    Safe (hub limit) ledger thread call (deleteAppWithContainers appId).run (fun _ _ => True) w := by
  refine Safe.thenE (safe_freely (takes_getAppById looks_harmless appId)) (fun app w₁ _ => ?_)
    fun _ _ _ => trivial
  refine Safe.thenE (safe_freely (takes_listDeployments looks_harmless appId)) (fun rows w₂ _ => ?_)
    fun _ _ _ => trivial
  exact Safe.thenE (safe_freely (uses_forEach (takes_stopDeployment asks_harmless app.hostId) rows))
    (fun _ w₃ _ => safe_deleteApp appId) fun _ _ _ => trivial

/-! Activation. -/

/-- What the thread knows of the deployment it is about to activate. -/
def Activating (w : HubWorld) (thread : Nat) (call : Call) (deploymentId : String) : Prop :=
  ∀ appId id, Uuid.parseStr deploymentId = some id → Activates w thread appId id call

theorem lasting_activating (deploymentId : String) :
    Lasting limit thread call acts calls fun w => Activating w thread call deploymentId := by
  intro w event w' around _ activating appId id parsed
  cases activating appId id parsed with
  | asked parsed activates => exact .asked parsed activates
  | uploaded inserted same ready => exact .uploaded (around.moves.did inserted) same ready
  | executor => exact .executor

theorem safe_setActive {deploymentId : String} (appId : String)
    (activating : Activating w thread call deploymentId) (locked : Locked w thread) :
    Safe (hub limit) ledger thread call (setActive appId deploymentId).run (fun _ _ => True) w := by
  have both : Lasting limit thread call Act.Calm (fun _ => False) fun w =>
      Locked w thread ∧ Activating w thread call deploymentId :=
    lasting_locked.and (lasting_activating deploymentId)
  refine Safe.bindE ((safe_findAppRowById free_looks both.ofCalm.looks (fun _ => rfl) ⟨locked, activating⟩).mono ?_)
  rintro (err | appRow) w₁ found
  · trivial
  refine Safe.seqE (safe_findDeploymentRow free_looks both.ofCalm.looks (fun _ => rfl) found.1) ?_
    fun _ _ _ => trivial
  rintro row w₂ ⟨⟨locked, activating⟩, parsed, there, inApp⟩
  have known : Lasting limit thread call Act.Calm (fun _ => False) fun w =>
      (Locked w thread ∧ DeploymentOf w row.id appRow.id) ∧
        Activating w thread call deploymentId :=
    (lasting_deployment row.id appRow.id).and (lasting_activating deploymentId)
  refine safe_write known.ofCalm ⟨⟨locked, row, there, inApp⟩, activating⟩ ?_ ?_
  · exact fun w' holds _ => ⟨holds.1.1, holds.1.2, holds.2 _ _ parsed⟩
  · exact fun _ _ _ _ _ _ => trivial

theorem safe_activateDeployment {deploymentId : String} (appId : String)
    (activating : Activating w thread call deploymentId) :
    Safe (hub limit) ledger thread call (activateDeployment appId deploymentId).run
      (fun _ _ => True) w :=
  safe_withWriteLock ledger_grounded free_locks (lasting_activating deploymentId) (fun _ => lasting_const True) activating
    fun _ activating locked => safe_setActive appId activating locked

theorem safe_activateWithContainers {deploymentId : String} (appId : String)
    (activating : Activating w thread call deploymentId) :
    Safe (hub limit) ledger thread call (activateWithContainers appId deploymentId).run
      (fun _ _ => True) w := by
  have known : Lasting limit thread call (fun _ => True) (fun _ => True) fun w =>
      Activating w thread call deploymentId := lasting_activating deploymentId
  refine Safe.thenE ((safe_keeps (safe_freely (takes_getAppById looks_harmless appId)) known
    activating).mono fun _ _ => And.right) (fun app w₁ activating => ?_) fun _ _ _ => trivial
  exact Safe.thenE ((safe_keeps (safe_freely (takes_startIfRun looks_harmless asks_harmless app
    _ _)) known activating).mono fun _ _ => And.right)
    (fun _ w₂ activating => safe_activateDeployment appId activating) fun _ _ _ => trivial

/-! Deleting a deployment. -/

/-- Once its row is gone, nobody counts on the directory of a deployment. -/
theorem unheld_removed {appId id : Uuid} {deploymentId : String} {below : Path} (rows : Rows w)
    (removed : Removed w id) (parsed : Uuid.parseStr deploymentId = some id)
    (lies : deploymentDir appId.toString deploymentId <+: below) : ¬ Held w thread below := by
  have sameId : ∀ {other : Uuid}, deploymentId = other.toString → other = id := by
    rintro other rfl
    rw [Uuid.parseStr_toString] at parsed
    exact Option.some.inj parsed
  intro held
  cases held with
  | app _ | placingApp _ _ _ _ | staging _ _ _ _ _ _ _ =>
      simp [appDir, appsDir, tmpDir, deploymentDir, deploymentsDir] at lies
  | @deployment other row found rest =>
      have eq : other = id := sameId (by
        simp only [appDir, appsDir, deploymentDir, deploymentsDir, List.cons_append,
          List.nil_append, List.cons_prefix_cons] at lies
        exact Component.text.inj lies.2.2.2.1)
      rw [eq, removed.1] at found
      cases found
  | @placingDeployment other _ placer _ _ _ drawn absent rest =>
      have eq : other = id := sameId (by
        simp only [appDir, appsDir, deploymentDir, deploymentsDir, List.cons_append,
          List.nil_append, List.cons_prefix_cons] at lies
        exact Component.text.inj lies.2.2.2.1)
      subst eq
      obtain ⟨drawer, row, inserted, idEq⟩ := removed.2
      have drawn' := rows.drawn drawer row inserted
      rw [idEq, drawn] at drawn'
      cases drawn'
      exact absent row idEq inserted

/-- The calls that delete a deployment. -/
def Deletes (call : Call) (appId deploymentId : String) : Prop :=
  call = .deleteDeployment appId deploymentId ∨
    call = .deleteDeploymentWithContainers appId deploymentId

theorem safe_removeDeploymentRow {appId deploymentId : String}
    (deletes : Deletes call appId deploymentId) (locked : Locked w thread) :
    Safe (hub limit) ledger thread call (removeDeploymentRow appId deploymentId).run
      (Outcome (fun _ w' => ∃ id, Uuid.parseStr deploymentId = some id ∧ Removed w' id)
        fun _ _ => True) w := by
  have locks : Lasting limit thread call Act.Calm (fun _ => False) fun w => Locked w thread :=
    lasting_locked
  refine Safe.seqE (safe_findAppRowById free_looks locks.ofCalm.looks (fun _ => rfl) locked) ?_
    fun _ _ _ => trivial
  rintro appRow w₁ ⟨locked, appParsed, there⟩
  have apps : Lasting limit thread call Act.Calm (fun _ => False) fun w =>
      Locked w thread ∧ AppThere w appRow.id appRow.activeDeploymentId := lasting_app _ _
  have holds : Locked w₁ thread ∧ AppThere w₁ appRow.id appRow.activeDeploymentId :=
    ⟨locked, appRow, there, rfl⟩
  refine Safe.seqE (safe_requireInactive (fun w =>
    Locked w thread ∧ AppThere w appRow.id appRow.activeDeploymentId) holds) ?_ fun _ _ _ => trivial
  rintro _ w₂ inactive
  refine Safe.seqE (safe_findDeploymentRow free_looks apps.ofCalm.looks (fun _ => rfl) inactive.1) ?_
    fun _ _ _ => trivial
  rintro row w₂ ⟨appThere, parsed, found, inApp⟩
  have both := apps.and (lasting_deployment row.id appRow.id)
  refine Safe.bindE (safe_write both.ofCalm ⟨appThere, appThere.1, row, found, inApp⟩ ?_ ?_)
  · rintro w' ⟨⟨locked, app, appFound, sameActive⟩, _, row', found', inApp'⟩ _
    have sameApp : app.id = appRow.id := Database.app?_id appFound
    refine ⟨locked, appId, deploymentId, app, row', deletes, sameApp ▸ appParsed, parsed, ?_, ?_,
      found', sameApp ▸ inApp'⟩
    · rwa [sameApp]
    · rw [sameActive]
      exact inactive.2
  · rintro w₃ choice (err | value) w₄ ⟨_, _, row', found', _⟩ around
    · trivial
    refine ⟨row.id, parsed, ?_, ?_⟩
    · cases rowsChange around.moves with
      | same _ _ silent => exact absurd trivial (silent _ _ (wrote_act ..))
      | deleteDeployment _ deployments => rw [deployments, if_pos rfl]
    · obtain ⟨drawer, first, inserted, idEq, _⟩ := around.ledger.rows.origin row.id row' found'
      exact Recorded.moves ⟨drawer, first, inserted, idEq⟩ around.moves

theorem safe_finishDeletion {staging : Path} {moved : AppResult Unit}
    (stages : Stages w thread staging) :
    Safe (hub limit) ledger thread call
      (liftResult moved >>= fun _ => removeDirAll staging : AsyncResult Unit).run
      (fun _ _ => True) w :=
  safe_after_looks (takes_liftResult _) (lasting_stages staging) stages
    (fun _ _ stages => (safe_inside (takes_removeDirAll_inside staging) stages
      (lasting_const True) trivial).mono fun _ _ _ => trivial) fun _ _ _ => trivial

theorem safe_deleteDeploymentDir {appId id : Uuid} {deploymentId : String}
    (parsed : Uuid.parseStr deploymentId = some id) (removed : Removed w id) :
    Safe (hub limit) ledger thread call (deleteDeploymentDir appId deploymentId).run
      (fun _ _ => True) w := by
  have gone : Lasting limit thread call Act.Soft (fun _ => False) fun w => Removed w id :=
    lasting_removed id
  refine Safe.bindE (safe_uniqueTmpPath gone removed fun staging w₁ removed stages => ?_)
  have both := gone.and (lasting_stages staging)
  refine Safe.bindE (Safe.attempt (safe_rename both (lasting_stages staging) (fun _ => And.right)
    ⟨removed, stages⟩ ?_ ?_ ?_))
  · rintro w' ⟨removed, _⟩ ledger path lies
    exact unheld_removed ledger.rows removed parsed lies
  · intro w₂ w₃ _ stages _ _ _
    exact safe_finishDeletion stages
  · exact fun err w₂ stages => safe_finishDeletion stages

theorem safe_deleteDeployment {appId deploymentId : String}
    (deletes : Deletes call appId deploymentId) :
    Safe (hub limit) ledger thread call (deleteDeployment appId deploymentId).run
      (fun _ _ => True) w := by
  refine Safe.bindE ((safe_withWriteLock ledger_grounded free_locks (lasting_const True) ?_ trivial
    fun w₁ _ locked => safe_removeDeploymentRow deletes locked).mono ?_)
  · rintro (err | _)
    · exact lasting_const True
    · intro w event w' around own ⟨id, parsed, removed⟩
      exact ⟨id, parsed, removed.moves around.ledger.rows around.moves around.permitted⟩
  · rintro (err | owner) w₂ removed
    · trivial
    · obtain ⟨id, parsed, removed⟩ := removed
      exact safe_deleteDeploymentDir parsed removed

theorem safe_deleteDeploymentWithContainers {appId deploymentId : String}
    (deletes : Deletes call appId deploymentId) :
    Safe (hub limit) ledger thread call (deleteDeploymentWithContainers appId deploymentId).run
      (fun _ _ => True) w := by
  refine Safe.thenE (safe_freely (takes_getAppById looks_harmless appId)) (fun app w₁ _ => ?_)
    fun _ _ _ => trivial
  refine Safe.thenE (safe_freely (takes_containerNameOf looks_harmless appId deploymentId))
    (fun name w₂ _ => ?_) fun _ _ _ => trivial
  exact Safe.thenE (safe_deleteDeployment deletes)
    (fun _ w₃ _ => safe_freely (takes_removeFromAgent asks_harmless app.hostId deploymentId name))
    fun _ _ _ => trivial

/-! Uploads. -/

theorem safe_stageDeploymentFiles {staging zipPath : Path} {id : Uuid}
    (fresh : Fresh w thread id) (stages : Stages w thread staging) :
    Safe (hub limit) ledger thread call (stageDeploymentFiles staging zipPath).run
      (Outcome (fun _ w' => Fresh w' thread id ∧ Stages w' thread staging ∧
          Has w' (staging ++ [.text "files"])) fun _ w' => Stages w' thread staging) w := by
  have freshs : Lasting limit thread call Act.Gentle (fun _ => False) fun w => Fresh w thread id :=
    lasting_fresh (by rintro _ gentle row rfl; exact gentle trivial) id
  have before := freshs.and (lasting_stages staging)
  refine Safe.bindE (safe_createDir before.ofGentle ⟨fresh, stages⟩ (fun w₁ holds _ => ?_)
    fun _ _ holds => holds.2)
  refine Safe.bindE (safe_createDir before.ofGentle holds (fun w₂ holds has => ?_)
    fun _ _ holds => holds.2)
  have after := freshs.and (lasting_staged staging [.text "files"])
  refine safe_act trivial trivial after ⟨holds.1, holds.2, has⟩ fun w₃ choice result w₄ kept _ => ?_
  cases result with
  | ok value => exact kept
  | error err => exact kept.2.1

/-- The calls that upload a deployment. -/
def Uploads (call : Call) : Prop :=
  (∃ appText zipPath name size, call = .createDeployment appText zipPath name size) ∨
    ∃ appText fields, call = .uploadDeployment appText fields

def isUpload : Call → Bool
  | .createDeployment _ _ _ _ | .uploadDeployment _ _ => true
  | _ => false

theorem uploads_of_isUpload (checked : isUpload call = true) : Uploads call := by
  cases call with
  | createDeployment _ _ _ _ => exact .inl ⟨_, _, _, _, rfl⟩
  | uploadDeployment _ _ => exact .inr ⟨_, _, rfl⟩
  | _ => cases checked

theorem unheld_fresh {appId id : Uuid} {below : Path} (rows : Rows w) (locked : Locked w thread)
    (fresh : Fresh w thread id)
    (lies : deploymentDir appId.toString id.toString <+: below) : ¬ Held w thread below := by
  intro held
  cases held with
  | app _ | placingApp _ _ _ _ | staging _ _ _ _ _ _ _ =>
      simp [appDir, appsDir, tmpDir, deploymentDir, deploymentsDir] at lies
  | @deployment other row found rest =>
      have same : id = other := by
        simpa [appDir, appsDir, deploymentDir, deploymentsDir, Uuid.toString_inj] using
          (List.cons_prefix_cons.1 (List.cons_prefix_cons.1 (List.cons_prefix_cons.1
            (List.cons_prefix_cons.1 lies).2).2).2).1
      subst same
      obtain ⟨drawer, first, inserted, idEq, _⟩ := rows.origin id row found
      have drawn := rows.drawn drawer first inserted
      rw [idEq, fresh.1] at drawn
      cases drawn
      exact fresh.2 first idEq inserted
  | placingDeployment different _ locked' _ _ _ =>
      exact different (Option.some.inj (locked'.symm.trans locked))

theorem lasting_freshCalm (id : Uuid) :
    Lasting limit thread call Act.Calm calls fun w => Fresh w thread id :=
  lasting_fresh (by rintro _ calm row rfl; exact calm trivial) id

/-- Takes back what was put in place but could not be recorded. -/
theorem safe_takeBack {appId id : Uuid} (locked : Locked w thread) (fresh : Fresh w thread id) :
    Safe (hub limit) ledger thread call
      (removeDirAllLogged (deploymentDir appId.toString id.toString)) (fun _ _ => True) w := by
  have both : Lasting limit thread call Act.Calm (fun _ => False) fun w =>
      Locked w thread ∧ Fresh w thread id := lasting_locked.and (lasting_freshCalm id)
  refine Safe.bind (Safe.perform both.stable ⟨locked, fresh⟩ ?_)
  intro w₁ choice result w₂ holds ready _ _
  refine ⟨permitted_files trivial fun root below clears lies => ?_, fun _ => trivial⟩
  cases clears
  exact unheld_fresh ready.inv.rows holds.1 holds.2 lies

theorem failed_insert {id : Uuid} {row : DeploymentRow} {choice : Choice} {err : AppError}
    {w w' : HubWorld} (fresh : Fresh w thread id)
    (moves : w.Moves (hub limit) (.act thread call (.query (.insertDeployment row)) choice
      (.error err)) w') : Fresh w' thread id := by
  refine ⟨owner_kept moves fresh.1, fun other same inserted => ?_⟩
  rcases (inserted_iff moves).1 inserted with ⟨_, _, _, eq⟩ | before
  · cases eq
  · exact fresh.2 other same before

/-- The thread has just recorded this upload. -/
def Placed (w : HubWorld) (thread : Nat) (deployment : Deployment) : Prop :=
  ∃ row, Inserted w thread row ∧ row.status = .ready ∧ deployment.id = row.id.toString

theorem Placed.activating {deployment : Deployment} (placed : Placed w thread deployment) :
    Activating w thread call deployment.id := by
  obtain ⟨row, inserted, ready, same⟩ := placed
  intro appId id parsed
  rw [same, Uuid.parseStr_toString] at parsed
  cases parsed
  exact .uploaded inserted rfl ready

theorem safe_placeDeployment {appId : String} {id : Uuid} {staging : Path}
    {originalFilename : Option String} {uploadSizeBytes : Nat} (uploads : Uploads call)
    (locked : Locked w thread) (fresh : Fresh w thread id)
    (staged : Stages w thread staging ∧ Has w (staging ++ [.text "files"])) :
    Safe (hub limit) ledger thread call
      (placeDeployment appId id staging originalFilename uploadSizeBytes).run
      (Outcome (fun deployment w' => Placed w' thread deployment) fun _ _ => True) w := by
  have locks : Lasting limit thread call Act.Calm (fun _ => False) fun w => Locked w thread :=
    lasting_locked
  have files : Lasting limit thread call Act.Gentle (fun _ => False) fun w =>
      Stages w thread staging ∧ Has w (staging ++ [.text "files"]) := lasting_staged _ _
  have before := (locks.and (lasting_freshCalm id)).ofCalm.and files.ofGentle
  refine Safe.bindE (Safe.onError ((safe_findAppRowById free_looks before.looks (fun _ => rfl)
    ⟨⟨locked, fresh⟩, staged⟩).mono ?_))
  rintro (err | appRow) w₁ found
  · exact (safe_cleanup found.2.1).mono fun _ _ _ => trivial
  obtain ⟨⟨⟨locked, fresh⟩, staged⟩, _, there⟩ := found
  have apps : Lasting limit thread call Act.Calm (fun _ => False) fun w =>
      Locked w thread ∧ AppThere w appRow.id appRow.activeDeploymentId := lasting_app _ _
  have ready := (apps.and (lasting_freshCalm id)).ofCalm.and files.ofGentle
  have kept := (apps.and (lasting_freshCalm id)).and (lasting_stages staging)
  refine Safe.bindE (Safe.onError (safe_rename ready (kept.mono ?_ fun _ => False.elim)
    (fun _ holds => ⟨holds.1, holds.2.1⟩) ⟨⟨⟨locked, appRow, there, rfl⟩, fresh⟩, staged⟩ ?_ ?_ ?_))
  · rintro _ rfl
    trivial
  · intro w' holds _ path lies
    exact unheld_staged holds.2.1 (show staging ++ [] <+: path by simpa using lies)
  · -- the files are in place, the row is still missing
    intro w₂ w₃ staged ⟨⟨appThere, fresh⟩, _⟩ _ has moved
    have placed := renamed_has moved [.text "files"] staged.2.2
    have recordable := apps.ofCalm.and (lasting_placed id appRow.id [.text "files"])
    refine Safe.bindE (Safe.onError (safe_write recordable
      ⟨appThere, appThere.1, fresh, placed⟩ ?_ ?_))
    · rintro w' ⟨⟨locked, app, appFound, _⟩, _, fresh, placed⟩ _
      refine ⟨locked, fresh.1, fresh.2, ⟨app, appFound⟩, placed.front (List.prefix_append _ _),
        .inl rfl, .uploaded uploads rfl placed⟩
    · rintro w₄ choice (err | value) w₅ ⟨appThere, _, fresh, _⟩ around
      · have keeps : Lasting limit thread call (fun action => ∃ q, action = .query q)
            (fun _ => False) fun w => Locked w thread :=
          lasting_lockedUnless (by rintro _ ⟨q, rfl⟩; exact nofun)
        have locked := keeps _ _ _ around (fun _ => .act ⟨_, rfl⟩) appThere.1
        exact (safe_takeBack locked (failed_insert fresh around.moves)).mono fun _ _ _ => trivial
      · refine ⟨uploadedRow id appRow.id originalFilename uploadSizeBytes, ?_, rfl, rfl⟩
        exact (inserted_iff around.moves).2 (.inl (wrote_act ..))
  · rintro err w₂ ⟨_, stages⟩
    exact (safe_cleanup stages).mono fun _ _ _ => trivial

theorem safe_createDeployment {appId : String} {zipPath : Path} {originalFilename : Option String}
    {uploadSizeBytes : Nat} (uploads : Uploads call) :
    Safe (hub limit) ledger thread call
      (createDeployment appId zipPath originalFilename uploadSizeBytes).run (fun _ _ => True) w := by
  refine Safe.bindE (safe_nowV7 (lasting_const True) trivial fun id w₁ _ fresh => ?_)
  refine Safe.bindE (safe_uniqueTmpPath (lasting_freshCalm id).ofCalm fresh
    fun staging w₂ fresh stages => ?_)
  refine Safe.bindE (Safe.onError ((safe_stageDeploymentFiles fresh stages).mono ?_))
  rintro (err | _) w₃ staged
  · exact (safe_cleanup staged).mono fun _ _ _ => trivial
  have freshs : Lasting limit thread call Act.Gentle (fun _ => False) fun w => Fresh w thread id :=
    lasting_fresh (by rintro _ gentle row rfl; exact gentle trivial) id
  have ready := freshs.and (lasting_staged staging [.text "files"])
  refine Safe.bindE ((safe_withWriteLock ledger_grounded free_locks
    (ready.mono (fun _ => Act.Locks.gentle) fun _ => False.elim) ?_ staged fun w₄ ⟨fresh, staged⟩ locked =>
    safe_placeDeployment uploads locked fresh staged).mono ?_)
  · rintro (err | deployment)
    · exact lasting_const True
    · rintro w event w' around _ ⟨row, inserted, rest⟩
      exact ⟨row, around.moves.did inserted, rest⟩
  · rintro (err | deployment) w₅ placed
    · trivial
    · exact Safe.thenE (safe_activateDeployment appId placed.activating) (fun _ _ _ => trivial)
        fun _ _ _ => trivial

section Streaming

variable {zipPath : Path} (creates : acts (.createFile zipPath)) (writes : acts (.writeFile zipPath))

include writes in
theorem takes_writeChunks (limit total : Nat) (chunks : List (Except String Nat)) :
    Takes acts calls (writeChunks zipPath limit total chunks) := by
  induction chunks generalizing total with
  | nil => exact uses_pure _
  | cons chunk rest ih =>
      cases chunk with
      | error message => exact uses_throw _
      | ok size =>
          simp only [writeChunks]
          split
          · exact uses_throw _
          · exact uses_bind (Program.uses_perform writes) fun _ => ih _

include creates writes in
theorem takes_streamUploadToDisk (limit : Nat) (fields : List Field) :
    Takes acts calls (streamUploadToDisk zipPath limit fields) := by
  induction fields with
  | nil => exact uses_throw _
  | cons field rest ih =>
      simp only [streamUploadToDisk]
      split
      · exact ih
      · exact uses_bind (Program.uses_perform creates) fun _ =>
          uses_bind (takes_writeChunks writes limit 0 field.chunks) fun _ => uses_pure _

end Streaming

section Uploading

variable (lock : acts .lock) (unlock : acts .unlock)
variable (prepares : ∀ action : Act, action.Prepares → acts action) (draws : acts .nowV7)
variable (inserts : ∀ id appId name size,
  acts (.query (.insertDeployment (uploadedRow id appId name size))))
variable (sets : ∀ appId id, acts (.query (.setActiveDeployment appId id)))
include lock unlock prepares draws inserts sets

theorem takes_createDeployment (appText : String) (zipPath : Path)
    (originalFilename : Option String) (size : Nat) :
    Takes acts calls (createDeployment appText zipPath originalFilename size) := by
  have looks := prepares_looks prepares
  have files : ∀ action : Act, action.OnFiles → acts action := fun action onFiles =>
    prepares action (.inr (.inl onFiles))
  have stages (staging : Path) : Takes acts calls (stageDeploymentFiles staging zipPath) :=
    uses_bind (takes_createDir files _) fun _ => uses_bind (takes_createDir files _) fun _ =>
      Program.uses_perform (files _ trivial)
  have places (id : Uuid) (staging : Path) :
      Takes acts calls (placeDeployment appText id staging originalFilename size) :=
    uses_bind (uses_onError (takes_findAppRowById looks _) (uses_removeDirAllLogged files _)) fun _ =>
    uses_bind (uses_onError (takes_rename files _ _) (uses_removeDirAllLogged files _)) fun _ =>
    uses_bind (uses_onError (takes_query (inserts _ _ _ _)) (uses_removeDirAllLogged files _))
      fun _ => uses_pure _
  exact uses_bind (uses_lift (Program.uses_perform draws)) fun id =>
    uses_bind (takes_uniqueTmpPath prepares _ _) fun staging =>
    uses_bind (uses_onError (stages staging) (uses_removeDirAllLogged files _)) fun _ =>
    uses_bind (takes_withWriteLock lock unlock (places id staging)) fun _ =>
    uses_bind (takes_activateDeployment lock unlock looks sets _ _) fun _ => uses_pure _

theorem takes_uploadDeployment (appText : String) (fields : List Field) (limit : Nat) :
    Takes acts calls (uploadDeployment appText fields limit) := by
  have files : ∀ action : Act, action.OnFiles → acts action := fun action onFiles =>
    prepares action (.inr (.inl onFiles))
  refine uses_bind (takes_uniqueTmpPath prepares _ _) fun zipPath => ?_
  have streams : Takes acts calls (streamUploadToDisk zipPath limit fields) :=
    takes_streamUploadToDisk (files _ trivial) (files _ trivial) limit fields
  exact uses_bind (uses_onError streams (uses_removeFileLogged files _)) fun _ =>
    uses_bind (uses_attempt
      (takes_createDeployment lock unlock prepares draws inserts sets _ _ _ _)) fun result =>
    uses_bind (uses_lift (uses_removeFileLogged files _)) fun _ => takes_liftResult result

end Uploading

theorem safe_uploadDeployment {appId : String} {fields : List Field} (uploads : Uploads call) :
    Safe (hub limit) ledger thread call (uploadDeployment appId fields limit).run
      (fun _ _ => True) w := by
  refine Safe.bindE (safe_uniqueTmpPath (lasting_const True) trivial fun zipPath w₁ _ stages => ?_)
  have removes : ∀ {w₁ : HubWorld}, Stages w₁ thread zipPath →
      Safe (hub limit) ledger thread call (removeFileLogged zipPath) (fun _ _ => True) w₁ :=
    fun stages => (safe_inside (uses_removeFileLogged_inside zipPath) stages (lasting_const True)
      trivial).mono fun _ _ _ => trivial
  have streams : Takes Act.Harmless (fun _ => False) (streamUploadToDisk zipPath limit fields) :=
    takes_streamUploadToDisk trivial trivial limit fields
  refine Safe.bindE (Safe.onError ((safe_keeps (safe_freely streams) (lasting_stages zipPath)
    stages).mono ?_))
  rintro (err | ⟨originalFilename, uploadSizeBytes⟩) w₂ ⟨_, stages⟩
  · exact removes stages
  refine Safe.bindE (Safe.attempt ((safe_keeps (safe_createDeployment uploads)
    (lasting_stages zipPath) stages).mono fun result w₃ ⟨_, stages⟩ => ?_))
  refine Safe.bindE (Safe.lift ((removes stages).mono fun _ w₄ _ => ?_))
  exact (safe_freely (takes_liftResult result)).mono fun _ _ _ => trivial

/-! Git deployments. -/

/-- The thread has inserted this Pending row. -/
def Pends (w : HubWorld) (thread : Nat) (appId : String) (row : DeploymentRow) : Prop :=
  Inserted w thread row ∧ row.status = .pending ∧ Uuid.parseStr appId = some row.appId

theorem lasting_pends (other : Nat) (appId : String) (row : DeploymentRow) :
    Lasting limit thread call acts calls fun w => Pends w other appId row :=
  (lasting_did _).and (lasting_const _)

theorem safe_insertPending {appId : String}
    (git : call = .createPendingGitDeployment appId ∨ call = .startGitDeployment appId)
    (locked : Locked w thread) :
    Safe (hub limit) ledger thread call (insertPending appId).run
      (Outcome (fun answer w' => ∃ row, Pends w' thread appId row ∧
        answer.1.id = row.id.toString) fun _ _ => True) w := by
  have locks : Lasting limit thread call Act.Calm (fun _ => False) fun w => Locked w thread :=
    lasting_locked
  refine Safe.bindE ((safe_findAppRowById free_looks locks.ofCalm.looks (fun _ => rfl) locked).mono ?_)
  rintro (err | appRow) w₁ found
  · trivial
  obtain ⟨locked, parsed, there⟩ := found
  have apps : Lasting limit thread call Act.Calm (fun _ => False) fun w =>
      Locked w thread ∧ AppThere w appRow.id appRow.activeDeploymentId := lasting_app _ _
  refine safe_after_looks (takes_requireGitSource appRow) apps.ofCalm ⟨locked, appRow, there, rfl⟩
    (fun gitSource w₂ appThere => ?_) fun _ _ _ => trivial
  refine Safe.seqE (safe_requireNonePending free_looks apps.ofCalm.looks rfl appThere) ?_
    fun _ _ _ => trivial
  rintro _ w₃ ⟨appThere, none⟩
  have both := apps.and (lasting_nonePending appRow.id)
  refine Safe.bindE (safe_nowV7 both.ofCalm ⟨appThere, appThere.1, none⟩ fun id w₄ kept fresh => ?_)
  have freshs := both.and (lasting_freshCalm id)
  refine Safe.bindE (safe_createDir freshs.ofCalm ⟨kept, fresh⟩ (fun w₅ ⟨⟨appThere, none⟩, fresh⟩ has => ?_)
    fun _ _ _ => trivial)
  have placed : Has w₅ (deploymentDir appRow.id.toString id.toString ++ []) := by simpa using has
  have recordable := both.ofCalm.and (lasting_placed id appRow.id [])
  refine Safe.bindE (safe_write recordable ⟨⟨appThere, none⟩, appThere.1, fresh, placed⟩ ?_ ?_)
  · rintro w' ⟨⟨⟨locked, app, appFound, _⟩, _, none⟩, _, fresh, placed⟩ _
    rw [List.append_nil] at placed
    refine ⟨locked, fresh.1, fresh.2, ⟨app, appFound⟩, placed, ?_, .pending parsed git rfl none⟩
    cases gitSource.mode <;> simp [pendingRow]
  · rintro w₆ choice (err | value) w₇ _ around
    · trivial
    · refine ⟨pendingRow id appRow.id gitSource.mode, ⟨?_, rfl, parsed⟩, rfl⟩
      exact (inserted_iff around.moves).2 (.inl (wrote_act ..))

theorem safe_createPendingGitDeployment {appId : String}
    (git : call = .createPendingGitDeployment appId ∨ call = .startGitDeployment appId) :
    Safe (hub limit) ledger thread call (createPendingGitDeployment appId).run
      (Outcome (fun answer w' => ∃ row, Pends w' thread appId row ∧
        answer.1.id = row.id.toString) fun _ _ => True) w := by
  refine safe_withWriteLock ledger_grounded free_locks (lasting_const True) ?_ trivial fun w₁ _ locked =>
    safe_insertPending git locked
  rintro (err | answer)
  · exact lasting_const True
  · intro w event w' around own ⟨row, pends, eq⟩
    exact ⟨row, lasting_pends _ appId row w event w' around own pends, eq⟩

theorem lasting_notForked (child : Nat) :
    Lasting limit thread call acts (fun _ => False) fun w => ¬ Forked w thread child := by
  refine lasting_not_did ?_ ?_
  · rintro _ ⟨_, _, rfl⟩
    rfl
  · rintro _ own ⟨_, _, rfl⟩
    cases own with
    | fork forks => exact forks

theorem safe_startGitDeployment {appId : String} (git : call = .startGitDeployment appId)
    (first : ∀ child, ¬ Forked w thread child) :
    Safe (hub limit) ledger thread call (startGitDeployment appId).run (fun _ _ => True) w := by
  have notForked : Lasting limit thread call (fun _ => True) (fun _ => False) fun w =>
      ∀ child, ¬ Forked w thread child :=
    fun w event w' around own not child => lasting_notForked child w event w' around own (not child)
  have forksNothing : Takes (fun _ => True) (fun _ => False) (createPendingGitDeployment appId) :=
    takes_createPendingGitDeployment trivial trivial (fun _ _ => trivial) (fun _ _ => trivial) trivial
      (fun _ => trivial) appId
  refine Safe.bindE (((safe_createPendingGitDeployment (.inr git)).along forksNothing
    (notForked.frame ledger_grounded) first).mono ?_)
  rintro (err | ⟨deployment, gitSource⟩) w₁ ⟨answer, first⟩
  · trivial
  obtain ⟨row, pends, idEq⟩ := answer
  have idEq : deployment.id = row.id.toString := idEq
  have both := notForked.and (lasting_pends thread appId row)
  refine Safe.bindE (Safe.lift (Safe.spawn both.stable ⟨first, pends⟩ ?_))
  rintro w₂ w₃ ⟨first, inserted, pending, parsed⟩ _ _ _
  refine ⟨?_, fun _ => trivial⟩
  refine ⟨?_, ?_, ?_, ?_⟩ <;> intros <;> rename_i eq
  · rename_i eq' _
    cases eq'
  · cases eq
  · cases eq
    exact ⟨first, appId, row, gitSource, git, by rw [idEq], inserted, pending, parsed⟩
  · cases eq

/-! The executor. -/

theorem unsettled_lasts (id : Uuid)
    (fine : ∀ action, acts action → ∀ status failureError,
      action ≠ .query (.updateStatus id status failureError)) :
    Lasting limit thread call acts calls fun w => ¬ Settled w thread id := by
  refine lasting_not_did ?_ ?_
  · rintro _ ⟨_, _, wrote⟩
    exact wrote.thread
  · rintro _ own ⟨status, failureError, _, _, _, rfl⟩
    cases own with
    | act among => exact fine _ among status failureError rfl

theorem safe_setDeploymentStatus {appId deploymentId : String} {status : DeploymentStatus}
    (lasting : Lasting limit thread call Act.Soft (fun _ => False) fact) (holds : fact w)
    (may : ∀ w' id, Uuid.parseStr deploymentId = some id → fact w' →
      MayWrite w' thread call
        (.updateStatus id (statusColumns status).1 (statusColumns status).2))
    (failed : ∀ w₀ id choice err w', fact w₀ → Around limit thread call w₀ (.act thread call
      (.query (.updateStatus id (statusColumns status).1 (statusColumns status).2)) choice
        (.error err)) w' → fact w') :
    Safe (hub limit) ledger thread call (setDeploymentStatus appId deploymentId status).run
      (Outcome (fun _ _ => True) fun _ w' => fact w') w := by
  refine safe_after_looks (takes_findAppRowById looks_looks appId) lasting holds
    (fun appRow w₁ holds => ?_) fun _ _ holds => holds
  refine Safe.bindE ((safe_findDeploymentRow free_looks lasting.looks (fun _ => rfl) holds).mono ?_)
  rintro (err | row) w₂ answer
  · exact answer
  obtain ⟨holds, parsed, _⟩ := answer
  refine safe_write lasting holds (fun w' holds _ => may w' row.id parsed holds) ?_
  rintro w₃ choice (err | value) w₄ holds around
  · exact failed w₃ row.id choice err w₄ holds around
  · trivial

/-- Everything but writing the status of the deployment. -/
def Act.LeavesStatus (id : Uuid) (action : Act) : Prop :=
  ∀ status failureError, action ≠ .query (.updateStatus id status failureError)

theorem prepares_leavesStatus (id : Uuid) (action : Act) (prepares : action.Prepares) :
    action.LeavesStatus id := by
  rintro status failureError rfl
  rcases prepares with looks | onFiles | ⟨_, _, eq⟩ | ⟨_, _, eq⟩ | eq | ⟨_, _, _, _, eq⟩
  · cases looks
  · exact onFiles
  all_goals cases eq

/-- One filesystem step inside a staging directory of the thread. -/
theorem safe_step {path : Path} {action : Act} (inside : Act.Inside path action)
    (stages : Stages w thread path) :
    Safe (hub limit) ledger thread call (act action) (fun _ w' => Stages w' thread path) w :=
  (safe_inside (Program.uses_perform inside) stages (lasting_const True) trivial).mono
    fun _ _ holds => holds.2

section Executor

variable {appId : String} {gitSource : GitSource} {staging : Path}

theorem safe_cloneRepo (stages : Stages w thread staging) :
    Safe (hub limit) ledger thread call (cloneRepo staging gitSource).run
      (Outcome (fun answer w' => answer.1 = staging ++ [.text "_checkout"] ∧ Stages w' thread staging)
        fun _ w' => Stages w' thread staging) w := by
  have stable : Lasting limit thread call Act.Soft (fun _ => False) fun w =>
      Stages w thread staging := lasting_stages staging
  refine Safe.bindE (safe_createDir stable stages (fun w₁ stages _ => ?_) fun _ _ stages => stages)
  refine Safe.bindE (safe_act trivial ⟨trivial, trivial⟩ stable stages ?_)
  rintro w₂ choice (err | commitSha) w₃ stages _
  · exact stages
  have inside : Act.Inside staging (.removeDirAll (staging ++ [.text "_checkout"] ++ [.text ".git"])) :=
    .inr ⟨trivial, by rintro root rfl; exact ⟨_, List.append_assoc _ _ _⟩⟩
  exact Safe.thenE (safe_step inside stages) (fun _ w₄ stages => ⟨rfl, stages⟩)
    fun _ _ stages => stages

theorem safe_cloneWithTimeout (stages : Stages w thread staging) :
    Safe (hub limit) ledger thread call (cloneWithTimeout staging gitSource).run
      (Outcome (fun answer w' => answer.1 = staging ++ [.text "_checkout"] ∧ Stages w' thread staging)
        fun _ w' => Stages w' thread staging) w := by
  refine Safe.bindE (Safe.attempt ((safe_cloneRepo stages).mono fun result w₁ cloned => ?_))
  have stages₁ : Stages w₁ thread staging := by
    cases result with
    | ok answer => exact cloned.2
    | error err => exact cloned
  refine Safe.bindE (Safe.lift (safe_act trivial ⟨trivial, trivial⟩
    (lasting_stages staging : Lasting limit thread call Act.Soft _ _) stages₁ ?_))
  rintro w₂ choice (_ | _) w₃ stages _
  · cases result with
    | ok answer => exact ⟨cloned.1, stages⟩
    | error err => exact stages
  · exact stages

theorem safe_removeInside {rest : Path} (stages : Stages w thread staging) :
    Safe (hub limit) ledger thread call (removeDirAllLogged (staging ++ rest))
      (fun _ w' => Stages w' thread staging) w :=
  Safe.bind (safe_step (.inr ⟨trivial, by rintro root rfl; exact ⟨rest, rfl⟩⟩) stages)

theorem safe_resolvePublishDir {rest : Path} {publishDir : Option String}
    (stages : Stages w thread staging) :
    Safe (hub limit) ledger thread call (resolvePublishDir (staging ++ rest) publishDir).run
      (Outcome (fun root w' => (∃ inner, root = staging ++ inner) ∧ Stages w' thread staging)
        fun _ w' => Stages w' thread staging) w := by
  unfold resolvePublishDir
  split
  · exact ⟨⟨rest, rfl⟩, stages⟩
  · split
    · exact stages
    · have probes : ∀ path, Act.Inside staging (.pathExists path) := fun _ => .inl trivial
      refine Safe.bindE (Safe.lift ((safe_step (probes _) stages).mono ?_))
      rintro (_ | _) w₁ stages
      · exact stages
      · exact ⟨⟨_, List.append_assoc _ _ _⟩, stages⟩

theorem safe_moveContent {rest : Path} {publishDir : Option String}
    (stages : Stages w thread staging) :
    Safe (hub limit) ledger thread call (do
      let contentRoot ← resolvePublishDir (staging ++ rest) publishDir
      rename contentRoot (staging ++ [.text "files"])
      Fallible.lift (removeDirAllLogged (staging ++ rest)) : AsyncResult Unit).run
      (fun _ w' => Stages w' thread staging) w := by
  refine Safe.seqE (safe_resolvePublishDir stages) ?_ fun _ _ holds => holds
  rintro root w₁ ⟨⟨inner, rfl⟩, stages⟩
  refine Safe.thenE (safe_step (.inr ⟨trivial, ?_⟩) stages)
    (fun _ w₂ stages => Safe.lift (safe_removeInside stages)) fun _ _ stages => stages
  rintro root rfl
  exact ⟨inner, rfl⟩

theorem safe_placeContent {rest : Path} {mode : GitDeployMode} (stages : Stages w thread staging) :
    Safe (hub limit) ledger thread call (placeContent staging (staging ++ rest) mode).run
      (fun _ w' => Stages w' thread staging) w := by
  cases mode with
  | run config => exact safe_step (.inr ⟨trivial, by rintro root rfl; exact ⟨rest, rfl⟩⟩) stages
  | static publishDir => exact safe_moveContent stages
  | build build => exact safe_moveContent stages

/-- The content reaches the directory of the deployment before anything says so. -/
theorem safe_finishGitDeployment {rest : Path} {forker : Nat} {row : DeploymentRow}
    {commitSha : String} (pends : Pends w forker appId row) (stages : Stages w thread staging) :
    Safe (hub limit) ledger thread call
      (finishGitDeployment staging (staging ++ rest) appId row.id.toString gitSource commitSha).run
      (Outcome (fun _ w' => Filed w' row.id) fun _ w' => Stages w' thread staging) w := by
  have pending : ∀ {acts calls}, Lasting limit thread call acts calls fun w =>
      Pends w forker appId row := lasting_pends _ appId row
  have both : ∀ {acts calls}, Lasting limit thread call acts calls fun w =>
      Stages w thread staging ∧ Pends w forker appId row := (lasting_stages staging).and pending
  have placed : Safe (hub limit) ledger thread call
      (placeContent staging (staging ++ rest) gitSource.mode).run
      (fun _ w' => Stages w' thread staging ∧ Pends w' forker appId row) w :=
    safe_keeps (safe_placeContent stages) pending pends
  refine Safe.thenE placed (fun _ w₁ holds => ?_) fun _ _ holds => holds.1
  have measures : Act.Soft (.dirSizeBytes (staging ++ [Component.text "files"])) := ⟨trivial, trivial⟩
  refine Safe.bindE (safe_act trivial measures both holds ?_)
  rintro w₂ choice (err | contentSize) w₃ holds _
  · exact holds.1
  refine Safe.seqE (safe_findAppRowById free_looks both.looks (fun _ => rfl) holds) ?_
    fun _ _ holds => holds.1
  rintro appRow w₄ ⟨holds, parsed, _⟩
  refine Safe.bindE (safe_rename both both (fun _ holds => holds) holds ?_ ?_ ?_)
  · intro w' holds _ path lies
    exact unheld_staged holds.1 lies
  · intro w₅ w₆ _ ⟨stages, pends⟩ ledger has moved
    have filed : Filed w₆ row.id := by
      refine ⟨⟨forker, row, pends.1, rfl⟩, fun found there => ?_⟩
      obtain ⟨drawer, first, inserted, idEq, appEq, _⟩ := ledger.rows.origin row.id found there
      have sameRow := ledger.rows.once drawer forker first row inserted pends.1 idEq
      have sameApp : appRow.id = found.appId := by
        rw [← appEq, sameRow]
        exact Option.some.inj (parsed.symm.trans pends.2.2)
      have target := renamed_has moved [] (by simpa using has)
      rwa [List.append_nil, sameApp] at target
    have filedStaged : ∀ {acts calls}, Lasting limit thread call acts calls fun w =>
        Filed w row.id ∧ Stages w thread staging := (lasting_filed row.id).and (lasting_stages staging)
    refine safe_after_looks (takes_findDeploymentRow looks_looks _ _) filedStaged ⟨filed, stages⟩
      (fun deploymentRow w₇ holds => ?_) fun _ _ holds => holds.2
    refine Safe.thenE (safe_write filedStaged holds (fun _ _ _ => trivial)
      fun w₈ choice result w₉ holds around =>
        @filedStaged (fun _ => True) (fun _ => True) _ _ _ around (fun _ => .act trivial) holds)
      (fun _ w₁₀ holds => ?_) fun _ _ holds => holds.2
    exact Safe.lift ((safe_keeps (safe_cleanup holds.2) (lasting_filed row.id) holds.1).mono
      fun _ _ holds => holds.2)
  · exact fun _ _ holds => holds.1

theorem safe_prepareGitDeployment {app : App} {forker : Nat} {row : DeploymentRow}
    (pends : Pends w forker appId row) (stages : Stages w thread staging) :
    Safe (hub limit) ledger thread call
      (prepareGitDeployment app staging appId row.id.toString gitSource).run
      (Outcome (fun _ w' => Filed w' row.id) fun _ _ => True) w := by
  have pending : ∀ {acts calls}, Lasting limit thread call acts calls fun w =>
      Pends w forker appId row := lasting_pends _ appId row
  have both : ∀ {acts calls}, Lasting limit thread call acts calls fun w =>
      Stages w thread staging ∧ Pends w forker appId row := (lasting_stages staging).and pending
  have cleanup : ∀ {w' : HubWorld} {err : AppError}, Stages w' thread staging →
      Safe (hub limit) ledger thread call (removeDirAllLogged staging)
        (fun _ w'' => Outcome (fun _ w' => Filed w' row.id) (fun _ _ => True)
          (.error err : AppResult Unit) w'') w' :=
    fun stages => (safe_cleanup stages).mono fun _ _ _ => trivial
  refine Safe.onError (Safe.bindE ((safe_keeps (safe_cloneWithTimeout stages) pending pends).mono ?_))
  rintro (err | ⟨checkoutDir, commitSha⟩) w₁ ⟨cloned, pends⟩
  · exact cleanup cloned
  change checkoutDir = staging ++ [Component.text "_checkout"] ∧ Stages w₁ thread staging at cloned
  obtain ⟨rfl, stages⟩ := cloned
  refine Safe.thenE ((safe_keeps (safe_freely
    (takes_runBuild looks_harmless asks_harmless app row.id.toString gitSource.mode)) both ⟨stages, pends⟩).mono
    fun _ _ holds => holds.2) (fun _ w₂ holds => ?_) fun _ _ holds => cleanup holds.1
  · refine (safe_finishGitDeployment holds.2 holds.1).mono ?_
    rintro (err | _) w₃ finished
    · exact cleanup finished
    · exact finished

theorem safe_shipIfRun {deploymentId : String} {mode : GitDeployMode} :
    Safe (hub limit) ledger thread call (shipIfRun appId deploymentId mode).run
      (fun _ _ => True) w := by
  cases mode with
  | static _ | build _ => exact trivial
  | run config =>
  refine Safe.thenE (safe_freely (takes_findAppRowById looks_harmless appId)) (fun appRow w₁ _ => ?_)
    fun _ _ _ => trivial
  refine Safe.bindE (safe_uniqueTmpPath (lasting_const True) trivial fun zipPath w₂ _ stages => ?_)
  have zips : Act.Inside zipPath
      (.zipDir (deploymentFilesDir appRow.id.toString deploymentId) zipPath) := .inl trivial
  refine Safe.thenE (safe_step zips stages) (fun _ w₃ stages => ?_) fun _ _ _ => trivial
  refine Safe.bindE (Safe.attempt ((safe_keeps (safe_freely (uses_bind
    (takes_command (takes_ask trivial)) fun _ => takes_command (takes_ask trivial)))
    (lasting_stages zipPath) stages).mono fun result w₄ ⟨_, stages⟩ => ?_))
  refine Safe.bindE (Safe.lift ((safe_inside (uses_removeFileLogged_inside zipPath) stages
    (lasting_const True) trivial).mono fun _ w₅ _ => ?_))
  exact (safe_freely (takes_liftResult result)).mono fun _ _ _ => trivial

theorem failed_unsettled {id id' : Uuid} {status : DeploymentState} {failureError : Option String}
    {choice : Choice} {err : AppError} {w w' : HubWorld}
    (moves : w.Moves (hub limit) (.act thread call (.query (.updateStatus id' status failureError))
      choice (.error err)) w') (unsettled : ¬ Settled w thread id) : ¬ Settled w' thread id := by
  intro settled
  rcases (moves.did_iff _).1 settled with ⟨_, _, _, _, _, eq⟩ | before
  · cases eq
  · exact unsettled before

/-- The executor writes a status it may still write. -/
theorem safe_settle {id : Uuid} {status : DeploymentStatus}
    (isExecutor : call = .runGitDeployment appId id.toString gitSource)
    (terminal : (statusColumns status).1 ≠ .pending)
    (lasting : Lasting limit thread call (fun _ => True) (fun _ => True) fact)
    (contents : ∀ w', fact w' → (statusColumns status).1 = .ready → Filed w' id) (holds : fact w)
    (unsettled : ¬ Settled w thread id) :
    Safe (hub limit) ledger thread call (setDeploymentStatus appId id.toString status).run
      (Outcome (fun _ _ => True) fun _ w' => ¬ Settled w' thread id) w := by
  have unsettledLasts : Lasting limit thread call Act.Soft (fun _ => False) fun w =>
      ¬ Settled w thread id :=
    unsettled_lasts id (by rintro _ soft status failureError rfl; exact soft.1 trivial)
  have both := (lasting.mono (fun _ _ => trivial) fun _ => False.elim).and unsettledLasts
  refine (safe_setDeploymentStatus both ⟨holds, unsettled⟩ ?_ ?_).mono ?_
  · intro w' id' parsed holds
    rw [Uuid.parseStr_toString] at parsed
    cases parsed
    refine ⟨terminal, isExecutor ▸ .executor holds.2 fun ready => ?_⟩
    exact (contents w' holds.1 ready).2
  · intro w₀ id' choice err w' holds around
    exact ⟨lasting w₀ _ w' around (fun _ => .act trivial) holds.1,
      failed_unsettled around.moves holds.2⟩
  · rintro (err | _) w' after
    · exact after.2
    · trivial

theorem leaves_looks (id : Uuid) (action : Act) (looks : action.Looks) : action.LeavesStatus id :=
  prepares_leavesStatus id action (.inl looks)

theorem safe_executeGitDeployment {forker : Nat} {row : DeploymentRow}
    (isExecutor : call = .runGitDeployment appId row.id.toString gitSource)
    (pends : Pends w forker appId row) (unsettled : ¬ Settled w thread row.id) :
    Safe (hub limit) ledger thread call
      (executeGitDeployment appId row.id.toString gitSource).run
      (Outcome (fun _ _ => True) fun _ w' => ¬ Settled w' thread row.id) w := by
  have pending : ∀ {acts calls}, Lasting limit thread call acts calls fun w =>
      Pends w forker appId row := lasting_pends _ appId row
  have open_ : Lasting limit thread call (Act.LeavesStatus row.id) (fun _ => False) fun w =>
      ¬ Settled w thread row.id := unsettled_lasts row.id fun _ leaves => leaves
  have prepares := prepares_leavesStatus row.id
  have looks := leaves_looks row.id
  -- every part before the last one leaves the status alone
  have along : ∀ {α : Type} {program : AsyncResult α} {post : AppResult α → HubWorld → Prop}
      {w₁ : HubWorld}, Takes (Act.LeavesStatus row.id) (fun _ => False) program →
      Safe (hub limit) ledger thread call program.run post w₁ → ¬ Settled w₁ thread row.id →
      Safe (hub limit) ledger thread call program.run
        (fun outcome w' => post outcome w' ∧ ¬ Settled w' thread row.id) w₁ :=
    fun takes safe holds => safe.along takes (open_.frame ledger_grounded) holds
  refine Safe.bindE ((along (takes_getAppById looks appId) (safe_keeps (safe_freely
    (takes_getAppById looks_harmless appId)) pending pends) unsettled).mono ?_)
  rintro (err | app) w₁ ⟨⟨_, pends⟩, unsettled⟩
  · exact unsettled
  have drawn : Safe (hub limit) ledger thread call (uniqueTmpPath "git-deployment").run
      (Outcome (fun staging w' => Pends w' forker appId row ∧ Stages w' thread staging)
        fun _ _ => True) w₁ :=
    safe_uniqueTmpPath pending pends fun _ _ pends stages => ⟨pends, stages⟩
  refine Safe.bindE ((along (takes_uniqueTmpPath prepares _ _) drawn unsettled).mono ?_)
  rintro (err | staging) w₂ ⟨drawn, unsettled⟩
  · exact unsettled
  refine Safe.bindE ((along (takes_prepareGitDeployment prepares app staging appId _ gitSource)
    (safe_prepareGitDeployment drawn.1 drawn.2) unsettled).mono ?_)
  rintro (err | _) w₃ ⟨filed, unsettled⟩
  · exact unsettled
  refine Safe.bindE ((along (takes_shipIfRun prepares appId _ gitSource.mode)
    (safe_keeps safe_shipIfRun (lasting_filed row.id) filed) unsettled).mono ?_)
  rintro (err | _) w₄ ⟨⟨_, filed⟩, unsettled⟩
  · exact unsettled
  have activates : Takes (Act.LeavesStatus row.id) (fun _ => False)
      (activateWithContainers appId row.id.toString) :=
    takes_activateWithContainers nofun nofun looks (fun _ _ => nofun) (fun _ _ => nofun) appId _
  have activating : Activating w₄ thread call row.id.toString := by
    intro app id parsed
    rw [Uuid.parseStr_toString] at parsed
    cases parsed
    exact isExecutor ▸ .executor
  refine Safe.bindE ((along activates (safe_keeps (safe_activateWithContainers appId activating)
    (lasting_filed row.id) filed) unsettled).mono ?_)
  rintro (err | _) w₅ ⟨⟨_, filed⟩, unsettled⟩
  · exact unsettled
  exact safe_settle isExecutor nofun (lasting_filed row.id) (fun _ filed _ => filed) filed unsettled

theorem safe_runGitDeployment {forker : Nat} {row : DeploymentRow}
    (isExecutor : call = .runGitDeployment appId row.id.toString gitSource)
    (pends : Pends w forker appId row) (unsettled : ¬ Settled w thread row.id) :
    Safe (hub limit) ledger thread call (runGitDeployment appId row.id.toString gitSource)
      (fun _ _ => True) w := by
  refine Safe.bind ((safe_executeGitDeployment isExecutor pends unsettled).mono ?_)
  rintro (err | _) w₁ outcome
  · refine Safe.bind ((safe_settle isExecutor ?_ (lasting_const True) ?_ trivial outcome).mono
      fun _ _ _ => trivial)
    · exact nofun
    · exact fun _ _ => nofun
  · trivial

end Executor

/-! Reconciliation. -/

/-- The thread has listed these deployments, as far as they are Pending. -/
def PendingListed (w : HubWorld) (thread : Nat) (deployments : List Deployment) : Prop :=
  ∀ deployment ∈ deployments, deployment.status = .pending →
    ∃ id : Uuid, deployment.id = id.toString ∧ Listed w thread id

theorem lasting_pendingListed (deployments : List Deployment) :
    Lasting limit thread call acts calls fun w => PendingListed w thread deployments := by
  intro w event w' around own holds deployment member pending
  obtain ⟨id, idEq, listed⟩ := holds deployment member pending
  exact ⟨id, idEq, around.moves.did listed⟩

theorem safe_listDeployments {appId : String} :
    Safe (hub limit) ledger thread call (listDeployments appId).run
      (Outcome (fun deployments w' => PendingListed w' thread deployments) fun _ _ => True) w := by
  refine Safe.thenE (safe_freely (takes_findAppRowById looks_harmless appId)) (fun appRow w₁ _ => ?_)
    fun _ _ _ => trivial
  refine Safe.bindE (safe_read free_looks (frame_const True) rfl rfl trivial ?_ fun _ _ _ _ _ _ _ _ => trivial)
  intro w₂ w₃ choice rows _ _ moves _ _ deployment member pending
  obtain ⟨row, rowMember, rfl⟩ := List.mem_map.1 member
  refine ⟨row.id, rfl, (moves.did_iff _).2 (.inl ?_)⟩
  refine ⟨call, appRow.id, choice, rows, row, (List.mem_insertionSort _).1 rowMember, rfl, rfl, ?_⟩
  cases status : row.status with
  | pending => rfl
  | ready => simp [deploymentFromRow, DeploymentRow.deploymentStatus, status] at pending
  | failed => simp [deploymentFromRow, DeploymentRow.deploymentStatus, status] at pending

theorem safe_failPendingDeployment {app : App} {deployment : Deployment}
    (isPass : call = .onAgentConnected)
    (listed : deployment.status = .pending →
      ∃ id : Uuid, deployment.id = id.toString ∧ Listed w thread id) :
    Safe (hub limit) ledger thread call (failPendingDeployment app deployment)
      (fun _ _ => True) w := by
  unfold failPendingDeployment
  by_cases pending : deployment.status = .pending
  · rw [if_neg (not_not.2 pending)]
    obtain ⟨id, idEq, listed⟩ := listed pending
    have lasts : ∀ {acts calls}, Lasting limit thread call acts calls fun w => Listed w thread id :=
      lasting_did _
    have settles : ∀ {w₁ : HubWorld}, Listed w₁ thread id →
        Safe (hub limit) ledger thread call
          (failGitDeployment app.id deployment.id interrupted).run (fun _ _ => True) w₁ := by
      intro w₁ listed
      refine (safe_setDeploymentStatus lasts listed ?_ ?_).mono fun _ _ _ => trivial
      · intro w' id' parsed listed
        rw [idEq, Uuid.parseStr_toString] at parsed
        cases parsed
        exact ⟨nofun, isPass ▸ .interrupted listed⟩
      · exact fun w₀ _ _ _ w' listed around => around.moves.did listed
    cases deployment.containerName with
    | none => exact Safe.bind ((settles listed).mono fun _ _ _ => trivial)
    | some name =>
        refine Safe.bind ((safe_keeps (safe_freely (takes_command (takes_ask trivial))) lasts
          listed).mono ?_)
        rintro _ w₁ ⟨_, listed⟩
        exact Safe.bind ((settles listed).mono fun _ _ _ => trivial)
  · rw [if_pos pending]
    trivial

theorem safe_failPendingDeploymentsOf {app : App} (isPass : call = .onAgentConnected) :
    Safe (hub limit) ledger thread call (failPendingDeploymentsOf app) (fun _ _ => True) w := by
  refine Safe.bind (safe_listDeployments.mono ?_)
  rintro (err | deployments) w₁ listed
  · trivial
  refine (Safe.forEachDone (fun rest w => PendingListed w thread rest) ?_ deployments listed).mono
    fun _ _ _ => trivial
  intro deployment rest w₂ holds
  refine (safe_keeps (safe_failPendingDeployment isPass (holds deployment (by simp)))
    (lasting_pendingListed (deployment :: rest)) holds).mono ?_
  exact fun _ w₃ holds other member => holds.2 other (List.mem_cons_of_mem _ member)

theorem safe_failPendingDeployments (isPass : call = .onAgentConnected) :
    Safe (hub limit) ledger thread call failPendingDeployments (fun _ _ => True) w := by
  refine Safe.bind ((safe_freely (takes_listApps looks_harmless)).mono ?_)
  rintro (err | apps) w₁ _
  · trivial
  · exact Safe.forEachDone (fun _ _ => True) (fun _ _ _ _ => safe_failPendingDeploymentsOf isPass)
      apps trivial

theorem uses_sweepAgentDir (host : Int) (valid : List Uuid) (deploymentId : String) :
    (sweepAgentDir host valid deploymentId).Uses Act.Harmless calls := by
  unfold sweepAgentDir
  split
  · trivial
  · split
    · trivial
    · exact (takes_command (takes_ask trivial)).bind fun _ => trivial

theorem uses_sweepAgentDirsOnHost (valid : List Uuid) (host : Int) :
    (sweepAgentDirsOnHost valid host).Uses Act.Harmless calls := by
  refine (takes_command (takes_ask trivial)).bind fun outcome => ?_
  cases outcome with
  | error err => trivial
  | ok ids => exact Program.uses_forEach (uses_sweepAgentDir host valid) ids

theorem uses_sweepAgentOrphanedDeploymentDirs :
    sweepAgentOrphanedDeploymentDirs.Uses Act.Harmless calls := by
  refine (takes_query trivial : Takes Act.Harmless calls (query .allDeployments)).bind fun outcome => ?_
  cases outcome with
  | error err => trivial
  | ok rows =>
      exact Program.Uses.bind (Program.uses_perform trivial) fun hosts =>
        Program.uses_forEach (uses_sweepAgentDirsOnHost _) hosts

theorem safe_onAgentConnected (isPass : call = .onAgentConnected) :
    Safe (hub limit) ledger thread call onAgentConnected (fun _ _ => True) w :=
  Safe.bind ((safe_failPendingDeployments isPass).mono fun _ _ _ =>
    Safe.bind ((safe_freely (uses_reconcileRunModeContainers looks_harmless
      fun _ _ _ _ _ => trivial)).mono fun _ _ _ =>
      safe_freely uses_sweepAgentOrphanedDeploymentDirs))

end Berth
