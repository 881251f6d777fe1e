import Berth.Agreement

/-!
The sweep of the directories that agents keep for deployments. It reads the rows once, and only then
asks one agent after the other what there is.
-/

namespace Berth

open Interleave Interleave.Discipline

variable {limit thread : Nat} {call : Call} {w w' : HubWorld} {event : HubEvent}

/-- The ids that a sweep spares, and the directories it has still to delete where it is. -/
structure Sweep where
  valid : List Uuid
  doomed : List String

def runIds (rows : List DeploymentRow) : List Uuid :=
  (rows.filter fun row => row.containerName.isSome).map DeploymentRow.id

def condemned (valid : List Uuid) (name : String) : Bool :=
  (Uuid.parseStr name).any fun id => id ∉ valid

def Sweep.after (sweep : Sweep) (thread : Nat) : HubEvent → Sweep
  | .act other _ (.query .allDeployments) _ (.ok rows) =>
      if other = thread then ⟨runIds rows, []⟩ else sweep
  | .act other _ (.agent _ .listDeploymentDirs) _ (.ok (.ok names)) =>
      if other = thread then { sweep with doomed := names.filter (condemned sweep.valid) }
      else sweep
  | .act other _ (.agent _ (.deleteDeploymentDir _)) _ _ =>
      if other = thread then { sweep with doomed := sweep.doomed.tail } else sweep
  | _ => sweep

/-- How far the sweep of a thread has got. -/
def sweepOf (thread : Nat) : List (Moment Act Act.Res Call Reply State Choice) → Sweep
  | [] => ⟨[], []⟩
  | moment :: older => (sweepOf thread older).after thread moment.event

/-- A Deployment row with a container name. -/
def RunRow (w : HubWorld) (id : Uuid) : Prop :=
  ∃ row, deployment? w id = some row ∧ row.containerName.isSome = true

/-- No run-mode row turns up under a directory that a sweep is going to delete: none is there that
the sweep has not read when it hears of the directory, and none is inserted afterwards. -/
structure Undisturbed (w : HubWorld) (event : HubEvent) : Prop where
  listed : ∀ thread call host choice names,
    event = .act thread call (.agent host .listDeploymentDirs) choice (.ok (.ok names)) →
      ∀ name ∈ names, condemned (sweepOf thread w.history).valid name = true →
        ∀ id, Uuid.parseStr name = some id → ¬ RunRow w id
  inserted : ∀ thread row, Wrote thread (.insertDeployment row) event →
    row.containerName.isSome = true → ∀ sweeper, (sweeper, .onAgentConnected) ∈ w.live →
      ∀ name ∈ (sweepOf sweeper w.history).doomed, Uuid.parseStr name ≠ some row.id

/-- No sweep is about to delete the directory of a run-mode row. -/
def Spared (w : HubWorld) : Prop :=
  ∀ thread, (thread, .onAgentConnected) ∈ w.live → ∀ name ∈ (sweepOf thread w.history).doomed,
    ∀ id, Uuid.parseStr name = some id → ¬ RunRow w id

/-- A sweep asks for no directory of a run-mode row to be deleted. -/
def SparesRows (w : HubWorld) (event : HubEvent) : Prop :=
  ∀ thread host text choice result,
    event = .act thread .onAgentConnected (.agent host (.deleteDeploymentDir text)) choice result →
      ∀ id, Uuid.parseStr text = some id → ¬ RunRow w id

def sweeping : Discipline Act Act.Res Call Reply State Choice where
  Allowed := Undisturbed
  Permit := SparesRows
  Inv := Spared

/-! What an event changes about a sweep. -/

theorem Sweep.after_other (sweep : Sweep) (other : event.thread ≠ some thread) :
    sweep.after thread event = sweep := by
  unfold Sweep.after
  split
  all_goals first | rfl | exact if_neg fun same => other (congrArg some same)

theorem Sweep.mem_after {sweep : Sweep} {name : String}
    (member : name ∈ (sweep.after thread event).doomed) : name ∈ sweep.doomed ∨
      ∃ call host choice names,
        event = .act thread call (.agent host .listDeploymentDirs) choice (.ok (.ok names)) ∧
          name ∈ names ∧ condemned sweep.valid name = true := by
  unfold Sweep.after at member
  split at member
  · split at member
    · cases member
    · exact .inl member
  · split at member
    · rename_i same
      subst same
      obtain ⟨among, isCondemned⟩ := List.mem_filter.1 member
      exact .inr ⟨_, _, _, _, rfl, among, isCondemned⟩
    · exact .inl member
  · split at member
    · exact .inl (List.mem_of_mem_tail member)
    · exact .inl member
  · exact .inl member

theorem sweepOf_moves (moves : w.Moves (hub limit) event w') (thread : Nat) :
    sweepOf thread w'.history = (sweepOf thread w.history).after thread event := by
  rw [moves.history]
  rfl

theorem sweepOf_fresh {history : List (Moment Act Act.Res Call Reply State Choice)}
    (fresh : ∀ moment ∈ history, moment.event.thread ≠ some thread) :
    sweepOf thread history = ⟨[], []⟩ := by
  induction history with
  | nil => rfl
  | cons moment older ih =>
      rw [sweepOf, Sweep.after_other _ (fresh moment (by simp))]
      exact ih fun earlier member => fresh earlier (List.mem_cons_of_mem _ member)

theorem runRow_before (moves : w.Moves (hub limit) event w') {id : Uuid} (after : RunRow w' id) :
    RunRow w id ∨ ∃ thread row, Wrote thread (.insertDeployment row) event ∧ row.id = id ∧
      row.containerName.isSome = true := by
  obtain ⟨row, found, named⟩ := after
  rcases (rowsChange moves).deployment_before found with
    ⟨old, there, step⟩ | ⟨_, same, thread, wrote⟩
  · exact .inl ⟨old, there, step.containerName ▸ named⟩
  · exact .inr ⟨thread, row, wrote, same, named⟩

theorem Spared.moves (spared : Spared w) (numbered : w.Numbered)
    (moves : w.Moves (hub limit) event w') (allowed : Undisturbed w event) : Spared w' := by
  intro thread live name member id parsed isRow
  rw [sweepOf_moves moves] at member
  rcases moves.live_cases live with old | isNew
  · rcases Sweep.mem_after member with before | ⟨_, _, _, _, rfl, among, isCondemned⟩
    · rcases runRow_before moves isRow with wasRow | ⟨_, row, wrote, rfl, named⟩
      · exact spared thread old name before id parsed wasRow
      · exact allowed.inserted _ row wrote named thread old name before parsed
    · rcases runRow_before moves isRow with wasRow | ⟨_, row, ⟨_, _, _, eq⟩, _⟩
      · exact allowed.listed _ _ _ _ _ rfl name among isCondemned id parsed wasRow
      · cases eq
  · -- a call that has just begun has listed nothing
    have isNext : thread = w.next := isNew.elim And.left And.left
    subst isNext
    have unheard : sweepOf w.next w.history = ⟨[], []⟩ :=
      sweepOf_fresh fun moment past same => Nat.lt_irrefl _ (numbered.past_lt moment past _ same)
    rcases isNew with ⟨_, rfl, _⟩ | ⟨_, _, _, rfl, _⟩ <;>
      simp [unheard, Sweep.after] at member

/-! Every call is safe. -/

theorem safe_quietly {program : Async Reply} (other : call ≠ .onAgentConnected) :
    Safe (hub limit) sweeping thread call program (Final (hub limit) sweeping thread call) w := by
  have free : Free (hub limit) sweeping thread call (fun _ => True) fun _ => True := by
    intro w event w' own ready moves allowed
    rintro _ _ _ _ _ rfl
    cases own
    exact absurd rfl other
  refine (Safe.free program.uses_all free).mono fun reply w₁ _ w₂ _ _ _ => ?_
  rintro _ _ _ _ _ eq
  cases eq

/-- Everything but deleting a directory on an agent. -/
def Act.KeepsDirs (action : Act) : Prop := ∀ host text, action ≠ .agent host (.deleteDeploymentDir text)

theorem free_keepsDirs : Free (hub limit) sweeping thread call Act.KeepsDirs fun _ => True := by
  intro w event w' own ready moves allowed
  rintro _ _ _ _ _ rfl
  cases own with
  | act keeps => exact absurd rfl (keeps _ _)

theorem keepsDirs_looks (action : Act) (looks : action.Looks) : action.KeepsDirs := by
  rintro host text rfl
  exact looks

theorem stable_sweepOf (sweep : Sweep) :
    Stable (hub limit) sweeping thread call fun w => sweepOf thread w.history = sweep := by
  intro w w' event interferes holds
  rw [sweepOf_moves interferes.moves, Sweep.after_other _ interferes.other, holds]

theorem stable_valid (valid : List Uuid) : Stable (hub limit) sweeping thread call
    fun w => (sweepOf thread w.history).valid = valid := by
  intro w w' event interferes holds
  rw [sweepOf_moves interferes.moves, Sweep.after_other _ interferes.other, holds]

/-- A request to an agent, and what the hub makes of the answer. -/
theorem safe_command {α : Type} {toAppError : AgentError → AppError}
    {reply : AsyncResult (Except AgentError α)} {post : AppResult α → HubWorld → Prop}
    (safe : Safe (hub limit) sweeping thread call reply.run
      (Outcome (fun result w' => post (result.mapError toAppError) w')
        fun err w' => post (.error err) w') w) :
    Safe (hub limit) sweeping thread call (command toAppError reply).run post w := by
  refine Safe.bindE (safe.mono ?_)
  rintro (err | err | value) w' holds
  · exact holds
  · exact holds
  · exact holds

theorem safe_deleteAgentDeploymentDir {valid : List Uuid} {host : Int} {name : String}
    {rest : List String} (holds : sweepOf thread w.history = ⟨valid, name :: rest⟩) :
    Safe (hub limit) sweeping thread .onAgentConnected (deleteAgentDeploymentDir host name).run
      (fun _ w' => sweepOf thread w'.history = ⟨valid, rest⟩) w := by
  refine safe_command (Safe.perform (stable_sweepOf _) holds ?_)
  intro w₀ choice result w' holds ready moves allowed
  refine ⟨?_, fun _ => ?_⟩
  · rintro _ _ _ _ _ ⟨⟩
    exact ready.inv thread ready.member name (by simp [holds])
  · have after : sweepOf thread w'.history = ⟨valid, rest⟩ := by
      rw [sweepOf_moves moves, holds]
      simp [Sweep.after]
    cases result with
    | error err => exact after
    | ok reply => exact after

theorem safe_sweepAgentDir (valid : List Uuid) (host : Int) (name : String) (rest : List String)
    (holds : sweepOf thread w.history = ⟨valid, (name :: rest).filter (condemned valid)⟩) :
    Safe (hub limit) sweeping thread .onAgentConnected (sweepAgentDir host valid name)
      (fun _ w' => sweepOf thread w'.history = ⟨valid, rest.filter (condemned valid)⟩) w := by
  have skipped : condemned valid name = false →
      sweepOf thread w.history = ⟨valid, rest.filter (condemned valid)⟩ := by
    intro spared
    rw [holds, List.filter_cons_of_neg (by simp [spared])]
  unfold sweepAgentDir
  split
  · rename_i unnamed
    exact skipped (by simp [condemned, unnamed])
  · rename_i id parsed
    by_cases isValid : id ∈ valid
    · rw [if_pos isValid]
      exact skipped (by simp [condemned, parsed, isValid])
    · rw [if_neg isValid]
      have isCondemned : condemned valid name = true := by simp [condemned, parsed, isValid]
      rw [List.filter_cons_of_pos isCondemned] at holds
      exact Safe.bind ((safe_deleteAgentDeploymentDir holds).mono fun _ _ after => after)

theorem safe_listAgentDeploymentDirs {valid : List Uuid} {host : Int}
    (holds : (sweepOf thread w.history).valid = valid) :
    Safe (hub limit) sweeping thread .onAgentConnected (listAgentDeploymentDirs host).run
      (Outcome
        (fun names w' => sweepOf thread w'.history = ⟨valid, names.filter (condemned valid)⟩)
        fun _ w' => (sweepOf thread w'.history).valid = valid) w := by
  refine safe_command (Safe.perform (stable_valid valid) holds ?_)
  intro w₀ choice result w' holds ready moves allowed
  refine ⟨fun _ _ _ _ _ eq => (nomatch eq), fun _ => ?_⟩
  have after := sweepOf_moves moves thread
  rcases result with err | err | names
  · exact (congrArg Sweep.valid after).trans holds
  · exact (congrArg Sweep.valid after).trans holds
  · have listed : sweepOf thread w'.history = ⟨valid, names.filter (condemned valid)⟩ := by
      rw [after, ← holds]
      simp [Sweep.after]
    exact listed

theorem safe_sweepAgentDirsOnHost (valid : List Uuid) (host : Int)
    (holds : (sweepOf thread w.history).valid = valid) :
    Safe (hub limit) sweeping thread .onAgentConnected (sweepAgentDirsOnHost valid host)
      (fun _ w' => (sweepOf thread w'.history).valid = valid) w := by
  refine Safe.bind ((safe_listAgentDeploymentDirs holds).mono ?_)
  rintro (err | names) w₁ listed
  · exact listed
  · refine (Safe.forEachDone
      (fun rest w => sweepOf thread w.history = ⟨valid, rest.filter (condemned valid)⟩)
      (fun name rest _ => safe_sweepAgentDir valid host name rest) names listed).mono ?_
    exact fun _ _ done => congrArg Sweep.valid done

theorem safe_sweepAgentOrphanedDeploymentDirs :
    Safe (hub limit) sweeping thread .onAgentConnected sweepAgentOrphanedDeploymentDirs
      (fun _ _ => True) w := by
  refine Safe.bind (Safe.perform (stable_const True) trivial ?_)
  intro w₀ choice result w₁ _ _ moves _
  refine ⟨fun _ _ _ _ _ eq => (nomatch eq), fun _ => ?_⟩
  rcases result with err | rows
  · trivial
  have holds : (sweepOf thread w₁.history).valid = runIds rows := by
    simp [sweepOf_moves moves, Sweep.after]
  refine Safe.bind (Safe.perform (stable_valid _) holds ?_)
  intro w₂ choice hosts w₃ holds _ moves _
  refine ⟨fun _ _ _ _ _ eq => (nomatch eq), fun _ => ?_⟩
  have still : (sweepOf thread w₃.history).valid = runIds rows :=
    (congrArg Sweep.valid (sweepOf_moves moves thread)).trans holds
  exact (Safe.forEachDone (fun _ w => (sweepOf thread w.history).valid = runIds rows)
    (fun host _ _ => safe_sweepAgentDirsOnHost (runIds rows) host) hosts still).mono
      fun _ _ _ => trivial

theorem safe_pass : Safe (hub limit) sweeping thread .onAgentConnected onAgentConnected
    (fun _ _ => True) w := by
  have fails : failPendingDeployments.Uses Act.KeepsDirs fun _ => True :=
    uses_failPendingDeployments keepsDirs_looks (fun _ _ _ => nofun) fun _ _ _ => nofun
  have reconciles : reconcileRunModeContainers.Uses Act.KeepsDirs fun _ => True :=
    uses_reconcileRunModeContainers keepsDirs_looks fun _ _ _ _ _ => nofun
  refine Safe.bind ((Safe.free fails free_keepsDirs).mono fun _ _ _ => ?_)
  refine Safe.bind ((Safe.free reconciles free_keepsDirs).mono fun _ _ _ => ?_)
  exact safe_sweepAgentOrphanedDeploymentDirs

theorem safe_body (call : Call) : Safe (hub limit) sweeping thread call (body limit call)
    (Final (hub limit) sweeping thread call) w := by
  by_cases isPass : call = .onAgentConnected
  · subst isPass
    refine Safe.bind (safe_pass.mono fun _ w₁ _ w₂ _ _ _ => ?_)
    exact fun _ _ _ _ _ eq => nomatch eq
  · exact safe_quietly isPass

theorem sweeping_sound : Sound (hub limit) sweeping where
  keeps _ _ _ numbered inv moves allowed _ := Spared.moves inv numbered moves allowed
  starts _ call _ _ _ _ _ _ := safe_body call
  forks _ _ _ forked _ _ _ _ _ _ _ := safe_body forked

/-- In a run in which no run-mode row turns up under a directory that a sweep is going to delete,
no sweep ever asks for the directory of a run-mode row to be deleted. -/
theorem sweep_deletes_orphans {state : State} {cfg : HubConfig}
    (reachable : Reachable (hub limit) Undisturbed (Config.idle state) cfg) :
    ∀ command thread host text choice result cfg',
      cfg.exec (hub limit) command = some (.act thread .onAgentConnected
        (.agent host (.deleteDeploymentDir text)) choice result, cfg') →
      ∀ id, Uuid.parseStr text = some id → ¬ RunRow cfg.world id := by
  intro command thread host text choice result cfg' executed
  have secure := sweeping_sound.secure (secure_idle fun thread live => by simp at live) reachable
  have allowed : Undisturbed cfg.world (.act thread .onAgentConnected
      (.agent host (.deleteDeploymentDir text)) choice result) :=
    ⟨fun _ _ _ _ _ eq => (nomatch eq), fun _ _ ⟨_, _, _, eq⟩ => (nomatch eq)⟩
  exact secure.permit (Config.exec_executes executed) allowed trivial _ _ _ _ _ rfl

/-- One app deployed from a repository as a container. A pass of host 1 gets to the rows after
`early` steps, and asks for the directories once the deployment has been shipped. -/
def deployDuringPass (early late : Nat) : List (Command Call Choice) :=
  let app := Uuid.repeated 1
  let plain : Choice := {}
  let source : GitSource := ⟨"https://git/app", "main", .run ⟨.node24, none, "start", 80⟩⟩
  .start .startup :: steps 0 7 plain ++
  .start (.createApp "app" (.git source) [] none 1) :: steps 1 13 { id := app } ++
  .start (.agentConnects 1) :: steps 2 2 plain ++
  .start .onAgentConnected :: steps 3 early plain ++
  .start (.startGitDeployment app.toString) :: steps 4 9 { id := Uuid.repeated 2 } ++
  steps 5 22 { entries := [[.text ".git"]] } ++ steps 3 late plain

/-- The next step of the pass asks for the deletion of this directory. -/
def sweepsNext (cfg : HubConfig) (text : String) : Bool :=
  match cfg.exec (hub 1000) (.step 3 {}) with
  | some (.act _ .onAgentConnected (.agent _ (.deleteDeploymentDir name)) _ _, _) => name = text
  | _ => false

def hasRunRow (w : HubWorld) (id : Uuid) : Bool :=
  (deployment? w id).any fun row => row.containerName.isSome

theorem hasRunRow_iff {id : Uuid} : hasRunRow w id = true ↔ RunRow w id :=
  Option.any_eq_true _ _

/-- The rows were read before the deployment had one, the directories once it had been shipped. -/
theorem live_directory_swept : ¬ ∀ cfg, Reachable (hub 1000) (fun _ _ => True)
    (Config.idle (State.fresh plainKey [] [⟨1, false⟩])) cfg →
      ∀ command thread host text choice result cfg',
        cfg.exec (hub 1000) command = some (.act thread .onAgentConnected
          (.agent host (.deleteDeploymentDir text)) choice result, cfg') →
        ∀ id, Uuid.parseStr text = some id → ¬ RunRow cfg.world id := by
  intro always
  have ran : (runChecked (hub 1000) (fun _ _ => true)
      (Config.idle (State.fresh plainKey [] [⟨1, false⟩])) (deployDuringPass 10 2)).any
        (fun cfg => sweepsNext cfg (Uuid.repeated 2).toString &&
          hasRunRow cfg.world (Uuid.repeated 2)) = true := by decide +kernel
  obtain ⟨cfg, reachable, holds⟩ := runChecked_any (fun _ _ _ => trivial) ran
  obtain ⟨sweeps, isRow⟩ := Bool.and_eq_true_iff.1 holds
  unfold sweepsNext at sweeps
  split at sweeps
  · rename_i executed
    refine always cfg reachable _ _ _ _ _ _ _ executed (Uuid.repeated 2) ?_ (hasRunRow_iff.1 isRow)
    rw [of_decide_eq_true sweeps, Uuid.parseStr_toString]
  · cases sweeps

/-- Checks of one event that it brings no run-mode row under a directory about to be deleted. -/
def undisturbed (w : HubWorld) : HubEvent → Bool
  | .act thread _ (.agent _ .listDeploymentDirs) _ (.ok (.ok names)) =>
      names.all fun name => !condemned (sweepOf thread w.history).valid name ||
        (Uuid.parseStr name).all fun id => !hasRunRow w id
  | .act _ _ (.query (.insertDeployment row)) _ (.ok ()) =>
      w.live.all fun entry => (sweepOf entry.1 w.history).doomed.all fun name =>
        Uuid.parseStr name ≠ some row.id
  | _ => true

theorem undisturbed_sound (checked : undisturbed w event = true) : Undisturbed w event := by
  refine ⟨?_, ?_⟩
  · rintro thread call host choice names rfl name among isCondemned id parsed isRow
    have spared := List.all_eq_true.1 checked name among
    simp [isCondemned, parsed, hasRunRow_iff.2 isRow] at spared
  · rintro thread row ⟨_, _, _, rfl⟩ _ sweeper live name doomed
    have apart := List.all_eq_true.1 (List.all_eq_true.1 checked _ live) name doomed
    exact of_decide_eq_true apart

/-- A blank hub whose agents still keep a directory of a former one. -/
def State.leftover : State :=
  { State.fresh plainKey [] [⟨1, false⟩] with
    agents := fun _ => ⟨[], [(Uuid.repeated 3).toString]⟩ }

theorem sweep_deletes_orphans_leftover : ∃ cfg : HubConfig,
    sweepsNext cfg (Uuid.repeated 3).toString = true ∧ RunRow cfg.world (Uuid.repeated 2) ∧
      ¬ RunRow cfg.world (Uuid.repeated 3) := by
  have ran : (runChecked (hub 1000) undisturbed (Config.idle State.leftover)
      (deployDuringPass 9 3)).any (fun cfg => sweepsNext cfg (Uuid.repeated 3).toString &&
        hasRunRow cfg.world (Uuid.repeated 2)) = true := by decide +kernel
  obtain ⟨cfg, reachable, holds⟩ := runChecked_any (fun _ _ => undisturbed_sound) ran
  obtain ⟨sweeps, isRow⟩ := Bool.and_eq_true_iff.1 holds
  refine ⟨cfg, sweeps, hasRunRow_iff.1 isRow, ?_⟩
  unfold sweepsNext at sweeps
  split at sweeps
  · rename_i executed
    refine sweep_deletes_orphans reachable _ _ _ _ _ _ _ executed (Uuid.repeated 3) ?_
    rw [of_decide_eq_true sweeps, Uuid.parseStr_toString]
  · cases sweeps

end Berth
