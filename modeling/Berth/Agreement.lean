import Berth.Startup

/-!
Rows and directories agree in every state of every run of the hub, whatever calls are in progress,
whatever fails and wherever the hub is stopped.
-/

namespace Berth

open Interleave Interleave.Discipline

variable {limit thread : Nat} {call : Call} {w w' : HubWorld} {α : Type}

theorem permitted_finish (reply : Reply) : Permitted w (.finish thread call reply) := by
  refine ⟨?_, ?_, ?_, ?_⟩ <;> intros <;> contradiction

theorem final_ledger (reply : Reply) : Final (hub limit) ledger thread call reply w :=
  fun _ _ _ _ => permitted_finish reply

theorem safe_replyTo {wrap : AppResult α → Reply} {handler : AsyncResult α}
    (safe : Safe (hub limit) ledger thread call handler.run (fun _ _ => True) w) :
    Safe (hub limit) ledger thread call (replyTo wrap handler)
      (Final (hub limit) ledger thread call) w :=
  Safe.bind (safe.mono fun result _ _ => final_ledger (wrap result))

theorem safe_silently {task : Async α}
    (safe : Safe (hub limit) ledger thread call task (fun _ _ => True) w) :
    Safe (hub limit) ledger thread call (silently task)
      (Final (hub limit) ledger thread call) w :=
  Safe.bind (safe.mono fun _ _ _ => final_ledger .none)

theorem not_forked_yet (numbered : w.Numbered) (child : Nat) : ¬ Forked w w.next child := by
  refine numbered.not_did ?_
  rintro _ ⟨_, _, rfl⟩
  rfl

theorem not_settled_yet (numbered : w.Numbered) (id : Uuid) : ¬ Settled w w.next id := by
  refine numbered.not_did ?_
  rintro _ ⟨_, _, wrote⟩
  exact wrote.thread

/-- Every call that may start is safe from its first step on. -/
theorem safe_started (numbered : w.Numbered)
    (moves : w.Moves (hub limit) (.start w.next call) w') :
    Safe (hub limit) ledger w.next call (body limit call)
      (Final (hub limit) ledger w.next call) w' := by
  have admitted : admits w.shared w.live call = true := by
    cases moves with
    | start admitted => exact admitted
  cases call with
  | createApp name source envVars creator hostId => exact safe_replyTo (safe_createApp ..)
  | updateApp appId name envVars hostId => exact safe_replyTo (safe_freely (takes_updateApp ..))
  | updateAppPermissions appId permissions =>
      exact safe_replyTo (safe_freely (takes_updateAppPermissions ..))
  | deleteApp appId => exact safe_replyTo (safe_deleteApp appId)
  | deleteAppWithContainers appId => exact safe_replyTo (safe_deleteAppWithContainers appId)
  | createDeployment appId zipPath originalFilename uploadSizeBytes =>
      exact safe_replyTo (safe_createDeployment (.inl ⟨_, _, _, _, rfl⟩))
  | uploadDeployment appId fields =>
      exact safe_replyTo (safe_uploadDeployment (.inr ⟨_, _, rfl⟩))
  | createPendingGitDeployment appId =>
      exact safe_replyTo ((safe_createPendingGitDeployment (.inl rfl)).mono fun _ _ _ => trivial)
  | startGitDeployment appId =>
      refine safe_replyTo (safe_startGitDeployment rfl fun child => ?_)
      intro forked
      rcases (forked_iff moves).1 forked with ⟨_, _, eq⟩ | before
      · cases eq
      · exact not_forked_yet numbered child before
  | runGitDeployment appId deploymentId gitSource => cases admitted
  | activateDeployment appId deploymentId => exact safe_replyTo (safe_activateDeployment appId fun _ _ parsed => .asked parsed (.inl rfl))
  | activateWithContainers appId deploymentId =>
      exact safe_replyTo (safe_activateWithContainers appId fun _ _ parsed =>
        .asked parsed (.inr rfl))
  | deleteDeployment appId deploymentId =>
      exact safe_replyTo (safe_deleteDeployment (.inl rfl))
  | deleteDeploymentWithContainers appId deploymentId =>
      exact safe_replyTo (safe_deleteDeploymentWithContainers (.inr rfl))
  | onAgentConnected => exact safe_silently (safe_onAgentConnected rfl)
  | startup =>
      have down : w'.shared.serving = false := by
        cases moves
        exact (by simpa [admits] using admitted : _ ∧ _).1
      exact safe_replyTo (safe_startup down)
  | agentConnects host | agentDisconnects host | agentWorks host | administer users hosts =>
      exact safe_silently (safe_freely (Program.uses_perform trivial))

theorem ledger_sound : Sound (hub limit) ledger where
  keeps w event w' numbered inv moves _ permit := inv.moves numbered moves (permitted_of_owned permit)
  starts w call w' numbered _ moves _ _ := safe_started numbered moves
  forks w thread call forked w' numbered inv moves _ permit ready := by
    obtain ⟨_, appText, row, gitSource, _, rfl, inserted, pending, parsed⟩ :=
      Permitted.forks permit _ _ _ _ rfl
    refine safe_silently (safe_runGitDeployment rfl ⟨moves.did inserted, pending, parsed⟩ ?_)
    intro settled
    rcases (moves.did_iff _).1 settled with ⟨_, _, _, _, _, eq⟩ | before
    · cases eq
    · exact not_settled_yet numbered row.id before

/-- A hub before its first start: nothing is stored, nothing runs. -/
structure State.Blank (state : State) : Prop where
  apps : state.db.apps.rows = []
  deployments : state.db.deployments.rows = []
  containers : ∀ host, (state.agents host).containers = []
  backlog : state.backlog = []
  serving : state.serving = false

theorem State.Blank.no_app {state : State} (blank : state.Blank) {id : Uuid} {row : AppRow} :
    app? (Config.idle state : HubConfig).world id ≠ some row := by
  intro found
  have member := (Table.get?_eq_some.1 found).1
  simp [blank.apps] at member

theorem State.Blank.no_deployment {state : State} (blank : state.Blank) {id : Uuid}
    {row : DeploymentRow} : deployment? (Config.idle state : HubConfig).world id ≠ some row := by
  intro found
  have member := (Table.get?_eq_some.1 found).1
  simp [blank.deployments] at member

theorem ledger_blank {state : State} (blank : state.Blank) :
    Ledger (Config.idle state : HubConfig).world where
  rows := {
    drawn := fun _ _ inserted => absurd inserted (Config.idle_not_did _ _)
    once := fun _ _ _ _ inserted => absurd inserted (Config.idle_not_did _ _)
    origin := fun _ _ found => absurd found blank.no_deployment
    named := fun _ _ inserted => absurd inserted (Config.idle_not_did _ _)
    parent := fun _ _ found => absurd found blank.no_deployment
    onePending := fun _ _ _ _ found => absurd found blank.no_deployment }
  disk := {
    appDirs := fun _ _ found => absurd found blank.no_app
    deploymentDirs := fun _ _ found => absurd found blank.no_deployment
    contents := fun _ _ found => absurd found blank.no_deployment }
  crew := {
    alone := by simp
    forkOnce := fun _ _ _ forked => absurd forked (Config.idle_not_did _ _)
    childOnce := fun _ _ _ forked => absurd forked (Config.idle_not_did _ _)
    childBound := fun _ _ forked => absurd forked (Config.idle_not_did _ _)
    starter := by simp
    executor := by simp }

theorem ledger_secure {state : State} (blank : state.Blank) :
    Secure (hub limit) ledger (Config.idle state) := secure_idle (ledger_blank blank)

/-- The UUIDs that name directories are exactly those of the rows, and nothing is staged. -/
structure Agrees (w : HubWorld) : Prop where
  tmp : Has w tmpDir ∧ ∀ path, tmpDir <+: path → Has w path → path = tmpDir
  apps : ∀ id, (∃ name, Uuid.parseStr name = some id ∧ Has w (appsDir ++ [.text name])) ↔
    ∃ row, app? w id = some row
  deployments : ∀ appId app, app? w appId = some app → ∀ id,
    (∃ name, Uuid.parseStr name = some id ∧
      Has w (deploymentsDir appId.toString ++ [.text name])) ↔
    ∃ row, deployment? w id = some row ∧ row.appId = appId

theorem Swept.agrees (swept : Swept w) (disk : Disk w) : Agrees w where
  tmp := swept.tmp
  apps id := by
    constructor
    · rintro ⟨name, parsed, has⟩
      exact swept.apps name id parsed has
    · rintro ⟨row, found⟩
      exact ⟨id.toString, Uuid.parseStr_toString id, disk.appDirs id row found⟩
  deployments appId app found id := by
    constructor
    · rintro ⟨name, parsed, has⟩
      exact swept.deployments appId app name id found parsed has
    · rintro ⟨row, there, rfl⟩
      exact ⟨id.toString, Uuid.parseStr_toString id, disk.deploymentDirs id row there⟩

/-- Starting to serve changes nothing about rows and directories. -/
theorem Agrees.serving {w' : HubWorld} (agrees : Agrees w) (files : w'.shared.files = w.shared.files)
    (db : w'.shared.db = w.shared.db) : Agrees w' where
  tmp := by simpa only [Has, files] using agrees.tmp
  apps := by simpa only [Has, app?, files, db] using agrees.apps
  deployments := by simpa only [Has, app?, deployment?, files, db] using agrees.deployments

/-- A hub on an empty data directory. -/
def State.fresh (secretsKey : SecretsKey) (users : List UserRow) (hosts : List HostRow) : State where
  db := { apps := ∅, deployments := ∅, permissions := [], users, hosts }
  files := FileTree.empty
  agents := fun _ => ⟨[], []⟩
  backlog := []
  secretsKey := secretsKey
  issued := []
  newest := none
  stagers := []
  lock := none
  connected := []
  serving := false

theorem State.blank_fresh {secretsKey : SecretsKey} {users : List UserRow} {hosts : List HostRow} :
    (State.fresh secretsKey users hosts).Blank := ⟨rfl, rfl, fun _ => rfl, rfl, rfl⟩

/-- The key of the example runs: it leaves the texts as they are. -/
def plainKey : SecretsKey := ⟨fun _ text => .ok text, .ok⟩

/-- Database and filesystem agree: no row is ever without its directory, or its content once it is
Ready, and when the hub has started up there is no directory without a row. -/
theorem database_and_files_agree {state : State} (blank : state.Blank) {cfg : HubConfig}
    (reachable : Reachable (hub limit) (fun _ _ => True) (Config.idle state) cfg) :
    Disk cfg.world ∧ ∀ command thread call choice result cfg',
      cfg.exec (hub limit) command = some (.act thread call .serve choice result, cfg') →
        Agrees cfg'.world := by
  have secure := ledger_sound.secure (ledger_secure blank) reachable
  refine ⟨secure.inv.disk, fun command thread call choice result cfg' executed => ?_⟩
  have executes := Config.exec_executes executed
  have permitted : Permitted cfg.world _ := secure.permit executes trivial trivial
  have swept := permitted.serves _ _ _ _ rfl
  have after : { cfg.world.shared with serving := true } = cfg'.world.shared :=
    congrArg Prod.snd (Option.some.inj (act_performed executes.moves))
  exact (swept.agrees secure.inv.disk).serving (by rw [← after]) (by rw [← after])

/-- One app with one upload. The hub stops while it records a second one, and starts again. -/
def interruptedUpload : List (Command Call Choice) :=
  let app := Uuid.repeated 1
  let plain : Choice := {}
  let upload : Call := .uploadDeployment app.toString [⟨some "file", none, [.ok 1]⟩]
  .start .startup :: steps 0 7 plain ++
  .start (.createApp "app" .upload [] none 1) :: steps 1 13 { id := app } ++
  .start upload :: steps 2 20 { id := Uuid.repeated 2 } ++
  .start upload :: steps 3 11 { id := Uuid.repeated 3 } ++ [.restart] ++
  .start .startup :: steps 4 9 plain

/-- The next step of the thread lets the hub serve. -/
def servesNext (cfg : HubConfig) (thread : Nat) : Bool :=
  match cfg.exec (hub 1000) (.step thread {}) with
  | some (.act _ _ .serve _ _, _) => true
  | _ => false

theorem database_and_files_agree_interrupted : ∃ cfg cfg' : HubConfig,
    (∃ row, deployment? cfg.world (Uuid.repeated 2) = some row ∧ row.status = .ready) ∧
      Disk cfg.world ∧ Agrees cfg'.world := by
  have ran : (runChecked (hub 1000) (fun _ _ => true)
      (Config.idle (State.fresh plainKey [] [⟨1, false⟩])) interruptedUpload).any (fun cfg =>
        servesNext cfg 4 && (deployment? cfg.world (Uuid.repeated 2)).any
          fun row => row.status = .ready) = true := by decide +kernel
  obtain ⟨cfg, reachable, holds⟩ := runChecked_any (fun _ _ _ => trivial) ran
  rw [Bool.and_eq_true, Option.any_eq_true] at holds
  obtain ⟨serves, row, found, ready⟩ := holds
  obtain ⟨disk, agree⟩ := database_and_files_agree State.blank_fresh reachable
  unfold servesNext at serves
  split at serves
  · rename_i executed
    exact ⟨cfg, _, ⟨row, found, by simpa using ready⟩, disk, agree _ _ _ _ _ _ executed⟩
  · cases serves

end Berth
