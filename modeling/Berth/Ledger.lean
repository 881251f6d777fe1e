import Berth.Changes
import Berth.Interleave.Discipline

/-!
What keeps the rows and the directories in step. A thread may only clear paths nobody counts on,
and every write to the tables has a precondition; together these keep the `Ledger`.
-/

namespace Berth

open Interleave

variable {limit : Nat} {w w' : HubWorld} {event : HubEvent}

def Inserted (w : HubWorld) (thread : Nat) (row : DeploymentRow) : Prop :=
  w.Did (Wrote thread (.insertDeployment row))

def Alive (w : HubWorld) (thread : Nat) : Prop := ∃ call, (thread, call) ∈ w.live

/-- Somebody counts on the path, and it is not just `thread` itself. -/
inductive Held (w : HubWorld) (thread : Nat) : Path → Prop
  | app {id : Uuid} {row : AppRow} (found : app? w id = some row) :
      Held w thread (appDir id.toString)
  | deployment {id : Uuid} {row : DeploymentRow} (found : deployment? w id = some row)
      (rest : Path) : Held w thread (deploymentDir row.appId.toString id.toString ++ rest)
  | placingApp {id : Uuid} {other : Nat} (different : other ≠ thread) (alive : Alive w other)
      (locked : w.shared.lock = some other) (drawn : w.shared.owner id = some other) :
      Held w thread (appDir id.toString)
  | placingDeployment {id appId : Uuid} {other : Nat} (different : other ≠ thread)
      (alive : Alive w other) (locked : w.shared.lock = some other)
      (drawn : w.shared.owner id = some other)
      (absent : ∀ row, row.id = id → ¬ Inserted w other row) (rest : Path) :
      Held w thread (deploymentDir appId.toString id.toString ++ rest)
  | staging {seq other : Nat} (different : other ≠ thread) (alive : Alive w other)
      (drawn : w.shared.stager seq = some other) (label : String) (timestamp : Nat)
      (extension : Option String) (rest : Path) :
      Held w thread (tmpDir ++ Component.staged label timestamp seq extension :: rest)

/-! The preconditions of the writes. -/

structure MayInsertApp (w : HubWorld) (thread : Nat) (row : AppRow) : Prop where
  locked : w.shared.lock = some thread
  inactive : row.activeDeploymentId = none
  placed : Has w (appDir row.id.toString)

/-- What the calls that set a pointer know of its target: it was asked for, the thread has just
uploaded it, or the thread is its executor. -/
inductive Activates (w : HubWorld) (thread : Nat) (appId id : Uuid) : Call → Prop
  | asked {call : Call} {appText text : String} (parsed : Uuid.parseStr text = some id)
      (activates : call = .activateDeployment appText text ∨
        call = .activateWithContainers appText text) : Activates w thread appId id call
  | uploaded {call : Call} {row : DeploymentRow} (inserted : Inserted w thread row)
      (same : row.id = id) (ready : row.status = .ready) : Activates w thread appId id call
  | executor {appText : String} {gitSource : GitSource} :
      Activates w thread appId id (.runGitDeployment appText id.toString gitSource)

structure MayActivate (w : HubWorld) (thread : Nat) (call : Call) (appId id : Uuid) : Prop where
  locked : w.shared.lock = some thread
  found : ∃ row, deployment? w id = some row ∧ row.appId = appId
  activates : Activates w thread appId id call

/-- What the calls that insert deployment rows know of the row: an uploaded one is Ready at once,
a Pending one is the only Pending one of its app. -/
inductive Creates (w : HubWorld) (row : DeploymentRow) : Call → Prop
  | uploaded {call : Call} (upload : (∃ appText zipPath name size,
        call = .createDeployment appText zipPath name size) ∨
        ∃ appText fields, call = .uploadDeployment appText fields)
      (ready : row.status = .ready)
      (contents : Has w (deploymentFilesDir row.appId.toString row.id.toString)) :
      Creates w row call
  | pending {call : Call} {appText : String} (parsed : Uuid.parseStr appText = some row.appId)
      (git : call = .createPendingGitDeployment appText ∨ call = .startGitDeployment appText)
      (pending : row.status = .pending)
      (alone : ∀ id old, deployment? w id = some old → old.appId = row.appId →
        old.status ≠ .pending) : Creates w row call

structure MayInsert (w : HubWorld) (thread : Nat) (call : Call) (row : DeploymentRow) : Prop where
  locked : w.shared.lock = some thread
  drawn : w.shared.owner row.id = some thread
  absent : ∀ old, old.id = row.id → ¬ Inserted w thread old
  parent : ∃ app, app? w row.appId = some app
  placed : Has w (deploymentDir row.appId.toString row.id.toString)
  named : row.containerName = none ∨
    row.containerName = some (containerName row.appId.toString row.id.toString)
  creates : Creates w row call

/-- A reconciliation pass has listed the deployment as Pending. -/
def Listed (w : HubWorld) (thread : Nat) (id : Uuid) : Prop :=
  w.Did fun event => ∃ call appId choice, ∃ rows : List DeploymentRow, ∃ row ∈ rows,
    event = .act thread call (.query (.deploymentsOf appId)) choice (.ok rows) ∧
      row.id = id ∧ row.status = .pending

/-- The thread has written some status of the deployment. -/
def Settled (w : HubWorld) (thread : Nat) (id : Uuid) : Prop :=
  w.Did fun event => ∃ status failureError, Wrote thread (.updateStatus id status failureError) event

/-- Who writes a status: the executor of the deployment, once, or a reconciliation pass. -/
inductive Becomes (w : HubWorld) (thread : Nat) (id : Uuid) :
    Call → DeploymentState → Option String → Prop
  | executor {appId : String} {gitSource : GitSource} {status : DeploymentState}
      {failureError : Option String} (first : ¬ Settled w thread id)
      (contents : status = .ready → ∀ row, deployment? w id = some row →
        Has w (deploymentFilesDir row.appId.toString id.toString)) :
      Becomes w thread id (.runGitDeployment appId id.toString gitSource) status failureError
  | interrupted (listed : Listed w thread id) :
      Becomes w thread id .onAgentConnected .failed (some interrupted)

structure MayDelete (w : HubWorld) (thread : Nat) (call : Call) (id : Uuid) : Prop where
  locked : w.shared.lock = some thread
  asked : ∃ appText text app row, (call = .deleteDeployment appText text ∨
      call = .deleteDeploymentWithContainers appText text) ∧
    Uuid.parseStr appText = some app.id ∧ Uuid.parseStr text = some id ∧
    app? w app.id = some app ∧ app.activeDeploymentId.map Uuid.toString ≠ some text ∧
    deployment? w id = some row ∧ row.appId = app.id

def MayWrite (w : HubWorld) (thread : Nat) (call : Call) : Query → Prop
  | .insertApp row _ => MayInsertApp w thread row
  | .setActiveDeployment appId id => MayActivate w thread call appId id
  | .deleteApp _ => w.shared.lock = some thread
  | .insertDeployment row => MayInsert w thread call row
  | .updateStatus id status failureError =>
      status ≠ .pending ∧ Becomes w thread id call status failureError
  | .deleteDeployment id => MayDelete w thread call id
  | _ => True

def Forked (w : HubWorld) (thread child : Nat) : Prop :=
  w.Did fun event => ∃ call forked, event = .fork thread call child forked

/-- The only calls that are forked: executors, for a Pending row the forking thread inserted. -/
def MayFork (w : HubWorld) (thread : Nat) (call forked : Call) : Prop :=
  (∀ child, ¬ Forked w thread child) ∧ ∃ appText row gitSource,
    call = .startGitDeployment appText ∧
      forked = .runGitDeployment appText row.id.toString gitSource ∧
      Inserted w thread row ∧ row.status = .pending ∧ Uuid.parseStr appText = some row.appId

/-- The directories are exactly those with a row, and nothing is staged. -/
structure Swept (w : HubWorld) : Prop where
  tmp : Has w tmpDir ∧ ∀ path, tmpDir <+: path → Has w path → path = tmpDir
  apps : ∀ name id, Uuid.parseStr name = some id → Has w (appsDir ++ [.text name]) →
    ∃ row, app? w id = some row
  deployments : ∀ appId app name id, app? w appId = some app → Uuid.parseStr name = some id →
    Has w (deploymentsDir appId.toString ++ [.text name]) →
      ∃ row, deployment? w id = some row ∧ row.appId = appId

structure Permitted (w : HubWorld) (event : HubEvent) : Prop where
  clears : ∀ thread call action choice result root path,
    event = .act thread call action choice result → action.Clears root → root <+: path →
      ¬ Held w thread path
  writes : ∀ thread call q choice value,
    event = .act thread call (.query q) choice (.ok value) → MayWrite w thread call q
  forks : ∀ thread call child forked, event = .fork thread call child forked →
    MayFork w thread call forked
  serves : ∀ thread call choice result, event = .act thread call .serve choice result → Swept w

/-- The rows and what is known about where they come from. -/
structure Rows (w : HubWorld) : Prop where
  drawn : ∀ thread row, Inserted w thread row → w.shared.owner row.id = some thread
  once : ∀ thread other row row', Inserted w thread row → Inserted w other row' →
    row.id = row'.id → row = row'
  origin : ∀ id row, deployment? w id = some row → ∃ thread first, Inserted w thread first ∧
    first.id = id ∧ first.appId = row.appId ∧ first.containerName = row.containerName
  named : ∀ thread row, Inserted w thread row → row.containerName = none ∨
    row.containerName = some (containerName row.appId.toString row.id.toString)
  parent : ∀ id row, deployment? w id = some row → ∃ app, app? w row.appId = some app
  onePending : ∀ id id' row row', deployment? w id = some row → deployment? w id' = some row' →
    row.appId = row'.appId → row.status = .pending → row'.status = .pending → id = id'

/-- The rows are backed by directories. -/
structure Disk (w : HubWorld) : Prop where
  appDirs : ∀ id row, app? w id = some row → Has w (appDir id.toString)
  deploymentDirs : ∀ id row, deployment? w id = some row →
    Has w (deploymentDir row.appId.toString id.toString)
  contents : ∀ id row, deployment? w id = some row → row.status = .ready →
    Has w (deploymentFilesDir row.appId.toString id.toString)

/-- What is known of the calls in progress. -/
structure Crew (w : HubWorld) : Prop where
  alone : w.shared.serving = false → ∀ entry ∈ w.live, entry.2 = .startup ∧
    ∀ other ∈ w.live, other.1 = entry.1
  forkOnce : ∀ thread child child', Forked w thread child → Forked w thread child' → child = child'
  childOnce : ∀ thread thread' child, Forked w thread child → Forked w thread' child →
    thread = thread'
  childBound : ∀ thread child, Forked w thread child → child < w.next
  starter : ∀ thread appText row, (thread, .startGitDeployment appText) ∈ w.live →
    Inserted w thread row → row.status = .pending ∧ Uuid.parseStr appText = some row.appId
  executor : ∀ thread appText text gitSource,
    (thread, .runGitDeployment appText text gitSource) ∈ w.live → ∃ forker row,
      Forked w forker thread ∧ Inserted w forker row ∧ row.status = .pending ∧
        text = row.id.toString ∧ Uuid.parseStr appText = some row.appId

structure Ledger (w : HubWorld) : Prop where
  rows : Rows w
  disk : Disk w
  crew : Crew w

section Keeps

theorem permitted_of_owned (permit : event.Owned → Permitted w event) : Permitted w event := by
  cases event with
  | act _ _ _ _ _ | fork _ _ _ _ | finish _ _ _ => exact permit trivial
  | start _ _ | drop _ _ | restart =>
      refine ⟨?_, ?_, ?_, ?_⟩ <;> intros <;> contradiction

theorem Permitted.has (permitted : Permitted w event) (moves : w.Moves (hub limit) event w')
    {path : Path} (has : Has w path) (held : ∀ thread, Held w thread path) : Has w' path :=
  files_kept moves has fun thread _ _ _ _ _ eq clears below =>
    permitted.clears _ _ _ _ _ _ _ eq clears below (held thread)

theorem Permitted.write (permitted : Permitted w event) {thread : Nat} {q : Query}
    (wrote : Wrote thread q event) : ∃ call, MayWrite w thread call q := by
  obtain ⟨call, choice, value, eq⟩ := wrote
  exact ⟨call, permitted.writes thread call q choice value eq⟩

theorem Permitted.insert (permitted : Permitted w event) {thread : Nat} {row : DeploymentRow}
    (wrote : Wrote thread (.insertDeployment row) event) : ∃ call, MayInsert w thread call row :=
  permitted.write wrote

theorem inserted_iff (moves : w.Moves (hub limit) event w') {thread : Nat} {row : DeploymentRow} :
    Inserted w' thread row ↔ Wrote thread (.insertDeployment row) event ∨ Inserted w thread row :=
  moves.did_iff _

theorem wrote_inj {thread thread' : Nat} {q q' : Query} (wrote : Wrote thread q event)
    (wrote' : Wrote thread' q' event) : thread = thread' ∧ q = q' := by
  obtain ⟨_, _, _, rfl⟩ := wrote
  obtain ⟨_, _, _, eq⟩ := wrote'
  cases eq
  exact ⟨rfl, rfl⟩

/-- A row whose app has been deleted in this step is gone as well. -/
theorem orphan_gone (change : RowsChange w w' event) {thread : Nat} {appId id : Uuid}
    {row : DeploymentRow} (wrote : Wrote thread (.deleteApp appId) event)
    (found : deployment? w' id = some row) : row.appId ≠ appId := by
  obtain ⟨call, choice, value, rfl⟩ := wrote
  cases change with
  | same _ _ silent => exact absurd trivial (silent _ _ (wrote_act ..))
  | deleteApp apps deployments =>
      rw [deployments, Option.filter_eq_some_iff] at found
      simpa using found.2

theorem Rows.moves (rows : Rows w) (moves : w.Moves (hub limit) event w')
    (permitted : Permitted w event) : Rows w' := by
  have change := rowsChange moves
  -- nobody but the thread that drew an id inserts a row with it
  have onlyOnce : ∀ thread other row row', Wrote thread (.insertDeployment row) event →
      Inserted w other row' → row.id ≠ row'.id := by
    intro thread other row row' wrote before same
    obtain ⟨call, may⟩ := permitted.insert wrote
    have drawn := rows.drawn other row' before
    rw [← same, may.drawn] at drawn
    cases drawn
    exact may.absent row' same.symm before
  refine ⟨?_, ?_, ?_, ?_, ?_, ?_⟩
  · intro thread row inserted
    rcases (inserted_iff moves).1 inserted with wrote | before
    · obtain ⟨call, may⟩ := permitted.insert wrote
      exact owner_kept moves may.drawn
    · exact owner_kept moves (rows.drawn thread row before)
  · intro thread other row row' inserted inserted' same
    rcases (inserted_iff moves).1 inserted with wrote | before <;>
      rcases (inserted_iff moves).1 inserted' with wrote' | before'
    · cases (wrote_inj wrote wrote').2
      rfl
    · exact absurd same (onlyOnce _ _ _ _ wrote before')
    · exact absurd same.symm (onlyOnce _ _ _ _ wrote' before)
    · exact rows.once thread other row row' before before' same
  · intro id row found
    rcases change.deployment_before found with ⟨old, before, step⟩ | ⟨_, idEq, thread, wrote⟩
    · obtain ⟨thread, first, inserted, idEq, appEq, nameEq⟩ := rows.origin id old before
      exact ⟨thread, first, moves.did inserted, idEq, appEq.trans step.appId.symm,
        nameEq.trans step.containerName.symm⟩
    · exact ⟨thread, row, (inserted_iff moves).2 (.inl wrote), idEq, rfl, rfl⟩
  · intro thread row inserted
    rcases (inserted_iff moves).1 inserted with wrote | before
    · obtain ⟨call, may⟩ := permitted.insert wrote
      exact may.named
    · exact rows.named thread row before
  · intro id row found
    have inOld : ∃ app, app? w row.appId = some app := by
      rcases change.deployment_before found with ⟨old, before, step⟩ | ⟨_, _, thread, wrote⟩
      · exact step.appId ▸ rows.parent id old before
      · obtain ⟨call, may⟩ := permitted.insert wrote
        exact may.parent
    obtain ⟨app, appFound⟩ := inOld
    rcases change.app_after appFound with ⟨new, after, _⟩ | ⟨_, thread, wrote⟩
    · exact ⟨new, after⟩
    · exact absurd rfl (orphan_gone change wrote found)
  · -- a row that is Pending now was Pending before or has just been inserted
    have pendingBefore : ∀ id row, deployment? w' id = some row → row.status = .pending →
        (∃ old, deployment? w id = some old ∧ old.appId = row.appId ∧ old.status = .pending) ∨
          (row.id = id ∧ ∃ thread, Wrote thread (.insertDeployment row) event ∧
            ∀ id old, deployment? w id = some old → old.appId = row.appId →
              old.status ≠ .pending) := by
      intro id row found pending
      rcases change.deployment_before found with ⟨old, before, step⟩ | ⟨_, idEq, thread, wrote⟩
      · rcases step.status with same | ⟨thread, wrote⟩
        · exact .inl ⟨old, before, step.appId.symm, same.1 ▸ pending⟩
        · obtain ⟨call, may⟩ := permitted.write wrote
          exact absurd pending may.1
      · obtain ⟨call, may⟩ := permitted.insert wrote
        refine .inr ⟨idEq, thread, wrote, ?_⟩
        cases may.creates with
        | uploaded _ ready => rw [pending] at ready; cases ready
        | pending _ _ _ alone => exact alone
    intro id id' row row' found found' sameApp pending pending'
    rcases pendingBefore id row found pending with ⟨old, before, appEq, was⟩ | ⟨idEq, t, wrote, alone⟩
    · rcases pendingBefore id' row' found' pending' with
        ⟨old', before', appEq', was'⟩ | ⟨_, _, _, alone⟩
      · exact rows.onePending id id' old old' before before'
          (appEq.trans (sameApp.trans appEq'.symm)) was was'
      · exact absurd was (alone id old before (appEq.trans sameApp))
    · rcases pendingBefore id' row' found' pending' with
        ⟨old', before', appEq', was'⟩ | ⟨idEq', t', wrote', _⟩
      · exact absurd was' (alone id' old' before' (appEq'.trans sameApp.symm))
      · cases (wrote_inj wrote wrote').2
        exact idEq.symm.trans idEq'

theorem Disk.moves (disk : Disk w) (moves : w.Moves (hub limit) event w')
    (permitted : Permitted w event) : Disk w' := by
  have change := rowsChange moves
  have nothingCleared : ∀ {thread q path}, Wrote thread q event → Has w path → Has w' path := by
    rintro thread q path ⟨_, _, _, rfl⟩ has
    refine files_kept moves has ?_
    intro _ _ _ _ _ _ eq clears
    cases eq
    exact clears.elim
  refine ⟨?_, ?_, ?_⟩
  · intro id row found
    rcases change.app_before found with ⟨old, before, _⟩ | ⟨_, idEq, thread, creator, wrote⟩
    · exact permitted.has moves (disk.appDirs id old before) fun _ => .app before
    · obtain ⟨call, may⟩ := permitted.write wrote
      exact idEq ▸ nothingCleared wrote may.placed
  · intro id row found
    rcases change.deployment_before found with ⟨old, before, step⟩ | ⟨_, idEq, thread, wrote⟩
    · rw [step.appId]
      refine permitted.has moves (disk.deploymentDirs id old before) fun thread => ?_
      simpa using Held.deployment before []
    · obtain ⟨call, may⟩ := permitted.insert wrote
      exact idEq ▸ nothingCleared wrote may.placed
  · intro id row found ready
    rcases change.deployment_before found with ⟨old, before, step⟩ | ⟨_, idEq, thread, wrote⟩
    · rw [step.appId]
      have has : Has w (deploymentFilesDir old.appId.toString id.toString) := by
        rcases step.status with same | ⟨thread, wrote⟩
        · exact disk.contents id old before (same.1 ▸ ready)
        · obtain ⟨call, _, becomes⟩ := permitted.write wrote
          rw [ready] at becomes
          cases becomes with
          | executor first contents => exact contents rfl old before
      exact permitted.has moves has fun thread => .deployment before [.text "files"]
    · obtain ⟨call, may⟩ := permitted.insert wrote
      cases may.creates with
      | uploaded _ _ contents => exact idEq ▸ nothingCleared wrote contents
      | pending _ _ pending => rw [ready] at pending; cases pending

theorem forked_iff (moves : w.Moves (hub limit) event w') {thread child : Nat} :
    Forked w' thread child ↔
      (∃ call forked, event = .fork thread call child forked) ∨ Forked w thread child :=
  moves.did_iff _

theorem serving_before (moves : w.Moves (hub limit) event w') (alive : event ≠ .restart)
    (down : w'.shared.serving = false) : w.shared.serving = false := by
  cases moves with
  | start _ | fork _ | finish _ | drop _ => exact down
  | restart => exact absurd rfl alive
  | act member performed =>
      cases perform_coreChange performed with
      | serve _ _ _ serving => rw [serving] at down; cases down
      | lock _ _ _ _ serving | unlock _ _ _ serving | nowV7 _ _ _ _ serving
      | uniqueTmpPath _ _ _ serving | same _ _ _ serving => exact serving ▸ down

/-- While the hub is not serving, the only call in progress is its startup. -/
theorem alone_moves (crew : Crew w) (moves : w.Moves (hub limit) event w')
    (permitted : Permitted w event) (down : w'.shared.serving = false) :
    ∀ entry ∈ w'.live, entry.2 = .startup ∧ ∀ other ∈ w'.live, other.1 = entry.1 := by
  by_cases restarted : event = .restart
  · subst restarted
    cases moves
    simp
  have downBefore := serving_before moves restarted down
  have before := crew.alone downBefore
  cases moves with
  | @start call admitted =>
      change admits w.shared w.live call = true at admitted
      cases call <;> simp [admits, downBefore] at admitted
      simp [admitted]
  | act _ _ => exact before
  | fork member =>
      obtain ⟨_, _, _, _, isStart, _⟩ := permitted.forks _ _ _ _ rfl
      have isStartup := (before _ member).1
      rw [isStart] at isStartup
      cases isStartup
  | finish _ | drop _ =>
      intro entry member
      have old := before entry (List.mem_filter.1 member).1
      exact ⟨old.1, fun other member' => old.2 other (List.mem_filter.1 member').1⟩
  | restart => exact absurd rfl restarted

theorem Crew.moves (crew : Crew w) (numbered : w.Numbered)
    (moves : w.Moves (hub limit) event w') (permitted : Permitted w event) : Crew w' := by
  have forkedNow : ∀ {thread call child forked}, event = .fork thread call child forked →
      child = w.next ∧ MayFork w thread call forked := by
    rintro thread call child forked rfl
    refine ⟨?_, permitted.forks _ _ _ _ rfl⟩
    cases moves
    rfl
  refine ⟨alone_moves crew moves permitted, ?_, ?_, ?_, ?_, ?_⟩
  · intro thread child child' first second
    rcases (forked_iff moves).1 first with ⟨call, forked, now⟩ | before <;>
      rcases (forked_iff moves).1 second with ⟨call', forked', now'⟩ | before'
    · rw [now] at now'
      cases now'
      rfl
    · exact absurd before' ((forkedNow now).2.1 child')
    · exact absurd before ((forkedNow now').2.1 child)
    · exact crew.forkOnce thread child child' before before'
  · intro thread thread' child first second
    rcases (forked_iff moves).1 first with ⟨call, forked, now⟩ | before <;>
      rcases (forked_iff moves).1 second with ⟨call', forked', now'⟩ | before'
    · rw [now] at now'
      cases now'
      rfl
    · have bound := crew.childBound thread' child before'
      rw [(forkedNow now).1] at bound
      exact absurd bound (Nat.lt_irrefl _)
    · have bound := crew.childBound thread child before
      rw [(forkedNow now').1] at bound
      exact absurd bound (Nat.lt_irrefl _)
    · exact crew.childOnce thread thread' child before before'
  · intro thread child forked
    rcases (forked_iff moves).1 forked with ⟨call, forked, rfl⟩ | before
    · cases moves
      exact Nat.lt_succ_self _
    · exact Nat.lt_of_lt_of_le (crew.childBound thread child before) moves.next_le
  · intro thread appText row member inserted
    rcases moves.live_cases member with old | ⟨rfl, rfl, _⟩ | ⟨rfl, _, _, rfl, _⟩
    · rcases (inserted_iff moves).1 inserted with ⟨call, choice, value, rfl⟩ | before
      · have may : MayInsert w thread call row := permitted.writes _ _ _ _ _ rfl
        cases moves with
        | act inLive performed =>
            cases numbered.unique _ _ _ old inLive
            cases may.creates with
            | uploaded upload => rcases upload with ⟨_, _, _, _, eq⟩ | ⟨_, _, eq⟩ <;> cases eq
            | pending parsed git pending =>
                rcases git with eq | eq <;> cases eq
                exact ⟨pending, parsed⟩
      · exact crew.starter thread appText row old before
    · rcases (inserted_iff moves).1 inserted with ⟨_, _, _, eq⟩ | before
      · cases eq
      · exact absurd before (numbered.not_did fun _ wrote => wrote.thread)
    · obtain ⟨_, _, _, _, _, isRun, _⟩ := (forkedNow rfl).2
      cases isRun
  · intro thread appText text gitSource member
    rcases moves.live_cases member with old | ⟨_, _, admitted⟩ | ⟨_, parent, forking, rfl, _⟩
    · obtain ⟨forker, row, forked, inserted, rest⟩ :=
        crew.executor thread appText text gitSource old
      exact ⟨forker, row, moves.did forked, moves.did inserted, rest⟩
    · exact absurd admitted (by simp [hub, admits])
    · obtain ⟨_, _, row, _, _, isRun, inserted, pending, parsed⟩ := (forkedNow rfl).2
      cases isRun
      exact ⟨parent, row, (forked_iff moves).2 (.inl ⟨_, _, rfl⟩), moves.did inserted, pending,
        rfl, parsed⟩

theorem Ledger.moves (ledger : Ledger w) (numbered : w.Numbered)
    (moves : w.Moves (hub limit) event w') (permitted : Permitted w event) : Ledger w' :=
  ⟨ledger.rows.moves moves permitted, ledger.disk.moves moves permitted,
    ledger.crew.moves numbered moves permitted⟩

end Keeps

def ledger : Discipline Act Act.Res Call Reply State Choice where
  Allowed := fun _ _ => True
  Permit := Permitted
  Inv := Ledger

end Berth
