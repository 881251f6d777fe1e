import Berth.Api

/-!
What a single step of the hub can do to each part of the state.
-/

namespace Berth

open Interleave

variable {thread : Nat} {action : Act} {choice : Choice} {result : action.Res}
variable {state state' : State}

/-- The only actions that take existing entries out of the directory tree, and from where down. -/
def Act.Clears : Act → Path → Prop
  | .rename source _, root => source = root
  | .removeDirAll path, root | .removeFile path, root => path = root
  | _, _ => False

theorem runQuery_cases {q : Query} {outcome : AppResult q.Result}
    (ran : state.runQuery q choice = (outcome, state')) :
    (∃ err, outcome = .error err ∧ state' = state) ∨
      ∃ value db, state.db.exec q = some (value, db) ∧ outcome = .ok value ∧
        state' = { state with db } := by
  unfold State.runQuery at ran
  split at ran
  · cases ran
    exact .inl ⟨_, rfl, rfl⟩
  · split at ran
    · rename_i value db executed
      cases ran
      exact .inr ⟨value, db, executed, rfl, rfl⟩
    · cases ran
      exact .inl ⟨_, rfl, rfl⟩

theorem perform_query {q : Query} {outcome : AppResult q.Result}
    (performed : perform thread (.query q) choice state = some (outcome, state')) :
    (∃ err, outcome = .error err ∧ state' = state) ∨
      ∃ value db, state.db.exec q = some (value, db) ∧ outcome = .ok value ∧
        state' = { state with db } :=
  runQuery_cases (Option.some.inj performed)

theorem perform_query_ok {q : Query} {value : q.Result}
    (performed : perform thread (.query q) choice state = some (.ok value, state')) :
    ∃ db, state.db.exec q = some (value, db) ∧ state' = { state with db } := by
  rcases perform_query performed with ⟨err, eq, _⟩ | ⟨value', db, executed, eq, after⟩
  · cases eq
  · cases eq
    exact ⟨db, executed, after⟩

/-! Filesystem steps change nothing but the files, agent steps nothing but the agents. -/

theorem ask_cases {host : Int} {request : Request} {outcome : AppResult request.Reply}
    (asked : state.ask host request choice = (outcome, state')) :
    (state' = state ∧ outcome = .error .agentUnavailable) ∨
      (choice.delivery = .replied ∧ outcome = .ok (state.carryOut host request choice.fault).1 ∧
        state' = (state.carryOut host request choice.fault).2) ∨
      (∃ timedOut, choice.delivery = .lost timedOut ∧
        outcome = .error (noReply request timedOut) ∧
        state' = (state.carryOut host request choice.fault).2) ∨
      (∃ timedOut, choice.delivery = .late timedOut ∧
        outcome = .error (noReply request timedOut) ∧
        state' = { state with backlog := state.backlog ++ [(host, .request request)] }) := by
  unfold State.ask at asked
  split at asked
  · cases asked
    exact .inl ⟨rfl, rfl⟩
  · cases delivery : choice.delivery <;> simp only [delivery] at asked <;> cases asked
    · exact .inl ⟨rfl, rfl⟩
    · exact .inr (.inl ⟨rfl, rfl, rfl⟩)
    · exact .inr (.inr (.inl ⟨_, rfl, rfl, rfl⟩))
    · exact .inr (.inr (.inr ⟨_, rfl, rfl, rfl⟩))

/-- The parts of the state that only their own actions touch. -/
structure SameCore (state state' : State) : Prop where
  db : state'.db = state.db
  issued : state'.issued = state.issued
  stagers : state'.stagers = state.stagers
  lock : state'.lock = state.lock
  serving : state'.serving = state.serving

theorem SameCore.refl : SameCore state state := ⟨rfl, rfl, rfl, rfl, rfl⟩

theorem sameCore_withFiles {files : FileTree Component} :
    SameCore state (state.withFiles files) := ⟨rfl, rfl, rfl, rfl, rfl⟩

theorem sameCore_carryOut {host : Int} {request : Request} {fault : Option Fault} :
    SameCore state (state.carryOut host request fault).2 := ⟨rfl, rfl, rfl, rfl, rfl⟩

theorem sameCore_ask {host : Int} {request : Request} {outcome : AppResult request.Reply}
    (asked : state.ask host request choice = (outcome, state')) : SameCore state state' := by
  rcases ask_cases asked with ⟨rfl, _⟩ | ⟨_, _, rfl⟩ | ⟨_, _, _, rfl⟩ | ⟨_, _, _, rfl⟩
  · exact .refl
  · exact sameCore_carryOut
  · exact sameCore_carryOut
  · exact ⟨rfl, rfl, rfl, rfl, rfl⟩

theorem sameCore_work {host : Int} (worked : state.work host choice = some state') :
    SameCore state state' := by
  unfold State.work at worked
  split at worked
  · cases worked
  · split at worked
    · cases worked
    · simp only at worked
      split at worked <;> cases worked <;> exact ⟨rfl, rfl, rfl, rfl, rfl⟩

def Act.IsCore : Act → Prop
  | .lock | .unlock | .nowV7 | .uniqueTmpPath _ _ | .query _ | .administer _ _ | .serve => True
  | _ => False

/-- How the file tree can look after a step. -/
inductive FilesChange (state state' : State) : Act → Prop
  | same {action : Act} (files : state'.files = state.files) : FilesChange state state' action
  | add {action : Act} (paths : List Path) (files : state'.files = state.files.add paths) :
      FilesChange state state' action
  | move {source target : Path} (files : state'.files = state.files.move source target) :
      FilesChange state state' (.rename source target)
  | removeDirAll {path : Path} (kept : List Path)
      (files : state'.files = state.files.removeBelow path kept) :
      FilesChange state state' (.removeDirAll path)
  | removeFile {path : Path} (files : state'.files = state.files.removeBelow path []) :
      FilesChange state state' (.removeFile path)

theorem FilesChange.has {path : Path} (change : FilesChange state state' action)
    (before : state.files.Has path) (kept : ∀ root, action.Clears root → ¬ root <+: path) :
    state'.files.Has path := by
  cases change with
  | same files => rwa [files]
  | add paths files => simp [files, before]
  | move files => exact files ▸ FileTree.has_move.2 (.inr (.inl ⟨before, kept _ rfl⟩))
  | removeDirAll kept' files => simp [files, before, kept _ rfl]
  | removeFile files => simp [files, before, kept _ rfl]

/-- A filesystem step: nothing but the file tree changes. -/
structure FileStep (state state' : State) (action : Act) : Prop where
  only : state' = state.withFiles state'.files
  change : FilesChange state state' action

theorem FileStep.none {action : Act} : FileStep state state action := ⟨rfl, .same rfl⟩

theorem FileStep.add {action : Act} {paths : List Path} :
    FileStep state (state.withFiles (state.files.add paths)) action := ⟨rfl, .add paths rfl⟩

theorem createDir_step {path : Path} {outcome : AppResult Unit}
    (ran : state.createDir path choice = (outcome, state')) :
    FileStep state state' (.createDir path) := by
  unfold State.createDir at ran
  repeat' split at ran
  all_goals cases ran
  all_goals first | exact .none | exact .add

theorem createDirAll_step {path : Path} {outcome : AppResult Unit}
    (ran : state.createDirAll path choice = (outcome, state')) :
    FileStep state state' (.createDirAll path) := by
  unfold State.createDirAll at ran
  repeat' split at ran
  all_goals cases ran
  all_goals first | exact .none | exact .add

theorem rename_step {source target : Path} {outcome : AppResult Unit}
    (ran : state.rename source target choice = (outcome, state')) :
    FileStep state state' (.rename source target) := by
  unfold State.rename at ran
  repeat' split at ran
  all_goals cases ran
  all_goals first | exact .none | exact ⟨rfl, .move rfl⟩

theorem removeDirAll_step {path : Path} {outcome : AppResult Unit}
    (ran : state.removeDirAll path choice = (outcome, state')) :
    FileStep state state' (.removeDirAll path) := by
  unfold State.removeDirAll at ran
  repeat' split at ran
  all_goals cases ran
  all_goals first | exact .none | exact ⟨rfl, .removeDirAll _ rfl⟩

theorem removeFile_step {path : Path} {outcome : AppResult Unit}
    (ran : state.removeFile path choice = (outcome, state')) :
    FileStep state state' (.removeFile path) := by
  unfold State.removeFile at ran
  repeat' split at ran
  all_goals cases ran
  all_goals first | exact .none | exact ⟨rfl, .removeFile rfl⟩

theorem rename_ok {source target : Path}
    (performed : perform thread (.rename source target) choice state = some (.ok (), state')) :
    state.files.Has source ∧ state'.files = state.files.move source target := by
  have ran := Option.some.inj performed
  unfold State.rename at ran
  split at ran
  · cases ran
  split at ran
  · cases ran
  split at ran
  · cases ran
  split at ran
  · cases ran
  · rename_i has _ _
    cases ran
    exact ⟨not_not.1 has, rfl⟩

theorem rename_error {source target : Path} {err : AppError}
    (performed : perform thread (.rename source target) choice state = some (.error err, state')) :
    state' = state := by
  have ran := Option.some.inj performed
  unfold State.rename at ran
  repeat' split at ran
  all_goals cases ran
  all_goals rfl

theorem createDir_error {path : Path} {err : AppError}
    (performed : perform thread (.createDir path) choice state = some (.error err, state')) :
    state' = state := by
  have ran := Option.some.inj performed
  unfold State.createDir at ran
  repeat' split at ran
  all_goals cases ran
  all_goals rfl

theorem createDir_ok {path : Path}
    (performed : perform thread (.createDir path) choice state = some (.ok (), state')) :
    state'.files.Has path := by
  have ran := Option.some.inj performed
  unfold State.createDir at ran
  repeat' split at ran
  all_goals cases ran
  simp [State.withFiles]

theorem createFile_step {path : Path} {outcome : AppResult Unit}
    (ran : state.createFile path choice = (outcome, state')) :
    FileStep state state' (.createFile path) := by
  unfold State.createFile at ran
  repeat' split at ran
  all_goals cases ran
  all_goals first | exact .none | exact .add

theorem unpackZip_step {zip target : Path} {outcome : AppResult Unit}
    (ran : state.unpackZip zip target choice = (outcome, state')) :
    FileStep state state' (.unpackZip zip target) := by
  unfold State.unpackZip at ran
  repeat' split at ran
  all_goals cases ran
  all_goals first | exact .none | exact .add

theorem zipDir_step {source zip : Path} {outcome : AppResult Unit}
    (ran : state.zipDir source zip choice = (outcome, state')) :
    FileStep state state' (.zipDir source zip) := by
  unfold State.zipDir at ran
  repeat' split at ran
  all_goals cases ran
  all_goals first | exact .none | exact .add

theorem cloneShallow_step {source : GitSource} {target : Path} {outcome : AppResult String}
    (ran : state.cloneShallow target choice = (outcome, state')) :
    FileStep state state' (.cloneShallow source target) := by
  unfold State.cloneShallow at ran
  split at ran <;> cases ran <;> exact .add

/-- The filesystem actions. -/
def Act.OnFiles : Act → Prop
  | .createDir _ | .createDirAll _ | .rename _ _ | .removeDirAll _ | .removeFile _ | .readDir _
  | .pathExists _ | .createFile _ | .writeFile _ | .unpackZip _ _ | .zipDir _ _
  | .cloneShallow _ _ | .dirSizeBytes _ => True
  | _ => False

theorem perform_onFiles (onFiles : action.OnFiles)
    (performed : perform thread action choice state = some (result, state')) :
    FileStep state state' action := by
  cases action with
  | createDir path => exact createDir_step (Option.some.inj performed)
  | createDirAll path => exact createDirAll_step (Option.some.inj performed)
  | rename source target => exact rename_step (Option.some.inj performed)
  | removeDirAll path => exact removeDirAll_step (Option.some.inj performed)
  | removeFile path => exact removeFile_step (Option.some.inj performed)
  | createFile path => exact createFile_step (Option.some.inj performed)
  | unpackZip zip target => exact unpackZip_step (Option.some.inj performed)
  | zipDir source zip => exact zipDir_step (Option.some.inj performed)
  | cloneShallow source target => exact cloneShallow_step (Option.some.inj performed)
  | readDir _ | pathExists _ | dirSizeBytes _ =>
      cases Option.some.inj performed
      exact .none
  | writeFile path =>
      simp only [perform] at performed
      split at performed <;> cases performed <;> exact .none
  | lock | unlock | nowV7 | uniqueTmpPath _ _ | query _ | encrypt _ | decrypt _ | timeoutElapsed
  | agent _ _ | connectedHosts | connect _ | disconnect _ | runBacklog _ | administer _ _
  | serve => exact onFiles.elim

/-- The files only change by filesystem actions. -/
theorem perform_filesSame (notFiles : ¬ action.OnFiles)
    (performed : perform thread action choice state = some (result, state')) :
    state'.files = state.files := by
  cases action with
  | createDir _ | createDirAll _ | rename _ _ | removeDirAll _ | removeFile _ | readDir _
  | pathExists _ | createFile _ | writeFile _ | unpackZip _ _ | zipDir _ _ | cloneShallow _ _
  | dirSizeBytes _ => exact (notFiles trivial).elim
  | query q =>
      rcases perform_query performed with ⟨_, _, rfl⟩ | ⟨_, _, _, _, rfl⟩ <;> rfl
  | agent host request =>
      rcases ask_cases (Option.some.inj performed) with
        ⟨rfl, _⟩ | ⟨_, _, rfl⟩ | ⟨_, _, _, rfl⟩ | ⟨_, _, _, rfl⟩ <;> rfl
  | runBacklog host =>
      simp only [perform, Option.map_eq_some_iff, State.work] at performed
      obtain ⟨after, worked, eq⟩ := performed
      cases eq
      repeat' split at worked
      all_goals cases worked
      all_goals rfl
  | lock =>
      simp only [perform] at performed
      split at performed <;> cases performed
      rfl
  | nowV7 =>
      simp only [perform] at performed
      split at performed <;> cases performed
      rfl
  | connect host =>
      simp only [perform] at performed
      split at performed <;> cases performed
      rfl
  | unlock | uniqueTmpPath _ _ | encrypt _ | decrypt _ | timeoutElapsed | connectedHosts
  | disconnect _ | administer _ _ | serve =>
      cases Option.some.inj performed
      rfl

theorem perform_filesChange
    (performed : perform thread action choice state = some (result, state')) :
    FilesChange state state' action := by
  by_cases onFiles : action.OnFiles
  · exact (perform_onFiles onFiles performed).change
  · exact .same (perform_filesSame onFiles performed)

theorem FileStep.sameCore (step : FileStep state state' action) : SameCore state state' :=
  step.only ▸ sameCore_withFiles

/-- Only the actions that are about a part of the core change it. -/
theorem perform_sameCore (notCore : ¬ action.IsCore)
    (performed : perform thread action choice state = some (result, state')) :
    SameCore state state' := by
  by_cases onFiles : action.OnFiles
  · exact (perform_onFiles onFiles performed).sameCore
  · cases action with
    | createDir _ | createDirAll _ | rename _ _ | removeDirAll _ | removeFile _ | readDir _
    | pathExists _ | createFile _ | writeFile _ | unpackZip _ _ | zipDir _ _ | cloneShallow _ _
    | dirSizeBytes _ => exact (onFiles trivial).elim
    | lock | unlock | nowV7 | uniqueTmpPath _ _ | query _ | administer _ _ | serve =>
        exact (notCore trivial).elim
    | agent host request => exact sameCore_ask (Option.some.inj performed)
    | runBacklog host =>
        simp only [perform, Option.map_eq_some_iff] at performed
        obtain ⟨after, worked, eq⟩ := performed
        cases eq
        exact sameCore_work worked
    | connect host =>
        simp only [perform] at performed
        split at performed <;> cases performed
        exact ⟨rfl, rfl, rfl, rfl, rfl⟩
    | encrypt _ | decrypt _ | timeoutElapsed | connectedHosts | disconnect _ =>
        cases Option.some.inj performed
        exact ⟨rfl, rfl, rfl, rfl, rfl⟩

/-- Besides queries nothing changes the rows of apps and deployments. -/
theorem perform_rows (notQuery : ∀ q, action ≠ .query q)
    (performed : perform thread action choice state = some (result, state')) :
    state'.db.apps = state.db.apps ∧ state'.db.deployments = state.db.deployments := by
  by_cases core : action.IsCore
  · cases action with
    | query q => exact absurd rfl (notQuery q)
    | lock =>
        simp only [perform] at performed
        split at performed <;> cases performed
        exact ⟨rfl, rfl⟩
    | nowV7 =>
        simp only [perform] at performed
        split at performed <;> cases performed
        exact ⟨rfl, rfl⟩
    | unlock | uniqueTmpPath _ _ | administer _ _ | serve =>
        cases Option.some.inj performed
        exact ⟨rfl, rfl⟩
    | encrypt _ | decrypt _ | createDir _ | createDirAll _ | rename _ _ | removeDirAll _
    | removeFile _ | readDir _ | pathExists _ | createFile _ | writeFile _ | unpackZip _ _
    | zipDir _ _ | cloneShallow _ _ | dirSizeBytes _ | timeoutElapsed | agent _ _
    | connectedHosts | connect _ | disconnect _ | runBacklog _ => exact core.elim
  · have same := (perform_sameCore core performed).db
    exact ⟨congrArg Database.apps same, congrArg Database.deployments same⟩

/-- What a step does to the write lock, the ids handed out and the serving flag. -/
inductive CoreChange (thread : Nat) (state state' : State) : Act → Prop
  | lock (free : state.lock = none) (lock : state'.lock = some thread)
      (issued : state'.issued = state.issued) (stagers : state'.stagers = state.stagers)
      (serving : state'.serving = state.serving) : CoreChange thread state state' .lock
  | unlock (lock : state'.lock = if state.lock = some thread then none else state.lock)
      (issued : state'.issued = state.issued) (stagers : state'.stagers = state.stagers)
      (serving : state'.serving = state.serving) : CoreChange thread state state' .unlock
  | nowV7 {id : Uuid} (fresh : state.owner id = none) (lock : state'.lock = state.lock)
      (issued : state'.issued = (id, thread) :: state.issued)
      (stagers : state'.stagers = state.stagers) (serving : state'.serving = state.serving) :
      CoreChange thread state state' .nowV7
  | uniqueTmpPath {label : String} {extension : Option String} (lock : state'.lock = state.lock)
      (issued : state'.issued = state.issued)
      (stagers : state'.stagers = state.stagers ++ [thread])
      (serving : state'.serving = state.serving) :
      CoreChange thread state state' (.uniqueTmpPath label extension)
  | serve (lock : state'.lock = state.lock) (issued : state'.issued = state.issued)
      (stagers : state'.stagers = state.stagers) (serving : state'.serving = true) :
      CoreChange thread state state' .serve
  | same {action : Act} (lock : state'.lock = state.lock) (issued : state'.issued = state.issued)
      (stagers : state'.stagers = state.stagers) (serving : state'.serving = state.serving) :
      CoreChange thread state state' action

theorem perform_coreChange
    (performed : perform thread action choice state = some (result, state')) :
    CoreChange thread state state' action := by
  by_cases core : action.IsCore
  · cases action with
    | query q =>
        rcases perform_query performed with ⟨_, _, rfl⟩ | ⟨_, _, _, _, rfl⟩ <;>
          exact .same rfl rfl rfl rfl
    | lock =>
        simp only [perform] at performed
        split at performed <;> cases performed
        rename_i free
        exact .lock free rfl rfl rfl rfl
    | nowV7 =>
        simp only [perform] at performed
        split at performed <;> cases performed
        rename_i fresh
        simp only [not_or, Bool.not_eq_true, Option.isSome_eq_false_iff,
          Option.isNone_iff_eq_none] at fresh
        exact .nowV7 fresh.1 rfl rfl rfl rfl
    | unlock =>
        cases Option.some.inj performed
        exact .unlock rfl rfl rfl rfl
    | uniqueTmpPath _ _ =>
        cases Option.some.inj performed
        exact .uniqueTmpPath rfl rfl rfl rfl
    | serve =>
        cases Option.some.inj performed
        exact .serve rfl rfl rfl rfl
    | administer _ _ =>
        cases Option.some.inj performed
        exact .same rfl rfl rfl rfl
    | encrypt _ | decrypt _ | createDir _ | createDirAll _ | rename _ _ | removeDirAll _
    | removeFile _ | readDir _ | pathExists _ | createFile _ | writeFile _ | unpackZip _ _
    | zipDir _ _ | cloneShallow _ _ | dirSizeBytes _ | timeoutElapsed | agent _ _
    | connectedHosts | connect _ | disconnect _ | runBacklog _ => exact core.elim
  · have same := perform_sameCore core performed
    exact .same same.lock same.issued same.stagers same.serving

theorem owner_cons {id other : Uuid} {issued : List (Uuid × Nat)} {state : State}
    (eq : state.issued = (id, thread) :: issued) :
    state.owner other =
      if id = other then some thread
      else (issued.find? fun entry => entry.1 = other).map Prod.snd := by
  by_cases same : id = other <;> simp [State.owner, eq, same]

theorem CoreChange.owner (change : CoreChange thread state state' action) {id : Uuid} {t : Nat}
    (owned : state.owner id = some t) : state'.owner id = some t := by
  have keep : state'.issued = state.issued → state'.owner id = some t := fun issued => by
    rw [State.owner, issued]; exact owned
  cases change with
  | @nowV7 new fresh lock issued stagers serving =>
      rw [owner_cons issued]
      by_cases same : new = id
      · subst same
        rw [fresh] at owned
        cases owned
      · rw [if_neg same]
        exact owned
  | lock _ _ issued | unlock _ issued | uniqueTmpPath _ issued | serve _ issued
  | same _ issued => exact keep issued

theorem CoreChange.stager (change : CoreChange thread state state' action) {seq t : Nat}
    (drawn : state.stager seq = some t) : state'.stager seq = some t := by
  have keep : state'.stagers = state.stagers → state'.stager seq = some t := fun stagers => by
    rw [State.stager, stagers]; exact drawn
  cases change with
  | uniqueTmpPath _ _ stagers =>
      rw [State.stager, stagers, List.getElem?_append_left]
      · exact drawn
      · exact (List.getElem?_eq_some_iff.1 drawn).1
  | lock _ _ _ stagers | unlock _ _ stagers | nowV7 _ _ _ stagers | serve _ _ stagers
  | same _ _ stagers => exact keep stagers

/-- Nobody else can take the write lock away. -/
theorem CoreChange.lock_kept (change : CoreChange thread state state' action) {t : Nat}
    (held : state.lock = some t) (other : t ≠ thread) : state'.lock = some t := by
  cases change with
  | lock free => rw [free] at held; cases held
  | unlock lock =>
      rw [lock, held, if_neg]
      exact fun same => other (Option.some.inj same)
  | nowV7 _ lock | uniqueTmpPath lock | serve lock | same lock => rw [lock, held]

end Berth
