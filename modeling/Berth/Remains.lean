import Berth.Conditions

/-!
What remains of the paths a call has created: those that are there and have been there ever since
one of its steps put them there.
-/

namespace Berth

open Interleave Interleave.Discipline Interleave.Fallible

abbrev HubMoment : Type := Moment Act Act.Res Call Reply State Choice

/-- Follows the history back to the event that put the path there: it was one of the thread's. -/
def Lasted (thread : Nat) (path : Path) : FileTree Component → List HubMoment → Prop
  | _, [] => False
  | files, moment :: older => files.Has path ∧
      if moment.shared.files.Has path then Lasted thread path moment.shared.files older
      else moment.event.thread = some thread

instance decidableLasted (thread : Nat) (path : Path) : (files : FileTree Component) →
    (history : List HubMoment) → Decidable (Lasted thread path files history)
  | _, [] => inferInstanceAs (Decidable False)
  | files, moment :: older =>
      have := decidableLasted thread path moment.shared.files older
      inferInstanceAs (Decidable (files.Has path ∧ if moment.shared.files.Has path then
        Lasted thread path moment.shared.files older else moment.event.thread = some thread))

def Remains (w : HubWorld) (thread : Nat) (path : Path) : Prop :=
  Lasted thread path w.shared.files w.history

instance (w : HubWorld) (thread : Nat) (path : Path) : Decidable (Remains w thread path) :=
  inferInstanceAs (Decidable (Lasted thread path w.shared.files w.history))

variable {limit thread : Nat} {call : Call} {w w' : HubWorld} {event : HubEvent} {path : Path}

/-- What remains after an event remained before it, or is new and by the thread. -/
theorem remains_cases (moves : w.Moves (hub limit) event w') (remains : Remains w' thread path) :
    Has w' path ∧ (Remains w thread path ∨ ¬ Has w path ∧ event.thread = some thread) := by
  rw [Remains, moves.history] at remains
  obtain ⟨has, since⟩ := remains
  by_cases before : w.shared.files.Has path
  · rw [if_pos before] at since
    exact ⟨has, .inl since⟩
  · rw [if_neg before] at since
    exact ⟨has, .inr ⟨before, since⟩⟩

theorem Remains.acted (remains : Remains w thread path) :
    ∃ moment ∈ w.history, moment.event.thread = some thread := by
  obtain ⟨shared, live, next, history⟩ := w
  induction history generalizing shared with
  | nil => exact remains.elim
  | cons moment older ih =>
      obtain ⟨_, since⟩ := remains
      split at since
      · obtain ⟨past, member, acted⟩ := ih moment.shared since
        exact ⟨past, List.mem_cons_of_mem _ member, acted⟩
      · exact ⟨moment, List.mem_cons_self, since⟩

/-! What a step can create. -/

/-- The paths that can be there after the action and not before it. A directory is only made in one
that is there already; what is unpacked or cloned brings the directories it lies in with it. -/
def Act.Creates : Act → Path → Prop
  | .createDir target, path | .createFile target, path | .zipDir _ target, path =>
      path = target ∨ path = []
  | .rename _ target, path => target <+: path ∨ path = []
  | .createDirAll target, path => path <+: target
  | .unpackZip _ target, path | .cloneShallow _ target, path => path <+: target ∨ target <+: path
  | _, _ => False

/-- What lies on the way to a path with a parent is there. -/
theorem has_above {files : FileTree Component} {target : Path} (parent : files.HasParent target)
    (lies : path <+: target) : files.Has path ∨ path = target ∨ path = [] := by
  by_cases whole : path = target
  · exact .inr (.inl whole)
  have shorter : path <+: target.dropLast := by
    obtain ⟨rest, rfl⟩ := lies
    rcases List.eq_nil_or_concat rest with rfl | ⟨front, last, rfl⟩
    · exact absurd (List.append_nil path).symm whole
    · rw [List.concat_eq_append, ← List.append_assoc, List.dropLast_concat]
      exact List.prefix_append path front
  rcases parent with top | parent
  · rw [top] at shorter
    exact .inr (.inr (List.prefix_nil.1 shorter))
  · exact .inl (parent.front shorter)

theorem created_alone {files : FileTree Component} {target : Path} (parent : files.HasParent target)
    (absent : ¬ files.Has path) (has : (files.add [target]).Has path) :
    path = target ∨ path = [] := by
  rcases FileTree.has_add.1 has with ⟨whole, member, lies⟩ | before
  · cases List.mem_singleton.1 member
    exact (has_above parent lies).resolve_left absent
  · exact absurd before absent

theorem created_inside {files : FileTree Component} {target : Path} {entries : List Path}
    (absent : ¬ files.Has path)
    (has : (files.add (entries.map fun entry => target ++ entry)).Has path) :
    path <+: target ∨ target <+: path := by
  rcases FileTree.has_add.1 has with ⟨whole, member, lies⟩ | before
  · obtain ⟨entry, _, rfl⟩ := List.mem_map.1 member
    rcases FileTree.above_or_below lies with above | ⟨upper, _, rfl⟩
    · exact .inl above
    · exact .inr (List.prefix_append target upper)
  · exact absurd before absent

theorem created_moving {files : FileTree Component} {source target : Path}
    (parent : files.HasParent target) (absent : ¬ files.Has path)
    (has : (files.move source target).Has path) : target <+: path ∨ path = [] := by
  rcases FileTree.has_move.1 has with above | ⟨before, _⟩ | ⟨rest, rfl, _⟩
  · rcases (has_above parent above).resolve_left absent with rfl | top
    · exact .inl (List.prefix_refl path)
    · exact .inr top
  · exact absurd before absent
  · exact .inl (List.prefix_append target rest)

variable {action : Act} {choice : Choice} {result : action.Res} {state state' : State}

/-- A path that is new after an action is one that the action creates. -/
theorem perform_creates (performed : perform thread action choice state = some (result, state'))
    (absent : ¬ state.files.Has path) (has : state'.files.Has path) : action.Creates path := by
  by_cases onFiles : action.OnFiles
  · cases action with
    | createDir target =>
        have ran := Option.some.inj performed
        unfold State.createDir at ran
        repeat' split at ran
        all_goals cases ran
        all_goals first | exact absurd has absent | skip
        rename_i parent
        exact created_alone (not_not.1 parent) absent has
    | createFile target =>
        have ran := Option.some.inj performed
        unfold State.createFile at ran
        repeat' split at ran
        all_goals cases ran
        all_goals first | exact absurd has absent | skip
        rename_i parent
        exact created_alone (not_not.1 parent) absent has
    | zipDir source target =>
        have ran := Option.some.inj performed
        unfold State.zipDir at ran
        split at ran
        · cases ran
          exact absurd has absent
        · rename_i parent
          repeat' split at ran
          all_goals cases ran
          all_goals exact created_alone (not_not.1 parent) absent has
    | rename source target =>
        have ran := Option.some.inj performed
        unfold State.rename at ran
        repeat' split at ran
        all_goals cases ran
        all_goals first | exact absurd has absent | skip
        rename_i parent
        exact created_moving (not_not.1 parent) absent has
    | createDirAll target =>
        have ran := Option.some.inj performed
        unfold State.createDirAll at ran
        split at ran
        · cases ran
          exact absurd has absent
        · cases ran
          rcases FileTree.has_add.1 has with ⟨whole, member, lies⟩ | before
          · exact lies.trans ((List.mem_inits _ _).1 (List.mem_filter.1 member).1)
          · exact absurd before absent
    | unpackZip zip target =>
        have ran := Option.some.inj performed
        unfold State.unpackZip at ran
        repeat' split at ran
        all_goals cases ran
        all_goals first | exact absurd has absent | exact created_inside absent has
    | cloneShallow source target =>
        have ran := Option.some.inj performed
        unfold State.cloneShallow at ran
        split at ran
        · cases ran
          exact created_inside absent has
        · cases ran
          rw [State.withFiles, FileTree.has_add] at has
          simp only [List.mem_cons] at has
          rcases has with ⟨whole, rfl | member, lies⟩ | before
          · exact .inl lies
          · exact created_inside absent (FileTree.has_add.2 (.inl ⟨whole, member, lies⟩))
          · exact absurd before absent
    | removeDirAll target =>
        have ran := Option.some.inj performed
        unfold State.removeDirAll at ran
        repeat' split at ran
        all_goals cases ran
        · exact absurd has absent
        all_goals exact absurd (FileTree.has_removeBelow.1 has).1 absent
    | removeFile target =>
        have ran := Option.some.inj performed
        unfold State.removeFile at ran
        repeat' split at ran
        all_goals cases ran
        · exact absurd has absent
        · exact absurd has absent
        · exact absurd (FileTree.has_removeBelow.1 has).1 absent
    | readDir _ | pathExists _ | dirSizeBytes _ =>
        cases Option.some.inj performed
        exact absurd has absent
    | writeFile _ =>
        simp only [perform] at performed
        split at performed <;> cases performed <;> exact absurd has absent
    | lock | unlock | nowV7 | uniqueTmpPath _ _ | query _ | encrypt _ | decrypt _ | timeoutElapsed
    | agent _ _ | connectedHosts | connect _ | disconnect _ | runBacklog _ | administer _ _
    | serve => exact onFiles.elim
  · rw [perform_filesSame onFiles performed] at has
    exact absurd has absent

/-! What is left of a call's paths. -/

/-- A path under `tmp`. -/
def Scratch (path : Path) : Prop := tmpDir <+: path ∧ path ≠ tmpDir

/-- A path under `apps` or `tmp`. -/
def Inner (path : Path) : Prop := appsDir <+: path ∧ path ≠ appsDir ∨ Scratch path

/-- Of what the thread has created under `apps` and `tmp`, only these paths remain. -/
def Leaves (w : HubWorld) (thread : Nat) (spared : Path → Prop) : Prop :=
  ∀ path, Inner path → Remains w thread path → spared path

variable {spared spared' : Path → Prop}

theorem Leaves.mono (leaves : Leaves w thread spared)
    (wider : ∀ path, Inner path → spared path → spared' path) : Leaves w thread spared' :=
  fun path inner remains => wider path inner (leaves path inner remains)

theorem Scratch.inner (scratch : Scratch path) : Inner path := .inr scratch

/-- A thread that has done nothing yet has left nothing. -/
theorem leaves_nothing (numbered : w.Numbered) (moves : w.Moves (hub limit) event w')
    (files : w'.shared.files = w.shared.files) : Leaves w' w.next fun _ => False := by
  intro path _ remains
  obtain ⟨has, before | ⟨absent, _⟩⟩ := remains_cases moves remains
  · obtain ⟨moment, member, acted⟩ := before.acted
    exact absurd (numbered.past_lt moment member _ acted) (Nat.lt_irrefl _)
  · rw [Has, files] at has
    exact absent has

/-- The actions that create nothing under `apps` and `tmp` but what is spared. -/
def Act.Spares (spared : Path → Prop) (action : Act) : Prop :=
  ∀ path, Inner path → action.Creates path → spared path

theorem Leaves.moves (leaves : Leaves w thread spared) (moves : w.Moves (hub limit) event w')
    (own : ∀ call action choice result, event = .act thread call action choice result →
      action.Spares spared) : Leaves w' thread spared := by
  intro path inner remains
  obtain ⟨has, before | ⟨absent, mine⟩⟩ := remains_cases moves remains
  · exact leaves path inner before
  · cases moves with
    | start _ | fork _ | finish _ | drop _ | restart => exact absurd has absent
    | act member performed =>
        cases mine
        exact own _ _ _ _ rfl path inner (perform_creates performed absent has)

theorem lasting_leaves {calls : Call → Prop} :
    Lasting limit thread call (Act.Spares spared) calls fun w =>
      Leaves w thread spared := by
  intro w event w' around own leaves
  refine leaves.moves around.moves ?_
  rintro caller action choice result rfl
  cases own rfl with
  | act spares => exact spares

/-- What a step does not touch the files of is left as it was. -/
theorem Leaves.same (leaves : Leaves w thread spared) (moves : w.Moves (hub limit) event w')
    (files : w'.shared.files = w.shared.files) : Leaves w' thread spared := by
  intro path inner remains
  obtain ⟨has, before | ⟨absent, _⟩⟩ := remains_cases moves remains
  · exact leaves path inner before
  · rw [Has, files] at has
    exact absurd has absent

/-- The path and what is below it are gone. -/
theorem Leaves.without (leaves : Leaves w thread spared)
    (moves : w.Moves (hub limit) event w') {root : Path}
    (kept : ∀ path, Has w' path → Has w path ∧ ¬ root <+: path) :
    Leaves w' thread fun path => spared path ∧ ¬ root <+: path := by
  intro path inner remains
  obtain ⟨has, before | ⟨absent, _⟩⟩ := remains_cases moves remains
  · exact ⟨leaves path inner before, (kept path has).2⟩
  · exact absurd (kept path has).1 absent

theorem removeDirAll_clears {root : Path} {result : Act.Res (.removeDirAll root)}
    (performed : perform thread (.removeDirAll root) choice state = some (result, state'))
    (works : choice.failure = none) (has : state'.files.Has path) :
    state.files.Has path ∧ ¬ root <+: path := by
  have ran := Option.some.inj performed
  unfold State.removeDirAll at ran
  simp only [works] at ran
  split at ran
  · rename_i absent
    cases ran
    exact ⟨has, fun lies => absent (has.front lies)⟩
  · cases ran
    simpa [State.withFiles] using has

theorem removeFile_clears {root : Path} {result : Act.Res (.removeFile root)}
    (performed : perform thread (.removeFile root) choice state = some (result, state'))
    (works : choice.failure = none) (has : state'.files.Has path) :
    state.files.Has path ∧ ¬ root <+: path := by
  have ran := Option.some.inj performed
  unfold State.removeFile at ran
  simp only [works] at ran
  split at ran
  · rename_i absent
    cases ran
    exact ⟨has, fun lies => absent (has.front lies)⟩
  · cases ran
    simpa [State.withFiles] using has

/-- A move takes along what is at its source, or does nothing. -/
theorem Leaves.renamed {source target : Path} {caller : Call} {result : Act.Res (.rename source target)}
    (leaves : Leaves w thread spared)
    (moves : w.Moves (hub limit) (.act thread caller (.rename source target) choice result) w') :
    (∃ err, result = .error err ∧ Leaves w' thread spared) ∨
      (result = .ok () ∧ Leaves w' thread fun path =>
        (spared path ∧ (source <+: path → path <+: target)) ∨ target <+: path ∨ path = []) := by
  have performed := act_performed moves
  cases result with
  | error err =>
      exact .inl ⟨err, rfl, leaves.same moves (congrArg State.files (rename_error performed))⟩
  | ok value =>
      refine .inr ⟨rfl, fun path inner remains => ?_⟩
      obtain ⟨has, before | ⟨absent, _⟩⟩ := remains_cases moves remains
      · obtain ⟨_, moved⟩ := rename_ok performed
        rw [Has, moved, FileTree.has_move] at has
        rcases has with above | ⟨_, outside⟩ | ⟨rest, rfl, _⟩
        · exact .inl ⟨leaves path inner before, fun _ => above⟩
        · exact .inl ⟨leaves path inner before, fun lies => absurd lies outside⟩
        · exact .inr (.inl (List.prefix_append target rest))
      · exact .inr (perform_creates performed absent has)

end Berth
