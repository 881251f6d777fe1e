import Berth.Data.FileTree
import Berth.Interleave.Machine
import Berth.Uuid

/-!
The agent's `fs_ops` on its data directory. The agent answers its requests side by side, so the
calls run one filesystem call at a time and in any order; what a call has got to is lost in a crash,
and what it has done to the directory is not.
-/

namespace Berth.AgentFs

open Interleave

abbrev Path : Type := List String

/-! `layout`, and the path that `delete_deployment_dir` makes up itself. -/

def deploymentsDir : Path := ["deployments"]

def deploymentDir (id : Uuid) : Path := deploymentsDir ++ [id.toString]

def deploymentFilesDir (id : Uuid) : Path := deploymentDir id ++ ["files"]

def tmpDir : Path := ["tmp"]

def uploadStagingDir (id : Uuid) : Path := tmpDir ++ ["upload-" ++ id.toString]

def deletedDir (id : Uuid) : Path := tmpDir ++ ["deleted-deployment-" ++ id.toString]

/-- Something lies in the directory. -/
def Occupied (tree : FileTree String) (root : Path) : Prop :=
  ∃ path ∈ tree.paths, root <+: path ∧ path ≠ root

instance (tree : FileTree String) (root : Path) : Decidable (Occupied tree root) :=
  decidable_of_iff (tree.paths.any fun path => decide (root <+: path) && decide (path ≠ root))
    (by simp [Occupied])

/-- The filesystem call that comes next: of `create_deployment_dir` the first, of
`extract_and_place` the six after it, of `delete_deployment_dir` the last three. `discard` is the
`remove_dir_all` after a failure. -/
inductive Task where
  | createDir
  | clearStaging
  | makeStaging
  | openZip
  | unpack
  | place
  | discard
  | makeTmp
  | moveAway
  | removeStaging
  deriving DecidableEq

def Task.isDelete : Task → Bool
  | makeTmp | moveAway | removeStaging => true
  | createDir | clearStaging | makeStaging | openZip | unpack | place | discard => false

/-- The call goes on with another filesystem call, or returns `Ok` or an error. -/
inductive Outcome where
  | goesOn (task : Task) (tree : FileTree String)
  | returns (ok : Bool) (tree : FileTree String)

def Outcome.tree : Outcome → FileTree String
  | goesOn _ tree => tree
  | returns _ tree => tree

section Calls

variable (tree : FileTree String) (id : Uuid)

def work : Task → Outcome
  | .createDir => .returns true (tree.add [deploymentDir id])
  | .clearStaging => .goesOn .makeStaging (tree.removeBelow (uploadStagingDir id) [])
  | .makeStaging => .goesOn .openZip (tree.add [uploadStagingDir id])
  | .openZip => .goesOn .unpack tree
  | .unpack => .goesOn .place tree
  | .place =>
      if tree.Has (uploadStagingDir id) ∧ tree.Has (deploymentDir id) ∧
          ¬ Occupied tree (deploymentFilesDir id) then
        .returns true (tree.move (uploadStagingDir id) (deploymentFilesDir id))
      else .goesOn .discard tree
  | .discard => .returns false (tree.removeBelow (uploadStagingDir id) [])
  | .makeTmp => .goesOn .moveAway (tree.add [tmpDir])
  | .moveAway =>
      -- `NotFound`, of the directory or of `tmp`, counts as success
      if ¬ tree.Has (deploymentDir id) ∨ ¬ tree.Has tmpDir then .returns true tree
      else if Occupied tree (deletedDir id) then .returns false tree
      else .goesOn .removeStaging (tree.move (deploymentDir id) (deletedDir id))
  | .removeStaging =>
      if tree.Has (deletedDir id) then .returns true (tree.removeBelow (deletedDir id) [])
      else .returns false tree

def fail : Task → Outcome
  | .clearStaging => .goesOn .makeStaging tree
  | .unpack | .place => .goesOn .discard tree
  | .createDir | .makeStaging | .openZip | .discard | .makeTmp | .moveAway | .removeStaging =>
      .returns false tree

/-- An unpacked zip has these paths in it so far, and a removal has left these alone. -/
def workPart (paths : List Path) : Task → Option Outcome
  | .createDir => some (.goesOn .createDir (tree.add [deploymentsDir]))
  | .makeStaging => some (.goesOn .makeStaging (tree.add [tmpDir]))
  | .unpack => some (.goesOn .unpack (tree.add (paths.map fun path => uploadStagingDir id ++ path)))
  | .clearStaging => some (.goesOn .clearStaging (tree.removeBelow (uploadStagingDir id) paths))
  | .discard => some (.goesOn .discard (tree.removeBelow (uploadStagingDir id) paths))
  | .removeStaging => some (.goesOn .removeStaging (tree.removeBelow (deletedDir id) paths))
  | .openZip | .place | .makeTmp | .moveAway => none

end Calls

structure Job where
  id : Uuid
  task : Task
  deriving DecidableEq

/-- The calls that run, by their numbers, and the deployment whose `delete_deployment_dir` has
returned `Ok` in the last step. -/
structure State where
  tree : FileTree String
  jobs : List (Nat × Job)
  deleted : Option Uuid

/-- A filesystem call works, fails, or does a part of its work. -/
inductive Event where
  | create (n : Nat) (id : Uuid)
  | extract (n : Nat) (id : Uuid)
  | delete (n : Nat) (id : Uuid)
  | works (n : Nat)
  | fails (n : Nat)
  | part (n : Nat) (paths : List Path)
  | crash
  deriving DecidableEq

namespace State

variable (x : State)

def job (n : Nat) : Option Job := (x.jobs.find? fun entry => entry.1 = n).map Prod.snd

def without (n : Nat) : List (Nat × Job) := x.jobs.filter fun entry => entry.1 ≠ n

/-- What a call of a number has come to. -/
def settle (n : Nat) (job : Job) : Outcome → State
  | .goesOn task tree => ⟨tree, (n, ⟨job.id, task⟩) :: x.without n, none⟩
  | .returns ok tree =>
      ⟨tree, x.without n, if ok && job.task.isDelete then some job.id else none⟩

/-- A call begins under a number that no other has. -/
def begin (n : Nat) (job : Job) : Option State :=
  if x.job n = none then some ⟨x.tree, (n, job) :: x.jobs, none⟩ else none

def step : Event → Option State
  | .create n id => x.begin n ⟨id, .createDir⟩
  | .extract n id => x.begin n ⟨id, .clearStaging⟩
  | .delete n id => x.begin n ⟨id, .makeTmp⟩
  | .works n => (x.job n).map fun job => x.settle n job (work x.tree job.id job.task)
  | .fails n => (x.job n).map fun job => x.settle n job (fail x.tree job.task)
  | .part n paths => (x.job n).bind fun job =>
      (workPart x.tree job.id paths job.task).map (x.settle n job)
  | .crash => some ⟨x.tree, [], none⟩

end State

abbrev machine : Machine State Event where
  initial := fun x => ∃ tree, x = ⟨tree, [], none⟩
  step := State.step

/-- No file of the deployment is left. -/
structure Clean (tree : FileTree String) (id : Uuid) : Prop where
  deployment : ¬ Occupied tree (deploymentDir id)
  staging : ¬ Occupied tree (uploadStagingDir id)
  deleted : ¬ Occupied tree (deletedDir id)

/-- A deletion begins when no upload and no other deletion of the deployment runs and none has left
anything in `tmp`, unless it is bound to fail because both directories are there; and no upload of
the deployment begins while it runs. -/
def Undisturbed (x : State) : Event → Prop
  | .extract _ id => ∀ entry ∈ x.jobs, entry.2.id = id → entry.2.task.isDelete = false
  | .delete _ id =>
      (∀ entry ∈ x.jobs, entry.2.id = id → entry.2.task = .createDir) ∧
        ¬ Occupied x.tree (uploadStagingDir id) ∧
        (¬ Occupied x.tree (deletedDir id) ∨ x.tree.Has (deploymentDir id))
  | .create _ _ | .works _ | .fails _ | .part _ _ | .crash => True

instance (x : State) (event : Event) : Decidable (Undisturbed x event) :=
  match event with
  | .extract _ _ | .delete _ _ => by
      unfold Undisturbed
      infer_instance
  | .create _ _ | .works _ | .fails _ | .part _ _ | .crash => isTrue trivial

variable {x y : State} {event : Event} {n m : Nat} {id other : Uuid} {task : Task} {job : Job}
variable {tree after : FileTree String} {path root source target : Path}

/-! Whose a path is. -/

def roots (id : Uuid) : List Path := [deploymentDir id, uploadStagingDir id, deletedDir id]

/-- The path lies in one of the deployment's directories. -/
def Owns (id : Uuid) (path : Path) : Prop := ∃ root ∈ roots id, root <+: path

theorem length_root (isRoot : root ∈ roots id) : root.length = 2 := by
  simp only [roots, List.mem_cons, List.not_mem_nil, or_false] at isRoot
  rcases isRoot with rfl | rfl | rfl <;> rfl

theorem Owns.length (owns : Owns id path) : 2 ≤ path.length := by
  obtain ⟨root, isRoot, lies⟩ := owns
  have shorter := lies.length_le
  rwa [length_root isRoot] at shorter

theorem Owns.mono (owns : Owns id path) (lies : path <+: target) : Owns id target := by
  obtain ⟨root, isRoot, inside⟩ := owns
  exact ⟨root, isRoot, inside.trans lies⟩

theorem append_left_inj {lead first second : String} (same : lead ++ first = lead ++ second) :
    first = second := by
  rw [← String.toList_inj, String.toList_append, String.toList_append] at same
  exact String.toList_inj.1 (List.append_cancel_left same)

theorem upload_ne_deleted (first second : String) :
    "upload-" ++ first ≠ "deleted-deployment-" ++ second := by
  intro same
  have chars := congrArg String.toList same
  simp at chars

theorem staging_ne_deleted : uploadStagingDir id ≠ deletedDir other := by
  simp [uploadStagingDir, deletedDir, upload_ne_deleted]

theorem roots_inj (isRoot : root ∈ roots id) (isOther : root ∈ roots other) : id = other := by
  simp only [roots, List.mem_cons, List.not_mem_nil, or_false] at isRoot isOther
  rcases isRoot with rfl | rfl | rfl <;> rcases isOther with same | same | same
  · simp only [deploymentDir, deploymentsDir, List.cons_append, List.nil_append, List.cons.injEq,
      and_true, true_and] at same
    exact Uuid.toString_injective same
  · simp [deploymentDir, deploymentsDir, uploadStagingDir, tmpDir] at same
  · simp [deploymentDir, deploymentsDir, deletedDir, tmpDir] at same
  · simp [deploymentDir, deploymentsDir, uploadStagingDir, tmpDir] at same
  · simp only [uploadStagingDir, tmpDir, List.cons_append, List.nil_append, List.cons.injEq,
      and_true, true_and] at same
    exact Uuid.toString_injective (append_left_inj same)
  · exact absurd same staging_ne_deleted
  · simp [deploymentDir, deploymentsDir, deletedDir, tmpDir] at same
  · exact absurd same.symm staging_ne_deleted
  · simp only [deletedDir, tmpDir, List.cons_append, List.nil_append, List.cons.injEq,
      and_true, true_and] at same
    exact Uuid.toString_injective (append_left_inj same)

theorem root_unique (isRoot : root ∈ roots id) (isTarget : target ∈ roots other)
    (lies : root <+: path) (lies' : target <+: path) : root = target := by
  have length : root.length = target.length := by rw [length_root isRoot, length_root isTarget]
  exact (List.prefix_of_prefix_length_le lies lies' length.le).eq_of_length length

theorem Owns.unique (owns : Owns id path) (owns' : Owns other path) : id = other := by
  obtain ⟨root, isRoot, lies⟩ := owns
  obtain ⟨root', isRoot', lies'⟩ := owns'
  rw [← root_unique isRoot isRoot' lies lies'] at isRoot'
  exact roots_inj isRoot isRoot'

/-- What a call of one deployment can do to the directory. -/
inductive Change (id : Uuid) (tree : FileTree String) : FileTree String → Prop
  | same : Change id tree tree
  | adds {paths : List Path} (own : ∀ path ∈ paths, Owns id path ∨ path.length ≤ 1) :
      Change id tree (tree.add paths)
  | removes {root : Path} {kept : List Path} (own : Owns id root) :
      Change id tree (tree.removeBelow root kept)
  | moves {source target : Path} (own : Owns id source) (own' : Owns id target) :
      Change id tree (tree.move source target)

/-- It leaves the directories of the others alone. -/
theorem Change.apart (change : Change id tree after) (different : id ≠ other) (owns : Owns other path) :
    after.Has path ↔ tree.Has path := by
  cases change with
  | same => exact Iff.rfl
  | adds own =>
      rw [FileTree.has_add, or_iff_right]
      rintro ⟨whole, member, lies⟩
      rcases own whole member with mine | short
      · exact different (mine.unique (owns.mono lies))
      · have longer := owns.length
        have shorter := lies.length_le
        omega
  | removes own =>
      rw [FileTree.has_removeBelow, and_iff_left_iff_imp]
      exact fun _ => .inl fun lies => different ((own.mono lies).unique owns)
  | moves own own' =>
      rw [FileTree.has_move]
      constructor
      · rintro (lies | ⟨has, _⟩ | ⟨rest, rfl, _⟩)
        · exact absurd (own'.unique (owns.mono lies)) different
        · exact has
        · exact absurd ((own'.mono (List.prefix_append _ _)).unique owns) different
      · exact fun has => .inr (.inl ⟨has, fun lies => different ((own.mono lies).unique owns)⟩)

/-- It leaves `tmp` itself alone. -/
theorem Change.tmp (change : Change id tree after) (has : tree.Has tmpDir) : after.Has tmpDir := by
  have short {root : Path} (own : Owns id root) : ¬ root <+: tmpDir := by
    intro lies
    have longer := own.length
    have shorter := lies.length_le
    have one : tmpDir.length = 1 := rfl
    omega
  cases change with
  | same => exact has
  | adds own => exact FileTree.has_add.2 (.inr has)
  | removes own => exact FileTree.has_removeBelow.2 ⟨has, .inl (short own)⟩
  | moves own own' => exact FileTree.has_move.2 (.inr (.inl ⟨has, short own⟩))

theorem occupied_iff : Occupied tree root ↔ ∃ rest, rest ≠ [] ∧ tree.Has (root ++ rest) := by
  constructor
  · rintro ⟨path, member, ⟨rest, rfl⟩, proper⟩
    exact ⟨rest, by rintro rfl; simp at proper, member⟩
  · rintro ⟨rest, nonempty, has⟩
    exact ⟨root ++ rest, has, List.prefix_append _ _, by simpa using nonempty⟩

theorem owns_deployment : Owns id (deploymentDir id) :=
  ⟨deploymentDir id, by simp [roots], List.prefix_rfl⟩

theorem owns_staging : Owns id (uploadStagingDir id) :=
  ⟨uploadStagingDir id, by simp [roots], List.prefix_rfl⟩

theorem owns_deleted : Owns id (deletedDir id) := ⟨deletedDir id, by simp [roots], List.prefix_rfl⟩

theorem Change.occupied (change : Change id tree after) (different : id ≠ other)
    (owns : Owns other root) : Occupied after root ↔ Occupied tree root := by
  rw [occupied_iff, occupied_iff]
  refine exists_congr fun rest => and_congr_right fun _ => ?_
  exact change.apart different (owns.mono (List.prefix_append _ _))

/-! Each filesystem call makes such a change. -/

theorem change_work : Change id tree (work tree id task).tree := by
  cases task with
  | createDir => exact .adds (by simp [owns_deployment])
  | clearStaging | discard => exact .removes owns_staging
  | makeStaging => exact .adds (by simp [owns_staging])
  | openZip | unpack => exact .same
  | place =>
      simp only [work]
      split
      · exact .moves owns_staging (owns_deployment.mono (List.prefix_append _ _))
      · exact .same
  | makeTmp => exact .adds (by simp [tmpDir])
  | moveAway =>
      simp only [work]
      split
      · exact .same
      · split
        · exact .same
        · exact .moves owns_deployment owns_deleted
  | removeStaging =>
      simp only [work]
      split
      · exact .removes owns_deleted
      · exact .same

theorem change_fail : Change id tree (fail tree task).tree := by
  cases task <;> exact .same

theorem change_workPart {paths : List Path} {outcome : Outcome}
    (worked : workPart tree id paths task = some outcome) : Change id tree outcome.tree := by
  cases task with
  | createDir =>
      cases worked
      exact .adds (by simp [deploymentsDir])
  | makeStaging =>
      cases worked
      exact .adds (by simp [tmpDir])
  | unpack =>
      cases worked
      refine .adds fun path member => .inl ?_
      obtain ⟨rest, _, rfl⟩ := List.mem_map.1 member
      exact owns_staging.mono (List.prefix_append _ _)
  | clearStaging | discard =>
      cases worked
      exact .removes owns_staging
  | removeStaging =>
      cases worked
      exact .removes owns_deleted
  | openZip | place | makeTmp | moveAway => cases worked

/-! What becomes of the directories of a deployment. -/

theorem isRoot_deployment : deploymentDir id ∈ roots id := by simp [roots]

theorem isRoot_staging : uploadStagingDir id ∈ roots id := by simp [roots]

theorem isRoot_deleted : deletedDir id ∈ roots id := by simp [roots]

theorem occupied_add {paths : List Path} (isRoot : root ∈ roots id)
    (short : ∀ path ∈ paths, path.length ≤ 2) (occupied : Occupied (tree.add paths) root) :
    Occupied tree root := by
  obtain ⟨rest, nonempty, has⟩ := occupied_iff.1 occupied
  rcases FileTree.has_add.1 has with ⟨whole, member, lies⟩ | has
  · have longer := lies.length_le
    have bound := short whole member
    have two := length_root isRoot
    have pos : 0 < rest.length := List.length_pos_of_ne_nil nonempty
    rw [List.length_append] at longer
    omega
  · exact occupied_iff.2 ⟨rest, nonempty, has⟩

theorem occupied_removeBelow {kept : List Path}
    (occupied : Occupied (tree.removeBelow target kept) root) : Occupied tree root := by
  obtain ⟨rest, nonempty, has⟩ := occupied_iff.1 occupied
  exact occupied_iff.2 ⟨rest, nonempty, (FileTree.has_removeBelow.1 has).1⟩

theorem not_occupied_removed : ¬ Occupied (tree.removeBelow root []) root := by
  intro occupied
  obtain ⟨rest, _, has⟩ := occupied_iff.1 occupied
  rcases (FileTree.has_removeBelow.1 has).2 with outside | ⟨_, kept, _⟩
  · exact outside (List.prefix_append _ _)
  · cases kept

/-- What lies in another directory after a move lay there before, and not in the source. -/
theorem occupied_move (isRoot : root ∈ roots id) (isTarget : target ∈ roots other)
    (different : root ≠ target) (occupied : Occupied (tree.move source target) root) :
    Occupied tree root ∧ ¬ source <+: root := by
  obtain ⟨rest, nonempty, has⟩ := occupied_iff.1 occupied
  rcases FileTree.has_move.1 has with lies | ⟨has, outside⟩ | ⟨moved, same, _⟩
  · exact absurd (root_unique isRoot isTarget ((List.prefix_append _ _).trans lies) List.prefix_rfl)
      different
  · exact ⟨occupied_iff.2 ⟨rest, nonempty, has⟩,
      fun lies => outside (lies.trans (List.prefix_append _ _))⟩
  · exact absurd (root_unique isRoot isTarget ⟨rest, rfl⟩ ⟨moved, same.symm⟩) different

theorem deployment_ne_deleted : deploymentDir id ≠ deletedDir other := by
  simp [deploymentDir, deploymentsDir, deletedDir, tmpDir]

/-- What a deletion can rely on before its next filesystem call. -/
structure Ready (tree : FileTree String) (id : Uuid) (task : Task) : Prop where
  staging : ¬ Occupied tree (uploadStagingDir id)
  before : task ≠ .removeStaging →
    ¬ Occupied tree (deletedDir id) ∨ tree.Has (deploymentDir id)
  tmp : task = .moveAway → tree.Has tmpDir
  moved : task = .removeStaging → ¬ Occupied tree (deploymentDir id)

/-- What a call leads to: it is of the same kind as before, a deletion is ready again, and one that
returns `Ok` has left nothing. -/
def Outcome.Fine (id : Uuid) (task : Task) : Outcome → Prop
  | .goesOn next after =>
      (next.isDelete = true → task.isDelete = true ∧ Ready after id next) ∧
        (task = .createDir → next = .createDir)
  | .returns ok after => ok = true → task.isDelete = true → Clean after id

theorem Ready.moveAway (ready : Ready tree id .moveAway) : (work tree id .moveAway).Fine id .moveAway := by
  simp only [work]
  split
  · rename_i missing
    intro _ _
    have absent : ¬ tree.Has (deploymentDir id) :=
      missing.elim (fun absent => absent) (absurd (ready.tmp rfl))
    constructor
    · intro occupied
      obtain ⟨rest, _, has⟩ := occupied_iff.1 occupied
      exact absent (has.front (List.prefix_append _ _))
    · exact ready.staging
    · exact (ready.before (by decide)).resolve_right absent
  · split
    · intro ok
      cases ok
    · refine ⟨fun _ => ⟨rfl, ?_, ?_, ?_, ?_⟩, fun isCreate => by cases isCreate⟩
      · exact fun occupied => ready.staging
          (occupied_move isRoot_staging isRoot_deleted staging_ne_deleted occupied).1
      · exact fun other => absurd rfl other
      · intro isMove
        cases isMove
      · exact fun _ occupied =>
          (occupied_move isRoot_deployment isRoot_deleted deployment_ne_deleted occupied).2
            List.prefix_rfl

theorem Ready.removeStaging (ready : Ready tree id .removeStaging) :
    (work tree id .removeStaging).Fine id .removeStaging := by
  simp only [work]
  split
  · intro _ _
    constructor
    · exact fun occupied => ready.moved rfl (occupied_removeBelow occupied)
    · exact fun occupied => ready.staging (occupied_removeBelow occupied)
    · exact not_occupied_removed
  · intro ok
    cases ok

theorem Ready.makeTmp (ready : Ready tree id .makeTmp) : (work tree id .makeTmp).Fine id .makeTmp := by
  have short : ∀ path ∈ [tmpDir], path.length ≤ 2 := by simp [tmpDir]
  refine ⟨fun _ => ⟨rfl, ?_, ?_, ?_, ?_⟩, fun isCreate => by cases isCreate⟩
  · exact fun occupied => ready.staging (occupied_add isRoot_staging short occupied)
  · intro _
    refine (ready.before (by decide)).imp ?_ ?_
    · exact fun empty occupied => empty (occupied_add isRoot_deleted short occupied)
    · exact fun has => FileTree.has_add.2 (.inr has)
  · exact fun _ => FileTree.has_add.2 (.inl ⟨tmpDir, by simp, List.prefix_rfl⟩)
  · intro isRemove
    cases isRemove

theorem fine_work (ready : task.isDelete = true → Ready tree id task) :
    (work tree id task).Fine id task := by
  cases task with
  | makeTmp => exact (ready rfl).makeTmp
  | moveAway => exact (ready rfl).moveAway
  | removeStaging => exact (ready rfl).removeStaging
  | place =>
      simp only [work]
      split <;> simp [Outcome.Fine, Task.isDelete]
  | createDir | clearStaging | makeStaging | openZip | unpack | discard =>
      simp [work, Outcome.Fine, Task.isDelete]

theorem fine_fail : (fail tree task).Fine id task := by
  cases task <;> simp [fail, Outcome.Fine, Task.isDelete]

theorem fine_workPart {paths : List Path} {outcome : Outcome}
    (ready : task.isDelete = true → Ready tree id task)
    (worked : workPart tree id paths task = some outcome) : outcome.Fine id task := by
  cases task with
  | removeStaging =>
      cases worked
      have ready := ready rfl
      refine ⟨fun _ => ⟨rfl, ?_, ?_, ?_, ?_⟩, fun isCreate => by cases isCreate⟩
      · exact fun occupied => ready.staging (occupied_removeBelow occupied)
      · exact fun other => absurd rfl other
      · intro isMove
        cases isMove
      · exact fun _ occupied => ready.moved rfl (occupied_removeBelow occupied)
  | createDir | clearStaging | makeStaging | unpack | discard =>
      cases worked
      simp [Outcome.Fine, Task.isDelete]
  | openZip | place | makeTmp | moveAway => cases worked

/-- What others do to the directory leaves a deletion ready. -/
structure Gentle (id : Uuid) (tree after : FileTree String) : Prop where
  occupied : ∀ root ∈ roots id, Occupied after root → Occupied tree root
  deployment : tree.Has (deploymentDir id) → after.Has (deploymentDir id)
  tmp : tree.Has tmpDir → after.Has tmpDir

theorem Ready.gentle (ready : Ready tree id task) (gentle : Gentle id tree after) :
    Ready after id task := by
  constructor
  · exact fun occupied => ready.staging (gentle.occupied _ isRoot_staging occupied)
  · intro notRemove
    refine (ready.before notRemove).imp ?_ gentle.deployment
    exact fun empty occupied => empty (gentle.occupied _ isRoot_deleted occupied)
  · exact fun isMove => gentle.tmp (ready.tmp isMove)
  · exact fun isRemove occupied =>
      ready.moved isRemove (gentle.occupied _ isRoot_deployment occupied)

theorem Change.gentle (change : Change id tree after) (different : id ≠ other) :
    Gentle other tree after := by
  constructor
  · exact fun root isRoot =>
      (change.occupied different ⟨root, isRoot, List.prefix_rfl⟩).1
  · exact (change.apart different owns_deployment).2
  · exact change.tmp

theorem gentle_add {paths : List Path} (short : ∀ path ∈ paths, path.length ≤ 2) :
    Gentle id tree (tree.add paths) := by
  constructor
  · exact fun root isRoot occupied => occupied_add isRoot short occupied
  · exact fun has => FileTree.has_add.2 (.inr has)
  · exact fun has => FileTree.has_add.2 (.inr has)

theorem gentle_same : Gentle id tree tree :=
  ⟨fun _ _ occupied => occupied, fun has => has, fun has => has⟩

/-- What a filesystem call can come to. -/
structure Comes (tree : FileTree String) (job : Job) (outcome : Outcome) : Prop where
  change : Change job.id tree outcome.tree
  gentle : job.task = .createDir → Gentle job.id tree outcome.tree
  fine : (job.task.isDelete = true → Ready tree job.id job.task) → outcome.Fine job.id job.task

theorem comes_work : Comes tree job (work tree job.id job.task) := by
  refine ⟨change_work, fun isCreate => ?_, fine_work⟩
  rw [isCreate]
  exact gentle_add (by simp [deploymentDir, deploymentsDir])

theorem comes_fail : Comes tree job (fail tree job.task) := by
  refine ⟨change_fail, fun isCreate => ?_, fun _ => fine_fail⟩
  rw [isCreate]
  exact gentle_same

theorem comes_workPart {paths : List Path} {outcome : Outcome}
    (worked : workPart tree job.id paths job.task = some outcome) : Comes tree job outcome := by
  refine ⟨change_workPart worked, fun isCreate => ?_, fun ready => fine_workPart ready worked⟩
  rw [isCreate] at worked
  cases worked
  exact gentle_add (by simp [deploymentsDir])

theorem job_mem (found : x.job n = some job) : (n, job) ∈ x.jobs := by
  obtain ⟨entry, first, rfl⟩ := Option.map_eq_some_iff.1 found
  have number : entry.1 = n := by simpa using List.find?_some first
  rw [← number]
  exact List.mem_of_find?_eq_some first

/-- What a step does to the calls. -/
inductive Moved (x : State) (event : Event) (y : State) : Prop
  | begins (n : Nat) (job : Job) (started : y = ⟨x.tree, (n, job) :: x.jobs, none⟩)
      (kind : event = .create n job.id ∧ job.task = .createDir ∨
        event = .extract n job.id ∧ job.task = .clearStaging ∨
        event = .delete n job.id ∧ job.task = .makeTmp)
  | settles (n : Nat) (job : Job) (outcome : Outcome) (runs : (n, job) ∈ x.jobs)
      (comes : Comes x.tree job outcome) (settled : y = x.settle n job outcome)
  | crashes (crashed : y = ⟨x.tree, [], none⟩)

theorem begin_eq (begun : x.begin n job = some y) : y = ⟨x.tree, (n, job) :: x.jobs, none⟩ := by
  unfold State.begin at begun
  split at begun
  · exact (Option.some.inj begun).symm
  · cases begun

theorem step_moved (stepped : x.step event = some y) : Moved x event y := by
  cases event with
  | create n id => exact .begins n _ (begin_eq stepped) (.inl ⟨rfl, rfl⟩)
  | extract n id => exact .begins n _ (begin_eq stepped) (.inr (.inl ⟨rfl, rfl⟩))
  | delete n id => exact .begins n _ (begin_eq stepped) (.inr (.inr ⟨rfl, rfl⟩))
  | works n =>
      obtain ⟨job, found, rfl⟩ := Option.map_eq_some_iff.1 stepped
      exact .settles n job _ (job_mem found) comes_work rfl
  | fails n =>
      obtain ⟨job, found, rfl⟩ := Option.map_eq_some_iff.1 stepped
      exact .settles n job _ (job_mem found) comes_fail rfl
  | part n paths =>
      obtain ⟨job, found, settled⟩ := Option.bind_eq_some_iff.1 stepped
      obtain ⟨outcome, worked, rfl⟩ := Option.map_eq_some_iff.1 settled
      exact .settles n job outcome (job_mem found) (comes_workPart worked) rfl
  | crash =>
      cases stepped
      exact .crashes rfl

/-- A deletion runs alone but for `create_deployment_dir`, and is ready; and a deployment is clean
when its deletion has just returned `Ok`. -/
structure Sound (x : State) : Prop where
  alone : ∀ n job m rival, (n, job) ∈ x.jobs → job.task.isDelete = true → (m, rival) ∈ x.jobs →
    rival.id = job.id → m = n ∨ rival.task = .createDir
  ready : ∀ n job, (n, job) ∈ x.jobs → job.task.isDelete = true → Ready x.tree job.id job.task
  clean : ∀ id, x.deleted = some id → Clean x.tree id

theorem Sound.begins (sound : Sound x) (kind : event = .create n job.id ∧ job.task = .createDir ∨
      event = .extract n job.id ∧ job.task = .clearStaging ∨
      event = .delete n job.id ∧ job.task = .makeTmp) (undisturbed : Undisturbed x event) :
    Sound ⟨x.tree, (n, job) :: x.jobs, none⟩ := by
  -- beside a deletion of its deployment, the new call is a `create_deployment_dir`
  have besides : ∀ m running, (m, running) ∈ x.jobs → running.task.isDelete = true →
      job.id = running.id → job.task = .createDir := by
    intro m running member isDelete same
    rcases kind with ⟨_, isCreate⟩ | ⟨rfl, _⟩ | ⟨rfl, _⟩
    · exact isCreate
    · rw [undisturbed (m, running) member same.symm] at isDelete
      cases isDelete
    · have isCreate : running.task = .createDir := undisturbed.1 (m, running) member same.symm
      rw [isCreate] at isDelete
      cases isDelete
  have starts (isDelete : job.task.isDelete = true) : event = .delete n job.id ∧ job.task = .makeTmp := by
    rcases kind with ⟨_, isCreate⟩ | ⟨_, isClear⟩ | starts
    · rw [isCreate] at isDelete
      cases isDelete
    · rw [isClear] at isDelete
      cases isDelete
    · exact starts
  constructor
  · intro k running m rival member isDelete rivals same
    rcases List.mem_cons.1 member with isNew | member <;>
      rcases List.mem_cons.1 rivals with isRival | rivals
    · cases isNew
      cases isRival
      exact .inl rfl
    · cases isNew
      obtain ⟨rfl, _⟩ := starts isDelete
      exact .inr (undisturbed.1 (m, rival) rivals same)
    · cases isRival
      exact .inr (besides k running member isDelete same)
    · exact sound.alone k running m rival member isDelete rivals same
  · intro k running member isDelete
    rcases List.mem_cons.1 member with isNew | member
    · cases isNew
      obtain ⟨rfl, isMake⟩ := starts isDelete
      rw [isMake]
      refine ⟨undisturbed.2.1, fun _ => undisturbed.2.2, ?_, ?_⟩
      · intro isMove
        cases isMove
      · intro isRemove
        cases isRemove
    · exact sound.ready k running member isDelete
  · intro id returned
    cases returned

theorem mem_without {entry : Nat × Job} : entry ∈ x.without n ↔ entry ∈ x.jobs ∧ entry.1 ≠ n := by
  simp [State.without]

/-- A call that goes on beside the one that has moved. -/
theorem Sound.beside {outcome : Outcome} (sound : Sound x) (runs : (n, job) ∈ x.jobs)
    (comes : Comes x.tree job outcome) {running : Job} (member : (m, running) ∈ x.jobs)
    (other : m ≠ n) (isDelete : running.task.isDelete = true) :
    Ready outcome.tree running.id running.task ∧
      (job.id = running.id → job.task = .createDir) := by
  have isCreate (same : job.id = running.id) : job.task = .createDir :=
    (sound.alone m running n job member isDelete runs same).resolve_left other.symm
  refine ⟨?_, isCreate⟩
  by_cases same : job.id = running.id
  · refine (sound.ready m running member isDelete).gentle ?_
    rw [← same]
    exact comes.gentle (isCreate same)
  · exact (sound.ready m running member isDelete).gentle (comes.change.gentle same)

theorem Sound.settles {outcome : Outcome} (sound : Sound x) (runs : (n, job) ∈ x.jobs)
    (comes : Comes x.tree job outcome) : Sound (x.settle n job outcome) := by
  have fine := comes.fine (sound.ready n job runs)
  cases outcome with
  | goesOn next after =>
      constructor
      · intro k running m rival member isDelete rivals same
        rcases List.mem_cons.1 member with isNew | member <;>
          rcases List.mem_cons.1 rivals with isRival | rivals
        · cases isNew
          cases isRival
          exact .inl rfl
        · cases isNew
          exact sound.alone n job m rival runs (fine.1 isDelete).1 (mem_without.1 rivals).1 same
        · cases isRival
          obtain ⟨member, other⟩ := mem_without.1 member
          exact .inr (fine.2 ((sound.beside runs comes member other isDelete).2 same))
        · exact sound.alone k running m rival (mem_without.1 member).1 isDelete
            (mem_without.1 rivals).1 same
      · intro k running member isDelete
        rcases List.mem_cons.1 member with isNew | member
        · cases isNew
          exact (fine.1 isDelete).2
        · obtain ⟨member, other⟩ := mem_without.1 member
          exact (sound.beside runs comes member other isDelete).1
      · intro id returned
        cases returned
  | returns ok after =>
      constructor
      · exact fun k running m rival member isDelete rivals =>
          sound.alone k running m rival (mem_without.1 member).1 isDelete (mem_without.1 rivals).1
      · intro k running member isDelete
        obtain ⟨member, other⟩ := mem_without.1 member
        exact (sound.beside runs comes member other isDelete).1
      · intro id returned
        simp only [State.settle] at returned
        split at returned
        · rename_i isOk
          cases returned
          obtain ⟨isOk, isDelete⟩ := Bool.and_eq_true_iff.1 isOk
          exact fine isOk isDelete
        · cases returned

theorem sound_of_reachable (reachable : machine.ReachableBy Undisturbed x) : Sound x := by
  apply reachable.invariant Sound
  · rintro _ ⟨tree, rfl⟩
    constructor <;> simp
  · intro x event y sound stepped undisturbed
    cases step_moved stepped with
    | begins n job started kind =>
        rw [started]
        exact sound.begins kind undisturbed
    | settles n job outcome runs comes settled =>
        rw [settled]
        exact sound.settles runs comes
    | crashes crashed =>
        rw [crashed]
        constructor <;> simp

def someId : Uuid := .repeated 7

/-- A deployment is created, gets its files, and is about to be deleted. -/
def uploads : List Event :=
  [.create 0 someId, .works 0, .extract 1 someId, .works 1, .works 1, .works 1,
    .part 1 [["index.html"]], .works 1, .works 1, .delete 2 someId, .works 2, .works 2]

/-- The agent goes down before it has removed what it has moved to `tmp`, and deletes again. -/
def deletesAgain : List Event := [.crash, .delete 3 someId, .works 3, .works 3]

end Berth.AgentFs
