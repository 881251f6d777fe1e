import Mathlib.Logic.Function.Basic
import Mathlib.Data.List.Infix
import Berth.Interleave.Alone

/-!
Directories and regular files by their paths, and what the operating system does to them when a
program makes directories, opens files and writes to them. Each of its operations may fail, and may
have done a part of its work by then.
-/

inductive Node (α : Type) where
  | dir
  | file (content : List α)
  deriving DecidableEq

def Node.isDir {α : Type} : Node α → Bool
  | dir => true
  | file _ => false

/-- Whatever exists lies in directories that exist. -/
structure Volume (ν α : Type) where
  node : List ν → Option (Node α)
  root : node [] = some .dir
  closed : ∀ path front, node path ≠ none → front <+: path → front ≠ path → node front = some .dir

namespace Volume

variable {ν α : Type} [DecidableEq ν] (volume : Volume ν α) (path : List ν)

/-- No file is in the way of the directory and the ones it lies in. -/
def Passable : Prop := ∀ front ∈ path.inits, (volume.node front).all Node.isDir = true

instance : Decidable (volume.Passable path) :=
  inferInstanceAs (Decidable (∀ _ ∈ _, _))

variable {volume path}

omit [DecidableEq ν] in
theorem Passable.dir {front : List ν} (passable : volume.Passable path) (lies : front <+: path)
    {node : Node α} (found : volume.node front = some node) : node = .dir := by
  have isDir := passable front ((List.mem_inits _ _).2 lies)
  rw [found] at isDir
  cases node with
  | dir => rfl
  | file content => cases isDir

omit [DecidableEq ν] in
theorem Passable.front {front : List ν} (passable : volume.Passable path) (lies : front <+: path) :
    volume.Passable front := by
  intro other member
  exact passable other ((List.mem_inits _ _).2 (((List.mem_inits _ _).1 member).trans lies))

variable (volume path)

/-- The directory and the ones it lies in exist. -/
def withDirs (passable : volume.Passable path) : Volume ν α where
  node := fun other => if other <+: path then some .dir else volume.node other
  root := if_pos List.nil_prefix
  closed := by
    intro other front found lies different
    by_cases above : other <+: path
    · rw [if_pos (lies.trans above)]
    · rw [if_neg above] at found
      by_cases within : front <+: path
      · rw [if_pos within]
      · rw [if_neg within]
        exact volume.closed other front found lies different

/-- A file of this content stands at the path. -/
def withFile (content : List α) (parent : volume.node path.dropLast = some .dir)
    (free : volume.node path ≠ some .dir) : Volume ν α where
  node := Function.update volume.node path (some (.file content))
  root := by
    have below : path ≠ [] := by
      rintro rfl
      exact free volume.root
    rw [Function.update_of_ne below.symm]
    exact volume.root
  closed := by
    have above : ∀ front, front <+: path → front ≠ path → volume.node front = some .dir := by
      intro front lies different
      by_cases whole : front = path.dropLast
      · exact whole ▸ parent
      · refine volume.closed path.dropLast front (parent ▸ nofun) ?_ whole
        refine List.prefix_of_prefix_length_le lies (List.dropLast_prefix path) ?_
        have shorter : front.length < path.length :=
          lies.length_le.lt_of_ne fun same => different (lies.eq_of_length same)
        rw [List.length_dropLast]
        omega
    intro other front found lies different
    by_cases same : other = path
    · subst same
      rw [Function.update_of_ne different]
      exact above front lies different
    · rw [Function.update_of_ne same] at found
      have isDir := volume.closed other front found lies different
      have apart : front ≠ path := by
        rintro rfl
        exact free isDir
      rw [Function.update_of_ne apart]
      exact isDir

variable {volume path}

omit [DecidableEq ν] in
theorem parent_of_file {content : List α} (found : volume.node path = some (.file content)) :
    volume.node path.dropLast = some .dir := by
  have below : path ≠ [] := by
    rintro rfl
    rw [volume.root] at found
    cases found
  refine volume.closed path _ (found ▸ nofun) (List.dropLast_prefix path) fun same => ?_
  have shorter := congrArg List.length same
  rw [List.length_dropLast] at shorter
  have positive := List.length_pos_iff.2 below
  omega

end Volume

/-! The operations. -/

/-- A volume, and how much has been written to its files so far. -/
structure Disk (ν α : Type) where
  volume : Volume ν α
  written : Nat

namespace Disk

inductive Act (ν α : Type) where
  | createDirAll (path : List ν)
  | createFile (path : List ν)
  | write (path : List ν) (data : List α)

abbrev Res {ν α : Type} (_ : Act ν α) : Type := Except String Unit

/-- How an operation fails, with how much of its work it has done. -/
structure Fault where
  done : Nat
  message : String
  deriving DecidableEq

variable {ν α : Type} [DecidableEq ν] [DecidableEq α] (disk : Disk ν α) (path : List ν)

def createDirAll (fault : Option Fault) : Except String Unit × Disk ν α :=
  if passable : disk.volume.Passable path then
    match fault with
    | none => (.ok (), { disk with volume := disk.volume.withDirs path passable })
    | some fault =>
        (.error fault.message, { disk with
          volume := disk.volume.withDirs (path.take fault.done)
            (passable.front (List.take_prefix _ _)) })
  else (.error "Not a directory (os error 20)", disk)

/-- `File::create`: an existing file is truncated. -/
def createFile (fault : Option Fault) : Except String Unit × Disk ν α :=
  match fault with
  | some fault => (.error fault.message, disk)
  | none =>
      if parent : disk.volume.node path.dropLast = some .dir then
        if isDir : disk.volume.node path = some .dir then
          (.error "Is a directory (os error 21)", disk)
        else (.ok (), { disk with volume := disk.volume.withFile path [] parent isDir })
      else (.error "No such file or directory (os error 2)", disk)

/-- Appends to an open file. -/
def append (data : List α) : Disk ν α :=
  match found : disk.volume.node path with
  | some (.file content) =>
      ⟨disk.volume.withFile path (content ++ data) (disk.volume.parent_of_file found)
        (by rw [found]; nofun), disk.written + data.length⟩
  | some .dir | none => disk

def write (data : List α) (fault : Option Fault) : Except String Unit × Disk ν α :=
  match fault with
  | some fault => (.error fault.message, disk.append path (data.take fault.done))
  | none => (.ok (), disk.append path data)

def perform : (action : Act ν α) → Option Fault → Disk ν α → Option (Res action × Disk ν α)
  | .createDirAll path, fault, disk => some (disk.createDirAll path fault)
  | .createFile path, fault, disk => some (disk.createFile path fault)
  | .write path data, fault, disk => some (disk.write path data fault)

/-- The operations, none of which fails for a reason of its own. -/
def works (action : Act ν α) (_ : Unit) (disk : Disk ν α) : Option (Res action × Disk ν α) :=
  perform action none disk

variable {disk path} {after : Disk ν α} {fault : Option Fault} {data content : List α}

omit [DecidableEq α] in
/-- A directory that is made is there with the ones it lies in, and nothing else has changed. -/
theorem createDirAll_ok (made : disk.createDirAll path fault = (.ok (), after)) :
    disk.volume.Passable path ∧ after.written = disk.written ∧
      ∀ other, after.volume.node other =
        if other <+: path then some .dir else disk.volume.node other := by
  simp only [createDirAll] at made
  split at made
  · rename_i passable
    cases fault with
    | none =>
        cases made
        exact ⟨passable, rfl, fun _ => rfl⟩
    | some fault => cases made
  · cases made

omit [DecidableEq α] in
theorem createDirAll_eq (passable : disk.volume.Passable path) :
    ∃ after, disk.createDirAll path none = (.ok (), after) := by
  simp only [createDirAll, dif_pos passable]
  exact ⟨_, rfl⟩

omit [DecidableEq α] in
/-- Only directories on the way to the path can be new. -/
theorem createDirAll_node {result : Except String Unit}
    (ran : disk.createDirAll path fault = (result, after)) (other : List ν) :
    after.volume.node other = disk.volume.node other ∨
      other <+: path ∧ after.volume.node other = some .dir := by
  simp only [createDirAll] at ran
  split at ran
  · cases fault with
    | none =>
        cases ran
        by_cases above : other <+: path
        · exact .inr ⟨above, if_pos above⟩
        · exact .inl (if_neg above)
    | some fault =>
        cases ran
        by_cases above : other <+: path.take fault.done
        · exact .inr ⟨above.trans (List.take_prefix _ _), if_pos above⟩
        · exact .inl (if_neg above)
  · cases ran
    exact .inl rfl

omit [DecidableEq α] in
theorem createDirAll_written {result : Except String Unit}
    (ran : disk.createDirAll path fault = (result, after)) : after.written = disk.written := by
  simp only [createDirAll] at ran
  split at ran
  · cases fault <;> cases ran <;> rfl
  · cases ran
    rfl

theorem createFile_ok (made : disk.createFile path fault = (.ok (), after)) :
    disk.volume.node path.dropLast = some .dir ∧ disk.volume.node path ≠ some .dir ∧
      after.written = disk.written ∧
        after.volume.node = Function.update disk.volume.node path (some (.file [])) := by
  cases fault with
  | some fault => cases made
  | none =>
      simp only [createFile] at made
      split at made
      · rename_i parent
        split at made
        · cases made
        · rename_i free
          cases made
          exact ⟨parent, free, rfl, rfl⟩
      · cases made

theorem createFile_eq (parent : disk.volume.node path.dropLast = some .dir)
    (free : disk.volume.node path ≠ some .dir) :
    ∃ after, disk.createFile path none = (.ok (), after) := by
  simp only [createFile, dif_pos parent, dif_neg free]
  exact ⟨_, rfl⟩

theorem createFile_error {message : String}
    (failed : disk.createFile path fault = (.error message, after)) : after = disk := by
  cases fault with
  | some fault =>
      cases failed
      rfl
  | none =>
      simp only [createFile] at failed
      split at failed
      · split at failed <;> cases failed
        rfl
      · cases failed
        rfl

omit [DecidableEq α] in
theorem append_file (data : List α) (found : disk.volume.node path = some (.file content)) :
    (disk.append path data).written = disk.written + data.length ∧
      (disk.append path data).volume.node =
        Function.update disk.volume.node path (some (.file (content ++ data))) := by
  simp only [append]
  split
  · rename_i other found'
    rw [found'] at found
    cases found
    exact ⟨rfl, rfl⟩
  · rename_i isDir
    rw [isDir] at found
    cases found
  · rename_i absent
    rw [absent] at found
    cases found

/-- Whether the operation can change what is at this path. -/
def Act.Touches (other : List ν) : Act ν α → Prop
  | createDirAll path => other <+: path
  | createFile path | write path _ => other = path

omit [DecidableEq α] in
theorem append_of_no_file (noFile : ∀ content, disk.volume.node path ≠ some (.file content)) :
    disk.append path data = disk := by
  simp only [append]
  split
  · rename_i isFile
    exact absurd isFile (noFile _)
  · rfl
  · rfl

omit [DecidableEq α] in
theorem append_node {other : List ν} (different : other ≠ path) :
    (disk.append path data).volume.node other = disk.volume.node other := by
  by_cases isFile : ∃ content, disk.volume.node path = some (.file content)
  · obtain ⟨content, found⟩ := isFile
    rw [(append_file data found).2]
    exact Function.update_of_ne different _ _
  · rw [append_of_no_file fun content found => isFile ⟨content, found⟩]

omit [DecidableEq α] in
theorem append_dir {other : List ν} (isDir : disk.volume.node other = some .dir) :
    (disk.append path data).volume.node other = some .dir := by
  by_cases same : other = path
  · subst same
    rw [append_of_no_file fun content found => nomatch isDir.symm.trans found]
    exact isDir
  · rw [append_node same]
    exact isDir

variable {action : Act ν α} {result : Except String Unit}

/-- A directory stays one. -/
theorem perform_dir {other : List ν} (performed : perform action fault disk = some (result, after))
    (isDir : disk.volume.node other = some .dir) : after.volume.node other = some .dir := by
  cases action with
  | createDirAll path =>
      rcases createDirAll_node (Option.some.inj performed) other with same | ⟨_, made⟩
      · rw [same]
        exact isDir
      · exact made
  | createFile path =>
      have ran : disk.createFile path fault = (result, after) := Option.some.inj performed
      cases result with
      | error message =>
          cases createFile_error ran
          exact isDir
      | ok _ =>
          obtain ⟨_, free, _, nodes⟩ := createFile_ok ran
          have different : other ≠ path := by
            rintro rfl
            exact free isDir
          rw [nodes, Function.update_of_ne different]
          exact isDir
  | write path data =>
      have ran : disk.write path data fault = (result, after) := Option.some.inj performed
      cases fault with
      | none =>
          cases ran
          exact append_dir isDir
      | some fault =>
          cases ran
          exact append_dir isDir

theorem perform_untouched {other : List ν} (untouched : ¬ action.Touches other)
    (performed : perform action fault disk = some (result, after)) :
    after.volume.node other = disk.volume.node other := by
  cases action with
  | createDirAll path =>
      rcases createDirAll_node (Option.some.inj performed) other with same | ⟨above, _⟩
      · exact same
      · exact absurd above untouched
  | createFile path =>
      have ran : disk.createFile path fault = (result, after) := Option.some.inj performed
      cases result with
      | error message =>
          cases createFile_error ran
          rfl
      | ok _ =>
          obtain ⟨_, _, _, nodes⟩ := createFile_ok ran
          rw [nodes, Function.update_of_ne untouched]
  | write path data =>
      have ran : disk.write path data fault = (result, after) := Option.some.inj performed
      cases fault with
      | none =>
          cases ran
          exact append_node untouched
      | some fault =>
          cases ran
          exact append_node untouched

end Disk
