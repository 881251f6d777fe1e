import Berth.Content.ZipExtract

/-!
What `unpack_zip` writes: where, how much, and what the directory holds in the end.
-/

namespace Berth.ZipExtract

open Interleave

variable {ε : Type} {reports : Reports ε} {enclosedName : String → Option Path}
variable {dest path : Path} {disk after : Disk String UInt8} {archive : Archive} {entry : ZipEntry}
variable {limit : Fin (2 ^ 64)}

/-! The steps. -/

theorem runs_io {action : Act} {outcome : Except ε Unit} :
    Program.Runs Disk.perform (io reports action).run disk outcome after ↔
      ∃ fault result, Disk.perform action fault disk = some (result, after) ∧
        outcome = result.mapError reports.io := by
  refine Program.runs_bind.trans ?_
  constructor
  · rintro ⟨result, between, performed, rfl, rfl⟩
    obtain ⟨fault, performed⟩ := Program.runs_perform.1 performed
    exact ⟨fault, result, performed, rfl⟩
  · rintro ⟨fault, result, performed, rfl⟩
    exact ⟨result, after, Program.runs_perform.2 ⟨fault, performed⟩, rfl, rfl⟩

theorem runs_io_ok {action : Act} :
    Program.Runs Disk.perform (io reports action).run disk (.ok ()) after ↔
      ∃ fault, Disk.perform action fault disk = some (.ok (), after) := by
  rw [runs_io]
  constructor
  · rintro ⟨fault, result, performed, eq⟩
    cases result with
    | ok _ => exact ⟨fault, performed⟩
    | error message => cases eq
  · rintro ⟨fault, performed⟩
    exact ⟨fault, .ok (), performed, rfl⟩

theorem runs_liftExcept_ok {α : Type} {toError : String → ε} {result : Except String α} {value : α} :
    Program.Runs Disk.perform (liftExcept toError result).run disk (.ok value) after ↔
      result = .ok value ∧ after = disk := by
  cases result with
  | ok other =>
      constructor
      · rintro ⟨eq, same⟩
        cases eq
        exact ⟨rfl, same⟩
      · rintro ⟨eq, same⟩
        cases eq
        exact ⟨rfl, same⟩
  | error message =>
      constructor
      · rintro ⟨eq, _⟩
        cases eq
      · rintro ⟨eq, _⟩
        cases eq

theorem runs_liftExcept_error {α : Type} {toError : String → ε} {result : Except String α} {err : ε}
    (runs : Program.Runs Disk.perform (liftExcept toError result).run disk (.error err) after) :
    (∃ message, result = .error message) ∧ after = disk := by
  cases result with
  | ok value => cases runs.1
  | error message => exact ⟨⟨message, rfl⟩, runs.2⟩

theorem runs_liftExcept_bind {α β : Type} {toError : String → ε} {result : Except String α} {value : α}
    {next : α → Async ε β} {outcome : Except ε β} (found : result = .ok value) :
    Program.Runs Disk.perform (liftExcept toError result >>= next).run disk outcome after ↔
      Program.Runs Disk.perform (next value).run disk outcome after := by
  subst found
  exact Iff.rfl

theorem enclosedPath_ok : enclosedPath enclosedName entry = .ok path ↔
    enclosedName entry.name = some path := by
  unfold enclosedPath
  cases enclosedName entry.name with
  | some other => simp
  | none => simp

/-! The first pass. -/

/-- What the entries declare together. -/
def declared : Archive → Nat
  | [] => 0
  | .ok entry :: rest => entry.size.val + declared rest
  | .error _ :: rest => declared rest

/-- Every entry can be read and has a name inside the destination. -/
def Enclosed (enclosedName : String → Option Path) (archive : Archive) : Prop :=
  ∀ found ∈ archive, ∃ entry path, found = .ok entry ∧ enclosedName entry.name = some path

theorem saturatingAdd_val (a b : Fin (2 ^ 64)) :
    (saturatingAdd a b).val = min (a.val + b.val) (2 ^ 64 - 1) := by
  unfold saturatingAdd
  split
  · rename_i fits
    simp only
    omega
  · rename_i full
    simp only [u64Max]
    omega

theorem totalSize_ok {total sum : Fin (2 ^ 64)}
    (passed : totalSize enclosedName total archive = .ok sum) :
    Enclosed enclosedName archive ∧ sum.val = min (total.val + declared archive) (2 ^ 64 - 1) := by
  induction archive generalizing total with
  | nil =>
      cases passed
      refine ⟨by rintro _ ⟨⟩, ?_⟩
      simp only [declared]
      omega
  | cons found rest ih =>
      cases found with
      | error message => cases passed
      | ok entry =>
          simp only [totalSize] at passed
          cases named : enclosedPath enclosedName entry with
          | error message => simp [named] at passed
          | ok path =>
              rw [named] at passed
              obtain ⟨enclosed, size⟩ := ih passed
              constructor
              · intro other member
                rcases List.mem_cons.1 member with rfl | later
                · exact ⟨entry, path, rfl, enclosedPath_ok.1 named⟩
                · exact enclosed other later
              · rw [size, saturatingAdd_val]
                simp only [declared]
                omega

theorem totalSize_of_enclosed {total : Fin (2 ^ 64)} (enclosed : Enclosed enclosedName archive) :
    ∃ sum, totalSize enclosedName total archive = .ok sum := by
  induction archive generalizing total with
  | nil => exact ⟨total, rfl⟩
  | cons found rest ih =>
      obtain ⟨entry, path, rfl, named⟩ := enclosed found List.mem_cons_self
      simp only [totalSize, enclosedPath_ok.2 named]
      exact ih fun other member => enclosed other (List.mem_cons_of_mem _ member)

theorem withinLimit_ok {total : Fin (2 ^ 64)} : withinLimit total limit = .ok () ↔ total ≤ limit := by
  unfold withinLimit
  by_cases above : total > limit
  · simp only [if_pos above, reduceCtorEq, false_iff]
    omega
  · simp only [if_neg above, true_iff]
    omega

/-- `unpack_zip` has got past its checks. -/
structure Passes (enclosedName : String → Option Path) (archive : Archive)
    (limit sum : Fin (2 ^ 64)) : Prop where
  enclosed : Enclosed enclosedName archive
  size : sum.val = min (declared archive) (2 ^ 64 - 1)
  fits : sum ≤ limit

/-- Either nothing has happened, or the entries were extracted one by one. -/
theorem runs_unpackZip {reader : Except String Archive} {outcome : Except ε (Fin (2 ^ 64))}
    (runs : Program.Runs Disk.perform (unpackZip reports enclosedName reader dest limit).run disk
      outcome after) :
    ((∃ err, outcome = .error err) ∧ after = disk) ∨
      ∃ archive sum extracted, reader = .ok archive ∧ Passes enclosedName archive limit sum ∧
        Program.Runs Disk.perform
          (Fallible.forEach (extractEntry reports enclosedName dest) archive).run disk extracted
            after ∧ outcome = extracted.map fun _ => sum := by
  rcases Fallible.runs_bind.1 runs with ⟨err, failed, rfl⟩ | ⟨archive, _, opened, totalling⟩
  · exact .inl ⟨⟨err, rfl⟩, (runs_liftExcept_error failed).2⟩
  obtain ⟨rfl, rfl⟩ := runs_liftExcept_ok.1 opened
  rcases Fallible.runs_bind.1 totalling with ⟨err, failed, rfl⟩ | ⟨sum, _, totalled, checking⟩
  · exact .inl ⟨⟨err, rfl⟩, (runs_liftExcept_error failed).2⟩
  obtain ⟨passed, rfl⟩ := runs_liftExcept_ok.1 totalled
  rcases Fallible.runs_bind.1 checking with ⟨err, failed, rfl⟩ | ⟨_, _, checked, extracting⟩
  · exact .inl ⟨⟨err, rfl⟩, (runs_liftExcept_error failed).2⟩
  obtain ⟨within, rfl⟩ := runs_liftExcept_ok.1 checked
  obtain ⟨enclosed, size⟩ := totalSize_ok passed
  have passes : Passes enclosedName archive limit sum :=
    ⟨enclosed, by simpa using size, withinLimit_ok.1 within⟩
  refine .inr ⟨archive, sum, ?_⟩
  rcases Fallible.runs_bind.1 extracting with ⟨err, failed, rfl⟩ | ⟨value, _, extracted, last⟩
  · exact ⟨.error err, rfl, passes, failed, rfl⟩
  · obtain ⟨rfl, rfl⟩ := last
    exact ⟨.ok value, rfl, passes, extracted, rfl⟩

/-! The second pass. -/

/-- The actions that `unpack_zip` takes: on what is inside `dest`, or above it. -/
def Within (dest : Path) : Act → Prop
  | .createDirAll path => dest <+: path ∨ path <+: dest
  | .createFile path | .write path _ => dest <+: path

theorem uses_io {action : Act} (within : Within dest action) :
    Program.Uses (Within dest) (fun _ => False) (io reports action).run :=
  (Program.uses_perform within).bind fun _ => Program.uses_done _

theorem uses_liftExcept {α : Type} {toError : String → ε} {result : Except String α} :
    Program.Uses (Within dest) (fun _ => False) (liftExcept toError result).run :=
  Program.uses_done _

theorem uses_extractEntry (found : Except String ZipEntry) :
    Program.Uses (Within dest) (fun _ => False)
      (extractEntry reports enclosedName dest found).run := by
  refine Fallible.uses_bind uses_liftExcept fun entry => ?_
  refine Fallible.uses_bind uses_liftExcept fun relativePath => ?_
  have inside : dest <+: dest ++ relativePath := List.prefix_append _ _
  have parent : dest <+: (dest ++ relativePath).dropLast ∨
      (dest ++ relativePath).dropLast <+: dest :=
    List.prefix_or_prefix_of_prefix inside (List.dropLast_prefix _)
  simp only [extractTo]
  split
  · exact uses_io (.inl inside)
  · refine Fallible.uses_bind (uses_io parent) fun _ => ?_
    refine Fallible.uses_bind (uses_io inside) fun _ => ?_
    refine Fallible.uses_bind (uses_io inside) fun _ => ?_
    cases entry.broken with
    | some message => exact Fallible.uses_throw _
    | none => exact Fallible.uses_pure _

/-- Outside `dest` everything is as it was. -/
structure Confined (dest : Path) (disk after : Disk String UInt8) : Prop where
  isDir : after.volume.node dest = some .dir
  outside : ∀ path, ¬ dest <+: path → after.volume.node path = disk.volume.node path

theorem Confined.keeps {start : Disk String UInt8} {action : Act} {fault : Option Disk.Fault}
    {result : Except String Unit} (confined : Confined dest start disk) (within : Within dest action)
    (performed : Disk.perform action fault disk = some (result, after)) :
    Confined dest start after := by
  refine ⟨Disk.perform_dir performed confined.isDir, ?_⟩
  intro path outside
  rw [← confined.outside path outside]
  by_cases touched : action.Touches path
  · -- Only a directory above `dest` can be in question, and those exist.
    have above : path <+: dest := by
      cases action with
      | createDirAll target =>
          rcases within with inside | above
          · exact (List.prefix_or_prefix_of_prefix touched inside).resolve_right outside
          · exact touched.trans above
      | createFile target => exact absurd (touched ▸ within) outside
      | write target data => exact absurd (touched ▸ within) outside
    have different : path ≠ dest := by
      rintro rfl
      exact outside (List.prefix_refl _)
    have isDir := disk.volume.closed dest path (confined.isDir ▸ nofun) above different
    rw [isDir, Disk.perform_dir performed isDir]
  · exact Disk.perform_untouched touched performed

theorem confined_of_extract {outcome : Except ε Unit} (isDir : disk.volume.node dest = some .dir)
    (runs : Program.Runs Disk.perform
      (Fallible.forEach (extractEntry reports enclosedName dest) archive).run disk outcome after) :
    Confined dest disk after :=
  runs.keeps (Fallible.uses_forEach uses_extractEntry archive)
    (fun _ _ _ _ _ within performed confined => confined.keeps within performed)
    ⟨isDir, fun _ _ => rfl⟩

/-! What the entries amount to. -/

/-- What is in a directory, by the paths relative to it. -/
abbrev Contents : Type := Path → Option (Node UInt8)

def Contents.empty : Contents := fun path => if path = [] then some .dir else none

/-- A file takes the place of an earlier one; the directories on the way are made. -/
def Contents.put (contents : Contents) (path : Path) (entry : ZipEntry) : Contents := fun other =>
  if entry.isDir = false ∧ other = path then some (.file entry.data)
  else if other <+: path then some .dir
  else contents other

/-- The entries, applied in order. -/
def Contents.apply (enclosedName : String → Option Path) (contents : Contents) : Archive → Contents
  | [] => contents
  | .error _ :: rest => contents.apply enclosedName rest
  | .ok entry :: rest =>
      match enclosedName entry.name with
      | none => contents.apply enclosedName rest
      | some path => (contents.put path entry).apply enclosedName rest

/-- What the directory holds. -/
def inside (volume : Volume String UInt8) (dest : Path) : Contents := fun path =>
  volume.node (dest ++ path)

/-- How much an entry's file takes. -/
def ZipEntry.fileBytes (entry : ZipEntry) : Nat := if entry.isDir then 0 else entry.data.length

def fileBytes : Archive → Nat
  | [] => 0
  | .error _ :: rest => fileBytes rest
  | .ok entry :: rest => entry.fileBytes + fileBytes rest

/-- How much a step writes, however it ends. -/
def Writes (disk after : Disk String UInt8) (bytes : Nat) {α : Type} (outcome : Except ε α) : Prop :=
  disk.written ≤ after.written ∧ after.written ≤ disk.written + bytes ∧
    ∀ value, outcome = .ok value → after.written = disk.written + bytes

theorem runs_write {data : Bytes} {outcome : Except ε Unit}
    (isOpen : disk.volume.node path = some (.file []))
    (runs : Program.Runs Disk.perform (io reports (.write path data)).run disk outcome after) :
    Writes disk after data.length outcome ∧ ∀ value, outcome = .ok value →
      after.volume.node = Function.update disk.volume.node path (some (.file data)) := by
  obtain ⟨fault, result, performed, rfl⟩ := runs_io.1 runs
  have ran : disk.write path data fault = (result, after) := Option.some.inj performed
  cases fault with
  | none =>
      cases ran
      obtain ⟨written, nodes⟩ := Disk.append_file data isOpen
      exact ⟨⟨by omega, by omega, fun _ _ => written⟩, fun _ _ => nodes⟩
  | some fault =>
      cases ran
      obtain ⟨written, _⟩ := Disk.append_file (data.take fault.done) isOpen
      have part := List.length_take_le' fault.done data
      exact ⟨⟨by omega, by omega, nofun⟩, nofun⟩

theorem runs_copy {outcome : Except ε Unit} (isOpen : disk.volume.node path = some (.file []))
    (runs : Program.Runs Disk.perform (copy reports path entry).run disk outcome after) :
    Writes disk after entry.data.length outcome ∧ ∀ value, outcome = .ok value →
      after.volume.node = Function.update disk.volume.node path (some (.file entry.data)) := by
  rcases Fallible.runs_bind.1 runs with ⟨err, failed, rfl⟩ | ⟨_, _, wrote, last⟩
  · obtain ⟨⟨more, most, _⟩, _⟩ := runs_write isOpen failed
    exact ⟨⟨more, most, nofun⟩, nofun⟩
  · obtain ⟨⟨more, most, all⟩, nodes⟩ := runs_write isOpen wrote
    cases broken : entry.broken with
    | some message =>
        rw [broken] at last
        obtain ⟨rfl, rfl⟩ := last
        exact ⟨⟨more, most, nofun⟩, nofun⟩
    | none =>
        rw [broken] at last
        obtain ⟨rfl, rfl⟩ := last
        exact ⟨⟨more, most, fun _ _ => all _ rfl⟩, fun _ _ => nodes _ rfl⟩

theorem prefix_dropLast {other : Path} (different : other ≠ path) :
    other <+: path.dropLast ↔ other <+: path := by
  constructor
  · exact fun above => above.trans (List.dropLast_prefix path)
  · intro above
    refine List.prefix_of_prefix_length_le above (List.dropLast_prefix path) ?_
    have shorter : other.length < path.length :=
      above.length_le.lt_of_ne fun same => different (above.eq_of_length same)
    rw [List.length_dropLast]
    omega

theorem runs_extractDir {outcome : Except ε Unit} (isDir : entry.isDir = true)
    (runs : Program.Runs Disk.perform (io reports (.createDirAll (dest ++ path))).run disk outcome
      after) :
    Writes disk after 0 outcome ∧ ∀ value, outcome = .ok value →
      inside after.volume dest = (inside disk.volume dest).put path entry := by
  obtain ⟨fault, result, performed, rfl⟩ := runs_io.1 runs
  have ran : disk.createDirAll (dest ++ path) fault = (result, after) := Option.some.inj performed
  have written := Disk.createDirAll_written ran
  refine ⟨⟨by omega, by omega, fun _ _ => written⟩, ?_⟩
  intro value succeeded
  cases result with
  | error message => cases succeeded
  | ok _ =>
      obtain ⟨_, _, nodes⟩ := Disk.createDirAll_ok ran
      funext other
      simp [inside, Contents.put, nodes, isDir, List.prefix_append_right_inj]

theorem runs_extractFile {outcome : Except ε Unit} (destIsDir : disk.volume.node dest = some .dir)
    (isFile : entry.isDir = false)
    (runs : Program.Runs Disk.perform (do
      io reports (.createDirAll (dest ++ path).dropLast)
      io reports (.createFile (dest ++ path))
      copy reports (dest ++ path) entry : Async ε Unit).run disk outcome after) :
    Writes disk after entry.data.length outcome ∧ ∀ value, outcome = .ok value →
      inside after.volume dest = (inside disk.volume dest).put path entry := by
  rcases Fallible.runs_bind.1 runs with ⟨err, failed, rfl⟩ | ⟨_, made, parents, creating⟩
  · obtain ⟨_, _, performed, _⟩ := runs_io.1 failed
    have written := Disk.createDirAll_written (Option.some.inj performed)
    exact ⟨⟨by omega, by omega, nofun⟩, nofun⟩
  obtain ⟨_, performed⟩ := runs_io_ok.1 parents
  obtain ⟨_, parentsWritten, parentNodes⟩ := Disk.createDirAll_ok (Option.some.inj performed)
  have stillDir := Disk.perform_dir performed destIsDir
  rcases Fallible.runs_bind.1 creating with ⟨err, failed, rfl⟩ | ⟨_, opened, created, copying⟩
  · obtain ⟨fault, result, performed, eq⟩ := runs_io.1 failed
    cases result with
    | ok _ => cases eq
    | error message =>
        cases Disk.createFile_error (Option.some.inj performed)
        exact ⟨⟨by omega, by omega, nofun⟩, nofun⟩
  obtain ⟨_, performed⟩ := runs_io_ok.1 created
  obtain ⟨_, free, createdWritten, createdNodes⟩ := Disk.createFile_ok (Option.some.inj performed)
  have isOpen : opened.volume.node (dest ++ path) = some (.file []) := by
    rw [createdNodes, Function.update_self]
  obtain ⟨⟨more, most, all⟩, copied⟩ := runs_copy isOpen copying
  refine ⟨⟨by omega, by omega, ?_⟩, ?_⟩
  · intro value succeeded
    have whole := all value succeeded
    omega
  · intro value succeeded
    have below : path ≠ [] := by
      rintro rfl
      rw [List.append_nil] at free
      exact free stillDir
    funext other
    simp only [inside, Contents.put, isFile, true_and, copied value succeeded, createdNodes]
    by_cases same : other = path
    · subst same
      rw [if_pos rfl, Function.update_self]
    · have apart : dest ++ other ≠ dest ++ path := fun eq => same (List.append_cancel_left eq)
      rw [if_neg same, Function.update_of_ne apart, Function.update_of_ne apart, parentNodes,
        List.dropLast_append_of_ne_nil below]
      simp only [List.prefix_append_right_inj, prefix_dropLast same]

theorem runs_extractEntry {outcome : Except ε Unit} (destIsDir : disk.volume.node dest = some .dir)
    (named : enclosedName entry.name = some path)
    (runs : Program.Runs Disk.perform (extractEntry reports enclosedName dest (.ok entry)).run disk
      outcome after) :
    Writes disk after entry.fileBytes outcome ∧ ∀ value, outcome = .ok value →
      inside after.volume dest = (inside disk.volume dest).put path entry := by
  have naming : Program.Runs Disk.perform (liftExcept reports.zip (enclosedPath enclosedName entry) >>=
      fun path => extractTo reports (dest ++ path) entry).run disk outcome after := runs
  have extracting := (runs_liftExcept_bind (enclosedPath_ok.2 named)).1 naming
  simp only [extractTo] at extracting
  cases isDir : entry.isDir with
  | true =>
      rw [isDir, if_pos rfl] at extracting
      rw [ZipEntry.fileBytes, isDir, if_pos rfl]
      exact runs_extractDir isDir extracting
  | false =>
      rw [isDir, if_neg Bool.false_ne_true] at extracting
      rw [ZipEntry.fileBytes, isDir, if_neg Bool.false_ne_true]
      exact runs_extractFile destIsDir isDir extracting

/-- What the second pass writes, and what it leaves in the directory. -/
theorem runs_extract {outcome : Except ε Unit} (enclosed : Enclosed enclosedName archive)
    (destIsDir : disk.volume.node dest = some .dir)
    (runs : Program.Runs Disk.perform
      (Fallible.forEach (extractEntry reports enclosedName dest) archive).run disk outcome after) :
    Writes disk after (fileBytes archive) outcome ∧ ∀ value, outcome = .ok value →
      inside after.volume dest = (inside disk.volume dest).apply enclosedName archive := by
  induction archive generalizing disk with
  | nil =>
      obtain ⟨_, rfl⟩ := runs
      exact ⟨⟨Nat.le_refl _, Nat.le_refl _, fun _ _ => rfl⟩, fun _ _ => rfl⟩
  | cons found rest ih =>
      obtain ⟨entry, path, rfl, named⟩ := enclosed found List.mem_cons_self
      have later : Enclosed enclosedName rest :=
        fun other member => enclosed other (List.mem_cons_of_mem _ member)
      simp only [fileBytes, Contents.apply, named]
      rcases Fallible.runs_bind.1 runs with ⟨err, failed, rfl⟩ | ⟨_, between, first, others⟩
      · obtain ⟨⟨more, most, _⟩, _⟩ := runs_extractEntry destIsDir named failed
        exact ⟨⟨more, by omega, nofun⟩, nofun⟩
      · obtain ⟨⟨more, most, all⟩, put⟩ := runs_extractEntry destIsDir named first
        have stillDir := (first.keeps (uses_extractEntry _)
          (fun _ _ _ _ _ within performed confined => confined.keeps within performed)
          (⟨destIsDir, fun _ _ => rfl⟩ : Confined dest disk disk)).isDir
        obtain ⟨⟨more', most', all'⟩, applied⟩ := ih later stillDir others
        have whole := all _ rfl
        refine ⟨⟨by omega, by omega, ?_⟩, ?_⟩
        · intro value succeeded
          have rest := all' value succeeded
          omega
        · intro value succeeded
          rw [applied value succeeded, put _ rfl]

/-! The budget. -/

/-- No run of `unpack_zip` writes more than the limit, and it returns what it has written. -/
def Budgeted (reports : Reports ε) (enclosedName : String → Option Path) (archive : Archive)
    (dest : Path) (limit : Fin (2 ^ 64)) : Prop :=
  ∀ disk after outcome, disk.volume.node dest = some .dir →
    Program.Runs Disk.perform (unpackZip reports enclosedName (.ok archive) dest limit).run disk
      outcome after →
    after.written ≤ disk.written + limit.val ∧
      ∀ sum, outcome = .ok sum → after.written = disk.written + sum.val

/-- The files decompress to as much as the entries declare. -/
def Honest (archive : Archive) : Prop := fileBytes archive = min (declared archive) (2 ^ 64 - 1)

/-- The archive does not get past the first pass. -/
def Rejected (enclosedName : String → Option Path) (archive : Archive) (limit : Fin (2 ^ 64)) : Prop :=
  ∀ sum, ¬ Passes enclosedName archive limit sum

/-- Some run of `unpack_zip` returns `Ok`. -/
def Unpackable (reports : Reports ε) (enclosedName : String → Option Path) (archive : Archive)
    (dest : Path) (limit : Fin (2 ^ 64)) : Prop :=
  ∃ disk after sum, disk.volume.node dest = some .dir ∧
    Program.Runs Disk.perform (unpackZip reports enclosedName (.ok archive) dest limit).run disk
      (.ok sum) after

/-- The budget is kept for archives that are rejected, and for those that declare what they hold.
Where the whole archive can be unpacked, it is kept for no others. -/
theorem budget_kept (reports : Reports ε) (enclosedName : String → Option Path) (archive : Archive)
    (dest : Path) (limit : Fin (2 ^ 64)) :
    (Rejected enclosedName archive limit ∨ Honest archive →
        Budgeted reports enclosedName archive dest limit) ∧
      (Unpackable reports enclosedName archive dest limit →
        Budgeted reports enclosedName archive dest limit → Honest archive) := by
  constructor
  · intro condition disk after outcome isDir runs
    rcases runs_unpackZip runs with ⟨⟨err, rfl⟩, rfl⟩ | ⟨_, sum, extracted, eq, passes, extracting, rfl⟩
    · exact ⟨Nat.le_add_right _ _, by rintro _ ⟨⟩⟩
    · cases eq
      obtain ⟨⟨_, most, all⟩, _⟩ := runs_extract passes.enclosed isDir extracting
      have honest := condition.resolve_left fun rejected => rejected sum passes
      have sized : fileBytes archive = sum.val := honest.trans passes.size.symm
      have fits : sum.val ≤ limit.val := passes.fits
      refine ⟨by omega, ?_⟩
      intro returned succeeded
      cases extracted with
      | error err => cases succeeded
      | ok value =>
          have returns : sum = returned := Except.ok.inj succeeded
          have whole := all value rfl
          omega
  · rintro ⟨disk, after, sum, isDir, runs⟩ budgeted
    have exactly := (budgeted disk after (.ok sum) isDir runs).2 sum rfl
    rcases runs_unpackZip runs with ⟨⟨err, eq⟩, _⟩ | ⟨_, sum', extracted, eq, passes, extracting, same⟩
    · cases eq
    · cases eq
      cases extracted with
      | error err => cases same
      | ok value =>
          have returns : sum = sum' := Except.ok.inj same
          have whole := (runs_extract passes.enclosed isDir extracting).1.2.2 value rfl
          have size := passes.size
          unfold Honest
          omega

/-! Where an archive ends up. -/

structure EmptyDir (volume : Volume String UInt8) (dest : Path) : Prop where
  isDir : volume.node dest = some .dir
  bare : ∀ path, path ≠ [] → volume.node (dest ++ path) = none

theorem EmptyDir.inside {volume : Volume String UInt8} (emptyDir : EmptyDir volume dest) :
    inside volume dest = Contents.empty := by
  funext path
  by_cases isRoot : path = []
  · subst isRoot
    simp [ZipExtract.inside, Contents.empty, emptyDir.isDir]
  · simp [ZipExtract.inside, Contents.empty, isRoot, emptyDir.bare path isRoot]

/-- An entry's name is not enclosed, or the sizes declared come to more than the limit. -/
def Unsafe (enclosedName : String → Option Path) (archive : Archive) (limit : Fin (2 ^ 64)) : Prop :=
  (∃ entry, .ok entry ∈ archive ∧ enclosedName entry.name = none) ∨
    limit.val < min (declared archive) (2 ^ 64 - 1)

theorem Unsafe.rejected (isUnsafe : Unsafe enclosedName archive limit) :
    Rejected enclosedName archive limit := by
  intro sum passes
  rcases isUnsafe with ⟨entry, member, unnamed⟩ | tooLarge
  · obtain ⟨other, path, eq, named⟩ := passes.enclosed _ member
    cases eq
    rw [unnamed] at named
    cases named
  · have size := passes.size
    have fits : sum.val ≤ limit.val := passes.fits
    omega

/-- What `unpack_zip` makes of an archive and an empty directory. -/
structure UnpacksSafely (reports : Reports ε) (enclosedName : String → Option Path)
    (archive : Archive) (dest : Path) (limit : Fin (2 ^ 64)) (disk : Disk String UInt8) : Prop where
  returns : ∃ outcome after, Program.Runs Disk.perform
    (unpackZip reports enclosedName (.ok archive) dest limit).run disk outcome after
  rejects : Unsafe enclosedName archive limit → ∀ outcome after, Program.Runs Disk.perform
    (unpackZip reports enclosedName (.ok archive) dest limit).run disk outcome after →
      (∃ err, outcome = .error err) ∧ after = disk
  confined : ∀ outcome after, Program.Runs Disk.perform
    (unpackZip reports enclosedName (.ok archive) dest limit).run disk outcome after →
      ∀ path, after.volume.node path ≠ disk.volume.node path → dest <+: path
  result : ∀ sum after, Program.Runs Disk.perform
    (unpackZip reports enclosedName (.ok archive) dest limit).run disk (.ok sum) after →
      inside after.volume dest = Contents.empty.apply enclosedName archive

theorem uses_unpackZip {reader : Except String Archive} :
    Program.Uses (Within dest) (fun _ => False)
      (unpackZip reports enclosedName reader dest limit).run := by
  refine Fallible.uses_bind uses_liftExcept fun archive => ?_
  refine Fallible.uses_bind uses_liftExcept fun total => ?_
  refine Fallible.uses_bind uses_liftExcept fun _ => ?_
  exact Fallible.uses_bind (Fallible.uses_forEach uses_extractEntry archive) fun _ =>
    Fallible.uses_pure _

theorem performs_always (action : Act) (disk : Disk String UInt8) : ∃ fault result after,
    Disk.perform action fault disk = some (result, after) := by
  cases action <;> exact ⟨none, _, _, rfl⟩

theorem unpacks_safely (reports : Reports ε) (enclosedName : String → Option Path)
    (archive : Archive) (dest : Path) (limit : Fin (2 ^ 64)) (disk : Disk String UInt8)
    (emptyDir : EmptyDir disk.volume dest) :
    UnpacksSafely reports enclosedName archive dest limit disk where
  returns := Program.exists_runs uses_unpackZip performs_always disk
  rejects := by
    intro isUnsafe outcome after runs
    rcases runs_unpackZip runs with unchanged | ⟨_, sum, _, eq, passes, _, _⟩
    · exact unchanged
    · cases eq
      exact absurd passes (isUnsafe.rejected sum)
  confined := by
    intro outcome after runs path changed
    have confined : Confined dest disk after := runs.keeps uses_unpackZip
      (fun _ _ _ _ _ within performed confined => confined.keeps within performed)
      ⟨emptyDir.isDir, fun _ _ => rfl⟩
    by_contra outside
    exact changed (confined.outside path outside)
  result := by
    intro sum after runs
    rcases runs_unpackZip runs with ⟨⟨err, eq⟩, _⟩ | ⟨_, sum', extracted, eq, passes, extracting, same⟩
    · cases eq
    · cases eq
      cases extracted with
      | error err => cases same
      | ok value =>
          rw [(runs_extract passes.enclosed emptyDir.isDir extracting).2 value rfl, emptyDir.inside]

/-! Archives that are unpacked. -/

/-- Names with a root or a parent component are not enclosed. -/
def plainName (name : String) : Option Path :=
  let components := (name.toList.splitOn '/').map String.ofList
  if name.toList.head? = some '/' ∨ ".." ∈ components then none
  else some (components.filter fun component => component ≠ "" ∧ component ≠ ".")

/-- An empty directory `files`. -/
def filesDisk : Disk String UInt8 where
  volume := (⟨fun path => if path = [] then some .dir else none, rfl, by
    intro path front found lies different
    by_cases isRoot : path = []
    · subst isRoot
      exact absurd (List.prefix_nil.1 lies) different
    · exact absurd (if_neg isRoot) found⟩ : Volume String UInt8).withDirs ["files"] (by decide)
  written := 0

theorem filesDisk_empty : EmptyDir filesDisk.volume ["files"] := by
  refine ⟨rfl, fun path below => ?_⟩
  have beyond : ¬ ["files"] ++ path <+: ["files"] := by
    intro above
    have shorter := above.length_le
    have positive := List.length_pos_iff.2 below
    simp only [List.length_append, List.length_singleton] at shorter
    omega
  have isDirs : filesDisk.volume.node (["files"] ++ path) =
      if ["files"] ++ path <+: ["files"] then some .dir
      else if ["files"] ++ path = [] then some .dir else none := rfl
  rw [isDirs, if_neg beyond, if_neg (by simp)]

/-- A run in which nothing fails. -/
def unpacked (archive : Archive) (limit : Fin (2 ^ 64)) :
    Option (Except String (Fin (2 ^ 64)) × Disk String UInt8) :=
  (Agent.unpackZip plainName (.ok archive) ["files"] limit).run.eval Disk.perform
    (List.replicate 9 none) filesDisk

theorem runs_of_unpacked (archive : Archive) (limit sum : Fin (2 ^ 64))
    (holds : Disk String UInt8 → Bool)
    (played : (unpacked archive limit).any (fun ran => ran.1.toOption = some sum && holds ran.2) = true) :
    ∃ after, Program.Runs Disk.perform
      (unpackZip agentReports plainName (.ok archive) ["files"] limit).run filesDisk (.ok sum) after ∧
        holds after = true := by
  obtain ⟨⟨outcome, after⟩, ran, checked⟩ := (Option.any_eq_true _ _).1 played
  obtain ⟨isOk, held⟩ := Bool.and_eq_true_iff.1 checked
  cases outcome with
  | error message => simp [Except.toOption] at isOk
  | ok returned =>
      cases Option.some.inj (of_decide_eq_true isOk)
      exact ⟨after, Program.runs_of_eval ran, held⟩

def site : Archive :=
  [.ok ⟨"css/", true, 0, [], none⟩, .ok ⟨"css/site.css", false, 2, [98, 111], none⟩]

/-- A file of a hundred bytes that declares none. -/
def bomb : Archive := [.ok ⟨"big.txt", false, 0, List.replicate 100 97, none⟩]

/-- A hundred bytes are written under a limit of ten. -/
theorem bomb_is_unpacked : ¬ Budgeted agentReports plainName bomb ["files"] 10 := by
  intro budgeted
  obtain ⟨after, runs, written⟩ := runs_of_unpacked bomb 10 0
    (fun after => decide (after.written = 100)) (by decide +kernel)
  have most := (budgeted filesDisk after (.ok 0) filesDisk_empty.isDir runs).1
  rw [of_decide_eq_true written] at most
  exact absurd most (by decide)

theorem unpacks_safely_site : EmptyDir filesDisk.volume ["files"] ∧
    UnpacksSafely agentReports plainName site ["files"] 100 filesDisk :=
  ⟨filesDisk_empty, unpacks_safely agentReports plainName site ["files"] 100 filesDisk
    filesDisk_empty⟩

/-- Two empty files that declare 2 ^ 64 bytes together. -/
def colossal : Archive :=
  [.ok ⟨"a", false, u64Max, [], none⟩, .ok ⟨"b", false, 1, [], none⟩]

/-- Where the limit is the largest number, no sum is above it. -/
theorem colossal_is_unpacked : EmptyDir filesDisk.volume ["files"] ∧
    u64Max.val < declared colossal ∧
      ∃ after, Program.Runs Disk.perform
        (unpackZip agentReports plainName (.ok colossal) ["files"] u64Max).run filesDisk
          (.ok u64Max) after ∧ after.volume.node ["files", "a"] = some (.file []) := by
  obtain ⟨after, runs, found⟩ := runs_of_unpacked colossal u64Max u64Max
    (fun after => decide (after.volume.node ["files", "a"] = some (.file []))) (by decide +kernel)
  exact ⟨filesDisk_empty, by decide, after, runs, of_decide_eq_true found⟩

end Berth.ZipExtract
