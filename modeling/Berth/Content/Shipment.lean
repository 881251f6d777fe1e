import Berth.Data.FileTree
import Berth.Content.Unpacking
import Berth.Content.ZipDir

/-!
What `zip_dir` has packed, `unpack_zip` unpacks: a directory without links arrives at the agent as
it was.
-/

namespace Berth.Shipment

open Interleave LinkTree
open ZipDir (Tree Stored Writer Zips addEntries addDirToZip isDir_of not_isDir_of openFile_of readDir_iff)
open ZipExtract

/-- The name of an entry; `add_directory` puts a slash at its end. -/
def entryName (path : Path) (isDir : Bool) : String :=
  "/".intercalate path ++ if isDir then "/" else ""

def zipEntry (stored : Stored) : ZipEntry where
  name := entryName stored.path stored.isDir
  isDir := stored.isDir
  size := ⟨stored.data.length % 2 ^ 64, Nat.mod_lt _ (by decide)⟩
  data := stored.data

/-- What a reader finds in the archive. -/
def archiveOf (entries : List Stored) : Archive := entries.map fun stored => .ok (zipEntry stored)

variable {root tree contents : Tree} {refused : Path → IoError} {base source dir dest path : Path}
variable {writer : Writer} {fuel : Nat} {name : String}

/-! What is packed. -/

/-- The entries of a directory, in the order of its listing, each with what is below it. -/
def flatten (source dir : Path) : Tree → List Stored
  | .nil => []
  | .file name content rest =>
      ⟨dir ++ [name], false, content, source ++ dir ++ [name]⟩ :: flatten source dir rest
  | .dir name contents rest =>
      ⟨dir ++ [name], true, [], []⟩ ::
        (flatten source (dir ++ [name]) contents ++ flatten source dir rest)
  | .link _ _ rest => flatten source dir rest

theorem addDirToZip_flatten (distinct : root.Distinct) (linkFree : contents.LinkFree)
    (enough : contents.depth < fuel)
    (here : realPath root (base ++ dir) = some (source ++ dir))
    (found : root.get? (source ++ dir) = some (.dir contents)) :
    ∃ visits, addDirToZip root refused base fuel dir writer =
      some (.ok (), ⟨visits, writer.entries ++ flatten source dir contents⟩) := by
  induction fuel generalizing contents dir writer with
  | zero => omega
  | succ fuel ih =>
      have unique := distinct.get? found
      have entries : ∀ listing : Tree, (∀ entry ∈ listing.items, entry ∈ contents.items) →
          listing.LinkFree → ∀ writer : Writer, ∃ visits,
            addEntries root refused base dir (source ++ dir) (addDirToZip root refused base fuel)
              listing.items writer =
                some (.ok (), ⟨visits, writer.entries ++ flatten source dir listing⟩) := by
        intro listing among free
        induction listing with
        | nil =>
            intro writer
            exact ⟨writer.visits, by simp [Listing.items, addEntries, flatten]⟩
        | file name content rest later =>
            intro writer
            have child : root.get? (source ++ dir ++ [name]) = some (.file content) := by
              rw [Listing.get?_child found]
              exact Listing.find?_of_mem unique (among _ List.mem_cons_self)
            have real := realPath_child here child rfl
            rw [List.append_assoc base] at real
            obtain ⟨visits, ended⟩ := later (fun _ member => among _ (List.mem_cons_of_mem _ member))
              free ((writer.visit (dir ++ [name]) (source ++ dir ++ [name])).store
                ⟨dir ++ [name], false, content, source ++ dir ++ [name]⟩)
            refine ⟨visits, ?_⟩
            simp only [Listing.items, addEntries, not_isDir_of real child, Bool.false_eq_true, if_false,
              openFile_of real child, ended]
            simp [Writer.store, Writer.visit, flatten]
        | dir name inner rest _ later =>
            intro writer
            have member := among (name, .dir inner) List.mem_cons_self
            have child : root.get? (source ++ dir ++ [name]) = some (.dir inner) := by
              rw [Listing.get?_child found]
              exact Listing.find?_of_mem unique member
            have real := realPath_child here child rfl
            have shallower := Listing.depth_dir member
            rw [List.append_assoc base] at real
            have into := isDir_of real child
            rw [List.append_assoc source] at child real
            obtain ⟨between, called⟩ := @ih inner (dir ++ [name])
              ((writer.visit (dir ++ [name]) (source ++ dir ++ [name])).store
                ⟨dir ++ [name], true, [], []⟩) free.1 (by omega) real child
            obtain ⟨visits, ended⟩ := later (fun _ member => among _ (List.mem_cons_of_mem _ member))
              free.2 ⟨between, writer.entries ++ ⟨dir ++ [name], true, [], []⟩ ::
                flatten source (dir ++ [name]) inner⟩
            refine ⟨visits, ?_⟩
            simp only [Listing.items, addEntries, into, if_true, called]
            simpa [Writer.store, Writer.visit, flatten] using ended
        | link name target rest => exact free.elim
      obtain ⟨visits, ended⟩ := entries contents (fun _ member => member) linkFree writer
      exact ⟨visits, by simp only [addDirToZip, readDir_iff.2 ⟨here, found⟩, ended]⟩

/-! What the entries come to when they are applied in order. -/

def nodeOf : Item String UInt8 → Option (Node UInt8)
  | .file content => some (.file content)
  | .dir _ => some .dir
  | .link _ => none

/-- What a directory holds, by the paths below it. -/
def contentsOf (tree : Tree) : Contents := fun path => (tree.get? path).bind nodeOf

/-- What is there already, with a directory's entries put in their places. -/
def overlay (contents : Contents) (dir : Path) (tree : Tree) : Contents := fun path =>
  if dir <+: path ∧ path ≠ dir then
    match tree.get? (path.drop dir.length) with
    | some item => nodeOf item
    | none => contents path
  else contents path

variable {held : Contents} {more : Path} {enclosedName : String → Option Path} {entry : ZipEntry}

theorem overlay_below : overlay held dir tree (dir ++ name :: more) =
    match tree.get? (name :: more) with
    | some item => nodeOf item
    | none => held (dir ++ name :: more) := by
  simp [overlay]

theorem overlay_beside (beside : ∀ name more, path ≠ dir ++ name :: more) :
    overlay held dir tree path = held path := by
  refine if_neg ?_
  rintro ⟨⟨rest, rfl⟩, different⟩
  cases rest with
  | nil => simp at different
  | cons name more => exact beside name more rfl

theorem overlay_nil : overlay held dir .nil = held := by
  funext path
  by_cases below : ∃ name more, path = dir ++ name :: more
  · obtain ⟨name, more, rfl⟩ := below
    exact overlay_below
  · exact overlay_beside fun name more same => below ⟨name, more, same⟩

/-- Where the directories on the way exist, an entry changes its own place alone. -/
theorem put_eq (above : ∀ front, front <+: dir → held front = some .dir) :
    held.put (dir ++ [name]) entry = fun other =>
      if other = dir ++ [name] then some (if entry.isDir then .dir else .file entry.data)
      else held other := by
  funext other
  simp only [Contents.put]
  by_cases same : other = dir ++ [name]
  · cases entry.isDir <;> simp [same]
  · by_cases onWay : other <+: dir ++ [name]
    · have before : other <+: dir := (List.prefix_concat_iff.1 onWay).resolve_left same
      simp [same, onWay, above other before]
    · simp [same, onWay]

theorem put_beside (above : ∀ front, front <+: dir → held front = some .dir)
    (different : path ≠ dir ++ [name]) : held.put (dir ++ [name]) entry path = held path := by
  rw [put_eq above]
  exact if_neg different

theorem overlay_file {content : Bytes} {rest : Tree}
    (above : ∀ front, front <+: dir → held front = some .dir)
    (new : name ∉ rest.items.map Prod.fst) (isFile : entry.isDir = false)
    (data : entry.data = content) :
    overlay held dir (.file name content rest) = overlay (held.put (dir ++ [name]) entry) dir rest := by
  funext path
  by_cases below : ∃ other more, path = dir ++ other :: more
  · obtain ⟨other, more, rfl⟩ := below
    rw [overlay_below, overlay_below, put_eq above]
    by_cases same : name = other
    · subst same
      cases more with
      | nil => simp [Listing.get?, Listing.find?, Listing.find?_none new, nodeOf, isFile, data]
      | cons deeper more => simp [Listing.get?, Listing.find?, Listing.find?_none new]
    · simp [Listing.get?, Listing.find?, same, Ne.symm same]
  · have beside : ∀ other more, path ≠ dir ++ other :: more :=
      fun other more same => below ⟨other, more, same⟩
    rw [overlay_beside beside, overlay_beside beside, put_eq above]
    simp [beside name []]

theorem overlay_dir {contents rest : Tree}
    (above : ∀ front, front <+: dir → held front = some .dir)
    (new : name ∉ rest.items.map Prod.fst) (isDir : entry.isDir = true) :
    overlay held dir (.dir name contents rest) =
      overlay (overlay (held.put (dir ++ [name]) entry) (dir ++ [name]) contents) dir rest := by
  funext path
  by_cases below : ∃ other more, path = dir ++ other :: more
  · obtain ⟨other, more, rfl⟩ := below
    rw [overlay_below, overlay_below]
    by_cases same : name = other
    · subst same
      cases more with
      | nil =>
          rw [overlay_beside (by simp), put_eq above]
          simp [Listing.get?, Listing.find?, Listing.find?_none new, nodeOf, isDir]
      | cons deeper more =>
          have deep : dir ++ name :: deeper :: more = dir ++ [name] ++ deeper :: more := by simp
          rw [deep, overlay_below, put_eq above]
          simp [Listing.get?, Listing.find?, Listing.find?_none new]
    · have apart : ∀ next rest, dir ++ other :: more ≠ dir ++ [name] ++ next :: rest := by
        intro next rest eq
        simp [Ne.symm same] at eq
      rw [overlay_beside apart, put_eq above]
      simp [Listing.get?, Listing.find?, same, Ne.symm same]
  · have beside : ∀ other more, path ≠ dir ++ other :: more :=
      fun other more same => below ⟨other, more, same⟩
    have deeper : ∀ other more, path ≠ dir ++ [name] ++ other :: more := by
      intro other more same
      exact beside name (other :: more) (by simpa using same)
    rw [overlay_beside beside, overlay_beside beside, overlay_beside deeper, put_eq above]
    simp [beside name []]

/-- An entry that finds directories on its way, and nothing in its place. -/
structure Fits (held : Contents) (path : Path) : Prop where
  proper : path ≠ []
  above : ∀ front, front <+: path → front ≠ path → (held front).all Node.isDir = true
  free : held path = none

/-- Every entry fits when its turn comes. -/
def Admits (enclosedName : String → Option Path) : Contents → Archive → Prop
  | _, [] => True
  | _, .error _ :: _ => False
  | held, .ok entry :: rest => ∃ path, enclosedName entry.name = some path ∧ entry.broken = none ∧
      Fits held path ∧ Admits enclosedName (held.put path entry) rest

/-- The names of a tree come through the archive unchanged. -/
def Named (enclosedName : String → Option Path) (dir : Path) (tree : Tree) : Prop :=
  ∀ path item, tree.get? path = some item → path ≠ [] →
    enclosedName (entryName (dir ++ path) item.isDir) = some (dir ++ path)

/-- A directory that has nothing in the places of the tree's entries. -/
structure Free (held : Contents) (dir : Path) (tree : Tree) : Prop where
  above : ∀ front, front <+: dir → held front = some .dir
  fresh : ∀ name ∈ tree.items.map Prod.fst, ∀ more, held (dir ++ name :: more) = none

theorem get?_name {item : Item String UInt8} (found : tree.get? (name :: more) = some item) :
    name ∈ tree.items.map Prod.fst := by
  cases first : tree.find? name with
  | none => simp [Listing.get?, first] at found
  | some other => exact List.mem_map_of_mem (Listing.find?_mem first)

theorem Free.fits (free : Free held dir tree) (member : name ∈ tree.items.map Prod.fst) :
    Fits held (dir ++ [name]) := by
  refine ⟨by simp, ?_, free.fresh name member []⟩
  intro front onWay different
  rw [free.above front ((List.prefix_concat_iff.1 onWay).resolve_left different)]
  rfl

/-- The entries after the first are as free as before, once it is in its place. -/
theorem Free.rest {rest other : Tree} (free : Free held dir tree)
    (names : tree.items.map Prod.fst = name :: rest.items.map Prod.fst)
    (new : name ∉ rest.items.map Prod.fst) :
    Free (overlay (held.put (dir ++ [name]) entry) (dir ++ [name]) other) dir rest := by
  constructor
  · intro front onWay
    have short := onWay.length_le
    rw [overlay_beside, put_beside free.above]
    · exact free.above front onWay
    · rintro rfl
      simp only [List.length_append, List.length_singleton] at short
      omega
    · rintro next more rfl
      simp only [List.length_append, List.length_cons] at short
      omega
  · intro later member more
    have different : later ≠ name := by
      rintro rfl
      exact new member
    rw [overlay_beside, put_beside free.above]
    · exact free.fresh later (by rw [names]; exact List.mem_cons_of_mem _ member) more
    · simp [different]
    · intro next others eq
      simp [different] at eq

theorem Named.rest {rest : Tree} (named : Named enclosedName dir tree)
    (same : ∀ other ∈ rest.items.map Prod.fst, tree.find? other = rest.find? other) :
    Named enclosedName dir rest := by
  intro path item found proper
  cases path with
  | nil => exact absurd rfl proper
  | cons other more =>
      refine named (other :: more) item ?_ (by simp)
      simpa only [Listing.get?, same other (get?_name found)] using found

/-- A directory's entries, and then others, amount to the directory in its place and the others. -/
theorem apply_flatten (distinct : tree.Distinct) (linkFree : tree.LinkFree)
    (named : Named enclosedName dir tree) (free : Free held dir tree) (rest : Archive) :
    held.apply enclosedName (archiveOf (flatten source dir tree) ++ rest) =
        (overlay held dir tree).apply enclosedName rest ∧
      (Admits enclosedName (overlay held dir tree) rest →
        Admits enclosedName held (archiveOf (flatten source dir tree) ++ rest)) := by
  induction tree generalizing dir held rest with
  | nil =>
      rw [overlay_nil]
      exact ⟨rfl, fun admits => admits⟩
  | file name content others ih =>
      let entry := zipEntry ⟨dir ++ [name], false, content, source ++ dir ++ [name]⟩
      have fits : Fits held (dir ++ [name]) := free.fits (by simp [Listing.items])
      have known : enclosedName entry.name = some (dir ++ [name]) :=
        named [name] (.file content) (by simp [Listing.get?, Listing.find?]) (by simp)
      have freeRest : Free (held.put (dir ++ [name]) entry) dir others := by
        have kept : Free (overlay (held.put (dir ++ [name]) entry) (dir ++ [name]) .nil) dir others :=
          free.rest rfl distinct.1
        rwa [overlay_nil] at kept
      have namedRest : Named enclosedName dir others := by
        refine named.rest fun other member => ?_
        have different : name ≠ other := by
          rintro rfl
          exact distinct.1 member
        simp [Listing.find?, different]
      obtain ⟨applied, admitted⟩ := ih distinct.2 linkFree namedRest freeRest rest
      have isFile : entry.isDir = false := rfl
      have data : entry.data = content := rfl
      have split : archiveOf (flatten source dir (.file name content others)) ++ rest =
          .ok entry :: (archiveOf (flatten source dir others) ++ rest) := rfl
      rw [overlay_file free.above distinct.1 isFile data, split]
      constructor
      · simp only [Contents.apply, known]
        exact applied
      · intro admits
        exact ⟨dir ++ [name], known, rfl, fits, admitted admits⟩
  | dir name contents others below ih =>
      let entry := zipEntry ⟨dir ++ [name], true, [], []⟩
      have fits : Fits held (dir ++ [name]) := free.fits (by simp [Listing.items])
      have known : enclosedName entry.name = some (dir ++ [name]) :=
        named [name] (.dir contents) (by simp [Listing.get?, Listing.find?]) (by simp)
      have freeBelow : Free (held.put (dir ++ [name]) entry) (dir ++ [name]) contents := by
        constructor
        · intro front onWay
          rw [put_eq free.above]
          rcases List.prefix_concat_iff.1 onWay with same | before
          · simp [same, entry, zipEntry]
          · by_cases same : front = dir ++ [name]
            · simp [same, entry, zipEntry]
            · simp [same, free.above front before]
        · intro inner _ more
          rw [put_beside free.above (by simp), List.append_assoc]
          exact free.fresh name (by simp [Listing.items]) (inner :: more)
      have namedBelow : Named enclosedName (dir ++ [name]) contents := by
        intro path item found proper
        rw [List.append_assoc]
        exact named (name :: path) item (by simpa [Listing.get?, Listing.find?] using found) (by simp)
      have freeRest : Free (overlay (held.put (dir ++ [name]) entry) (dir ++ [name]) contents) dir
          others := free.rest rfl distinct.1
      have namedRest : Named enclosedName dir others := by
        refine named.rest fun other member => ?_
        have different : name ≠ other := by
          rintro rfl
          exact distinct.1 member
        simp [Listing.find?, different]
      obtain ⟨appliedRest, admittedRest⟩ := ih distinct.2.2 linkFree.2 namedRest freeRest rest
      obtain ⟨applied, admitted⟩ := below distinct.2.1 linkFree.1 namedBelow freeBelow
        (archiveOf (flatten source dir others) ++ rest)
      have split : archiveOf (flatten source dir (.dir name contents others)) ++ rest =
          .ok entry :: (archiveOf (flatten source (dir ++ [name]) contents) ++
            (archiveOf (flatten source dir others) ++ rest)) := by
        simp [flatten, archiveOf, entry]
      have isDir : entry.isDir = true := rfl
      rw [overlay_dir free.above distinct.1 isDir, split]
      constructor
      · simp only [Contents.apply, known]
        rw [applied, appliedRest]
      · intro admits
        exact ⟨dir ++ [name], known, rfl, fits, admitted (admittedRest admits)⟩
  | link name target others => exact linkFree.elim

/-! The unpacking, where no operation fails for a reason of its own. -/

variable {ε : Type} {reports : Reports ε} {disk after : Disk String UInt8} {archive : Archive}

theorem works_io {action : Act} {outcome : Except ε Unit} :
    Program.Runs Disk.works (io reports action).run disk outcome after ↔
      ∃ result, Disk.perform action none disk = some (result, after) ∧
        outcome = result.mapError reports.io := by
  refine Program.runs_bind.trans ?_
  constructor
  · rintro ⟨result, between, performed, rfl, rfl⟩
    obtain ⟨_, performed⟩ := Program.runs_perform.1 performed
    exact ⟨result, performed, rfl⟩
  · rintro ⟨result, performed, rfl⟩
    exact ⟨result, after, Program.runs_perform.2 ⟨(), performed⟩, rfl, rfl⟩

theorem runs_of_works {α : Type} {program : Async ε α} {outcome : Except ε α}
    (works : Program.Runs Disk.works program.run disk outcome after) :
    Program.Runs Disk.perform program.run disk outcome after :=
  works.mono fun _ _ _ _ _ performed => ⟨none, performed⟩

/-- An operation that can be done is done. -/
theorem works_io_bind {action : Act} {between : Disk String UInt8} {next : Unit → Async ε Unit}
    {outcome : Except ε Unit} (done : Disk.perform action none disk = some (.ok (), between))
    (works : Program.Runs Disk.works (io reports action >>= next).run disk outcome after) :
    Program.Runs Disk.works (next ()).run between outcome after := by
  rcases Fallible.runs_bind.1 works with ⟨err, failed, _⟩ | ⟨_, middle, performed, rest⟩
  · obtain ⟨result, performed, eq⟩ := works_io.1 failed
    rw [done] at performed
    cases performed
    cases eq
  · obtain ⟨result, performed, _⟩ := works_io.1 performed
    rw [done] at performed
    cases performed
    exact rest

theorem Fits.passable (fits : Fits (inside disk.volume dest) path)
    (destIsDir : disk.volume.node dest = some .dir) : disk.volume.Passable (dest ++ path) := by
  intro front member
  rcases FileTree.above_or_below ((List.mem_inits _ _).1 member) with above | ⟨upper, below, rfl⟩
  · by_cases same : front = dest
    · simp [same, destIsDir, Node.isDir]
    · rw [disk.volume.closed dest front (by simp [destIsDir]) above same]
      rfl
  · by_cases same : upper = path
    · have free : disk.volume.node (dest ++ path) = none := fits.free
      simp [same, free]
    · exact fits.above upper below same

/-- An entry that fits is extracted. -/
theorem works_extractEntry {outcome : Except ε Unit} (destIsDir : disk.volume.node dest = some .dir)
    (named : enclosedName entry.name = some path) (whole : entry.broken = none)
    (fits : Fits (inside disk.volume dest) path)
    (works : Program.Runs Disk.works (extractEntry reports enclosedName dest (.ok entry)).run disk
      outcome after) : outcome = .ok () := by
  have passable := fits.passable destIsDir
  have extracting : Program.Runs Disk.works (extractTo reports (dest ++ path) entry).run disk outcome
      after := by
    have naming : Program.Runs Disk.works (liftExcept reports.zip (enclosedPath enclosedName entry) >>=
        fun path => extractTo reports (dest ++ path) entry).run disk outcome after := works
    rw [enclosedPath_ok.2 named] at naming
    exact naming
  simp only [extractTo] at extracting
  cases isDir : entry.isDir with
  | true =>
      rw [isDir, if_pos rfl] at extracting
      obtain ⟨made, done⟩ := Disk.createDirAll_eq passable
      obtain ⟨result, performed, rfl⟩ := works_io.1 extracting
      have same : disk.createDirAll (dest ++ path) none = (result, after) := Option.some.inj performed
      rw [done] at same
      cases same
      rfl
  | false =>
      rw [isDir, if_neg Bool.false_ne_true] at extracting
      have parent : (dest ++ path).dropLast = dest ++ path.dropLast :=
        List.dropLast_append_of_ne_nil fits.proper
      have onWay := passable.front (List.dropLast_prefix _)
      obtain ⟨made, done⟩ := Disk.createDirAll_eq onWay
      obtain ⟨_, _, nodes⟩ := Disk.createDirAll_ok done
      have makes : Disk.perform (.createDirAll (dest ++ path).dropLast) none disk =
          some (.ok (), made) := congrArg some done
      have creating := works_io_bind makes extracting
      have inDir : made.volume.node (dest ++ path).dropLast = some .dir := by
        rw [nodes]
        exact if_pos (List.prefix_refl _)
      have free : made.volume.node (dest ++ path) ≠ some .dir := by
        have beyond : ¬ dest ++ path <+: (dest ++ path).dropLast := by
          intro lies
          have shorter := lies.length_le
          have positive := List.length_pos_iff.2 fits.proper
          rw [List.length_dropLast, List.length_append] at shorter
          omega
        have absent : disk.volume.node (dest ++ path) = none := fits.free
        rw [nodes, if_neg beyond, absent]
        rintro ⟨⟩
      obtain ⟨opened, created⟩ := Disk.createFile_eq inDir free
      have opens : Disk.perform (.createFile (dest ++ path)) none made = some (.ok (), opened) :=
        congrArg some created
      have copying := works_io_bind opens creating
      have writing : Program.Runs Disk.works (io reports (.write (dest ++ path) entry.data) >>=
          fun _ => pure ()).run opened outcome after := by
        simpa only [copy, whole] using copying
      have writes : Disk.perform (.write (dest ++ path) entry.data) none opened =
          some (.ok (), opened.append (dest ++ path) entry.data) := rfl
      exact (works_io_bind writes writing).1

/-- An archive whose entries fit one after the other is extracted. -/
theorem works_extract {outcome : Except ε Unit} (destIsDir : disk.volume.node dest = some .dir)
    (admits : Admits enclosedName (inside disk.volume dest) archive)
    (works : Program.Runs Disk.works
      (Fallible.forEach (extractEntry reports enclosedName dest) archive).run disk outcome after) :
    outcome = .ok () := by
  induction archive generalizing disk with
  | nil => exact works.1
  | cons found rest ih =>
      cases found with
      | error message => exact admits.elim
      | ok entry =>
          obtain ⟨path, named, whole, fits, admits⟩ := admits
          rcases Fallible.runs_bind.1 works with ⟨err, failed, _⟩ | ⟨_, between, first, others⟩
          · cases works_extractEntry destIsDir named whole fits failed
          · have extracted := runs_of_works first
            have stillDir := (extracted.keeps (uses_extractEntry _)
              (fun _ _ _ _ _ within performed confined => confined.keeps within performed)
              (⟨destIsDir, fun _ _ => rfl⟩ : Confined dest disk disk)).isDir
            have put := (runs_extractEntry destIsDir named extracted).2 () rfl
            rw [← put] at admits
            exact ih stillDir admits others

theorem Admits.enclosed (admits : Admits enclosedName held archive) :
    Enclosed enclosedName archive := by
  induction archive generalizing held with
  | nil => rintro _ ⟨⟩
  | cons found rest ih =>
      cases found with
      | error message => exact admits.elim
      | ok entry =>
          obtain ⟨path, named, _, _, admits⟩ := admits
          intro other member
          rcases List.mem_cons.1 member with rfl | later
          · exact ⟨entry, path, rfl, named⟩
          · exact ih admits other later

theorem declared_append (first second : Archive) :
    declared (first ++ second) = declared first + declared second := by
  induction first with
  | nil => simp [declared]
  | cons found rest ih =>
      cases found with
      | error message => exact ih
      | ok entry =>
          simp only [List.cons_append, declared, ih]
          omega

/-- The entries declare what the files hold. -/
theorem declared_flatten (linkFree : tree.LinkFree) (fits : tree.size < 2 ^ 64) :
    declared (archiveOf (flatten source dir tree)) = tree.size := by
  induction tree generalizing dir with
  | nil => rfl
  | file name content rest ih =>
      simp only [Listing.size] at fits ⊢
      have restSize := @ih dir linkFree (by omega)
      have own : content.length % 2 ^ 64 = content.length := Nat.mod_eq_of_lt (by omega)
      have split : declared (archiveOf (flatten source dir (.file name content rest))) =
          content.length % 2 ^ 64 + declared (archiveOf (flatten source dir rest)) := rfl
      rw [split, restSize, own]
  | dir name contents rest below ih =>
      simp only [Listing.size] at fits ⊢
      have restSize := @ih dir linkFree.2 (by omega)
      have belowSize := @below (dir ++ [name]) linkFree.1 (by omega)
      have split : declared (archiveOf (flatten source dir (.dir name contents rest))) =
          0 + declared (archiveOf (flatten source (dir ++ [name]) contents) ++
            archiveOf (flatten source dir rest)) := by
        simp only [flatten, archiveOf, List.map_cons, List.map_append]
        rfl
      rw [split, declared_append, belowSize, restSize]
      omega
  | link name target rest => exact linkFree.elim

/-- An archive of admitted entries that is within the limit is unpacked whole. -/
theorem works_unpackZip {limit : Fin (2 ^ 64)} {outcome : Except ε (Fin (2 ^ 64))}
    (emptyDir : EmptyDir disk.volume dest) (admits : Admits enclosedName Contents.empty archive)
    (fits : declared archive ≤ limit.val)
    (works : Program.Runs Disk.works (unpackZip reports enclosedName (.ok archive) dest limit).run disk
      outcome after) : ∃ total : Fin (2 ^ 64), outcome = .ok total ∧ total.val = declared archive := by
  obtain ⟨total, totalled⟩ := @totalSize_of_enclosed enclosedName archive 0 admits.enclosed
  have sum : total.val = min (declared archive) (2 ^ 64 - 1) := by
    simpa using (totalSize_ok totalled).2
  have most := limit.isLt
  have within : withinLimit total limit = .ok () := by
    refine withinLimit_ok.2 (Fin.le_def.2 ?_)
    omega
  have checked : Program.Runs Disk.works (liftExcept reports.zip (totalSize enclosedName 0 archive) >>=
      fun total => liftExcept reports.zip (withinLimit total limit) >>= fun _ =>
        Fallible.forEach (extractEntry reports enclosedName dest) archive >>= fun _ =>
          pure total).run disk outcome after := works
  rw [totalled] at checked
  have limited : Program.Runs Disk.works (liftExcept reports.zip (withinLimit total limit) >>= fun _ =>
      Fallible.forEach (extractEntry reports enclosedName dest) archive >>= fun _ =>
        pure total).run disk outcome after := checked
  rw [within] at limited
  have extracting : Program.Runs Disk.works (Fallible.forEach
      (extractEntry reports enclosedName dest) archive >>= fun _ => pure total).run disk outcome
        after := limited
  have inEmpty : Admits enclosedName (inside disk.volume dest) archive := by
    rw [emptyDir.inside]
    exact admits
  rcases Fallible.runs_bind.1 extracting with ⟨err, failed, _⟩ | ⟨_, between, _, last⟩
  · cases works_extract emptyDir.isDir inEmpty failed
  · exact ⟨total, last.1, by omega⟩

theorem overlay_empty : overlay Contents.empty [] tree = contentsOf tree := by
  funext path
  cases path with
  | nil => simp [overlay, contentsOf, Contents.empty, Listing.get?, nodeOf]
  | cons name more =>
      have below : overlay Contents.empty [] tree ([] ++ name :: more) = _ := overlay_below
      refine below.trans ?_
      cases found : tree.get? (name :: more) with
      | none => simp [contentsOf, found, Contents.empty]
      | some item => simp [contentsOf, found]

/-- A page with its style sheet, and an empty directory. -/
def page : Tree :=
  .dir "css" (.file "site.css" [98, 111] .nil) (.file "index.html" [60] (.dir "img" .nil .nil))

def hub : Tree := .dir "files" page .nil

theorem page_paths {item : Item String UInt8} (found : page.get? path = some item)
    (proper : path ≠ []) : (path, item.isDir) ∈
      [(["css"], true), (["css", "site.css"], false), (["index.html"], false), (["img"], true)] := by
  cases path with
  | nil => exact absurd rfl proper
  | cons name more =>
      by_cases css : "css" = name
      · subst css
        cases more with
        | nil =>
            cases found
            simp [Item.isDir]
        | cons deeper more =>
            by_cases site : "site.css" = deeper
            · subst site
              cases more <;> simp [page, Listing.get?, Listing.find?] at found
              cases found
              simp [Item.isDir]
            · simp [page, Listing.get?, Listing.find?, site] at found
      · by_cases index : "index.html" = name
        · subst index
          cases more <;> simp [page, Listing.get?, Listing.find?] at found
          cases found
          simp [Item.isDir]
        · by_cases img : "img" = name
          · subst img
            cases more <;> simp [page, Listing.get?, Listing.find?] at found
            cases found
            simp [Item.isDir]
          · simp [page, Listing.get?, Listing.find?, css, index, img] at found

theorem page_named : Named plainName [] page := by
  intro path item found proper
  have listed := page_paths found proper
  generalize item.isDir = isDir at listed ⊢
  simp only [List.mem_cons, Prod.mk.injEq, List.not_mem_nil, or_false] at listed
  rcases listed with ⟨rfl, rfl⟩ | ⟨rfl, rfl⟩ | ⟨rfl, rfl⟩ | ⟨rfl, rfl⟩ <;> decide +kernel

end Berth.Shipment
