import Mathlib.Data.List.Nodup
import Berth.Data.LinkTree
import Berth.Content.ZipExtract

/-!
Zipping a deployment's directory for its agent. The recursion asks `is_dir` of every entry, which
follows links, so what it visits is not the tree below the directory but what the links make of it.
-/

namespace Berth.ZipDir

open LinkTree

abbrev Path : Type := List String

abbrev Tree : Type := Listing String UInt8

/-- An entry of the archive, with the place of the file that its data comes from. -/
structure Stored where
  path : Path
  isDir : Bool
  data : Bytes
  origin : Path
  deriving DecidableEq

/-- An entry that `read_dir` has given: its path below the base, and the place where it stands. -/
structure Visit where
  path : Path
  place : Path
  deriving DecidableEq

structure Writer where
  visits : List Visit
  entries : List Stored
  deriving DecidableEq

def Writer.new : Writer := ⟨[], []⟩

def Writer.visit (writer : Writer) (path place : Path) : Writer :=
  { writer with visits := writer.visits ++ [⟨path, place⟩] }

def Writer.store (writer : Writer) (stored : Stored) : Writer :=
  { writer with entries := writer.entries ++ [stored] }

/-- `std::fs::read_dir`, with the place of the directory. -/
def readDir (root : Tree) (path : Path) : Option (Path × Tree) :=
  match realPath root path with
  | some place =>
      match root.get? place with
      | some (.dir contents) => some (place, contents)
      | _ => none
  | none => none

/-- `File::open`, with the place of the file. -/
def openFile (root : Tree) (path : Path) : Option (Path × Bytes) :=
  match realPath root path with
  | some place =>
      match root.get? place with
      | some (.file content) => some (place, content)
      | _ => none
  | none => none

section Functions

variable (root : Tree) (refused : Path → IoError)

/-- The loop over a directory's entries, `dir` being its path below the base. `recurse` is the call
for an entry that is a directory. -/
def addEntries (base dir place : Path)
    (recurse : Path → Writer → Option (Except AppError Unit × Writer)) :
    List (String × Item String UInt8) → Writer → Option (Except AppError Unit × Writer)
  | [], writer => some (.ok (), writer)
  | (name, _) :: rest, writer =>
      let relative := dir ++ [name]
      let writer := writer.visit relative (place ++ [name])
      if isDir root (base ++ relative) then
        match recurse relative (writer.store ⟨relative, true, [], []⟩) with
        | some (.ok _, writer) => addEntries base dir place recurse rest writer
        | stopped => stopped
      else
        match openFile root (base ++ relative) with
        | some (file, content) =>
            addEntries base dir place recurse rest
              (writer.store ⟨relative, false, content, file⟩)
        | none =>
            some (.error (.io (refused (base ++ relative))), writer.store ⟨relative, false, [], []⟩)

/-- `add_dir_to_zip`, for as many levels. -/
def addDirToZip (base : Path) : Nat → Path → Writer → Option (Except AppError Unit × Writer)
  | 0, _, _ => none
  | fuel + 1, dir, writer =>
      match readDir root (base ++ dir) with
      | some (place, contents) =>
          addEntries root refused base dir place (addDirToZip base fuel) contents.items writer
      | none => some (.error (.io (refused (base ++ dir))), writer)

/-- `zip_dir` comes to this end. -/
def Zips (sourceDir : Path) (outcome : Except AppError Unit) (writer : Writer) : Prop :=
  ∃ fuel, addDirToZip root refused sourceDir fuel [] Writer.new = some (outcome, writer)

end Functions

variable {root : Tree} {refused : Path → IoError} {base source place dir : Path} {name : String}
variable {writer after : Writer} {outcome : Except AppError Unit} {fuel more : Nat}
variable {recurse further : Path → Writer → Option (Except AppError Unit × Writer)}
variable {items : List (String × Item String UInt8)} {contents : Tree}

theorem readDir_iff : readDir root dir = some (place, contents) ↔
    realPath root dir = some place ∧ root.get? place = some (.dir contents) := by
  constructor
  · intro read
    simp only [readDir] at read
    split at read
    · rename_i real resolved
      split at read <;> cases read
      rename_i found
      exact ⟨resolved, found⟩
    · cases read
  · rintro ⟨resolved, found⟩
    simp [readDir, resolved, found]

theorem openFile_of {content : Bytes} (resolved : realPath root dir = some place)
    (found : root.get? place = some (.file content)) : openFile root dir = some (place, content) := by
  simp [openFile, resolved, found]

theorem isDir_of (resolved : realPath root dir = some place)
    (found : root.get? place = some (.dir contents)) : isDir root dir = true :=
  isDir_iff.2 ⟨place, contents, resolved, found⟩

theorem not_isDir_of {content : Bytes} (resolved : realPath root dir = some place)
    (found : root.get? place = some (.file content)) : isDir root dir = false := by
  simp [isDir, resolved, found, Item.isDir]

/-! The recursion ends with the same result however much deeper it may go. -/

theorem addEntries_mono
    (goesOn : ∀ path writer ended, recurse path writer = some ended → further path writer = some ended)
    {ended : Except AppError Unit × Writer}
    (ends : addEntries root refused base dir place recurse items writer = some ended) :
    addEntries root refused base dir place further items writer = some ended := by
  induction items generalizing writer with
  | nil => exact ends
  | cons entry rest ih =>
      simp only [addEntries] at ends ⊢
      by_cases into : isDir root (base ++ (dir ++ [entry.1])) = true
      · rw [if_pos into] at ends ⊢
        cases called : recurse (dir ++ [entry.1]) ((writer.visit (dir ++ [entry.1])
            (place ++ [entry.1])).store ⟨dir ++ [entry.1], true, [], []⟩) with
        | none => simp [called] at ends
        | some back =>
            rw [goesOn _ _ _ called]
            rw [called] at ends
            obtain ⟨result, writer'⟩ := back
            cases result with
            | error err => exact ends
            | ok _ => exact ih ends
      · rw [if_neg into] at ends ⊢
        cases opened : openFile root (base ++ (dir ++ [entry.1])) with
        | none =>
            rw [opened] at ends
            exact ends
        | some file =>
            rw [opened] at ends
            exact ih ends

theorem addDirToZip_mono (enough : fuel ≤ more) {ended : Except AppError Unit × Writer}
    (ends : addDirToZip root refused base fuel dir writer = some ended) :
    addDirToZip root refused base more dir writer = some ended := by
  induction fuel generalizing more dir writer ended with
  | zero => cases ends
  | succ fuel ih =>
      cases more with
      | zero => omega
      | succ more =>
          simp only [addDirToZip] at ends ⊢
          cases read : readDir root (base ++ dir) with
          | none =>
              rw [read] at ends
              exact ends
          | some found =>
              rw [read] at ends
              exact addEntries_mono (fun _ _ _ called => ih (by omega) called) ends

theorem Zips.unique {outcome' : Except AppError Unit} {after' : Writer}
    (zips : Zips root refused base outcome after) (zips' : Zips root refused base outcome' after') :
    outcome' = outcome ∧ after' = after := by
  obtain ⟨fuel, ends⟩ := zips
  obtain ⟨more, ends'⟩ := zips'
  have first := addDirToZip_mono (Nat.le_max_left fuel more) ends
  have second := addDirToZip_mono (Nat.le_max_right fuel more) ends'
  rw [first] at second
  cases second
  exact ⟨rfl, rfl⟩

/-! What is visited when no link leads anywhere that matters. -/

/-- No link below the directory leads to a directory that has entries, or to a file with content
outside the directory. -/
def LinksStay (root : Tree) (sourceDir : Path) : Prop :=
  ∀ source names target real, realPath root sourceDir = some source →
    root.get? (source ++ names) = some (.link target) →
      realPath root (sourceDir ++ names) = some real →
        (∀ contents, root.get? real = some (.dir contents) → contents.items = []) ∧
          ∀ content, root.get? real = some (.file content) → content = [] ∨ source <+: real

/-- What the entries of one directory add: every visit is of one of them or below it. -/
structure Adds (source place : Path) (items : List (String × Item String UInt8))
    (visits : List Visit) (entries : List Stored) : Prop where
  once : (visits.map Visit.place).Nodup
  below : ∀ visit ∈ visits, ∃ name ∈ items.map Prod.fst, place ++ [name] <+: visit.place
  bytes : ∀ stored ∈ entries, stored.data ≠ [] → source <+: stored.origin

theorem Adds.nothing : Adds source place items [] [] :=
  ⟨List.nodup_nil, nofun, nofun⟩

/-- An entry is visited, then what is below it, and then the other entries. -/
theorem Adds.cons {item : Item String UInt8} {stored : Stored} {inner outer : List Visit}
    {below beyond : List Stored} {others : List (String × Item String UInt8)} {path : Path}
    (new : name ∉ items.map Prod.fst) (data : stored.data ≠ [] → source <+: stored.origin)
    (first : Adds source (place ++ [name]) others inner below)
    (rest : Adds source place items outer beyond) :
    Adds source place ((name, item) :: items) (⟨path, place ++ [name]⟩ :: (inner ++ outer))
      (stored :: (below ++ beyond)) := by
  have innerBelow : ∀ visit ∈ inner, place ++ [name] <+: visit.place ∧
      place ++ [name] ≠ visit.place := by
    intro visit member
    obtain ⟨deeper, _, lies⟩ := first.below visit member
    refine ⟨(List.prefix_append _ _).trans lies, fun same => ?_⟩
    have longer := lies.length_le
    rw [← same] at longer
    simp at longer
  have outerApart : ∀ visit ∈ outer, ¬ place ++ [name] <+: visit.place := by
    intro visit member lies
    obtain ⟨other, isOther, otherLies⟩ := rest.below visit member
    have same : place ++ [name] = place ++ [other] :=
      (List.prefix_of_prefix_length_le lies otherLies (by simp)).eq_of_length (by simp)
    have same : name = other := by simpa using same
    exact new (same ▸ isOther)
  constructor
  · simp only [List.map_cons, List.map_append, List.nodup_cons, List.mem_append, List.mem_map, not_or]
    refine ⟨⟨?_, ?_⟩, ?_⟩
    · rintro ⟨visit, member, same⟩
      exact (innerBelow visit member).2 same.symm
    · rintro ⟨visit, member, same⟩
      exact outerApart visit member (same ▸ List.prefix_refl _)
    · refine List.nodup_append.2 ⟨first.once, rest.once, ?_⟩
      intro inside isInside outside isOutside same
      obtain ⟨visit, member, rfl⟩ := List.mem_map.1 isInside
      obtain ⟨visit', member', rfl⟩ := List.mem_map.1 isOutside
      exact outerApart visit' member' (same ▸ (innerBelow visit member).1)
  · intro visit member
    rcases List.mem_cons.1 member with rfl | member
    · exact ⟨name, by simp, List.prefix_refl _⟩
    · rcases List.mem_append.1 member with isInner | isOuter
      · exact ⟨name, by simp, (innerBelow visit isInner).1⟩
      · obtain ⟨other, isOther, lies⟩ := rest.below visit isOuter
        exact ⟨other, List.mem_cons_of_mem _ isOther, lies⟩
  · intro other member
    rcases List.mem_cons.1 member with rfl | member
    · exact data
    · rcases List.mem_append.1 member with isBelow | isBeyond
      · exact first.bytes other isBelow
      · exact rest.bytes other isBeyond

/-- The recursion ends, having added these to what the writer had. -/
def Ends (source place : Path) (items : List (String × Item String UInt8)) (writer : Writer)
    (ended : Option (Except AppError Unit × Writer)) : Prop :=
  ∃ outcome visits entries,
    ended = some (outcome, ⟨writer.visits ++ visits, writer.entries ++ entries⟩) ∧
      Adds source place items visits entries

/-- An entry that is a directory, and then the others if nothing has failed. -/
theorem Ends.directory {item : Item String UInt8} {rest others : List (String × Item String UInt8)}
    (new : name ∉ rest.map Prod.fst) (into : isDir root (base ++ (dir ++ [name])) = true)
    (first : ∀ writer, Ends source (place ++ [name]) others writer (recurse (dir ++ [name]) writer))
    (later : ∀ writer, Ends source place rest writer
      (addEntries root refused base dir place recurse rest writer)) :
    Ends source place ((name, item) :: rest) writer
      (addEntries root refused base dir place recurse ((name, item) :: rest) writer) := by
  let visit : Visit := ⟨dir ++ [name], place ++ [name]⟩
  let stored : Stored := ⟨dir ++ [name], true, [], []⟩
  have noData : stored.data ≠ [] → source <+: stored.origin := fun full => absurd rfl full
  simp only [addEntries, if_pos into]
  obtain ⟨outcome, inner, below, called, adds⟩ :=
    first ((writer.visit (dir ++ [name]) (place ++ [name])).store stored)
  rw [called]
  cases outcome with
  | error err =>
      refine ⟨.error err, visit :: (inner ++ []), stored :: (below ++ []), ?_,
        Adds.cons new noData adds .nothing⟩
      simp [Writer.visit, Writer.store, visit]
  | ok _ =>
      obtain ⟨outcome, outer, beyond, ended, addsLater⟩ := later ⟨writer.visits ++ visit :: inner,
        writer.entries ++ stored :: below⟩
      refine ⟨outcome, visit :: (inner ++ outer), stored :: (below ++ beyond), ?_,
        Adds.cons new noData adds addsLater⟩
      simpa [Writer.visit, Writer.store, visit] using ended

theorem Ends.file {item : Item String UInt8} {rest : List (String × Item String UInt8)}
    {file : Path} {content : Bytes} (new : name ∉ rest.map Prod.fst)
    (noDir : isDir root (base ++ (dir ++ [name])) = false)
    (opened : openFile root (base ++ (dir ++ [name])) = some (file, content))
    (inside : content ≠ [] → source <+: file)
    (later : ∀ writer, Ends source place rest writer
      (addEntries root refused base dir place recurse rest writer)) :
    Ends source place ((name, item) :: rest) writer
      (addEntries root refused base dir place recurse ((name, item) :: rest) writer) := by
  let visit : Visit := ⟨dir ++ [name], place ++ [name]⟩
  let stored : Stored := ⟨dir ++ [name], false, content, file⟩
  have noneBelow : Adds source (place ++ [name]) [] [] [] := .nothing
  simp only [addEntries, noDir, Bool.false_eq_true, if_false, opened]
  obtain ⟨outcome, outer, beyond, ended, adds⟩ :=
    later ⟨writer.visits ++ [visit], writer.entries ++ [stored]⟩
  refine ⟨outcome, visit :: ([] ++ outer), stored :: ([] ++ beyond), ?_,
    Adds.cons new inside noneBelow adds⟩
  simpa [Writer.visit, Writer.store, visit, stored] using ended

/-- An entry that cannot be opened is the last one. -/
theorem Ends.failed {item : Item String UInt8} {rest : List (String × Item String UInt8)}
    (new : name ∉ rest.map Prod.fst) (noDir : isDir root (base ++ (dir ++ [name])) = false)
    (opened : openFile root (base ++ (dir ++ [name])) = none) :
    Ends source place ((name, item) :: rest) writer
      (addEntries root refused base dir place recurse ((name, item) :: rest) writer) := by
  let visit : Visit := ⟨dir ++ [name], place ++ [name]⟩
  let stored : Stored := ⟨dir ++ [name], false, [], []⟩
  have noneBelow : Adds source (place ++ [name]) [] [] [] := .nothing
  have noData : stored.data ≠ [] → source <+: stored.origin := fun full => absurd rfl full
  simp only [addEntries, noDir, Bool.false_eq_true, if_false, opened]
  refine ⟨.error (.io (refused (base ++ (dir ++ [name])))), visit :: ([] ++ []), stored :: ([] ++ []),
    ?_, Adds.cons new noData noneBelow .nothing⟩
  simp [Writer.visit, Writer.store, visit, stored]

/-- One directory of the tree. -/
theorem ends_addDirToZip (distinct : root.Distinct) (stays : LinksStay root base)
    (start : realPath root base = some source) (enough : contents.depth < fuel)
    (here : realPath root (base ++ dir) = some (source ++ dir))
    (found : root.get? (source ++ dir) = some (.dir contents)) :
    Ends source (source ++ dir) contents.items writer
      (addDirToZip root refused base fuel dir writer) := by
  induction fuel generalizing contents dir writer with
  | zero => omega
  | succ fuel ih =>
      have unique := distinct.get? found
      have entries : ∀ items : List (String × Item String UInt8),
          (∀ entry ∈ items, entry ∈ contents.items) → (items.map Prod.fst).Nodup →
            ∀ writer, Ends source (source ++ dir) items writer (addEntries root refused base dir
              (source ++ dir) (addDirToZip root refused base fuel) items writer) := by
        intro items among names
        induction items with
        | nil => exact fun writer => ⟨.ok (), [], [], by simp [addEntries], .nothing⟩
        | cons entry rest later =>
            obtain ⟨name, item⟩ := entry
            obtain ⟨new, names⟩ := List.nodup_cons.1 names
            have member := among _ List.mem_cons_self
            have later := later (fun entry isRest => among entry (List.mem_cons_of_mem _ isRest)) names
            have child : root.get? (source ++ dir ++ [name]) = some item := by
              rw [Listing.get?_child found]
              exact Listing.find?_of_mem unique member
            intro writer
            cases item with
            | file content =>
                have real := realPath_child here child rfl
                rw [List.append_assoc base] at real
                refine Ends.file new (not_isDir_of real child) (openFile_of real child) ?_ later
                exact fun _ => by simp
            | dir inner =>
                have real := realPath_child here child rfl
                have shallower := Listing.depth_dir member
                rw [List.append_assoc base] at real
                have below (writer : Writer) : Ends source (source ++ dir ++ [name]) inner.items
                    writer (addDirToZip root refused base fuel (dir ++ [name]) writer) := by
                  rw [List.append_assoc source] at child real ⊢
                  exact ih (by omega) real child
                exact Ends.directory new (isDir_of real child) below later
            | link target =>
                have deep := Listing.depth_link member
                rw [List.append_assoc source] at child
                cases real : realPath root (base ++ (dir ++ [name])) with
                | none =>
                    exact Ends.failed new (by simp [isDir, real]) (by simp [openFile, real])
                | some place =>
                    obtain ⟨bare, inside⟩ := stays source (dir ++ [name]) target place start child real
                    obtain ⟨other, leads, noLink⟩ := realPath_leads real
                    cases other with
                    | link other => cases noLink
                    | file content =>
                        refine Ends.file new (not_isDir_of real leads) (openFile_of real leads) ?_ later
                        exact fun full => (inside content leads).resolve_left full
                    | dir inner =>
                        have below (writer : Writer) : Ends source (source ++ dir ++ [name]) [] writer
                            (addDirToZip root refused base fuel (dir ++ [name]) writer) := by
                          cases fuel with
                          | zero => omega
                          | succ fuel =>
                              have read := readDir_iff.2 ⟨real, leads⟩
                              refine ⟨.ok (), [], [], ?_, .nothing⟩
                              simp [addDirToZip, read, bare inner leads, addEntries]
                        exact Ends.directory new (isDir_of real leads) below later
      have read := readDir_iff.2 ⟨here, found⟩
      simp only [addDirToZip, read]
      exact entries contents.items (fun _ member => member) unique.items writer

/-! What has been visited when the whole directory is in the archive. -/

/-- The later writer has all that the earlier one has. -/
def Writer.Within (writer after : Writer) : Prop :=
  writer.visits ⊆ after.visits ∧ writer.entries ⊆ after.entries

theorem Writer.Within.refl : writer.Within writer := ⟨List.Subset.refl _, List.Subset.refl _⟩

theorem Writer.Within.trans {middle : Writer} (first : writer.Within middle)
    (second : middle.Within after) : writer.Within after :=
  ⟨List.Subset.trans first.1 second.1, List.Subset.trans first.2 second.2⟩

theorem Writer.within_visit (path : Path) : writer.Within (writer.visit path place) :=
  ⟨List.subset_append_left _ _, List.Subset.refl _⟩

theorem Writer.within_store (stored : Stored) : writer.Within (writer.store stored) :=
  ⟨List.Subset.refl _, List.subset_append_left _ _⟩

/-- What becomes of an entry on the way to a whole archive. -/
structure Covered (root : Tree) (base dir place : Path)
    (recurse : Path → Writer → Option (Except AppError Unit × Writer)) (after : Writer)
    (name : String) : Prop where
  visited : ⟨dir ++ [name], place ++ [name]⟩ ∈ after.visits
  directory : isDir root (base ++ (dir ++ [name])) = true → ∃ writer ended,
    recurse (dir ++ [name]) writer = some (.ok (), ended) ∧ ended.Within after
  file : isDir root (base ++ (dir ++ [name])) = false → ∃ file content,
    openFile root (base ++ (dir ++ [name])) = some (file, content) ∧
      ⟨dir ++ [name], false, content, file⟩ ∈ after.entries

theorem Covered.later {ended : Writer} (covered : Covered root base dir place recurse ended name)
    (within : ended.Within after) : Covered root base dir place recurse after name := by
  refine ⟨within.1 covered.visited, ?_, ?_⟩
  · intro into
    obtain ⟨writer, done, called, below⟩ := covered.directory into
    exact ⟨writer, done, called, below.trans within⟩
  · intro noDir
    obtain ⟨file, content, opened, stored⟩ := covered.file noDir
    exact ⟨file, content, opened, within.2 stored⟩

theorem addEntries_covers
    (grows : ∀ path writer ended, recurse path writer = some (.ok (), ended) → writer.Within ended)
    (ends : addEntries root refused base dir place recurse items writer = some (.ok (), after)) :
    writer.Within after ∧
      ∀ name ∈ items.map Prod.fst, Covered root base dir place recurse after name := by
  induction items generalizing writer with
  | nil =>
      cases ends
      exact ⟨.refl, nofun⟩
  | cons entry rest ih =>
      obtain ⟨name, item⟩ := entry
      simp only [addEntries] at ends
      have visits : writer.Within (writer.visit (dir ++ [name]) (place ++ [name])) :=
        Writer.within_visit _
      have visited : ⟨dir ++ [name], place ++ [name]⟩ ∈
          (writer.visit (dir ++ [name]) (place ++ [name])).visits := by simp [Writer.visit]
      split at ends
      · rename_i into
        have stores := (writer.visit (dir ++ [name]) (place ++ [name])).within_store
          ⟨dir ++ [name], true, [], []⟩
        split at ends
        · rename_i ended called
          obtain ⟨within, others⟩ := ih ends
          have below := grows _ _ _ called
          refine ⟨((visits.trans stores).trans below).trans within, ?_⟩
          intro other member
          rcases List.mem_cons.1 member with rfl | member
          · refine ⟨within.1 (below.1 (stores.1 visited)), fun _ => ⟨_, ended, called, within⟩, ?_⟩
            rw [into]
            nofun
          · exact others other member
        · rename_i stopped
          exact (stopped _ _ ends).elim
      · rename_i noDir
        split at ends
        · rename_i file content opened
          obtain ⟨within, others⟩ := ih ends
          have stores := (writer.visit (dir ++ [name]) (place ++ [name])).within_store
            ⟨dir ++ [name], false, content, file⟩
          refine ⟨(visits.trans stores).trans within, ?_⟩
          intro other member
          rcases List.mem_cons.1 member with rfl | member
          · refine ⟨within.1 (stores.1 visited), fun into => absurd into noDir, fun _ => ?_⟩
            exact ⟨file, content, opened, within.2 (by simp [Writer.store])⟩
          · exact others other member
        · cases ends

theorem addDirToZip_covers
    (ends : addDirToZip root refused base fuel dir writer = some (.ok (), after)) :
    writer.Within after ∧ ∃ place contents less, readDir root (base ++ dir) = some (place, contents) ∧
      ∀ name ∈ contents.items.map Prod.fst,
        Covered root base dir place (addDirToZip root refused base less) after name := by
  induction fuel generalizing dir writer after with
  | zero => cases ends
  | succ fuel ih =>
      simp only [addDirToZip] at ends
      split at ends
      · rename_i place contents read
        obtain ⟨within, covered⟩ := addEntries_covers (fun _ _ _ called => (ih called).1) ends
        exact ⟨within, place, contents, fuel, read, covered⟩
      · cases ends

/-- The recursion has been through this directory. -/
def Zipped (root : Tree) (refused : Path → IoError) (base : Path) (after : Writer) (dir : Path) : Prop :=
  ∃ fuel writer ended, addDirToZip root refused base fuel dir writer = some (.ok (), ended) ∧
    ended.Within after

theorem Zipped.entry (zipped : Zipped root refused base after dir)
    (resolved : realPath root (base ++ dir) = some place)
    (found : root.get? place = some (.dir contents)) (member : name ∈ contents.items.map Prod.fst) :
    ∃ less, Covered root base dir place (addDirToZip root refused base less) after name := by
  obtain ⟨fuel, writer, ended, ends, within⟩ := zipped
  obtain ⟨_, other, inner, less, read, covered⟩ := addDirToZip_covers ends
  rw [readDir_iff.2 ⟨resolved, found⟩] at read
  cases read
  exact ⟨less, (covered name member).later within⟩

/-- Every directory of the tree has been gone through. -/
theorem Zipped.below {names : Path} (zipped : Zipped root refused base after [])
    (start : realPath root base = some source)
    (found : root.get? (source ++ names) = some (.dir contents)) :
    Zipped root refused base after names := by
  induction names using List.reverseRecOn generalizing contents with
  | nil => exact zipped
  | append_singleton front name ih =>
      rw [← List.append_assoc] at found
      obtain ⟨above, isDir, entry⟩ := Listing.get?_parent found
      have member := List.mem_map_of_mem (f := Prod.fst) (Listing.find?_mem entry)
      have here := realPath_below start isDir rfl
      obtain ⟨less, covered⟩ := (ih isDir).entry here isDir member
      have real := realPath_child here found rfl
      rw [List.append_assoc base] at real
      obtain ⟨writer, ended, called, within⟩ := covered.directory (isDir_of real found)
      exact ⟨less, writer, ended, called, within⟩

/-- What was visited and stored: every entry below the directory at most once, and no data from
elsewhere. -/
structure Archived (source : Path) (writer : Writer) : Prop where
  once : (writer.visits.map Visit.place).Nodup
  ofTree : ∀ visit ∈ writer.visits, source <+: visit.place ∧ visit.place ≠ source
  bytes : ∀ stored ∈ writer.entries, stored.data ≠ [] → source <+: stored.origin

/-- `zip_dir` comes to an end, and has archived the directory alone. -/
def ArchivesOnly (root : Tree) (refused : Path → IoError) (sourceDir : Path) : Prop :=
  ∃ source, realPath root sourceDir = some source ∧
    (∃ outcome writer, Zips root refused sourceDir outcome writer) ∧
      ∀ outcome writer, Zips root refused sourceDir outcome writer → Archived source writer

theorem archivesOnly_of_stays (distinct : root.Distinct) (exists_ : isDir root base = true)
    (stays : LinksStay root base) : ArchivesOnly root refused base := by
  obtain ⟨source, contents, start, found⟩ := isDir_iff.1 exists_
  have whole : root.get? (source ++ []) = some (.dir contents) := by simpa using found
  have here : realPath root (base ++ []) = some (source ++ []) := by simpa using start
  obtain ⟨outcome, visits, entries, ends, adds⟩ : Ends source (source ++ []) contents.items Writer.new
      (addDirToZip root refused base (contents.depth + 1) [] Writer.new) :=
    ends_addDirToZip distinct stays start (by omega) here whole
  refine ⟨source, start, ⟨outcome, _, _, ends⟩, ?_⟩
  intro outcome' writer zips
  obtain ⟨rfl, rfl⟩ := Zips.unique ⟨_, ends⟩ zips
  refine ⟨adds.once, ?_, adds.bytes⟩
  intro visit member
  obtain ⟨name, _, lies⟩ := adds.below visit member
  rw [List.append_nil] at lies
  refine ⟨(List.prefix_append _ _).trans lies, fun same => ?_⟩
  have longer := lies.length_le
  rw [same, List.length_append, List.length_singleton] at longer
  omega

/-- A link that an entire archive has taken in leads nowhere else. -/
theorem stays_of_archivesOnly (exists_ : isDir root base = true)
    (completes : Zips root refused base (.ok ()) after) (only : ArchivesOnly root refused base) :
    LinksStay root base := by
  obtain ⟨source, start, _, archives⟩ := only
  have archived := archives _ _ completes
  obtain ⟨fuel, ends⟩ := completes
  have zipped : Zipped root refused base after [] := ⟨fuel, _, after, ends, .refl⟩
  intro source' names target real start' isLink resolved
  rw [start] at start'
  cases start'
  induction names using List.reverseRecOn with
  | nil =>
      obtain ⟨_, contents, _, _⟩ := isDir_iff.1 exists_
      obtain ⟨item, leads, noLink⟩ := realPath_leads start
      rw [List.append_nil, leads] at isLink
      cases isLink
      cases noLink
  | append_singleton front name _ =>
      have found := isLink
      rw [← List.append_assoc] at found
      obtain ⟨above, isDir, entry⟩ := Listing.get?_parent found
      have member := List.mem_map_of_mem (f := Prod.fst) (Listing.find?_mem entry)
      have here := realPath_below start isDir rfl
      obtain ⟨less, covered⟩ := (zipped.below start isDir).entry here isDir member
      constructor
      · intro contents leads
        -- An entry that is seen through the link is seen in its own directory as well.
        cases inner : contents.items with
        | nil => rfl
        | cons first rest =>
            obtain ⟨writer, ended, called, within⟩ := covered.directory (isDir_of resolved leads)
            have through : Zipped root refused base after (front ++ [name]) :=
              ⟨less, writer, ended, called, within⟩
            have deeper : first.1 ∈ contents.items.map Prod.fst := by simp [inner]
            obtain ⟨_, seen⟩ := through.entry resolved leads deeper
            obtain ⟨inside, proper⟩ := archived.ofTree _ seen.visited
            have within : source <+: real := by
              rcases List.prefix_concat_iff.1 inside with same | within
              · exact absurd same.symm proper
              · exact within
            obtain ⟨sub, rfl⟩ := within
            have direct := realPath_below start leads rfl
            obtain ⟨_, again⟩ := (zipped.below start leads).entry direct leads deeper
            have same := List.inj_on_of_nodup_map archived.once seen.visited again.visited rfl
            have paths : front ++ [name] ++ [first.1] = sub ++ [first.1] := congrArg Visit.path same
            cases List.append_cancel_right paths
            rw [leads] at isLink
            cases isLink
      · intro content leads
        obtain ⟨file, content', opened, stored⟩ := covered.file (not_isDir_of resolved leads)
        rw [openFile_of resolved leads] at opened
        cases opened
        by_cases full : content = []
        · exact .inl full
        · exact .inr (archived.bytes _ stored full)

/-- A deployment with a page and a link to `/etc/passwd`. -/
def deployed : Tree :=
  .dir "etc" (.file "passwd" [114] .nil)
    (.dir "files" (.file "index.html" [60]
      (.link "passwd" ⟨true, [.name "etc", .name "passwd"]⟩ .nil)) .nil)

def notFound (_ : Path) : IoError := ⟨.notFound, "No such file or directory (os error 2)"⟩

end Berth.ZipDir
