import Mathlib.Data.List.Infix

/-!
Directory trees by the paths that exist in them. A path is the list of its components from the
root, and whatever exists lies in directories that exist.
-/

structure FileTree (ν : Type) where
  paths : List (List ν)
  closed : ∀ path ∈ paths, ∀ front, front <+: path → front ∈ paths

namespace FileTree

variable {ν : Type} [DecidableEq ν]

def empty : FileTree ν := ⟨[], by simp⟩

def Has (tree : FileTree ν) (path : List ν) : Prop := path ∈ tree.paths

instance (tree : FileTree ν) (path : List ν) : Decidable (tree.Has path) :=
  inferInstanceAs (Decidable (path ∈ tree.paths))

/-- The directory a new entry would be placed in exists. -/
def HasParent (tree : FileTree ν) (path : List ν) : Prop :=
  path.dropLast = [] ∨ tree.Has path.dropLast

instance (tree : FileTree ν) (path : List ν) : Decidable (tree.HasParent path) :=
  inferInstanceAs (Decidable (_ ∨ _))

/-- Adds the paths, with the directories they lie in. -/
def add (tree : FileTree ν) (paths : List (List ν)) : FileTree ν :=
  ⟨(paths.flatMap List.inits).filter (fun path => path ∉ tree.paths) ++ tree.paths, by
    intro path member front lies
    by_cases old : front ∈ tree.paths
    · simp [old]
    rcases List.mem_append.1 member with new | before
    · simp only [List.mem_filter, List.mem_flatMap, List.mem_inits] at new
      obtain ⟨⟨whole, listed, below⟩, _⟩ := new
      simp only [List.mem_append, List.mem_filter, List.mem_flatMap, List.mem_inits]
      exact .inl ⟨⟨whole, listed, lies.trans below⟩, by simpa using old⟩
    · exact absurd (tree.closed path before front lies) old⟩

/-- Removes what is below `root`, `root` included, except for the paths in `kept` and the
directories these lie in. -/
def removeBelow (tree : FileTree ν) (root : List ν) (kept : List (List ν)) : FileTree ν :=
  ⟨tree.paths.filter fun path => ¬ root <+: path ∨ ∃ rest ∈ kept, path <+: rest, by
    intro path member front lies
    simp only [List.mem_filter, decide_eq_true_eq] at member ⊢
    refine ⟨tree.closed path member.1 front lies, ?_⟩
    rcases member.2 with outside | ⟨rest, listed, below⟩
    · exact .inl fun inside => outside (inside.trans lies)
    · exact .inr ⟨rest, listed, lies.trans below⟩⟩

omit [DecidableEq ν] in
/-- A directory on the way to `target ++ rest` lies above `target` or below it. -/
theorem above_or_below {front target rest : List ν} (lies : front <+: target ++ rest) :
    front <+: target ∨ ∃ upper, upper <+: rest ∧ target ++ upper = front :=
  (List.prefix_or_prefix_of_prefix lies (List.prefix_append target rest)).imp_right
    fun ⟨upper, same⟩ => ⟨upper, (List.prefix_append_right_inj target).1 (same ▸ lies), same⟩

/-- Moves what is at `source` to `target`, inside the directories `target` lies in. -/
def move (tree : FileTree ν) (source target : List ν) : FileTree ν :=
  ⟨target.inits ++ tree.paths.map fun path =>
    if source <+: path then target ++ path.drop source.length else path, by
    intro path member front lies
    rcases List.mem_append.1 member with above | moved
    · exact List.mem_append_left _ ((List.mem_inits _ _).2 (lies.trans ((List.mem_inits _ _).1 above)))
    obtain ⟨old, oldMember, rfl⟩ := List.mem_map.1 moved
    by_cases below : source <+: old
    · obtain ⟨rest, rfl⟩ := below
      simp only [List.prefix_append, if_true, List.drop_left] at lies
      rcases above_or_below lies with above | ⟨upper, shorter, rfl⟩
      · exact List.mem_append_left _ ((List.mem_inits _ _).2 above)
      · refine List.mem_append_right _ (List.mem_map.2 ⟨source ++ upper, ?_, by simp⟩)
        exact tree.closed _ oldMember _ ((List.prefix_append_right_inj source).2 shorter)
    · rw [if_neg below] at lies
      refine List.mem_append_right _ (List.mem_map.2 ⟨front, ?_, ?_⟩)
      · exact tree.closed old oldMember front lies
      · exact if_neg fun inside => below (inside.trans lies)⟩

/-- The names of the entries of a directory. -/
def children (tree : FileTree ν) (directory : List ν) : List ν :=
  (tree.paths.filterMap fun path =>
    if path.dropLast = directory ∧ path ≠ [] then path.getLast? else none).eraseDups

variable {tree : FileTree ν} {path root source target : List ν}

omit [DecidableEq ν] in
theorem Has.front {front : List ν} (has : tree.Has path) (lies : front <+: path) :
    tree.Has front := tree.closed path has front lies

@[simp] theorem has_add {paths : List (List ν)} :
    (tree.add paths).Has path ↔ (∃ whole ∈ paths, path <+: whole) ∨ tree.Has path := by
  by_cases old : path ∈ tree.paths <;> simp [add, Has, old]

@[simp] theorem has_removeBelow {kept : List (List ν)} :
    (tree.removeBelow root kept).Has path ↔
      tree.Has path ∧ (¬ root <+: path ∨ ∃ rest ∈ kept, path <+: rest) := by
  simp [removeBelow, Has]

theorem has_move :
    (tree.move source target).Has path ↔
      path <+: target ∨ (tree.Has path ∧ ¬ source <+: path) ∨
        ∃ rest, path = target ++ rest ∧ tree.Has (source ++ rest) := by
  simp only [move, Has, List.mem_append, List.mem_inits, List.mem_map]
  refine or_congr_right ?_
  constructor
  · rintro ⟨old, member, rfl⟩
    by_cases below : source <+: old
    · obtain ⟨rest, rfl⟩ := below
      exact .inr ⟨rest, by simp, member⟩
    · exact .inl (by simpa [below] using member)
  · rintro (⟨member, outside⟩ | ⟨rest, rfl, member⟩)
    · exact ⟨path, member, by simp [outside]⟩
    · exact ⟨source ++ rest, member, by simp⟩

/-! What is below `root` does not change by what happens elsewhere. -/

/-- Neither of the paths lies below the other. -/
def Apart (root target : List ν) : Prop := ¬ root <+: target ∧ ¬ target <+: root

omit [DecidableEq ν] in
theorem Apart.not_below (apart : Apart root target) (below : root <+: path) : ¬ target <+: path :=
  fun also => (List.prefix_or_prefix_of_prefix below also).elim apart.1 apart.2

omit [DecidableEq ν] in
theorem Apart.append (apart : Apart root target) (rest : List ν) : ¬ root <+: target ++ rest :=
  fun below => apart.not_below below (List.prefix_append target rest)

theorem has_add_elsewhere {paths : List (List ν)} (elsewhere : ∀ whole ∈ paths, ¬ root <+: whole)
    (below : root <+: path) : (tree.add paths).Has path ↔ tree.Has path := by
  refine has_add.trans ⟨?_, .inr⟩
  rintro (⟨whole, member, lies⟩ | has)
  · exact absurd (below.trans lies) (elsewhere whole member)
  · exact has

theorem has_removeBelow_elsewhere {kept : List (List ν)} (apart : Apart root target)
    (below : root <+: path) : (tree.removeBelow target kept).Has path ↔ tree.Has path := by
  simp [apart.not_below below]

theorem has_move_elsewhere (apart : Apart root source) (apart' : Apart root target)
    (below : root <+: path) : (tree.move source target).Has path ↔ tree.Has path := by
  refine has_move.trans ⟨?_, fun has => .inr (.inl ⟨has, apart.not_below below⟩)⟩
  rintro (above | ⟨has, _⟩ | ⟨rest, rfl, _⟩)
  · exact absurd (below.trans above) apart'.1
  · exact has
  · exact absurd below (apart'.append rest)

theorem mem_children {name : ν} :
    name ∈ tree.children root ↔ tree.Has (root ++ [name]) := by
  simp only [children, List.mem_eraseDups, List.mem_filterMap, Has]
  constructor
  · rintro ⟨path, member, found⟩
    split at found
    · rename_i inside
      rw [List.getLast?_eq_some_iff] at found
      obtain ⟨front, rfl⟩ := found
      rw [List.dropLast_concat] at inside
      rwa [← inside.1]
    · cases found
  · intro member
    exact ⟨root ++ [name], member, by simp⟩

end FileTree
