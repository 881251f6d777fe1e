import Mathlib.Data.List.Infix

/-!
Directory trees with symbolic links, and how the operating system follows a path through one. A
directory lists its entries in the order in which they are read. On its way a path may meet a
limited number of links.
-/

namespace LinkTree

/-- A component of a path that is followed. -/
inductive Step (ν : Type) where
  | up
  | name (name : ν)
  deriving DecidableEq

structure Target (ν : Type) where
  absolute : Bool
  steps : List (Step ν)
  deriving DecidableEq

inductive Listing (ν α : Type) where
  | nil
  | file (name : ν) (content : List α) (rest : Listing ν α)
  | dir (name : ν) (contents rest : Listing ν α)
  | link (name : ν) (target : Target ν) (rest : Listing ν α)
  deriving DecidableEq

inductive Item (ν α : Type) where
  | file (content : List α)
  | dir (contents : Listing ν α)
  | link (target : Target ν)
  deriving DecidableEq

namespace Item

variable {ν α : Type}

def isDir : Item ν α → Bool
  | dir _ => true
  | file _ | link _ => false

def isLink : Item ν α → Bool
  | link _ => true
  | file _ | dir _ => false

end Item

variable {ν α : Type} [DecidableEq ν]

namespace Listing

/-- The entries, in the order of the listing. -/
def items : Listing ν α → List (ν × Item ν α)
  | nil => []
  | file name content rest => (name, .file content) :: rest.items
  | dir name contents rest => (name, .dir contents) :: rest.items
  | link name target rest => (name, .link target) :: rest.items

def find? (name : ν) : Listing ν α → Option (Item ν α)
  | nil => none
  | file other content rest => if other = name then some (.file content) else rest.find? name
  | dir other contents rest => if other = name then some (.dir contents) else rest.find? name
  | link other target rest => if other = name then some (.link target) else rest.find? name

/-- What stands at a place, links not followed. -/
def get? (root : Listing ν α) : List ν → Option (Item ν α)
  | [] => some (.dir root)
  | name :: rest =>
      match root.find? name with
      | some (.dir contents) => contents.get? rest
      | some item => if rest = [] then some item else none
      | none => none

/-- No directory has two entries of one name. -/
def Distinct : Listing ν α → Prop
  | nil => True
  | file name _ rest => name ∉ rest.items.map Prod.fst ∧ rest.Distinct
  | dir name contents rest =>
      name ∉ rest.items.map Prod.fst ∧ contents.Distinct ∧ rest.Distinct
  | link name _ rest => name ∉ rest.items.map Prod.fst ∧ rest.Distinct

def LinkFree : Listing ν α → Prop
  | nil => True
  | file _ _ rest => rest.LinkFree
  | dir _ contents rest => contents.LinkFree ∧ rest.LinkFree
  | link _ _ _ => False

/-- How much the files hold together. -/
def size : Listing ν α → Nat
  | nil => 0
  | file _ content rest => content.length + rest.size
  | dir _ contents rest => contents.size + rest.size
  | link _ _ rest => rest.size

variable {root listing contents : Listing ν α} {name : ν} {item : Item ν α} {front rest : List ν}

theorem find?_mem (found : root.find? name = some item) : (name, item) ∈ root.items := by
  induction root with
  | nil => cases found
  | file other content rest ih | link other target rest ih =>
      simp only [find?] at found
      split at found
      · rename_i same
        cases found
        simp [items, same]
      · exact List.mem_cons_of_mem _ (ih found)
  | dir other contents rest _ ih =>
      simp only [find?] at found
      split at found
      · rename_i same
        cases found
        simp [items, same]
      · exact List.mem_cons_of_mem _ (ih found)

/-- How many directories lie within each other, those counted that the links may lead to. -/
def depth : Listing ν α → Nat
  | nil => 0
  | file _ _ rest => rest.depth
  | dir _ contents rest => max (contents.depth + 1) rest.depth
  | link _ _ rest => max 1 rest.depth

omit [DecidableEq ν] in
theorem depth_dir (member : (name, .dir contents) ∈ root.items) : contents.depth < root.depth := by
  induction root with
  | nil => cases member
  | file other content rest ih =>
      rcases List.mem_cons.1 member with same | member
      · cases same
      · exact ih member
  | dir other inner rest _ ih =>
      simp only [depth]
      rcases List.mem_cons.1 member with same | member
      · cases same
        omega
      · have := ih member
        omega
  | link other target rest ih =>
      simp only [depth]
      rcases List.mem_cons.1 member with same | member
      · cases same
      · have := ih member
        omega

omit [DecidableEq ν] in
theorem depth_link {target : Target ν} (member : (name, .link target) ∈ root.items) :
    0 < root.depth := by
  induction root with
  | nil => cases member
  | file other content rest ih =>
      rcases List.mem_cons.1 member with same | member
      · cases same
      · exact ih member
  | dir other inner rest _ ih =>
      simp only [depth]
      omega
  | link other target rest ih =>
      simp only [depth]
      omega

theorem find?_of_mem (distinct : root.Distinct) (member : (name, item) ∈ root.items) :
    root.find? name = some item := by
  have apart {other : ν} {others : List (ν × Item ν α)} (member : (name, item) ∈ others)
      (new : other ∉ others.map Prod.fst) : other ≠ name := by
    rintro rfl
    exact new (List.mem_map_of_mem member)
  induction root with
  | nil => cases member
  | file other content rest ih | link other target rest ih =>
      rcases List.mem_cons.1 member with same | member
      · cases same
        simp [find?]
      · simp only [find?, if_neg (apart member distinct.1)]
        exact ih distinct.2 member
  | dir other contents rest _ ih =>
      rcases List.mem_cons.1 member with same | member
      · cases same
        simp [find?]
      · simp only [find?, if_neg (apart member distinct.1)]
        exact ih distinct.2.2 member

omit [DecidableEq ν] in
theorem Distinct.items (distinct : root.Distinct) : (root.items.map Prod.fst).Nodup := by
  induction root with
  | nil => exact List.nodup_nil
  | file name content rest ih | link name target rest ih =>
      exact List.nodup_cons.2 ⟨distinct.1, ih distinct.2⟩
  | dir name contents rest _ ih => exact List.nodup_cons.2 ⟨distinct.1, ih distinct.2.2⟩

omit [DecidableEq ν] in
theorem Distinct.below (distinct : root.Distinct)
    (member : (name, .dir contents) ∈ root.items) : contents.Distinct := by
  induction root with
  | nil => cases member
  | file other content rest ih | link other target rest ih =>
      rcases List.mem_cons.1 member with same | member
      · cases same
      · exact ih distinct.2 member
  | dir other inner rest _ ih =>
      rcases List.mem_cons.1 member with same | member
      · cases same
        exact distinct.2.1
      · exact ih distinct.2.2 member

/-- An entry hides nothing of the others. -/
theorem find?_none (new : name ∉ root.items.map Prod.fst) : root.find? name = none := by
  cases found : root.find? name with
  | none => rfl
  | some item => exact absurd (List.mem_map_of_mem (find?_mem found)) new

theorem Distinct.get? {place : List ν} (distinct : root.Distinct)
    (found : root.get? place = some (.dir contents)) : contents.Distinct := by
  induction place generalizing root with
  | nil =>
      cases found
      exact distinct
  | cons name rest ih =>
      simp only [Listing.get?] at found
      split at found
      · rename_i inner isDir
        exact ih (distinct.below (find?_mem isDir)) found
      · rename_i item noDir _
        split at found
        · cases found
          exact absurd rfl (noDir contents)
        · cases found
      · cases found

/-- Beyond a place there is what its directory has. -/
theorem get?_append : root.get? (front ++ rest) =
    match root.get? front with
    | some (.dir contents) => contents.get? rest
    | some item => if rest = [] then some item else none
    | none => none := by
  induction front generalizing root with
  | nil => rfl
  | cons name front ih =>
      simp only [List.cons_append, get?]
      cases found : root.find? name with
      | none => rfl
      | some item =>
          cases item with
          | dir contents => exact ih
          | file content | link target =>
              by_cases last : front = []
              · by_cases none : rest = [] <;> simp [last, none]
              · simp [last]

theorem get?_child (isDir : root.get? front = some (.dir contents)) :
    root.get? (front ++ [name]) = contents.find? name := by
  rw [get?_append, isDir]
  simp only [get?]
  cases contents.find? name with
  | none => rfl
  | some item => cases item <;> rfl

/-- Only a directory has anything in it. -/
theorem get?_parent (found : root.get? (front ++ [name]) = some item) :
    ∃ contents, root.get? front = some (.dir contents) ∧ contents.find? name = some item := by
  have below := found
  rw [get?_append] at below
  cases isDir : root.get? front with
  | none => simp [isDir] at below
  | some other =>
      cases other with
      | dir contents => exact ⟨contents, rfl, get?_child isDir ▸ found⟩
      | file content | link target => simp [isDir] at below

theorem get?_dropLast (isDir : root.get? front = some (.dir contents)) :
    ∃ above, root.get? front.dropLast = some (.dir above) := by
  induction front using List.reverseRecOn with
  | nil => exact ⟨contents, isDir⟩
  | append_singleton front name _ =>
      rw [List.dropLast_concat]
      obtain ⟨above, found, _⟩ := get?_parent isDir
      exact ⟨above, found⟩

end Listing

/-! Following a path. -/

/-- The place that a path leads to, and how many links it may still meet. A link is handed over with
what remains of the path. -/
def walk (root : Listing ν α) (onLink : List ν → List (Step ν) → Option (List ν × Nat))
    (left : Nat) : List ν → List (Step ν) → Option (List ν × Nat)
  | place, [] => some (place, left)
  | place, .up :: rest => walk root onLink left place.dropLast rest
  | place, .name name :: rest =>
      match root.get? (place ++ [name]) with
      | some (.dir _) => walk root onLink left (place ++ [name]) rest
      | some (.file _) => if rest = [] then some (place ++ [name], left) else none
      | some (.link target) =>
          onLink (if target.absolute then [] else place) (target.steps ++ rest)
      | none => none

def resolve (root : Listing ν α) : Nat → List ν → List (Step ν) → Option (List ν × Nat)
  | 0 => walk root (fun _ _ => none) 0
  | left + 1 => walk root (resolve root left) (left + 1)

/-- What happens at a link. -/
def follow (root : Listing ν α) : Nat → List ν → List (Step ν) → Option (List ν × Nat)
  | 0 => fun _ _ => none
  | left + 1 => resolve root left

theorem resolve_eq (root : Listing ν α) (left : Nat) :
    resolve root left = walk root (follow root left) left := by
  cases left <;> rfl

/-- As many links as the kernel follows. -/
def maxLinks : Nat := 40

/-- The place that a path from the root leads to, with every link followed. -/
def realPath (root : Listing ν α) (path : List ν) : Option (List ν) :=
  (resolve root maxLinks [] (path.map .name)).map Prod.fst

/-- `Path::is_dir`. -/
def isDir (root : Listing ν α) (path : List ν) : Bool :=
  match realPath root path with
  | some place => (root.get? place).any Item.isDir
  | none => false

variable {root contents : Listing ν α} {place real : List ν} {left less : Nat} {names : List ν}
variable {steps : List (Step ν)} {item : Item ν α}

variable {onLink : List ν → List (Step ν) → Option (List ν × Nat)}

/-- What a path leads to: a file or a directory. -/
def Leads (root : Listing ν α) (place : List ν) : Prop :=
  ∃ item, root.get? place = some item ∧ item.isLink = false

theorem walk_leads (followed : ∀ place contents steps, root.get? place = some (.dir contents) →
      onLink place steps = some (real, less) → Leads root real)
    (isDir : root.get? place = some (.dir contents))
    (walked : walk root onLink left place steps = some (real, less)) : Leads root real := by
  induction steps generalizing place contents with
  | nil =>
      cases walked
      exact ⟨_, isDir, rfl⟩
  | cons step rest ih =>
      cases step with
      | up =>
          obtain ⟨above, found⟩ := Listing.get?_dropLast isDir
          exact ih found walked
      | name name =>
          simp only [walk] at walked
          split at walked
          · rename_i found
            exact ih found walked
          · rename_i found
            split at walked <;> cases walked
            exact ⟨_, found, rfl⟩
          · rename_i target found
            cases absolute : target.absolute with
            | true =>
                rw [absolute] at walked
                exact followed [] root _ rfl walked
            | false =>
                rw [absolute] at walked
                exact followed place contents _ isDir walked
          · cases walked

theorem resolve_leads (isDir : root.get? place = some (.dir contents))
    (resolved : resolve root left place steps = some (real, less)) : Leads root real := by
  induction left generalizing place contents steps with
  | zero =>
      have walked : walk root (fun _ _ => none) 0 place steps = some (real, less) := resolved
      exact walk_leads (fun _ _ _ _ followed => (by cases followed)) isDir walked
  | succ left ih => exact walk_leads (fun _ _ _ found followed => ih found followed) isDir resolved

theorem realPath_leads {path : List ν} (resolved : realPath root path = some real) :
    Leads root real := by
  obtain ⟨⟨place, less⟩, found, rfl⟩ := Option.map_eq_some_iff.1 resolved
  have here : root.get? [] = some (.dir root) := rfl
  exact resolve_leads here found

theorem isDir_iff {path : List ν} : isDir root path = true ↔
    ∃ real contents, realPath root path = some real ∧ root.get? real = some (.dir contents) := by
  simp only [isDir]
  cases found : realPath root path with
  | none => simp
  | some place =>
      cases item : root.get? place with
      | none => simp [item]
      | some item' => cases item' <;> simp [item, Item.isDir]

/-- Nothing is below what is no directory. -/
theorem walk_below_file {name : ν} (noDir : ∀ contents, root.get? place ≠ some (.dir contents)) :
    walk root onLink left place (.name name :: steps) = none := by
  have nothing : root.get? (place ++ [name]) = none := by
    cases found : root.get? (place ++ [name]) with
    | none => rfl
    | some item =>
        obtain ⟨contents, isDir, _⟩ := Listing.get?_parent found
        exact absurd isDir (noDir contents)
  simp [walk, nothing]

theorem resolve_below_file (noDir : ∀ contents, root.get? place ≠ some (.dir contents))
    (below : names ≠ []) : resolve root left place (names.map .name) = none := by
  cases names with
  | nil => exact absurd rfl below
  | cons name rest =>
      rw [resolve_eq]
      exact walk_below_file noDir

/-- A longer path is followed from where its front leads. -/
theorem walk_append (followed : ∀ place steps, onLink place (steps ++ names.map .name) =
      (onLink place steps).bind fun reached => resolve root reached.2 reached.1 (names.map .name))
    (here : ∀ place, walk root onLink left place (names.map .name) =
      resolve root left place (names.map .name)) :
    walk root onLink left place (steps ++ names.map .name) =
      (walk root onLink left place steps).bind fun reached =>
        resolve root reached.2 reached.1 (names.map .name) := by
  induction steps generalizing place with
  | nil => exact here place
  | cons step rest ih =>
      cases step with
      | up => exact ih
      | name name =>
          simp only [List.cons_append, walk]
          split
          · exact ih
          · rename_i found
            by_cases last : rest = []
            · by_cases none : names = []
              · simp [last, none, resolve_eq, walk]
              · have stops : resolve root left (place ++ [name]) (names.map .name) = Option.none :=
                  resolve_below_file (fun contents => by simp [found]) none
                simp [last, none, stops]
            · simp [last]
          · rw [← List.append_assoc]
            exact followed _ _
          · rfl

theorem resolve_append : resolve root left place (steps ++ names.map .name) =
    (resolve root left place steps).bind fun reached =>
      resolve root reached.2 reached.1 (names.map .name) := by
  induction left generalizing place steps with
  | zero => exact walk_append (fun _ _ => rfl) fun _ => rfl
  | succ left ih => exact walk_append (fun _ _ => ih) fun _ => rfl

/-- No link stands at any of these places below the first. -/
def Plain (root : Listing ν α) : List ν → List ν → Prop
  | _, [] => True
  | place, name :: rest =>
      (root.get? (place ++ [name])).all (fun item => !item.isLink) = true ∧
        Plain root (place ++ [name]) rest

theorem plain_append {more : List ν} : Plain root place (names ++ more) ↔
    Plain root place names ∧ Plain root (place ++ names) more := by
  induction names generalizing place with
  | nil => simp [Plain]
  | cons name rest ih => simp [Plain, ih, and_assoc]

/-- Where no link is met, a path leads where it says. -/
theorem resolve_plain (plain : Plain root place names)
    (resolved : resolve root left place (names.map .name) = some (real, less)) :
    real = place ++ names ∧ less = left := by
  rw [resolve_eq] at resolved
  induction names generalizing place with
  | nil =>
      cases resolved
      simp
  | cons name rest ih =>
      simp only [List.map_cons, walk] at resolved
      split at resolved
      · obtain ⟨rfl, rfl⟩ := ih plain.2 resolved
        simp
      · split at resolved <;> cases resolved
        rename_i last
        simp [List.map_eq_nil_iff.1 last]
      · rename_i target found
        have noLink := plain.1
        simp [found, Item.isLink] at noLink
      · cases resolved

theorem realPath_append {path : List ν} (resolved : realPath root (path ++ names) = some real) :
    ∃ middle less final, resolve root maxLinks [] (path.map .name) = some (middle, less) ∧
      resolve root less middle (names.map .name) = some (real, final) := by
  obtain ⟨⟨place, final⟩, found, rfl⟩ := Option.map_eq_some_iff.1 resolved
  rw [List.map_append, resolve_append] at found
  obtain ⟨⟨middle, less⟩, first, second⟩ := Option.bind_eq_some_iff.1 found
  exact ⟨middle, less, final, first, second⟩

theorem realPath_eq {path : List ν} (resolved : realPath root path = some real) :
    ∃ less, resolve root maxLinks [] (path.map .name) = some (real, less) := by
  obtain ⟨⟨place, less⟩, found, rfl⟩ := Option.map_eq_some_iff.1 resolved
  exact ⟨less, found⟩

theorem realPath_plain {path : List ν} (here : realPath root path = some place)
    (plain : Plain root place names) (resolved : realPath root (path ++ names) = some real) :
    real = place ++ names := by
  obtain ⟨middle, less, final, first, second⟩ := realPath_append resolved
  obtain ⟨less', found⟩ := realPath_eq here
  rw [first] at found
  cases found
  exact (resolve_plain plain second).1

/-- What is no link is where its directory is. -/
theorem realPath_child {path : List ν} {name : ν} (here : realPath root path = some place)
    (found : root.get? (place ++ [name]) = some item) (noLink : item.isLink = false) :
    realPath root (path ++ [name]) = some (place ++ [name]) := by
  obtain ⟨less, resolved⟩ := realPath_eq here
  have steps : (path ++ [name]).map Step.name = path.map Step.name ++ [name].map Step.name := by simp
  rw [realPath, steps, resolve_append, resolved, Option.bind_some, resolve_eq]
  cases item with
  | file content | dir contents => simp [walk, found]
  | link target => cases noLink

/-- From a directory on, a place in the tree is its own real path. -/
theorem realPath_below {path : List ν} (here : realPath root path = some place)
    (found : root.get? (place ++ names) = some item) (noLink : item.isLink = false) :
    realPath root (path ++ names) = some (place ++ names) := by
  induction names using List.reverseRecOn generalizing item with
  | nil => simpa using here
  | append_singleton front name ih =>
      rw [← List.append_assoc] at found
      obtain ⟨contents, isDir, _⟩ := Listing.get?_parent found
      have above := ih isDir rfl
      rw [← List.append_assoc, ← List.append_assoc]
      exact realPath_child above found noLink

/-- The last of the names that is a link leads to this place, and these names come after it. -/
structure LastLink (root : Listing ν α) (path names place rest : List ν) : Prop where
  splits : ∃ front name before target, names = front ++ name :: rest ∧
    realPath root (path ++ front) = some before ∧
      root.get? (before ++ [name]) = some (.link target) ∧
        realPath root (path ++ front ++ [name]) = some place
  plain : Plain root place rest

theorem LastLink.leads {path rest : List ν} (last : LastLink root path names place rest)
    (resolved : realPath root (path ++ names) = some real) : real = place ++ rest := by
  obtain ⟨front, name, before, target, rfl, _, _, here⟩ := last.splits
  have whole : path ++ (front ++ name :: rest) = (path ++ front ++ [name]) ++ rest := by simp
  rw [whole] at resolved
  exact realPath_plain here last.plain resolved

theorem plain_or_lastLink {path start : List ν} (here : realPath root path = some start)
    (resolved : realPath root (path ++ names) = some real) :
    Plain root start names ∨ ∃ place rest, LastLink root path names place rest := by
  induction names using List.reverseRecOn generalizing real with
  | nil => exact .inl trivial
  | append_singleton front name ih =>
      rw [← List.append_assoc] at resolved
      obtain ⟨before, less, final, first, second⟩ := realPath_append resolved
      have reached : realPath root (path ++ front) = some before := by
        rw [realPath, first]
        rfl
      cases noLink : (root.get? (before ++ [name])).all (fun item => !item.isLink) with
      | true =>
          rcases ih reached with plain | ⟨place, rest, last⟩
          · refine .inl (plain_append.2 ⟨plain, ?_, trivial⟩)
            rw [← realPath_plain here plain reached]
            exact noLink
          · refine .inr ⟨place, rest ++ [name], ?_, ?_⟩
            · obtain ⟨upper, link, above, target, rfl, onWay, isLink, leads⟩ := last.splits
              exact ⟨upper, link, above, target, by simp, onWay, isLink, leads⟩
            · refine plain_append.2 ⟨last.plain, ?_, trivial⟩
              rw [← last.leads reached]
              exact noLink
      | false =>
          cases found : root.get? (before ++ [name]) with
          | none => simp [found] at noLink
          | some item =>
              cases item with
              | file content | dir contents => simp [found, Item.isLink] at noLink
              | link target =>
                  exact .inr ⟨real, [], ⟨front, name, before, target, rfl, reached, found, resolved⟩,
                    trivial⟩

end LinkTree
