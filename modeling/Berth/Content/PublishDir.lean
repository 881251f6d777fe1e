import Mathlib.Data.List.SplitOn
import Berth.Data.LinkTree
import Berth.Models

/-!
Which directory of a checkout is published. The guard looks at the components of `publish_dir`, and
`is_dir` follows the links that a checkout may contain.
-/

namespace Berth.PublishDir

open LinkTree

inductive Component where
  | rootDir
  | parentDir
  | normal (name : String)
  deriving DecidableEq

/-- A piece between slashes. A `.` stands for no component. -/
def component (piece : String) : Option Component :=
  if piece = "" ∨ piece = "." then none
  else if piece = ".." then some .parentDir
  else some (.normal piece)

/-- `Path::components`. -/
def components (path : String) : List Component :=
  (if path.toList.head? = some '/' then [.rootDir] else []) ++
    ((path.toList.splitOn '/').map String.ofList).filterMap component

def Component.escapes : Component → Bool
  | parentDir | rootDir => true
  | normal _ => false

def Component.name? : Component → Option String
  | normal name => some name
  | parentDir | rootDir => none

variable {α : Type}

abbrev Tree (α : Type) : Type := Listing String α

def resolvePublishDir (root : Tree α) (checkoutDir : List String) :
    Option String → Except AppError (List String)
  | none => .ok checkoutDir
  | some publishDir =>
      let relative := components publishDir
      if relative.any Component.escapes then .error (.invalidPublishDir publishDir)
      else
        let resolved := checkoutDir ++ relative.filterMap Component.name?
        if isDir root resolved then .ok resolved else .error (.invalidPublishDir publishDir)

/-- The names that `publish_dir` adds to the checkout's path. -/
def published : Option String → List String
  | none => []
  | some publishDir => (components publishDir).filterMap Component.name?

/-- The real path is the checkout's or below it. -/
def Inside (root : Tree α) (checkoutDir path : List String) : Prop :=
  ∃ checkout real, realPath root checkoutDir = some checkout ∧ realPath root path = some real ∧
    checkout <+: real

/-- `publish_dir` meets no link, or the last one that it meets leads into the checkout, or to a
directory above it from which the names that follow lead back. -/
def StaysInside (root : Tree α) (checkoutDir : List String) (publishDir : Option String) : Prop :=
  ∃ checkout, realPath root checkoutDir = some checkout ∧
    (Plain root checkout (published publishDir) ∨
      ∃ place rest, LastLink root checkoutDir (published publishDir) place rest ∧
        (checkout <+: place ∨ place <+: checkout ∧ checkout <+: place ++ rest))

variable {root : Tree α} {checkoutDir path checkout : List String} {publishDir : Option String}

theorem resolvePublishDir_ok (accepted : resolvePublishDir root checkoutDir publishDir = .ok path) :
    path = checkoutDir ++ published publishDir ∧
      (publishDir = none ∨ isDir root path = true) := by
  cases publishDir with
  | none =>
      cases accepted
      simp [published]
  | some publishDir =>
      simp only [resolvePublishDir] at accepted
      split at accepted
      · cases accepted
      · split at accepted <;> cases accepted
        rename_i exists_
        exact ⟨rfl, .inr exists_⟩

/-- A place with some names after it is inside a directory when it is inside itself, or above it on
the way that the names take. -/
theorem prefix_append_iff {place rest : List String} : checkout <+: place ++ rest ↔
    checkout <+: place ∨ place <+: checkout ∧ checkout <+: place ++ rest := by
  constructor
  · intro inside
    rcases List.prefix_or_prefix_of_prefix inside (List.prefix_append place rest) with within | above
    · exact .inl within
    · exact .inr ⟨above, inside⟩
  · rintro (within | ⟨_, inside⟩)
    · exact within.trans (List.prefix_append _ _)
    · exact inside

/-- A checkout with a link `site` to `/etc`. -/
def linked : Tree UInt8 :=
  .dir "etc" (.file "passwd" [114] .nil)
    (.dir "checkout" (.link "site" ⟨true, [.name "etc"]⟩ (.dir "dist" .nil .nil)) .nil)

end Berth.PublishDir
