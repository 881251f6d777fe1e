import Berth.Interleave.Machine

/-!
A file whose writes go on in the background. A write returns once its data is handed over; the next
one that has data waits for it, and dropping the file waits for nothing.
-/

namespace AsyncFile

open Interleave

variable {β : Type}

structure File (β : Type) where
  disk : List β
  inFlight : Option (List β)
  deriving DecidableEq

/-- `none` where the write has to wait. -/
def File.write (file : File β) (data : List β) : Option (File β) :=
  if data = [] then some file
  else match file.inFlight with
    | some _ => none
    | none => some { file with inFlight := some data }

def File.settle (file : File β) : Option (File β) :=
  file.inFlight.map fun data => ⟨file.disk ++ data, none⟩

/-- `found` is what is there when the file is opened again, after its writer has dropped it. -/
structure Writing (β : Type) where
  file : File β
  unwritten : List (List β)
  found : Option (List β)
  deriving DecidableEq

inductive Event where
  | write
  | settle
  | openAgain
  deriving DecidableEq

def step (writing : Writing β) : Event → Option (Writing β)
  | .write =>
      match writing.unwritten with
      | [] => none
      | data :: rest => (writing.file.write data).map fun file =>
          { writing with file, unwritten := rest }
  | .settle => writing.file.settle.map fun file => { writing with file }
  | .openAgain =>
      if writing.unwritten = [] ∧ writing.found = none then
        some { writing with found := some writing.file.disk }
      else none

/-- One file, written to in these slices. -/
def writer (slices : List (List β)) : Machine (Writing β) Event where
  initial := fun writing => writing = ⟨⟨[], none⟩, slices, none⟩
  step := step

/-- The file is opened only once nothing is in flight. -/
def Settled (writing : Writing β) (event : Event) : Prop :=
  event = .openAgain → writing.file.inFlight = none

variable {slices : List (List β)} {writing next : Writing β}

/-- Nothing is lost on the way, and what is found is a beginning of what was written. -/
structure Kept (slices : List (List β)) (writing : Writing β) : Prop where
  whole : writing.file.disk ++ writing.file.inFlight.getD [] ++ writing.unwritten.flatten =
    slices.flatten
  hasData : ∀ data, writing.file.inFlight = some data → data ≠ []
  found : ∀ content, writing.found = some content → content <+: slices.flatten

theorem kept_step {event : Event} (kept : Kept slices writing)
    (stepped : step writing event = some next) : Kept slices next := by
  obtain ⟨⟨disk, inFlight⟩, unwritten, found⟩ := writing
  have whole := kept.whole
  cases event with
  | write =>
      cases unwritten with
      | nil => cases stepped
      | cons data rest =>
          obtain ⟨file, written, rfl⟩ := Option.map_eq_some_iff.1 stepped
          simp only [File.write] at written
          split at written
          · rename_i empty
            cases written
            exact ⟨by simpa [empty] using whole, kept.hasData, kept.found⟩
          · rename_i nonempty
            cases inFlight with
            | some _ => cases written
            | none =>
                cases written
                refine ⟨by simpa using whole, fun other same => ?_, kept.found⟩
                cases same
                exact nonempty
  | settle =>
      obtain ⟨file, settled, rfl⟩ := Option.map_eq_some_iff.1 stepped
      obtain ⟨data, rfl, rfl⟩ := Option.map_eq_some_iff.1 settled
      exact ⟨by simpa using whole, nofun, kept.found⟩
  | openAgain =>
      simp only [step] at stepped
      split at stepped
      · rename_i ready
        cases stepped
        refine ⟨whole, kept.hasData, fun content same => ?_⟩
        cases same
        rw [← whole, List.append_assoc]
        exact List.prefix_append ..
      · cases stepped

theorem kept_of_reachable {fine : Writing β → Event → Prop}
    (reachable : (writer slices).ReachableBy fine writing) : Kept slices writing := by
  refine reachable.invariant (Kept slices) ?_ fun state event next kept stepped _ =>
    kept_step kept stepped
  rintro state rfl
  exact ⟨by simp, nofun, nofun⟩

/-- Where the file is opened only after the last write has settled, everything is found. -/
theorem found_of_settled (settled : (writer slices).ReachableBy Settled writing)
    (content : List β) (found : writing.found = some content) : content = slices.flatten := by
  suffices both : Kept slices writing ∧
      ∀ content, writing.found = some content → content = slices.flatten from both.2 content found
  refine settled.invariant
    (fun writing => Kept slices writing ∧
      ∀ content, writing.found = some content → content = slices.flatten) ?_ ?_
  · rintro state rfl
    exact ⟨⟨by simp, nofun, nofun⟩,
      nofun⟩
  · rintro state event next ⟨kept, before⟩ stepped isSettled
    refine ⟨kept_step kept stepped, ?_⟩
    cases event with
    | write =>
        simp only [writer, step] at stepped
        split at stepped
        · cases stepped
        · obtain ⟨_, -, rfl⟩ := Option.map_eq_some_iff.1 stepped
          exact before
    | settle =>
        obtain ⟨_, -, rfl⟩ := Option.map_eq_some_iff.1 stepped
        exact before
    | openAgain =>
        have settled := isSettled rfl
        simp only [writer, step] at stepped
        split at stepped
        · rename_i ready
          cases stepped
          intro content same
          cases same
          simpa [settled, ready.1] using kept.whole
        · cases stepped

/-- Every slice can be handed over with the last one that has data still in flight. -/
theorem exists_written (reachable : (writer slices).Reachable writing) :
    ∃ last, (writer slices).Reachable last ∧ last.unwritten = [] ∧ last.found = writing.found ∧
      ((writing.file.inFlight ≠ none ∨ writing.unwritten.flatten ≠ []) →
        last.file.inFlight ≠ none) := by
  obtain ⟨⟨disk, inFlight⟩, unwritten, found⟩ := writing
  induction unwritten generalizing disk inFlight with
  | nil => exact ⟨_, reachable, rfl, rfl, by simp⟩
  | cons data rest ih =>
      by_cases empty : data = []
      · have stepped : (writer slices).step ⟨⟨disk, inFlight⟩, data :: rest, found⟩ .write =
            some ⟨⟨disk, inFlight⟩, rest, found⟩ := by
          simp [writer, step, File.write, empty]
        obtain ⟨last, reached, written, same, busy⟩ := ih disk inFlight (reachable.step stepped)
        exact ⟨last, reached, written, same, by simpa [empty] using busy⟩
      · -- a write that is still in flight settles first
        have idle : ∃ disk, (writer slices).Reachable ⟨⟨disk, none⟩, data :: rest, found⟩ := by
          cases inFlight with
          | none => exact ⟨disk, reachable⟩
          | some before =>
              have settled : (writer slices).step ⟨⟨disk, some before⟩, data :: rest, found⟩ .settle =
                  some ⟨⟨disk ++ before, none⟩, data :: rest, found⟩ := rfl
              exact ⟨disk ++ before, reachable.step settled⟩
        obtain ⟨disk, idle⟩ := idle
        have stepped : (writer slices).step ⟨⟨disk, none⟩, data :: rest, found⟩ .write =
            some ⟨⟨disk, some data⟩, rest, found⟩ := by
          simp [writer, step, File.write, empty]
        obtain ⟨last, reached, written, same, busy⟩ := ih disk (some data) (idle.step stepped)
        exact ⟨last, reached, written, same, fun _ => busy (.inl (by simp))⟩

/-- Everything is found in every order exactly where there is nothing to be found. -/
theorem always_found_iff : (∀ writing, (writer slices).Reachable writing →
    ∀ content, writing.found = some content → content = slices.flatten) ↔ slices.flatten = [] := by
  constructor
  · intro complete
    refine Classical.byContradiction fun hasBytes => ?_
    have start : (writer slices).Reachable ⟨⟨[], none⟩, slices, none⟩ := .initial rfl
    obtain ⟨last, reached, written, notFound, busy⟩ := exists_written start
    have kept := kept_of_reachable reached
    obtain ⟨data, inFlight⟩ := Option.ne_none_iff_exists'.1 (busy (.inr hasBytes))
    have opened : (writer slices).step last .openAgain = some { last with found := last.file.disk } :=
      if_pos ⟨written, notFound⟩
    have all := complete _ (reached.step opened) last.file.disk rfl
    have whole := kept.whole
    rw [written, inFlight, ← all] at whole
    exact kept.hasData data inFlight (by simpa using whole)
  · intro none writing reachable content found
    have begins := (kept_of_reachable reachable).found content found
    rw [none] at begins ⊢
    exact List.prefix_nil.1 begins

end AsyncFile
