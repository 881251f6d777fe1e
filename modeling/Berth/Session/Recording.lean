import Mathlib.Logic.Function.Basic
import Berth.Session.RunLogs

/-!
What `run.log` of one deployment holds while its container keeps running and its agent connects and
disconnects. Every connection brings a pump of its own, with a stream that begins with the last
lines of the container's output. The container's lines are known by their number.
-/

namespace Berth.Recording

open Interleave
open Berth.RunLogs (Pumping)

/-- `TAIL_LINES`. -/
def tailLines : Nat := 256

/-- One task of `spawn_run_log_pump` with the stream it asks for. `first` is the first line of the
backlog, once the agent has the container's logs, and `next` the line that they give next. In
`coming` is what is on its way to the pump, and `none` there is the final chunk; when the stream is
not open any more nothing is added to it. -/
structure Pump where
  stage : Pumping
  first : Option Nat
  next : Nat
  coming : List (Option Nat)
  isOpen : Bool

/-- Who has the deployment's entry in the `LogRegistry`. -/
inductive Holder where
  | run (n : Nat)
  | other
  deriving DecidableEq

/-- `recorded` is what has been appended to the file, line by line. -/
structure Deployment where
  emitted : Nat
  recorded : List Nat
  holder : Option Holder
  started : Nat
  pumps : Nat → Option Pump

/-- A write of the file may fail (`persisted`). When a session ends, the first `buffered` messages of
a stream are already with the hub, and the others are lost. -/
inductive Event where
  | emit
  | spawn
  | requested (n : Nat)
  | failed (n : Nat)
  | tail (n : Nat)
  | follow (n : Nat)
  | sourceEnds (n : Nat)
  | disconnect (n buffered : Nat)
  | tryNew (n : Nat)
  | receive (n : Nat) (persisted : Bool)
  | endStream (n : Nat)
  | occupy
  | vacate
  deriving DecidableEq

namespace Pump

variable (pump : Pump)

def new : Pump where
  stage := .calling
  first := none
  next := 0
  coming := []
  isOpen := true

/-- `logs` with `follow` and `tail`. -/
def tail (emitted : Nat) : Option Pump :=
  if pump.isOpen = true ∧ pump.first = none then
    some { pump with first := some (emitted - tailLines), next := emitted - tailLines }
  else none

/-- `stream_container_logs` passes the next line on. -/
def follow (emitted : Nat) : Option Pump :=
  if pump.isOpen = true ∧ pump.first.isSome = true ∧ pump.next < emitted then
    some { pump with next := pump.next + 1, coming := pump.coming ++ [some pump.next] }
  else none

/-- The logs end, or give an error: the final chunk is the last. -/
def sourceEnds : Option Pump :=
  if pump.isOpen = true ∧ pump.first.isSome = true then
    some { pump with coming := pump.coming ++ [none], isOpen := false }
  else none

def disconnect (buffered : Nat) : Pump :=
  { pump with coming := pump.coming.take buffered, isOpen := false }

end Pump

namespace Deployment

variable (x : Deployment) (n : Nat)

def setPump (pump : Pump) : Deployment :=
  { x with pumps := Function.update x.pumps n (some pump) }

/-- A step of a pump's own. -/
def ofPump (step : Pump → Option Pump) : Option Deployment :=
  (x.pumps n).bind fun pump => (step pump).map (x.setPump n)

/-- `LogPump::try_new`. -/
def tryNew : Option Deployment :=
  (x.pumps n).bind fun pump =>
    match pump.stage, x.holder with
    | .opening, none =>
        some { x.setPump n { pump with stage := .pumping } with holder := some (.run n) }
    | .opening, some _ => some (x.setPump n { pump with stage := .ending false })
    | _, _ => none

/-- `rx.recv().await`, and `push`. The final chunk has no data. -/
def receive (persisted : Bool) : Option Deployment :=
  (x.pumps n).bind fun pump =>
    match pump.stage, pump.coming with
    | .pumping, some line :: rest =>
        some { x.setPump n { pump with coming := rest } with
          recorded := if persisted then x.recorded ++ [line] else x.recorded }
    | .pumping, none :: rest =>
        some (x.setPump n { pump with coming := rest, stage := .ending true })
    | .pumping, [] =>
        if pump.isOpen then none else some (x.setPump n { pump with stage := .ending true })
    | _, _ => none

/-- `end_stream`; then the task is over, and drops the `LogPump` if it has one. -/
def endStream : Option Deployment :=
  (x.pumps n).bind fun pump =>
    match pump.stage with
    | .ending true => some { x.setPump n { pump with stage := .done } with holder := none }
    | .ending false => some (x.setPump n { pump with stage := .done })
    | _ => none

def step : Event → Option Deployment
  | .emit => some { x with emitted := x.emitted + 1 }
  | .spawn => some { x.setPump x.started .new with started := x.started + 1 }
  | .requested n => x.ofPump n fun pump =>
      if pump.stage = .calling then some { pump with stage := .opening } else none
  | .failed n => x.ofPump n fun pump =>
      if pump.stage = .calling then some { pump with stage := .done } else none
  | .tail n => x.ofPump n fun pump => pump.tail x.emitted
  | .follow n => x.ofPump n fun pump => pump.follow x.emitted
  | .sourceEnds n => x.ofPump n Pump.sourceEnds
  | .disconnect n buffered => x.ofPump n fun pump => some (pump.disconnect buffered)
  | .tryNew n => x.tryNew n
  | .receive n persisted => x.receive n persisted
  | .endStream n => x.endStream n
  | .occupy => if x.holder = none then some { x with holder := some .other } else none
  | .vacate => if x.holder = some .other then some { x with holder := none } else none

def new : Deployment where
  emitted := 0
  recorded := []
  holder := none
  started := 0
  pumps := fun _ => none

end Deployment

abbrev machine : Machine Deployment Event where
  initial := fun x => x = Deployment.new
  step := Deployment.step

/-- No pump writes the file whose stream begins with lines that the file has already: when it gets
its backlog, or else when it is registered, every recorded line is older. -/
def NoOverlap (x : Deployment) : Event → Prop
  | .tail n => x.holder = some (.run n) → ∀ line ∈ x.recorded, line < x.emitted - tailLines
  | .tryNew n => x.holder = none →
      ∀ pump ∈ x.pumps n, ∀ first ∈ pump.first, ∀ line ∈ x.recorded, line < first
  | _ => True

instance (x : Deployment) (event : Event) : Decidable (NoOverlap x event) :=
  match event with
  | .tail n =>
      inferInstanceAs (Decidable (x.holder = some (.run n) →
        ∀ line ∈ x.recorded, line < x.emitted - tailLines))
  | .tryNew n =>
      inferInstanceAs (Decidable (x.holder = none →
        ∀ pump ∈ x.pumps n, ∀ first ∈ pump.first, ∀ line ∈ x.recorded, line < first))
  | .emit | .spawn | .requested _ | .failed _ | .follow _ | .sourceEnds _ | .disconnect _ _
  | .receive _ _ | .endStream _ | .occupy | .vacate => isTrue trivial

variable {x next : Deployment} {pump moved : Pump} {n m : Nat} {event : Event}

/-- The lines that are on their way. -/
def Pump.lines (pump : Pump) : List Nat := pump.coming.filterMap id

/-- The lines on their way are in order, from the first of the backlog to the next one to come. -/
structure Pump.Ordered (pump : Pump) : Prop where
  unopened : pump.first = none → pump.coming = []
  first_le : ∀ first ∈ pump.first, first ≤ pump.next
  lines : ∀ first ∈ pump.first, ∀ line ∈ pump.lines, first ≤ line ∧ line < pump.next
  sorted : pump.lines.Pairwise (· < ·)

/-- What the stream has still to bring is newer than these lines. -/
structure Pump.Ahead (pump : Pump) (recorded : List Nat) : Prop where
  next : pump.first.isSome = true → ∀ old ∈ recorded, old < pump.next
  lines : ∀ line ∈ pump.lines, ∀ old ∈ recorded, old < line

/-- The pump has a `LogPump`. -/
def Pump.holds (pump : Pump) : Bool := pump.stage = .pumping ∨ pump.stage = .ending true

theorem Pump.Ordered.stage (ordered : pump.Ordered) (stage : Pumping) :
    ({ pump with stage := stage } : Pump).Ordered :=
  ⟨ordered.unopened, ordered.first_le, ordered.lines, ordered.sorted⟩

theorem Pump.Ahead.stage {recorded : List Nat} (ahead : pump.Ahead recorded) (stage : Pumping) :
    ({ pump with stage := stage } : Pump).Ahead recorded :=
  ⟨ahead.next, ahead.lines⟩

@[simp] theorem setPump_pumps : (x.setPump n pump).pumps m =
    if m = n then some pump else x.pumps m := by
  simp [Deployment.setPump, Function.update_apply]

theorem Pump.lines_append (line : Nat) :
    ({ pump with coming := pump.coming ++ [some line] } : Pump).lines = pump.lines ++ [line] := by
  simp [Pump.lines]

theorem Pump.Ahead.unopened {recorded : List Nat} (unopened : pump.first = none)
    (nothing : pump.coming = []) : pump.Ahead recorded := by
  refine ⟨by simp [unopened], ?_⟩
  simp [Pump.lines, nothing]

theorem Pump.Ordered.tail (ordered : pump.Ordered) {emitted : Nat}
    (stepped : pump.tail emitted = some moved) : moved.Ordered := by
  simp only [Pump.tail] at stepped
  split at stepped <;> cases stepped
  rename_i closed
  have nothing := ordered.unopened closed.2
  constructor <;> simp [Pump.lines, nothing]

theorem Pump.Ordered.follow (ordered : pump.Ordered) {emitted : Nat}
    (stepped : pump.follow emitted = some moved) : moved.Ordered := by
  simp only [Pump.follow] at stepped
  split at stepped <;> cases stepped
  rename_i going
  have lines := pump.lines_append pump.next
  constructor
  · intro unopened
    have unopened : pump.first = none := unopened
    simp [unopened] at going
  · intro first found
    have := ordered.first_le first found
    show first ≤ pump.next + 1
    omega
  · intro first found line member
    have member : line ∈ pump.lines ++ [pump.next] := lines ▸ member
    have := ordered.first_le first found
    rcases List.mem_append.1 member with old | new
    · have := ordered.lines first found line old
      show first ≤ line ∧ line < pump.next + 1
      omega
    · cases List.mem_singleton.1 new
      show first ≤ pump.next ∧ pump.next < pump.next + 1
      omega
  · obtain ⟨first, found⟩ := Option.isSome_iff_exists.1 going.2.1
    have sorted : (pump.lines ++ [pump.next]).Pairwise (· < ·) := by
      refine List.pairwise_append.2 ⟨ordered.sorted, List.pairwise_singleton _ _, ?_⟩
      intro line member last isLast
      cases List.mem_singleton.1 isLast
      exact (ordered.lines first found line member).2
    exact lines ▸ sorted

theorem Pump.Ahead.follow {recorded : List Nat} (ahead : pump.Ahead recorded) {emitted : Nat}
    (stepped : pump.follow emitted = some moved) : moved.Ahead recorded := by
  simp only [Pump.follow] at stepped
  split at stepped <;> cases stepped
  rename_i going
  have older := ahead.next going.2.1
  constructor
  · intro _ old member
    exact Nat.lt_succ_of_lt (older old member)
  · intro line member old isOld
    have member : line ∈ pump.lines ++ [pump.next] := pump.lines_append pump.next ▸ member
    rcases List.mem_append.1 member with coming | new
    · exact ahead.lines line coming old isOld
    · cases List.mem_singleton.1 new
      exact older old isOld

theorem Pump.sourceEnds_eq (stepped : pump.sourceEnds = some moved) :
    moved.first = pump.first ∧ moved.next = pump.next ∧ moved.lines = pump.lines ∧
      moved.stage = pump.stage ∧ pump.first ≠ none := by
  simp only [Pump.sourceEnds] at stepped
  split at stepped <;> cases stepped
  rename_i going
  refine ⟨rfl, rfl, by simp [Pump.lines], rfl, ?_⟩
  intro unopened
  simp [unopened] at going

theorem Pump.disconnect_lines (buffered : Nat) :
    (pump.disconnect buffered).lines.Sublist pump.lines :=
  (List.take_sublist _ _).filterMap _

theorem Pump.Ordered.disconnect (ordered : pump.Ordered) (buffered : Nat) :
    (pump.disconnect buffered).Ordered := by
  have fewer := pump.disconnect_lines buffered
  constructor
  · intro unopened
    simp [Pump.disconnect, ordered.unopened unopened]
  · exact ordered.first_le
  · exact fun first found line member => ordered.lines first found line (fewer.subset member)
  · exact ordered.sorted.sublist fewer

/-- The lines on their way, all but the first. -/
theorem Pump.Ordered.behind (ordered : pump.Ordered) {message : Option Nat}
    {behind : List (Option Nat)} (coming : pump.coming = message :: behind) :
    ({ pump with coming := behind } : Pump).Ordered := by
  have fewer : ({ pump with coming := behind } : Pump).lines.Sublist pump.lines := by
    simpa only [Pump.lines, coming] using (List.sublist_cons_self message behind).filterMap id
  constructor
  · intro unopened
    simp [ordered.unopened unopened] at coming
  · exact ordered.first_le
  · exact fun first found line member => ordered.lines first found line (fewer.subset member)
  · exact ordered.sorted.sublist fewer

/-- What is recorded is in order, and only the pump that the registry has adds to it. -/
structure Faithful (x : Deployment) : Prop where
  registered : ∀ n pump, x.pumps n = some pump → pump.holds = true → x.holder = some (.run n)
  ordered : ∀ n pump, x.pumps n = some pump → pump.Ordered
  ahead : ∀ n pump, x.pumps n = some pump → x.holder = some (.run n) → pump.Ahead x.recorded
  recorded : x.recorded.Pairwise (· < ·)

theorem Faithful.setPump (faithful : Faithful x) (ordered : pump.Ordered)
    (holds : pump.holds = true → x.holder = some (.run n))
    (ahead : x.holder = some (.run n) → pump.Ahead x.recorded) : Faithful (x.setPump n pump) := by
  constructor
  · intro m other found isHolding
    rw [setPump_pumps] at found
    split at found
    · rename_i same
      cases found
      exact same ▸ holds isHolding
    · exact faithful.registered m other found isHolding
  · intro m other found
    rw [setPump_pumps] at found
    split at found
    · cases found
      exact ordered
    · exact faithful.ordered m other found
  · intro m other found isHolder
    rw [setPump_pumps] at found
    split at found
    · rename_i same
      cases found
      exact ahead (same ▸ isHolder)
    · exact faithful.ahead m other found isHolder
  · exact faithful.recorded

theorem ofPump_eq {step : Pump → Option Pump} (stepped : x.ofPump n step = some next) :
    ∃ pump moved, x.pumps n = some pump ∧ step pump = some moved ∧ next = x.setPump n moved := by
  obtain ⟨pump, found, stepped⟩ := Option.bind_eq_some_iff.1 stepped
  obtain ⟨moved, moves, rfl⟩ := Option.map_eq_some_iff.1 stepped
  exact ⟨pump, moved, found, moves, rfl⟩

theorem Faithful.tail (faithful : Faithful x)
    (stepped : x.ofPump n (fun pump => pump.tail x.emitted) = some next)
    (noOverlap : x.holder = some (.run n) → ∀ line ∈ x.recorded, line < x.emitted - tailLines) :
    Faithful next := by
  obtain ⟨pump, moved, found, moves, rfl⟩ := ofPump_eq stepped
  have ordered := faithful.ordered n pump found
  refine faithful.setPump (ordered.tail moves) ?_ ?_
  · intro isHolding
    refine faithful.registered n pump found ?_
    simp only [Pump.tail] at moves
    split at moves <;> cases moves
    exact isHolding
  · intro isHolder
    simp only [Pump.tail] at moves
    split at moves <;> cases moves
    rename_i closed
    refine ⟨fun _ => noOverlap isHolder, ?_⟩
    simp [Pump.lines, ordered.unopened closed.2]

theorem Faithful.follow (faithful : Faithful x)
    (stepped : x.ofPump n (fun pump => pump.follow x.emitted) = some next) : Faithful next := by
  obtain ⟨pump, moved, found, moves, rfl⟩ := ofPump_eq stepped
  refine faithful.setPump ((faithful.ordered n pump found).follow moves) ?_ ?_
  · intro isHolding
    refine faithful.registered n pump found ?_
    simp only [Pump.follow] at moves
    split at moves <;> cases moves
    exact isHolding
  · exact fun isHolder => (faithful.ahead n pump found isHolder).follow moves

theorem Faithful.sourceEnds (faithful : Faithful x)
    (stepped : x.ofPump n Pump.sourceEnds = some next) : Faithful next := by
  obtain ⟨pump, moved, found, moves, rfl⟩ := ofPump_eq stepped
  obtain ⟨first, nextLine, lines, stage, opened⟩ := Pump.sourceEnds_eq moves
  have ordered := faithful.ordered n pump found
  refine faithful.setPump ?_ ?_ ?_
  · constructor
    · exact fun unopened => absurd (first ▸ unopened) opened
    · rw [first, nextLine]
      exact ordered.first_le
    · rw [first, nextLine, lines]
      exact ordered.lines
    · rw [lines]
      exact ordered.sorted
  · intro isHolding
    refine faithful.registered n pump found ?_
    simpa only [Pump.holds, stage] using isHolding
  · intro isHolder
    have ahead := faithful.ahead n pump found isHolder
    constructor
    · rw [first, nextLine]
      exact ahead.next
    · rw [lines]
      exact ahead.lines

theorem Faithful.disconnect (faithful : Faithful x) {buffered : Nat}
    (stepped : x.ofPump n (fun pump => some (pump.disconnect buffered)) = some next) :
    Faithful next := by
  obtain ⟨pump, moved, found, moves, rfl⟩ := ofPump_eq stepped
  cases moves
  refine faithful.setPump ((faithful.ordered n pump found).disconnect buffered) ?_ ?_
  · exact faithful.registered n pump found
  · intro isHolder
    have ahead := faithful.ahead n pump found isHolder
    exact ⟨ahead.next, fun line member =>
      ahead.lines line ((pump.disconnect_lines buffered).subset member)⟩

/-- The call of a pump comes back. -/
theorem Faithful.answered (faithful : Faithful x) {stage : Pumping}
    (waiting : ({ pump with stage := stage } : Pump).holds = false)
    (found : x.pumps n = some pump) : Faithful (x.setPump n { pump with stage := stage }) := by
  refine faithful.setPump ((faithful.ordered n pump found).stage stage) ?_ ?_
  · intro isHolding
    rw [waiting] at isHolding
    cases isHolding
  · exact fun isHolder => (faithful.ahead n pump found isHolder).stage stage

theorem Faithful.tryNew (faithful : Faithful x) (stepped : x.tryNew n = some next)
    (noOverlap : x.holder = none →
      ∀ pump ∈ x.pumps n, ∀ first ∈ pump.first, ∀ line ∈ x.recorded, line < first) :
    Faithful next := by
  obtain ⟨pump, found, stepped⟩ := Option.bind_eq_some_iff.1 stepped
  have ordered := faithful.ordered n pump found
  split at stepped
  · rename_i free
    cases stepped
    constructor
    · intro m other foundOther isHolding
      simp only [setPump_pumps] at foundOther
      split at foundOther
      · rename_i same
        rw [same]
      · have held := faithful.registered m other foundOther isHolding
        rw [free] at held
        cases held
    · intro m other foundOther
      simp only [setPump_pumps] at foundOther
      split at foundOther
      · cases foundOther
        exact ordered.stage _
      · exact faithful.ordered m other foundOther
    · intro m other foundOther isHolder
      cases isHolder
      simp only [setPump_pumps, if_true] at foundOther
      cases foundOther
      have older := noOverlap free pump found
      refine Pump.Ahead.stage ?_ _
      cases opened : pump.first with
      | none => exact Pump.Ahead.unopened opened (ordered.unopened opened)
      | some first =>
          constructor
          · intro _ old isOld
            have := older first opened old isOld
            have := ordered.first_le first opened
            omega
          · intro line member old isOld
            have := older first opened old isOld
            have := ordered.lines first opened line member
            omega
    · exact faithful.recorded
  · rename_i opening _
    cases stepped
    exact faithful.answered (by simp [Pump.holds]) found
  · cases stepped

theorem Faithful.receive (faithful : Faithful x) {persisted : Bool}
    (stepped : x.receive n persisted = some next) : Faithful next := by
  obtain ⟨pump, found, stepped⟩ := Option.bind_eq_some_iff.1 stepped
  have ordered := faithful.ordered n pump found
  split at stepped
  · rename_i line behind pumping coming
    cases stepped
    have holder := faithful.registered n pump found (by simp [Pump.holds, pumping])
    have ahead := faithful.ahead n pump found holder
    have lines : pump.lines = line :: ({ pump with coming := behind } : Pump).lines := by
      simp [Pump.lines, coming]
    have sorted := ordered.sorted
    rw [lines] at sorted
    obtain ⟨newest, _⟩ := List.pairwise_cons.1 sorted
    have kept : Faithful (x.setPump n { pump with coming := behind }) := by
      refine faithful.setPump (ordered.behind coming) (fun _ => holder) fun _ => ⟨ahead.next, ?_⟩
      exact fun other member => ahead.lines other (by rw [lines]; exact List.mem_cons_of_mem _ member)
    cases persisted with
    | false => exact kept
    | true =>
        refine ⟨kept.registered, kept.ordered, ?_, ?_⟩
        · intro m other foundOther isHolder
          have same : m = n := by
            have isHolder : x.holder = some (.run m) := isHolder
            rw [holder] at isHolder
            cases isHolder
            rfl
          subst same
          simp only [setPump_pumps, if_true] at foundOther
          cases foundOther
          show Pump.Ahead _ (x.recorded ++ [line])
          have opened : pump.first.isSome = true := by
            cases unopened : pump.first with
            | none => simp [ordered.unopened unopened] at coming
            | some _ => rfl
          obtain ⟨first, foundFirst⟩ := Option.isSome_iff_exists.1 opened
          constructor
          · intro _ old isOld
            rcases List.mem_append.1 isOld with isOld | isNew
            · exact ahead.next opened old isOld
            · cases List.mem_singleton.1 isNew
              exact (ordered.lines first foundFirst line (by simp [lines])).2
          · intro other member old isOld
            rcases List.mem_append.1 isOld with isOld | isNew
            · exact ahead.lines other (by rw [lines]; exact List.mem_cons_of_mem _ member) old isOld
            · cases List.mem_singleton.1 isNew
              exact newest other member
        · show (x.recorded ++ [line]).Pairwise (· < ·)
          refine List.pairwise_append.2 ⟨faithful.recorded, List.pairwise_singleton _ _, ?_⟩
          intro old isOld last isLast
          cases List.mem_singleton.1 isLast
          exact ahead.lines line (by simp [lines]) old isOld
  · rename_i behind pumping coming
    cases stepped
    have holder := faithful.registered n pump found (by simp [Pump.holds, pumping])
    have ahead := faithful.ahead n pump found holder
    refine faithful.setPump ((ordered.behind coming).stage _) (fun _ => holder) fun _ => ?_
    refine ⟨ahead.next, fun line member => ahead.lines line ?_⟩
    simpa [Pump.lines, coming] using member
  · rename_i pumping coming
    split at stepped <;> cases stepped
    have holder := faithful.registered n pump found (by simp [Pump.holds, pumping])
    exact faithful.setPump (ordered.stage _) (fun _ => holder)
      fun _ => (faithful.ahead n pump found holder).stage _
  · cases stepped

theorem Faithful.endStream (faithful : Faithful x) (stepped : x.endStream n = some next) :
    Faithful next := by
  obtain ⟨pump, found, stepped⟩ := Option.bind_eq_some_iff.1 stepped
  have kept : Faithful (x.setPump n { pump with stage := .done }) :=
    faithful.answered (by simp [Pump.holds]) found
  split at stepped
  · rename_i ending
    cases stepped
    have holder := faithful.registered n pump found (by simp [Pump.holds, ending])
    refine ⟨?_, kept.ordered, fun _ _ _ isHolder => (by cases isHolder), kept.recorded⟩
    intro m other foundOther isHolding
    have held : x.holder = some (.run m) := kept.registered m other foundOther isHolding
    rw [holder] at held
    cases held
    simp only [setPump_pumps, if_true] at foundOther
    cases foundOther
    simp [Pump.holds] at isHolding
  · cases stepped
    exact kept
  · cases stepped

theorem Faithful.moves (faithful : Faithful x) (stepped : x.step event = some next)
    (noOverlap : NoOverlap x event) : Faithful next := by
  cases event with
  | emit =>
      cases stepped
      exact ⟨faithful.registered, faithful.ordered, faithful.ahead, faithful.recorded⟩
  | spawn =>
      cases stepped
      have kept : Faithful (x.setPump x.started .new) := by
        refine faithful.setPump ⟨fun _ => rfl, by simp [Pump.new], by simp [Pump.new], ?_⟩ ?_ ?_
        · simp [Pump.new, Pump.lines]
        · simp [Pump.new, Pump.holds]
        · exact fun _ => Pump.Ahead.unopened rfl rfl
      exact ⟨kept.registered, kept.ordered, kept.ahead, kept.recorded⟩
  | requested n | failed n =>
      obtain ⟨pump, moved, found, moves, rfl⟩ := ofPump_eq stepped
      split at moves <;> cases moves
      exact faithful.answered (by simp [Pump.holds]) found
  | tail n => exact faithful.tail stepped noOverlap
  | follow n => exact faithful.follow stepped
  | sourceEnds n => exact faithful.sourceEnds stepped
  | disconnect n buffered => exact faithful.disconnect stepped
  | tryNew n => exact faithful.tryNew stepped noOverlap
  | receive n persisted => exact faithful.receive stepped
  | endStream n => exact faithful.endStream stepped
  | occupy =>
      simp only [Deployment.step] at stepped
      split at stepped <;> cases stepped
      rename_i free
      refine ⟨fun n pump found isHolding => ?_, faithful.ordered, fun _ _ _ isHolder => ?_,
        faithful.recorded⟩
      · have held := faithful.registered n pump found isHolding
        rw [free] at held
        cases held
      · cases isHolder
  | vacate =>
      simp only [Deployment.step] at stepped
      split at stepped <;> cases stepped
      rename_i occupied
      refine ⟨fun n pump found isHolding => ?_, faithful.ordered, fun _ _ _ isHolder => ?_,
        faithful.recorded⟩
      · have held := faithful.registered n pump found isHolding
        rw [occupied] at held
        cases held
      · cases isHolder

/-- As long as no stream brings recorded lines again, `run.log` has each line once, in order. -/
theorem recorded_in_order (reachable : machine.ReachableBy NoOverlap x) :
    x.recorded.Pairwise (· < ·) := by
  have faithful : Faithful x := by
    refine reachable.invariant Faithful ?_ fun _ _ _ faithful => faithful.moves
    rintro x rfl
    constructor <;> simp [Deployment.new]
  exact faithful.recorded

/-- A connection that records one line and is lost. -/
def firstConnection : List Event :=
  [.emit, .spawn, .requested 0, .tail 0, .tryNew 0, .follow 0, .receive 0 true, .disconnect 0 0,
    .receive 0 true, .endStream 0]

def secondConnection : List Event :=
  [.spawn, .requested 1, .tail 1, .tryNew 1, .follow 1, .receive 1 true]

/-- The container has gone on for more than a backlog when the agent is back. -/
theorem recorded_in_order_gap : ∃ x : Deployment, machine.ReachableBy NoOverlap x ∧
    x.recorded = [0, 1] ∧ x.recorded.Pairwise (· < ·) := by
  obtain ⟨x, reachable, held⟩ := Machine.exists_of_play machine NoOverlap
    (fun x event => NoOverlap x event) (fun x => x.recorded = [0, 1])
    (fun _ _ => of_decide_eq_true) rfl
    (firstConnection ++ List.replicate tailLines .emit ++ secondConnection) (by decide +kernel)
  exact ⟨x, reachable, of_decide_eq_true held, recorded_in_order reachable⟩

/-- The agent is back at once, and the file has the line twice. -/
theorem line_recorded_twice : ∃ x : Deployment, machine.Reachable x ∧ x.recorded = [0, 0] := by
  obtain ⟨x, reachable, held⟩ := Machine.exists_of_play machine (fun _ _ => True)
    (fun _ _ => true) (fun x => x.recorded = [0, 0])
    (fun _ _ _ => trivial) rfl (firstConnection ++ secondConnection) (by decide +kernel)
  exact ⟨x, reachable, of_decide_eq_true held⟩

end Berth.Recording
