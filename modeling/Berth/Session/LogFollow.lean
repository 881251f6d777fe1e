import Mathlib.Logic.Function.Basic
import Berth.Session.Messages
import Berth.Interleave.Machine

/-!
One request of `deployment_logs` beside the one pump of a phase. The pump writes each chunk to the
file and then broadcasts it; the request looks into the `LogRegistry` and subscribes, chooses its
phase, reads the file, and passes on what it receives.
-/

namespace Berth.LogFollow

open Interleave

inductive LogKind where
  | clone
  | install
  | build
  | run
  deriving DecidableEq

def LogKind.fileName : LogKind → String
  | clone => "clone.log"
  | install => "install.log"
  | build => "build.log"
  | run => "run.log"

/-- `LOG_BROADCAST_CAPACITY`. -/
def broadcastCapacity : Nat := 256

/-- The files of a deployment's directory. -/
abbrev Dir : Type := String → Option Bytes

/-- `read_into`: a missing file reads as empty. -/
def readInto (dir : Dir) (name : String) (buf : Bytes) : Bytes := buf ++ (dir name).getD []

def readBacklog (dir : Dir) (kind : LogKind) : Bytes :=
  readInto dir kind.fileName (if kind = .run then readInto dir "run.log.1" [] else [])

def resolveTerminalPhase (dir : Dir) : Option LogKind :=
  [.run, .build, .install, .clone].find? fun kind => (dir kind.fileName).isSome

/-- `open_for_kind`: a run log is appended to, and the others are truncated. -/
def openForKind (dir : Dir) (kind : LogKind) : Dir :=
  Function.update dir kind.fileName
    (some (if kind = .run then (dir kind.fileName).getD [] else []))

/-- `write_all` of the pump's file. -/
def append (dir : Dir) (kind : LogKind) (chunk : Bytes) : Dir :=
  Function.update dir kind.fileName (some ((dir kind.fileName).getD [] ++ chunk))

structure LogsQuery where
  follow : Bool
  phase : Option LogKind
  deriving DecidableEq

/-- Where `LogPump` has got to. It is registered before its file is open, and `drop` takes it out of
the registry before it drops its sender. -/
inductive Pump where
  | starting
  | registered
  | ready
  | sending (chunk : Bytes)
  | deregistered
  | dropped
  deriving DecidableEq

def Pump.isRegistered : Pump → Bool
  | registered | ready | sending _ => true
  | starting | deregistered | dropped => false

def Pump.isOpen : Pump → Bool
  | starting | registered => false
  | ready | sending _ | deregistered | dropped => true

def Pump.isOver : Pump → Bool
  | deregistered | dropped => true
  | starting | registered | ready | sending _ => false

inductive Request where
  | waiting
  | choosing
  | reading
  | tailing
  | done
  | noContainer
  deriving DecidableEq

/-- `queue` is what the request's receiver holds. Of the past there is what the phase's log had at
first (`found`), all that the pump has written, whether the pump was over when the request looked
for it, and, of the moment when the file was read: whether it was not open yet (`early`), how many
chunks were written (`seen`), and which of them the receiver had still to give or to get. -/
structure State where
  query : LogsQuery
  kind : LogKind
  found : Bytes
  dir : Dir
  pump : Pump
  request : Request
  active : Option LogKind
  chosen : Option LogKind
  queue : List Bytes
  body : Bytes
  pushed : List Bytes
  late : Bool
  early : Bool
  seen : Nat
  overlap : List Bytes

inductive Event where
  | register
  | openFile
  | write (chunk : Bytes)
  | send
  | deregister
  | dropSender
  | active
  | choose
  | read
  | receive
  | finish
  deriving DecidableEq

namespace State

variable (x : State)

/-- `live_rx`: the active pump is of the chosen phase, and the request follows. -/
def live : Bool := x.query.follow && x.active.isSome && decide (x.active = x.chosen)

/-- The request has a receiver. -/
def listening : Bool :=
  match x.request with
  | .choosing => x.active.isSome
  | .reading | .tailing => x.live
  | .waiting | .done | .noContainer => false

/-- The chunk that is written and not broadcast yet. -/
def unsent : List Bytes :=
  match x.pump with
  | .sending chunk => [chunk]
  | _ => []

/-- What the pump leaves of the phase's log when it opens the file. -/
def kept : Bytes := if x.kind = .run then x.found else []

/-- A full receiver loses its oldest chunk. -/
def enqueue (chunk : Bytes) : List Bytes :=
  if x.queue.length < broadcastCapacity then x.queue ++ [chunk] else x.queue.tail ++ [chunk]

/-- `tx.send`. -/
def broadcast (chunk : Bytes) : State :=
  { x with
    pump := .ready
    queue := if x.listening then x.enqueue chunk else x.queue }

/-- `LogRegistry::active`, which subscribes. -/
def look : State :=
  { x with
    request := .choosing
    active := if x.pump.isRegistered then some x.kind else none
    late := x.pump.isOver }

/-- The phase asked for, or the active one, or the furthest with a file. -/
def choice : Option LogKind :=
  match x.query.phase, x.active with
  | some kind, _ => some kind
  | none, some kind => some kind
  | none, none => resolveTerminalPhase x.dir

/-- Without a live tail the body is the backlog alone. -/
def readFile (kind : LogKind) : State :=
  { x with
    request := if x.live then .tailing else .done
    body := readBacklog x.dir kind
    early := !x.pump.isOpen
    seen := x.pushed.length
    overlap := x.queue ++ x.unsent }

def step : Event → Option State
  | .register => if x.pump = .starting then some { x with pump := .registered } else none
  | .openFile =>
      if x.pump = .registered then
        some { x with pump := .ready, dir := openForKind x.dir x.kind }
      else none
  | .write chunk =>
      if x.pump = .ready then
        some { x with
          pump := .sending chunk
          dir := append x.dir x.kind chunk
          pushed := x.pushed ++ [chunk] }
      else none
  | .send =>
      match x.pump with
      | .sending chunk => some (x.broadcast chunk)
      | _ => none
  | .deregister => if x.pump = .ready then some { x with pump := .deregistered } else none
  | .dropSender => if x.pump = .deregistered then some { x with pump := .dropped } else none
  | .active => if x.request = .waiting then some x.look else none
  | .choose =>
      if x.request = .choosing then
        some { x with
          request := if x.choice.isSome then .reading else .noContainer
          chosen := x.choice }
      else none
  | .read =>
      match x.request, x.chosen with
      | .reading, some kind => some (x.readFile kind)
      | _, _ => none
  | .receive =>
      match x.request, x.queue with
      | .tailing, chunk :: rest => some { x with queue := rest, body := x.body ++ chunk }
      | _, _ => none
  | .finish =>
      if x.request = .tailing ∧ x.queue = [] ∧ x.pump = .dropped then some { x with request := .done }
      else none

/-- The pump and the request have still to begin. -/
def start (query : LogsQuery) (kind : LogKind) (dir : Dir) : State where
  query := query
  kind := kind
  found := readBacklog dir kind
  dir := dir
  pump := .starting
  request := .waiting
  active := none
  chosen := none
  queue := []
  body := []
  pushed := []
  late := false
  early := false
  seen := 0
  overlap := []

end State

abbrev machine : Machine State Event where
  initial := fun x => ∃ query kind dir, x = State.start query kind dir
  step := State.step

/-- The receiver has room for what is broadcast. -/
def NoLag (x : State) : Event → Prop
  | .send => x.listening = true → x.queue.length < broadcastCapacity
  | _ => True

instance (x : State) (event : Event) : Decidable (NoLag x event) :=
  match event with
  | .send => inferInstanceAs (Decidable (x.listening = true → x.queue.length < broadcastCapacity))
  | .register | .openFile | .write _ | .deregister | .dropSender | .active | .choose | .read
  | .receive | .finish => isTrue trivial

variable {x next : State} {dir : Dir} {kind : LogKind} {chunk : Bytes} {event : Event}

theorem readBacklog_append : readBacklog (append dir kind chunk) kind =
    readBacklog dir kind ++ chunk := by
  have apart : "run.log.1" ≠ kind.fileName := by cases kind <;> decide
  simp [readBacklog, readInto, append, apart]

theorem readBacklog_openForKind : readBacklog (openForKind dir kind) kind =
    if kind = .run then readBacklog dir kind else [] := by
  have apart : "run.log.1" ≠ kind.fileName := by cases kind <;> decide
  by_cases isRun : kind = .run
  · subst isRun
    simp [readBacklog, readInto, openForKind, apart]
  · simp [readBacklog, readInto, openForKind, isRun]

/-- What the file held under the pump's chunks when it was read. -/
def State.base (x : State) : Bytes := if x.early then x.found else x.kept

/-- The body, with what the receiver has still to give it, is the file as it was read, and then the
chunks that were on their way at that moment, and all that were written later. -/
structure State.Given (x : State) (coming : List Bytes) : Prop where
  seen_le : x.seen ≤ x.pushed.length
  overlap : x.overlap <:+ x.pushed.take x.seen
  body : x.body ++ coming.flatten =
    x.base ++ (x.pushed.take x.seen).flatten ++ x.overlap.flatten ++ (x.pushed.drop x.seen).flatten

/-- The body is the file as it was read. -/
structure State.Snapshot (x : State) : Prop where
  seen_le : x.seen ≤ x.pushed.length
  body : x.body = x.base ++ (x.pushed.take x.seen).flatten

theorem State.live_iff : x.live = true ↔
    x.query.follow = true ∧ x.active.isSome = true ∧ x.active = x.chosen := by
  simp [State.live, and_assoc]

/-- The file holds what the pump has left in it and written; and whoever has subscribed has got, or
is going to get, every chunk since. -/
structure Follows (x : State) : Prop where
  unopened : x.pump.isOpen = false → readBacklog x.dir x.kind = x.found ∧ x.pushed = []
  opened : x.pump.isOpen = true → readBacklog x.dir x.kind = x.kept ++ x.pushed.flatten
  unsent : x.unsent <:+ x.pushed
  waiting : x.request = .waiting → x.queue = []
  active : x.active = none ∨ x.active = some x.kind
  queued : x.request = .choosing ∨ x.request = .reading → x.active.isSome = true →
    x.listening = true → x.queue ++ x.unsent <:+ x.pushed
  tailing : x.request = .tailing → x.live = true ∧ x.Given (x.queue ++ x.unsent)
  live : x.request = .done → x.chosen = some x.kind → x.live = true →
    x.pump = .dropped ∧ x.Given []
  snapshot : x.request = .done → x.chosen = some x.kind → x.live = false → x.Snapshot
  late : x.late = true → x.active = none ∧ x.pump.isOver = true ∧
    (x.request = .done → x.early = false ∧ x.seen = x.pushed.length)

/-- A step of the pump that neither writes nor broadcasts. -/
theorem Follows.pump (follows : Follows x) {pump : Pump} {dir : Dir}
    (unsent : x.unsent = []) (still : ({ x with pump := pump } : State).unsent = [])
    (before : x.pump ≠ .dropped) (stays : x.pump.isOver = true → pump.isOver = true)
    (unopened : pump.isOpen = false → readBacklog dir x.kind = x.found ∧ x.pushed = [])
    (opened : pump.isOpen = true → readBacklog dir x.kind = x.kept ++ x.pushed.flatten) :
    Follows { x with pump := pump, dir := dir } := by
  have same : ({ x with pump := pump, dir := dir } : State).unsent = x.unsent := by
    rw [unsent]
    exact still
  refine ⟨unopened, opened, ?_, follows.waiting, follows.active, ?_, ?_, ?_, ?_, ?_⟩
  · rw [same]
    exact follows.unsent
  · intro stage isActive listening
    rw [same]
    exact follows.queued stage isActive listening
  · intro tailing
    obtain ⟨live, given⟩ := follows.tailing tailing
    rw [same]
    exact ⟨live, given.seen_le, given.overlap, given.body⟩
  · intro done chosen live
    exact absurd (follows.live done chosen live).1 before
  · intro done chosen live
    obtain ⟨seen_le, body⟩ := follows.snapshot done chosen live
    exact ⟨seen_le, body⟩
  · intro late
    obtain ⟨none, isOver, read⟩ := follows.late late
    exact ⟨none, stays isOver, read⟩

theorem Follows.write (follows : Follows x) (ready : x.pump = .ready) : Follows { x with
    pump := .sending chunk
    dir := Berth.LogFollow.append x.dir x.kind chunk
    pushed := x.pushed ++ [chunk] } := by
  have unsent : x.unsent = [] := by simp [State.unsent, ready]
  refine ⟨fun closed => (by cases closed), ?_, List.suffix_append _ _, follows.waiting,
    follows.active, ?_, ?_, ?_, ?_, ?_⟩
  · intro _
    show readBacklog (Berth.LogFollow.append x.dir x.kind chunk) x.kind =
      x.kept ++ (x.pushed ++ [chunk]).flatten
    simp [readBacklog_append, follows.opened (by simp [ready, Pump.isOpen])]
  · intro stage isActive listening
    obtain ⟨before, suffix⟩ := follows.queued stage isActive listening
    rw [unsent] at suffix
    refine ⟨before, ?_⟩
    show before ++ (x.queue ++ [chunk]) = x.pushed ++ [chunk]
    simp [← suffix]
  · intro tailing
    obtain ⟨live, given⟩ := follows.tailing tailing
    have seen_le := given.seen_le
    have body := given.body
    rw [unsent] at body
    refine ⟨live, ?_, ?_, ?_⟩
    · show x.seen ≤ (x.pushed ++ [chunk]).length
      simp
      omega
    · show x.overlap <:+ (x.pushed ++ [chunk]).take x.seen
      rw [List.take_append_of_le_length seen_le]
      exact given.overlap
    · show x.body ++ (x.queue ++ [chunk]).flatten = x.base ++ ((x.pushed ++ [chunk]).take x.seen).flatten
        ++ x.overlap.flatten ++ ((x.pushed ++ [chunk]).drop x.seen).flatten
      rw [List.take_append_of_le_length seen_le, List.drop_append_of_le_length seen_le]
      simp only [List.append_nil] at body
      simp only [List.flatten_append, ← List.append_assoc, body]
  · intro done chosen live
    rw [(follows.live done chosen live).1] at ready
    cases ready
  · intro done chosen live
    obtain ⟨seen_le, body⟩ := follows.snapshot done chosen live
    constructor
    · show x.seen ≤ (x.pushed ++ [chunk]).length
      simp
      omega
    · show x.body = x.base ++ ((x.pushed ++ [chunk]).take x.seen).flatten
      rw [List.take_append_of_le_length seen_le]
      exact body
  · intro late
    obtain ⟨_, isOver, _⟩ := follows.late late
    simp [ready, Pump.isOver] at isOver

theorem Follows.send (follows : Follows x) (sending : x.pump = .sending chunk)
    (room : x.listening = true → x.queue.length < broadcastCapacity) :
    Follows (x.broadcast chunk) := by
  have unsent : x.unsent = [chunk] := by simp [State.unsent, sending]
  have received (listening : x.listening = true) :
      (x.broadcast chunk).queue ++ (x.broadcast chunk).unsent = x.queue ++ x.unsent := by
    simp [State.broadcast, State.unsent, State.enqueue, listening, room listening, sending]
  refine ⟨fun closed => (by cases closed), fun _ => follows.opened (by simp [sending, Pump.isOpen]),
    List.nil_suffix, ?_, follows.active, ?_, ?_, ?_, ?_, ?_⟩
  · intro waiting
    have isWaiting : x.request = .waiting := waiting
    simp [State.broadcast, State.listening, isWaiting, follows.waiting isWaiting]
  · intro stage isActive listening
    rw [received listening]
    exact follows.queued stage isActive listening
  · intro tailing
    have isTailing : x.request = .tailing := tailing
    obtain ⟨live, given⟩ := follows.tailing tailing
    rw [received (by simp [State.listening, isTailing, live])]
    exact ⟨live, given.seen_le, given.overlap, given.body⟩
  · intro done chosen live
    have dropped := (follows.live done chosen live).1
    rw [sending] at dropped
    cases dropped
  · intro done chosen live
    obtain ⟨seen_le, body⟩ := follows.snapshot done chosen live
    exact ⟨seen_le, body⟩
  · intro late
    obtain ⟨_, isOver, _⟩ := follows.late late
    simp [sending, Pump.isOver] at isOver

theorem Follows.look (follows : Follows x) (waiting : x.request = .waiting) : Follows x.look := by
  refine ⟨follows.unopened, follows.opened, follows.unsent, fun stage => (by cases stage), ?_, ?_,
    fun stage => (by cases stage), fun stage => (by cases stage), fun stage => (by cases stage), ?_⟩
  · simp only [State.look]
    split
    · exact Or.inr rfl
    · exact Or.inl rfl
  · intro _ _ _
    show x.queue ++ x.unsent <:+ x.pushed
    rw [follows.waiting waiting]
    exact follows.unsent
  · intro late
    have isOver : x.pump.isOver = true := late
    refine ⟨?_, isOver, fun done => (by cases done)⟩
    have gone : x.pump.isRegistered = false := by
      revert isOver
      cases x.pump <;> simp [Pump.isOver, Pump.isRegistered]
    simp [State.look, gone]

theorem Follows.choose (follows : Follows x) (choosing : x.request = .choosing) {stage : Request}
    (chosen : stage = .reading ∨ stage = .noContainer) :
    Follows { x with request := stage, chosen := x.choice } := by
  have notWaiting : stage ≠ .waiting := by rcases chosen with rfl | rfl <;> simp
  have notTailing : stage ≠ .tailing := by rcases chosen with rfl | rfl <;> simp
  have notDone : stage ≠ .done := by rcases chosen with rfl | rfl <;> simp
  refine ⟨follows.unopened, follows.opened, follows.unsent, fun same => absurd same notWaiting,
    follows.active, ?_, fun same => absurd same notTailing, fun same => absurd same notDone,
    fun same => absurd same notDone, ?_⟩
  · intro _ isActive _
    exact follows.queued (Or.inl choosing) isActive (by simpa [State.listening, choosing] using isActive)
  · intro late
    obtain ⟨none, isOver, _⟩ := follows.late late
    exact ⟨none, isOver, fun same => absurd same notDone⟩

theorem Follows.content (follows : Follows x) : readBacklog x.dir x.kind =
    (if x.pump.isOpen then x.kept else x.found) ++ x.pushed.flatten := by
  cases opened : x.pump.isOpen with
  | true => simp [follows.opened opened]
  | false =>
      obtain ⟨content, nothing⟩ := follows.unopened opened
      simp [content, nothing]

theorem Follows.read (follows : Follows x) (reading : x.request = .reading)
    (chosen : x.chosen = some kind) : Follows (x.readFile kind) := by
  have base : (x.readFile kind).base = if x.pump.isOpen then x.kept else x.found := by
    cases opened : x.pump.isOpen <;> simp [State.readFile, State.base, opened, State.kept]
  have live_eq : (x.readFile kind).live = x.live := rfl
  refine ⟨follows.unopened, follows.opened, follows.unsent, ?_, follows.active, ?_, ?_, ?_, ?_, ?_⟩
  · intro waiting
    simp only [State.readFile] at waiting
    split at waiting <;> cases waiting
  · intro stage
    simp only [State.readFile] at stage
    split at stage <;> simp at stage
  · intro tailing
    have live : x.live = true := by
      cases live : x.live with
      | true => rfl
      | false => simp [State.readFile, live] at tailing
    obtain ⟨_, isActive, same⟩ := State.live_iff.1 live
    have ofPump : kind = x.kind := by
      rcases follows.active with none | active
      · simp [none] at isActive
      · rw [active, chosen] at same
        exact (Option.some.inj same).symm
    have queued := follows.queued (Or.inr reading) isActive (by simp [State.listening, reading, live])
    refine ⟨live, Nat.le_refl _, ?_, ?_⟩
    · show x.queue ++ x.unsent <:+ x.pushed.take x.pushed.length
      rw [List.take_length]
      exact queued
    · rw [base]
      show readBacklog x.dir kind ++ (x.queue ++ x.unsent).flatten = _ ++
        (x.pushed.take x.pushed.length).flatten ++ (x.queue ++ x.unsent).flatten ++
          (x.pushed.drop x.pushed.length).flatten
      rw [ofPump, follows.content]
      simp
  · intro done _ live
    rw [live_eq] at live
    simp [State.readFile, live] at done
  · intro _ isKind live
    have ofPump : kind = x.kind := by
      have isKind : x.chosen = some x.kind := isKind
      rw [chosen] at isKind
      exact Option.some.inj isKind
    refine ⟨Nat.le_refl _, ?_⟩
    rw [base]
    show readBacklog x.dir kind = _ ++ (x.pushed.take x.pushed.length).flatten
    rw [ofPump, follows.content, List.take_length]
  · intro late
    obtain ⟨none, isOver, _⟩ := follows.late late
    refine ⟨none, isOver, fun _ => ⟨?_, rfl⟩⟩
    have opened : x.pump.isOpen = true := by
      revert isOver
      cases x.pump <;> simp [Pump.isOver, Pump.isOpen]
    simp [State.readFile, opened]

theorem Follows.receive (follows : Follows x) (tailing : x.request = .tailing) {rest : List Bytes}
    (queue : x.queue = chunk :: rest) : Follows { x with queue := rest, body := x.body ++ chunk } := by
  refine ⟨follows.unopened, follows.opened, follows.unsent, ?_, follows.active, ?_, ?_, ?_, ?_, ?_⟩
  · intro waiting
    have isWaiting : x.request = .waiting := waiting
    rw [tailing] at isWaiting
    cases isWaiting
  · intro stage
    have stage : x.request = .choosing ∨ x.request = .reading := stage
    simp [tailing] at stage
  · intro _
    obtain ⟨live, given⟩ := follows.tailing tailing
    refine ⟨live, given.seen_le, given.overlap, ?_⟩
    show (x.body ++ chunk) ++ (rest ++ x.unsent).flatten = x.base ++
      (x.pushed.take x.seen).flatten ++ x.overlap.flatten ++ (x.pushed.drop x.seen).flatten
    have body := given.body
    rw [queue] at body
    simpa using body
  · intro done
    have isDone : x.request = .done := done
    rw [tailing] at isDone
    cases isDone
  · intro done
    have isDone : x.request = .done := done
    rw [tailing] at isDone
    cases isDone
  · intro late
    obtain ⟨none, isOver, _⟩ := follows.late late
    refine ⟨none, isOver, fun done => ?_⟩
    have isDone : x.request = .done := done
    rw [tailing] at isDone
    cases isDone

theorem Follows.finish (follows : Follows x) (tailing : x.request = .tailing)
    (empty : x.queue = []) (dropped : x.pump = .dropped) : Follows { x with request := .done } := by
  obtain ⟨live, given⟩ := follows.tailing tailing
  refine ⟨follows.unopened, follows.opened, follows.unsent, fun stage => (by cases stage),
    follows.active, fun stage => (by simp at stage), fun stage => (by cases stage), ?_, ?_, ?_⟩
  · intro _ _ _
    refine ⟨dropped, given.seen_le, given.overlap, ?_⟩
    have unsent : x.unsent = [] := by simp [State.unsent, dropped]
    have body := given.body
    rw [empty, unsent] at body
    exact body
  · intro _ _ notLive
    have notLive : x.live = false := notLive
    rw [live] at notLive
    cases notLive
  · intro late
    obtain ⟨none, _⟩ := follows.late late
    have isActive := (State.live_iff.1 live).2.1
    simp [none] at isActive

theorem Follows.moves (follows : Follows x) (stepped : x.step event = some next)
    (noLag : NoLag x event) : Follows next := by
  cases event with
  | register =>
      simp only [State.step] at stepped
      split at stepped <;> cases stepped
      rename_i starting
      have kept := follows.unopened (by simp [starting, Pump.isOpen])
      exact follows.pump (by simp [State.unsent, starting]) rfl (by simp [starting])
        (by simp [starting, Pump.isOver]) (fun _ => kept) (fun opened => (by cases opened))
  | openFile =>
      simp only [State.step] at stepped
      split at stepped <;> cases stepped
      rename_i registered
      obtain ⟨content, nothing⟩ := follows.unopened (by simp [registered, Pump.isOpen])
      refine follows.pump (by simp [State.unsent, registered]) rfl (by simp [registered])
        (by simp [registered, Pump.isOver]) (fun closed => (by cases closed)) fun _ => ?_
      simp [readBacklog_openForKind, content, nothing, State.kept]
  | write chunk =>
      simp only [State.step] at stepped
      split at stepped <;> cases stepped
      rename_i ready
      exact follows.write ready
  | send =>
      simp only [State.step] at stepped
      split at stepped <;> cases stepped
      rename_i chunk sending
      exact follows.send sending noLag
  | deregister =>
      simp only [State.step] at stepped
      split at stepped <;> cases stepped
      rename_i ready
      exact follows.pump (by simp [State.unsent, ready]) rfl (by simp [ready]) (fun _ => rfl)
        (fun closed => (by cases closed)) fun _ => follows.opened (by simp [ready, Pump.isOpen])
  | dropSender =>
      simp only [State.step] at stepped
      split at stepped <;> cases stepped
      rename_i deregistered
      exact follows.pump (by simp [State.unsent, deregistered]) rfl (by simp [deregistered])
        (fun _ => rfl) (fun closed => (by cases closed))
        fun _ => follows.opened (by simp [deregistered, Pump.isOpen])
  | active =>
      simp only [State.step] at stepped
      split at stepped <;> cases stepped
      rename_i waiting
      exact follows.look waiting
  | choose =>
      simp only [State.step] at stepped
      split at stepped <;> cases stepped
      rename_i choosing
      exact follows.choose choosing (by split <;> simp)
  | read =>
      simp only [State.step] at stepped
      split at stepped <;> cases stepped
      rename_i kind reading chosen
      exact follows.read reading chosen
  | receive =>
      simp only [State.step] at stepped
      split at stepped <;> cases stepped
      rename_i chunk rest tailing queue
      exact follows.receive tailing queue
  | finish =>
      simp only [State.step] at stepped
      split at stepped <;> cases stepped
      rename_i finishes
      exact follows.finish finishes.1 finishes.2.1 finishes.2.2

theorem follows_of_reachable (reachable : machine.ReachableBy NoLag x) : Follows x := by
  refine reachable.invariant Follows ?_ fun _ _ _ follows => follows.moves
  rintro x ⟨query, kind, dir, rfl⟩
  constructor <;> simp [State.start, State.unsent, Pump.isOpen]

/-- The response to a request that follows the phase of the pump. -/
structure Response (x : State) : Prop where
  complete : x.active.isSome = true → ∃ twice, twice <:+ x.pushed.take x.seen ∧ x.body =
    x.base ++ (x.pushed.take x.seen).flatten ++ twice.flatten ++ (x.pushed.drop x.seen).flatten
  exact : x.active.isSome = true → x.overlap = [] → x.body = x.base ++ x.pushed.flatten
  late : x.late = true → x.body = x.kept ++ x.pushed.flatten
  early : x.active = none → x.body = x.base ++ (x.pushed.take x.seen).flatten

theorem response_follows (reachable : machine.ReachableBy NoLag x)
    (follow : x.query.follow = true) (ofPump : x.chosen = some x.kind)
    (answered : x.request = .done) : Response x := by
  have follows := follows_of_reachable reachable
  have snapshot (none : x.active = none) : x.Snapshot :=
    follows.snapshot answered ofPump (by simp [State.live, none])
  have given (isActive : x.active.isSome = true) : x.Given [] := by
    refine (follows.live answered ofPump (State.live_iff.2 ⟨follow, isActive, ?_⟩)).2
    rcases follows.active with none | active
    · simp [none] at isActive
    · rw [active, ofPump]
  constructor
  · intro isActive
    exact ⟨x.overlap, (given isActive).overlap, by simpa using (given isActive).body⟩
  · intro isActive nothing
    have body := (given isActive).body
    rw [nothing] at body
    have whole := congrArg List.flatten (List.take_append_drop x.seen x.pushed)
    rw [List.flatten_append] at whole
    rw [← whole]
    simpa using body
  · intro late
    obtain ⟨none, _, read⟩ := follows.late late
    obtain ⟨opened, seen⟩ := read answered
    simpa [seen, State.base, opened] using (snapshot none).body
  · exact fun none => (snapshot none).body

/-- A run log that is followed from an empty directory. -/
def emptyRun : State := State.start ⟨true, none⟩ .run fun _ => none

theorem emptyRun_initial : machine.initial emptyRun := ⟨_, _, _, rfl⟩

def readsFirst : List Event :=
  [.register, .openFile, .active, .choose, .read, .write [1], .send, .deregister, .receive,
    .dropSender, .finish]

theorem response_follows_first : ∃ x : State, machine.ReachableBy NoLag x ∧ x.overlap = [] ∧
    x.body = [1] ∧ x.request = .done ∧ Response x := by
  obtain ⟨x, reachable, held⟩ := Machine.exists_of_play machine NoLag (fun x event => NoLag x event)
    (fun x => x.query.follow = true ∧ x.chosen = some x.kind ∧ x.request = .done ∧
      x.overlap = [] ∧ x.body = [1])
    (fun _ _ => of_decide_eq_true) emptyRun_initial readsFirst (by decide +kernel)
  obtain ⟨follow, ofPump, answered, nothing, body⟩ := of_decide_eq_true held
  exact ⟨x, reachable, nothing, body, answered, response_follows reachable follow ofPump answered⟩

/-- The request subscribes before the chunk is written, and reads it in the file. -/
def readsLate : List Event :=
  [.register, .openFile, .active, .write [1], .choose, .read, .send, .deregister, .receive,
    .dropSender, .finish]

/-- The request looks for the pump before it is registered. -/
def looksEarly : List Event :=
  [.active, .register, .openFile, .choose, .read, .write [1], .send, .deregister, .dropSender]

/-- One response has the pump's only chunk twice, and another one not at all. -/
theorem response_differs :
    (∃ x : State, machine.ReachableBy NoLag x ∧ x.query.follow = true ∧ x.chosen = some x.kind ∧
      x.request = .done ∧ x.pump = .dropped ∧ x.found = [] ∧ x.pushed = [[1]] ∧ x.body = [1, 1]) ∧
    ∃ x : State, machine.ReachableBy NoLag x ∧ x.query.follow = true ∧ x.chosen = some x.kind ∧
      x.request = .done ∧ x.pump = .dropped ∧ x.found = [] ∧ x.pushed = [[1]] ∧ x.body = [] := by
  constructor
  · obtain ⟨x, reachable, held⟩ := Machine.exists_of_play machine NoLag
      (fun x event => NoLag x event)
      (fun x => x.query.follow = true ∧ x.chosen = some x.kind ∧ x.request = .done ∧
        x.pump = .dropped ∧ x.found = [] ∧ x.pushed = [[1]] ∧ x.body = [1, 1])
      (fun _ _ => of_decide_eq_true) emptyRun_initial readsLate
      (by decide +kernel)
    exact ⟨x, reachable, of_decide_eq_true held⟩
  · obtain ⟨x, reachable, held⟩ := Machine.exists_of_play machine NoLag
      (fun x event => NoLag x event)
      (fun x => x.query.follow = true ∧ x.chosen = some x.kind ∧ x.request = .done ∧
        x.pump = .dropped ∧ x.found = [] ∧ x.pushed = [[1]] ∧ x.body = [])
      (fun _ _ => of_decide_eq_true) emptyRun_initial looksEarly
      (by decide +kernel)
    exact ⟨x, reachable, of_decide_eq_true held⟩

end Berth.LogFollow
