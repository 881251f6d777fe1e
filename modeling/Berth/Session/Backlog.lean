import Mathlib.Data.List.Infix
import Berth.Session.LogPump

/-!
`read_backlog` of a run log beside the pump that rotates it. The files are numbered as they are
made: a rotation gives the last one the name `run.log.1`, and an open file stays the same file
whatever becomes of its name.
-/

namespace Berth.Backlog

open Interleave LogFollow

/-- Where the pump has got to. `closed` is before `LogPump::try_new` has opened the file, and after
the pump is dropped. -/
inductive Pump where
  | closed
  | idle
  | rotating (chunk : Bytes)
  | reopening (chunk : Bytes)
  | writing (chunk rest : Bytes)
  deriving DecidableEq

/-- What is still to be written of the chunk that is pushed. -/
def Pump.rest : Pump → Bytes
  | closed | idle => []
  | rotating chunk | reopening chunk => chunk
  | writing _ rest => rest

inductive Reader where
  | start
  | openedRotated
  | readRotated
  | openedCurrent
  | done
  deriving DecidableEq

/-- `rotated` and `current` are the files that have the names `run.log.1` and `run.log`, `file` the
one that the pump has open, `first` and `second` those that `read_backlog` has opened. Of the past
there is what the two files held (`found`), what the pumps were given (`pushed`) and have written,
and whether a call of theirs has failed. -/
structure State where
  files : List Bytes
  rotated : Option Nat
  current : Option Nat
  pump : Pump
  file : Option Nat
  bytesWritten : Nat
  reader : Reader
  first : Option Nat
  second : Option Nat
  buf : Bytes
  found : Bytes
  pushed : List Bytes
  written : Bytes
  failed : Bool

inductive Event where
  | openFile (hasMetadata : Bool)
  | failOpen
  | push (chunk : Bytes)
  | rename
  | failRename
  | reopen
  | failReopen
  | write (count : Nat)
  | finish
  | failWrite
  | drop
  | openRotated
  | readRotated
  | openCurrent
  | readCurrent
  deriving DecidableEq

namespace State

variable (x : State)

def contents (file : Option Nat) : Bytes := (file.bind (x.files[·]?)).getD []

/-- `open_for_kind` of `run.log`. -/
def openRunLog : State :=
  match x.current with
  | some n => { x with file := some n }
  | none =>
      { x with
        files := x.files ++ [[]]
        current := some x.files.length
        file := some x.files.length }

/-- The pump goes on without a file. -/
def giveUp : State := { x with pump := .idle, file := none, bytesWritten := 0, failed := true }

/-- What `push` does first with its chunk. -/
def next (chunk : Bytes) : Pump :=
  if x.file.isSome = true then
    if runLogRotateBytes ≤ x.bytesWritten then .rotating chunk else .writing chunk chunk
  else .idle

def step : Event → Option State
  | .openFile hasMetadata =>
      if x.pump = .closed then
        let opened := x.openRunLog
        some { opened with
          pump := .idle
          bytesWritten := if hasMetadata then (opened.contents opened.file).length else 0 }
      else none
  | .failOpen => if x.pump = .closed then some x.giveUp else none
  | .push chunk =>
      if x.pump = .idle then some { x with pump := x.next chunk, pushed := x.pushed ++ [chunk] }
      else none
  | .rename =>
      match x.pump, x.current with
      | .rotating chunk, some n =>
          some { x with pump := .reopening chunk, rotated := some n, current := none }
      | _, _ => none
  | .failRename =>
      match x.pump with
      | .rotating _ => some x.giveUp
      | _ => none
  | .reopen =>
      match x.pump with
      | .reopening chunk =>
          some { x.openRunLog with pump := .writing chunk chunk, bytesWritten := 0 }
      | _ => none
  | .failReopen =>
      match x.pump with
      | .reopening _ => some x.giveUp
      | _ => none
  | .write count =>
      match x.pump, x.file with
      | .writing chunk rest, some n =>
          some { x with
            pump := .writing chunk (rest.drop count)
            files := x.files.modify n (· ++ rest.take count)
            written := x.written ++ rest.take count }
      | _, _ => none
  | .finish =>
      match x.pump with
      | .writing chunk [] =>
          some { x with pump := .idle, bytesWritten := x.bytesWritten + chunk.length }
      | _ => none
  | .failWrite =>
      match x.pump with
      | .writing _ _ => some { x with pump := .idle, failed := true }
      | _ => none
  | .drop => if x.pump = .idle then some { x with pump := .closed, file := none } else none
  | .openRotated =>
      if x.reader = .start then some { x with reader := .openedRotated, first := x.rotated } else none
  | .readRotated =>
      if x.reader = .openedRotated then
        some { x with reader := .readRotated, buf := x.contents x.first }
      else none
  | .openCurrent =>
      if x.reader = .readRotated then some { x with reader := .openedCurrent, second := x.current }
      else none
  | .readCurrent =>
      if x.reader = .openedCurrent then
        some { x with reader := .done, buf := x.buf ++ x.contents x.second }
      else none

/-- Before the first pump, with what `run.log.1` and `run.log` hold if they are there. -/
def start (rotated current : Option Bytes) : State where
  files := rotated.toList ++ current.toList
  rotated := rotated.map fun _ => 0
  current := current.map fun _ => rotated.toList.length
  pump := .closed
  file := none
  bytesWritten := 0
  reader := .start
  first := none
  second := none
  buf := []
  found := rotated.getD [] ++ current.getD []
  pushed := []
  written := []
  failed := false

end State

abbrev machine : Machine State Event where
  initial := fun x => ∃ rotated current, x = State.start rotated current
  step := State.step

/-- When `run.log` is read, it is the file that was made right after the one that was read as
`run.log.1`; or one of the two is missing or empty. -/
def Adjoins (x : State) : Event → Prop
  | .readCurrent =>
      match x.first, x.second with
      | some m, some n => n = m + 1 ∨ x.contents (some m) = [] ∨ x.contents (some n) = []
      | _, _ => True
  | _ => True

variable {x y : State} {event : Event} {m n : Nat} {files : List Bytes} {chunk : Bytes}

theorem flatten_modify (isLast : n + 1 = files.length) :
    (files.modify n (· ++ chunk)).flatten = files.flatten ++ chunk := by
  induction files generalizing n with
  | nil => simp at isLast
  | cons first rest ih =>
      cases n with
      | zero =>
          have alone : rest = [] := List.length_eq_zero_iff.1 (by simpa using isLast.symm)
          simp [alone]
      | succ n =>
          simp only [List.modify_succ_cons, List.flatten_cons]
          rw [ih (by simpa using isLast), List.append_assoc]

/-- A file that is followed by another one, or is about to be. -/
def State.Closed (x : State) (m : Nat) : Prop :=
  m + 1 < x.files.length ∨ m + 1 = x.files.length ∧ x.current = none

/-- The files one after the other are the stream; the names are those of the last ones. -/
structure Layout (x : State) : Prop where
  stream : x.files.flatten = x.found ++ x.written
  current : ∀ n, x.current = some n → n + 1 = x.files.length
  rotated : ∀ m, x.rotated = some m → x.Closed m
  first : ∀ m, x.first = some m → x.Closed m
  second : ∀ n, x.second = some n → n < x.files.length

/-- The file that the pump has open is `run.log`, unless it has just lost its name. Without a
failure all that was pushed is written, or about to be. -/
structure Writes (x : State) : Prop where
  file : ∀ n, x.file = some n → (∀ chunk, x.pump ≠ .reopening chunk) → x.current = some n
  hasFile : x.failed = false → x.pump ≠ .closed → x.file.isSome = true
  pushed : x.failed = false → x.written ++ x.pump.rest = x.pushed.flatten

structure Reads (x : State) : Prop where
  buf : x.reader = .readRotated ∨ x.reader = .openedCurrent → x.buf = x.contents x.first
  done : x.reader = .done → x.buf <:+: x.found ++ x.written

theorem Layout.start (rotated current : Option Bytes) : Layout (State.start rotated current) := by
  cases rotated <;> cases current <;> constructor <;> simp [State.start, State.Closed]

theorem Writes.start (rotated current : Option Bytes) : Writes (State.start rotated current) := by
  constructor <;> simp [State.start, Pump.rest]

theorem Reads.start (rotated current : Option Bytes) : Reads (State.start rotated current) := by
  constructor <;> simp [State.start]

/-- Steps that leave the files and their names alone. -/
theorem Layout.same (layout : Layout x) (files : y.files = x.files) (written : y.written = x.written)
    (found : y.found = x.found) (current : y.current = x.current) (rotated : y.rotated = x.rotated)
    (first : ∀ m, y.first = some m → x.first = some m ∨ x.rotated = some m)
    (second : ∀ n, y.second = some n → x.second = some n ∨ x.current = some n) : Layout y := by
  have closed (m : Nat) (closed : x.Closed m) : y.Closed m := by
    simpa only [State.Closed, files, current] using closed
  constructor
  · rw [files, found, written]
    exact layout.stream
  · rw [files, current]
    exact layout.current
  · intro m isRotated
    rw [rotated] at isRotated
    exact closed m (layout.rotated m isRotated)
  · intro m isFirst
    rcases first m isFirst with isFirst | isRotated
    · exact closed m (layout.first m isFirst)
    · exact closed m (layout.rotated m isRotated)
  · intro n isSecond
    rw [files]
    rcases second n isSecond with isSecond | isCurrent
    · exact layout.second n isSecond
    · have last := layout.current n isCurrent
      omega

theorem openRunLog_some (isCurrent : x.current = some n) :
    x.openRunLog = { x with file := some n } := by
  unfold State.openRunLog
  split
  · rename_i found
    rw [isCurrent] at found
    cases found
    rfl
  · rename_i missing
    rw [isCurrent] at missing
    cases missing

theorem openRunLog_none (missing : x.current = none) :
    x.openRunLog = { x with
      files := x.files ++ [[]]
      current := some x.files.length
      file := some x.files.length } := by
  unfold State.openRunLog
  split
  · rename_i found
    rw [missing] at found
    cases found
  · rfl

theorem Layout.openRunLog (layout : Layout x) : Layout x.openRunLog := by
  cases isCurrent : x.current with
  | some n =>
      rw [openRunLog_some isCurrent]
      exact layout.same rfl rfl rfl rfl rfl (fun _ => .inl) fun _ => .inl
  | none =>
      have closed (m : Nat) (closed : x.Closed m) : m + 1 < (x.files ++ [[]]).length := by
        rw [List.length_append, List.length_singleton]
        rcases closed with below | ⟨last, _⟩ <;> omega
      rw [openRunLog_none isCurrent]
      constructor
      · simpa using layout.stream
      · intro n isLast
        cases isLast
        simp
      · exact fun m isRotated => .inl (closed m (layout.rotated m isRotated))
      · exact fun m isFirst => .inl (closed m (layout.first m isFirst))
      · intro n isSecond
        have below := layout.second n isSecond
        simp only [List.length_append, List.length_singleton]
        omega

theorem Layout.rename (layout : Layout x) (isCurrent : x.current = some n) :
    Layout { x with pump := .reopening chunk, rotated := some n, current := none } := by
  have closed (m : Nat) (closed : x.Closed m) : m + 1 < x.files.length := by
    rcases closed with below | ⟨_, none⟩
    · exact below
    · rw [isCurrent] at none
      cases none
  constructor
  · exact layout.stream
  · intro m present
    cases present
  · intro m isRotated
    cases isRotated
    exact .inr ⟨layout.current n isCurrent, rfl⟩
  · exact fun m isFirst => .inl (closed m (layout.first m isFirst))
  · exact layout.second

theorem Layout.write (layout : Layout x) (isCurrent : x.current = some n) {pump : Pump} :
    Layout { x with
      pump := pump, files := x.files.modify n (· ++ chunk), written := x.written ++ chunk } := by
  have same : (x.files.modify n (· ++ chunk)).length = x.files.length := List.length_modify ..
  constructor
  · dsimp only
    rw [flatten_modify (layout.current n isCurrent), layout.stream, List.append_assoc]
  · intro m isLast
    rw [same]
    exact layout.current m isLast
  · intro m isRotated
    rw [State.Closed, same]
    exact layout.rotated m isRotated
  · intro m isFirst
    rw [State.Closed, same]
    exact layout.first m isFirst
  · intro m isSecond
    rw [same]
    exact layout.second m isSecond

theorem Layout.step (layout : Layout x) (writes : Writes x) (stepped : x.step event = some y) :
    Layout y := by
  cases event with
  | openFile _ | reopen =>
      simp only [State.step] at stepped
      split at stepped <;> cases stepped
      exact layout.openRunLog.same rfl rfl rfl rfl rfl (fun _ => .inl) fun _ => .inl
  | rename =>
      simp only [State.step] at stepped
      split at stepped <;> cases stepped
      rename_i isCurrent
      exact layout.rename isCurrent
  | write count =>
      simp only [State.step] at stepped
      split at stepped <;> cases stepped
      rename_i chunk rest n isWriting isOpen
      refine layout.write (writes.file n isOpen ?_)
      intro chunk isReopening
      rw [isWriting] at isReopening
      cases isReopening
  | openRotated =>
      simp only [State.step] at stepped
      split at stepped <;> cases stepped
      exact layout.same rfl rfl rfl rfl rfl (fun _ => .inr) fun _ => .inl
  | openCurrent =>
      simp only [State.step] at stepped
      split at stepped <;> cases stepped
      exact layout.same rfl rfl rfl rfl rfl (fun _ => .inl) fun _ => .inr
  | failOpen | push _ | failRename | failReopen | finish | failWrite | drop | readRotated
  | readCurrent =>
      simp only [State.step] at stepped
      split at stepped <;> cases stepped
      exact layout.same rfl rfl rfl rfl rfl (fun _ => .inl) fun _ => .inl

theorem openRunLog_file : x.openRunLog.file = x.openRunLog.current ∧
    x.openRunLog.file.isSome = true := by
  cases isCurrent : x.current with
  | some n => simp [openRunLog_some isCurrent, isCurrent]
  | none => simp [openRunLog_none isCurrent]

theorem openRunLog_past : x.openRunLog.written = x.written ∧ x.openRunLog.pushed = x.pushed ∧
    x.openRunLog.failed = x.failed ∧ x.openRunLog.found = x.found := by
  cases isCurrent : x.current with
  | some n => simp [openRunLog_some isCurrent]
  | none => simp [openRunLog_none isCurrent]

theorem openRunLog_reader : x.openRunLog.reader = x.reader ∧ x.openRunLog.buf = x.buf ∧
    x.openRunLog.first = x.first := by
  cases isCurrent : x.current with
  | some n => simp [openRunLog_some isCurrent]
  | none => simp [openRunLog_none isCurrent]

/-- A pump that has just opened `run.log`. -/
theorem Writes.openRunLog (writes : Writes x) {pump : Pump} {bytesWritten : Nat}
    (rest : pump.rest = x.pump.rest) :
    Writes { x.openRunLog with pump := pump, bytesWritten := bytesWritten } := by
  obtain ⟨same, isOpen⟩ := openRunLog_file (x := x)
  obtain ⟨written, pushed, failed, _⟩ := openRunLog_past (x := x)
  constructor
  · intro n isFile _
    exact same.symm.trans isFile
  · exact fun _ _ => isOpen
  · intro fine
    dsimp only at fine ⊢
    rw [written, pushed, rest]
    exact writes.pushed (failed ▸ fine)

theorem Writes.giveUp : Writes x.giveUp := by
  constructor
  · intro n isFile
    cases isFile
  · intro fine
    cases fine
  · intro fine
    cases fine

theorem Writes.push (writes : Writes x) (isIdle : x.pump = .idle) :
    Writes { x with pump := x.next chunk, pushed := x.pushed ++ [chunk] } := by
  have notClosed : x.pump ≠ .closed := by simp [isIdle]
  constructor
  · intro n isFile _
    exact writes.file n isFile (by simp [isIdle])
  · exact fun fine _ => writes.hasFile fine notClosed
  · intro fine
    have isOpen := writes.hasFile fine notClosed
    have rest : (x.next chunk).rest = chunk := by
      rw [State.next, if_pos isOpen]
      split <;> rfl
    have before := writes.pushed fine
    rw [isIdle] at before
    dsimp only
    rw [rest, List.flatten_append, ← before]
    simp [Pump.rest]

theorem Writes.write (writes : Writes x) {rest : Bytes} {count : Nat}
    (isWriting : x.pump = .writing chunk rest) {files : List Bytes} :
    Writes { x with
      pump := .writing chunk (rest.drop count)
      files := files
      written := x.written ++ rest.take count } := by
  constructor
  · intro m isFile _
    exact writes.file m isFile (by simp [isWriting])
  · exact fun fine _ => writes.hasFile fine (by simp [isWriting])
  · intro fine
    have before := writes.pushed fine
    rw [isWriting] at before
    simpa [Pump.rest] using before

/-- Steps of the pump that neither write nor take a chunk. -/
theorem Writes.go (writes : Writes x) (notClosed : x.pump ≠ .closed) {pump : Pump}
    (rest : pump.rest = x.pump.rest) (notReopening : ∀ chunk, x.pump ≠ .reopening chunk)
    (same : y.file = x.file) (current : y.current = x.current ∨ ∃ chunk, y.pump = .reopening chunk)
    (isPump : y.pump = pump) (written : y.written = x.written) (pushed : y.pushed = x.pushed)
    (failed : y.failed = false → x.failed = false) : Writes y := by
  constructor
  · intro n isFile still
    rcases current with current | ⟨chunk, isReopening⟩
    · rw [current]
      exact writes.file n (same ▸ isFile) notReopening
    · exact absurd isReopening (still chunk)
  · intro fine _
    rw [same]
    exact writes.hasFile (failed fine) notClosed
  · intro fine
    rw [isPump, written, pushed, rest]
    exact writes.pushed (failed fine)

theorem Writes.same (writes : Writes x) (file : y.file = x.file) (pump : y.pump = x.pump)
    (current : y.current = x.current) (written : y.written = x.written)
    (pushed : y.pushed = x.pushed) (failed : y.failed = x.failed) : Writes y := by
  constructor
  · rw [file, pump, current]
    exact writes.file
  · rw [file, pump, failed]
    exact writes.hasFile
  · rw [pump, written, pushed, failed]
    exact writes.pushed

theorem Writes.step (writes : Writes x) (stepped : x.step event = some y) : Writes y := by
  cases event with
  | openFile _ | reopen =>
      simp only [State.step] at stepped
      split at stepped <;> cases stepped
      rename_i stage
      exact writes.openRunLog (by rw [stage]; rfl)
  | failOpen | failRename | failReopen =>
      simp only [State.step] at stepped
      split at stepped <;> cases stepped
      exact Writes.giveUp
  | push chunk =>
      simp only [State.step] at stepped
      split at stepped <;> cases stepped
      rename_i isIdle
      exact writes.push isIdle
  | rename =>
      simp only [State.step] at stepped
      split at stepped <;> cases stepped
      rename_i chunk n isRotating isCurrent
      exact writes.go (by simp [isRotating]) (by rw [isRotating]; rfl) (by simp [isRotating]) rfl
        (.inr ⟨chunk, rfl⟩) rfl rfl rfl fun fine => fine
  | write count =>
      simp only [State.step] at stepped
      split at stepped <;> cases stepped
      rename_i isWriting _
      exact writes.write isWriting
  | finish =>
      simp only [State.step] at stepped
      split at stepped <;> cases stepped
      rename_i isWriting
      exact writes.go (by simp [isWriting]) (by rw [isWriting]; rfl) (by simp [isWriting]) rfl
        (.inl rfl) rfl rfl rfl fun fine => fine
  | failWrite =>
      simp only [State.step] at stepped
      split at stepped <;> cases stepped
      rename_i isWriting
      constructor
      · intro n isFile _
        exact writes.file n isFile (by simp [isWriting])
      · intro fine
        cases fine
      · intro fine
        cases fine
  | drop =>
      simp only [State.step] at stepped
      split at stepped <;> cases stepped
      rename_i isIdle
      constructor
      · intro n isFile
        cases isFile
      · exact fun _ notClosed => absurd rfl notClosed
      · intro fine
        have before := writes.pushed fine
        rwa [isIdle] at before
  | openRotated | readRotated | openCurrent | readCurrent =>
      simp only [State.step] at stepped
      split at stepped <;> cases stepped
      exact writes.same rfl rfl rfl rfl rfl rfl

theorem openRunLog_contents (below : m < x.files.length) :
    x.openRunLog.contents (some m) = x.contents (some m) := by
  cases isCurrent : x.current with
  | some n => rw [openRunLog_some isCurrent]; rfl
  | none =>
      rw [openRunLog_none isCurrent]
      simp [State.contents, List.getElem?_append_left below]

theorem State.Closed.lt (closed : x.Closed m) : m < x.files.length := by
  rcases closed with below | ⟨last, _⟩ <;> omega

/-- What a closed file holds is left alone by the writes. -/
theorem State.Closed.modify (closed : x.Closed m) (isCurrent : x.current = some n)
    (isLast : n + 1 = x.files.length) :
    (x.files.modify n (· ++ chunk))[m]? = x.files[m]? := by
  have other : n ≠ m := by
    rcases closed with below | ⟨_, none⟩
    · omega
    · rw [isCurrent] at none
      cases none
  simp [other]

/-- A file, and the one that was made after it. -/
theorem contents_within (x : State) (m : Nat) :
    x.contents (some m) ++ x.contents (some (m + 1)) <:+: x.files.flatten := by
  have infix_flatten (files : List Bytes) :
      (files[m]?).getD [] ++ (files[m + 1]?).getD [] <:+: files.flatten := by
    induction m generalizing files with
    | zero =>
        match files with
        | [] => exact List.infix_refl _
        | [only] => simp
        | first :: second :: rest => exact ⟨[], rest.flatten, by simp⟩
    | succ m ih =>
        cases files with
        | nil => exact List.infix_refl _
        | cons first rest => exact (ih rest).trans (List.suffix_append _ _).isInfix
  exact infix_flatten x.files

theorem content_within (x : State) (file : Option Nat) :
    x.contents file <:+: x.files.flatten := by
  cases file with
  | none => exact List.nil_infix
  | some m => exact (List.prefix_append _ _).isInfix.trans (contents_within x m)

/-- What is read where the two files adjoin. -/
theorem Reads.joined (reads : Reads x) (isOpen : x.reader = .openedCurrent)
    (adjoins : Adjoins x .readCurrent) : x.buf ++ x.contents x.second <:+: x.files.flatten := by
  rw [reads.buf (.inr isOpen)]
  cases isFirst : x.first with
  | none => exact content_within x x.second
  | some m =>
      cases isSecond : x.second with
      | none => simpa [State.contents] using content_within x (some m)
      | some n =>
          simp only [Adjoins, isFirst, isSecond] at adjoins
          rcases adjoins with rfl | empty | empty
          · exact contents_within x m
          · simpa [empty] using content_within x (some n)
          · simpa [empty] using content_within x (some m)

/-- A step of the pump, seen by the reader. -/
theorem Reads.grow (reads : Reads x) (reader : y.reader = x.reader) (buf : y.buf = x.buf)
    (first : y.first = x.first) (contents : y.contents x.first = x.contents x.first)
    (found : y.found = x.found) {more : Bytes} (written : y.written = x.written ++ more) :
    Reads y := by
  constructor
  · intro holds
    rw [buf, first, contents]
    exact reads.buf (reader ▸ holds)
  · intro isDone
    rw [buf, found, written, ← List.append_assoc]
    exact (reads.done (reader ▸ isDone)).trans (List.prefix_append _ _).isInfix

theorem Reads.step (layout : Layout x) (writes : Writes x) (reads : Reads x)
    (stepped : x.step event = some y) (adjoins : Adjoins x event) : Reads y := by
  have written : x.written = x.written ++ [] := (List.append_nil _).symm
  cases event with
  | openFile _ | reopen =>
      simp only [State.step] at stepped
      split at stepped <;> cases stepped
      obtain ⟨same, _, _, found⟩ := openRunLog_past (x := x)
      obtain ⟨reader, buf, first⟩ := openRunLog_reader (x := x)
      refine reads.grow reader buf first ?_ found (same.trans written)
      cases isFirst : x.first with
      | none => rfl
      | some m => exact openRunLog_contents (layout.first m isFirst).lt
  | write count =>
      simp only [State.step] at stepped
      split at stepped <;> cases stepped
      rename_i chunk rest n isWriting isOpen
      have isCurrent := writes.file n isOpen (by simp [isWriting])
      refine reads.grow rfl rfl rfl ?_ rfl rfl
      cases isFirst : x.first with
      | none => rfl
      | some m =>
          exact congrArg (Option.getD · [])
            ((layout.first m isFirst).modify isCurrent (layout.current n isCurrent))
  | openRotated =>
      simp only [State.step] at stepped
      split at stepped <;> cases stepped
      constructor <;> simp
  | readRotated =>
      simp only [State.step] at stepped
      split at stepped <;> cases stepped
      exact ⟨fun _ => rfl, fun isDone => by cases isDone⟩
  | openCurrent =>
      simp only [State.step] at stepped
      split at stepped <;> cases stepped
      rename_i isRead
      exact ⟨fun _ => reads.buf (.inl isRead), fun isDone => by cases isDone⟩
  | readCurrent =>
      simp only [State.step] at stepped
      split at stepped <;> cases stepped
      rename_i isOpen
      refine ⟨by simp, fun _ => ?_⟩
      dsimp only
      rw [← layout.stream]
      exact reads.joined isOpen adjoins
  | failOpen | push _ | rename | failRename | failReopen | finish | failWrite | drop =>
      simp only [State.step] at stepped
      split at stepped <;> cases stepped
      exact reads.grow rfl rfl rfl rfl rfl written

structure Sound (x : State) : Prop where
  layout : Layout x
  writes : Writes x
  reads : Reads x

theorem sound_of_reachable (reachable : machine.ReachableBy Adjoins x) : Sound x := by
  apply reachable.invariant Sound
  · rintro _ ⟨rotated, current, rfl⟩
    exact ⟨.start rotated current, .start rotated current, .start rotated current⟩
  · intro x event y sound stepped adjoins
    exact ⟨sound.layout.step sound.writes stepped, sound.writes.step stepped,
      sound.reads.step sound.layout sound.writes stepped adjoins⟩

/-- What is read is a piece of what the files held and the pumps have written since; and without a
failure that is what the pumps were given, as far as they have got. -/
theorem backlog_contiguous (reachable : machine.ReachableBy Adjoins x) (isDone : x.reader = .done) :
    x.buf <:+: x.found ++ x.written ∧
      (x.failed = false → x.buf <:+: x.found ++ x.pushed.flatten) := by
  obtain ⟨_, writes, reads⟩ := sound_of_reachable reachable
  refine ⟨reads.done isDone, ?_⟩
  intro fine
  rw [← writes.pushed fine, ← List.append_assoc]
  exact (reads.done isDone).trans (List.prefix_append _ _).isInfix

/-- The directory, as it is between the steps. -/
def State.dir (x : State) : Dir := fun name =>
  if name = "run.log.1" then x.rotated.bind (x.files[·]?)
  else if name = "run.log" then x.current.bind (x.files[·]?)
  else none

theorem readBacklog_dir : readBacklog x.dir .run = x.contents x.rotated ++ x.contents x.current := by
  simp [readBacklog_run, State.dir, State.contents]

theorem Layout.below (layout : Layout x) (isCurrent : x.current = some n) : n < x.files.length :=
  Nat.lt_of_succ_le (layout.current n isCurrent).le

/-- A write is an `append` to the run log. -/
theorem Layout.dir_write (layout : Layout x) (isCurrent : x.current = some n)
    (files : y.files = x.files.modify n (· ++ chunk)) (rotated : y.rotated = x.rotated)
    (current : y.current = x.current) : y.dir = append x.dir .run chunk := by
  have below := layout.below isCurrent
  funext name
  by_cases isRotated : name = "run.log.1"
  · subst isRotated
    cases found : x.rotated with
    | none => simp [State.dir, append, LogKind.fileName, rotated, found]
    | some m =>
        have kept : (x.files.modify n (· ++ chunk))[m]? = x.files[m]? :=
          (layout.rotated m found).modify isCurrent (layout.current n isCurrent)
        simp [State.dir, append, LogKind.fileName, rotated, found, files, kept]
  · by_cases isLog : name = "run.log"
    · subst isLog
      simp [State.dir, append, LogKind.fileName, files, current, isCurrent, below]
    · simp [State.dir, append, LogKind.fileName, isRotated, isLog]

/-- A rename and the opening of the new file are a rotation. -/
theorem Layout.dir_rotate (layout : Layout x) (isCurrent : x.current = some n)
    (files : y.files = x.files ++ [[]]) (rotated : y.rotated = some n)
    (current : y.current = some x.files.length) : y.dir = (rotateAndReopen none x.dir).2 := by
  have below := layout.below isCurrent
  funext name
  by_cases isRotated : name = "run.log.1"
  · subst isRotated
    simp [State.dir, rotateAndReopen, openForKind, LogKind.fileName, isCurrent, below, files,
      rotated, List.getElem?_append_left below]
  · by_cases isLog : name = "run.log"
    · subst isLog
      simp [State.dir, rotateAndReopen, openForKind, LogKind.fileName, isCurrent, below, files,
        current]
    · simp [State.dir, rotateAndReopen, openForKind, LogKind.fileName, isCurrent, below, isRotated,
        isLog]

/-- The steps of one `push`. -/
def State.pushEvents (x : State) (chunk : Bytes) : List Event :=
  .push chunk :: (if runLogRotateBytes ≤ x.bytesWritten then [.rename, .reopen] else []) ++
    [.write chunk.length, .finish]

/-- The steps of one `push`, when nothing fails, do to the directory what `LogPump::push` does. -/
theorem push_alone (layout : Layout x) (writes : Writes x) (isIdle : x.pump = .idle)
    (isOpen : x.file = some n) : ∃ y, machine.play (fun _ _ => true) x (x.pushEvents chunk) = some y ∧
      y.pump = .idle ∧
      LogPump.push ⟨.run, true, x.bytesWritten⟩ none x.dir chunk =
        (⟨.run, true, y.bytesWritten⟩, y.dir) := by
  have isCurrent := writes.file n isOpen (by simp [isIdle])
  by_cases full : runLogRotateBytes ≤ x.bytesWritten
  · let reopened : State := { x with
      pump := .writing chunk chunk
      files := x.files ++ [[]]
      rotated := some n
      current := some x.files.length
      file := some x.files.length
      bytesWritten := 0
      pushed := x.pushed ++ [chunk] }
    have renamed : Layout { x with
        pump := .reopening chunk, rotated := some n, current := none } := layout.rename isCurrent
    have laid : Layout reopened :=
      renamed.openRunLog.same rfl rfl rfl rfl rfl (fun _ => .inl) fun _ => .inl
    have below := layout.below isCurrent
    let after : State := { reopened with
      pump := .idle
      files := reopened.files.modify x.files.length (· ++ chunk)
      bytesWritten := chunk.length
      written := x.written ++ chunk }
    have wrote : after.dir = append reopened.dir .run chunk := laid.dir_write rfl rfl rfl rfl
    have reached : reopened.dir = (rotateAndReopen none x.dir).2 :=
      layout.dir_rotate isCurrent rfl rfl rfl
    refine ⟨after, ?_, rfl, ?_⟩
    · simp [State.pushEvents, full, Machine.play, machine, State.step, isIdle, State.next, isOpen,
        isCurrent, State.openRunLog, reopened, after]
    · have isThere : x.dir "run.log" = x.files[n]? := by simp [State.dir, isCurrent]
      have reopens : (rotateAndReopen none x.dir).1 = true := by
        simp [rotateAndReopen, isThere, List.getElem?_eq_getElem below]
      have rotates : LogPump.rotate ⟨.run, true, x.bytesWritten⟩ none x.dir =
          (⟨.run, true, 0⟩, (rotateAndReopen none x.dir).2) := by
        simp [LogPump.rotate, LogPump.rotates, full, reopens]
      rw [LogPump.push, rotates, wrote, reached]
      simp [LogPump.persist, after]
  · let after : State := { x with
      pump := .idle
      files := x.files.modify n (· ++ chunk)
      bytesWritten := x.bytesWritten + chunk.length
      pushed := x.pushed ++ [chunk]
      written := x.written ++ chunk }
    have wrote : after.dir = append x.dir .run chunk := layout.dir_write isCurrent rfl rfl rfl
    refine ⟨after, ?_, rfl, ?_⟩
    · simp [State.pushEvents, full, Machine.play, machine, State.step, isIdle, State.next, isOpen,
        after]
    · have stays : LogPump.rotate ⟨.run, true, x.bytesWritten⟩ none x.dir =
          (⟨.run, true, x.bytesWritten⟩, x.dir) := by
        simp [LogPump.rotate, LogPump.rotates, full]
      rw [LogPump.push, stays, wrote]
      simp [LogPump.persist, after]

/-- A chunk is written and read before there is anything to rotate. -/
def readsAll : List Event :=
  [.openFile true, .push [1], .write 1, .finish, .openRotated, .readRotated, .openCurrent,
    .readCurrent]

instance (x : State) (event : Event) : Decidable (Adjoins x event) := by
  unfold Adjoins
  split
  · split <;> infer_instance
  · infer_instance

theorem backlog_contiguous_first : ∃ x : State, machine.ReachableBy Adjoins x ∧ x.buf = [7, 1] ∧
    x.failed = false ∧ x.buf <:+: x.found ++ x.pushed.flatten := by
  obtain ⟨x, reachable, held⟩ := Machine.exists_of_play machine Adjoins
    (fun x event => Adjoins x event)
    (fun x => x.reader = .done ∧ x.buf = [7, 1] ∧ x.failed = false)
    (fun _ _ => of_decide_eq_true) ⟨none, some [7], rfl⟩ readsAll (by decide +kernel)
  obtain ⟨isDone, buf, fine⟩ := of_decide_eq_true held
  exact ⟨x, reachable, buf, fine, (backlog_contiguous reachable isDone).2 fine⟩

/-- The pump rotates between the two reads. -/
def rotatesBetween : List Event :=
  [.openFile true, .openRotated, .readRotated, .push [3], .rename, .reopen, .write 1, .finish,
    .openCurrent, .readCurrent]

theorem rotatesBetween_play (older newer : Bytes) (full : runLogRotateBytes ≤ newer.length) :
    (machine.play (fun _ _ => true) (State.start (some older) (some newer)) rotatesBetween).map
        (fun x => (x.reader, x.buf, x.failed, x.found, x.pushed, x.written)) =
      some (.done, older ++ [3], false, older ++ newer, [[3]], [3]) := by
  simp [rotatesBetween, Machine.play, machine, State.step, State.start, State.openRunLog,
    State.contents, State.next, full]

theorem not_infix_gap {count : Nat} (pos : 0 < count) :
    ¬ List.replicate count (1 : UInt8) ++ [3] <:+:
      List.replicate count 1 ++ List.replicate count 2 ++ [3] := by
  rintro ⟨before, after, same⟩
  rcases List.eq_nil_or_concat after with rfl | ⟨rest, last, rfl⟩
  · -- the byte before the last is a 1 on one side, and a 2 on the other
    rw [List.append_nil, ← List.append_assoc, List.append_left_inj] at same
    have lasts := congrArg List.getLast? same
    simp [List.getLast?_append, List.getLast?_replicate, Nat.ne_of_gt pos] at lasts
  · rw [List.concat_eq_append, ← List.append_assoc] at same
    have inside : (3 : UInt8) ∈ List.replicate count (1 : UInt8) ++ List.replicate count 2 := by
      rw [← (List.append_inj' same rfl).1]
      simp
    simp at inside

theorem backlog_has_hole : ∃ x : State, machine.Reachable x ∧ x.reader = .done ∧ x.failed = false ∧
    x.found = List.replicate runLogRotateBytes 1 ++ List.replicate runLogRotateBytes 2 ∧
    x.pushed = [[3]] ∧ x.written = [3] ∧ x.buf = List.replicate runLogRotateBytes 1 ++ [3] ∧
    ¬ x.buf <:+: x.found ++ x.written := by
  have played := rotatesBetween_play (List.replicate runLogRotateBytes 1)
    (List.replicate runLogRotateBytes 2) (by simp)
  obtain ⟨x, reached, ends⟩ := Option.map_eq_some_iff.1 played
  simp only [Prod.mk.injEq] at ends
  obtain ⟨isDone, buf, fine, found, pushed, written⟩ := ends
  refine ⟨x, Machine.play_reachable (fun _ _ _ => trivial) (.initial ⟨_, _, rfl⟩) _ reached, isDone,
    fine, found, pushed, written, buf, ?_⟩
  rw [buf, found, written]
  exact not_infix_gap runLogRotateBytes_pos

end Berth.Backlog
