import Berth.Session.LogFollow

/-!
The files of a `LogPump`. A run log is renamed to `run.log.1` before the first write that finds it
at its cap, and a pump that opens it again takes its byte counter from the file.
-/

namespace Berth.LogFollow

/-- `RUN_LOG_ROTATE_BYTES`. -/
def runLogRotateBytes : Nat := 1024 * 1024

/-- The call that fails, if one does. A failed `write_all` may have written a part of the chunk. -/
inductive LogFault where
  | openFile
  | metadata
  | rename
  | reopen
  | write (written : Nat)
  deriving DecidableEq

/-- `rotate_and_reopen`: whether there is a file again, and the directory. -/
def rotateAndReopen (fault : Option LogFault) (dir : Dir) : Bool × Dir :=
  match dir "run.log" with
  | none => (false, dir)
  | some content =>
      let renamed := Function.update (Function.update dir "run.log.1" (some content)) "run.log" none
      if fault = some .rename then (false, dir)
      else if fault = some .reopen then (false, renamed)
      else (true, openForKind renamed .run)

structure LogPump where
  kind : LogKind
  hasFile : Bool
  bytesWritten : Nat
  deriving DecidableEq

namespace LogPump

/-- `LogPump::try_new`, once the deployment is registered. -/
def tryNew (fault : Option LogFault) (kind : LogKind) (dir : Dir) : LogPump × Dir :=
  if fault = some .openFile then (⟨kind, false, 0⟩, dir)
  else
    let opened := openForKind dir kind
    let len := ((opened kind.fileName).getD []).length
    (⟨kind, true, if fault = some .metadata then 0 else len⟩, opened)

variable (pump : LogPump)

def rotates : Bool :=
  pump.hasFile && decide (pump.kind = .run) && decide (runLogRotateBytes ≤ pump.bytesWritten)

def rotate (fault : Option LogFault) (dir : Dir) : LogPump × Dir :=
  if pump.rotates then
    let reopened := rotateAndReopen fault dir
    ({ pump with hasFile := reopened.1, bytesWritten := 0 }, reopened.2)
  else (pump, dir)

def persist (fault : Option LogFault) (dir : Dir) (chunk : Bytes) : LogPump × Dir :=
  if pump.hasFile then
    match fault with
    | some (.write written) => (pump, append dir pump.kind (chunk.take written))
    | _ => ({ pump with bytesWritten := pump.bytesWritten + chunk.length }, append dir pump.kind chunk)
  else (pump, dir)

/-- `LogPump::push`, up to the broadcast. -/
def push (fault : Option LogFault) (dir : Dir) (chunk : Bytes) : LogPump × Dir :=
  let rotated := pump.rotate fault dir
  rotated.1.persist fault rotated.2 chunk

/-- One pump after another on a directory, each with the chunks that are pushed to it. -/
def pushAll (opened : LogPump × Dir) (chunks : List Bytes) : LogPump × Dir :=
  chunks.foldl (fun reached chunk => reached.1.push none reached.2 chunk) opened

def session (kind : LogKind) (dir : Dir) (chunks : List Bytes) : Dir :=
  (pushAll (tryNew none kind dir) chunks).2

def sessions (kind : LogKind) (dir : Dir) (pumps : List (List Bytes)) : Dir :=
  pumps.foldl (session kind) dir

end LogPump

def longest (chunks : List Bytes) : Nat := (chunks.map List.length).foldr max 0

theorem longest_append {chunks : List Bytes} {chunk : Bytes} :
    longest (chunks ++ [chunk]) = max (longest chunks) chunk.length := by
  induction chunks with
  | nil => simp [longest]
  | cons first rest ih =>
      simp only [longest, List.cons_append, List.map_cons, List.foldr_cons] at ih ⊢
      rw [ih]
      omega

variable {dir : Dir} {pump : LogPump} {kind : LogKind} {pushed : List Bytes} {chunk : Bytes}

theorem readBacklog_run : readBacklog dir .run =
    (dir "run.log.1").getD [] ++ (dir "run.log").getD [] := by
  simp [readBacklog, readInto, LogKind.fileName]

/-- A rotation leaves the last file's content alone, under the other name. -/
theorem readBacklog_rotateAndReopen {content : Bytes} (current : dir "run.log" = some content) :
    readBacklog (rotateAndReopen none dir).2 .run = content := by
  simp [rotateAndReopen, current, openForKind, readBacklog_run, LogKind.fileName]

/-- What is left of the pushed chunks in the run logs. -/
structure Retained (dir : Dir) (pushed : List Bytes) : Prop where
  suffix : readBacklog dir .run <:+ pushed.flatten
  whole : dir "run.log.1" = none → (dir "run.log").getD [] = pushed.flatten
  full : ∀ content, dir "run.log.1" = some content → runLogRotateBytes ≤ content.length
  rotated : ∀ content, dir "run.log.1" = some content →
    content.length < runLogRotateBytes + longest pushed
  current : ∀ content, dir "run.log" = some content →
    content.length < runLogRotateBytes + longest pushed

/-- The pump has its file open, and knows how long it is. -/
structure Counts (pump : LogPump) (dir : Dir) : Prop where
  kind : pump.kind = .run
  hasFile : pump.hasFile = true
  counted : ∃ content, dir "run.log" = some content ∧ pump.bytesWritten = content.length

theorem retained_empty : Retained (fun _ => none) [] := by
  constructor
  · simp [readBacklog_run]
  · simp
  · intro content present
    cases present
  · intro content present
    cases present
  · intro content present
    cases present

theorem runLogRotateBytes_pos : 0 < runLogRotateBytes := by decide

theorem Retained.tryNew (retained : Retained dir pushed) :
    Retained (LogPump.tryNew none .run dir).2 pushed ∧
      Counts (LogPump.tryNew none .run dir).1 (LogPump.tryNew none .run dir).2 := by
  have opened : (LogPump.tryNew none .run dir).2 = openForKind dir .run := rfl
  have current : openForKind dir .run "run.log" = some ((dir "run.log").getD []) := by
    simp [openForKind, LogKind.fileName]
  have other : openForKind dir .run "run.log.1" = dir "run.log.1" := by
    simp [openForKind, LogKind.fileName]
  rw [opened]
  refine ⟨⟨?_, ?_, ?_, ?_, ?_⟩, rfl, rfl, _, current, ?_⟩
  · rw [readBacklog_openForKind]
    exact retained.suffix
  · rw [other, current]
    exact retained.whole
  · rw [other]
    exact retained.full
  · rw [other]
    exact retained.rotated
  · intro content present
    rw [current] at present
    cases present
    cases found : dir "run.log" with
    | none => exact Nat.add_pos_left runLogRotateBytes_pos _
    | some content => exact retained.current content found
  · simp [LogPump.tryNew, openForKind, LogKind.fileName]

/-- The pump and its directory between the rotation and the write. -/
structure Room (pump : LogPump) (dir : Dir) (pushed : List Bytes) : Prop where
  retained : Retained dir pushed
  counts : Counts pump dir
  room : pump.bytesWritten < runLogRotateBytes

theorem Retained.rotate (retained : Retained dir pushed) (counts : Counts pump dir) :
    Room (pump.rotate none dir).1 (pump.rotate none dir).2 pushed := by
  obtain ⟨content, current, counted⟩ := counts.counted
  by_cases full : runLogRotateBytes ≤ pump.bytesWritten
  · have rotated : pump.rotate none dir =
        ({ pump with hasFile := (rotateAndReopen none dir).1, bytesWritten := 0 },
          (rotateAndReopen none dir).2) := by
      simp [LogPump.rotate, LogPump.rotates, counts.kind, counts.hasFile, full]
    have reopened : (rotateAndReopen none dir).1 = true := by simp [rotateAndReopen, current]
    have last : (rotateAndReopen none dir).2 "run.log.1" = some content := by
      simp [rotateAndReopen, current, openForKind, LogKind.fileName]
    have fresh : (rotateAndReopen none dir).2 "run.log" = some [] := by
      simp [rotateAndReopen, current, openForKind, LogKind.fileName]
    rw [rotated]
    refine ⟨⟨?_, ?_, ?_, ?_, ?_⟩, ⟨counts.kind, reopened, [], fresh, rfl⟩, runLogRotateBytes_pos⟩
    · rw [readBacklog_rotateAndReopen current]
      have suffix := retained.suffix
      rw [readBacklog_run, current] at suffix
      exact (List.suffix_append _ _).trans suffix
    · intro missing
      rw [last] at missing
      cases missing
    · intro held present
      rw [last] at present
      cases present
      omega
    · intro held present
      rw [last] at present
      cases present
      exact retained.current content current
    · intro held present
      rw [fresh] at present
      cases present
      exact Nat.add_pos_left runLogRotateBytes_pos _
  · have same : pump.rotate none dir = (pump, dir) := by
      simp [LogPump.rotate, LogPump.rotates, full]
    rw [same]
    exact ⟨retained, counts, Nat.lt_of_not_le full⟩

theorem Room.persist (room : Room pump dir pushed) :
    Retained (pump.persist none dir chunk).2 (pushed ++ [chunk]) ∧
      Counts (pump.persist none dir chunk).1 (pump.persist none dir chunk).2 := by
  obtain ⟨content, current, counted⟩ := room.counts.counted
  have kind := room.counts.kind
  have written : pump.persist none dir chunk =
      ({ pump with bytesWritten := pump.bytesWritten + chunk.length }, append dir .run chunk) := by
    simp [LogPump.persist, room.counts.hasFile, kind]
  have longer : append dir .run chunk "run.log" = some (content ++ chunk) := by
    simp [append, LogKind.fileName, current]
  have other : append dir .run chunk "run.log.1" = dir "run.log.1" := by
    simp [append, LogKind.fileName]
  have below := room.room
  rw [written]
  dsimp only
  refine ⟨⟨?_, ?_, ?_, ?_, ?_⟩, kind, room.counts.hasFile, _, longer, ?_⟩
  · obtain ⟨older, suffix⟩ := room.retained.suffix
    rw [readBacklog_append]
    exact ⟨older, by simp [← suffix]⟩
  · intro missing
    rw [other] at missing
    have whole := room.retained.whole missing
    rw [current] at whole
    rw [longer]
    simpa using whole
  · rw [other]
    exact room.retained.full
  · intro held present
    rw [other] at present
    have short := room.retained.rotated held present
    rw [longest_append]
    omega
  · intro held present
    rw [longer] at present
    cases present
    rw [longest_append, List.length_append]
    omega
  · simp [counted]

theorem Retained.push (chunk : Bytes) (retained : Retained dir pushed) (counts : Counts pump dir) :
    Retained (pump.push none dir chunk).2 (pushed ++ [chunk]) ∧
      Counts (pump.push none dir chunk).1 (pump.push none dir chunk).2 :=
  (retained.rotate counts).persist

theorem Retained.pushAll {opened : LogPump × Dir} (chunks : List Bytes)
    (retained : Retained opened.2 pushed) (counts : Counts opened.1 opened.2) :
    Retained (LogPump.pushAll opened chunks).2 (pushed ++ chunks) := by
  induction chunks generalizing opened pushed with
  | nil => simpa [LogPump.pushAll] using retained
  | cons chunk rest ih =>
      obtain ⟨retained, counts⟩ := retained.push chunk counts
      simpa [LogPump.pushAll] using ih retained counts

theorem Retained.sessions (pumps : List (List Bytes)) (retained : Retained dir pushed) :
    Retained (LogPump.sessions .run dir pumps) (pushed ++ pumps.flatten) := by
  induction pumps generalizing dir pushed with
  | nil => simpa [LogPump.sessions] using retained
  | cons chunks rest ih =>
      obtain ⟨opened, counts⟩ := retained.tryNew
      simpa [LogPump.sessions, LogPump.session] using ih (opened.pushAll chunks counts)

theorem Retained.length (retained : Retained dir pushed) :
    min pushed.flatten.length runLogRotateBytes ≤ (readBacklog dir .run).length := by
  rw [readBacklog_run, List.length_append]
  cases rotated : dir "run.log.1" with
  | none =>
      rw [retained.whole rotated]
      omega
  | some content =>
      have full := retained.full content rotated
      simp only [Option.getD_some]
      omega

/-- The run logs of pumps that follow each other in an empty directory. -/
theorem rotation_retains (pumps : List (List Bytes)) :
    readBacklog (LogPump.sessions .run (fun _ => none) pumps) .run <:+ pumps.flatten.flatten ∧
    min pumps.flatten.flatten.length runLogRotateBytes ≤
      (readBacklog (LogPump.sessions .run (fun _ => none) pumps) .run).length ∧
    ∀ name ∈ ["run.log", "run.log.1"], ∀ content,
      LogPump.sessions .run (fun _ => none) pumps name = some content →
        content.length < runLogRotateBytes + longest pumps.flatten := by
  have retained := retained_empty.sessions pumps
  rw [List.nil_append] at retained
  refine ⟨retained.suffix, retained.length, ?_⟩
  intro name isLog
  simp only [List.mem_cons, List.not_mem_nil, or_false] at isLog
  rcases isLog with rfl | rfl
  · exact retained.current
  · exact retained.rotated

end Berth.LogFollow
