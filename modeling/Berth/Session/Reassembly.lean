import Berth.Session.Uploads
import Berth.Session.Teardown

/-!
Chunked uploads, from the hub's stream over a file to what an upload's handler writes. Whatever
part of a file has not been written yet is with the handler, in its queue, with the loop, or on its
way, in this order.
-/

namespace Berth.Dispatch

open Interleave

/-- `UPLOAD_CHUNK_BYTES`. -/
def uploadChunkBytes : Nat := 64 * 1024

inductive UploadState where
  | reading
  | finished
  deriving DecidableEq

def wrapChunk (deploymentId : String) (maxUncompressedBytes : Nat) (data : Bytes)
    (isFinal : Bool) : UploadZipAndExtractRequest :=
  ⟨deploymentId, maxUncompressedBytes, some ⟨data, isFinal⟩⟩

/-- A step of `unfold`, by what `file.read` has put into the buffer, if it has not failed. -/
def nextPayload (deploymentId : String) (maxUncompressedBytes : Nat) :
    UploadState → Option Bytes → Option (UploadZipAndExtractRequest × UploadState)
  | .finished, _ => none
  | .reading, some [] => some (wrapChunk deploymentId maxUncompressedBytes [] true, .finished)
  | .reading, some (byte :: buf) =>
      some (wrapChunk deploymentId maxUncompressedBytes (byte :: buf) false, .reading)
  | .reading, none => none

def unfold (deploymentId : String) (maxUncompressedBytes : Nat) :
    UploadState → List (Option Bytes) → List UploadZipAndExtractRequest
  | _, [] => []
  | state, read :: reads =>
      match nextPayload deploymentId maxUncompressedBytes state read with
      | some (payload, state) => payload :: unfold deploymentId maxUncompressedBytes state reads
      | none => []

/-- A file and how it is read: each time something that fits into the buffer, and at its end
nothing. -/
structure Shipment where
  deploymentId : String
  maxUncompressedBytes : Nat
  file : Bytes
  pieces : List Bytes
  nonempty : ∀ piece ∈ pieces, piece ≠ []
  fits : ∀ piece ∈ pieces, piece.length ≤ uploadChunkBytes
  whole : pieces.flatten = file

def Shipment.payloads (shipment : Shipment) : List UploadZipAndExtractRequest :=
  unfold shipment.deploymentId shipment.maxUncompressedBytes .reading
    (shipment.pieces.map some ++ [some []])

def Shipment.chunks (shipment : Shipment) : List Chunk :=
  shipment.pieces.map (fun piece => ⟨piece, false⟩) ++ [⟨[], true⟩]

variable {Command Answer : Type} {session next : Session Command Answer}
variable {event : Event Answer} {n m requestId : Nat} {handler after : Handler}
variable {history : List (Session Command Answer × Event Answer)}
variable {messages : List (Message Command)} {shipment : Shipment}

theorem unfold_pieces {deploymentId : String} {maxUncompressedBytes : Nat} {pieces : List Bytes}
    (nonempty : ∀ piece ∈ pieces, piece ≠ []) :
    unfold deploymentId maxUncompressedBytes .reading (pieces.map some ++ [some []]) =
      pieces.map (wrapChunk deploymentId maxUncompressedBytes · false) ++
        [wrapChunk deploymentId maxUncompressedBytes [] true] := by
  induction pieces with
  | nil => rfl
  | cons piece rest ih =>
      have later := ih fun other member => nonempty other (List.mem_cons_of_mem _ member)
      cases piece with
      | nil => exact absurd rfl (nonempty [] List.mem_cons_self)
      | cons byte buf => simp [unfold, nextPayload, later]

theorem Shipment.payloads_chunk :
    shipment.payloads.map (·.chunk) = shipment.chunks.map some := by
  simp [Shipment.payloads, Shipment.chunks, unfold_pieces shipment.nonempty, wrapChunk]

theorem Shipment.chunks_data : (shipment.chunks.map Chunk.data).flatten = shipment.file := by
  simp [Shipment.chunks, shipment.whole, Function.comp_def]

/-- The upload's messages, in order. -/
def requestsOf (requestId : Nat) (messages : List (Message Command)) :
    List UploadZipAndExtractRequest :=
  messages.filterMap fun message =>
    if message.requestId = requestId then
      match message.payload with
      | some (.uploadZipAndExtract req) => some req
      | _ => none
    else none

theorem uploadsOf_eq : uploadsOf requestId messages =
    (requestsOf requestId messages).map (·.chunk) := by
  simp only [uploadsOf, requestsOf, List.map_filterMap]
  congr 1
  funext message
  obtain ⟨id, payload⟩ := message
  split
  · cases payload with
    | none => rfl
    | some payload => cases payload <;> rfl
  · rfl

/-- The sessions in which the hub ships these files, each under its request, one message after the
other in whatever order; other requests' messages may be between them. -/
abbrev shipping (Command Answer : Type) (shipments : Nat → Option Shipment) :
    Machine (Session Command Answer) (Event Answer) where
  initial := fun session => ∃ coming, session = Session.new coming ∧
    ∀ requestId, requestsOf requestId coming = ((shipments requestId).map Shipment.payloads).getD []
  step := Session.step

/-- The handler does not fail to create its file or to write to it. -/
def Unfailing (requestId : Nat) (session : Session Command Answer) : Event Answer → Prop
  | .create n failure | .write n failure => failure.isSome = true →
      (session.handlers n).all (fun handler => handler.Uploads requestId) = false
  | _ => True

instance (requestId : Nat) (session : Session Command Answer) (event : Event Answer) :
    Decidable (Unfailing requestId session event) :=
  match event with
  | .create _ _ | .write _ _ => inferInstanceAs (Decidable (_ → _))
  | .arrive | .cut _ | .read | .route | .hand | .receive _ | .extract _ _ | .removeZip _ | .reply _
  | .stopReading _ | .dropBody _ | .respond _ _ | .finish _ | .remove _ | .answer _ _ | .transmit
  | .closeOutbox => isTrue trivial

/-- The chunk whose `write_all` is under way. -/
def Handler.hand (handler : Handler) : List Chunk :=
  match handler.phase with
  | .writing chunk => [chunk]
  | .starting | .creating | .receiving | .extracting | .cleaning _ | .replying _ | .relaying
  | .removing | .done => []

/-- `receive_zip` has not returned. -/
def Handler.isReceiving (handler : Handler) : Bool :=
  match handler.phase with
  | .starting | .creating | .receiving | .writing _ => true
  | .extracting | .cleaning _ | .replying _ | .relaying | .removing | .done => false

/-- What the handler's `write_all` has been given in this event. -/
def Session.writes (session : Session Command Answer) (n : Nat) : Event Answer → List Chunk
  | .write m none => if m = n then ((session.handlers n).map Handler.hand).getD [] else []
  | _ => []

/-- What it has been given so far. -/
def written (n : Nat) : List (Session Command Answer × Event Answer) → List Chunk
  | [] => []
  | (session, event) :: earlier => written n earlier ++ session.writes n event

/-- A handler that waits for a chunk is never told that there will be none. -/
theorem Orderly.waits (orderly : Orderly session) (found : session.handlers n = some handler)
    (isUpload : handler.task.family = .uploads) (receiving : handler.phase = .receiving) :
    session.hasSender n handler = true := by
  refine orderly.hasSender found ?_
  rw [isUpload]
  exact orderly.uploads n handler found isUpload (by simp [receiving])

/-- What an upload's handler does of its own, if it does not fail: it writes the chunk that it has
in hand, and stops at the final one, or it goes on with what it has. -/
theorem upload_event (orderly : Orderly session) (unfailing : Unfailing requestId session event)
    (found : session.handlers n = some handler) (ours : handler.Uploads requestId)
    (own : event.handledBy = some n) (stepped : session.step event = some next) :
    ∃ after, next.handlers n = some after ∧
      ((∃ chunk, handler.hand = [chunk] ∧ session.writes n event = [chunk] ∧ after.hand = [] ∧
          after.queue = handler.queue ∧ handler.isReceiving = true ∧
            after.isReceiving = !chunk.isFinal) ∨
        (session.writes n event = [] ∧ after.hand ++ after.queue = handler.hand ++ handler.queue ∧
          after.isReceiving = handler.isReceiving)) := by
  have sound {failure : String} (failed : (some failure).isSome = true →
      (session.handlers n).all (fun handler => handler.Uploads requestId) = false) : False := by
    simp [found, ours] at failed
  have notRelay : ∀ head, handler.task ≠ .relay head := by
    intro head isRelay
    simpa [isRelay, Task.family] using ours.1
  cases event with
  | create m failure =>
      cases own
      simp only [Session.step, found, Option.bind_some, Session.create] at stepped
      split at stepped <;> cases stepped
      · rename_i creating _
        exact ⟨_, setHandler_self, Or.inr ⟨rfl, by simp [Handler.hand, creating],
          by simp [Handler.isReceiving, creating]⟩⟩
      · exact absurd unfailing sound
  | receive m =>
      cases own
      simp only [Session.step, found, Option.bind_some, Session.receive] at stepped
      split at stepped
      · rename_i chunk rest _ queue
        split at stepped <;> cases stepped
        rename_i receiving
        exact ⟨_, setHandler_self, Or.inr ⟨rfl, by simp [Handler.hand, receiving, queue],
          by simp [Handler.isReceiving, receiving]⟩⟩
      · split at stepped <;> try cases stepped
        rename_i receiving
        simp [orderly.waits found ours.1 receiving] at stepped
      · exact absurd ‹_› (notRelay _)
      · exact absurd ‹_› (notRelay _)
  | write m failure =>
      cases own
      simp only [Session.step, found, Option.bind_some, Session.write] at stepped
      split at stepped
      · rename_i chunk writing
        have written : session.writes n (.write n none : Event Answer) = [chunk] := by
          simp [Session.writes, found, Handler.hand, writing]
        split at stepped <;> cases stepped
        · rename_i isFinal
          exact ⟨_, setHandler_self, Or.inl ⟨chunk, by simp [Handler.hand, writing], written, rfl, rfl,
            by simp [Handler.isReceiving, writing], by simp [Handler.isReceiving, isFinal]⟩⟩
        · rename_i notFinal
          exact ⟨_, setHandler_self, Or.inl ⟨chunk, by simp [Handler.hand, writing], written, rfl, rfl,
            by simp [Handler.isReceiving, writing], by simp [Handler.isReceiving, notFinal]⟩⟩
      · exact absurd unfailing sound
      · cases stepped
  | extract m result =>
      cases own
      simp only [Session.step, found, Option.bind_some, Session.extract] at stepped
      split at stepped <;> cases stepped
      rename_i extracting
      exact ⟨_, setHandler_self, Or.inr ⟨rfl, by simp [Handler.hand, extracting],
        by simp [Handler.isReceiving, extracting]⟩⟩
  | removeZip m =>
      cases own
      simp only [Session.step, found, Option.bind_some, Session.removeZip] at stepped
      split at stepped <;> cases stepped
      rename_i cleaning _
      exact ⟨_, setHandler_self, Or.inr ⟨rfl, by simp [Handler.hand, cleaning],
        by simp [Handler.isReceiving, cleaning]⟩⟩
  | reply m =>
      cases own
      simp only [Session.step, found, Option.bind_some, Session.reply] at stepped
      split at stepped
      · rename_i replying
        obtain ⟨posted, post, stepped⟩ := Option.map_eq_some_iff.1 stepped
        subst stepped
        exact ⟨_, setHandler_self, Or.inr ⟨rfl, by simp [Handler.hand, replying],
          by simp [Handler.isReceiving, replying]⟩⟩
      · cases stepped
  | stopReading m | dropBody m | finish m | respond m answer =>
      cases own
      simp only [Session.step, found, Option.bind_some, Session.stopReading, Session.dropBody,
        Session.finish, Session.respond] at stepped
      split at stepped
      · exact absurd ‹_› (notRelay _)
      · cases stepped
  | arrive | cut | read | route | hand | remove | answer | transmit | closeOutbox => cases own

/-- The upload's messages that have arrived and are still to be routed. -/
def Session.arrived (session : Session Command Answer) (requestId : Nat) : List (Option Chunk) :=
  uploadsOf requestId (session.inHand ++ session.inbound)

/-- What has been routed, what has arrived, and what is still to come make up the file; when the
session's end has come, the rest may be lost. -/
def Conserves (shipment : Shipment) (requestId : Nat) (routed : List (Option Chunk))
    (session : Session Command Answer) : Prop :=
  ∃ later, routed ++ session.arrived requestId ++ later = shipment.chunks.map some ∧
    (session.ended = false → later = uploadsOf requestId session.coming)

variable {routed : List (Option Chunk)}

theorem Conserves.congr (conserves : Conserves shipment requestId routed session)
    (arrived : next.arrived requestId = session.arrived requestId)
    (ended : next.ended = session.ended) (coming : next.coming = session.coming) :
    Conserves shipment requestId routed next := by
  simpa only [Conserves, arrived, ended, coming] using conserves

theorem arrived_idle (idle : session.inHand = []) :
    session.arrived requestId = uploadsOf requestId session.inbound := by
  simp [Session.arrived, idle]

/-- A final chunk is the last one. -/
theorem Conserves.complete {front : List Chunk} {last : Chunk} {more : List (Option Chunk)}
    (conserves : Conserves shipment requestId ((front ++ [last]).map some ++ more) session)
    (isFinal : last.isFinal = true) : front ++ [last] = shipment.chunks := by
  obtain ⟨later, whole, _⟩ := conserves
  rw [List.append_assoc, List.append_assoc] at whole
  rcases List.eq_nil_or_concat (more ++ (session.arrived requestId ++ later)) with none | ⟨init, end', rest⟩
  · rw [none, List.append_nil] at whole
    exact (List.map_inj_right fun _ _ => Option.some.inj).1 whole
  · have whole : ((front ++ [last]).map some ++ init) ++ [end'] =
        (shipment.pieces.map fun piece => some ⟨piece, false⟩) ++ [some ⟨[], true⟩] := by
      rw [rest, List.concat_eq_append, ← List.append_assoc] at whole
      simpa [Shipment.chunks, Function.comp_def] using whole
    obtain ⟨fronts, _⟩ := List.append_inj' whole rfl
    have member : some last ∈ (front ++ [last]).map some ++ init := by simp
    rw [fronts] at member
    obtain ⟨piece, _, same⟩ := List.mem_map.1 member
    cases same
    cases isFinal

/-- When all is written, nothing is left. -/
theorem Conserves.nothing {front : List Chunk} {more : List (Option Chunk)}
    (conserves : Conserves shipment requestId (front.map some ++ more) session)
    (all : front = shipment.chunks) : more = [] ∧ session.arrived requestId = [] := by
  obtain ⟨later, whole, _⟩ := conserves
  subst all
  rw [List.append_assoc, List.append_assoc] at whole
  have none := List.append_right_eq_self.1 whole
  rw [List.append_eq_nil_iff, List.append_eq_nil_iff] at none
  exact ⟨none.1, none.2.1⟩

/-- How the upload's handler stands to what it has written and what is still to come. -/
structure Assembling (shipment : Shipment) (requestId : Nat)
    (history : List (Session Command Answer × Event Answer)) (session : Session Command Answer) :
    Prop where
  single : ∀ n m handler other, session.handlers n = some handler →
    session.handlers m = some other → handler.Uploads requestId → other.Uploads requestId → n = m
  fresh : ∀ n, session.handlers n = none → written n history = []
  awaited : (∀ n handler, session.handlers n = some handler → ¬ handler.Uploads requestId) →
    Conserves shipment requestId [] session
  assembled : ∀ n handler, session.handlers n = some handler → handler.Uploads requestId →
    Conserves shipment requestId ((written n history).map some ++
      ((handler.hand ++ handler.queue).map some ++ session.loop.chunkFor n)) session
  receiving : ∀ n handler, session.handlers n = some handler → handler.Uploads requestId →
    handler.isReceiving = true → ∀ chunk ∈ written n history, chunk.isFinal = false
  stopped : ∀ n handler, session.handlers n = some handler → handler.Uploads requestId →
    handler.isReceiving = false → written n history = shipment.chunks

theorem assembling_new {coming : List (Message Command)}
    (ships : requestsOf requestId coming = shipment.payloads) :
    Assembling shipment requestId [] (Session.new coming : Session Command Answer) := by
  have nobody : ∀ n handler, (Session.new coming : Session Command Answer).handlers n ≠
      some handler := by simp [Session.new]
  refine ⟨fun n _ handler _ found => absurd found (nobody n handler), fun _ _ => rfl, fun _ => ?_,
    fun n handler found => absurd found (nobody n handler),
    fun n handler found => absurd found (nobody n handler),
    fun n handler found => absurd found (nobody n handler)⟩
  refine ⟨uploadsOf requestId coming, ?_, fun _ => rfl⟩
  simp [uploadsOf_eq, ships, shipment.payloads_chunk, Session.arrived, Session.inHand, Session.new]
  rfl

/-- A step that moves messages, and none to or from the upload's handler. -/
theorem Assembling.congr (assembling : Assembling shipment requestId history session)
    (handlers : next.handlers = session.handlers) (writes : ∀ n, session.writes n event = [])
    (conserves : ∀ routed, Conserves shipment requestId routed session →
      Conserves shipment requestId routed next)
    (loop : ∀ n handler, session.handlers n = some handler → handler.Uploads requestId →
      next.loop.chunkFor n = session.loop.chunkFor n) :
    Assembling shipment requestId ((session, event) :: history) next := by
  obtain ⟨single, fresh, awaited, assembled, receiving, stopped⟩ := assembling
  have same (n : Nat) : written n ((session, event) :: history) = written n history := by
    simp [written, writes]
  refine ⟨?_, ?_, ?_, ?_, ?_, ?_⟩ <;> simp only [handlers, same]
  · exact single
  · exact fresh
  · exact fun nobody => conserves _ (awaited nobody)
  · intro n handler found ours
    rw [loop n handler found ours]
    exact conserves _ (assembled n handler found ours)
  · exact receiving
  · exact stopped

/-- A step that moves one handler, and what the loop has for it. -/
theorem Assembling.settles (assembling : Assembling shipment requestId history session)
    (after : Handler) (found : session.handlers m = some handler)
    (handlers : ∀ n, next.handlers n = if n = m then some after else session.handlers n)
    (uploads : after.Uploads requestId ↔ handler.Uploads requestId)
    (writes : ∀ n, n ≠ m → session.writes n event = [])
    (conserves : ∀ routed, Conserves shipment requestId routed session →
      Conserves shipment requestId routed next)
    (others : ∀ n, n ≠ m → next.loop.chunkFor n = session.loop.chunkFor n)
    (mine : handler.Uploads requestId →
      (session.writes m event ++ (after.hand ++ after.queue)).map some ++ next.loop.chunkFor m =
          (handler.hand ++ handler.queue).map some ++ session.loop.chunkFor m ∧
        (session.writes m event = [] ∧ after.isReceiving = handler.isReceiving ∨
          ∃ chunk, session.writes m event = [chunk] ∧ handler.isReceiving = true ∧
            after.isReceiving = !chunk.isFinal)) :
    Assembling shipment requestId ((session, event) :: history) next := by
  obtain ⟨single, fresh, awaited, assembled, receiving, stopped⟩ := assembling
  have same : ∀ n other, next.handlers n = some other → other.Uploads requestId →
      ∃ older, session.handlers n = some older ∧ older.Uploads requestId ∧
        (n = m → older = handler ∧ other = after) ∧ (n ≠ m → older = other) := by
    intro n other found' ours
    rw [handlers] at found'
    split at found'
    · rename_i isOwn
      cases found'
      exact ⟨handler, isOwn ▸ found, uploads.1 ours, fun _ => ⟨rfl, rfl⟩,
        fun absurdly => absurd isOwn absurdly⟩
    · rename_i different
      exact ⟨other, found', ours, fun isOwn => absurd isOwn different, fun _ => rfl⟩
  have goesOn : ∀ n, n ≠ m → written n ((session, event) :: history) = written n history := by
    intro n different
    simp [written, writes n different]
  have mineAssembled (ours : handler.Uploads requestId) : Conserves shipment requestId
      ((written m ((session, event) :: history)).map some ++
        ((after.hand ++ after.queue).map some ++ next.loop.chunkFor m)) next := by
    have before := conserves _ (assembled m handler found ours)
    rw [← (mine ours).1] at before
    simpa [written] using before
  refine ⟨?_, ?_, ?_, ?_, ?_, ?_⟩
  · intro n k handler' other found' foundOther ours ours'
    obtain ⟨older, foundOlder, oursOlder, _⟩ := same n handler' found' ours
    obtain ⟨older', foundOlder', oursOlder', _⟩ := same k other foundOther ours'
    exact single n k older older' foundOlder foundOlder' oursOlder oursOlder'
  · intro n none
    rw [handlers] at none
    split at none
    · cases none
    · rename_i different
      rw [goesOn n different]
      exact fresh n none
  · intro nobody
    refine conserves _ (awaited fun n other foundOther ours => ?_)
    by_cases isM : n = m
    · subst isM
      rw [found] at foundOther
      cases foundOther
      exact nobody n after (by simp [handlers]) (uploads.2 ours)
    · exact nobody n other (by simp [handlers, isM, foundOther]) ours
  · intro n other foundOther ours
    obtain ⟨older, foundOlder, oursOlder, isOwn, isOther⟩ := same n other foundOther ours
    by_cases isM : n = m
    · obtain ⟨rfl, rfl⟩ := isOwn isM
      subst isM
      exact mineAssembled oursOlder
    · rw [goesOn n isM, others n isM, ← isOther isM]
      exact conserves _ (assembled n older foundOlder oursOlder)
  · intro n other foundOther ours isReceiving
    obtain ⟨older, foundOlder, oursOlder, isOwn, isOther⟩ := same n other foundOther ours
    by_cases isM : n = m
    · obtain ⟨rfl, rfl⟩ := isOwn isM
      subst isM
      rcases (mine oursOlder).2 with ⟨nothing, stage⟩ | ⟨chunk, wrote, before, stage⟩
      · simp only [written, nothing, List.append_nil]
        exact receiving n older foundOlder oursOlder (stage.symm.trans isReceiving)
      · intro other member
        simp only [written, wrote, List.mem_append, List.mem_singleton] at member
        rcases member with earlier | rfl
        · exact receiving n older foundOlder oursOlder before other earlier
        · rw [isReceiving] at stage
          simpa using stage.symm
    · rw [goesOn n isM]
      exact receiving n older foundOlder oursOlder (isOther isM ▸ isReceiving)
  · intro n other foundOther ours isStopped
    obtain ⟨older, foundOlder, oursOlder, isOwn, isOther⟩ := same n other foundOther ours
    by_cases isM : n = m
    · obtain ⟨rfl, rfl⟩ := isOwn isM
      subst isM
      rcases (mine oursOlder).2 with ⟨nothing, stage⟩ | ⟨chunk, wrote, before, stage⟩
      · simp only [written, nothing, List.append_nil]
        exact stopped n older foundOlder oursOlder (stage.symm.trans isStopped)
      · have all := mineAssembled oursOlder
        simp only [written, wrote] at all ⊢
        rw [isStopped] at stage
        exact all.complete (by simpa using stage.symm)
    · rw [goesOn n isM]
      exact stopped n older foundOlder oursOlder (isOther isM ▸ isStopped)

theorem ended_of_post {id : Nat} {reply : Reply Answer} (post : session.post id reply = some next) :
    next.ended = session.ended := by
  simp only [Session.post] at post
  repeat' split at post
  all_goals cases post
  all_goals rfl

theorem ended_of_handled (own : event.handledBy = some n)
    (stepped : session.step event = some next) : next.ended = session.ended := by
  cases event with
  | create m _ | receive m | write m _ | extract m _ | removeZip m | stopReading m | dropBody m
  | finish m =>
      obtain ⟨handler, found, stepped⟩ := Option.bind_eq_some_iff.1 stepped
      simp only [Session.create, Session.receive, Session.write, Session.extract, Session.removeZip,
        Session.stopReading, Session.dropBody, Session.finish] at stepped
      repeat' split at stepped
      all_goals cases stepped
      all_goals rfl
  | reply m =>
      obtain ⟨handler, found, stepped⟩ := Option.bind_eq_some_iff.1 stepped
      simp only [Session.reply] at stepped
      split at stepped
      · obtain ⟨posted, post, rfl⟩ := Option.map_eq_some_iff.1 stepped
        show posted.ended = session.ended
        exact ended_of_post post
      · cases stepped
  | respond m answer =>
      obtain ⟨handler, found, stepped⟩ := Option.bind_eq_some_iff.1 stepped
      simp only [Session.respond] at stepped
      split at stepped
      · exact ended_of_post stepped
      · cases stepped
  | arrive | cut | read | route | hand | remove | answer | transmit | closeOutbox => cases own

theorem writes_other (own : event.handledBy = some n) (different : m ≠ n) :
    session.writes m event = [] := by
  cases event with
  | write k failure =>
      cases own
      cases failure <;> simp [Session.writes, Ne.symm different]
  | create _ _ | receive _ | extract _ _ | removeZip _ | reply _ | stopReading _ | dropBody _
  | respond _ _ | finish _ => rfl
  | arrive | cut _ | read | route | hand | remove _ | answer _ _ | transmit | closeOutbox => cases own

theorem Assembling.handled (assembling : Assembling shipment requestId history session)
    (orderly : Orderly session) (unfailing : Unfailing requestId session event)
    (own : event.handledBy = some n) (stepped : session.step event = some next) :
    Assembling shipment requestId ((session, event) :: history) next := by
  obtain ⟨⟨before, after, found, advances, handlers⟩, coming, inbound, loop, _, _⟩ :=
    handled_of_step orderly own stepped
  refine assembling.settles after found handlers ?_ (fun _ => writes_other own) (fun _ conserves => ?_)
    (fun _ _ => by rw [loop]) fun ours => ?_
  · simp only [Handler.Uploads, advances.task, advances.requestId]
  · refine conserves.congr ?_ (ended_of_handled own stepped) coming
    simp only [Session.arrived, Session.inHand, inbound, loop]
  · obtain ⟨after', found', moved⟩ := upload_event orderly unfailing found ours own stepped
    rw [handlers, if_pos rfl] at found'
    cases found'
    rw [loop]
    rcases moved with ⟨chunk, hand, writes, empty, queue, receiving, stage⟩ | ⟨writes, same, stage⟩
    · refine ⟨?_, Or.inr ⟨chunk, writes, receiving, stage⟩⟩
      rw [writes, empty, queue, hand]
      simp
    · refine ⟨?_, Or.inl ⟨writes, stage⟩⟩
      rw [writes, same]
      rfl

/-- A message of the upload is routed. -/
theorem Conserves.routes (conserves : Conserves shipment requestId routed session)
    {req : UploadZipAndExtractRequest} (next : Session Command Answer)
    (routing : session.loop = .routing requestId (.uploadZipAndExtract req))
    (idle : next.inHand = []) (inbound : next.inbound = session.inbound)
    (ended : next.ended = session.ended) (coming : next.coming = session.coming) :
    ∃ chunk, req.chunk = some chunk ∧
      Conserves shipment requestId (routed ++ [some chunk]) next := by
  obtain ⟨later, whole, lasts⟩ := conserves
  have arrived : session.arrived requestId = req.chunk :: uploadsOf requestId session.inbound := by
    simp only [Session.arrived, Session.inHand, routing, List.cons_append, List.nil_append,
      uploadsOf_upload]
  rw [arrived] at whole
  have member : req.chunk ∈ shipment.chunks.map some := by
    rw [← whole]
    simp
  obtain ⟨chunk, _, isChunk⟩ := List.mem_map.1 member
  refine ⟨chunk, isChunk.symm, later, ?_, fun isOpen => ?_⟩
  · rw [arrived_idle idle, inbound, ← whole, ← isChunk]
    simp
  · rw [coming]
    exact lasts (ended.symm.trans isOpen)

/-- A message that is none of the upload's is routed. -/
theorem Conserves.passes (conserves : Conserves shipment requestId routed session)
    {id : Nat} {payload : Payload Command} (routing : session.loop = .routing id payload)
    (foreign : Foreign requestId (⟨id, some payload⟩ : Message Command)) (idle : next.inHand = [])
    (inbound : next.inbound = session.inbound) (ended : next.ended = session.ended)
    (coming : next.coming = session.coming) : Conserves shipment requestId routed next := by
  refine conserves.congr ?_ ended coming
  rw [arrived_idle idle, inbound]
  simp only [Session.arrived, Session.inHand, routing, List.cons_append, List.nil_append,
    uploadsOf_foreign foreign]

/-- A new handler for something else. -/
theorem Assembling.opens (assembling : Assembling shipment requestId history session)
    (orderly : Orderly session) {id : Nat} {task : Task} {phase : Phase} {loop : Loop Command}
    (foreign : task.family = .uploads → id ≠ requestId)
    (writes : ∀ n, session.writes n event = [])
    (conserves : ∀ routed, Conserves shipment requestId routed session →
      Conserves shipment requestId routed { session.openChannel id task phase with loop })
    (chunks : ∀ n, n < session.started → loop.chunkFor n = session.loop.chunkFor n) :
    Assembling shipment requestId ((session, event) :: history)
      { session.openChannel id task phase with loop } := by
  obtain ⟨single, fresh, awaited, assembled, receiving, stopped⟩ := assembling
  have goesOn (n : Nat) : written n ((session, event) :: history) = written n history := by
    simp [written, writes]
  have same : ∀ n handler, (session.openChannel id task phase).handlers n = some handler →
      handler.Uploads requestId → session.handlers n = some handler := by
    intro n handler found ours
    rw [openChannel_handlers] at found
    split at found
    · cases found
      exact absurd ours.2 (foreign ours.1)
    · exact found
  have kept : ∀ n handler, session.handlers n = some handler →
      (session.openChannel id task phase).handlers n = some handler := by
    intro n handler found
    rw [openChannel_handlers, if_neg (Nat.ne_of_lt (orderly.known n handler found)), found]
  refine ⟨?_, ?_, ?_, ?_, ?_, ?_⟩
  · intro n m handler other found found' ours ours'
    exact single n m handler other (same n handler found ours) (same m other found' ours') ours ours'
  · intro n none
    rw [goesOn]
    apply fresh
    cases before : session.handlers n with
    | none => rfl
    | some handler =>
        have none : (session.openChannel id task phase).handlers n = Option.none := none
        rw [kept n handler before] at none
        cases none
  · intro nobody
    exact conserves _ (awaited fun n handler found => nobody n handler (kept n handler found))
  · intro n handler found ours
    have found := same n handler found ours
    rw [goesOn]
    show Conserves shipment requestId (_ ++ (_ ++ loop.chunkFor n)) _
    rw [chunks n (orderly.known n handler found)]
    exact conserves _ (assembled n handler found ours)
  · intro n handler found ours
    rw [goesOn]
    exact receiving n handler (same n handler found ours) ours
  · intro n handler found ours
    rw [goesOn]
    exact stopped n handler (same n handler found ours) ours

/-- The upload's next chunk goes to the handler that has those before it, or to a new one if there
were none. -/
theorem Assembling.routes (assembling : Assembling shipment requestId history session)
    (orderly : Orderly session) {req : UploadZipAndExtractRequest}
    (routing : session.loop = .routing requestId (.uploadZipAndExtract req))
    (writes : ∀ n, session.writes n event = []) :
    Assembling shipment requestId ((session, event) :: history)
      (session.routeUploadChunk requestId req) := by
  obtain ⟨single, fresh, awaited, assembled, receiving, stopped⟩ := assembling
  have goesOn (n : Nat) : written n ((session, event) :: history) = written n history := by
    simp [written, writes]
  have before : ∀ n, session.loop.chunkFor n = [] := by simp [routing, Loop.chunkFor]
  have arrived : session.arrived requestId ≠ [] := by
    simp [Session.arrived, Session.inHand, routing, uploadsOf]
  have running : ∀ n handler, session.handlers n = some handler → handler.Uploads requestId →
      handler.isReceiving = true := by
    intro n handler found ours
    by_contra stops
    have all := stopped n handler found ours (by simpa using stops)
    exact arrived ((assembled n handler found ours).nothing all).2
  have registered : ∀ n handler, session.handlers n = some handler → handler.Uploads requestId →
      session.inFlight .uploads requestId = some n := by
    intro n handler found ours
    rw [← ours.2]
    refine orderly.uploads n handler found ours.1 fun isDone => ?_
    have isReceiving := running n handler found ours
    simp [Handler.isReceiving, isDone] at isReceiving
  simp only [Session.routeUploadChunk]
  split
  · rename_i m entry
    obtain ⟨mine, foundMine, ofFamily, ofRequest, _⟩ := orderly.entries _ _ _ entry
    have oursMine : mine.Uploads requestId := ⟨ofFamily, ofRequest⟩
    obtain ⟨chunk, isChunk, conserves⟩ := (assembled m mine foundMine oursMine).routes
      { session with loop := .handing m (req.chunk.getD ⟨[], false⟩) } routing rfl rfl rfl rfl
    simp only [isChunk, Option.getD_some] at conserves ⊢
    rw [before] at conserves
    refine ⟨single, ?_, fun nobody => absurd oursMine (nobody m mine foundMine), ?_, ?_, ?_⟩
    · intro n none
      rw [goesOn]
      exact fresh n none
    · intro n handler found ours
      have same := single n m handler mine found foundMine ours oursMine
      subst same
      rw [found] at foundMine
      cases foundMine
      rw [goesOn]
      simpa [Loop.chunkFor] using conserves
    · intro n handler found ours
      rw [goesOn]
      exact receiving n handler found ours
    · intro n handler found ours
      rw [goesOn]
      exact stopped n handler found ours
  · rename_i free
    have nobody : ∀ n handler, session.handlers n = some handler → ¬ handler.Uploads requestId := by
      intro n handler found ours
      rw [registered n handler found ours] at free
      cases free
    have unknown : session.handlers session.started = none := by
      cases found : session.handlers session.started with
      | none => rfl
      | some handler => exact absurd (orderly.known _ _ found) (Nat.lt_irrefl _)
    have own : ∀ n handler, (session.openChannel requestId
        (.upload req.deploymentId req.maxUncompressedBytes) .starting).handlers n = some handler →
          handler.Uploads requestId → n = session.started ∧ handler =
            ⟨.upload req.deploymentId req.maxUncompressedBytes, requestId, [], .reading, .starting⟩ := by
      intro n handler found ours
      rw [openChannel_handlers] at found
      split at found
      · rename_i same
        cases found
        exact ⟨same, rfl⟩
      · exact absurd ours (nobody n handler found)
    obtain ⟨chunk, isChunk, conserves⟩ := (awaited nobody).routes
      { session.openChannel requestId (.upload req.deploymentId req.maxUncompressedBytes)
        .starting with loop := .starting session.started req.chunk } routing rfl rfl rfl rfl
    refine ⟨?_, ?_, ?_, ?_, ?_, ?_⟩
    · intro n m handler other found found' ours ours'
      exact (own n handler found ours).1.trans (own m other found' ours').1.symm
    · intro n none
      rw [goesOn]
      have none : (session.openChannel requestId
        (.upload req.deploymentId req.maxUncompressedBytes) .starting).handlers n = Option.none := none
      rw [openChannel_handlers] at none
      split at none
      · cases none
      · exact fresh n none
    · intro absent
      refine absurd ⟨rfl, rfl⟩ (absent session.started
        ⟨.upload req.deploymentId req.maxUncompressedBytes, requestId, [], .reading, .starting⟩ ?_)
      simp only [openChannel_handlers, if_true]
    · intro n handler found ours
      obtain ⟨rfl, rfl⟩ := own n handler found ours
      rw [goesOn, fresh _ unknown]
      simpa [Handler.hand, Loop.chunkFor, isChunk] using conserves
    · intro n handler found ours _
      obtain ⟨rfl, rfl⟩ := own n handler found ours
      rw [goesOn, fresh _ unknown]
      simp
    · intro n handler found ours isStopped
      obtain ⟨rfl, rfl⟩ := own n handler found ours
      cases isStopped

theorem Assembling.route (assembling : Assembling shipment requestId history session)
    (orderly : Orderly session) (stepped : session.route = some next)
    (writes : ∀ n, session.writes n event = []) :
    Assembling shipment requestId ((session, event) :: history) next := by
  simp only [Session.route] at stepped
  split at stepped
  · rename_i id req routing
    cases stepped
    by_cases same : id = requestId
    · subst same
      exact assembling.routes orderly routing writes
    · have foreign : Foreign requestId (⟨id, some (.uploadZipAndExtract req)⟩ : Message Command) :=
        fun _ _ => same
      have before : ∀ n, session.loop.chunkFor n = [] := by simp [routing, Loop.chunkFor]
      simp only [Session.routeUploadChunk]
      split
      · rename_i m entry
        obtain ⟨other, found', _, ofRequest, _⟩ := orderly.entries _ _ _ entry
        split
        · refine assembling.congr rfl writes
            (fun _ conserves => conserves.passes routing foreign rfl rfl rfl rfl) ?_
          intro n handler found ours
          have different : m ≠ n := by
            rintro rfl
            rw [found] at found'
            cases found'
            exact same (ofRequest.symm.trans ours.2)
          rw [before]
          simp [Loop.chunkFor, different]
        · exact assembling.congr rfl writes
            (fun _ conserves => conserves.passes routing foreign rfl rfl rfl rfl)
            fun n _ _ _ => (before n).symm
      · refine assembling.opens orderly (fun _ => same) writes
          (fun _ conserves => conserves.passes routing foreign rfl rfl rfl rfl) ?_
        intro n older
        rw [before]
        cases req.chunk <;> simp [Loop.chunkFor, Nat.ne_of_gt older]
  · rename_i id part routing
    cases stepped
    have foreign : Foreign requestId (⟨id, some (.relayHttpRequest part)⟩ : Message Command) := by
      rintro _ ⟨⟩
    have before : ∀ n, session.loop.chunkFor n = [] := by simp [routing, Loop.chunkFor]
    simp only [Session.routeRelayMessage]
    split
    · exact assembling.opens orderly (by rintro ⟨⟩) writes
        (fun _ conserves => conserves.passes routing foreign rfl rfl rfl rfl)
        fun n _ => (before n).symm
    · split
      · rename_i m entry
        obtain ⟨other, found', ofFamily, _⟩ := orderly.entries _ _ _ entry
        refine assembling.congr rfl writes
          (fun _ conserves => conserves.passes routing foreign rfl rfl rfl rfl) ?_
        intro n handler found ours
        have different : m ≠ n := by
          rintro rfl
          rw [found] at found'
          cases found'
          rw [ours.1] at ofFamily
          cases ofFamily
        rw [before]
        simp [Loop.chunkFor, different]
      · exact assembling.congr rfl writes
          (fun _ conserves => conserves.passes routing foreign rfl rfl rfl rfl)
          fun n _ _ _ => (before n).symm
    · exact assembling.congr rfl writes
        (fun _ conserves => conserves.passes routing foreign rfl rfl rfl rfl)
        fun n _ _ _ => (before n).symm
  · rename_i id command routing
    cases stepped
    have foreign : Foreign requestId (⟨id, some (.other command)⟩ : Message Command) := by rintro _ ⟨⟩
    refine assembling.congr rfl writes
      (fun _ conserves => conserves.passes routing foreign rfl rfl rfl rfl) fun n _ _ _ => ?_
    simp [routing, Loop.chunkFor]
  · cases stepped

theorem not_receiving (finished : handler.phase.finished = true) : handler.isReceiving = false := by
  revert finished
  simp only [Handler.isReceiving]
  cases handler.phase <;> simp [Phase.finished]

theorem Assembling.hand (assembling : Assembling shipment requestId history session)
    (orderly : Orderly session) (stepped : session.hand = some next)
    (writes : ∀ n, session.writes n event = []) :
    Assembling shipment requestId ((session, event) :: history) next := by
  simp only [Session.hand] at stepped
  split at stepped
  · rename_i m chunk handing
    obtain ⟨handler, found, stepped⟩ := Option.bind_eq_some_iff.1 stepped
    have held : session.loop.chunkFor m = [some chunk] := by simp [handing, Loop.chunkFor]
    have idle : session.inHand = [] := by simp [Session.inHand, handing]
    have others : ∀ n, n ≠ m → session.loop.chunkFor n = [] := by
      intro n different
      simp [handing, Loop.chunkFor, Ne.symm different]
    split at stepped
    · rename_i deaf
      cases stepped
      refine assembling.settles handler found (fun n => ?_) Iff.rfl (fun n _ => writes n)
        (fun _ conserves => conserves.congr ?_ rfl rfl)
        (fun n different => (others n different).symm) fun ours => ?_
      · split
        · rename_i same
          rw [same, found]
        · rfl
      · rw [arrived_idle rfl, arrived_idle idle]
      · -- a handler that has stopped reading has all of the upload's chunks
        have finished := orderly.hearing m handler found ours.1
        simp only [Bool.not_eq_eq_eq_not, Bool.not_true] at deaf
        rw [deaf] at finished
        have stops := not_receiving (by simpa using finished.symm)
        have all := assembling.stopped m handler found ours stops
        have nothing := ((assembling.assembled m handler found ours).nothing all).1
        simp [held] at nothing
    · split at stepped
      · cases stepped
        refine assembling.settles _ found (fun _ => Session.setHandler_handlers) Iff.rfl
          (fun n _ => writes n) (fun _ conserves => conserves.congr ?_ rfl rfl)
          (fun n different => (others n different).symm) fun ours => ⟨?_, Or.inl ⟨writes m, rfl⟩⟩
        · rw [arrived_idle rfl, arrived_idle idle]
          rfl
        · rw [writes, held]
          simp [Handler.hand, Loop.chunkFor]
      · cases stepped
  · rename_i m chunk opening
    obtain ⟨handler, found, stepped⟩ := Option.bind_eq_some_iff.1 stepped
    have held : session.loop.chunkFor m = [some chunk] := by simp [opening, Loop.chunkFor]
    have idle : session.inHand = [] := by simp [Session.inHand, opening]
    split at stepped <;> cases stepped
    refine assembling.settles _ found (fun _ => Session.setHandler_handlers) Iff.rfl
      (fun n _ => writes n) (fun _ conserves => conserves.congr ?_ rfl rfl)
      (fun n different => ?_) fun ours => ⟨?_, Or.inl ⟨writes m, rfl⟩⟩
    · rw [arrived_idle rfl, arrived_idle idle]
      rfl
    · simp [opening, Loop.chunkFor, Ne.symm different]
    · rw [writes, held]
      simp [Handler.hand, Loop.chunkFor]
  · rename_i m opening
    obtain ⟨handler, found, stepped⟩ := Option.bind_eq_some_iff.1 stepped
    cases stepped
    have idle : session.inHand = [] := by simp [Session.inHand, opening]
    obtain ⟨_, found', isStarting, _⟩ := orderly.opened m none opening
    rw [found] at found'
    cases found'
    refine assembling.settles _ found (fun _ => Session.setHandler_handlers) Iff.rfl
      (fun n _ => writes n) (fun _ conserves => conserves.congr ?_ rfl rfl)
      (fun n different => ?_) fun ours => ⟨?_, Or.inl ⟨writes m, ?_⟩⟩
    · rw [arrived_idle rfl, arrived_idle idle]
      rfl
    · simp [opening, Loop.chunkFor]
    · rw [writes]
      simp [opening, Loop.chunkFor, Handler.hand, isStarting]
    · simp [Handler.isReceiving, isStarting]
  · cases stepped

theorem Assembling.moves (assembling : Assembling shipment requestId history session)
    (orderly : Orderly session) (stepped : session.step event = some next)
    (unfailing : Unfailing requestId session event) :
    Assembling shipment requestId ((session, event) :: history) next := by
  cases event with
  | create m _ | receive m | write m _ | extract m _ | removeZip m | reply m | stopReading m
  | dropBody m | respond m _ | finish m => exact assembling.handled orderly unfailing rfl stepped
  | route => exact assembling.route orderly stepped fun _ => rfl
  | hand => exact assembling.hand orderly stepped fun _ => rfl
  | arrive =>
      simp only [Session.step] at stepped
      split at stepped
      · cases stepped
      · rename_i message rest coming
        split at stepped <;> cases stepped
        rename_i isOpen
        refine assembling.congr rfl (fun _ => rfl) (fun routed conserves => ?_) fun _ _ _ _ => rfl
        obtain ⟨later, whole, lasts⟩ := conserves
        refine ⟨uploadsOf requestId rest, ?_, fun _ => rfl⟩
        have cons : message :: rest = [message] ++ rest := rfl
        rw [lasts (by simpa using isOpen), coming, cons, uploadsOf_append] at whole
        have arrived : ({ session with coming := rest, inbound := session.inbound ++ [message] } :
            Session Command Answer).arrived requestId =
              session.arrived requestId ++ uploadsOf requestId [message] := by
          simp [Session.arrived, Session.inHand]
        rw [arrived, ← whole]
        simp only [List.append_assoc]
  | cut kept =>
      cases stepped
      refine assembling.congr rfl (fun _ => rfl) (fun routed conserves => ?_) fun _ _ _ _ => rfl
      obtain ⟨later, whole, _⟩ := conserves
      refine ⟨uploadsOf requestId (session.inbound.drop kept) ++ later, ?_, fun ended => (by cases ended)⟩
      have split : session.arrived requestId =
          ({ session with ended := true, inbound := session.inbound.take kept } :
            Session Command Answer).arrived requestId ++
              uploadsOf requestId (session.inbound.drop kept) := by
        have parts : uploadsOf requestId (session.inbound.take kept ++ session.inbound.drop kept) =
            uploadsOf requestId session.inbound := by rw [List.take_append_drop]
        rw [uploadsOf_append] at parts
        simp only [Session.arrived, Session.inHand, uploadsOf_append, List.append_assoc, parts]
      rw [split] at whole
      rw [← whole]
      simp only [List.append_assoc]
  | read =>
      simp only [Session.step, Session.read] at stepped
      split at stepped
      · rename_i reading empty
        split at stepped <;> cases stepped
        refine assembling.congr rfl (fun _ => rfl) (fun _ conserves => conserves.congr ?_ rfl rfl)
          fun _ _ _ _ => by simp [reading, Loop.chunkFor]
        simp [Session.arrived, Session.inHand, reading]
      · rename_i id rest reading inbound
        cases stepped
        refine assembling.congr rfl (fun _ => rfl) (fun _ conserves => conserves.congr ?_ rfl rfl)
          fun _ _ _ _ => rfl
        have foreign : Foreign requestId (⟨id, none⟩ : Message Command) := by rintro _ ⟨⟩
        simp only [Session.arrived, Session.inHand, reading, inbound, List.nil_append,
          uploadsOf_foreign foreign]
      · rename_i id payload rest reading inbound
        cases stepped
        refine assembling.congr rfl (fun _ => rfl) (fun _ conserves => conserves.congr ?_ rfl rfl)
          fun _ _ _ _ => by simp [reading, Loop.chunkFor]
        simp [Session.arrived, Session.inHand, reading, inbound, uploadsOf]
      · cases stepped
  | transmit =>
      simp only [Session.step] at stepped
      split at stepped <;> cases stepped
      exact assembling.congr rfl (fun _ => rfl) (fun _ conserves => conserves.congr rfl rfl rfl)
        fun _ _ _ _ => rfl
  | closeOutbox =>
      cases stepped
      exact assembling.congr rfl (fun _ => rfl) (fun _ conserves => conserves.congr rfl rfl rfl)
        fun _ _ _ _ => rfl
  | answer id answer =>
      have posted := posted_of_post stepped
      refine assembling.congr posted.handlers (fun _ => rfl)
        (fun _ conserves => conserves.congr ?_ (ended_of_post stepped) posted.coming)
        fun _ _ _ _ => by rw [posted.loop]
      simp only [Session.arrived, Session.inHand, posted.loop, posted.inbound]
  | remove m =>
      obtain ⟨handler, found, stepped⟩ := Option.bind_eq_some_iff.1 stepped
      simp only [Session.remove] at stepped
      split at stepped <;> cases stepped
      rename_i removing
      refine assembling.settles { handler with phase := .done } found
        (fun _ => Session.setHandler_handlers) Iff.rfl (fun _ _ => rfl)
        (fun _ conserves => conserves.congr rfl rfl rfl) (fun _ _ => rfl)
        fun _ => ⟨?_, Or.inl ⟨rfl, ?_⟩⟩
      · simp [Session.writes, Handler.hand, removing]
      · simp [Handler.isReceiving, removing]

variable {shipments : Nat → Option Shipment}

/-- The invariants of a file's upload. -/
structure Sane (shipment : Shipment) (requestId : Nat)
    (history : List (Session Command Answer × Event Answer)) (session : Session Command Answer) :
    Prop where
  orderly : Orderly session
  assembling : Assembling shipment requestId history session

theorem sane_of_run
    (run : (shipping Command Answer shipments).Run (Unfailing requestId) history session)
    (ships : shipments requestId = some shipment) : Sane shipment requestId history session := by
  refine run.invariant (Sane shipment requestId) ?_ ?_
  · rintro session ⟨coming, rfl, requests⟩
    refine ⟨orderly_new coming, assembling_new ?_⟩
    simpa [ships] using requests requestId
  · intro history session event next sane stepped unfailing
    exact ⟨sane.orderly.moves stepped, sane.assembling.moves sane.orderly stepped unfailing⟩

theorem Sane.kept (sane : Sane shipment requestId history session) (isOpen : session.ended = false)
    (found : session.handlers n = some handler) (ours : handler.Uploads requestId) :
    (written n history ++ handler.hand ++ handler.queue).map some ++ session.loop.chunkFor n ++
      session.pending requestId = shipment.chunks.map some := by
  obtain ⟨later, whole, lasts⟩ := sane.assembling.assembled n handler found ours
  rw [lasts isOpen] at whole
  rw [← whole]
  simp [Session.pending, Session.arrived]

/-- A handler that everything has been routed to has the final chunk before it, and goes on. -/
theorem Sane.progress (sane : Sane shipment requestId history session)
    (isOpen : session.ended = false) (routed : session.pending requestId = [])
    (released : session.loop.holds n = false) (found : session.handlers n = some handler)
    (ours : handler.Uploads requestId) (isReceiving : handler.isReceiving = true) :
    ∃ event next after, event.handledBy = some n ∧ Unfailing requestId session event ∧
      session.step event = some next ∧ next.handlers n = some after ∧ after.Uploads requestId ∧
        after.rank < handler.rank := by
  obtain ⟨deploymentId, size, isUpload⟩ : ∃ deploymentId size,
      handler.task = .upload deploymentId size := by
    cases task : handler.task with
    | upload deploymentId size => exact ⟨deploymentId, size, rfl⟩
    | relay head => simpa [task, Task.family] using ours.1
  cases phase : handler.phase with
  | extracting | cleaning _ | replying _ | relaying | removing | done =>
      simp [Handler.isReceiving, phase] at isReceiving
  | starting =>
      obtain ⟨chunk, opening⟩ := sane.orderly.starting n handler found phase
      simp [opening, Loop.holds] at released
  | creating =>
      have stepped : session.step (.create n none) =
          some { session.setHandler n { handler with phase := .receiving } with
            zips := Function.update session.zips deploymentId true } := by
        simp [Session.step, found, Session.create, phase, isUpload]
      refine ⟨.create n none, _, { handler with phase := .receiving }, rfl, by rintro ⟨⟩, stepped,
        setHandler_self, ours, ?_⟩
      simp [Handler.rank, phase]
  | receiving =>
      cases queue : handler.queue with
      | nil =>
          have kept := sane.kept isOpen found ours
          rw [routed, Loop.chunkFor_eq_nil released] at kept
          simp only [Handler.hand, phase, queue, List.append_nil] at kept
          have all := (List.map_inj_right fun _ _ => Option.some.inj).1 kept
          have notFinal := sane.assembling.receiving n handler found ours isReceiving ⟨[], true⟩
            (by simp [all, Shipment.chunks])
          cases notFinal
      | cons chunk rest =>
          have stepped : session.step (.receive n) =
              some (session.setHandler n { handler with queue := rest, phase := .writing chunk }) := by
            simp [Session.step, found, Session.receive, phase, isUpload, queue]
          refine ⟨.receive n, _, { handler with queue := rest, phase := .writing chunk }, rfl, trivial,
            stepped, setHandler_self, ours, ?_⟩
          simp only [Handler.rank, phase, queue, List.length_cons]
          omega
  | writing chunk =>
      cases isFinal : chunk.isFinal with
      | true =>
          have stepped : session.step (.write n none) = some (session.setHandler n
              { handler with receiver := .unread, phase := .extracting }) := by
            simp [Session.step, found, Session.write, phase, isFinal]
          refine ⟨.write n none, _, { handler with receiver := .unread, phase := .extracting }, rfl,
            (by rintro ⟨⟩), stepped, setHandler_self, ours, ?_⟩
          simp only [Handler.rank, phase]
          omega
      | false =>
          have stepped : session.step (.write n none) =
              some (session.setHandler n { handler with phase := .receiving }) := by
            simp [Session.step, found, Session.write, phase, isFinal]
          refine ⟨.write n none, _, { handler with phase := .receiving }, rfl, by rintro ⟨⟩, stepped,
            setHandler_self, ours, ?_⟩
          simp [Handler.rank, phase]

/-- The handler comes to the end of the file by itself. -/
theorem stops_of_routed
    (run : (shipping Command Answer shipments).Run (Unfailing requestId) history session)
    (ships : shipments requestId = some shipment) (isOpen : session.ended = false)
    (routed : session.pending requestId = []) (released : session.loop.holds n = false)
    (found : session.handlers n = some handler) (ours : handler.Uploads requestId) :
    ∃ more last handler', (shipping Command Answer shipments).Run (Unfailing requestId)
        (more ++ history) last ∧ (∀ entry ∈ more, entry.2.handledBy = some n) ∧
      last.handlers n = some handler' ∧ handler'.Uploads requestId ∧ handler'.isReceiving = false := by
  induction measured : handler.rank using Nat.strongRecOn generalizing history session handler
  rename_i measure ih
  cases isReceiving : handler.isReceiving with
  | false => exact ⟨[], session, handler, run, by simp, found, ours, isReceiving⟩
  | true =>
      have sane := sane_of_run run ships
      obtain ⟨event, next, after, own, unfailing, stepped, found', ours', less⟩ :=
        sane.progress isOpen routed released found ours isReceiving
      have handled := handled_of_step sane.orderly own stepped
      have routed' : next.pending requestId = [] := by
        rw [← routed]
        simp only [Session.pending, Session.inHand, handled.coming, handled.inbound, handled.loop]
      obtain ⟨more, last, handler', longer, owns, arrived⟩ := ih _ (measured ▸ less)
        (run.step stepped unfailing) ((ended_of_handled own stepped).trans isOpen) routed'
        (handled.loop ▸ released) found' ours' rfl
      refine ⟨more ++ [(session, event)], last, handler', by simpa using longer, ?_, arrived⟩
      intro entry member
      rcases List.mem_append.1 member with earlier | first
      · exact owns entry earlier
      · rw [List.mem_singleton.1 first]
        exact own

/-- A file that is shipped: the stream of its chunks has one final chunk, at its end; and they are
written, each once and in order, by one handler, which stops at the final one. -/
structure Reassembled (shipments : Nat → Option Shipment) (shipment : Shipment) (requestId : Nat)
    (history : List (Session Command Answer × Event Answer)) (session : Session Command Answer) :
    Prop where
  stream : shipment.payloads.map (·.chunk) =
    (shipment.pieces.map fun piece => some ⟨piece, false⟩) ++ [some ⟨[], true⟩]
  oneHandler : ∀ n m handler other, session.handlers n = some handler →
    session.handlers m = some other → handler.Uploads requestId → other.Uploads requestId → n = m
  inOrder : ∀ n handler, session.handlers n = some handler → handler.Uploads requestId →
    written n history <+: shipment.chunks
  receiving : ∀ n handler, session.handlers n = some handler → handler.Uploads requestId →
    handler.isReceiving = true → ∀ chunk ∈ written n history, chunk.isFinal = false
  stopped : ∀ n handler, session.handlers n = some handler → handler.Uploads requestId →
    handler.isReceiving = false → written n history = shipment.chunks ∧
      ((written n history).map Chunk.data).flatten = shipment.file
  started : session.ended = false → session.pending requestId = [] →
    ∃ n handler, session.handlers n = some handler ∧ handler.Uploads requestId
  kept : session.ended = false → ∀ n handler, session.handlers n = some handler →
    handler.Uploads requestId →
      (written n history ++ handler.hand ++ handler.queue).map some ++ session.loop.chunkFor n ++
        session.pending requestId = shipment.chunks.map some
  stops : session.ended = false → session.pending requestId = [] → ∀ n handler,
    session.handlers n = some handler → handler.Uploads requestId → session.loop.holds n = false →
      ∃ more last handler', (shipping Command Answer shipments).Run (Unfailing requestId)
          (more ++ history) last ∧ (∀ entry ∈ more, entry.2.handledBy = some n) ∧
        last.handlers n = some handler' ∧ handler'.Uploads requestId ∧ handler'.isReceiving = false

theorem uploads_reassemble
    (run : (shipping Command Answer shipments).Run (Unfailing requestId) history session)
    (ships : shipments requestId = some shipment) :
    Reassembled shipments shipment requestId history session := by
  have sane := sane_of_run run ships
  constructor
  · rw [shipment.payloads_chunk, Shipment.chunks]
    simp
  · exact sane.assembling.single
  · intro n handler found ours
    obtain ⟨later, whole, _⟩ := sane.assembling.assembled n handler found ours
    have first : (written n history).map some <+: shipment.chunks.map some := by
      rw [← whole, List.append_assoc, List.append_assoc]
      exact List.prefix_append _ _
    exact (List.prefix_map_iff_of_injective fun _ _ => Option.some.inj).1 first
  · exact sane.assembling.receiving
  · intro n handler found ours stops
    have all := sane.assembling.stopped n handler found ours stops
    exact ⟨all, by rw [all, shipment.chunks_data]⟩
  · intro isOpen routed
    by_contra nobody
    obtain ⟨later, whole, lasts⟩ := sane.assembling.awaited
      fun n handler found ours => nobody ⟨n, handler, found, ours⟩
    have nothing : session.arrived requestId ++ later = [] := by
      rw [lasts isOpen]
      simpa [Session.pending, Session.arrived] using routed
    rw [List.append_assoc, nothing] at whole
    simp [Shipment.chunks] at whole
  · exact fun isOpen n handler found ours => sane.kept isOpen found ours
  · intro isOpen routed n handler found ours released
    exact stops_of_routed run ships isOpen routed released found ours

/-- Two files, read in different pieces. -/
def page : Shipment := ⟨"d", 10, [1, 2], [[1], [2]], by decide, by decide, rfl⟩

def icon : Shipment := ⟨"e", 10, [3, 4], [[3, 4]], by decide, by decide, rfl⟩

def pageAndIcon (requestId : Nat) : Option Shipment :=
  if requestId = 7 then some page else if requestId = 9 then some icon else none

/-- The chunks of one file between those of the other. -/
def crossing : List (Message Unit) :=
  [⟨7, some (.uploadZipAndExtract (wrapChunk "d" 10 [1] false))⟩,
    ⟨9, some (.uploadZipAndExtract (wrapChunk "e" 10 [3, 4] false))⟩,
    ⟨7, some (.uploadZipAndExtract (wrapChunk "d" 10 [2] false))⟩,
    ⟨9, some (.uploadZipAndExtract (wrapChunk "e" 10 [] true))⟩,
    ⟨7, some (.uploadZipAndExtract (wrapChunk "d" 10 [] true))⟩]

theorem crossing_ships (requestId : Nat) : requestsOf requestId crossing =
    ((pageAndIcon requestId).map Shipment.payloads).getD [] := by
  by_cases isPage : requestId = 7
  · subst isPage
    decide
  · by_cases isIcon : requestId = 9
    · subst isIcon
      decide
    · simp [requestsOf, crossing, pageAndIcon, isPage, isIcon, Ne.symm isPage, Ne.symm isIcon]

/-- Both are received, one after the other and in between. -/
def shipsBoth : List (Event Unit) :=
  [.arrive, .read, .route, .hand, .hand, .arrive, .create 0 none, .read, .route, .hand, .hand,
    .create 1 none, .receive 1, .arrive, .read, .route, .hand, .receive 0, .write 1 none, .write 0 none,
    .arrive, .read, .route, .hand, .receive 1, .arrive, .read, .route, .hand, .receive 0,
    .write 1 none, .write 0 none, .receive 0, .write 0 none]

theorem uploads_reassemble_crossing : ∃ history session,
    (shipping Unit Unit pageAndIcon).Run (Unfailing 7) history session ∧
      (session.handlers 0).any (fun handler => handler.Uploads 7 ∧ handler.isReceiving = false) = true ∧
        Reassembled pageAndIcon page 7 history session := by
  obtain ⟨history, session, run, _, held⟩ := Machine.exists_run_of_play
    (shipping Unit Unit pageAndIcon) (Unfailing 7) (fun session event => Unfailing 7 session event)
    (fun session => (session.handlers 0).any fun handler =>
      handler.Uploads 7 ∧ handler.isReceiving = false)
    (fun _ _ => of_decide_eq_true) ⟨crossing, rfl, crossing_ships⟩ shipsBoth (by decide +kernel)
  exact ⟨history, session, run, held, uploads_reassemble run rfl⟩

end Berth.Dispatch
