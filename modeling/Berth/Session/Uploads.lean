import Berth.Session.Handlers

/-!
One chunked upload on the agent: how many handlers it starts, and how many results it sends. A
chunk whose request has no entry in the map starts a new handler, so everything hangs on when a
handler removes its entry.
-/

namespace Berth.Dispatch

open Interleave

variable {Command Answer : Type} {session next : Session Command Answer}
variable {event : Event Answer} {n m requestId : Nat} {handler after : Handler}
variable {more : List (Option Chunk)} {messages : List (Message Command)}

/-- The chunks of an upload's messages, in order. -/
def uploadsOf (requestId : Nat) (messages : List (Message Command)) : List (Option Chunk) :=
  messages.filterMap fun message =>
    if message.requestId = requestId then
      match message.payload with
      | some (.uploadZipAndExtract req) => some req.chunk
      | _ => none
    else none

/-- What the hub sends for an upload: some chunks, the last of which is the final one. -/
def Transfer (requestId : Nat) (messages : List (Message Command)) : Prop :=
  ∃ (chunks : List Chunk) (last : Chunk),
    uploadsOf requestId messages = (chunks ++ [last]).map some ∧ last.isFinal = true ∧
      ∀ chunk ∈ chunks, chunk.isFinal = false

/-- The sessions in which the hub sends one upload under the id. -/
abbrev uploading (Command Answer : Type) (requestId : Nat) :
    Machine (Session Command Answer) (Event Answer) where
  initial := fun session => ∃ coming, Transfer requestId coming ∧ session = Session.new coming
  step := Session.step

/-- The chunks of the upload that are still to be routed. -/
def Session.pending (session : Session Command Answer) (requestId : Nat) : List (Option Chunk) :=
  uploadsOf requestId (session.inHand ++ session.inbound ++ session.coming)

def Loop.chunkFor (n : Nat) : Loop Command → List (Option Chunk)
  | handing m chunk => if m = n then [some chunk] else []
  | starting m (some chunk) => if m = n then [some chunk] else []
  | starting _ none | reading | routing _ _ | returned => []

/-- The handler takes an upload with the id. -/
def Handler.Uploads (requestId : Nat) (handler : Handler) : Prop :=
  handler.task.family = .uploads ∧ handler.requestId = requestId

instance (requestId : Nat) (handler : Handler) : Decidable (handler.Uploads requestId) :=
  inferInstanceAs (Decidable (_ ∧ _))

/-- No handler of the upload leaves the map while chunks of it are still to be routed, and the
inbound stream does not end before they are. -/
def Patient (requestId : Nat) (session : Session Command Answer) : Event Answer → Prop
  | .remove n => (session.handlers n).all (fun handler => handler.Uploads requestId) = true →
      session.pending requestId = []
  | .cut kept => uploadsOf requestId (session.inbound.drop kept ++ session.coming) = []
  | _ => True

instance (requestId : Nat) (session : Session Command Answer) (event : Event Answer) :
    Decidable (Patient requestId session event) :=
  match event with
  | .remove _ => inferInstanceAs (Decidable (_ → _))
  | .cut _ => inferInstanceAs (Decidable (_ = _))
  | .arrive | .read | .route | .hand | .create _ _ | .receive _ | .write _ _ | .extract _ _
  | .removeZip _ | .reply _ | .stopReading _ | .dropBody _ | .respond _ _ | .finish _ | .answer _ _
  | .transmit | .closeOutbox => isTrue trivial

/-- The chunks end with a final one. -/
def EndsFinal (chunks : List (Option Chunk)) : Prop :=
  ∃ last, chunks.getLast? = some (some last) ∧ last.isFinal = true

theorem endsFinal_of_cons {chunk : Option Chunk} (ends : EndsFinal (chunk :: more))
    (notFinal : ∀ last, chunk = some last → last.isFinal = false) : EndsFinal more := by
  obtain ⟨last, isLast, isFinal⟩ := ends
  rw [List.getLast?_cons, Option.some.injEq] at isLast
  cases rest : more.getLast? with
  | none =>
      simp only [rest, Option.getD_none] at isLast
      rw [notFinal last isLast] at isFinal
      cases isFinal
  | some other =>
      simp only [rest, Option.getD_some] at isLast
      exact ⟨last, rest.trans (congrArg some isLast), isFinal⟩

/-- A message without a chunk is of no account. -/
theorem endsFinal_skip {older : List (Option Chunk)} (ends : EndsFinal (older ++ none :: more)) :
    EndsFinal (older ++ more) := by
  obtain ⟨last, isLast, isFinal⟩ := ends
  rw [List.getLast?_append, List.getLast?_cons] at isLast
  cases rest : more.getLast? with
  | none => simp [rest] at isLast
  | some other => exact ⟨last, by simpa [List.getLast?_append, rest] using isLast, isFinal⟩

theorem not_endsFinal_nil : ¬ EndsFinal [] := by
  rintro ⟨last, isLast, _⟩
  simp at isLast

/-- A handler that has not failed comes to the final chunk with what is still on its way. -/
def Handler.Fed (handler : Handler) (more : List (Option Chunk)) : Prop :=
  match handler.phase with
  | .starting | .creating | .receiving => EndsFinal (handler.queue.map some ++ more)
  | .writing chunk => EndsFinal (some chunk :: (handler.queue.map some ++ more))
  | .extracting | .cleaning _ | .replying _ | .removing | .done => True
  | .relaying => False

theorem Handler.Fed.skip (fed : handler.Fed (none :: more)) : handler.Fed more := by
  simp only [Handler.Fed] at fed ⊢
  split at fed
  · exact endsFinal_skip fed
  · exact endsFinal_skip fed
  · exact endsFinal_skip fed
  · rename_i chunk _
    rw [← List.cons_append] at fed ⊢
    exact endsFinal_skip fed
  all_goals exact fed

theorem Handler.Fed.push {chunk : Chunk} (fed : handler.Fed (some chunk :: more)) :
    Handler.Fed { handler with queue := handler.queue ++ [chunk] } more := by
  cases phase : handler.phase <;> simp_all [Handler.Fed]

theorem Handler.fed_of_over (finished : handler.phase.finished = true) : handler.Fed more := by
  cases phase : handler.phase <;> simp_all [Handler.Fed, Phase.finished]

/-- Everything an upload's handler does of its own, short of leaving the map. -/
inductive UploadStep (before : Handler) : Handler → Prop
  | create (creating : before.phase = .creating) :
      UploadStep before { before with phase := .receiving }
  | receive {chunk : Chunk} {rest : List Chunk} (receiving : before.phase = .receiving)
      (queue : before.queue = chunk :: rest) :
      UploadStep before { before with queue := rest, phase := .writing chunk }
  | write {chunk : Chunk} (writing : before.phase = .writing chunk)
      (notFinal : chunk.isFinal = false) : UploadStep before { before with phase := .receiving }
  | complete {chunk : Chunk} (writing : before.phase = .writing chunk)
      (isFinal : chunk.isFinal = true) :
      UploadStep before { before with receiver := .unread, phase := .extracting }
  | fail {msg : String} (unfinished : before.phase = .creating ∨ before.phase = .receiving ∨
        ∃ chunk, before.phase = .writing chunk) :
      UploadStep before { before with receiver := .unread, phase := .cleaning (.error msg) }
  | extract {result : Except String Nat} (extracting : before.phase = .extracting) :
      UploadStep before { before with phase := .cleaning result }
  | clean {result : Except String Nat} (cleaning : before.phase = .cleaning result) :
      UploadStep before { before with phase := .replying result }
  | reply {result : Except String Nat} (replying : before.phase = .replying result) :
      UploadStep before { before with receiver := .dropped, phase := .removing }

theorem setHandler_self : (session.setHandler n handler).handlers n = some handler := by
  simp only [Session.setHandler_handlers, if_true]

theorem upload_step (isUpload : handler.task.family = .uploads)
    (found : session.handlers n = some handler) (own : event.handledBy = some n)
    (stepped : session.step event = some next) :
    ∃ after, next.handlers n = some after ∧ UploadStep handler after := by
  have notRelay : ∀ head, handler.task ≠ .relay head := by
    intro head isRelay
    simp [isRelay, Task.family] at isUpload
  cases event with
  | create m failure =>
      cases own
      simp only [Session.step, found, Option.bind_some, Session.create] at stepped
      split at stepped <;> cases stepped
      · exact ⟨_, setHandler_self, .create ‹_›⟩
      · exact ⟨_, setHandler_self, .fail (.inl ‹_›)⟩
  | receive m =>
      cases own
      simp only [Session.step, found, Option.bind_some, Session.receive] at stepped
      split at stepped
      · split at stepped <;> cases stepped
        exact ⟨_, setHandler_self, .receive ‹_› ‹_›⟩
      · repeat' split at stepped
        all_goals cases stepped
        exact ⟨_, setHandler_self, .fail (.inr (.inl ‹_›))⟩
      · exact absurd ‹_› (notRelay _)
      · exact absurd ‹_› (notRelay _)
  | write m failure =>
      cases own
      simp only [Session.step, found, Option.bind_some, Session.write] at stepped
      split at stepped
      · rename_i chunk writing
        split at stepped <;> cases stepped
        · exact ⟨_, setHandler_self, .complete writing ‹_›⟩
        · rename_i notFinal
          exact ⟨_, setHandler_self, .write writing (by simpa using notFinal)⟩
      · cases stepped
        exact ⟨_, setHandler_self, .fail (.inr (.inr ⟨_, ‹_›⟩))⟩
      · cases stepped
  | extract m result =>
      cases own
      simp only [Session.step, found, Option.bind_some, Session.extract] at stepped
      split at stepped <;> cases stepped
      exact ⟨_, setHandler_self, .extract ‹_›⟩
  | removeZip m =>
      cases own
      simp only [Session.step, found, Option.bind_some, Session.removeZip] at stepped
      split at stepped <;> cases stepped
      exact ⟨_, setHandler_self, .clean ‹_›⟩
  | reply m =>
      cases own
      simp only [Session.step, found, Option.bind_some, Session.reply] at stepped
      split at stepped
      · obtain ⟨posted, post, stepped⟩ := Option.map_eq_some_iff.1 stepped
        subst stepped
        exact ⟨_, setHandler_self, .reply ‹_›⟩
      · cases stepped
  | stopReading m | dropBody m | finish m | respond m answer =>
      cases own
      simp only [Session.step, found, Option.bind_some, Session.stopReading, Session.dropBody,
        Session.finish, Session.respond] at stepped
      split at stepped
      · exact absurd ‹_› (notRelay _)
      · cases stepped
  | arrive | cut | read | route | hand | remove | answer | transmit | closeOutbox => cases own

theorem UploadStep.fed (step : UploadStep handler after) (fed : handler.Fed more) :
    after.Fed more := by
  cases step with
  | create creating => simpa [Handler.Fed, creating] using fed
  | receive receiving queue => simpa [Handler.Fed, receiving, queue] using fed
  | write writing notFinal =>
      simp only [Handler.Fed, writing] at fed
      refine endsFinal_of_cons fed fun last isLast => ?_
      cases isLast
      exact notFinal
  | complete | fail | extract | clean | reply => trivial

section Pending

variable {payload : Payload Command} {message : Message Command}

@[simp] theorem uploadsOf_append {later : List (Message Command)} :
    uploadsOf requestId (messages ++ later) =
      uploadsOf requestId messages ++ uploadsOf requestId later :=
  List.filterMap_append

theorem uploadsOf_upload {req : UploadZipAndExtractRequest} :
    uploadsOf requestId (⟨requestId, some (.uploadZipAndExtract req)⟩ :: messages) =
      req.chunk :: uploadsOf requestId messages := by
  simp [uploadsOf]

/-- The message is not one of the upload's. -/
def Foreign (requestId : Nat) (message : Message Command) : Prop :=
  ∀ req, message.payload = some (.uploadZipAndExtract req) → message.requestId ≠ requestId

theorem uploadsOf_foreign (foreign : Foreign requestId message) :
    uploadsOf requestId (message :: messages) = uploadsOf requestId messages := by
  simp only [uploadsOf, List.filterMap_cons]
  split
  · rfl
  · rename_i found
    split at found
    · rename_i same
      split at found
      · rename_i req isUpload
        exact absurd same (foreign req isUpload)
      · cases found
    · cases found

theorem pending_routing (routing : session.loop = .routing requestId payload) (id : Nat) :
    session.pending id = uploadsOf id
      (⟨requestId, some payload⟩ :: (session.inbound ++ session.coming)) := by
  simp [Session.pending, Session.inHand, routing]

theorem pending_idle (idle : session.inHand = []) (id : Nat) :
    session.pending id = uploadsOf id (session.inbound ++ session.coming) := by
  simp [Session.pending, idle]

end Pending

/-- How the handlers of an upload stand to what is still to come. -/
structure Serving (requestId : Nat) (session : Session Command Answer) : Prop where
  single : ∀ n m handler other, session.handlers n = some handler →
    session.handlers m = some other → handler.Uploads requestId → other.Uploads requestId → n = m
  finished : ∀ n handler, session.handlers n = some handler → handler.Uploads requestId →
    handler.phase = .done → session.pending requestId = []
  awaited : (∀ n handler, session.handlers n = some handler → ¬ handler.Uploads requestId) →
    EndsFinal (session.pending requestId)
  fed : ∀ n handler, session.handlers n = some handler → handler.Uploads requestId →
    handler.Fed (session.loop.chunkFor n ++ session.pending requestId)

theorem serving_new {coming : List (Message Command)} (transfer : Transfer requestId coming) :
    Serving requestId (Session.new coming : Session Command Answer) := by
  obtain ⟨chunks, last, sent, isFinal, _⟩ := transfer
  have nobody : ∀ n handler, (Session.new coming : Session Command Answer).handlers n ≠
      some handler := by simp [Session.new]
  refine ⟨fun n _ handler _ found => absurd found (nobody n handler),
    fun n handler found => absurd found (nobody n handler), fun _ => ⟨last, ?_, isFinal⟩,
    fun n handler found => absurd found (nobody n handler)⟩
  have pending : (Session.new coming : Session Command Answer).pending requestId =
      uploadsOf requestId coming := by
    simp [Session.pending, Session.inHand, Session.new]
  simp [pending, sent]

theorem Serving.congr (serving : Serving requestId session)
    (handlers : next.handlers = session.handlers)
    (pending : next.pending requestId = session.pending requestId)
    (chunkFor : ∀ n, next.loop.chunkFor n = session.loop.chunkFor n) : Serving requestId next := by
  obtain ⟨single, finished, awaited, fed⟩ := serving
  refine ⟨?_, ?_, ?_, ?_⟩ <;> simpa only [handlers, pending, chunkFor]

/-- A step that moves one handler, and what the loop has for it. -/
theorem Serving.settles (serving : Serving requestId session) (after : Handler)
    (found : session.handlers m = some handler)
    (handlers : ∀ n, next.handlers n = if n = m then some after else session.handlers n)
    (uploads : after.Uploads requestId ↔ handler.Uploads requestId)
    (done : handler.Uploads requestId → after.phase = .done → session.pending requestId = [])
    (pending : next.pending requestId = session.pending requestId)
    (others : ∀ n, n ≠ m → next.loop.chunkFor n = session.loop.chunkFor n)
    (feeds : handler.Uploads requestId → ∀ more, handler.Fed (session.loop.chunkFor m ++ more) →
      after.Fed (next.loop.chunkFor m ++ more)) : Serving requestId next := by
  obtain ⟨single, finished, awaited, fed⟩ := serving
  have same : ∀ n other, next.handlers n = some other → other.Uploads requestId →
      ∃ older, session.handlers n = some older ∧ older.Uploads requestId ∧
        (n = m → older = handler ∧ other = after) ∧ (n ≠ m → older = other) := by
    intro n other found' ours
    rw [handlers] at found'
    split at found'
    · rename_i isOwn
      cases found'
      exact ⟨handler, isOwn ▸ found, uploads.1 ours, fun _ => ⟨rfl, rfl⟩,
        fun absurdly => absurd isOwn absurdly⟩
    · rename_i different
      exact ⟨other, found', ours, fun isOwn => absurd isOwn different, fun _ => rfl⟩
  refine ⟨?_, ?_, ?_, ?_⟩
  · intro n k handler' other found' foundOther ours ours'
    obtain ⟨older, foundOlder, oursOlder, _⟩ := same n handler' found' ours
    obtain ⟨older', foundOlder', oursOlder', _⟩ := same k other foundOther ours'
    exact single n k older older' foundOlder foundOlder' oursOlder oursOlder'
  · intro n other foundOther ours isDone
    obtain ⟨older, foundOlder, oursOlder, isOwn, isOther⟩ := same n other foundOther ours
    rw [pending]
    by_cases isM : n = m
    · obtain ⟨rfl, rfl⟩ := isOwn isM
      exact done oursOlder isDone
    · exact finished n older foundOlder oursOlder (isOther isM ▸ isDone)
  · intro none
    rw [pending]
    refine awaited fun n other foundOther ours => ?_
    by_cases isM : n = m
    · subst isM
      rw [found] at foundOther
      cases foundOther
      exact none n after (by simp [handlers]) (uploads.2 ours)
    · exact none n other (by simp [handlers, isM, foundOther]) ours
  · intro n other foundOther ours
    obtain ⟨older, foundOlder, oursOlder, isOwn, isOther⟩ := same n other foundOther ours
    have fedBefore := fed n older foundOlder oursOlder
    rw [pending]
    by_cases isM : n = m
    · obtain ⟨rfl, rfl⟩ := isOwn isM
      subst isM
      exact feeds oursOlder _ fedBefore
    · rw [others n isM, ← isOther isM]
      exact fedBefore

theorem Serving.handled (serving : Serving requestId session) (orderly : Orderly session)
    (own : event.handledBy = some n) (stepped : session.step event = some next) :
    Serving requestId next := by
  have handled := handled_of_step orderly own stepped
  obtain ⟨⟨before, after, found, advances, handlers⟩, coming, inbound, loop, _, _⟩ := handled
  refine serving.settles after found handlers ?_ ?_ ?_ (fun _ _ => by rw [loop]) ?_
  · simp only [Handler.Uploads, advances.task, advances.requestId]
  · exact fun ours isDone => serving.finished n before found ours (advances.done.1 isDone)
  · simp only [Session.pending, Session.inHand, coming, inbound, loop]
  · intro ours more fed
    obtain ⟨after', found', step⟩ := upload_step ours.1 found own stepped
    rw [handlers, if_pos rfl] at found'
    cases found'
    rw [loop]
    exact step.fed fed

/-- A step that only moves messages that are none of the upload's. -/
theorem Serving.passes (serving : Serving requestId session)
    (handlers : next.handlers = session.handlers)
    (pending : next.pending requestId = session.pending requestId)
    (before : ∀ n, session.loop.chunkFor n = [])
    (after : ∀ n handler, session.handlers n = some handler → handler.Uploads requestId →
      next.loop.chunkFor n = []) : Serving requestId next := by
  obtain ⟨single, finished, awaited, fed⟩ := serving
  refine ⟨?_, ?_, ?_, ?_⟩ <;> rw [handlers]
  · exact single
  · rw [pending]
    exact finished
  · rw [pending]
    exact awaited
  · intro n handler found ours
    rw [after n handler found ours, pending, ← before n]
    exact fed n handler found ours

/-- A new handler for something else. -/
theorem Serving.opens (serving : Serving requestId session) (orderly : Orderly session) {id : Nat}
    {task : Task} {phase : Phase} {loop : Loop Command}
    (foreign : task.family = .uploads → id ≠ requestId)
    (pending : { session.openChannel id task phase with loop }.pending requestId =
      session.pending requestId)
    (before : ∀ n, session.loop.chunkFor n = [])
    (after : ∀ n, n < session.started → loop.chunkFor n = []) :
    Serving requestId { session.openChannel id task phase with loop } := by
  obtain ⟨single, finished, awaited, fed⟩ := serving
  have same : ∀ n handler, (session.openChannel id task phase).handlers n = some handler →
      handler.Uploads requestId → session.handlers n = some handler := by
    intro n handler found ours
    rw [openChannel_handlers] at found
    split at found
    · cases found
      exact absurd ours.2 (foreign ours.1)
    · exact found
  have kept : ∀ n handler, session.handlers n = some handler →
      (session.openChannel id task phase).handlers n = some handler := by
    intro n handler found
    rw [openChannel_handlers, if_neg (Nat.ne_of_lt (orderly.known n handler found)), found]
  refine ⟨?_, ?_, ?_, ?_⟩
  · intro n m handler other found found' ours ours'
    exact single n m handler other (same n handler found ours) (same m other found' ours') ours ours'
  · intro n handler found ours isDone
    rw [pending]
    exact finished n handler (same n handler found ours) ours isDone
  · intro none
    rw [pending]
    exact awaited fun n handler found => none n handler (kept n handler found)
  · intro n handler found ours
    have found := same n handler found ours
    rw [pending, after n (orderly.known n handler found), ← before n]
    exact fed n handler found ours

/-- The upload's next chunk is on its way to its handler. -/
theorem Serving.routes (serving : Serving requestId session) (orderly : Orderly session)
    {req : UploadZipAndExtractRequest}
    (routing : session.loop = .routing requestId (.uploadZipAndExtract req)) :
    Serving requestId (session.routeUploadChunk requestId req) := by
  obtain ⟨single, finished, awaited, fed⟩ := serving
  have pending : session.pending requestId =
      req.chunk :: uploadsOf requestId (session.inbound ++ session.coming) := by
    rw [pending_routing routing, uploadsOf_upload]
  have running : ∀ n handler, session.handlers n = some handler → handler.Uploads requestId →
      session.inFlight .uploads requestId = some n := by
    intro n handler found ours
    rw [← ours.2]
    refine orderly.uploads n handler found ours.1 fun isDone => ?_
    have nothing := finished n handler found ours isDone
    rw [pending] at nothing
    cases nothing
  have before : ∀ n, session.loop.chunkFor n = [] := by simp [routing, Loop.chunkFor]
  simp only [Session.routeUploadChunk]
  split
  · rename_i m entry
    obtain ⟨mine, foundMine, ofFamily, ofRequest, _⟩ := orderly.entries _ _ _ entry
    have oursMine : mine.Uploads requestId := ⟨ofFamily, ofRequest⟩
    have fedMine := fed m mine foundMine oursMine
    rw [before, pending, List.nil_append] at fedMine
    have isMine : ∀ n handler, session.handlers n = some handler → handler.Uploads requestId →
        n = m ∧ handler = mine := by
      intro n handler found ours
      have same := single n m handler mine found foundMine ours oursMine
      subst same
      rw [found] at foundMine
      cases foundMine
      exact ⟨rfl, rfl⟩
    have notDone : mine.phase ≠ .done := by
      intro isDone
      have nothing := finished m mine foundMine oursMine isDone
      rw [pending] at nothing
      cases nothing
    split
    · rename_i chunk isChunk
      refine ⟨single, ?_, ?_, ?_⟩
      · intro n handler found ours isDone
        obtain ⟨rfl, rfl⟩ := isMine n handler found ours
        exact absurd isDone notDone
      · exact fun none => absurd oursMine (none m mine foundMine)
      · intro n handler found ours
        obtain ⟨rfl, rfl⟩ := isMine n handler found ours
        rw [isChunk] at fedMine
        have rest : { session with loop := .handing n chunk }.pending requestId =
            uploadsOf requestId (session.inbound ++ session.coming) := pending_idle rfl requestId
        rw [rest]
        simpa [Loop.chunkFor] using fedMine
    · rename_i noChunk
      refine ⟨single, ?_, ?_, ?_⟩
      · intro n handler found ours isDone
        obtain ⟨rfl, rfl⟩ := isMine n handler found ours
        exact absurd isDone notDone
      · exact fun none => absurd oursMine (none m mine foundMine)
      · intro n handler found ours
        obtain ⟨rfl, rfl⟩ := isMine n handler found ours
        rw [noChunk] at fedMine
        have rest : { session with loop := .reading }.pending requestId =
            uploadsOf requestId (session.inbound ++ session.coming) := pending_idle rfl requestId
        rw [rest]
        exact fedMine.skip
  · rename_i free
    have nobody : ∀ n handler, session.handlers n = some handler → ¬ handler.Uploads requestId := by
      intro n handler found ours
      rw [running n handler found ours] at free
      cases free
    have ends := awaited nobody
    rw [pending] at ends
    have own : ∀ n handler, (session.openChannel requestId
        (.upload req.deploymentId req.maxUncompressedBytes) .starting).handlers n = some handler →
          handler.Uploads requestId → n = session.started ∧ handler =
            ⟨.upload req.deploymentId req.maxUncompressedBytes, requestId, [], .reading, .starting⟩ := by
      intro n handler found ours
      rw [openChannel_handlers] at found
      split at found
      · rename_i same
        cases found
        exact ⟨same, rfl⟩
      · exact absurd ours (nobody n handler found)
    refine ⟨?_, ?_, ?_, ?_⟩
    · intro n m handler other found found' ours ours'
      exact (own n handler found ours).1.trans (own m other found' ours').1.symm
    · intro n handler found ours isDone
      rw [(own n handler found ours).2] at isDone
      cases isDone
    · intro none
      refine absurd ⟨rfl, rfl⟩ (none session.started
        ⟨.upload req.deploymentId req.maxUncompressedBytes, requestId, [], .reading, .starting⟩ ?_)
      simp only [openChannel_handlers, if_true]
    · intro n handler found ours
      obtain ⟨rfl, rfl⟩ := own n handler found ours
      rw [pending_idle rfl]
      cases chunk : req.chunk with
      | none =>
          rw [chunk] at ends
          exact endsFinal_skip ends
      | some first =>
          rw [chunk] at ends
          simpa [Handler.Fed, Loop.chunkFor] using ends

theorem Serving.route (serving : Serving requestId session) (orderly : Orderly session)
    (stepped : session.route = some next) : Serving requestId next := by
  simp only [Session.route] at stepped
  split at stepped
  · rename_i id req routing
    cases stepped
    by_cases same : id = requestId
    · subst same
      exact serving.routes orderly routing
    · have foreign : Foreign requestId (⟨id, some (.uploadZipAndExtract req)⟩ : Message Command) :=
        fun _ _ => same
      have before : ∀ n, session.loop.chunkFor n = [] := by simp [routing, Loop.chunkFor]
      have pending : uploadsOf requestId (session.inbound ++ session.coming) =
          session.pending requestId := by rw [pending_routing routing, uploadsOf_foreign foreign]
      simp only [Session.routeUploadChunk]
      split
      · rename_i m entry
        obtain ⟨other, found', _, ofRequest, _⟩ := orderly.entries _ _ _ entry
        split
        · refine serving.passes rfl ((pending_idle rfl _).trans pending) before ?_
          intro n handler found ours
          have different : m ≠ n := by
            rintro rfl
            rw [found] at found'
            cases found'
            exact same (ofRequest.symm.trans ours.2)
          simp [Loop.chunkFor, different]
        · exact serving.passes rfl ((pending_idle rfl _).trans pending) before fun _ _ _ _ => rfl
      · refine serving.opens orderly (fun _ => same) ((pending_idle rfl _).trans pending) before ?_
        intro n older
        cases req.chunk <;> simp [Loop.chunkFor, Nat.ne_of_gt older]
  · rename_i id part routing
    cases stepped
    have foreign : Foreign requestId (⟨id, some (.relayHttpRequest part)⟩ : Message Command) := by
      rintro _ ⟨⟩
    have before : ∀ n, session.loop.chunkFor n = [] := by simp [routing, Loop.chunkFor]
    have pending : uploadsOf requestId (session.inbound ++ session.coming) =
        session.pending requestId := by rw [pending_routing routing, uploadsOf_foreign foreign]
    simp only [Session.routeRelayMessage]
    split
    · exact serving.opens orderly (by rintro ⟨⟩) ((pending_idle rfl _).trans pending) before fun _ _ => rfl
    · split
      · rename_i m entry
        obtain ⟨other, found', ofFamily, _⟩ := orderly.entries _ _ _ entry
        refine serving.passes rfl ((pending_idle rfl _).trans pending) before ?_
        intro n handler found ours
        have different : m ≠ n := by
          rintro rfl
          rw [found] at found'
          cases found'
          rw [ours.1] at ofFamily
          cases ofFamily
        simp [Loop.chunkFor, different]
      · exact serving.passes rfl ((pending_idle rfl _).trans pending) before fun _ _ _ _ => rfl
    · exact serving.passes rfl ((pending_idle rfl _).trans pending) before fun _ _ _ _ => rfl
  · rename_i id command routing
    cases stepped
    have foreign : Foreign requestId (⟨id, some (.other command)⟩ : Message Command) := by rintro _ ⟨⟩
    have pending : uploadsOf requestId (session.inbound ++ session.coming) =
        session.pending requestId := by rw [pending_routing routing, uploadsOf_foreign foreign]
    exact serving.passes rfl ((pending_idle rfl _).trans pending)
      (by simp [routing, Loop.chunkFor]) fun _ _ _ _ => rfl
  · cases stepped

theorem Serving.hand (serving : Serving requestId session) (orderly : Orderly session)
    (stepped : session.hand = some next) : Serving requestId next := by
  simp only [Session.hand] at stepped
  split at stepped
  · rename_i m chunk handing
    obtain ⟨handler, found, stepped⟩ := Option.bind_eq_some_iff.1 stepped
    have held : session.loop.chunkFor m = [some chunk] := by simp [handing, Loop.chunkFor]
    have others : ∀ n, n ≠ m → session.loop.chunkFor n = [] := by
      intro n different
      simp [handing, Loop.chunkFor, Ne.symm different]
    have pending : uploadsOf requestId (session.inbound ++ session.coming) =
        session.pending requestId :=
      (pending_idle (by simp [Session.inHand, handing]) requestId).symm
    split at stepped
    · rename_i deaf
      cases stepped
      refine serving.settles handler found (fun n => ?_) Iff.rfl
        (serving.finished m handler found) ((pending_idle rfl _).trans pending)
        (fun n different => (others n different).symm) fun ours more _ => ?_
      · split
        · rename_i same
          rw [same, found]
        · rfl
      · have finished := orderly.hearing m handler found ours.1
        simp only [Bool.not_eq_eq_eq_not, Bool.not_true] at deaf
        rw [deaf] at finished
        exact Handler.fed_of_over (by simpa using finished)
    · split at stepped
      · cases stepped
        refine serving.settles _ found (fun _ => Session.setHandler_handlers) Iff.rfl
          (serving.finished m handler found) ((pending_idle rfl _).trans pending)
          (fun n different => (others n different).symm) fun _ more fed => ?_
        rw [held] at fed
        exact Handler.Fed.push fed
      · cases stepped
  · rename_i m chunk opening
    obtain ⟨handler, found, stepped⟩ := Option.bind_eq_some_iff.1 stepped
    have held : session.loop.chunkFor m = [some chunk] := by simp [opening, Loop.chunkFor]
    have pending := pending_idle (by simp [Session.inHand, opening] : session.inHand = []) requestId
    split at stepped <;> cases stepped
    refine serving.settles _ found (fun _ => Session.setHandler_handlers) Iff.rfl
      (serving.finished m handler found) ?_ (fun n different => ?_) fun _ more fed => ?_
    · exact (pending_idle rfl _).trans pending.symm
    · simp [opening, Loop.chunkFor, Ne.symm different]
    · rw [held] at fed
      exact Handler.Fed.push fed
  · rename_i m opening
    obtain ⟨handler, found, stepped⟩ := Option.bind_eq_some_iff.1 stepped
    cases stepped
    have pending := pending_idle (by simp [Session.inHand, opening] : session.inHand = []) requestId
    obtain ⟨_, found', isStarting, _⟩ := orderly.opened m none opening
    rw [found] at found'
    cases found'
    refine serving.settles _ found (fun _ => Session.setHandler_handlers) Iff.rfl (by simp) ?_
      (fun n different => ?_) fun _ more fed => ?_
    · exact (pending_idle rfl _).trans pending.symm
    · simp [opening, Loop.chunkFor]
    · simpa [Handler.Fed, isStarting, opening, Loop.chunkFor] using fed
  · cases stepped

theorem Serving.moves (serving : Serving requestId session) (orderly : Orderly session)
    (stepped : session.step event = some next) (patient : Patient requestId session event) :
    Serving requestId next := by
  cases event with
  | create m _ | receive m | write m _ | extract m _ | removeZip m | reply m | stopReading m
  | dropBody m | respond m _ | finish m => exact serving.handled orderly rfl stepped
  | route => exact serving.route orderly stepped
  | hand => exact serving.hand orderly stepped
  | arrive =>
      simp only [Session.step] at stepped
      split at stepped
      · cases stepped
      · rename_i message rest coming
        split at stepped <;> cases stepped
        refine serving.congr rfl ?_ fun _ => rfl
        simp [Session.pending, Session.inHand, coming, uploadsOf]
  | cut kept =>
      cases stepped
      refine serving.congr rfl ?_ fun _ => rfl
      have lost : uploadsOf requestId (session.inbound.drop kept) = [] ∧
          uploadsOf requestId session.coming = [] := by simpa [Patient] using patient
      have whole : uploadsOf requestId (session.inbound.take kept) =
          uploadsOf requestId session.inbound := by
        rw [← List.take_append_drop kept session.inbound, uploadsOf_append, lost.1]
        simp
      simp only [Session.pending, uploadsOf_append, whole]
      rfl
  | read =>
      simp only [Session.step, Session.read] at stepped
      split at stepped
      · rename_i reading empty
        split at stepped <;> cases stepped
        refine serving.congr rfl ?_ fun _ => by simp [reading, Loop.chunkFor]
        simp [Session.pending, Session.inHand, reading]
      · rename_i id rest reading inbound
        cases stepped
        refine serving.congr rfl ?_ fun _ => rfl
        have foreign : Foreign requestId (⟨id, none⟩ : Message Command) := by rintro _ ⟨⟩
        simp only [Session.pending, Session.inHand, reading, inbound, List.nil_append,
          List.cons_append, uploadsOf_foreign foreign]
      · rename_i id payload rest reading inbound
        cases stepped
        refine serving.congr rfl ?_ fun _ => by simp [reading, Loop.chunkFor]
        simp [Session.pending, Session.inHand, reading, inbound, uploadsOf]
      · cases stepped
  | transmit =>
      simp only [Session.step] at stepped
      split at stepped <;> cases stepped
      exact serving.congr rfl rfl fun _ => rfl
  | closeOutbox =>
      cases stepped
      exact serving.congr rfl rfl fun _ => rfl
  | answer id answer =>
      have posted := posted_of_post stepped
      refine serving.congr posted.handlers ?_ fun _ => by rw [posted.loop]
      simp only [Session.pending, Session.inHand, posted.loop, posted.inbound, posted.coming]
  | remove m =>
      obtain ⟨handler, found, stepped⟩ := Option.bind_eq_some_iff.1 stepped
      simp only [Session.remove] at stepped
      split at stepped <;> cases stepped
      refine serving.settles _ found (fun _ => Session.setHandler_handlers) Iff.rfl ?_ rfl
        (fun _ _ => rfl) fun _ _ _ => trivial
      intro ours _
      exact patient (by simp [found, ours])

def isResultOf (requestId : Nat) : Nat × Reply Answer → Bool
  | (id, .uploadZipAndExtractResult _) => id = requestId
  | (_, .other _) => false

/-- The results sent for the upload. -/
def Session.results (session : Session Command Answer) (requestId : Nat) : Nat :=
  (session.delivered ++ session.outbox).countP (isResultOf requestId)

/-- The upload's handler has replied. -/
def Session.Replied (session : Session Command Answer) (requestId n : Nat) : Prop :=
  ∃ handler, session.handlers n = some handler ∧ handler.Uploads requestId ∧
    handler.phase.finished = true

/-- Results are sent by handlers that have replied, one each. -/
structure Told (requestId : Nat) (session : Session Command Answer) : Prop where
  silent : (∀ n, ¬ session.Replied requestId n) → session.results requestId = 0
  atMost : session.results requestId ≤ 1
  replied : session.outboxOpen = true → ∀ n, session.Replied requestId n →
    session.results requestId = 1

theorem told_new {coming : List (Message Command)} :
    Told requestId (Session.new coming : Session Command Answer) := by
  constructor <;> simp [Session.new, Session.results, Session.Replied]

theorem Told.congr (told : Told requestId session)
    (results : next.results requestId = session.results requestId)
    (outboxOpen : next.outboxOpen = session.outboxOpen)
    (replied : ∀ n, next.Replied requestId n ↔ session.Replied requestId n) :
    Told requestId next := by
  obtain ⟨silent, atMost, hasReplied⟩ := told
  refine ⟨?_, ?_, ?_⟩ <;> simpa only [results, outboxOpen, replied]

theorem replied_setHandler (after : Handler) (found : session.handlers m = some handler)
    (handlers : ∀ n, next.handlers n = if n = m then some after else session.handlers n)
    (uploads : after.Uploads requestId ↔ handler.Uploads requestId)
    (finished : handler.Uploads requestId → after.phase.finished = handler.phase.finished) (n : Nat) :
    next.Replied requestId n ↔ session.Replied requestId n := by
  simp only [Session.Replied, handlers]
  by_cases same : n = m
  · subst same
    simp only [if_true, found, Option.some.injEq, exists_eq_left']
    constructor
    · rintro ⟨ours, isOver⟩
      exact ⟨uploads.1 ours, finished (uploads.1 ours) ▸ isOver⟩
    · rintro ⟨ours, isOver⟩
      exact ⟨uploads.2 ours, (finished ours).trans isOver⟩
  · simp only [if_neg same]

/-- A message that is no result of the upload does not count. -/
theorem results_post {id : Nat} {reply : Reply Answer}
    (post : session.post id reply = some next)
    (other : isResultOf requestId (id, reply) = false) :
    next.results requestId = session.results requestId := by
  simp only [Session.post] at post
  repeat' split at post
  all_goals cases post
  · rfl
  · simp [Session.results, List.countP_append, other]

theorem results_own {result : Except AgentError Nat}
    (post : session.post requestId (.uploadZipAndExtractResult result) = some next) :
    next.results requestId = session.results requestId + session.outboxOpen.toNat := by
  simp only [Session.post] at post
  repeat' split at post
  all_goals cases post
  · rename_i closed
    have closed : session.outboxOpen = false := by simpa using closed
    simp [closed]
  · rename_i isOpen _
    have isOpen : session.outboxOpen = true := by simpa using isOpen
    simp only [Session.results, ← List.append_assoc, List.countP_append, isOpen]
    simp [isResultOf]

theorem over_of_step (found : session.handlers n = some handler)
    (isUpload : handler.task.family = .uploads) (own : event.handledBy = some n)
    (silent : ∀ m, event ≠ .reply m) (stepped : session.step event = some next) :
    ∀ after, next.handlers n = some after → after.phase.finished = handler.phase.finished := by
  have notRelay : ∀ head, handler.task ≠ .relay head := by
    intro head isRelay
    simp [isRelay, Task.family] at isUpload
  intro after found'
  cases event with
  | create m failure | receive m | write m failure | extract m result | removeZip m =>
      cases own
      simp only [Session.step, found, Option.bind_some, Session.create, Session.receive,
        Session.write, Session.extract, Session.removeZip] at stepped
      repeat' split at stepped
      all_goals cases stepped
      all_goals rw [setHandler_self] at found'
      all_goals cases found'
      all_goals simp_all [Phase.finished]
  | stopReading m | dropBody m | finish m | respond m answer =>
      cases own
      simp only [Session.step, found, Option.bind_some, Session.stopReading, Session.dropBody,
        Session.finish, Session.respond] at stepped
      split at stepped
      · exact absurd ‹_› (notRelay _)
      · cases stepped
  | reply m => exact absurd rfl (silent m)
  | arrive | cut | read | route | hand | remove | answer | transmit | closeOutbox => cases own

/-- The events after which nothing has been sent. -/
def Event.IsSilent : Event Answer → Prop
  | .reply _ | .respond _ _ | .answer _ _ | .transmit | .closeOutbox => False
  | _ => True

theorem silent_step (requestId : Nat) (stepped : session.step event = some next)
    (silent : event.IsSilent) :
    next.results requestId = session.results requestId ∧ next.outboxOpen = session.outboxOpen := by
  cases event with
  | reply | respond | answer | transmit | closeOutbox => exact silent.elim
  | cut kept =>
      cases stepped
      exact ⟨rfl, rfl⟩
  | arrive | read =>
      simp only [Session.step, Session.read] at stepped
      repeat' split at stepped
      all_goals cases stepped
      all_goals exact ⟨rfl, rfl⟩
  | route =>
      simp only [Session.step, Session.route, Session.routeUploadChunk, Session.routeRelayMessage]
        at stepped
      repeat' split at stepped
      all_goals cases stepped
      all_goals exact ⟨rfl, rfl⟩
  | hand =>
      simp only [Session.step, Session.hand] at stepped
      split at stepped
      · obtain ⟨handler, found, stepped⟩ := Option.bind_eq_some_iff.1 stepped
        repeat' split at stepped
        all_goals cases stepped
        all_goals exact ⟨rfl, rfl⟩
      · obtain ⟨handler, found, stepped⟩ := Option.bind_eq_some_iff.1 stepped
        split at stepped <;> cases stepped
        exact ⟨rfl, rfl⟩
      · obtain ⟨handler, found, stepped⟩ := Option.bind_eq_some_iff.1 stepped
        cases stepped
        exact ⟨rfl, rfl⟩
      · cases stepped
  | create n failure | receive n | write n failure | extract n result | removeZip n | stopReading n
  | dropBody n | finish n | remove n =>
      obtain ⟨handler, found, stepped⟩ := Option.bind_eq_some_iff.1 stepped
      simp only [Session.create, Session.receive, Session.write, Session.extract, Session.removeZip,
        Session.stopReading, Session.dropBody, Session.finish, Session.remove] at stepped
      repeat' split at stepped
      all_goals cases stepped
      all_goals exact ⟨rfl, rfl⟩

theorem Told.handled (told : Told requestId session) (orderly : Orderly session)
    (stepped : session.step event = some next) (own : event.handledBy = some n)
    (noReply : ∀ m, event ≠ .reply m)
    (results : next.results requestId = session.results requestId)
    (outboxOpen : next.outboxOpen = session.outboxOpen) : Told requestId next := by
  obtain ⟨⟨before, after, found, advances, handlers⟩, _⟩ := handled_of_step orderly own stepped
  refine told.congr results outboxOpen (replied_setHandler after found handlers ?_ ?_)
  · simp only [Handler.Uploads, advances.task, advances.requestId]
  · intro ours
    exact over_of_step found ours.1 own noReply stepped after (by simp [handlers])

theorem Told.reply (told : Told requestId session) (serving : Serving requestId session)
    (orderly : Orderly session) (stepped : session.step (.reply m) = some next) :
    Told requestId next := by
  obtain ⟨handler, found, replies⟩ := Option.bind_eq_some_iff.1 stepped
  simp only [Session.reply] at replies
  split at replies
  · rename_i result replying
    obtain ⟨posted, post, rfl⟩ := Option.map_eq_some_iff.1 replies
    have isPosted := posted_of_post post
    have isUpload : handler.task.family = .uploads := by
      cases family : handler.task.family with
      | uploads => rfl
      | relays =>
          have relaying := orderly.relaying m handler found family
          simp [replying, Phase.finished] at relaying
    by_cases ours : handler.Uploads requestId
    · have nobody : ∀ n, ¬ session.Replied requestId n := by
        rintro n ⟨other, found', ours', isOver⟩
        have same := serving.single n m other handler found' found ours' ours
        subst same
        rw [found] at found'
        cases found'
        simp [replying, Phase.finished] at isOver
      have none := told.silent nobody
      have isReplied : (posted.setHandler m
          { handler with receiver := .dropped, phase := .removing }).Replied requestId m :=
        ⟨_, setHandler_self, ours, rfl⟩
      rw [ours.2] at post
      have results : (posted.setHandler m { handler with
          receiver := .dropped, phase := .removing }).results requestId =
            session.outboxOpen.toNat := by
        rw [← Nat.zero_add session.outboxOpen.toNat, ← none, ← results_own post]
        rfl
      refine ⟨fun absurdly => absurd isReplied (absurdly m), ?_, fun isOpen _ _ => ?_⟩
      · rw [results]
        exact Bool.toNat_le _
      · rw [results]
        rw [Session.setHandler_outboxOpen, isPosted.outboxOpen] at isOpen
        rw [isOpen]
        rfl
    · have foreign : isResultOf requestId (handler.requestId,
          (.uploadZipAndExtractResult (uploadResult result) : Reply Answer)) = false := by
        simpa [isResultOf] using fun same => ours ⟨isUpload, same⟩
      have results := results_post post foreign
      refine told.congr results isPosted.outboxOpen (replied_setHandler
        { handler with receiver := .dropped, phase := .removing } found ?_ Iff.rfl ?_)
      · intro n
        rw [Session.setHandler_handlers, isPosted.handlers]
      · exact fun absurdly => absurd absurdly ours
  · cases replies

theorem replied_openChannel (orderly : Orderly session) {id : Nat} {task : Task} {phase : Phase}
    (begun : phase.finished = false) (n : Nat) :
    (session.openChannel id task phase).Replied requestId n ↔ session.Replied requestId n := by
  simp only [Session.Replied, openChannel_handlers]
  split
  · rename_i same
    constructor
    · rintro ⟨handler, found, _, isOver⟩
      cases found
      rw [begun] at isOver
      cases isOver
    · rintro ⟨handler, found, _⟩
      exact absurd same (Nat.ne_of_lt (orderly.known n handler found))
  · rfl

theorem replied_route (orderly : Orderly session) (stepped : session.route = some next) (n : Nat) :
    next.Replied requestId n ↔ session.Replied requestId n := by
  simp only [Session.route, Session.routeUploadChunk, Session.routeRelayMessage] at stepped
  repeat' split at stepped
  all_goals cases stepped
  all_goals first
    | exact Iff.rfl
    | exact replied_openChannel orderly rfl n

theorem Told.moves (told : Told requestId session) (serving : Serving requestId session)
    (orderly : Orderly session) (stepped : session.step event = some next) :
    Told requestId next := by
  cases event with
  | create m _ | receive m | write m _ | extract m _ | removeZip m | stopReading m | dropBody m
  | finish m =>
      obtain ⟨results, outboxOpen⟩ := silent_step requestId stepped trivial
      exact told.handled orderly stepped rfl (by simp) results outboxOpen
  | reply m => exact told.reply serving orderly stepped
  | respond m answer =>
      obtain ⟨handler, found, responds⟩ := Option.bind_eq_some_iff.1 stepped
      simp only [Session.respond] at responds
      split at responds
      · have posted := posted_of_post responds
        exact told.handled orderly stepped rfl (by simp) (results_post responds rfl) posted.outboxOpen
      · cases responds
  | answer id answer =>
      have posted := posted_of_post stepped
      refine told.congr (results_post stepped rfl) posted.outboxOpen fun n => ?_
      simp only [Session.Replied, posted.handlers]
  | arrive | cut kept | read =>
      obtain ⟨results, outboxOpen⟩ := silent_step requestId stepped trivial
      refine told.congr results outboxOpen fun n => ?_
      simp only [Session.step, Session.read] at stepped
      repeat' split at stepped
      all_goals cases stepped
      all_goals rfl
  | transmit =>
      simp only [Session.step] at stepped
      split at stepped <;> cases stepped
      rename_i message rest outbox
      refine told.congr ?_ rfl fun n => Iff.rfl
      simp [Session.results, outbox, List.countP_append, List.countP_cons]
  | closeOutbox =>
      cases stepped
      obtain ⟨silent, atMost, _⟩ := told
      have fewer : ({ session with outboxOpen := false, outbox := [] }.results requestId) ≤
          session.results requestId := by
        simp [Session.results, List.countP_append]
      refine ⟨fun nobody => Nat.eq_zero_of_le_zero ?_, Nat.le_trans fewer atMost, by rintro ⟨⟩⟩
      exact silent nobody ▸ fewer
  | route =>
      obtain ⟨results, outboxOpen⟩ := silent_step requestId stepped trivial
      refine told.congr results outboxOpen (replied_route orderly stepped)
  | hand =>
      obtain ⟨results, outboxOpen⟩ := silent_step requestId stepped trivial
      simp only [Session.step, Session.hand] at stepped
      split at stepped
      · obtain ⟨handler, found, stepped⟩ := Option.bind_eq_some_iff.1 stepped
        repeat' split at stepped
        all_goals cases stepped
        · exact told.congr results outboxOpen fun n => Iff.rfl
        · exact told.congr results outboxOpen (replied_setHandler _ found
            (fun _ => Session.setHandler_handlers) Iff.rfl fun _ => rfl)
      · obtain ⟨handler, found, stepped⟩ := Option.bind_eq_some_iff.1 stepped
        split at stepped <;> cases stepped
        exact told.congr results outboxOpen (replied_setHandler _ found
          (fun _ => Session.setHandler_handlers) Iff.rfl fun _ => rfl)
      · rename_i opening
        obtain ⟨handler, found, stepped⟩ := Option.bind_eq_some_iff.1 stepped
        cases stepped
        obtain ⟨_, found', isStarting, _⟩ := orderly.opened _ _ opening
        rw [found] at found'
        cases found'
        exact told.congr results outboxOpen (replied_setHandler _ found
          (fun _ => Session.setHandler_handlers) Iff.rfl fun _ => by simp [isStarting, Phase.finished])
      · cases stepped
  | remove m =>
      obtain ⟨results, outboxOpen⟩ := silent_step requestId stepped trivial
      obtain ⟨handler, found, stepped⟩ := Option.bind_eq_some_iff.1 stepped
      simp only [Session.remove] at stepped
      split at stepped <;> cases stepped
      rename_i removing
      refine told.congr results outboxOpen (replied_setHandler { handler with phase := .done } found
        (fun _ => Session.setHandler_handlers) Iff.rfl ?_)
      simp [removing, Phase.finished]

/-- The invariants of an upload. -/
structure Sound (requestId : Nat) (session : Session Command Answer) : Prop where
  orderly : Orderly session
  serving : Serving requestId session
  told : Told requestId session

theorem Sound.moves (sound : Sound requestId session) (stepped : session.step event = some next)
    (patient : Patient requestId session event) : Sound requestId next :=
  ⟨sound.orderly.moves stepped, sound.serving.moves sound.orderly stepped patient,
    sound.told.moves sound.serving sound.orderly stepped⟩

theorem sound_of_reachable
    (reachable : (uploading Command Answer requestId).ReachableBy (Patient requestId) session) :
    Sound requestId session := by
  refine reachable.invariant _ ?_ fun _ _ _ sound stepped patient => sound.moves stepped patient
  rintro session ⟨coming, transfer, rfl⟩
  exact ⟨orderly_new coming, serving_new transfer, told_new⟩

/-- The steps of an upload's handler when nothing fails, and of the transport to the hub. -/
def Event.Serves (n : Nat) : Event Answer → Prop
  | .create m none | .receive m | .write m none | .extract m _ | .removeZip m | .reply m
  | .remove m => m = n
  | .transmit => True
  | _ => False

/-- Everything has been routed, and the handler is left with what it has. -/
structure Finishing (requestId n : Nat) (session : Session Command Answer) : Prop where
  sound : Sound requestId session
  routed : session.pending requestId = []
  released : session.loop.holds n = false
  isOpen : session.outboxOpen = true
  serves : ∃ handler, session.handlers n = some handler ∧ handler.Uploads requestId

def Handler.rank (handler : Handler) : Nat :=
  match handler.phase with
  | .creating => 9 + 3 * handler.queue.length
  | .writing _ => 8 + 3 * handler.queue.length
  | .receiving => 7 + 3 * handler.queue.length
  | .extracting => 6
  | .cleaning _ => 5
  | .replying _ => 4
  | .removing => 1
  | .starting | .relaying | .done => 0

/-- What the handler and the transport have left to do. -/
def Session.work (session : Session Command Answer) (n : Nat) : Nat :=
  session.outbox.length + ((session.handlers n).map Handler.rank).getD 0

theorem serves_keeps (serves : event.Serves n) (stepped : session.step event = some next) :
    next.coming = session.coming ∧ next.inbound = session.inbound ∧ next.loop = session.loop ∧
      next.outboxOpen = session.outboxOpen := by
  cases event with
  | create m _ | receive m | write m _ | extract m _ | removeZip m | remove m =>
      obtain ⟨handler, found, stepped⟩ := Option.bind_eq_some_iff.1 stepped
      simp only [Session.create, Session.receive, Session.write, Session.extract, Session.removeZip,
        Session.remove] at stepped
      repeat' split at stepped
      all_goals cases stepped
      all_goals exact ⟨rfl, rfl, rfl, rfl⟩
  | reply m =>
      obtain ⟨handler, found, stepped⟩ := Option.bind_eq_some_iff.1 stepped
      simp only [Session.reply] at stepped
      split at stepped
      · obtain ⟨posted, post, rfl⟩ := Option.map_eq_some_iff.1 stepped
        have isPosted := posted_of_post post
        exact ⟨isPosted.coming, isPosted.inbound, isPosted.loop, isPosted.outboxOpen⟩
      · cases stepped
  | transmit =>
      simp only [Session.step] at stepped
      split at stepped <;> cases stepped
      exact ⟨rfl, rfl, rfl, rfl⟩
  | arrive | cut | read | route | hand | stopReading | dropBody | respond | finish | answer
  | closeOutbox => exact serves.elim

theorem Loop.chunkFor_eq_nil {loop : Loop Command} (released : loop.holds n = false) :
    loop.chunkFor n = [] := by
  cases loop with
  | handing m chunk => simpa [Loop.holds, Loop.chunkFor] using released
  | starting m chunk => cases chunk <;> simp_all [Loop.holds, Loop.chunkFor]
  | reading | routing requestId payload | returned => rfl

/-- With everything routed, the handler is never stuck: it has its final chunk. -/
theorem Finishing.progress (finishing : Finishing requestId n session)
    (found : session.handlers n = some handler) (running : handler.phase ≠ .done) :
    ∃ event next, event.Serves n ∧ session.step event = some next ∧
      next.work n < session.work n := by
  obtain ⟨⟨orderly, serving, told⟩, routed, released, isOpen, handler', found', ours⟩ := finishing
  rw [found] at found'
  cases found'
  have fed := serving.fed n handler found ours
  rw [routed, Loop.chunkFor_eq_nil released] at fed
  obtain ⟨deploymentId, size, isUpload⟩ : ∃ deploymentId size,
      handler.task = .upload deploymentId size := by
    cases task : handler.task with
    | upload deploymentId size => exact ⟨deploymentId, size, rfl⟩
    | relay head =>
        have family := ours.1
        simp [task, Task.family] at family
  cases phase : handler.phase with
  | starting =>
      obtain ⟨chunk, opening⟩ := orderly.starting n handler found phase
      simp [opening, Loop.holds] at released
  | relaying => simp [Handler.Fed, phase] at fed
  | done => exact absurd phase running
  | creating =>
      have stepped : session.step (.create n none) =
          some { session.setHandler n { handler with phase := .receiving } with
            zips := Function.update session.zips deploymentId true } := by
        simp [Session.step, found, Session.create, phase, isUpload]
      refine ⟨.create n none, _, rfl, stepped, ?_⟩
      simp [Session.work, found, Handler.rank, phase]
  | receiving =>
      cases queue : handler.queue with
      | nil =>
          simp only [Handler.Fed, phase, queue] at fed
          exact absurd fed not_endsFinal_nil
      | cons chunk rest =>
          have stepped : session.step (.receive n) =
              some (session.setHandler n { handler with queue := rest, phase := .writing chunk }) := by
            simp [Session.step, found, Session.receive, phase, isUpload, queue]
          refine ⟨.receive n, _, rfl, stepped, ?_⟩
          simp only [Session.work, found, Handler.rank, phase, queue, Session.setHandler_handlers,
            Session.setHandler_outbox, if_true, Option.map_some, Option.getD_some, List.length_cons]
          omega
  | writing chunk =>
      cases isFinal : chunk.isFinal with
      | true =>
          have stepped : session.step (.write n none) =
              some (session.setHandler n
                { handler with receiver := .unread, phase := .extracting }) := by
            simp [Session.step, found, Session.write, phase, isFinal]
          refine ⟨.write n none, _, rfl, stepped, ?_⟩
          simp only [Session.work, found, Handler.rank, phase, Session.setHandler_handlers,
            Session.setHandler_outbox, if_true, Option.map_some, Option.getD_some]
          omega
      | false =>
          have stepped : session.step (.write n none) =
              some (session.setHandler n { handler with phase := .receiving }) := by
            simp [Session.step, found, Session.write, phase, isFinal]
          refine ⟨.write n none, _, rfl, stepped, ?_⟩
          simp [Session.work, found, Handler.rank, phase]
  | extracting =>
      have stepped : session.step (.extract n (.ok 0)) =
          some (session.setHandler n { handler with phase := .cleaning (.ok 0) }) := by
        simp [Session.step, found, Session.extract, phase]
      refine ⟨.extract n (.ok 0), _, rfl, stepped, ?_⟩
      simp [Session.work, found, Handler.rank, phase]
  | cleaning result =>
      have stepped : session.step (.removeZip n) =
          some { session.setHandler n { handler with phase := .replying result } with
            zips := Function.update session.zips deploymentId false } := by
        simp [Session.step, found, Session.removeZip, phase, isUpload]
      refine ⟨.removeZip n, _, rfl, stepped, ?_⟩
      simp [Session.work, found, Handler.rank, phase]
  | replying result =>
      by_cases room : session.outbox.length < channelCapacity
      · let posted := { session with outbox := session.outbox ++ [(handler.requestId,
          Reply.uploadZipAndExtractResult (uploadResult result))] }
        have stepped : session.step (.reply n) = some (posted.setHandler n
            { handler with receiver := .dropped, phase := .removing }) := by
          simp [Session.step, found, Session.reply, phase, Session.post, isOpen, room, posted]
        refine ⟨.reply n, _, rfl, stepped, ?_⟩
        simp only [Session.work, found, Handler.rank, phase, Session.setHandler_handlers,
          Session.setHandler_outbox, if_true, Option.map_some, Option.getD_some, posted,
          List.length_append, List.length_singleton]
        omega
      · cases outbox : session.outbox with
        | nil => simp [outbox, channelCapacity] at room
        | cons message rest =>
            have stepped : session.step .transmit =
                some { session with outbox := rest, delivered := session.delivered ++ [message] } := by
              simp [Session.step, outbox]
            refine ⟨.transmit, _, trivial, stepped, ?_⟩
            simp [Session.work, outbox]
  | removing =>
      have stepped : session.step (.remove n) =
          some ((session.setHandler n { handler with phase := .done }).setInFlight
            handler.task.family handler.requestId none) := by
        simp [Session.step, found, Session.remove, phase]
      refine ⟨.remove n, _, rfl, stepped, ?_⟩
      simp [Session.work, found, Handler.rank, phase]

theorem Finishing.moves (finishing : Finishing requestId n session) (serves : event.Serves n)
    (stepped : session.step event = some next) : Finishing requestId n next := by
  obtain ⟨sound, routed, released, isOpen, handler, found, ours⟩ := finishing
  obtain ⟨coming, inbound, loop, outboxOpen⟩ := serves_keeps serves stepped
  have patient : Patient requestId session event := by
    cases event <;> first
      | exact fun _ => routed
      | exact trivial
      | exact serves.elim
  refine ⟨sound.moves stepped patient, ?_, loop ▸ released, outboxOpen.trans isOpen, ?_⟩
  · rw [← routed]
    simp only [Session.pending, Session.inHand, coming, inbound, loop]
  · cases event with
    | create m _ | receive m | write m _ | extract m _ | removeZip m | reply m =>
        obtain ⟨before, after, foundBefore, advances, handlers⟩ :=
          (handled_of_step sound.orderly rfl stepped).handlers
        by_cases same : n = m
        · subst same
          rw [found] at foundBefore
          cases foundBefore
          exact ⟨after, by simp [handlers], advances.task ▸ ours.1, advances.requestId.trans ours.2⟩
        · exact ⟨handler, by simp [handlers, same, found], ours⟩
    | remove m =>
        obtain ⟨other, found', stepped⟩ := Option.bind_eq_some_iff.1 stepped
        simp only [Session.remove] at stepped
        split at stepped <;> cases stepped
        by_cases same : n = m
        · subst same
          rw [found] at found'
          cases found'
          exact ⟨{ handler with phase := .done }, by simp, ours⟩
        · exact ⟨handler, by simp [same, found], ours⟩
    | transmit =>
        simp only [Session.step] at stepped
        split at stepped <;> cases stepped
        exact ⟨handler, found, ours⟩
    | arrive | cut | read | route | hand | stopReading | dropBody | respond | finish | answer
    | closeOutbox => exact serves.elim

/-- The handler comes to its end, and has sent the one result. -/
theorem Finishing.finishes (finishing : Finishing requestId n session) :
    ∃ later handler, (machine Command Answer).Leads (Event.Serves n) session later ∧
      later.handlers n = some handler ∧ handler.phase = .done ∧ later.results requestId = 1 := by
  induction measured : session.work n using Nat.strongRecOn generalizing session
  rename_i measure ih
  obtain ⟨handler, found, ours⟩ := finishing.serves
  by_cases isDone : handler.phase = .done
  · refine ⟨session, handler, .refl, found, isDone, ?_⟩
    exact finishing.sound.told.replied finishing.isOpen n ⟨handler, found, ours, by
      rw [isDone]
      rfl⟩
  · obtain ⟨event, next, serves, stepped, less⟩ := finishing.progress found isDone
    obtain ⟨later, handler', leads, arrived⟩ :=
      ih _ (measured ▸ less) (finishing.moves serves stepped) rfl
    exact ⟨later, handler', Machine.Leads.head serves stepped leads, arrived⟩

/-- One upload has one handler and gets one result. -/
structure OneReply (requestId : Nat) (session : Session Command Answer) : Prop where
  oneHandler : ∀ n m handler other, session.handlers n = some handler →
    session.handlers m = some other → handler.Uploads requestId → other.Uploads requestId → n = m
  started : session.pending requestId = [] → ∃ n handler, session.handlers n = some handler ∧
    handler.Uploads requestId
  atMostOne : session.results requestId ≤ 1
  replied : session.outboxOpen = true → ∀ n, session.Replied requestId n →
    session.results requestId = 1
  finishes : session.pending requestId = [] → session.outboxOpen = true →
    ∀ n handler, session.handlers n = some handler → handler.Uploads requestId →
      session.loop.holds n = false → ∃ later handler',
        (machine Command Answer).Leads (Event.Serves n) session later ∧
          later.handlers n = some handler' ∧ handler'.phase = .done ∧ later.results requestId = 1

theorem one_reply
    (reachable : (uploading Command Answer requestId).ReachableBy (Patient requestId) session) :
    OneReply requestId session := by
  have sound := sound_of_reachable reachable
  refine ⟨sound.serving.single, ?_, sound.told.atMost, sound.told.replied, ?_⟩
  · intro routed
    by_contra nobody
    have ends := sound.serving.awaited fun n handler found ours => nobody ⟨n, handler, found, ours⟩
    rw [routed] at ends
    exact not_endsFinal_nil ends
  · intro routed isOpen n handler found ours released
    exact Finishing.finishes ⟨sound, routed, released, isOpen, handler, found, ours⟩

def uploadChunk (data : Bytes) (isFinal : Bool) : Message Unit :=
  ⟨7, some (.uploadZipAndExtract ⟨"d", 10, some ⟨data, isFinal⟩⟩)⟩

theorem transfer_two : Transfer 7 [uploadChunk [1] false, uploadChunk [2] true] :=
  ⟨[⟨[1], false⟩], ⟨[2], true⟩, rfl, rfl, by simp⟩

/-- The first handler cannot create its file, replies and is gone before the second chunk. -/
def failsEarly : List (Event Unit) :=
  [.arrive, .read, .route, .hand, .hand, .create 0 (some "no space left on device"), .removeZip 0,
    .reply 0, .remove 0, .arrive, .read, .route, .hand, .hand, .create 1 none, .receive 1,
    .write 1 none, .extract 1 (.error "not a zip"), .removeZip 1, .reply 1]

/-- Two chunks, two handlers, two results. -/
theorem two_replies : ∃ session : Session Unit Unit, (uploading Unit Unit 7).Reachable session ∧
    session.results 7 = 2 ∧ (session.handlers 0).any (fun handler => handler.Uploads 7) = true ∧
      (session.handlers 1).any (fun handler => handler.Uploads 7) = true := by
  obtain ⟨session, reachable, held⟩ := Machine.exists_of_play (uploading Unit Unit 7)
    (fun _ _ => True) (fun _ _ => true)
    (fun session => session.results 7 = 2 ∧
      (session.handlers 0).any (fun handler => handler.Uploads 7) = true ∧
        (session.handlers 1).any (fun handler => handler.Uploads 7) = true)
    (fun _ _ _ => trivial) ⟨_, transfer_two, rfl⟩ failsEarly (by decide +kernel)
  exact ⟨session, reachable, of_decide_eq_true held⟩

/-- The same failure, but the second chunk is routed before the handler is gone. -/
def failsLate : List (Event Unit) :=
  [.arrive, .read, .route, .hand, .hand, .create 0 (some "no space left on device"), .removeZip 0,
    .reply 0, .arrive, .read, .route, .hand, .remove 0]

theorem one_reply_late : ∃ session : Session Unit Unit,
    (uploading Unit Unit 7).ReachableBy (Patient 7) session ∧ session.results 7 = 1 ∧
      session.pending 7 = [] ∧ OneReply 7 session := by
  obtain ⟨session, reachable, held⟩ := Machine.exists_of_play (uploading Unit Unit 7)
    (Patient 7) (fun session event => Patient 7 session event)
    (fun session => session.results 7 = 1 ∧ session.pending 7 = [])
    (fun _ _ => of_decide_eq_true) ⟨_, transfer_two, rfl⟩ failsLate (by decide +kernel)
  obtain ⟨results, routed⟩ := of_decide_eq_true held
  exact ⟨session, reachable, results, routed, one_reply reachable⟩

end Berth.Dispatch
