import Mathlib.Logic.Function.Basic
import Berth.Interleave.Machine
import Berth.Session.Messages

/-!
One `Session` on the agent: the dispatch loop of `run_session`, the two maps of transfers in
flight, and the handler tasks. A transfer's chunks pass through a channel of its own; channels are
numbered as they are made, and the handler that receives from one has its number.
-/

namespace Berth.Dispatch

open Interleave

/-- The capacity of a transfer's channel, and of the channel that leads to the hub. -/
def channelCapacity : Nat := 16

/-- The maps `in_flight_uploads` and `in_flight_relays`. -/
inductive Family where
  | uploads
  | relays
  deriving DecidableEq

/-- `session_response::Payload`; every other request has a task of its own. -/
inductive Payload (Command : Type) where
  | uploadZipAndExtract (req : UploadZipAndExtractRequest)
  | relayHttpRequest (part : Option RelayHttpRequest)
  | other (command : Command)
  deriving DecidableEq

structure Message (Command : Type) where
  requestId : Nat
  payload : Option (Payload Command)
  deriving DecidableEq

/-- What handlers send to the hub: `UploadZipAndExtractResult`, or anything else. -/
inductive Reply (Answer : Type) where
  | uploadZipAndExtractResult (result : Except AgentError Nat)
  | other (answer : Answer)

inductive Task where
  | upload (deploymentId : String) (maxUncompressedBytes : Nat)
  | relay (head : RelayHttpRequestHead)
  deriving DecidableEq

def Task.family : Task → Family
  | upload _ _ => .uploads
  | relay _ => .relays

/-- The receiving end of the transfer's channel: still read from, only held, or dropped. -/
inductive Receiver where
  | reading
  | unread
  | dropped
  deriving DecidableEq

/-- Where the handler has got to: an upload goes through `receive_zip`, the extraction, the
removal of the temporary zip and its reply; a relayed request is up to its container. -/
inductive Phase where
  | starting
  | creating
  | receiving
  | writing (chunk : Chunk)
  | extracting
  | cleaning (result : Except String Nat)
  | replying (result : Except String Nat)
  | relaying
  | removing
  | done

structure Handler where
  task : Task
  requestId : Nat
  queue : List Chunk
  receiver : Receiver
  phase : Phase

def Handler.hears (handler : Handler) : Bool := handler.receiver ≠ .dropped

/-- The task runs, and holds the map it has to remove itself from. -/
def Handler.runs (handler : Handler) : Bool :=
  match handler.phase with
  | .starting | .done => false
  | .creating | .receiving | .writing _ | .extracting | .cleaning _ | .replying _ | .relaying
  | .removing => true

inductive Loop (Command : Type) where
  | reading
  | routing (requestId : Nat) (payload : Payload Command)
  | handing (n : Nat) (chunk : Chunk)
  | starting (n : Nat) (chunk : Option Chunk)
  | returned

/-- `coming` is what the hub is still going to send. The tasks of the other requests are only
counted off in `spawned`; `zips` are the temporary files, by deployment id. -/
structure Session (Command Answer : Type) where
  coming : List (Message Command)
  inbound : List (Message Command)
  ended : Bool
  loop : Loop Command
  started : Nat
  handlers : Nat → Option Handler
  inFlight : Family → Nat → Option Nat
  spawned : List (Nat × Command)
  zips : String → Bool
  outbox : List (Nat × Reply Answer)
  outboxOpen : Bool
  delivered : List (Nat × Reply Answer)

/-- Where an event names a failure, it is the message of the error. -/
inductive Event (Answer : Type) where
  | arrive
  | cut (kept : Nat)
  | read
  | route
  | hand
  | create (n : Nat) (failure : Option String)
  | receive (n : Nat)
  | write (n : Nat) (failure : Option String)
  | extract (n : Nat) (result : Except String Nat)
  | removeZip (n : Nat)
  | reply (n : Nat)
  | stopReading (n : Nat)
  | dropBody (n : Nat)
  | respond (n : Nat) (answer : Answer)
  | finish (n : Nat)
  | remove (n : Nat)
  | answer (requestId : Nat) (answer : Answer)
  | transmit
  | closeOutbox

variable {Command Answer : Type}

/-- The loop has a sender of the channel in its hands. -/
def Loop.holds (n : Nat) : Loop Command → Bool
  | handing m _ | starting m _ => m = n
  | reading | routing _ _ | returned => false

def Loop.hasReturned : Loop Command → Bool
  | returned => true
  | reading | routing _ _ | handing _ _ | starting _ _ => false

/-- `upload_zip_and_extract_result::Result`. -/
def uploadResult : Except String Nat → Except AgentError Nat
  | .ok size => .ok size
  | .error msg => .error ⟨.commandFailed, msg⟩

def closedEarly : String := "hub closed the upload stream before sending a final chunk"

namespace Session

variable (session : Session Command Answer) (n : Nat) (handler : Handler)

def setHandler : Session Command Answer :=
  { session with handlers := Function.update session.handlers n (some handler) }

def setInFlight (family : Family) (requestId : Nat) (entry : Option Nat) :
    Session Command Answer :=
  { session with
    inFlight := Function.update session.inFlight family
      (Function.update (session.inFlight family) requestId entry) }

/-- The map exists while the loop or one of its tasks holds it. -/
def mapAlive (family : Family) : Bool :=
  !session.loop.hasReturned ||
    (List.range session.started).any fun m =>
      (session.handlers m).any fun other => other.task.family = family ∧ other.runs

/-- A sender of the channel is left: in a map, or in the hands of the loop. -/
def hasSender : Bool :=
  session.mapAlive handler.task.family ∧
      session.inFlight handler.task.family handler.requestId = some n ∨ session.loop.holds n

/-- A channel is made, registered, and its handler is about to get the receiver. -/
def openChannel (requestId : Nat) (task : Task) (phase : Phase) : Session Command Answer :=
  { (session.setHandler session.started ⟨task, requestId, [], .reading, phase⟩).setInFlight
      task.family requestId (some session.started) with
    started := session.started + 1 }

def read : Option (Session Command Answer) :=
  match session.loop, session.inbound with
  | .reading, [] => if session.ended then some { session with loop := .returned } else none
  | .reading, ⟨_, none⟩ :: rest => some { session with inbound := rest }
  | .reading, ⟨requestId, some payload⟩ :: rest =>
      some { session with inbound := rest, loop := .routing requestId payload }
  | _, _ => none

/-- `route_upload_chunk`, up to its first `send`. -/
def routeUploadChunk (requestId : Nat) (req : UploadZipAndExtractRequest) :
    Session Command Answer :=
  match session.inFlight .uploads requestId with
  | some m =>
      match req.chunk with
      | some chunk => { session with loop := .handing m chunk }
      | none => { session with loop := .reading }
  | none =>
      { session.openChannel requestId (.upload req.deploymentId req.maxUncompressedBytes) .starting with
        loop := .starting session.started req.chunk }

/-- `route_relay_message`, up to its `send`. -/
def routeRelayMessage (requestId : Nat) : Option RelayHttpRequest → Session Command Answer
  | some (.head head) =>
      { session.openChannel requestId (.relay head) .relaying with loop := .reading }
  | some (.bodyChunk chunk) =>
      match session.inFlight .relays requestId with
      | some m => { session with loop := .handing m chunk }
      | none => { session with loop := .reading }
  | none => { session with loop := .reading }

def route : Option (Session Command Answer) :=
  match session.loop with
  | .routing requestId (.uploadZipAndExtract req) => some (session.routeUploadChunk requestId req)
  | .routing requestId (.relayHttpRequest part) => some (session.routeRelayMessage requestId part)
  | .routing requestId (.other command) =>
      some { session with
        loop := .reading, spawned := session.spawned ++ [(requestId, command)] }
  | _ => none

/-- `sender.send(chunk).await`, and for a new upload the start of its task. -/
def hand : Option (Session Command Answer) :=
  match session.loop with
  | .handing m chunk =>
      (session.handlers m).bind fun handler =>
        let freed := { session with loop := .reading }
        if !handler.hears then some freed
        else if handler.queue.length < channelCapacity then
          some (freed.setHandler m { handler with queue := handler.queue ++ [chunk] })
        else none
  | .starting m (some chunk) =>
      (session.handlers m).bind fun handler =>
        if handler.queue.length < channelCapacity then
          some ({ session with loop := .starting m none }.setHandler m
            { handler with queue := handler.queue ++ [chunk] })
        else none
  | .starting m none =>
      (session.handlers m).bind fun handler =>
        some ({ session with loop := .reading }.setHandler m { handler with phase := .creating })
  | _ => none

/-- `File::create` at the upload's temporary path. -/
def create (failure : Option String) : Option (Session Command Answer) :=
  match handler.phase, handler.task, failure with
  | .creating, .upload deploymentId _, none =>
      some { session.setHandler n { handler with phase := .receiving } with
        zips := Function.update session.zips deploymentId true }
  | .creating, .upload _ _, some msg =>
      some (session.setHandler n { handler with receiver := .unread, phase := .cleaning (.error msg) })
  | _, _, _ => none

/-- `chunk_rx.recv().await`, of `receive_zip`, `request_body` or an upgraded connection. -/
def receive : Option (Session Command Answer) :=
  match handler.task, handler.queue with
  | .upload _ _, chunk :: rest =>
      match handler.phase with
      | .receiving =>
          some (session.setHandler n { handler with queue := rest, phase := .writing chunk })
      | _ => none
  | .upload _ _, [] =>
      match handler.phase with
      | .receiving =>
          if session.hasSender n handler then none
          else some (session.setHandler n
            { handler with receiver := .unread, phase := .cleaning (.error closedEarly) })
      | _ => none
  | .relay _, chunk :: rest =>
      match handler.receiver with
      | .reading =>
          some (session.setHandler n
            { handler with queue := rest, receiver := if chunk.isFinal then .unread else .reading })
      | _ => none
  | .relay _, [] =>
      match handler.receiver with
      | .reading =>
          if session.hasSender n handler then none
          else some (session.setHandler n { handler with receiver := .dropped })
      | _ => none

def write (failure : Option String) : Option (Session Command Answer) :=
  match handler.phase, failure with
  | .writing chunk, none =>
      if chunk.isFinal then
        some (session.setHandler n { handler with receiver := .unread, phase := .extracting })
      else some (session.setHandler n { handler with phase := .receiving })
  | .writing _, some msg =>
      some (session.setHandler n { handler with receiver := .unread, phase := .cleaning (.error msg) })
  | _, _ => none

def extract (result : Except String Nat) : Option (Session Command Answer) :=
  match handler.phase with
  | .extracting => some (session.setHandler n { handler with phase := .cleaning result })
  | _ => none

def removeZip : Option (Session Command Answer) :=
  match handler.phase, handler.task with
  | .cleaning result, .upload deploymentId _ =>
      some { session.setHandler n { handler with phase := .replying result } with
        zips := Function.update session.zips deploymentId false }
  | _, _ => none

/-- `send`: waits for a free slot, and gives the message up when the session is gone. -/
def post (requestId : Nat) (reply : Reply Answer) : Option (Session Command Answer) :=
  if !session.outboxOpen then some session
  else if session.outbox.length < channelCapacity then
    some { session with outbox := session.outbox ++ [(requestId, reply)] }
  else none

/-- The last act of `upload_zip_and_extract`, which then drops its receiver. -/
def reply : Option (Session Command Answer) :=
  match handler.phase with
  | .replying result =>
      (session.post handler.requestId (.uploadZipAndExtractResult (uploadResult result))).map
        fun posted => posted.setHandler n { handler with receiver := .dropped, phase := .removing }
  | _ => none

/-- An upgraded connection can no longer be written to. -/
def stopReading : Option (Session Command Answer) :=
  match handler.task, handler.receiver with
  | .relay _, .reading => some (session.setHandler n { handler with receiver := .unread })
  | _, _ => none

/-- The request's body is dropped with its connection. -/
def dropBody : Option (Session Command Answer) :=
  match handler.task with
  | .relay _ => some (session.setHandler n { handler with receiver := .dropped })
  | .upload _ _ => none

def respond (answer : Answer) : Option (Session Command Answer) :=
  match handler.task, handler.phase with
  | .relay _, .relaying => session.post handler.requestId (.other answer)
  | _, _ => none

/-- `serve_relayed_request` has returned. -/
def finish : Option (Session Command Answer) :=
  match handler.task, handler.phase with
  | .relay _, .relaying => some (session.setHandler n { handler with phase := .removing })
  | _, _ => none

/-- `in_flight.lock().await.remove(&request_id)`, the end of the task. -/
def remove : Option (Session Command Answer) :=
  match handler.phase with
  | .removing =>
      some ((session.setHandler n { handler with phase := .done }).setInFlight
        handler.task.family handler.requestId none)
  | _ => none

def step : Event Answer → Option (Session Command Answer)
  | .arrive =>
      match session.coming with
      | [] => none
      | message :: rest =>
          if session.ended then none
          else some { session with coming := rest, inbound := session.inbound ++ [message] }
  | .cut kept => some { session with ended := true, inbound := session.inbound.take kept }
  | .read => session.read
  | .route => session.route
  | .hand => session.hand
  | .create n failure => (session.handlers n).bind fun handler => session.create n handler failure
  | .receive n => (session.handlers n).bind fun handler => session.receive n handler
  | .write n failure => (session.handlers n).bind fun handler => session.write n handler failure
  | .extract n result => (session.handlers n).bind fun handler => session.extract n handler result
  | .removeZip n => (session.handlers n).bind fun handler => session.removeZip n handler
  | .reply n => (session.handlers n).bind fun handler => session.reply n handler
  | .stopReading n => (session.handlers n).bind fun handler => session.stopReading n handler
  | .dropBody n => (session.handlers n).bind fun handler => session.dropBody n handler
  | .respond n answer => (session.handlers n).bind fun handler => session.respond handler answer
  | .finish n => (session.handlers n).bind fun handler => session.finish n handler
  | .remove n => (session.handlers n).bind fun handler => session.remove n handler
  | .answer requestId answer => session.post requestId (.other answer)
  | .transmit =>
      match session.outbox with
      | [] => none
      | message :: rest =>
          some { session with outbox := rest, delivered := session.delivered ++ [message] }
  | .closeOutbox => some { session with outboxOpen := false, outbox := [] }

/-- The session as it opens, with all that the hub is going to send. -/
def new (coming : List (Message Command)) : Session Command Answer where
  coming := coming
  inbound := []
  ended := false
  loop := .reading
  started := 0
  handlers := fun _ => none
  inFlight := fun _ _ => none
  spawned := []
  zips := fun _ => false
  outbox := []
  outboxOpen := true
  delivered := []

section Fields

variable {session : Session Command Answer} {n m : Nat} {handler : Handler}
variable {family other : Family} {requestId id : Nat} {entry : Option Nat}

@[simp, grind =] theorem setHandler_handlers :
    (session.setHandler n handler).handlers m =
      if m = n then some handler else session.handlers m := by
  simp [setHandler, Function.update_apply]

@[simp, grind =] theorem setHandler_coming :
    (session.setHandler n handler).coming = session.coming := rfl
@[simp, grind =] theorem setHandler_inbound :
    (session.setHandler n handler).inbound = session.inbound := rfl
@[simp, grind =] theorem setHandler_loop :
    (session.setHandler n handler).loop = session.loop := rfl
@[simp, grind =] theorem setHandler_started :
    (session.setHandler n handler).started = session.started := rfl
@[simp] theorem setHandler_inFlight :
    (session.setHandler n handler).inFlight = session.inFlight := rfl
@[grind =] theorem setHandler_inFlight_apply :
    (session.setHandler n handler).inFlight other id = session.inFlight other id := rfl
@[simp, grind =] theorem setHandler_outbox :
    (session.setHandler n handler).outbox = session.outbox := rfl
@[simp, grind =] theorem setHandler_outboxOpen :
    (session.setHandler n handler).outboxOpen = session.outboxOpen := rfl
@[simp, grind =] theorem setHandler_delivered :
    (session.setHandler n handler).delivered = session.delivered := rfl
@[simp] theorem setHandler_zips : (session.setHandler n handler).zips = session.zips := rfl
@[grind =] theorem setHandler_zips_apply {deploymentId : String} :
    (session.setHandler n handler).zips deploymentId = session.zips deploymentId := rfl
@[simp, grind =] theorem setHandler_spawned :
    (session.setHandler n handler).spawned = session.spawned := rfl

@[simp, grind =] theorem setInFlight_inFlight :
    (session.setInFlight family requestId entry).inFlight other id =
      if other = family ∧ id = requestId then entry else session.inFlight other id := by
  by_cases sameFamily : other = family
  · subst sameFamily
    simp [setInFlight, Function.update_apply]
  · simp [setInFlight, sameFamily]

@[simp] theorem setInFlight_handlers :
    (session.setInFlight family requestId entry).handlers = session.handlers := rfl
@[grind =] theorem setInFlight_handlers_apply :
    (session.setInFlight family requestId entry).handlers m = session.handlers m := rfl
@[simp, grind =] theorem setInFlight_coming :
    (session.setInFlight family requestId entry).coming = session.coming := rfl
@[simp, grind =] theorem setInFlight_inbound :
    (session.setInFlight family requestId entry).inbound = session.inbound := rfl
@[simp, grind =] theorem setInFlight_loop :
    (session.setInFlight family requestId entry).loop = session.loop := rfl
@[simp, grind =] theorem setInFlight_started :
    (session.setInFlight family requestId entry).started = session.started := rfl
@[simp, grind =] theorem setInFlight_outbox :
    (session.setInFlight family requestId entry).outbox = session.outbox := rfl
@[simp, grind =] theorem setInFlight_outboxOpen :
    (session.setInFlight family requestId entry).outboxOpen = session.outboxOpen := rfl
@[simp, grind =] theorem setInFlight_delivered :
    (session.setInFlight family requestId entry).delivered = session.delivered := rfl
@[simp] theorem setInFlight_zips :
    (session.setInFlight family requestId entry).zips = session.zips := rfl
@[grind =] theorem setInFlight_zips_apply {deploymentId : String} :
    (session.setInFlight family requestId entry).zips deploymentId =
      session.zips deploymentId := rfl

end Fields

end Session

abbrev machine (Command Answer : Type) : Machine (Session Command Answer) (Event Answer) where
  initial := fun session => ∃ coming, session = Session.new coming
  step := Session.step

end Berth.Dispatch
