import Mathlib.Logic.Function.Basic
import Berth.Interleave.Machine
import Berth.Models

/-!
One agent's `Session` connection on the hub: the calls made on its `AgentLink`, the two maps they
register in, and the reader task that hands every `SessionRequest` to `resolve`. Every lock is
taken for one event only; in between, everything else can happen.
-/

namespace Berth.Link

open Interleave

/-- `STREAM_CHANNEL_CAPACITY`. -/
def streamChannelCapacity : Nat := 16

/-- The capacity of the channel `Hub::session` makes for what goes to the agent. -/
def outboundCapacity : Nat := 16

/-- What `next_request_id` hands to the `n`-th call: a `u64` counter that starts at 1. -/
def requestIdOf (n : Nat) : Nat := (n + 1) % 2 ^ 64

theorem requestIdOf_injective {n m : Nat} (below : n < 2 ^ 64) (below' : m < 2 ^ 64)
    (same : requestIdOf n = requestIdOf m) : n = m := by
  simp only [requestIdOf] at same
  omega

/-- `call_streamed`, `call_streaming_reply` or `call_bidi_streamed`. -/
inductive Kind where
  | streamed
  | streamingReply
  | bidiStreamed
  deriving DecidableEq

/-- Whether the call registers in `streams`, rather than in `pending`. -/
def Kind.isStream : Kind → Bool
  | streamed => false
  | streamingReply | bidiStreamed => true

/-- Where the future of a call, or whoever holds the receiver it returned, has got to. -/
inductive Caller (Reply : Type) where
  | registering
  | readingOutbound
  | feeding
  | waiting
  | expired
  | replied (payload : Reply)
  | listening
  | ended
  | failed (err : AppError)
  | dropped

/-- The receiving end of the call's channel still exists. -/
def Caller.hears {Reply : Type} : Caller Reply → Bool
  | registering | readingOutbound | feeding | waiting | listening => true
  | expired | replied _ | ended | failed _ | dropped => false

/-- The loop that sends the payloads of a call. `call_bidi_streamed` spawns it as a task of its
own, the others run it within the call. -/
inductive Feeder (Command : Type) where
  | idle
  | next
  | handing (command : Command)
  | unregisteringPending
  | unregisteringStreams
  | stopped

/-- `inbox` is the content of the call's own channel, `yielded` what its receiver has returned. -/
structure Call (Reply Command : Type) where
  kind : Kind
  requestId : Nat
  caller : Caller Reply
  feeder : Feeder Command
  inbox : List Reply
  yielded : List Reply

/-- The reader task: between two messages, or inside `resolve`. -/
inductive Reader (Reply : Type) where
  | reading
  | routing (requestId : Nat) (payload : Reply)
  | handing (call : Nat) (payload : Reply)
  | unmatched (requestId : Nat) (payload : Reply)
  | finished

/-- `resolve` holds a sender of the call's channel. -/
def Reader.holds {Reply : Type} (n : Nat) : Reader Reply → Bool
  | handing m _ => m = n
  | reading | routing _ _ | unmatched _ _ | finished => false

inductive Outbound where
  | unset
  | attached
  | cleared
  deriving DecidableEq

/-- Calls are numbered in the order they begin. The maps go from a request id to the call whose
sender is registered under it. -/
structure AgentLink (Reply Command : Type) where
  nextRequestId : Nat
  started : Nat
  calls : Nat → Option (Call Reply Command)
  pending : Nat → Option Nat
  streams : Nat → Option Nat
  outbound : Outbound
  wire : List (Nat × Command)
  wireOpen : Bool
  inbound : List (Nat × Option Reply)
  hungUp : Bool
  reader : Reader Reply
  pendingCleared : Bool
  streamsCleared : Bool

inductive Event (Reply Command : Type) where
  | begin (kind : Kind)
  | register (call : Nat)
  | readOutbound (call : Nat)
  | nextPayload (call : Nat) (payload : Option Command)
  | handed (call : Nat)
  | unregister (call : Nat)
  | receive (call : Nat)
  | timeOut (call : Nat)
  | removeExpired (call : Nat)
  | drop (call : Nat)
  | endStream (requestId : Nat)
  | setOutbound
  | transmit
  | closeWire
  | arrive (message : Nat × Option Reply)
  | hangUp
  | read
  | lookUpStream
  | handOver
  | lookUpPending
  | clearPending
  | clearStreams
  | clearOutbound

variable {Reply Command : Type}

namespace AgentLink

variable (link : AgentLink Reply Command) (n : Nat) (call : Call Reply Command)

def setCall : AgentLink Reply Command :=
  { link with calls := Function.update link.calls n (some call) }

def removePending (requestId : Nat) : AgentLink Reply Command :=
  { link with pending := Function.update link.pending requestId none }

def removeStream (requestId : Nat) : AgentLink Reply Command :=
  { link with streams := Function.update link.streams requestId none }

/-- A sender of the call's channel is left: in a map, or in the hands of `resolve`. -/
def hasSender : Bool :=
  link.pending call.requestId = some n ∨ link.streams call.requestId = some n ∨
    link.reader.holds n

def begin (kind : Kind) : AgentLink Reply Command :=
  { link with
    nextRequestId := (link.nextRequestId + 1) % 2 ^ 64
    started := link.started + 1
    calls := Function.update link.calls link.started
      (some ⟨kind, link.nextRequestId, .registering, .idle, [], []⟩) }

def register : Option (AgentLink Reply Command) :=
  match call.caller with
  | .registering =>
      let registered := link.setCall n { call with caller := .readingOutbound }
      if call.kind.isStream then
        some { registered with streams := Function.update link.streams call.requestId (some n) }
      else
        some { registered with pending := Function.update link.pending call.requestId (some n) }
  | _ => none

/-- `outbound`: without a channel the call gives its registration back and fails. -/
def readOutbound : Option (AgentLink Reply Command) :=
  match call.caller with
  | .readingOutbound =>
      match link.outbound with
      | .attached =>
          match call.kind with
          | .streamed | .streamingReply =>
              some (link.setCall n { call with caller := .feeding, feeder := .next })
          | .bidiStreamed =>
              some (link.setCall n { call with caller := .listening, feeder := .next })
      | .unset | .cleared =>
          some (link.setCall n { call with caller := .feeding, feeder := .unregisteringPending })
  | _ => none

def nextPayload (payload : Option Command) : Option (AgentLink Reply Command) :=
  match call.feeder with
  | .next =>
      match payload, call.kind, call.caller with
      | some command, _, _ => some (link.setCall n { call with feeder := .handing command })
      | none, .streamed, .feeding =>
          some (link.setCall n { call with caller := .waiting, feeder := .stopped })
      | none, .bidiStreamed, _ => some (link.setCall n { call with feeder := .stopped })
      | none, _, _ => none
  | _ => none

/-- `send`: waits for a free slot of the outbound channel, fails when the session has let go of it. -/
def handed : Option (AgentLink Reply Command) :=
  match call.feeder with
  | .handing command =>
      if !link.wireOpen then
        some (link.setCall n { call with feeder := .unregisteringPending })
      else if link.wire.length < outboundCapacity then
        let sent := { link with wire := link.wire ++ [(call.requestId, command)] }
        match call.kind, call.caller with
        | .streamingReply, .feeding =>
            some (sent.setCall n { call with caller := .listening, feeder := .stopped })
        | _, _ => some (sent.setCall n { call with feeder := .next })
      else none
  | _ => none

def unregister : Option (AgentLink Reply Command) :=
  match call.feeder with
  | .unregisteringPending =>
      some ((link.removePending call.requestId).setCall n
        { call with feeder := .unregisteringStreams })
  | .unregisteringStreams =>
      let removed := link.removeStream call.requestId
      match call.caller with
      | .feeding =>
          some (removed.setCall n
            { call with caller := .failed .agentUnavailable, feeder := .stopped })
      | _ => some (removed.setCall n { call with feeder := .stopped })
  | _ => none

def receive : Option (AgentLink Reply Command) :=
  match call.caller, call.inbox with
  | .waiting, payload :: rest =>
      some (link.setCall n { call with caller := .replied payload, inbox := rest })
  | .waiting, [] =>
      if link.hasSender n call then none
      else some (link.setCall n { call with caller := .failed .agentUnavailable })
  | .listening, payload :: rest =>
      some (link.setCall n { call with inbox := rest, yielded := call.yielded ++ [payload] })
  | .listening, [] =>
      if link.hasSender n call then none
      else some (link.setCall n { call with caller := .ended })
  | _, _ => none

/-- The timer is looked at only after the reply. -/
def timeOut : Option (AgentLink Reply Command) :=
  match call.caller, call.inbox with
  | .waiting, [] => some (link.setCall n { call with caller := .expired })
  | _, _ => none

def removeExpired : Option (AgentLink Reply Command) :=
  match call.caller with
  | .expired =>
      some ((link.removePending call.requestId).setCall n
        { call with caller := .failed .agentTimeout })
  | _ => none

/-- The future of the call is dropped, or the receiver it returned. Only the task that
`call_bidi_streamed` has spawned goes on. -/
def drop : Option (AgentLink Reply Command) :=
  match call.caller with
  | .listening => some (link.setCall n { call with caller := .dropped })
  | .registering | .readingOutbound | .feeding | .waiting | .expired =>
      some (link.setCall n { call with caller := .dropped, feeder := .stopped })
  | .replied _ | .ended | .failed _ | .dropped => none

def read : Option (AgentLink Reply Command) :=
  match link.reader, link.inbound with
  | .reading, [] => if link.hungUp then some { link with reader := .finished } else none
  | .reading, (_, none) :: rest => some { link with inbound := rest }
  | .reading, (requestId, some payload) :: rest =>
      some { link with reader := .routing requestId payload, inbound := rest }
  | _, _ => none

def lookUpStream : Option (AgentLink Reply Command) :=
  match link.reader with
  | .routing requestId payload =>
      match link.streams requestId with
      | some m => some { link with reader := .handing m payload }
      | none => some { link with reader := .unmatched requestId payload }
  | _ => none

/-- `sender.send(payload).await` on a stream's channel. -/
def handOver : Option (AgentLink Reply Command) :=
  match link.reader with
  | .handing m payload =>
      (link.calls m).bind fun call =>
        let freed := { link with reader := .reading }
        if !call.caller.hears then some freed
        else if call.inbox.length < streamChannelCapacity then
          some (freed.setCall m { call with inbox := call.inbox ++ [payload] })
        else none
  | _ => none

/-- The sender is taken out of the map and used at once, with no wait in between. -/
def lookUpPending : Option (AgentLink Reply Command) :=
  match link.reader with
  | .unmatched requestId payload =>
      let freed := { link with reader := .reading }
      match link.pending requestId with
      | none => some freed
      | some m =>
          (link.calls m).bind fun call =>
            if call.caller.hears then
              some ((freed.removePending requestId).setCall m { call with inbox := [payload] })
            else some (freed.removePending requestId)
  | _ => none

def step : Event Reply Command → Option (AgentLink Reply Command)
  | .begin kind => some (link.begin kind)
  | .register n => (link.calls n).bind fun call => link.register n call
  | .readOutbound n => (link.calls n).bind fun call => link.readOutbound n call
  | .nextPayload n payload => (link.calls n).bind fun call => link.nextPayload n call payload
  | .handed n => (link.calls n).bind fun call => link.handed n call
  | .unregister n => (link.calls n).bind fun call => link.unregister n call
  | .receive n => (link.calls n).bind fun call => link.receive n call
  | .timeOut n => (link.calls n).bind fun call => link.timeOut n call
  | .removeExpired n => (link.calls n).bind fun call => link.removeExpired n call
  | .drop n => (link.calls n).bind fun call => link.drop n call
  | .endStream requestId => some (link.removeStream requestId)
  | .setOutbound =>
      if link.outbound = .unset then some { link with outbound := .attached } else none
  | .transmit => if link.wireOpen then some { link with wire := link.wire.tail } else none
  | .closeWire => some { link with wireOpen := false, wire := [] }
  | .arrive message =>
      if link.hungUp then none else some { link with inbound := link.inbound ++ [message] }
  | .hangUp => some { link with hungUp := true }
  | .read => link.read
  | .lookUpStream => link.lookUpStream
  | .handOver => link.handOver
  | .lookUpPending => link.lookUpPending
  -- `fail_all_pending` takes the three locks one after the other.
  | .clearPending => some { link with pending := fun _ => none, pendingCleared := true }
  | .clearStreams =>
      if link.pendingCleared then
        some { link with streams := fun _ => none, streamsCleared := true }
      else none
  | .clearOutbound => if link.streamsCleared then some { link with outbound := .cleared } else none

/-- `AgentLink::new`. -/
def new : AgentLink Reply Command where
  nextRequestId := 1
  started := 0
  calls := fun _ => none
  pending := fun _ => none
  streams := fun _ => none
  outbound := .unset
  wire := []
  wireOpen := true
  inbound := []
  hungUp := false
  reader := .reading
  pendingCleared := false
  streamsCleared := false

section Fields

variable {link : AgentLink Reply Command} {n m requestId other : Nat} {call : Call Reply Command}

@[simp, grind =] theorem setCall_calls :
    (link.setCall n call).calls m = if m = n then some call else link.calls m := by
  simp [setCall, Function.update_apply]

@[simp] theorem setCall_pending : (link.setCall n call).pending = link.pending := rfl
@[simp] theorem setCall_streams : (link.setCall n call).streams = link.streams := rfl
@[grind =] theorem setCall_pending_apply :
    (link.setCall n call).pending other = link.pending other := rfl
@[grind =] theorem setCall_streams_apply :
    (link.setCall n call).streams other = link.streams other := rfl
@[simp, grind =] theorem setCall_reader : (link.setCall n call).reader = link.reader := rfl
@[simp, grind =] theorem setCall_started : (link.setCall n call).started = link.started := rfl
@[simp, grind =] theorem setCall_nextRequestId :
    (link.setCall n call).nextRequestId = link.nextRequestId := rfl
@[simp, grind =] theorem setCall_inbound : (link.setCall n call).inbound = link.inbound := rfl
@[simp, grind =] theorem setCall_outbound : (link.setCall n call).outbound = link.outbound := rfl

@[simp, grind =] theorem setCall_pendingCleared :
    (link.setCall n call).pendingCleared = link.pendingCleared := rfl
@[simp, grind =] theorem setCall_streamsCleared :
    (link.setCall n call).streamsCleared = link.streamsCleared := rfl

@[simp, grind =] theorem removePending_pending :
    (link.removePending requestId).pending other =
      if other = requestId then none else link.pending other := by
  simp [removePending, Function.update_apply]

@[simp] theorem removePending_calls : (link.removePending requestId).calls = link.calls := rfl
@[simp] theorem removePending_streams :
    (link.removePending requestId).streams = link.streams := rfl
@[grind =] theorem removePending_calls_apply :
    (link.removePending requestId).calls n = link.calls n := rfl
@[grind =] theorem removePending_streams_apply :
    (link.removePending requestId).streams other = link.streams other := rfl
@[simp, grind =] theorem removePending_reader :
    (link.removePending requestId).reader = link.reader := rfl
@[simp, grind =] theorem removePending_started :
    (link.removePending requestId).started = link.started := rfl
@[simp, grind =] theorem removePending_nextRequestId :
    (link.removePending requestId).nextRequestId = link.nextRequestId := rfl

@[simp, grind =] theorem removePending_outbound :
    (link.removePending requestId).outbound = link.outbound := rfl
@[simp, grind =] theorem removePending_pendingCleared :
    (link.removePending requestId).pendingCleared = link.pendingCleared := rfl
@[simp, grind =] theorem removePending_streamsCleared :
    (link.removePending requestId).streamsCleared = link.streamsCleared := rfl

@[simp, grind =] theorem removeStream_streams :
    (link.removeStream requestId).streams other =
      if other = requestId then none else link.streams other := by
  simp [removeStream, Function.update_apply]

@[simp] theorem removeStream_calls : (link.removeStream requestId).calls = link.calls := rfl
@[simp] theorem removeStream_pending :
    (link.removeStream requestId).pending = link.pending := rfl
@[grind =] theorem removeStream_calls_apply :
    (link.removeStream requestId).calls n = link.calls n := rfl
@[grind =] theorem removeStream_pending_apply :
    (link.removeStream requestId).pending other = link.pending other := rfl
@[simp, grind =] theorem removeStream_outbound :
    (link.removeStream requestId).outbound = link.outbound := rfl
@[simp, grind =] theorem removeStream_pendingCleared :
    (link.removeStream requestId).pendingCleared = link.pendingCleared := rfl
@[simp, grind =] theorem removeStream_streamsCleared :
    (link.removeStream requestId).streamsCleared = link.streamsCleared := rfl

end Fields

end AgentLink

abbrev machine (Reply Command : Type) : Machine (AgentLink Reply Command) (Event Reply Command) where
  initial link := link = AgentLink.new
  step := AgentLink.step

theorem eq_new {link : AgentLink Reply Command} (isInitial : (machine Reply Command).initial link) :
    link = AgentLink.new := isInitial

end Berth.Link
