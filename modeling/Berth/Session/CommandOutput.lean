import Berth.Api
import Berth.Session.Messages
import Berth.Interleave.Machine

/-!
One request whose reply is streamed as `CommandOutput`: the start of a run-mode container, or a
build command. On the agent `forward_logs`, the forwarder of `stream_command` and the handler pass
the output on; on the hub the session's reader and `drain_command_output` do.
-/

namespace Berth.Streamed

open Interleave

inductive Output where
  | log (chunk : Chunk)
  | result (result : Option CommandResult)
  deriving DecidableEq

/-- The `output` of a `CommandOutput`. -/
abbrev CommandOutput : Type := Option Output

/-- `session_request::Payload`. -/
inductive Payload where
  | startRunContainerResult (output : CommandOutput)
  | runBuildCommandResult (output : CommandOutput)
  | other
  deriving DecidableEq

structure SessionRequest where
  requestId : Nat
  payload : Option Payload
  deriving DecidableEq

inductive Command where
  | startRunContainer
  | runBuildCommand
  deriving DecidableEq

def Command.wrap : Command → CommandOutput → Payload
  | startRunContainer => .startRunContainerResult
  | runBuildCommand => .runBuildCommandResult

def Command.extract : Command → Payload → Option CommandOutput
  | startRunContainer, .startRunContainerResult output => some output
  | runBuildCommand, .runBuildCommandResult output => some output
  | _, _ => none

inductive StartError where
  | unavailable (msg : String)
  | startFailed (msg : String)
  | commandFailed (msg : String)
  deriving DecidableEq

abbrev Outcome : Type := Except StartError Unit

def startErrorToCommandResult : StartError → CommandResult
  | .unavailable msg => .error ⟨.unavailable, msg⟩
  | .startFailed msg => .error ⟨.startFailed, msg⟩
  | .commandFailed msg => .error ⟨.commandFailed, msg⟩

def finalResult : Outcome → CommandResult
  | .ok () => .ok ()
  | .error err => startErrorToCommandResult err

/-- What the agent sends for a chunk of output, and at last for the outcome. -/
def Command.log (command : Command) (data : Bytes) : Payload :=
  command.wrap (some (.log ⟨data, false⟩))

def Command.final (command : Command) (outcome : Outcome) : Payload :=
  command.wrap (some (.result (some (finalResult outcome))))

/-- What becomes of `wait_container`, within the command's timeout or not. -/
inductive Waited where
  | exited
  | exitedWith (code : Int) (error : String)
  | failed (message : String)
  | timedOut
  deriving DecidableEq

def Waited.result (timeoutSecs : Nat) : Waited → Outcome
  | exited => .ok ()
  | exitedWith code error =>
      .error (.commandFailed ("command exited " ++ toString code ++ ": " ++ error))
  | failed message => .error (.startFailed message)
  | timedOut =>
      .error (.commandFailed ("command timed out after " ++ toString timeoutSecs ++ "s"))

/-- Where the handler has got to. It holds the log sink in `starting`; `creating` is what `start`
still does after an install command; `done` says whether its last message went out. -/
inductive Handler where
  | parsing
  | starting
  | waiting
  | joining (result : Outcome)
  | creating
  | forwarding (result : Outcome)
  | replying (result : Outcome)
  | done (replied : Bool)
  deriving DecidableEq

/-- `forward_logs`, or the forwarder: between two chunks, or sending one. -/
inductive Relay where
  | idle
  | receiving
  | sending (chunk : Bytes)
  | ended
  deriving DecidableEq

def Relay.hand : Relay → List Bytes
  | sending chunk => [chunk]
  | idle | receiving | ended => []

def Relay.isActive : Relay → Bool
  | receiving | sending _ => true
  | idle | ended => false

def logCapacity : Nat := 64

/-- The capacity of the channel to the hub, and `STREAM_CHANNEL_CAPACITY`. -/
def channelCapacity : Nat := 16

/-- The agent's side of the request. Of the past there are the chunks that `forward_logs` has read,
the outcome of `run`, and the messages of the request that have gone into the channel. -/
structure AgentSide where
  requestId : Nat
  command : Command
  timeoutSecs : Nat
  handler : Handler
  forwardLogs : Relay
  logChannel : List Bytes
  forwarder : Relay
  outbox : List SessionRequest
  outboxOpen : Bool
  emitted : List Bytes
  outcome : Option Outcome
  sent : List Payload
  deriving DecidableEq

/-- `post` is a message of another request's task. -/
inductive AgentEvent where
  | parse (failure : Option String)
  | settle (result : Outcome)
  | launch
  | wait (waited : Waited)
  | join (timedOut : Bool)
  | create (result : Outcome)
  | awaitForwarder
  | reply
  | emit (chunk : Bytes)
  | endLogs
  | sink
  | receive
  | forward
  | post (message : SessionRequest)
  deriving DecidableEq

namespace AgentSide

variable (x : AgentSide)

/-- The log channel has a sender. -/
def hasSink : Bool := decide (x.handler = .starting) || x.forwardLogs.isActive

/-- `run` has returned. -/
def returns (result : Outcome) : AgentSide :=
  { x with handler := .forwarding result, outcome := some result }

def say (payload : Payload) : AgentSide :=
  { x with
    outbox := x.outbox ++ [⟨x.requestId, some payload⟩]
    sent := x.sent ++ [payload] }

def step : AgentEvent → Option AgentSide
  | .parse failure =>
      match x.handler, failure with
      | .parsing, none => some { x with handler := .starting, forwarder := .receiving }
      | .parsing, some msg =>
          some { x with
            handler := .replying (.error (.startFailed msg))
            outcome := some (.error (.startFailed msg)) }
      | _, _ => none
  | .settle result =>
      match x.handler, x.command, result with
      | .starting, .runBuildCommand, .ok () => none
      | .starting, _, _ => some (x.returns result)
      | _, _, _ => none
  | .launch =>
      if x.handler = .starting then some { x with handler := .waiting, forwardLogs := .receiving }
      else none
  | .wait waited =>
      if x.handler = .waiting then some { x with handler := .joining (waited.result x.timeoutSecs) }
      else none
  | .join timedOut =>
      match x.handler, x.command with
      | .joining result, command =>
          if x.forwardLogs = .ended ∨ timedOut = true then
            match command, result with
            | .startRunContainer, .ok () => some { x with handler := .creating }
            | _, _ => some (x.returns result)
          else none
      | _, _ => none
  | .create result => if x.handler = .creating then some (x.returns result) else none
  | .awaitForwarder =>
      match x.handler with
      | .forwarding result =>
          if x.forwarder = .ended then some { x with handler := .replying result } else none
      | _ => none
  | .reply =>
      match x.handler with
      | .replying result =>
          if x.outboxOpen = false then some { x with handler := .done false }
          else if x.outbox.length < channelCapacity then
            some ({ x with handler := .done true }.say (x.command.final result))
          else none
      | _ => none
  | .emit chunk =>
      if x.forwardLogs = .receiving then
        some { x with forwardLogs := .sending chunk, emitted := x.emitted ++ [chunk] }
      else none
  | .endLogs => if x.forwardLogs = .receiving then some { x with forwardLogs := .ended } else none
  | .sink =>
      match x.forwardLogs with
      | .sending chunk =>
          if x.forwarder = .ended then some { x with forwardLogs := .ended }
          else if x.logChannel.length < logCapacity then
            some { x with forwardLogs := .receiving, logChannel := x.logChannel ++ [chunk] }
          else none
      | _ => none
  | .receive =>
      match x.forwarder, x.logChannel with
      | .receiving, chunk :: rest => some { x with forwarder := .sending chunk, logChannel := rest }
      | .receiving, [] => if x.hasSink then none else some { x with forwarder := .ended }
      | _, _ => none
  | .forward =>
      match x.forwarder with
      | .sending chunk =>
          if x.outboxOpen = false then some { x with forwarder := .ended, logChannel := [] }
          else if x.outbox.length < channelCapacity then
            some ({ x with forwarder := .receiving }.say (x.command.log chunk))
          else none
      | _ => none
  | .post message =>
      if message.requestId ≠ x.requestId ∧ x.outboxOpen = true ∧
          x.outbox.length < channelCapacity then
        some { x with outbox := x.outbox ++ [message] }
      else none

/-- The request as the agent takes it. -/
def start (requestId : Nat) (command : Command) (timeoutSecs : Nat) (outbox : List SessionRequest) :
    AgentSide where
  requestId := requestId
  command := command
  timeoutSecs := timeoutSecs
  handler := .parsing
  forwardLogs := .idle
  logChannel := []
  forwarder := .idle
  outbox := outbox
  outboxOpen := true
  emitted := []
  outcome := none
  sent := []

end AgentSide

/-- The session's reader, which runs `resolve`. -/
inductive Reader where
  | reading
  | handing (payload : Payload)
  | ended
  deriving DecidableEq

def Reader.hand : Reader → List Payload
  | handing payload => [payload]
  | reading | ended => []

/-- `drain_command_output`: its loop, `end_stream`, and its return. -/
inductive Drain where
  | receiving
  | ending (result : Option (Option CommandResult))
  | returned (result : AppResult Unit)

def Drain.isReceiving : Drain → Bool
  | receiving => true
  | ending _ | returned _ => false

def Drain.hasReturned : Drain → Bool
  | returned _ => true
  | receiving | ending _ => false

def commandResultToAppResult : Option CommandResult → AppResult Unit
  | some (.ok ()) => .ok ()
  | some (.error err) => .error (agentError err)
  | none => .error (.agentError "agent sent an empty command result")

def closedStream : AppError := .agentError "agent closed the stream without a final result"

def drained : Option (Option CommandResult) → AppResult Unit
  | none => .error closedStream
  | some result => commandResultToAppResult result

/-- The hub's side of the request; `pump` says whether there is a `LogPump`, and `heard` is what
has been received. -/
structure HubSide where
  requestId : Nat
  command : Command
  reader : Reader
  registered : Bool
  inbox : List Payload
  drain : Drain
  pump : Bool
  pushed : List Bytes
  heard : List Payload

namespace HubSide

variable (x : HubSide)

/-- `resolve`, up to its `send`. -/
def resolve (message : SessionRequest) : Reader :=
  match message.payload with
  | some payload =>
      if message.requestId = x.requestId ∧ x.registered = true then .handing payload else .reading
  | none => .reading

/-- `sender.send(payload).await`. -/
def hand : Option HubSide :=
  match x.reader with
  | .handing payload =>
      if x.drain.hasReturned then some { x with reader := .reading }
      else if x.inbox.length < channelCapacity then
        some { x with reader := .reading, inbox := x.inbox ++ [payload] }
      else none
  | .reading | .ended => none

/-- What `drain_command_output` does with a payload. -/
def take (payload : Payload) (rest : List Payload) : HubSide :=
  match x.command.extract payload with
  | some (some (.log chunk)) =>
      { x with
        inbox := rest
        heard := x.heard ++ [payload]
        pushed := if x.pump then x.pushed ++ [chunk.data] else x.pushed }
  | some (some (.result result)) =>
      { x with inbox := rest, heard := x.heard ++ [payload], drain := .ending (some result) }
  | some none | none =>
      { x with inbox := rest, heard := x.heard ++ [payload], drain := .ending none }

def receive : Option HubSide :=
  match x.drain, x.inbox with
  | .receiving, payload :: rest => some (x.take payload rest)
  | .receiving, [] =>
      if x.registered = true ∨ x.reader.hand ≠ [] then none else some { x with drain := .ending none }
  | _, _ => none

def endStream : Option HubSide :=
  match x.drain with
  | .ending result => some { x with registered := false, drain := .returned (drained result) }
  | .receiving | .returned _ => none

/-- The stream is registered, and the request sent. -/
def start (requestId : Nat) (command : Command) (pump : Bool) : HubSide where
  requestId := requestId
  command := command
  reader := .reading
  registered := true
  inbox := []
  drain := .receiving
  pump := pump
  pushed := []
  heard := []

end HubSide

/-- `wire` is what is on its way to the hub; a session that is over brings nothing more. -/
structure State where
  agent : AgentSide
  wire : List SessionRequest
  broken : Bool
  hub : HubSide

inductive Event where
  | agent (event : AgentEvent)
  | closeOutbox
  | transmit
  | cut (kept : Nat)
  | read
  | endReading
  | hand
  | receive
  | endStream
  deriving DecidableEq

namespace State

variable (x : State)

def step : Event → Option State
  | .agent event => (x.agent.step event).map fun agent => { x with agent := agent }
  | .closeOutbox =>
      some { x with agent := { x.agent with outbox := [], outboxOpen := false }, broken := true }
  | .transmit =>
      match x.agent.outbox with
      | message :: rest =>
          if x.broken then none
          else some { x with agent := { x.agent with outbox := rest }, wire := x.wire ++ [message] }
      | [] => none
  | .cut kept => some { x with wire := x.wire.take kept, broken := true }
  | .read =>
      match x.hub.reader, x.wire with
      | .reading, message :: rest =>
          some { x with wire := rest, hub := { x.hub with reader := x.hub.resolve message } }
      | _, _ => none
  | .endReading =>
      if x.hub.reader = .reading ∧ x.wire = [] ∧ x.broken = true then
        some { x with hub := { x.hub with reader := .ended, registered := false } }
      else none
  | .hand => x.hub.hand.map fun hub => { x with hub := hub }
  | .receive => x.hub.receive.map fun hub => { x with hub := hub }
  | .endStream => x.hub.endStream.map fun hub => { x with hub := hub }

/-- Other requests' messages may be on their way already. -/
def start (requestId : Nat) (command : Command) (timeoutSecs : Nat) (pump : Bool)
    (outbox wire : List SessionRequest) : State where
  agent := .start requestId command timeoutSecs outbox
  wire := wire
  broken := false
  hub := .start requestId command pump

end State

/-- The payloads of this request. -/
def own (requestId : Nat) (messages : List SessionRequest) : List Payload :=
  messages.filterMap fun message =>
    if message.requestId = requestId then message.payload else none

abbrev machine : Machine State Event where
  initial := fun x => ∃ requestId command timeoutSecs pump outbox wire,
    x = State.start requestId command timeoutSecs pump outbox wire ∧
      own requestId (outbox ++ wire) = []
  step := State.step

end Berth.Streamed
