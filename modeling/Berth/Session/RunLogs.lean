import Mathlib.Data.Finset.Card
import Berth.Session.OwnSteps
import Berth.Session.Messages

/-!
The run logs of containers, over any number of `Session` connections: the pumps that the hub's
`spawn_run_log_pump` starts, one `LogRegistry` for all of them, and on every agent the tasks of
`stream_container_logs`.
-/

namespace Berth.RunLogs

open Interleave Link

/-- The chunk of a `StreamContainerLogsChunk`; `none` for any other payload. -/
abbrev Part : Type := Option Chunk

inductive Command where
  | streamContainerLogs (containerName : String) (follow : Bool)
  | other
  deriving DecidableEq

def Command.isLogs : Command → Bool
  | streamContainerLogs _ _ => true
  | other => false

/-- The task of `spawn_run_log_pump`: in its call, about to make a `LogPump`, receiving, or in
`end_stream`. -/
inductive Pumping where
  | calling
  | opening
  | pumping
  | ending (holdsPump : Bool)
  | done
  deriving DecidableEq

structure Pump where
  containerName : String
  deploymentId : String
  stage : Pumping
  deriving DecidableEq

/-- The task of `stream_container_logs`. -/
inductive Following where
  | following
  | sending (data : Bytes)
  | sendingFinal
  | done
  deriving DecidableEq

structure Handler where
  requestId : Nat
  containerName : String
  follow : Bool
  stage : Following
  deriving DecidableEq

def Handler.isLive (handler : Handler) : Bool := handler.stage ≠ .done

/-- The capacity of the channel from the agent's tasks to the hub. -/
def channelCapacity : Nat := 16

/-- One connection, with both its ends. Pumps are numbered like the calls they make; `others` are
the ids of the agent's other requests, `delivered` is on its way from `outbox` to the hub. -/
structure Session where
  link : AgentLink Part Command
  pumps : Nat → Option Pump
  coming : List (Nat × Command)
  handlers : List Handler
  others : List Nat
  outbox : List (Nat × Part)
  outboxOpen : Bool
  delivered : List (Nat × Part)
  ended : Bool

/-- Who holds the `ActivePump` of a deployment: a run log's pump, by session and number, or the
pump of another phase. -/
inductive Holder where
  | run (session n : Nat)
  | other
  deriving DecidableEq

structure State where
  opened : Nat
  sessions : Nat → Option Session
  registry : String → Option Holder

inductive Event where
  | connect
  | spawn (s : Nat) (containerName deploymentId : String)
  | register (s n : Nat)
  | readOutbound (s n : Nat)
  | request (s n : Nat)
  | handed (s n : Nat)
  | unregister (s n : Nat)
  | tryNew (s n : Nat)
  | receive (s n : Nat)
  | endStream (s n : Nat)
  | occupy (deploymentId : String)
  | vacate (deploymentId : String)
  | begin (s : Nat) (kind : Kind)
  | ofOther (s n : Nat) (event : Link.Event Part Command)
  | ofSession (s : Nat) (event : Link.Event Part Command)
  | deliver (s : Nat)
  | take (s : Nat)
  | source (s h : Nat) (data : Option Bytes)
  | send (s h : Nat)
  | answer (s requestId : Nat) (part : Part)
  | transmit (s : Nat)
  | arrive (s : Nat)
  | closeOutbox (s : Nat)
  | endSession (s : Nat)

namespace Session

variable (session : Session) (n h : Nat) (pump : Pump) (call : Call Part Command)

/-- `AgentLink::new`, and an agent that has just opened its session. -/
def new : Session where
  link := AgentLink.new
  pumps := fun _ => none
  coming := []
  handlers := []
  others := []
  outbox := []
  outboxOpen := true
  delivered := []
  ended := false

def setPump : Session := { session with pumps := Function.update session.pumps n (some pump) }

def spawn (containerName deploymentId : String) : Session :=
  { session with
    link := session.link.begin .streamingReply
    pumps := Function.update session.pumps session.link.started
      (some ⟨containerName, deploymentId, .calling⟩) }

/-- What the pump makes of its call's outcome. -/
def settle : Pumping → Caller Part → Pumping
  | .calling, .listening => .opening
  | .calling, .failed _ => .done
  | stage, _ => stage

/-- A step of `call_streaming_reply`. -/
def callStep (event : Link.Event Part Command) : Option Session :=
  (session.link.step event).bind fun link =>
    (link.calls n).map fun call =>
      { session with link }.setPump n { pump with stage := settle pump.stage call.caller }

/-- The pump goes on after what it has received. -/
def goesOn : Option Part → Bool
  | some (some chunk) => !chunk.isFinal
  | _ => false

/-- `rx.recv().await` of the pump. -/
def receive : Option Session :=
  match pump.stage with
  | .pumping =>
      (session.link.step (.receive n)).map fun link =>
        { session with link }.setPump n
          { pump with stage := if goesOn call.inbox.head? then .pumping else .ending true }
  | _ => none

/-- The events of a call that is none of a pump's. Nothing else sends a `StreamContainerLogs`. -/
def isOther (requestId : Nat) : Link.Event Part Command → Bool
  | .nextPayload m payload => m = n ∧ payload.all fun command => !command.isLogs
  | .endStream other => other = requestId
  | event => event.isOwn n

def ofOther (event : Link.Event Part Command) : Option Session :=
  if session.pumps n = none ∧ isOther n call.requestId event then
    (session.link.step event).map fun link => { session with link }
  else none

/-- The session's own events. What the link sends and what arrives at it has events of its own. -/
def isOfSession : Link.Event Part Command → Bool
  | .transmit | .arrive _ => false
  | event => event.isOfSession

def ofSession (event : Link.Event Part Command) : Option Session :=
  if isOfSession event then (session.link.step event).map fun link => { session with link } else none

def deliver : Option Session :=
  match session.link.wire with
  | [] => none
  | message :: _ =>
      if session.ended then none
      else (session.link.step .transmit).map fun link =>
        { session with link, coming := session.coming ++ [message] }

/-- The agent's dispatch loop takes a message and spawns its task. -/
def take : Option Session :=
  match session.coming with
  | [] => none
  | (requestId, .streamContainerLogs containerName follow) :: rest =>
      some { session with
        coming := rest
        handlers := session.handlers ++ [⟨requestId, containerName, follow, .following⟩] }
  | (requestId, .other) :: rest =>
      some { session with coming := rest, others := session.others ++ [requestId] }

def setHandler (handler : Handler) : Session :=
  { session with handlers := session.handlers.set h handler }

/-- What the container's logs give: a chunk, or nothing any more. -/
def source (handler : Handler) (data : Option Bytes) : Option Session :=
  match handler.stage with
  | .following =>
      some (session.setHandler h
        { handler with stage := data.elim .sendingFinal .sending })
  | _ => none

/-- `send`: waits for a free slot, and gives the message up when the session is gone. -/
def sendOut (message : Nat × Part) : Option Session :=
  if !session.outboxOpen then some session
  else if session.outbox.length < channelCapacity then
    some { session with outbox := session.outbox ++ [message] }
  else none

def send (handler : Handler) : Option Session :=
  match handler.stage with
  | .sending data =>
      (session.sendOut (handler.requestId, some ⟨data, false⟩)).map fun sent =>
        sent.setHandler h { handler with stage := .following }
  | .sendingFinal =>
      (session.sendOut (handler.requestId, some ⟨[], true⟩)).map fun sent =>
        sent.setHandler h { handler with stage := .done }
  | _ => none

/-- Another task of the agent sends something to the hub. -/
def answer (requestId : Nat) (part : Part) : Option Session :=
  if requestId ∈ session.others then session.sendOut (requestId, part) else none

def transmit : Option Session :=
  match session.outbox with
  | [] => none
  | message :: rest =>
      some { session with outbox := rest, delivered := session.delivered ++ [message] }

def arrive : Option Session :=
  match session.delivered with
  | [] => none
  | (requestId, part) :: rest =>
      (session.link.step (.arrive (requestId, some part))).map fun link =>
        { session with link, delivered := rest }

def closeOutbox : Session := { session with outbox := [], outboxOpen := false }

/-- `run_session` returns, and drops both ends it has. -/
def endSession : Session := { session.closeOutbox with coming := [], ended := true }

end Session

namespace State

variable (x : State)

def setSession (s : Nat) (session : Session) : State :=
  { x with sessions := Function.update x.sessions s (some session) }

/-- A step within one session. -/
def within (s : Nat) (step : Session → Option Session) : Option State :=
  (x.sessions s).bind fun session => (step session).map (x.setSession s)

/-- A step of a pump's call. -/
def ofPump (s n : Nat) (event : Link.Event Part Command) : Option State :=
  x.within s fun session => (session.pumps n).bind fun pump => session.callStep n pump event

/-- `LogPump::try_new`. -/
def tryNew (s n : Nat) : Option State :=
  (x.sessions s).bind fun session => (session.pumps n).bind fun pump =>
    match pump.stage, x.registry pump.deploymentId with
    | .opening, none =>
        some { x.setSession s (session.setPump n { pump with stage := .pumping }) with
          registry := Function.update x.registry pump.deploymentId (some (.run s n)) }
    | .opening, some _ => some (x.setSession s (session.setPump n { pump with stage := .ending false }))
    | _, _ => none

/-- `end_stream`; afterwards the task drops the receiver, and the `LogPump` if it has one. -/
def endStream (s n : Nat) : Option State :=
  (x.sessions s).bind fun session => (session.pumps n).bind fun pump =>
    (session.link.calls n).bind fun call =>
      let link := (session.link.removeStream call.requestId).dropReceiver n
      let gone := x.setSession s ({ session with link }.setPump n { pump with stage := .done })
      match pump.stage with
      | .ending true =>
          some { gone with registry := Function.update x.registry pump.deploymentId none }
      | .ending false => some gone
      | _ => none

def step : Event → Option State
  | .connect =>
      some { x.setSession x.opened .new with opened := x.opened + 1 }
  | .spawn s containerName deploymentId =>
      x.within s fun session => some (session.spawn containerName deploymentId)
  | .register s n => x.ofPump s n (.register n)
  | .readOutbound s n => x.ofPump s n (.readOutbound n)
  | .request s n =>
      x.within s fun session => (session.pumps n).bind fun pump =>
        session.callStep n pump (.nextPayload n (some (.streamContainerLogs pump.containerName true)))
  | .handed s n => x.ofPump s n (.handed n)
  | .unregister s n => x.ofPump s n (.unregister n)
  | .tryNew s n => x.tryNew s n
  | .receive s n =>
      x.within s fun session => (session.pumps n).bind fun pump =>
        (session.link.calls n).bind fun call => session.receive n pump call
  | .endStream s n => x.endStream s n
  | .occupy deploymentId =>
      if x.registry deploymentId = none then
        some { x with registry := Function.update x.registry deploymentId (some .other) }
      else none
  | .vacate deploymentId =>
      if x.registry deploymentId = some .other then
        some { x with registry := Function.update x.registry deploymentId none }
      else none
  | .begin s kind =>
      x.within s fun session => some { session with link := session.link.begin kind }
  | .ofOther s n event =>
      x.within s fun session => (session.link.calls n).bind fun call => session.ofOther n call event
  | .ofSession s event => x.within s fun session => session.ofSession event
  | .deliver s => x.within s Session.deliver
  | .take s => x.within s Session.take
  | .source s h data =>
      x.within s fun session => (session.handlers[h]?).bind fun handler =>
        session.source h handler data
  | .send s h =>
      x.within s fun session => (session.handlers[h]?).bind fun handler => session.send h handler
  | .answer s requestId part => x.within s fun session => session.answer requestId part
  | .transmit s => x.within s Session.transmit
  | .arrive s => x.within s Session.arrive
  | .closeOutbox s => x.within s fun session => some session.closeOutbox
  | .endSession s => x.within s fun session => some session.endSession

def new : State := ⟨0, fun _ => none, fun _ => none⟩

end State

abbrev machine : Machine State Event where
  initial := fun x => x = State.new
  step := State.step

end Berth.RunLogs
