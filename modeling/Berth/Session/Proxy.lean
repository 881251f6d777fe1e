import Berth.Session.OwnSteps
import Berth.Session.Http

/-!
The reverse proxy on one agent's link: for every request the task that feeds it to the agent, the
handler `serve_run_mode`, and what the handler leaves behind.
-/

namespace Berth.Proxy

open Interleave Link

/-- The capacity of the channel between a request's feeder and its call. -/
def outgoingChannelCapacity : Nat := 16

/-- What `read_browser` reads at a time. -/
def upgradeBufferSize : Nat := 8192

/-- The part of a `RelayHttpResponse`; `none` for any other payload, or one without a part. -/
abbrev Part : Type := Option RelayHttpResponse

/-- The task of `spawn_request_feeder`. -/
inductive RequestFeeder where
  | sendingHead
  | polling
  | sending (data : Bytes)
  | sendingFinal
  | stopped
  deriving DecidableEq

/-- The `read_browser` half of an upgraded connection. -/
inductive BrowserReader where
  | reading
  | sending (data : Bytes)
  | sendingFinal
  | done
  deriving DecidableEq

/-- `serve_run_mode` up to its response; then the upgraded connection, or the response's body and
the task that its guard spawns. -/
inductive Serve where
  | calling
  | awaitingHead
  | refusing
  | upgrading
  | pumping (reader : BrowserReader) (writing : Bool)
  | pumped
  | streaming
  | cleaning
  | done
  deriving DecidableEq

/-- What the client has received. -/
structure Answer where
  head : Option (Nat × HeaderMap)
  body : List Bytes
  ended : Bool
  deriving DecidableEq

def Answer.none : Answer := ⟨.none, [], false⟩

def badGateway : Answer := ⟨some (502, []), [], true⟩

/-- `body` is what the client's body has still to give, `outgoing` the channel to the call. -/
structure Exchange where
  parts : RequestParts
  head : RelayHttpRequestHead
  body : List BodyFrame
  feeder : RequestFeeder
  outgoing : List RelayHttpRequest
  serve : Serve
  answer : Answer

/-- The sender that `serve_run_mode` keeps for an upgrade. -/
def Serve.holdsSender : Serve → Bool
  | calling | awaitingHead | refusing | upgrading | pumping _ _ | pumped => true
  | streaming | cleaning | done => false

/-- The receiver of the call's channel is still with the handler or what it left behind. -/
def Serve.holdsReceiver : Serve → Bool
  | calling | awaitingHead | refusing | upgrading | pumping _ _ | pumped | streaming => true
  | cleaning | done => false

def Exchange.hasSender (exchange : Exchange) : Bool :=
  exchange.feeder ≠ .stopped ∨ exchange.serve.holdsSender

/-- The call, or the task it has spawned, still takes payloads. -/
def takesPayloads (call : Call Part RelayHttpRequest) : Bool :=
  match call.feeder with
  | .stopped => false
  | .idle | .next | .handing _ | .unregisteringPending | .unregisteringStreams => true

/-- Exchanges are numbered like the calls they make. -/
structure Proxies where
  link : AgentLink Part RelayHttpRequest
  exchanges : Nat → Option Exchange

inductive Event where
  | accept (parts : RequestParts) (body : List BodyFrame) (containerName : String)
      (containerPort : Fin (2 ^ 16))
  | feed (n : Nat)
  | register (n : Nat)
  | readOutbound (n : Nat)
  | unregister (n : Nat)
  | forward (n : Nat)
  | handed (n : Nat)
  | reply (n : Nat)
  | upgraded (n : Nat) (ok : Bool)
  | browse (n : Nat) (data : Option Bytes)
  | pumpSend (n : Nat)
  | pumpReceive (n : Nat) (written : Bool)
  | poll (n : Nat)
  | endStream (n : Nat)
  | disconnect (n kept : Nat)
  | session (event : Link.Event Part RelayHttpRequest)

namespace Proxies

variable (x : Proxies) (n : Nat) (exchange : Exchange) (call : Call Part RelayHttpRequest)

def setExchange : Proxies :=
  { x with exchanges := Function.update x.exchanges n (some exchange) }

def accept (parts : RequestParts) (body : List BodyFrame) (containerName : String)
    (containerPort : Fin (2 ^ 16)) : Proxies :=
  { link := x.link.begin .bidiStreamed
    exchanges := Function.update x.exchanges x.link.started (some
      { parts, head := requestHeadPayload parts containerName containerPort, body
        feeder := .sendingHead, outgoing := [], serve := .calling, answer := .none }) }

/-- `out_tx.send`: the receiver is with the call, or with the task it has spawned. -/
def sendOut (part : RelayHttpRequest) (sent failed : Exchange) : Option Exchange :=
  if !takesPayloads call then some failed
  else if exchange.outgoing.length < outgoingChannelCapacity then
    some { sent with outgoing := exchange.outgoing ++ [part] }
  else none

def feedStep : Option Exchange :=
  let stop := { exchange with feeder := .stopped }
  match exchange.feeder with
  | .sendingHead =>
      sendOut exchange call (.head exchange.head)
        (if isUpgradeRequest exchange.parts.headers then stop
          else { exchange with feeder := .polling }) stop
  | .polling =>
      match exchange.body with
      | [] => some { exchange with feeder := .sendingFinal }
      | .data bytes :: rest => some { exchange with feeder := .sending bytes, body := rest }
      -- A failed frame is passed by just like trailers.
      | .trailers :: rest | .failed :: rest => some { exchange with body := rest }
  | .sending data =>
      sendOut exchange call (.bodyChunk ⟨data, false⟩) { exchange with feeder := .polling } stop
  | .sendingFinal => sendOut exchange call (.bodyChunk ⟨[], true⟩) stop stop
  | .stopped => none

/-- What the handler makes of the call's outcome. -/
def settle (caller : Caller Part) : Exchange :=
  match exchange.serve, caller with
  | .calling, .listening => { exchange with serve := .awaitingHead }
  | .calling, .failed _ => { exchange with serve := .done, answer := badGateway }
  | _, _ => exchange

/-- A step of the call, or of the task it has spawned. -/
def callStep (event : Link.Event Part RelayHttpRequest) : Option Proxies :=
  (x.link.step event).bind fun link =>
    (link.calls n).map fun call => { x with link }.setExchange n (settle exchange call.caller)

def forward : Option Proxies :=
  match exchange.outgoing with
  | part :: rest =>
      (x.link.step (.nextPayload n (some part))).map fun link =>
        { x with link }.setExchange n { exchange with outgoing := rest }
  | [] =>
      if exchange.hasSender then none
      else (x.link.step (.nextPayload n none)).map fun link => { x with link }

/-- What the handler makes of the first message. -/
def answered : Option Part → Exchange
  | some (some (.head head)) =>
      let status := statusFrom head.status
      match buildHeaders head.headers with
      | some headers =>
          let answer : Answer := ⟨some (status, headers), [], false⟩
          if isUpgradeRequest exchange.parts.headers ∧ status = 101 then
            { exchange with serve := .upgrading, answer }
          else { exchange with serve := .streaming, answer }
      | none =>
          -- Only the response of an ordinary request has a body whose guard cleans up.
          if isUpgradeRequest exchange.parts.headers ∧ status = 101 then
            { exchange with serve := .done, answer := badGateway }
          else { exchange with serve := .cleaning, answer := badGateway }
  | _ => { exchange with serve := .refusing }

/-- `rx.recv().await` of the handler, and what follows up to the next wait. -/
def reply : Option Proxies :=
  match exchange.serve with
  | .awaitingHead =>
      (x.link.step (.receive n)).map fun link =>
        let answered := answered exchange call.inbox.head?
        let link := if answered.serve.holdsReceiver then link else link.dropReceiver n
        { x with link }.setExchange n answered
  | _ => none

/-- `on_upgrade.await`. -/
def upgraded (ok : Bool) : Option Proxies :=
  match exchange.serve with
  | .upgrading =>
      some (x.setExchange n
        { exchange with serve := if ok then .pumping .reading true else .pumped })
  | _ => none

def pumpState : BrowserReader → Bool → Serve
  | .done, false => .pumped
  | reader, writing => .pumping reader writing

def browse (data : Option Bytes) : Option Proxies :=
  match exchange.serve, data with
  | .pumping .reading writing, some data =>
      if data = [] ∨ upgradeBufferSize < data.length then none
      else some (x.setExchange n { exchange with serve := .pumping (.sending data) writing })
  | .pumping .reading writing, none =>
      some (x.setExchange n { exchange with serve := .pumping .sendingFinal writing })
  | _, _ => none

def pumpSend : Option Proxies :=
  match exchange.serve with
  | .pumping (.sending data) writing =>
      (sendOut exchange call (.bodyChunk ⟨data, false⟩)
        { exchange with serve := .pumping .reading writing }
        { exchange with serve := .pumping .sendingFinal writing }).map (x.setExchange n)
  | .pumping .sendingFinal writing =>
      let sent := { exchange with serve := pumpState .done writing }
      (sendOut exchange call (.bodyChunk ⟨[], true⟩) sent sent).map (x.setExchange n)
  | _ => none

/-- The `write_browser` half. -/
def pumpReceive (written : Bool) : Option Proxies :=
  match exchange.serve with
  | .pumping reader true =>
      (x.link.step (.receive n)).map fun link =>
        let goesOn : Bool := match call.inbox.head? with
          | some (some (.bodyChunk chunk)) => (chunk.data.isEmpty || written) && !chunk.isFinal
          | _ => false
        { x with link }.setExchange n { exchange with serve := pumpState reader goesOn }
  | _ => none

/-- One poll of `response_body_stream`. -/
def poll : Option Proxies :=
  match exchange.serve with
  | .streaming =>
      (x.link.step (.receive n)).map fun link =>
        let answer := exchange.answer
        let finish : Proxies := { x with link := link.dropReceiver n }.setExchange n
          { exchange with serve := .cleaning, answer := { answer with ended := true } }
        match call.inbox.head? with
        | some (some (.bodyChunk chunk)) =>
            if chunk.isFinal then finish
            else { x with link }.setExchange n
              { exchange with answer := { answer with body := answer.body ++ [chunk.data] } }
        | _ => finish
  | _ => none

/-- `agent_link.end_stream(request_id).await`, wherever it stands. -/
def endStream : Option Proxies :=
  let removed : AgentLink Part RelayHttpRequest := x.link.removeStream call.requestId
  match exchange.serve with
  | .refusing =>
      some ({ x with link := removed.dropReceiver n }.setExchange n
        { exchange with serve := .done, answer := badGateway })
  | .pumped =>
      some ({ x with link := removed.dropReceiver n }.setExchange n { exchange with serve := .done })
  | .cleaning =>
      some ({ x with link := removed }.setExchange n { exchange with serve := .done })
  | _ => none

/-- The client goes away: what is left of its request is lost after `kept` frames, and the future
of the handler, or the response with its body, is dropped. -/
def disconnect (kept : Nat) : Option Proxies :=
  let cut := { exchange with body :=
    if exchange.body.length ≤ kept then exchange.body else exchange.body.take kept ++ [BodyFrame.failed] }
  match exchange.serve with
  | .calling | .awaitingHead | .refusing =>
      some ({ x with link := x.link.dropReceiver n }.setExchange n { cut with serve := .done })
  | .streaming =>
      some ({ x with link := x.link.dropReceiver n }.setExchange n { cut with serve := .cleaning })
  | .upgrading | .pumping _ _ | .pumped | .cleaning | .done => none

/-- The exchange of a number, and its call. -/
def withExchange (step : Exchange → Call Part RelayHttpRequest → Option Proxies) :
    Option Proxies :=
  (x.exchanges n).bind fun exchange => (x.link.calls n).bind fun call => step exchange call

def step (x : Proxies) : Event → Option Proxies
  | .accept parts body name port => some (x.accept parts body name port)
  | .feed n => x.withExchange n fun exchange call =>
      (feedStep exchange call).map (x.setExchange n)
  | .register n => x.withExchange n fun exchange _ => x.callStep n exchange (.register n)
  | .readOutbound n => x.withExchange n fun exchange _ => x.callStep n exchange (.readOutbound n)
  | .unregister n => x.withExchange n fun exchange _ => x.callStep n exchange (.unregister n)
  | .forward n => x.withExchange n fun exchange _ => x.forward n exchange
  | .handed n => x.withExchange n fun exchange _ => x.callStep n exchange (.handed n)
  | .reply n => x.withExchange n fun exchange call => x.reply n exchange call
  | .upgraded n ok => x.withExchange n fun exchange _ => x.upgraded n exchange ok
  | .browse n data => x.withExchange n fun exchange _ => x.browse n exchange data
  | .pumpSend n => x.withExchange n fun exchange call => x.pumpSend n exchange call
  | .pumpReceive n written => x.withExchange n fun exchange call =>
      x.pumpReceive n exchange call written
  | .poll n => x.withExchange n fun exchange call => x.poll n exchange call
  | .endStream n => x.withExchange n fun exchange call => x.endStream n exchange call
  | .disconnect n kept => x.withExchange n fun exchange _ => x.disconnect n exchange kept
  | .session event =>
      if event.isOfSession then (x.link.step event).map fun link => { x with link } else none

def new : Proxies := ⟨AgentLink.new, fun _ => none⟩

end Proxies

abbrev machine : Machine Proxies Event where
  initial := fun x => x = Proxies.new
  step := Proxies.step

end Berth.Proxy
