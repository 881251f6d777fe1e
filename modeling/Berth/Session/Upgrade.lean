import Berth.Session.Proxy

/-!
Requests for another protocol. The hub decides on the header map, the agent on the headers that
were sent along; each takes the body out of the request where it finds an upgrade.
-/

namespace Berth

def HeaderName.upgrade : HeaderName := ⟨"upgrade", by decide⟩

def HeaderName.connection : HeaderName := ⟨"connection", by decide⟩

def HeaderValue.isVisible (value : HeaderValue) : Bool := value.toStr.isSome

def HeaderValue.asksUpgrade (value : HeaderValue) : Bool := value.toStr.any saysUpgrade

namespace Upgrade

variable {headers : HeaderMap}

theorem get_eq_head? (name : HeaderName) :
    headers.get name.text = (headers.getAll name).head? := by
  have sameText (entry : HeaderName × HeaderValue) :
      decide (entry.1.text = name.text) = decide (entry.1 = name) := by
    obtain ⟨⟨text, valid⟩, value⟩ := entry
    obtain ⟨text', valid'⟩ := name
    simp
  simp only [HeaderMap.get, HeaderMap.getAll, sameText, List.head?_map, List.head?_filter]

theorem isUpgradeRequest_eq : isUpgradeRequest headers =
    (!(headers.getAll .upgrade).isEmpty &&
      (headers.getAll .connection).head?.any HeaderValue.asksUpgrade) := by
  rw [isUpgradeRequest, show "upgrade" = HeaderName.upgrade.text from rfl,
    show "connection" = HeaderName.connection.text from rfl, get_eq_head?, get_eq_head?]
  cases headers.getAll .upgrade <;> rfl

/-- The names of a header map are in lower case already. -/
theorem lower_eq_iff (name other : HeaderName) :
    name.text.toList.map Char.toLower = other.text.toList ↔ name = other := by
  obtain ⟨text, nonempty, chars⟩ := name
  have lower : text.toList.map Char.toLower = text.toList := by
    refine (List.map_congr_left fun c member => ?_).trans (List.map_id _)
    exact of_decide_eq_true (Bool.and_eq_true_iff.1 (List.all_eq_true.1 chars c member)).2
  obtain ⟨text', valid'⟩ := other
  simp [lower, String.toList_inj]

theorem any_visibleHeaders (headers : HeaderMap) (name : HeaderName) (holds : String → Bool) :
    ((visibleHeaders headers).any fun header =>
      decide (header.name.toList.map Char.toLower = name.text.toList) && holds header.value) =
        (headers.getAll name).any fun value => value.toStr.any holds := by
  induction headers with
  | nil => rfl
  | cons entry rest ih =>
      obtain ⟨other, value⟩ := entry
      simp only [visibleHeaders, HeaderMap.getAll, List.filterMap_cons, toHttpHeader,
        List.filter_cons] at ih ⊢
      by_cases same : other = name
      · cases visible : value.toStr <;> simp [same, visible, ih, lower_eq_iff]
      · cases value.toStr <;> simp [same, ih, lower_eq_iff]

theorem isUpgradeHead_eq : isUpgradeHead (visibleHeaders headers) =
    ((headers.getAll .upgrade).any HeaderValue.isVisible &&
      (headers.getAll .connection).any HeaderValue.asksUpgrade) := by
  have upgrade := any_visibleHeaders headers .upgrade fun _ => true
  have connection := any_visibleHeaders headers .connection saysUpgrade
  simp only [Bool.and_true, Option.any_true] at upgrade
  rw [isUpgradeHead, show "upgrade" = HeaderName.upgrade.text from rfl,
    show "connection" = HeaderName.connection.text from rfl, upgrade, connection]
  rfl

/-- Of a request the hub takes for an upgrade, an `Upgrade` header can be sent along; and where
some `Connection` header of what is sent along asks for one, the first of the request does. -/
structure Agreeing (headers : HeaderMap) : Prop where
  upgrade : headers.getAll .upgrade ≠ [] →
    (headers.getAll .connection).head?.any HeaderValue.asksUpgrade = true →
      ∃ value ∈ headers.getAll .upgrade, value.isVisible = true
  connection : ∀ value ∈ headers.getAll .upgrade, value.isVisible = true →
    ∀ asking ∈ headers.getAll .connection, asking.asksUpgrade = true →
      (headers.getAll .connection).head?.any HeaderValue.asksUpgrade = true

theorem isUpgrade_eq_iff (parts : RequestParts) (containerName : String)
    (containerPort : Fin (2 ^ 16)) :
    isUpgradeRequest parts.headers =
        isUpgradeHead (requestHeadPayload parts containerName containerPort).headers ↔
      Agreeing parts.headers := by
  rw [requestHeadPayload, isUpgradeRequest_eq, isUpgradeHead_eq]
  constructor
  · intro same
    constructor
    · intro some asks
      have hub : (!(parts.headers.getAll .upgrade).isEmpty) = true := by simpa using some
      rw [hub, asks] at same
      exact List.any_eq_true.1 (Bool.and_eq_true_iff.1 same.symm).1
    · intro value isUpgrade isVisible asking isConnection asks
      rw [List.any_eq_true.2 ⟨value, isUpgrade, isVisible⟩,
        List.any_eq_true.2 ⟨asking, isConnection, asks⟩] at same
      exact (Bool.and_eq_true_iff.1 same).2
  · intro agreeing
    refine Bool.eq_iff_iff.2 ⟨fun hub => ?_, fun agent => ?_⟩
    · obtain ⟨some, asks⟩ := Bool.and_eq_true_iff.1 hub
      obtain ⟨first, isFirst, asking⟩ := (Option.any_eq_true _ _).1 asks
      obtain ⟨value, member, isVisible⟩ := agreeing.upgrade (by simpa using some) asks
      exact Bool.and_eq_true_iff.2 ⟨List.any_eq_true.2 ⟨value, member, isVisible⟩,
        List.any_eq_true.2 ⟨first, List.mem_of_head? isFirst, asking⟩⟩
    · obtain ⟨isUpgrade, isConnection⟩ := Bool.and_eq_true_iff.1 agent
      obtain ⟨value, member, isVisible⟩ := List.any_eq_true.1 isUpgrade
      obtain ⟨asking, among, asks⟩ := List.any_eq_true.1 isConnection
      refine Bool.and_eq_true_iff.2 ⟨?_, agreeing.connection value member isVisible asking among asks⟩
      simpa using List.ne_nil_of_mem member

/-- The second `Connection` header asks for the upgrade. -/
def twoConnections : RequestParts where
  method := "GET"
  pathAndQuery := some "/"
  headers := [(.upgrade, ⟨utf8 "websocket", by decide +kernel⟩),
    (.connection, ⟨utf8 "keep-alive", by decide +kernel⟩), (.connection, ⟨utf8 "Upgrade", by decide +kernel⟩)]

theorem isUpgrade_differs : ¬ ∀ (parts : RequestParts) (containerName : String)
    (containerPort : Fin (2 ^ 16)), isUpgradeRequest parts.headers =
      isUpgradeHead (requestHeadPayload parts containerName containerPort).headers := by
  intro same
  exact absurd (same twoConnections "berth-app" 80) (by decide +kernel)

/-! The way of a request to the container and of its answer back to the client. -/

/-- The rest of the feeder's payloads for an ordinary request. -/
def feedBody : List BodyFrame → List RelayHttpRequest
  | [] => [.bodyChunk ⟨[], true⟩]
  | .data bytes :: rest => .bodyChunk ⟨bytes, false⟩ :: feedBody rest
  | .trailers :: rest | .failed :: rest => feedBody rest

/-- `spawn_request_feeder`: everything it sends. -/
def spawnRequestFeeder (head : RelayHttpRequestHead) (body : List BodyFrame) (isUpgrade : Bool) :
    List RelayHttpRequest :=
  .head head :: if isUpgrade then [] else feedBody body

structure ContainerRequest where
  method : String
  path : String
  headers : HeaderMap
  body : List Bytes
  deriving DecidableEq

structure ContainerResponse where
  parts : ResponseParts
  isStatus : 100 ≤ parts.status ∧ parts.status < 1000
  body : List BodyFrame

/-- `request_body`: it ends after the chunk marked as final, or with the channel. -/
def requestBody : List Chunk → List Bytes
  | [] => []
  | chunk :: rest => chunk.data :: if chunk.isFinal then [] else requestBody rest

def proxyUpgrade (head : RelayHttpRequestHead) : Option ContainerRequest :=
  (buildHeaders head.headers).map fun headers => ⟨head.method, head.path, headers, []⟩

def proxyToIp (head : RelayHttpRequestHead) (body : List Chunk) : Option ContainerRequest :=
  if isUpgradeHead head.headers then proxyUpgrade head
  else (buildHeaders head.headers).map fun headers =>
    ⟨head.method, head.path, headers, requestBody body⟩

def streamResponseBody : List BodyFrame → List RelayHttpResponse
  | .data bytes :: rest => .bodyChunk ⟨bytes, false⟩ :: streamResponseBody rest
  | .trailers :: rest => streamResponseBody rest
  | .failed :: _ | [] => [.bodyChunk ⟨[], true⟩]

/-- What the agent sends back of a response that does not switch protocols. -/
def relayResponse (response : ContainerResponse) : List RelayHttpResponse :=
  .head (responseHeadPayload response.parts) :: streamResponseBody response.body

/-- `response_body_stream`, from its first poll to its end. -/
def responseBodyStream (answer : Proxy.Answer) : List RelayHttpResponse → Proxy.Answer
  | .bodyChunk chunk :: rest =>
      if chunk.isFinal then { answer with ended := true }
      else responseBodyStream { answer with body := answer.body ++ [chunk.data] } rest
  | .head _ :: _ | .error _ :: _ | [] => { answer with ended := true }

/-- What `serve_run_mode` makes of everything the agent sends back. -/
def serveRunMode (exchange : Proxy.Exchange) : List RelayHttpResponse → Proxy.Answer
  | [] => Proxy.badGateway
  | first :: rest =>
      let answered := Proxy.Proxies.answered exchange (some (some first))
      match answered.serve with
      | .streaming => responseBodyStream answered.answer rest
      | .refusing => Proxy.badGateway
      | _ => answered.answer

/-- A request as it stands when its handler waits for the agent's first message. -/
def awaiting (parts : RequestParts) (head : RelayHttpRequestHead) : Proxy.Exchange :=
  { parts, head, body := [], feeder := .stopped, outgoing := [], serve := .awaitingHead,
    answer := .none }

def toChunk : RelayHttpRequest → Option Chunk
  | .bodyChunk chunk => some chunk
  | .head _ => none

/-- `route_relay_message`: the head begins a request, the chunks after it are its body. -/
def routeRelayMessages : List RelayHttpRequest → Option ContainerRequest
  | .head head :: rest => proxyToIp head (rest.filterMap toChunk)
  | _ => none

section Relay

variable (parts : RequestParts) (body : List BodyFrame) (containerName : String)
  (containerPort : Fin (2 ^ 16)) (response : ContainerResponse)

/-- The request that reaches the container. -/
def sentToContainer : Option ContainerRequest :=
  routeRelayMessages (spawnRequestFeeder (requestHeadPayload parts containerName containerPort) body
    (isUpgradeRequest parts.headers))

/-- What the client gets for the container's response. -/
def sentToClient : Proxy.Answer :=
  serveRunMode (awaiting parts (requestHeadPayload parts containerName containerPort))
    (relayResponse response)

end Relay

/-- What a body carries until it ends or fails. -/
structure Content where
  bytes : Bytes
  trailers : Bool
  complete : Bool
  deriving DecidableEq

def Content.empty : Content := ⟨[], false, true⟩

def content : List BodyFrame → Content
  | [] => .empty
  | .data bytes :: rest => { content rest with bytes := bytes ++ (content rest).bytes }
  | .trailers :: rest => { content rest with trailers := true }
  | .failed :: _ => ⟨[], false, false⟩

/-- The container was sent the client's body, and the client gets the container's response. -/
structure Carried (parts : RequestParts) (body : List BodyFrame) (containerName : String)
    (containerPort : Fin (2 ^ 16)) (response : ContainerResponse) : Prop where
  request : ∃ request, sentToContainer parts body containerName containerPort = some request ∧
    content body = ⟨request.body.flatten, false, true⟩
  head : (sentToClient parts containerName containerPort response).head =
    some (response.parts.status, response.parts.headers)
  body : content response.body =
    ⟨(sentToClient parts containerName containerPort response).body.flatten, false,
      (sentToClient parts containerName containerPort response).ended⟩

section Carried

variable {parts : RequestParts} {body : List BodyFrame} {containerName : String}
variable {containerPort : Fin (2 ^ 16)} {response : ContainerResponse}

theorem sentToContainer_upgrade (hub : isUpgradeRequest parts.headers = true)
    (agent : isUpgradeHead (requestHeadPayload parts containerName containerPort).headers = true) :
    sentToContainer parts body containerName containerPort =
      some ⟨parts.method, parts.pathAndQuery.getD "/", visible parts.headers, []⟩ := by
  rw [sentToContainer, hub, spawnRequestFeeder, if_pos rfl, routeRelayMessages, proxyToIp,
    if_pos agent, proxyUpgrade]
  simp only [requestHeadPayload, buildHeaders_visible, Option.map_some]

/-- The chunks that are sent of a body carry its bytes as far as it goes, without its trailers. -/
theorem responseBodyStream_streamResponseBody (answer : Proxy.Answer) (frames : List BodyFrame) :
    (responseBodyStream answer (streamResponseBody frames)).head = answer.head ∧
      (responseBodyStream answer (streamResponseBody frames)).body.flatten =
        answer.body.flatten ++ (content frames).bytes ∧
      (responseBodyStream answer (streamResponseBody frames)).ended = true := by
  induction frames generalizing answer with
  | nil => simp [streamResponseBody, responseBodyStream, content, Content.empty]
  | cons frame rest ih =>
      cases frame with
      | data bytes =>
          obtain ⟨head, flat, ended⟩ := ih { answer with body := answer.body ++ [bytes] }
          refine ⟨head, flat.trans ?_, ended⟩
          simp [content]
      | trailers => exact ih answer
      | failed => simp [streamResponseBody, responseBodyStream, content]

theorem sentToClient_declined (status : response.parts.status ≠ 101) :
    sentToClient parts containerName containerPort response =
      responseBodyStream ⟨some (response.parts.status, visible response.parts.headers), [], false⟩
        (streamResponseBody response.body) := by
  have isStatus : statusFrom response.parts.status = response.parts.status := if_pos response.isStatus
  have ordinary : ¬ (isUpgradeRequest parts.headers = true ∧ response.parts.status = 101) :=
    fun upgrade => status upgrade.2
  simp only [sentToClient, relayResponse, serveRunMode, Proxy.Proxies.answered, responseHeadPayload,
    buildHeaders_visible, isStatus, awaiting, if_neg ordinary]

theorem visible_eq_iff {headers : HeaderMap} :
    visible headers = headers ↔ ∀ entry ∈ headers, entry.2.isVisible = true :=
  List.filter_eq_self

/-- A declined upgrade carries its body exactly where it has none. -/
theorem declined_carried_iff (hub : isUpgradeRequest parts.headers = true)
    (agent : isUpgradeHead (requestHeadPayload parts containerName containerPort).headers = true)
    (declined : response.parts.status ≠ 101) :
    Carried parts body containerName containerPort response ↔
      content body = .empty ∧ (∀ entry ∈ response.parts.headers, entry.2.isVisible = true) ∧
        (content response.body).trailers = false ∧ (content response.body).complete = true := by
  have sent : sentToContainer parts body containerName containerPort = _ :=
    sentToContainer_upgrade hub agent
  have received : sentToClient parts containerName containerPort response = _ :=
    sentToClient_declined declined
  obtain ⟨head, flat, ended⟩ := responseBodyStream_streamResponseBody
    ⟨some (response.parts.status, visible response.parts.headers), [], false⟩ response.body
  constructor
  · rintro ⟨⟨request, isSent, same⟩, isHead, isBody⟩
    cases sent.symm.trans isSent
    rw [received, head] at isHead
    rw [received, flat, ended] at isBody
    refine ⟨same, visible_eq_iff.1 ?_, ?_, ?_⟩
    · exact (Prod.mk.inj (Option.some.inj isHead)).2
    · rw [isBody]
    · rw [isBody]
  · rintro ⟨empty, allVisible, noTrailers, complete⟩
    refine ⟨⟨_, sent, empty⟩, ?_, ?_⟩
    · rw [received, head, visible_eq_iff.2 allVisible]
    · rw [received, flat, ended, ← noTrailers, ← complete]
      rfl

end Carried

def upgradeToH2c : RequestParts where
  method := "POST"
  pathAndQuery := some "/"
  headers := [(.upgrade, ⟨utf8 "h2c", by decide +kernel⟩), (.connection, ⟨utf8 "Upgrade", by decide +kernel⟩)]

def okResponse : ContainerResponse := ⟨⟨200, []⟩, by decide, [.data [111, 107]]⟩

theorem declined_body_lost : ¬ ∀ (parts : RequestParts) (body : List BodyFrame)
    (containerName : String) (containerPort : Fin (2 ^ 16)) (response : ContainerResponse),
      isUpgradeRequest parts.headers = true →
        isUpgradeHead (requestHeadPayload parts containerName containerPort).headers = true →
          response.parts.status ≠ 101 →
            Carried parts body containerName containerPort response := by
  intro carries
  obtain ⟨request, sent, same⟩ := (carries upgradeToH2c [.data [1]] "berth-app" 80 okResponse
    (by decide +kernel) (by decide +kernel) (by decide)).request
  have lost : sentToContainer upgradeToH2c [.data [1]] "berth-app" 80 =
      some ⟨"POST", "/", visible upgradeToH2c.headers, []⟩ :=
    sentToContainer_upgrade (by decide +kernel) (by decide +kernel)
  cases lost.symm.trans sent
  exact absurd same (by decide)

theorem declined_carried_iff_h2c : Carried upgradeToH2c [] "berth-app" 80 okResponse ↔
    content [] = .empty ∧ (∀ entry ∈ okResponse.parts.headers, entry.2.isVisible = true) ∧
      (content okResponse.body).trailers = false ∧ (content okResponse.body).complete = true :=
  declined_carried_iff (by decide +kernel) (by decide +kernel) (by decide)

/-! The steps of the proxy come to the same. -/

section Steps

open Link Proxy

variable {exchange next : Exchange} {call : Link.Call Part RelayHttpRequest}

/-- What a feeder has still to send. -/
def unsent (exchange : Exchange) : List RelayHttpRequest :=
  match exchange.feeder with
  | .sendingHead =>
      spawnRequestFeeder exchange.head exchange.body (isUpgradeRequest exchange.parts.headers)
  | .polling => feedBody exchange.body
  | .sending data => .bodyChunk ⟨data, false⟩ :: feedBody exchange.body
  | .sendingFinal => [.bodyChunk ⟨[], true⟩]
  | .stopped => []

theorem feedStep_unsent (takes : takesPayloads call = true)
    (stepped : Proxies.feedStep exchange call = some next) :
    next.outgoing ++ unsent next = exchange.outgoing ++ unsent exchange := by
  have room {part : RelayHttpRequest} {sent failed : Exchange}
      (ok : Proxies.sendOut exchange call part sent failed = some next) :
      next = { sent with outgoing := exchange.outgoing ++ [part] } := by
    simp only [Proxies.sendOut, takes, Bool.not_true, Bool.false_eq_true, if_false] at ok
    split at ok <;> cases ok
    rfl
  obtain ⟨parts, head, body, feeder, outgoing, serve, answer⟩ := exchange
  cases feeder with
  | sendingHead =>
      simp only [Proxies.feedStep] at stepped
      rw [room stepped]
      cases isUpgrade : isUpgradeRequest parts.headers <;>
        simp [unsent, spawnRequestFeeder, isUpgrade]
  | polling =>
      simp only [Proxies.feedStep] at stepped
      split at stepped <;> cases stepped <;> simp [unsent, feedBody]
  | sending data =>
      simp only [Proxies.feedStep] at stepped
      rw [room stepped]
      simp [unsent]
  | sendingFinal =>
      simp only [Proxies.feedStep] at stepped
      rw [room stepped]
      simp [unsent]
  | stopped => cases stepped

/-- What is still to be made of the answer, when these are the parts that are yet to come. -/
def finalAnswer (exchange : Exchange) (rest : List RelayHttpResponse) : Answer :=
  match exchange.serve with
  | .streaming => responseBodyStream exchange.answer rest
  | _ => exchange.answer

theorem poll_finalAnswer {x x' : Proxies} {n : Nat} {part : RelayHttpResponse} {inbox : List Part}
    (streaming : exchange.serve = .streaming) (waiting : call.inbox = some part :: inbox)
    (stepped : x.poll n exchange call = some x') (rest : List RelayHttpResponse) :
    ∃ next, x'.exchanges n = some next ∧
      finalAnswer next rest = finalAnswer exchange (part :: rest) := by
  simp only [Proxies.poll, streaming] at stepped
  obtain ⟨link, -, rfl⟩ := Option.map_eq_some_iff.1 stepped
  simp only [waiting, List.head?_cons]
  cases part with
  | bodyChunk chunk =>
      by_cases isFinal : chunk.isFinal = true
      · simp only [if_pos isFinal]
        refine ⟨_, Function.update_self .., ?_⟩
        simp [finalAnswer, streaming, responseBodyStream, isFinal]
      · simp only [if_neg isFinal]
        refine ⟨_, Function.update_self .., ?_⟩
        simp [finalAnswer, responseBodyStream, isFinal, streaming]
  | head _ | error _ =>
      refine ⟨_, Function.update_self .., ?_⟩
      simp [finalAnswer, streaming, responseBodyStream]

end Steps

end Upgrade

end Berth
