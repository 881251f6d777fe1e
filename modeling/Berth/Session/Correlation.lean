import Berth.Session.OwnSteps

/-!
Correlation of replies with calls, over every run of a link.
-/

namespace Berth.Link

open Interleave

variable {Reply Command : Type} {link next : AgentLink Reply Command}
variable {event : Event Reply Command} {history : History Reply Command}
variable {fine : AgentLink Reply Command → Event Reply Command → Prop}

/-- The message with a payload that this event takes from the session. -/
def taken (link : AgentLink Reply Command) : Event Reply Command → List (Nat × Reply)
  | .read =>
      match link.reader, link.inbound with
      | .reading, (requestId, some payload) :: _ => [(requestId, payload)]
      | _, _ => []
  | _ => []

/-- The messages with a payload that the reader took from the session, in session order. -/
def received : History Reply Command → List (Nat × Reply)
  | [] => []
  | (link, event) :: older => received older ++ taken link event

/-- The payloads among these that carry the id. -/
def payloadsOf (requestId : Nat) (messages : List (Nat × Reply)) : List Reply :=
  (messages.filter fun message => message.1 = requestId).map (·.2)

/-- The message whose stream `resolve` is about to look up. -/
def inRoute (link : AgentLink Reply Command) : List (Nat × Reply) :=
  match link.reader with
  | .routing requestId payload => [(requestId, payload)]
  | _ => []

/-- Some past event decided that this payload goes where its own id says. -/
def Carried (requestId : Nat) (payload : Reply) (history : History Reply Command) : Prop :=
  ∃ moment ∈ history, decided moment.1 moment.2 = some (requestId, payload)

theorem payloadsOf_append {requestId : Nat} {left right : List (Nat × Reply)} :
    payloadsOf requestId (left ++ right) = payloadsOf requestId left ++ payloadsOf requestId right := by
  simp [payloadsOf]

theorem decided_of_offer {message : Nat × Reply} (offered : offer link event = some message) :
    decided link event = some message := by
  cases event with
  | lookUpStream => exact offered
  | _ => cases offered

theorem carried_of_mem {requestId : Nat} {payload : Reply} {message : Option (Nat × Reply)}
    (mem : payload ∈ carried requestId message) : message = some (requestId, payload) := by
  unfold carried at mem
  split at mem
  · split at mem
    · rename_i same
      simp only [List.mem_singleton] at mem
      rw [same, mem]
    · cases mem
  · cases mem

theorem carried_of_offered {requestId : Nat} {payload : Reply}
    (mem : payload ∈ offered requestId history) : Carried requestId payload history := by
  induction history with
  | nil => cases mem
  | cons moment older ih =>
      rcases List.mem_append.1 mem with before | now
      · obtain ⟨past, member, was⟩ := ih before
        exact ⟨past, List.mem_cons_of_mem _ member, was⟩
      · exact ⟨moment, List.mem_cons_self, decided_of_offer (carried_of_mem now)⟩

theorem carried_of_answersSince {n requestId : Nat} {payload : Reply}
    (mem : payload ∈ answersSince n requestId history) : Carried requestId payload history := by
  induction history with
  | nil => cases mem
  | cons moment older ih =>
      simp only [answersSince] at mem
      split at mem
      · cases mem
      rcases List.mem_append.1 mem with before | now
      · obtain ⟨past, member, was⟩ := ih before
        exact ⟨past, List.mem_cons_of_mem _ member, was⟩
      · exact ⟨moment, List.mem_cons_self, carried_of_mem now⟩

theorem payloadsOf_single {requestId other : Nat} {payload : Reply} :
    payloadsOf requestId [(other, payload)] = carried requestId (some (other, payload)) := by
  by_cases same : other = requestId <;> simp [payloadsOf, carried, same]

/-- What one event takes from the session, offers to a stream and keeps in route. -/
theorem route_step (effect : Effect link event next) (requestId : Nat) :
    (carried requestId (offer link event) ++ payloadsOf requestId (inRoute next)).Sublist
      (payloadsOf requestId (inRoute link ++ taken link event)) := by
  cases effect with
  | quiet isQuiet quieter =>
      have same : inRoute next = inRoute link := by simp [inRoute, quieter.reader]
      simp [offer_quiet isQuiet, same, payloadsOf]
  | matched routing isRegistered =>
      simp [offer, routing, isRegistered, inRoute, taken, ← payloadsOf_single, payloadsOf]
  | unmatched routing absent => simp [offer, routing, absent, inRoute, payloadsOf]
  | read reading inbound => simp [offer, inRoute, reading, inbound, taken]
  | begin | registerStream | registerPending | reply | noReply | yield | ended | finished | skipped
  | unheard | handed | unknown | answered | forgotten =>
      simp_all [offer, inRoute, payloadsOf, AgentLink.begin]

/-- A stream is offered its payloads in the order the session brought them. -/
theorem offered_sublist (run : (machine Reply Command).Run fine history link) (requestId : Nat) :
    (offered requestId history ++ payloadsOf requestId (inRoute link)).Sublist
      (payloadsOf requestId (received history)) := by
  induction run with
  | initial isInitial => simp [eq_new isInitial, AgentLink.new, inRoute, payloadsOf, offered]
  | @step history link next event before stepped isFine ih =>
      have step := route_step (AgentLink.step_effect stepped) requestId
      rw [payloadsOf_append] at step
      have later : (offered requestId history ++ (payloadsOf requestId (inRoute link) ++
          payloadsOf requestId (taken link event))).Sublist
            (payloadsOf requestId (received ((link, event) :: history))) := by
        rw [← List.append_assoc, received, payloadsOf_append]
        exact ih.append_right _
      rw [offered_cons, List.append_assoc]
      exact (step.append_left _).trans later

/-- The payload has come out of the call: as its result, or from the receiver it returned. -/
def Call.Gave (call : Call Reply Command) (payload : Reply) : Prop :=
  if call.kind.isStream then payload ∈ call.yielded else call.caller = .replied payload

/-- Everything that is promised of the replies on a link. -/
structure Correlated (history : History Reply Command) (link : AgentLink Reply Command) : Prop where
  oneShot : ∀ n call payload, link.calls n = some call → call.kind = .streamed →
    call.caller = .replied payload → (answersSince n call.requestId history).head? = some payload
  yielded : ∀ n call, link.calls n = some call → call.kind.isStream = true →
    call.yielded <+: offered call.requestId history
  pending : ∀ n call, link.calls n = some call → call.kind.isStream = true →
    call.caller.hears = true →
      call.yielded ++ call.inbox ++ inHand link n = offered call.requestId history
  ended : ∀ n call, link.calls n = some call → call.kind.isStream = true →
    call.caller = .ended → call.yielded = offered call.requestId history
  inOrder : ∀ requestId, (offered requestId history).Sublist
    (payloadsOf requestId (received history))
  own : ∀ n call payload, link.calls n = some call →
    call.Gave payload ∨ payload ∈ call.inbox ∧ call.caller.hears = true →
      Carried call.requestId payload history
  disjoint : ∀ requestId, link.pending requestId = none ∨ link.streams requestId = none

/-- The invariants of a link on which fewer than `2 ^ 64` calls have begun. -/
theorem followed (run : (machine Reply Command).Run fine history link) :
    Registered link ∧ (link.started < 2 ^ 64 → Answered history link ∧ Streamed history link) := by
  induction run with
  | initial isInitial =>
      rw [eq_new isInitial]
      exact ⟨registered_new, fun _ => ⟨answered_new, streamed_new⟩⟩
  | step before stepped isFine ih =>
      obtain ⟨registered, told⟩ := ih
      have effect := AgentLink.step_effect stepped
      refine ⟨registered.moves effect, fun few => ?_⟩
      have fewBefore := Nat.lt_of_le_of_lt (started_le effect) few
      obtain ⟨answered, streamed⟩ := told fewBefore
      exact ⟨answered.moves registered fewBefore effect, streamed.moves registered fewBefore effect⟩

/-- Every reply reaches the call whose request id it carries, and nobody else. -/
theorem replies_correlate (run : (machine Reply Command).Run (fun _ _ => True) history link)
    (few : link.started < 2 ^ 64) : Correlated history link := by
  obtain ⟨registered, told⟩ := followed run
  obtain ⟨answered, streamed⟩ := told few
  refine ⟨?_, streamed.yielded, streamed.hearing, streamed.ended, ?_, ?_, registered.disjoint few⟩
  · intro n call payload found oneShot replied
    exact answered.told n call found (by rw [oneShot]; rfl) payload (.inr replied)
  · intro requestId
    exact (List.sublist_append_left _ _).trans (offered_sublist run requestId)
  · intro n call payload found heard
    cases isStream : call.kind.isStream with
    | false =>
        simp only [Call.Gave, isStream] at heard
        have first := answered.told n call found isStream payload
          (heard.elim (fun gave => .inr (by simpa using gave)) fun inbox => .inl inbox.1)
        exact carried_of_answersSince (List.mem_of_head? first)
    | true =>
        apply carried_of_offered
        rcases heard with gave | ⟨inbox, hears⟩
        · simp only [Call.Gave, isStream, if_true] at gave
          exact (streamed.yielded n call found isStream).subset gave
        · rw [← streamed.hearing n call found isStream hears]
          simp [inbox]

/-- A one-shot call and a stream, with a late second reply to the first. -/
def mixedTraffic : List (Event Nat Nat) :=
  [.setOutbound, .begin .streamed, .register 0, .readOutbound 0, .begin .bidiStreamed, .register 1,
    .readOutbound 1, .nextPayload 0 (some 7), .handed 0, .nextPayload 0 none, .arrive (2, some 20),
    .arrive (1, some 10), .arrive (2, some 21), .arrive (1, some 11), .read, .lookUpStream,
    .handOver, .read, .lookUpStream, .lookUpPending, .read, .lookUpStream, .handOver, .read,
    .lookUpStream, .lookUpPending, .receive 0, .receive 1, .receive 1]

theorem replies_correlate_mixed : ∃ (history : History Nat Nat) (link : AgentLink Nat Nat),
    (machine Nat Nat).Run (fun _ _ => True) history link ∧
      (link.calls 1).map (·.yielded) = some [20, 21] ∧ Correlated history link := by
  obtain ⟨link, ⟨history, run⟩, held⟩ := Machine.exists_of_play (machine Nat Nat)
    (fun _ _ => True) (fun _ _ => true)
    (fun link => link.started = 2 ∧ (link.calls 1).map (·.yielded) = some [20, 21])
    (fun _ _ _ => trivial) rfl mixedTraffic (by decide +kernel)
  obtain ⟨two, yielded⟩ := of_decide_eq_true held
  exact ⟨history, link, run, yielded, replies_correlate run (by omega)⟩

end Berth.Link
