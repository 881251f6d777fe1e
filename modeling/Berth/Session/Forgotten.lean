import Berth.Session.OwnSteps

/-!
What a call leaves in the two maps when it has failed. Four places take a registration out: the
lookup of the outbound channel, `send`, the timeout, and the delivery of a reply.
-/

namespace Berth.Link

open Interleave

variable {Reply Command : Type} {link next : AgentLink Reply Command}
variable {event : Event Reply Command} {history : History Reply Command}
variable {fine : AgentLink Reply Command → Event Reply Command → Prop}
variable {n requestId : Nat} {call : Call Reply Command} {err : AppError}

/-- No entry of `pending` or `streams` is the call's. -/
def AgentLink.Forgot (link : AgentLink Reply Command) (n : Nat) : Prop :=
  ∀ requestId, link.pending requestId ≠ some n ∧ link.streams requestId ≠ some n

/-! Only a call that registers gets into a map. -/

theorem pending_before (stepped : link.step event = some next)
    {requestId m : Nat} (there : next.pending requestId = some m) :
    link.pending requestId = some m ∨ event = .register m ∧
      ∃ call, link.calls m = some call ∧ call.caller = .registering := by
  cases AgentLink.step_effect stepped with
  | quiet _ quieter => exact .inl (quieter.pending requestId m there)
  | @registerPending n call found registering =>
      simp only [Function.update_apply] at there
      split at there
      · cases there
        exact .inr ⟨rfl, call, found, registering⟩
      · exact .inl there
  | answered | forgotten => exact .inl (AgentLink.removed_sub there)
  | begin | registerStream | reply | noReply | yield | ended | finished | skipped | read
  | matched | unmatched | unheard | handed | unknown => exact .inl there

/-- The call is past its registration. -/
def AgentLink.Begun (link : AgentLink Reply Command) (n : Nat) : Prop :=
  ∃ call, link.calls n = some call ∧ call.caller ≠ .registering

theorem AgentLink.Begun.setCall {m : Nat} {other call' : Call Reply Command} (begun : link.Begun n)
    (found : link.calls m = some other)
    (calls : ∀ k, next.calls k = if k = m then some call' else link.calls k)
    (past : other.caller ≠ .registering → call'.caller ≠ .registering) : next.Begun n := by
  obtain ⟨call, found', before⟩ := begun
  by_cases same : n = m
  · subst same
    cases found.symm.trans found'
    exact ⟨call', by rw [calls, if_pos rfl], past before⟩
  · exact ⟨call, by rw [calls, if_neg same, found'], before⟩

theorem AgentLink.Begun.step (begun : link.Begun n) (registered : Registered link)
    (stepped : link.step event = some next) : next.Begun n := by
  cases AgentLink.step_effect stepped with
  | quiet _ quieter =>
      obtain ⟨call, found, past⟩ := begun
      obtain ⟨call', found', quiet⟩ := quieter.kept n call found
      exact ⟨call', found', fun same => past (quiet.registering same)⟩
  | begin kind =>
      obtain ⟨call, found, past⟩ := begun
      have different : n ≠ link.started := Nat.ne_of_lt (registered.known n call found).1
      exact ⟨call, by simp [AgentLink.begin, Function.update_of_ne different, found], past⟩
  | registerStream found | registerPending found | reply found | noReply found | ended found =>
      exact begun.setCall found (fun _ => AgentLink.setCall_calls) fun _ => by simp
  | yield found | handed _ found | answered _ _ found =>
      exact begun.setCall found (fun _ => AgentLink.setCall_calls) id
  | finished | skipped | read | matched | unmatched | unheard | unknown | forgotten => exact begun

/-- What has been forgotten once stays forgotten. -/
theorem AgentLink.Forgot.step (forgot : link.Forgot n) (begun : link.Begun n)
    (stepped : link.step event = some next) : next.Forgot n := by
  obtain ⟨call, found, past⟩ := begun
  intro requestId
  constructor
  · intro there
    rcases pending_before stepped there with before | ⟨_, other, found', registering⟩
    · exact (forgot requestId).1 before
    · cases found.symm.trans found'
      exact past registering
  · intro there
    rcases streams_before stepped there with before | ⟨_, other, found', registering⟩
    · exact (forgot requestId).2 before
    · cases found.symm.trans found'
      exact past registering

/-! A call that gives up takes itself out first. -/

/-- An event moves its own call, brings one in, or leaves callers and feeders as they are. -/
theorem call_before (stepped : link.step event = some next) {call' : Call Reply Command}
    (found' : next.calls n = some call') :
    event.isOwn n = true ∨ (call'.caller = .registering ∧ call'.feeder = .idle) ∨
      ∃ call, link.calls n = some call ∧ call'.kind = call.kind ∧ call'.caller = call.caller ∧
        call'.feeder = call.feeder := by
  cases event with
  | register m | readOutbound m | nextPayload m payload | handed m | unregister m | receive m
  | timeOut m | removeExpired m | drop m =>
      by_cases same : m = n
      · exact .inl (decide_eq_true same)
      obtain ⟨call, found, _⟩ := Option.bind_eq_some_iff.1 stepped
      obtain ⟨_, own⟩ := ownStep found (show Event.isOwn m _ = true by simp [Event.isOwn]) stepped
      rw [own.others n (Ne.symm same)] at found'
      exact .inr (.inr ⟨call', found', rfl, rfl, rfl⟩)
  | begin kind =>
      cases stepped
      simp only [AgentLink.begin, Function.update_apply] at found'
      split at found'
      · cases found'
        exact .inr (.inl ⟨rfl, rfl⟩)
      · exact .inr (.inr ⟨call', found', rfl, rfl, rfl⟩)
  | handOver =>
      cases AgentLink.step_effect stepped with
      | quiet isQuiet => cases isQuiet
      | unheard => exact .inr (.inr ⟨call', found', rfl, rfl, rfl⟩)
      | @handed m _ other _ found =>
          by_cases same : n = m
          · rw [AgentLink.setCall_calls, if_pos same] at found'
            cases found'
            exact .inr (.inr ⟨other, same ▸ found, rfl, rfl, rfl⟩)
          · rw [AgentLink.setCall_calls, if_neg same] at found'
            exact .inr (.inr ⟨call', found', rfl, rfl, rfl⟩)
  | lookUpPending =>
      cases AgentLink.step_effect stepped with
      | quiet isQuiet => cases isQuiet
      | unknown | forgotten => exact .inr (.inr ⟨call', found', rfl, rfl, rfl⟩)
      | @answered _ m _ other _ _ found =>
          by_cases same : n = m
          · rw [AgentLink.setCall_calls, if_pos same] at found'
            cases found'
            exact .inr (.inr ⟨other, same ▸ found, rfl, rfl, rfl⟩)
          · rw [AgentLink.setCall_calls, if_neg same] at found'
            exact .inr (.inr ⟨call', found', rfl, rfl, rfl⟩)
  | read | lookUpStream =>
      cases AgentLink.step_effect stepped with
      | quiet isQuiet => cases isQuiet
      | _ => exact .inr (.inr ⟨call', found', rfl, rfl, rfl⟩)
  | endStream _ | setOutbound | transmit | closeWire | arrive _ | hangUp | clearPending
  | clearStreams | clearOutbound =>
      simp only [AgentLink.step] at stepped
      repeat' split at stepped
      all_goals cases stepped
      all_goals exact .inr (.inr ⟨call', found', rfl, rfl, rfl⟩)

/-- What is left of one call in the maps, by how far it has given up. -/
structure GivenUp (link : AgentLink Reply Command) (n : Nat) (call : Call Reply Command) : Prop where
  idle : call.caller = .registering → call.feeder = .idle
  oneShot : call.caller = .waiting ∨ call.caller = .expired → call.kind.isStream = false
  pending : call.feeder = .unregisteringStreams → ∀ requestId, link.pending requestId ≠ some n
  failed : ∀ err, call.caller = .failed err → link.Forgot n

theorem Registered.no_pending (registered : Registered link) (found : link.calls n = some call)
    (gone : link.pending call.requestId ≠ some n) : ∀ requestId, link.pending requestId ≠ some n := by
  intro requestId there
  obtain ⟨other, found', same, _⟩ := registered.pending requestId n there
  cases found.symm.trans found'
  exact gone (same ▸ there)

theorem Registered.no_stream (registered : Registered link) (found : link.calls n = some call)
    (gone : link.streams call.requestId ≠ some n) : ∀ requestId, link.streams requestId ≠ some n := by
  intro requestId there
  obtain ⟨other, found', same, _⟩ := registered.streams requestId n there
  cases found.symm.trans found'
  exact gone (same ▸ there)

theorem Registered.no_pending_after (registered : Registered link) (found : link.calls n = some call)
    (requestId : Nat) : (link.removePending call.requestId).pending requestId ≠ some n := by
  intro there
  obtain ⟨other, found', same, _⟩ := registered.pending requestId n (AgentLink.removed_sub there)
  cases found.symm.trans found'
  simp [same] at there

theorem Registered.no_stream_after (registered : Registered link) (found : link.calls n = some call)
    (requestId : Nat) : (link.removeStream call.requestId).streams requestId ≠ some n := by
  intro there
  obtain ⟨other, found', same, _⟩ := registered.streams requestId n (AgentLink.removed_sub there)
  cases found.symm.trans found'
  simp [same] at there

theorem GivenUp.unregister (old : GivenUp link n call) (registered : Registered link)
    (found : link.calls n = some call) (stepped : link.unregister n call = some next)
    {call' : Call Reply Command} (found' : next.calls n = some call') : GivenUp next n call' := by
  have busy : call.feeder ≠ .idle → call.caller ≠ .registering := fun busy same =>
    busy (old.idle same)
  simp only [AgentLink.unregister] at stepped
  split at stepped
  · rename_i unregistering
    cases stepped
    rw [AgentLink.setCall_calls, if_pos rfl] at found'
    cases found'
    have begun := busy (by simp [unregistering])
    refine ⟨fun same => absurd same begun, old.oneShot,
      fun _ => registered.no_pending_after found, fun err failed requestId => ?_⟩
    exact ⟨registered.no_pending_after found requestId, (old.failed err failed requestId).2⟩
  · rename_i unregistering
    have begun := busy (by simp [unregistering])
    have forgot : ∀ requestId, link.pending requestId ≠ some n ∧
        (link.removeStream call.requestId).streams requestId ≠ some n := fun requestId =>
      ⟨old.pending unregistering requestId, registered.no_stream_after found requestId⟩
    split at stepped
    · cases stepped
      rw [AgentLink.setCall_calls, if_pos rfl] at found'
      cases found'
      exact ⟨by simp, by simp, by simp, fun _ _ => forgot⟩
    · cases stepped
      rw [AgentLink.setCall_calls, if_pos rfl] at found'
      cases found'
      exact ⟨fun same => absurd same begun, old.oneShot, by simp, fun _ _ => forgot⟩
  · cases stepped

theorem GivenUp.receive (old : GivenUp link n call) (registered : Registered link)
    (found : link.calls n = some call) (stepped : link.receive n call = some next)
    {call' : Call Reply Command} (found' : next.calls n = some call') : GivenUp next n call' := by
  have closed : link.hasSender n call = false → link.Forgot n := by
    intro closed requestId
    simp only [AgentLink.hasSender, decide_eq_false_iff_not, not_or] at closed
    exact ⟨registered.no_pending found closed.1 requestId,
      registered.no_stream found closed.2.1 requestId⟩
  simp only [AgentLink.receive] at stepped
  repeat' split at stepped
  all_goals cases stepped
  all_goals
    rw [AgentLink.setCall_calls, if_pos rfl] at found'
    cases found'
  · exact ⟨by simp, by simp, old.pending, by simp⟩
  · rename_i held
    exact ⟨by simp, by simp, old.pending, fun _ _ => closed (by simpa using held)⟩
  · exact ⟨old.idle, old.oneShot, old.pending, old.failed⟩
  · exact ⟨by simp, by simp, old.pending, by simp⟩

theorem GivenUp.own (old : GivenUp link n call) (registered : Registered link)
    (found : link.calls n = some call) (own : event.isOwn n = true)
    (stepped : link.step event = some next) {call' : Call Reply Command}
    (found' : next.calls n = some call') : GivenUp next n call' := by
  cases event with
  | unregister m =>
      obtain rfl : m = n := of_decide_eq_true own
      simp only [AgentLink.step, found, Option.bind_some] at stepped
      exact old.unregister registered found stepped found'
  | receive m =>
      obtain rfl : m = n := of_decide_eq_true own
      simp only [AgentLink.step, found, Option.bind_some] at stepped
      exact old.receive registered found stepped found'
  | removeExpired m =>
      obtain rfl : m = n := of_decide_eq_true own
      simp only [AgentLink.step, found, Option.bind_some, AgentLink.removeExpired] at stepped
      split at stepped
      · rename_i expired
        cases stepped
        rw [AgentLink.setCall_calls, if_pos rfl] at found'
        cases found'
        have noStream : ∀ requestId, link.streams requestId ≠ some m := by
          intro requestId there
          obtain ⟨other, found', _, isStream, _⟩ := registered.streams requestId m there
          cases found.symm.trans found'
          rw [old.oneShot (.inr expired)] at isStream
          cases isStream
        exact ⟨by simp, by simp, fun _ => registered.no_pending_after found,
          fun _ _ requestId => ⟨registered.no_pending_after found requestId, noStream requestId⟩⟩
      · cases stepped
  | register m =>
      obtain rfl : m = n := of_decide_eq_true own
      simp only [AgentLink.step, found, Option.bind_some, AgentLink.register] at stepped
      split at stepped
      · rename_i registering
        have idle := old.idle registering
        split at stepped
        all_goals
          cases stepped
          simp only [AgentLink.setCall_calls, if_true, Option.some.injEq] at found'
          subst found'
          exact ⟨by simp, by simp, by simp [idle], by simp⟩
      · cases stepped
  | readOutbound m | timeOut m | drop m =>
      obtain rfl : m = n := of_decide_eq_true own
      have oneShot := old.oneShot
      have pending := old.pending
      simp only [AgentLink.step, found, Option.bind_some, AgentLink.readOutbound,
        AgentLink.timeOut, AgentLink.drop] at stepped
      repeat' split at stepped
      all_goals cases stepped
      all_goals
        simp only [AgentLink.setCall_calls, if_true, Option.some.injEq] at found'
        subst found'
        refine ⟨by simp, ?_, ?_, by simp⟩ <;> simp_all
  | nextPayload m payload | handed m =>
      obtain rfl : m = n := of_decide_eq_true own
      have idle := old.idle
      have oneShot := old.oneShot
      have failed : ∀ err, call.caller = .failed err → link.Forgot m := old.failed
      simp only [AgentLink.step, found, Option.bind_some, AgentLink.nextPayload,
        AgentLink.handed] at stepped
      repeat' split at stepped
      all_goals cases stepped
      all_goals
        simp only [AgentLink.setCall_calls, if_true, Option.some.injEq] at found'
        subst found'
        refine ⟨?_, ?_, by simp, ?_⟩
      all_goals first | exact failed | simp_all [Kind.isStream]
  | begin _ | endStream _ | setOutbound | transmit | closeWire | arrive _ | hangUp | read
  | lookUpStream | handOver | lookUpPending | clearPending | clearStreams | clearOutbound =>
      cases own

theorem GivenUp.step (old : ∀ call, link.calls n = some call → GivenUp link n call)
    (registered : Registered link) (stepped : link.step event = some next)
    {call' : Call Reply Command} (found' : next.calls n = some call') : GivenUp next n call' := by
  rcases call_before stepped found' with own | ⟨registering, idle⟩ | ⟨call, found, kind, caller, feeder⟩
  · cases event with
    | register m | readOutbound m | nextPayload m payload | handed m | unregister m | receive m
    | timeOut m | removeExpired m | drop m =>
        obtain rfl : m = n := of_decide_eq_true own
        obtain ⟨call, found, _⟩ := Option.bind_eq_some_iff.1 stepped
        exact (old call found).own registered found own stepped found'
    | begin _ | endStream _ | setOutbound | transmit | closeWire | arrive _ | hangUp | read
    | lookUpStream | handOver | lookUpPending | clearPending | clearStreams | clearOutbound =>
        cases own
  · exact ⟨fun _ => idle, by simp [registering], by simp [idle], by simp [registering]⟩
  · have before := old call found
    refine ⟨?_, ?_, ?_, ?_⟩
    · rw [caller, feeder]
      exact before.idle
    · rw [caller, kind]
      exact before.oneShot
    · intro last requestId there
      rw [feeder] at last
      rcases pending_before stepped there with there | ⟨_, other, found'', registering⟩
      · exact before.pending last requestId there
      · cases found.symm.trans found''
        simp [before.idle registering] at last
    · intro err failed
      rw [caller] at failed
      exact (before.failed err failed).step ⟨call, found, by simp [failed]⟩ stepped

/-! The background sender of `call_bidi_streamed`. -/

/-- What becomes of a call that has returned its receiver. -/
def Caller.hasReturned : Caller Reply → Bool
  | listening | ended | dropped => true
  | registering | readingOutbound | feeding | waiting | expired | replied _ | failed _ => false

/-- The background sender sends only once the call has returned. -/
def Call.SendsLater (call : Call Reply Command) : Prop :=
  call.kind = .bidiStreamed → (call.feeder = .next ∨ ∃ command, call.feeder = .handing command) →
    call.caller.hasReturned = true

theorem sendsLater_step
    (old : ∀ n call, link.calls n = some call → GivenUp link n call ∧ call.SendsLater)
    (stepped : link.step event = some next) {call' : Call Reply Command}
    (found' : next.calls n = some call') : call'.SendsLater := by
  rcases call_before stepped found' with own | ⟨_, idle⟩ | ⟨call, found, kind, caller, feeder⟩
  · cases event with
    | register m | readOutbound m | nextPayload m payload | handed m | unregister m | receive m
    | timeOut m | removeExpired m | drop m =>
        obtain rfl : m = n := of_decide_eq_true own
        obtain ⟨call, found, stepped⟩ := Option.bind_eq_some_iff.1 stepped
        obtain ⟨givenUp, later⟩ := old m call found
        have idle := givenUp.idle
        clear old givenUp
        simp only [AgentLink.register, AgentLink.readOutbound, AgentLink.nextPayload,
          AgentLink.handed, AgentLink.unregister, AgentLink.receive, AgentLink.timeOut,
          AgentLink.removeExpired, AgentLink.drop] at stepped
        repeat' split at stepped
        all_goals cases stepped
        all_goals
          simp only [AgentLink.setCall_calls, if_true, Option.some.injEq] at found'
          subst found'
          simp_all [Call.SendsLater, Caller.hasReturned]
    | begin _ | endStream _ | setOutbound | transmit | closeWire | arrive _ | hangUp | read
    | lookUpStream | handOver | lookUpPending | clearPending | clearStreams | clearOutbound =>
        cases own
  · simp [Call.SendsLater, idle]
  · have later := (old n call found).2
    rw [Call.SendsLater, kind, caller, feeder]
    exact later

/-- A send of the background sender has failed: it takes the call out of both maps and stops. -/
def AgentLink.Stopping (link : AgentLink Reply Command) (n : Nat) : Prop :=
  ∃ call, link.calls n = some call ∧ call.kind = .bidiStreamed ∧ call.caller.hasReturned = true ∧
    (call.feeder = .unregisteringPending ∨ call.feeder = .unregisteringStreams ∨
      call.feeder = .stopped ∧ link.Forgot n)

theorem stopping_of_failure (later : call.SendsLater) (found : link.calls n = some call)
    (bidi : call.kind = .bidiStreamed) (closed : link.wireOpen = false)
    (stepped : link.step (.handed n) = some next) : next.Stopping n := by
  simp only [AgentLink.step, found, Option.bind_some, AgentLink.handed, closed, Bool.not_false,
    if_true] at stepped
  split at stepped
  · rename_i command handing
    cases stepped
    exact ⟨_, AgentLink.setCall_calls.trans (if_pos rfl), bidi, later bidi (.inr ⟨command, handing⟩),
      .inl rfl⟩
  · cases stepped

theorem AgentLink.Stopping.step (stopping : link.Stopping n) (registered : Registered link)
    (givenUp : ∀ call, link.calls n = some call → GivenUp link n call)
    (stepped : link.step event = some next) : next.Stopping n := by
  obtain ⟨call, found, bidi, returned, progress⟩ := stopping
  have begun : link.Begun n := ⟨call, found, fun same => by simp [same, Caller.hasReturned] at returned⟩
  obtain ⟨call', found', past⟩ := begun.step registered stepped
  have carried : call.feeder = .unregisteringPending ∨ call.feeder = .unregisteringStreams ∨
      call.feeder = .stopped ∧ next.Forgot n :=
    progress.imp_right fun progress => progress.imp_right fun ⟨stopped, forgot⟩ =>
      ⟨stopped, forgot.step begun stepped⟩
  rcases call_before stepped found' with own | ⟨registering, _⟩ | ⟨_, same, kind, caller, feeder⟩
  · cases event with
    | unregister m =>
        obtain rfl : m = n := of_decide_eq_true own
        simp only [AgentLink.step, found, Option.bind_some, AgentLink.unregister] at stepped
        split at stepped
        · cases stepped
          exact ⟨_, AgentLink.setCall_calls.trans (if_pos rfl), bidi, returned, .inr (.inl rfl)⟩
        · rename_i unregistering
          split at stepped
          · simp_all [Caller.hasReturned]
          · cases stepped
            refine ⟨_, AgentLink.setCall_calls.trans (if_pos rfl), bidi, returned,
              .inr (.inr ⟨rfl, fun requestId => ⟨?_, registered.no_stream_after found requestId⟩⟩)⟩
            exact (givenUp call found).pending unregistering requestId
        · cases stepped
    | receive m | drop m =>
        obtain rfl : m = n := of_decide_eq_true own
        simp only [AgentLink.step, found, Option.bind_some, AgentLink.receive,
          AgentLink.drop] at stepped
        repeat' split at stepped
        all_goals cases stepped
        all_goals
          refine ⟨_, AgentLink.setCall_calls.trans (if_pos rfl), bidi, ?_, ?_⟩
          · simp_all [Caller.hasReturned]
          · first | exact carried | simp_all [Caller.hasReturned]
    | register m | readOutbound m | nextPayload m payload | handed m | timeOut m
    | removeExpired m =>
        obtain rfl : m = n := of_decide_eq_true own
        simp only [AgentLink.step, found, Option.bind_some, AgentLink.register,
          AgentLink.readOutbound, AgentLink.nextPayload, AgentLink.handed, AgentLink.timeOut,
          AgentLink.removeExpired] at stepped
        clear carried begun found' past
        repeat' split at stepped
        all_goals simp_all [Caller.hasReturned]
    | begin _ | endStream _ | setOutbound | transmit | closeWire | arrive _ | hangUp | read
    | lookUpStream | handOver | lookUpPending | clearPending | clearStreams | clearOutbound =>
        cases own
  · exact absurd registering past
  · cases found.symm.trans same
    exact ⟨call', found', kind.trans bidi, caller ▸ returned, feeder ▸ carried⟩

/-! A receiver whose call is forgotten. -/

/-- The receiver of the call takes what is there, and `resolve` hands over what it holds. -/
def Event.Drains (n : Nat) : Event Reply Command → Prop
  | .receive m => m = n
  | .handOver => True
  | _ => False

/-- Whoever listens takes the messages that have come, one by one. -/
theorem leads_drained (inbox : List Reply) : ∀ (link : AgentLink Reply Command)
    (call : Call Reply Command), link.calls n = some call → call.caller = .listening →
      call.inbox = inbox → ∃ later call', (machine Reply Command).Leads (Event.Drains n) link later ∧
        later.calls n = some call' ∧ call'.caller = .listening ∧ call'.inbox = [] ∧
          later.pending = link.pending ∧ later.streams = link.streams ∧
            later.reader = link.reader := by
  induction inbox with
  | nil =>
      intro link call found listening empty
      exact ⟨link, call, .refl, found, listening, empty, rfl, rfl, rfl⟩
  | cons payload rest ih =>
      intro link call found listening inbox
      let taken : Call Reply Command :=
        { call with inbox := rest, yielded := call.yielded ++ [payload] }
      have stepped : link.step (.receive n) = some (link.setCall n taken) := by
        simp only [AgentLink.step, found, Option.bind_some, AgentLink.receive, listening, inbox]
        simp [taken, listening]
      obtain ⟨later, call', leads, rest⟩ :=
        ih (link.setCall n taken) taken (AgentLink.setCall_calls.trans (if_pos rfl)) listening rfl
      exact ⟨later, call', leads.head (show Event.Drains n (.receive n) from rfl) stepped, rest⟩

theorem ended_of_drained (found : link.calls n = some call) (listening : call.caller = .listening)
    (empty : call.inbox = []) (forgot : link.Forgot n) (free : link.reader.holds n = false) :
    ∃ later call', (machine Reply Command).Leads (Event.Drains n) link later ∧
      later.calls n = some call' ∧ call'.caller = .ended := by
  have closed : link.hasSender n call = false := by
    simp [AgentLink.hasSender, (forgot call.requestId).1, (forgot call.requestId).2, free]
  have stepped : link.step (.receive n) =
      some (link.setCall n { call with caller := .ended }) := by
    simp only [AgentLink.step, found, Option.bind_some, AgentLink.receive, listening, empty, closed]
    simp
  exact ⟨_, { call with caller := .ended }, .single (show Event.Drains n (.receive n) from rfl) stepped,
    AgentLink.setCall_calls.trans (if_pos rfl), rfl⟩

/-- The receiver of a call that is in no map ends by steps of its own and of `resolve`. -/
theorem receiver_ends (found : link.calls n = some call) (listening : call.caller = .listening)
    (forgot : link.Forgot n) : ∃ later call',
      (machine Reply Command).Leads (Event.Drains n) link later ∧ later.calls n = some call' ∧
        call'.caller = .ended := by
  obtain ⟨drained, taken, leads, found, listening, empty, pending, streams, reader⟩ :=
    leads_drained call.inbox link call found listening rfl
  have forgotten : drained.Forgot n := by
    intro requestId
    rw [pending, streams]
    exact forgot requestId
  cases holds : drained.reader.holds n with
  | false =>
      obtain ⟨later, call', more, ended⟩ := ended_of_drained found listening empty forgotten holds
      exact ⟨later, call', leads.trans more, ended⟩
  | true =>
      obtain ⟨payload, handing⟩ : ∃ payload, drained.reader = .handing n payload := by
        unfold Reader.holds at holds
        split at holds
        · rename_i m payload handing
          exact ⟨payload, (of_decide_eq_true holds) ▸ handing⟩
        all_goals cases holds
      let given : AgentLink Reply Command :=
        { drained with reader := .reading }.setCall n { taken with inbox := [payload] }
      have stepped : drained.step .handOver = some given := by
        simp only [AgentLink.step, AgentLink.handOver, handing, found, Option.bind_some, listening,
          empty]
        simp [Caller.hears, streamChannelCapacity, given, listening]
      obtain ⟨later, call', more, found', listening', empty', pending', streams', reader'⟩ :=
        leads_drained [payload] given { taken with inbox := [payload] }
          (AgentLink.setCall_calls.trans (if_pos rfl)) listening rfl
      have forgotten' : later.Forgot n := by
        intro requestId
        rw [pending', streams']
        exact forgotten requestId
      obtain ⟨last, call'', rest, ended⟩ := ended_of_drained found' listening' empty' forgotten'
        (by rw [reader']; rfl)
      have handsOver : (machine Reply Command).Leads (Event.Drains n) drained last :=
        .head (show Event.Drains n .handOver from trivial) stepped (more.trans rest)
      exact ⟨last, call'', leads.trans handsOver, ended⟩

/-! Every run. -/

/-- The run has been in this state, or is in it now. -/
def Passed (history : History Reply Command) (link earlier : AgentLink Reply Command) : Prop :=
  earlier = link ∨ ∃ event, (earlier, event) ∈ history

/-- What is promised of calls that are over. An id is handed out again after `2 ^ 64` calls. -/
structure Unregistered (history : History Reply Command) (link : AgentLink Reply Command) :
    Prop where
  failed : ∀ earlier, Passed history link earlier → ∀ n call err, earlier.calls n = some call →
    call.caller = .failed err → link.Forgot n ∧ (link.started ≤ 2 ^ 64 →
      link.pending call.requestId = none ∧ link.streams call.requestId = none)
  replied : ∀ earlier, Passed history link earlier → ∀ n call payload,
    earlier.calls n = some call → call.caller = .replied payload →
      (∀ requestId, link.pending requestId ≠ some n) ∧
        (link.started ≤ 2 ^ 64 → link.pending call.requestId = none)
  /-- Once the background sender has stopped after a failed send. -/
  sender : ∀ earlier n call call', (earlier, .handed n) ∈ history → earlier.calls n = some call →
    call.kind = .bidiStreamed → earlier.wireOpen = false → link.calls n = some call' →
      call'.feeder = .stopped → link.Forgot n ∧
        (link.started ≤ 2 ^ 64 → link.streams call.requestId = none) ∧
          (call'.caller = .listening → ∃ later ended,
            (machine Reply Command).Leads (Event.Drains n) link later ∧
              later.calls n = some ended ∧ ended.caller = .ended)

/-- The invariants of a link, whatever happens on it. -/
structure Kempt (link : AgentLink Reply Command) : Prop where
  registered : Registered link
  calls : ∀ n call, link.calls n = some call → GivenUp link n call ∧ call.SendsLater

theorem kempt_new : Kempt (AgentLink.new : AgentLink Reply Command) :=
  ⟨registered_new, fun _ _ found => nomatch found⟩

theorem Kempt.step (kempt : Kempt link) (stepped : link.step event = some next) : Kempt next where
  registered := kempt.registered.moves (AgentLink.step_effect stepped)
  calls := fun n _ found' =>
    ⟨GivenUp.step (fun call found => (kempt.calls n call found).1) kempt.registered stepped found',
      sendsLater_step kempt.calls stepped found'⟩

theorem Kempt.replied (kempt : Kempt link) {payload : Reply} (found : link.calls n = some call)
    (replied : call.caller = .replied payload) (requestId : Nat) :
    link.pending requestId ≠ some n := by
  intro there
  obtain ⟨other, found', _, _, _, _, unanswered⟩ := kempt.registered.pending requestId n there
  cases found.symm.trans found'
  exact unanswered payload replied

theorem passed_step {earlier : AgentLink Reply Command}
    (passed : Passed ((link, event) :: history) next earlier) :
    earlier = next ∨ Passed history link earlier := by
  rcases passed with now | ⟨other, member⟩
  · exact .inl now
  rcases List.mem_cons.1 member with same | before
  · cases same
    exact .inr (.inl rfl)
  · exact .inr (.inr ⟨other, before⟩)

/-- The same promises, with what makes them last. -/
structure Bygone (history : History Reply Command) (link : AgentLink Reply Command) : Prop where
  kempt : Kempt link
  known : ∀ earlier, Passed history link earlier → ∀ n call, earlier.calls n = some call →
    call.requestId = requestIdOf n
  failed : ∀ earlier, Passed history link earlier → ∀ n call err, earlier.calls n = some call →
    call.caller = .failed err → link.Begun n ∧ link.Forgot n
  replied : ∀ earlier, Passed history link earlier → ∀ n call payload,
    earlier.calls n = some call → call.caller = .replied payload →
      link.Begun n ∧ ∀ requestId, link.pending requestId ≠ some n
  sender : ∀ earlier n call, (earlier, .handed n) ∈ history → earlier.calls n = some call →
    call.kind = .bidiStreamed → earlier.wireOpen = false → link.Stopping n

theorem Bygone.step (bygone : Bygone history link) (stepped : link.step event = some next) :
    Bygone ((link, event) :: history) next := by
  have kempt := bygone.kempt.step stepped
  refine ⟨kempt, ?_, ?_, ?_, ?_⟩
  · intro earlier passed n call found
    rcases passed_step passed with rfl | before
    · exact (kempt.registered.known n call found).2
    · exact bygone.known earlier before n call found
  · intro earlier passed n call err found failed
    rcases passed_step passed with rfl | before
    · exact ⟨⟨call, found, by simp [failed]⟩, (kempt.calls n call found).1.failed err failed⟩
    · obtain ⟨begun, forgot⟩ := bygone.failed earlier before n call err found failed
      exact ⟨begun.step bygone.kempt.registered stepped, forgot.step begun stepped⟩
  · intro earlier passed n call payload found replied
    rcases passed_step passed with rfl | before
    · exact ⟨⟨call, found, by simp [replied]⟩, kempt.replied found replied⟩
    · obtain ⟨begun, gone⟩ := bygone.replied earlier before n call payload found replied
      refine ⟨begun.step bygone.kempt.registered stepped, fun requestId there => ?_⟩
      rcases pending_before stepped there with there | ⟨_, other, found', registering⟩
      · exact gone requestId there
      · obtain ⟨same, found'', past⟩ := begun
        cases found'.symm.trans found''
        exact past registering
  · intro earlier n call member found bidi closed
    rcases List.mem_cons.1 member with same | before
    · cases same
      exact stopping_of_failure (bygone.kempt.calls n call found).2 found bidi closed stepped
    · exact (bygone.sender earlier n call before found bidi closed).step bygone.kempt.registered
        (fun other found' => (bygone.kempt.calls n other found').1) stepped

theorem bygone_of_run (run : (machine Reply Command).Run fine history link) : Bygone history link := by
  refine run.invariant Bygone ?_ fun history link event next bygone stepped _ => bygone.step stepped
  intro link isInitial
  rw [eq_new isInitial]
  have fresh : ∀ earlier : AgentLink Reply Command, Passed [] AgentLink.new earlier → ∀ n call,
      earlier.calls n ≠ some call := by
    rintro _ (rfl | ⟨_, member⟩) n call found
    · cases found
    · cases member
  refine ⟨kempt_new, ?_, ?_, ?_, fun _ _ _ member => nomatch member⟩
  · exact fun earlier passed n call found => absurd found (fresh earlier passed n call)
  · exact fun earlier passed n call _ found => absurd found (fresh earlier passed n call)
  · exact fun earlier passed n call _ found => absurd found (fresh earlier passed n call)

/-- Among the first `2 ^ 64` calls nobody else has the id. -/
theorem Bygone.alone (bygone : Bygone history link) {m : Nat} (begun : link.Begun n)
    (id : requestId = requestIdOf n) (few : link.started ≤ 2 ^ 64)
    (there : link.pending requestId = some m ∨ link.streams requestId = some m) : m = n := by
  obtain ⟨call, found, _⟩ := begun
  obtain ⟨below, _⟩ := bygone.kempt.registered.known n call found
  obtain ⟨other, found', same⟩ : ∃ other, link.calls m = some other ∧ other.requestId = requestId := by
    rcases there with there | there
    · obtain ⟨other, found', same, _⟩ := bygone.kempt.registered.pending requestId m there
      exact ⟨other, found', same⟩
    · obtain ⟨other, found', same, _⟩ := bygone.kempt.registered.streams requestId m there
      exact ⟨other, found', same⟩
  obtain ⟨below', id'⟩ := bygone.kempt.registered.known m other found'
  apply requestIdOf_injective
  · omega
  · omega
  · rw [← id', same, id]

/-- A failed call leaves no registration. -/
theorem no_registration_left (run : (machine Reply Command).Run (fun _ _ => True) history link) :
    Unregistered history link := by
  have bygone := bygone_of_run run
  have none_of : ∀ (map : Nat → Option Nat) (requestId n : Nat), map requestId ≠ some n →
      (∀ m, map requestId = some m → m = n) → map requestId = none := by
    intro map requestId n gone only
    cases there : map requestId with
    | none => rfl
    | some m => exact absurd (only m there ▸ there) gone
  refine ⟨?_, ?_, ?_⟩
  · intro earlier passed n call err found failed
    obtain ⟨begun, forgot⟩ := bygone.failed earlier passed n call err found failed
    have id := bygone.known earlier passed n call found
    refine ⟨forgot, fun few => ⟨?_, ?_⟩⟩
    · exact none_of _ _ n (forgot _).1 fun m there => bygone.alone begun id few (.inl there)
    · exact none_of _ _ n (forgot _).2 fun m there => bygone.alone begun id few (.inr there)
  · intro earlier passed n call payload found replied
    obtain ⟨begun, gone⟩ := bygone.replied earlier passed n call payload found replied
    have id := bygone.known earlier passed n call found
    exact ⟨gone, fun few => none_of _ _ n (gone _) fun m there =>
      bygone.alone begun id few (.inl there)⟩
  · intro earlier n call call' member found bidi closed found' stopped
    have stopping := bygone.sender earlier n call member found bidi closed
    have id := bygone.known earlier (.inr ⟨_, member⟩) n call found
    obtain ⟨other, found'', _, returned, progress⟩ := stopping
    cases found'.symm.trans found''
    have forgot : link.Forgot n := by simpa [stopped] using progress
    have begun : link.Begun n := ⟨call', found', fun same => by simp [same, Caller.hasReturned] at returned⟩
    refine ⟨forgot, fun few => ?_, fun listening => receiver_ends found' listening forgot⟩
    exact none_of _ _ n (forgot _).2 fun m there => bygone.alone begun id few (.inr there)

/-- A refused call, an answered one, and a background sender whose channel closes. -/
def threeEnds : List (Event Nat Nat) :=
  [.begin .streamed, .register 0, .readOutbound 0, .unregister 0, .unregister 0, .setOutbound,
    .begin .streamed, .register 1, .readOutbound 1, .nextPayload 1 none, .arrive (2, some 20), .read,
    .lookUpStream, .lookUpPending, .receive 1, .begin .bidiStreamed, .register 2, .readOutbound 2,
    .nextPayload 2 (some 7), .closeWire, .handed 2, .unregister 2, .unregister 2]

theorem no_registration_left_three : ∃ (history : History Nat Nat) (link : AgentLink Nat Nat),
    (machine Nat Nat).Run (fun _ _ => True) history link ∧ link.started = 3 ∧
      Unregistered history link := by
  obtain ⟨link, ⟨history, run⟩, held⟩ := Machine.exists_of_play (machine Nat Nat)
    (fun _ _ => True) (fun _ _ => true) (fun link => link.started = 3)
    (fun _ _ _ => trivial) rfl threeEnds (by decide +kernel)
  exact ⟨history, link, run, of_decide_eq_true held, no_registration_left run⟩

/-! The counter comes round. -/

/-- Any number of calls can begin. -/
theorem leads_begun (link : AgentLink Reply Command) (count : Nat) : ∃ later,
    (machine Reply Command).Leads (fun _ => True) link later ∧
    later.started = link.started + count ∧ later.streams = link.streams ∧
      later.pending = link.pending ∧ ∀ n, n < link.started → later.calls n = link.calls n := by
  induction count with
  | zero => exact ⟨link, .refl, rfl, rfl, rfl, fun _ _ => rfl⟩
  | succ count ih =>
      obtain ⟨later, leads, started, streams, pending, calls⟩ := ih
      refine ⟨later.begin .streamed, leads.tail ⟨.begin .streamed, trivial, rfl⟩, ?_, streams, pending,
        fun n below => ?_⟩
      · simp only [AgentLink.begin, started]
        omega
      · have different : n ≠ later.started := by omega
        rw [← calls n below]
        exact Function.update_of_ne different _ _

def refused : List (Event Nat Nat) :=
  [.begin .streamed, .register 0, .readOutbound 0, .unregister 0, .unregister 0]

/-- The call has failed for want of an outbound channel. -/
def Call.isRefused (call : Call Reply Command) : Bool :=
  match call.caller with
  | .failed err => decide (err = .agentUnavailable)
  | _ => false

/-- After `2 ^ 64` more calls the id of a call that has failed is in `pending` again. -/
theorem id_comes_again : ∃ link : AgentLink Nat Nat, (machine Nat Nat).Reachable link ∧
    ∃ call, link.calls 0 = some call ∧ call.isRefused = true ∧
      link.pending call.requestId = some (2 ^ 64) := by
  obtain ⟨first, reachable, held⟩ := Machine.exists_of_play (machine Nat Nat)
    (fun _ _ => True) (fun _ _ => true)
    (fun link => link.started = 1 ∧
      (link.calls 0).any fun call => decide (call.requestId = 1) && call.isRefused)
    (fun _ _ _ => trivial) rfl refused (by decide +kernel)
  obtain ⟨one, isFirst⟩ := of_decide_eq_true held
  obtain ⟨call, found, isFirst⟩ := (Option.any_eq_true _ _).1 isFirst
  obtain ⟨id, isRefused⟩ := Bool.and_eq_true_iff.1 isFirst
  obtain ⟨later, leads, started, _, _, calls⟩ := leads_begun first (2 ^ 64 - 1)
  have reached := leads.reachable reachable
  have count : later.started = 2 ^ 64 := by omega
  obtain ⟨history, run⟩ := reached
  have next := (bygone_of_run run).kempt.registered.nextRequestId
  have again : later.nextRequestId = 1 := by
    rw [next, count]
    rfl
  let call' : Call Nat Nat := ⟨.streamed, later.nextRequestId, .registering, .idle, [], []⟩
  let last : AgentLink Nat Nat := later.begin .streamed
  have found' : last.calls (2 ^ 64) = some call' := by
    rw [← count]
    exact Function.update_self _ _ _
  let final : AgentLink Nat Nat :=
    { last.setCall (2 ^ 64) { call' with caller := .readingOutbound } with
      pending := Function.update last.pending call'.requestId (some (2 ^ 64)) }
  have registers : (machine Nat Nat).step last (.register (2 ^ 64)) = some final := by
    change last.step (.register (2 ^ 64)) = some final
    simp only [AgentLink.step, found', Option.bind_some, AgentLink.register, call', Kind.isStream]
    rfl
  have begins : (machine Nat Nat).step later (.begin .streamed) = some last := rfl
  have reached := Machine.Reachable.step ⟨history, run⟩ begins
  refine ⟨final, Machine.Reachable.step reached registers, call, ?_, isRefused, ?_⟩
  · have different : (0 : Nat) ≠ later.started := by omega
    have kept : last.calls 0 = some call := by
      rw [← found, ← calls 0 (by omega)]
      exact Function.update_of_ne different _ _
    have others : final.calls 0 = last.calls 0 := by simp [final]
    exact others.trans kept
  · have same : call'.requestId = call.requestId := again.trans (of_decide_eq_true id).symm
    have registered : final.pending call'.requestId = some (2 ^ 64) := Function.update_self _ _ _
    exact same ▸ registered

end Berth.Link
