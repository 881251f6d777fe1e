import Berth.Session.Replies

/-!
What the steps of one call leave alone on its link, and where what a link carries comes from.
-/

namespace Berth.Link

variable {Reply Command : Type} {link next : AgentLink Reply Command}
variable {event : Event Reply Command} {n : Nat} {call : Call Reply Command}

/-- The call has not returned yet. -/
def Caller.isCalling : Caller Reply → Bool
  | registering | readingOutbound | feeding => true
  | waiting | expired | replied _ | listening | ended | failed _ | dropped => false

/-- The events of the call itself, of its feeder and of whoever holds its receiver. -/
def Event.isOwn (n : Nat) : Event Reply Command → Bool
  | .register m | .readOutbound m | .nextPayload m _ | .handed m | .unregister m | .receive m
  | .timeOut m | .removeExpired m | .drop m => m = n
  | _ => false

/-- The events that no call takes part in. -/
def Event.isOfSession : Event Reply Command → Bool
  | .setOutbound | .transmit | .closeWire | .arrive _ | .hangUp | .read | .lookUpStream
  | .handOver | .lookUpPending | .clearPending | .clearStreams | .clearOutbound => true
  | .begin _ | .register _ | .readOutbound _ | .nextPayload _ _ | .handed _ | .unregister _
  | .receive _ | .timeOut _ | .removeExpired _ | .drop _ | .endStream _ => false

/-- The receiver that the call returned is dropped, or the call's own future is. -/
def AgentLink.dropReceiver (link : AgentLink Reply Command) (n : Nat) : AgentLink Reply Command :=
  (link.step (.drop n)).getD link

/-- Such an event moves the one call, and nothing of the others. -/
structure OwnStep (link next : AgentLink Reply Command) (n : Nat)
    (call call' : Call Reply Command) : Prop where
  found : next.calls n = some call'
  others : ∀ m, m ≠ n → next.calls m = link.calls m
  started : next.started = link.started
  kind : call'.kind = call.kind
  requestId : call'.requestId = call.requestId

theorem ownStep (found : link.calls n = some call) (own : event.isOwn n = true)
    (stepped : link.step event = some next) : ∃ call', OwnStep link next n call call' := by
  cases event with
  | register m | readOutbound m | nextPayload m payload | handed m | unregister m | receive m
  | timeOut m | removeExpired m | drop m =>
      have same : m = n := of_decide_eq_true own
      subst same
      simp only [AgentLink.step, found, Option.bind_some] at stepped
      simp only [AgentLink.register, AgentLink.readOutbound, AgentLink.nextPayload,
        AgentLink.handed, AgentLink.unregister, AgentLink.receive, AgentLink.timeOut,
        AgentLink.removeExpired, AgentLink.drop] at stepped
      repeat' split at stepped
      all_goals cases stepped
      all_goals
        exact ⟨_, AgentLink.setCall_calls.trans (if_pos rfl),
          fun other different => AgentLink.setCall_calls.trans (if_neg different), rfl, rfl, rfl⟩
  | begin _ | endStream _ | setOutbound | transmit | closeWire | arrive _ | hangUp | read
  | lookUpStream | handOver | lookUpPending | clearPending | clearStreams | clearOutbound =>
      cases own

/-- Only a call that registers gets into `streams`. -/
theorem streams_before (stepped : link.step event = some next)
    {requestId m : Nat} (there : next.streams requestId = some m) :
    link.streams requestId = some m ∨ event = .register m ∧
      ∃ call, link.calls m = some call ∧ call.caller = .registering := by
  cases AgentLink.step_effect stepped with
  | quiet _ quieter => exact .inl (quieter.streams requestId m there)
  | @registerStream n call found registering =>
      simp only [Function.update_apply] at there
      split at there
      · cases there
        exact .inr ⟨rfl, call, found, registering⟩
      · exact .inl there
  | begin | registerPending | reply | noReply | yield | ended | finished | skipped | read
  | matched | unmatched | unheard | handed | unknown | answered | forgotten => exact .inl there

theorem OwnStep.refl (found : link.calls n = some call) : OwnStep link link n call call :=
  ⟨found, fun _ _ => rfl, rfl, rfl, rfl⟩

theorem OwnStep.trans {middle : AgentLink Reply Command} {call' call'' : Call Reply Command}
    (first : OwnStep link middle n call call') (second : OwnStep middle next n call' call'') :
    OwnStep link next n call call'' :=
  ⟨second.found, fun m different => (second.others m different).trans (first.others m different),
    second.started.trans first.started, second.kind.trans first.kind,
    second.requestId.trans first.requestId⟩

theorem OwnStep.removeStream {call' : Call Reply Command} (own : OwnStep link next n call call')
    (requestId : Nat) : OwnStep link (next.removeStream requestId) n call call' :=
  ⟨own.found, own.others, own.started, own.kind, own.requestId⟩

/-- What a call of `call_bidi_streamed` has come to after a step of its own. -/
theorem bidi_caller {call' : Call Reply Command} (found : link.calls n = some call)
    (bidi : call.kind = .bidiStreamed) (stepped : link.step event = some next)
    (found' : next.calls n = some call') :
    match event with
    | .register _ => event.isOwn n = true →
        call.caller = .registering ∧ call'.caller = .readingOutbound
    | .readOutbound _ => event.isOwn n = true → call.caller = .readingOutbound ∧
        (call'.caller = .listening ∨ call'.caller = .feeding)
    | .nextPayload _ _ | .handed _ => event.isOwn n = true → call'.caller = call.caller
    | .unregister _ => event.isOwn n = true → call'.caller = call.caller ∨
        call.caller = .feeding ∧ call'.caller = .failed .agentUnavailable ∧
          next.streams call.requestId = none
    | .receive _ => event.isOwn n = true → call'.caller.isCalling = false
    | .drop _ => event.isOwn n = true → call'.caller = .dropped
    | _ => True := by
  cases event with
  | register m | readOutbound m | nextPayload m payload | handed m | unregister m | receive m
  | drop m =>
      intro own
      have same : m = n := of_decide_eq_true own
      subst same
      simp only [AgentLink.step, found, Option.bind_some] at stepped
      simp only [AgentLink.register, AgentLink.readOutbound, AgentLink.nextPayload,
        AgentLink.handed, AgentLink.unregister, AgentLink.receive, AgentLink.drop, bidi] at stepped
      repeat' split at stepped
      all_goals cases stepped
      all_goals
        simp only [AgentLink.setCall_calls, if_true, Option.some.injEq] at found'
        subst found'
      all_goals simp_all [Caller.isCalling]
  | timeOut _ | removeExpired _ | begin _ | endStream _ | setOutbound | transmit | closeWire
  | arrive _ | hangUp | read | lookUpStream | handOver | lookUpPending | clearPending
  | clearStreams | clearOutbound => trivial

/-! What a call that moves leaves alone. -/

theorem started_le (effect : Effect link event next) : link.started ≤ next.started := by
  cases effect with
  | quiet _ quieter => exact Nat.le_of_eq quieter.started.symm
  | begin kind => exact Nat.le_succ _
  | _ => exact Nat.le_refl _

/-- The steps of the reader loop and of `resolve`. -/
def Event.IsReader : Event Reply Command → Prop
  | .read | .lookUpStream | .handOver | .lookUpPending => True
  | _ => False

theorem reader_keeps (stepped : link.step event = some next) (isReader : event.IsReader) :
    next.wire = link.wire ∧ next.streamsCleared = link.streamsCleared ∧
      next.streams = link.streams := by
  cases AgentLink.step_effect stepped with
  | finished | skipped | read | matched | unmatched | unheard | handed | unknown | answered
  | forgotten => exact ⟨rfl, rfl, rfl⟩
  | begin | registerStream | registerPending | reply | noReply | yield | ended => cases isReader
  | quiet isQuiet =>
      cases event <;> first | exact isReader.elim | exact nomatch isQuiet

/-- The call's feeder is just about to take it out of `streams`. -/
def Call.unregisters (call : Call Reply Command) : Bool :=
  match call.feeder with
  | .unregisteringStreams => true
  | .idle | .next | .handing _ | .unregisteringPending | .stopped => false

/-- A registration lasts until the call gives it up, another one takes it, or it is ended. -/
theorem streams_after (stepped : link.step event = some next) {requestId : Nat}
    (there : link.streams requestId = some n) :
    next.streams requestId = some n ∨ event = .clearStreams ∨ event = .endStream requestId ∨
      ∃ m call, link.calls m = some call ∧ call.requestId = requestId ∧
        (event = .register m ∧ call.caller = .registering ∨
          event = .unregister m ∧ call.unregisters = true) := by
  cases event with
  | register m =>
      obtain ⟨call, found, stepped⟩ := Option.bind_eq_some_iff.1 stepped
      simp only [AgentLink.register] at stepped
      split at stepped
      · rename_i registering
        split at stepped <;> cases stepped
        · by_cases same : call.requestId = requestId
          · exact .inr (.inr (.inr ⟨m, call, found, same, .inl ⟨rfl, registering⟩⟩))
          · exact .inl (by simpa [Function.update_of_ne (Ne.symm same)] using there)
        · exact .inl there
      · cases stepped
  | unregister m =>
      obtain ⟨call, found, stepped⟩ := Option.bind_eq_some_iff.1 stepped
      simp only [AgentLink.unregister] at stepped
      split at stepped
      · cases stepped
        exact .inl there
      · rename_i unregistering
        by_cases same : call.requestId = requestId
        · exact .inr (.inr (.inr ⟨m, call, found, same, .inr ⟨rfl, by
            simp [Call.unregisters, unregistering]⟩⟩))
        · have kept : (link.removeStream call.requestId).streams requestId = some n := by
            simpa [Ne.symm same] using there
          split at stepped <;> cases stepped <;> exact .inl kept
      · cases stepped
  | endStream other =>
      cases stepped
      by_cases same : requestId = other
      · exact .inr (.inr (.inl (by rw [same])))
      · exact .inl (by simpa [same] using there)
  | clearStreams => exact .inr (.inl rfl)
  | readOutbound m | nextPayload m payload | handed m | receive m | timeOut m | removeExpired m
  | drop m =>
      obtain ⟨call, found, stepped⟩ := Option.bind_eq_some_iff.1 stepped
      simp only [AgentLink.readOutbound, AgentLink.nextPayload, AgentLink.handed, AgentLink.receive,
        AgentLink.timeOut, AgentLink.removeExpired, AgentLink.drop] at stepped
      repeat' split at stepped
      all_goals cases stepped
      all_goals exact .inl there
  | read | lookUpStream | handOver | lookUpPending =>
      exact .inl ((reader_keeps stepped (by simp [Event.IsReader])).2.2 ▸ there)
  | begin _ | setOutbound | transmit | closeWire | arrive _ | hangUp | clearPending
  | clearOutbound =>
      simp only [AgentLink.step] at stepped
      repeat' split at stepped
      all_goals cases stepped
      all_goals exact .inl there

/-! Whatever a link carries has arrived under the id it is for. -/

/-- A payload is on its way to the caller of this id, or in the caller's channel. -/
def AgentLink.Brings (link : AgentLink Reply Command) (requestId : Nat) (payload : Reply) : Prop :=
  (requestId, some payload) ∈ link.inbound ∨ link.reader = .routing requestId payload ∨
    link.reader = .unmatched requestId payload ∨
    ∃ n call, link.calls n = some call ∧ call.requestId = requestId ∧
      (link.reader = .handing n payload ∨ payload ∈ call.inbox)

theorem inbound_step (stepped : link.step event = some next) {message : Nat × Option Reply}
    (coming : message ∈ next.inbound) : message ∈ link.inbound ∨ event = .arrive message := by
  cases AgentLink.step_effect stepped with
  | finished | skipped reading inbound | read reading inbound =>
      first | exact .inl coming | exact .inl (inbound ▸ List.mem_cons_of_mem _ coming)
  | begin | registerStream | registerPending | reply | noReply | yield | ended | matched | unmatched
  | unheard | handed | unknown | answered | forgotten => exact .inl coming
  | quiet isQuiet quieter =>
      cases event with
      | arrive other =>
          simp only [AgentLink.step] at stepped
          split at stepped <;> cases stepped
          rcases List.mem_append.1 coming with before | new
          · exact .inl before
          · exact .inr (by rw [List.mem_singleton.1 new])
      | setOutbound | transmit | closeWire | hangUp | clearPending | clearStreams | clearOutbound
      | endStream _ =>
          simp only [AgentLink.step] at stepped
          repeat' split at stepped
          all_goals cases stepped
          all_goals exact .inl coming
      | readOutbound n | nextPayload n payload | handed n | unregister n | timeOut n
      | removeExpired n | drop n =>
          obtain ⟨call, found, stepped⟩ := Option.bind_eq_some_iff.1 stepped
          simp only [AgentLink.readOutbound, AgentLink.nextPayload, AgentLink.handed,
            AgentLink.unregister, AgentLink.timeOut, AgentLink.removeExpired, AgentLink.drop] at stepped
          repeat' split at stepped
          all_goals cases stepped
          all_goals exact .inl coming
      | begin _ | register _ | receive _ | read | lookUpStream | handOver | lookUpPending =>
          cases isQuiet

/-- The calls of a link carry nothing new. -/
def CarriesLess (link next : AgentLink Reply Command) : Prop :=
  ∀ m call', next.calls m = some call' → call'.inbox = [] ∨ ∃ call, link.calls m = some call ∧
    call'.requestId = call.requestId ∧ ∀ payload ∈ call'.inbox, payload ∈ call.inbox

theorem carriesLess_setCall {call' : Call Reply Command} (found : link.calls n = some call)
    (sameId : call'.requestId = call.requestId) (less : ∀ payload ∈ call'.inbox, payload ∈ call.inbox) :
    CarriesLess link (link.setCall n call') := by
  intro m other there
  simp only [AgentLink.setCall_calls] at there
  split at there
  · rename_i same
    cases there
    exact .inr ⟨call, same ▸ found, sameId, less⟩
  · exact .inr ⟨other, there, rfl, fun _ => id⟩

theorem carriesLess_of_quieter (quieter : Quieter link next) : CarriesLess link next := by
  intro m call' there
  obtain ⟨call, found, quiet⟩ := quieter.calls m call' there
  exact .inr ⟨call, found, quiet.requestId, fun _ member => quiet.inbox ▸ member⟩

theorem inbox_step (registered : Registered link) (stepped : link.step event = some next)
    {m : Nat} {call' : Call Reply Command} (there : next.calls m = some call') {payload : Reply}
    (has : payload ∈ call'.inbox) : link.Brings call'.requestId payload := by
  have less : CarriesLess link next → link.Brings call'.requestId payload := by
    intro less
    rcases less m call' there with empty | ⟨call, found, id, among⟩
    · rw [empty] at has
      cases has
    · exact .inr (.inr (.inr ⟨m, call, found, id.symm, .inr (among payload has)⟩))
  cases AgentLink.step_effect stepped with
  | quiet isQuiet quieter => exact less (carriesLess_of_quieter quieter)
  | begin kind =>
      refine less fun m other there => ?_
      simp only [AgentLink.begin, Function.update_apply] at there
      split at there
      · cases there
        exact .inl rfl
      · exact .inr ⟨other, there, rfl, fun _ => id⟩
  | registerStream found | registerPending found | noReply found | ended found =>
      exact less (carriesLess_setCall found rfl fun _ => id)
  | reply found waiting inbox | yield found listening inbox =>
      exact less (carriesLess_setCall found rfl fun _ among => inbox ▸ List.mem_cons_of_mem _ among)
  | finished | skipped | read | matched | unmatched | unheard | unknown | forgotten =>
      exact .inr (.inr (.inr ⟨m, call', there, rfl, .inr has⟩))
  | @handed n offered call handing found hears room =>
      simp only [AgentLink.setCall_calls] at there
      split at there
      · rename_i same
        cases there
        rcases List.mem_append.1 has with before | new
        · exact .inr (.inr (.inr ⟨n, call, found, rfl, .inr before⟩))
        · cases List.mem_singleton.1 new
          exact .inr (.inr (.inr ⟨n, call, found, rfl, .inl handing⟩))
      · exact .inr (.inr (.inr ⟨m, call', there, rfl, .inr has⟩))
  | @answered id n offered call unmatched pending found hears =>
      simp only [AgentLink.setCall_calls] at there
      split at there
      · cases there
        cases List.mem_singleton.1 has
        obtain ⟨_, same, isId, _⟩ := registered.pending id n pending
        cases found.symm.trans same
        exact .inr (.inr (.inl (isId ▸ unmatched)))
      · exact .inr (.inr (.inr ⟨m, call', there, rfl, .inr has⟩))

/-- What the reader task has in its hands, and for which caller. -/
def AgentLink.Holds (link : AgentLink Reply Command) (requestId : Nat) (payload : Reply) : Prop :=
  link.reader = .routing requestId payload ∨ link.reader = .unmatched requestId payload ∨
    ∃ n call, link.calls n = some call ∧ call.requestId = requestId ∧ link.reader = .handing n payload

theorem Holds.brings {requestId : Nat} {payload : Reply} (holds : link.Holds requestId payload) :
    link.Brings requestId payload := by
  rcases holds with routing | unmatched | ⟨n, call, found, id, handing⟩
  · exact .inr (.inl routing)
  · exact .inr (.inr (.inl unmatched))
  · exact .inr (.inr (.inr ⟨n, call, found, id, .inl handing⟩))

theorem holds_step (registered : Registered link) (stepped : link.step event = some next)
    {requestId : Nat} {payload : Reply} (holds : next.Holds requestId payload) :
    link.Brings requestId payload := by
  have same : next.reader = link.reader → (∀ m call', next.calls m = some call' →
      ∃ call, (link.calls m = some call ∨ m = link.started) ∧ call'.requestId = call.requestId) →
        link.Brings requestId payload := by
    intro reader calls
    refine Holds.brings (holds.imp (reader ▸ ·) (Or.imp (reader ▸ ·) ?_))
    rintro ⟨n, call', there, id, handing⟩
    rw [reader] at handing
    obtain ⟨known, found, _⟩ := registered.handing n payload handing
    obtain ⟨call, found' | isNew, id'⟩ := calls n call' there
    · exact ⟨n, call, found', id'.symm.trans id, handing⟩
    · exact absurd isNew (Nat.ne_of_lt (registered.known n known found).1)
  have moved : ∀ {n call call'}, link.calls n = some call → call'.requestId = call.requestId →
      ∀ m other, (link.setCall n call').calls m = some other →
        ∃ call, (link.calls m = some call ∨ m = link.started) ∧ other.requestId = call.requestId := by
    intro n call call' found id m other there
    simp only [AgentLink.setCall_calls] at there
    split at there
    · rename_i isSame
      cases there
      exact ⟨call, .inl (isSame ▸ found), id⟩
    · exact ⟨other, .inl there, rfl⟩
  cases AgentLink.step_effect stepped with
  | quiet isQuiet quieter =>
      refine same quieter.reader fun m call' there => ?_
      obtain ⟨call, found, quiet⟩ := quieter.calls m call' there
      exact ⟨call, .inl found, quiet.requestId⟩
  | begin kind =>
      refine same rfl fun m other there => ?_
      simp only [AgentLink.begin, Function.update_apply] at there
      split at there
      · rename_i isNew
        exact ⟨other, .inr isNew, rfl⟩
      · exact ⟨other, .inl there, rfl⟩
  | registerStream found | registerPending found | reply found | noReply found | yield found
  | ended found => exact same rfl (moved found rfl)
  | finished | unheard | handed | unknown | answered | forgotten =>
      rcases holds with routing | unmatched | ⟨_, _, _, _, handing⟩
      · cases routing
      · cases unmatched
      · cases handing
  | skipped reading => exact same rfl fun m call' there => ⟨call', .inl there, rfl⟩
  | read reading inbound =>
      rcases holds with routing | unmatched | ⟨_, _, _, _, handing⟩
      · cases routing
        exact .inl (inbound ▸ List.mem_cons_self ..)
      · cases unmatched
      · cases handing
  | @matched id m offered routing streams =>
      rcases holds with isRouting | unmatched | ⟨n, call, found, isId, handing⟩
      · cases isRouting
      · cases unmatched
      · cases handing
        obtain ⟨_, isSame, isId', _⟩ := registered.streams id m streams
        cases Option.some.inj (found.symm.trans isSame)
        exact .inr (.inl (isId ▸ isId' ▸ routing))
  | unmatched routing absent =>
      rcases holds with isRouting | unmatched | ⟨_, _, _, _, handing⟩
      · cases isRouting
      · cases unmatched
        exact .inr (.inl routing)
      · cases handing

theorem brings_step (registered : Registered link) (stepped : link.step event = some next)
    {requestId : Nat} {payload : Reply} (brings : next.Brings requestId payload) :
    link.Brings requestId payload ∨ event = .arrive (requestId, some payload) := by
  rcases brings with inbound | routing | unmatched | ⟨n, call, found, id, handing | has⟩
  · exact (inbound_step stepped inbound).imp_left .inl
  · exact .inl (holds_step registered stepped (.inl routing))
  · exact .inl (holds_step registered stepped (.inr (.inl unmatched)))
  · exact .inl (holds_step registered stepped (.inr (.inr ⟨n, call, found, id, handing⟩)))
  · exact .inl (id ▸ inbox_step registered stepped found has)

/-- Only what a call is handing over comes onto the wire. -/
theorem wire_step (stepped : link.step event = some next) :
    next.wire.Sublist link.wire ∨ ∃ n call command, event = .handed n ∧ link.calls n = some call ∧
      call.feeder = .handing command ∧ next.wire = link.wire ++ [(call.requestId, command)] := by
  cases event with
  | handed n =>
      obtain ⟨call, found, stepped⟩ := Option.bind_eq_some_iff.1 stepped
      simp only [AgentLink.handed] at stepped
      split at stepped
      · rename_i command handing
        split at stepped
        · cases stepped
          exact .inl (.refl _)
        · split at stepped
          · refine .inr ⟨n, call, command, rfl, found, handing, ?_⟩
            split at stepped <;> cases stepped <;> rfl
          · cases stepped
      · cases stepped
  | transmit =>
      simp only [AgentLink.step] at stepped
      split at stepped <;> cases stepped
      exact .inl (List.tail_sublist _)
  | closeWire =>
      cases stepped
      exact .inl (List.nil_sublist _)
  | register n | readOutbound n | nextPayload n payload | unregister n | receive n | timeOut n
  | removeExpired n | drop n =>
      obtain ⟨call, found, stepped⟩ := Option.bind_eq_some_iff.1 stepped
      simp only [AgentLink.register, AgentLink.readOutbound, AgentLink.nextPayload,
        AgentLink.unregister, AgentLink.receive, AgentLink.timeOut, AgentLink.removeExpired,
        AgentLink.drop] at stepped
      repeat' split at stepped
      all_goals cases stepped
      all_goals exact .inl (.refl _)
  | read | lookUpStream | handOver | lookUpPending =>
      exact .inl ((reader_keeps stepped (by simp [Event.IsReader])).1 ▸ .refl _)
  | begin _ | endStream _ | setOutbound | arrive _ | hangUp | clearPending | clearStreams
  | clearOutbound =>
      simp only [AgentLink.step] at stepped
      repeat' split at stepped
      all_goals cases stepped
      all_goals exact .inl (.refl _)

theorem streamsCleared_step (stepped : link.step event = some next) :
    next.streamsCleared = link.streamsCleared ∨ event = .clearStreams := by
  cases event with
  | clearStreams => exact .inr rfl
  | register n | readOutbound n | nextPayload n payload | handed n | unregister n | receive n
  | timeOut n | removeExpired n | drop n =>
      obtain ⟨call, found, stepped⟩ := Option.bind_eq_some_iff.1 stepped
      simp only [AgentLink.register, AgentLink.readOutbound, AgentLink.nextPayload, AgentLink.handed,
        AgentLink.unregister, AgentLink.receive, AgentLink.timeOut, AgentLink.removeExpired,
        AgentLink.drop] at stepped
      repeat' split at stepped
      all_goals cases stepped
      all_goals exact .inl rfl
  | read | lookUpStream | handOver | lookUpPending =>
      exact .inl (reader_keeps stepped (by simp [Event.IsReader])).2.1
  | begin _ | endStream _ | setOutbound | transmit | closeWire | arrive _ | hangUp | clearPending
  | clearOutbound =>
      simp only [AgentLink.step] at stepped
      repeat' split at stepped
      all_goals cases stepped
      all_goals exact .inl rfl

/-- The session fills channels, and otherwise leaves the calls alone. -/
theorem session_calls (isOf : event.isOfSession = true) (stepped : link.step event = some next)
    (m : Nat) : next.calls m = link.calls m ∨ ∃ call inbox, link.calls m = some call ∧
      next.calls m = some { call with inbox } := by
  cases AgentLink.step_effect stepped with
  | begin | registerStream | registerPending | reply | noReply | yield | ended => cases isOf
  | finished | skipped | read | matched | unmatched | unheard | unknown | forgotten => exact .inl rfl
  | handed handing found hears room | answered unmatched registered found hears =>
      simp only [AgentLink.setCall_calls]
      split
      · rename_i same
        exact .inr ⟨_, _, same ▸ found, rfl⟩
      · exact .inl rfl
  | quiet isQuiet quieter =>
      cases event with
      | setOutbound | transmit | arrive _ | clearStreams | clearOutbound =>
          simp only [AgentLink.step] at stepped
          split at stepped <;> cases stepped
          exact .inl rfl
      | closeWire | hangUp | clearPending =>
          cases stepped
          exact .inl rfl
      | read | lookUpStream | handOver | lookUpPending => cases isQuiet
      | begin _ | register _ | readOutbound _ | nextPayload _ _ | handed _ | unregister _
      | receive _ | timeOut _ | removeExpired _ | drop _ | endStream _ => cases isOf

end Berth.Link
