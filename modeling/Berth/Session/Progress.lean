import Berth.Session.OwnSteps

/-!
How far the reader task gets on its own. It hands a stream's payload over to a channel of
`streamChannelCapacity` slots and waits for a free one, so what it can deliver without the help of
any consumer is a matter of what stands in the queue before it.
-/

namespace Berth.Link

open Interleave

variable {Reply Command : Type} {link next start : AgentLink Reply Command}
variable {event : Event Reply Command} {ahead rest behind : List (Nat × Option Reply)}
variable {n m requestId : Nat} {call : Call Reply Command} {payload : Reply}

/-- The payload the reader is holding is on its way to the stream. -/
def held (streams : Nat → Option Nat) (m : Nat) : Reader Reply → Nat
  | .handing other _ => if other = m then 1 else 0
  | .routing requestId _ => if streams requestId = some m then 1 else 0
  | .reading | .unmatched _ _ | .finished => 0

def addressed (streams : Nat → Option Nat) (m : Nat) (message : Nat × Option Reply) : Bool :=
  message.2.isSome ∧ streams message.1 = some m

/-- How many payloads for the stream the reader comes past, from the one it holds on. -/
def load (link : AgentLink Reply Command) (messages : List (Nat × Option Reply)) (m : Nat) : Nat :=
  held link.streams m link.reader + messages.countP (addressed link.streams m)

/-- Whatever the messages bring to a stream that is still listened to fits into its channel. -/
def Fits (link : AgentLink Reply Command) (messages : List (Nat × Option Reply)) : Prop :=
  ∀ m call, link.calls m = some call → call.caller.hears = true → 0 < load link messages m →
    call.inbox.length + load link messages m ≤ streamChannelCapacity

/-- Neither the reader nor one of the messages carries a payload for the id. -/
def Untouched (link : AgentLink Reply Command) (messages : List (Nat × Option Reply))
    (requestId : Nat) : Prop :=
  (∀ message ∈ messages, message.2.isSome → message.1 ≠ requestId) ∧
    ∀ payload, link.reader ≠ .routing requestId payload ∧ link.reader ≠ .unmatched requestId payload

/-- The reader is past some of the messages, and `rest` are still to come. -/
structure Along (start link : AgentLink Reply Command)
    (ahead rest behind : List (Nat × Option Reply)) : Prop where
  inbound : link.inbound = rest ++ behind
  hungUp : link.hungUp = start.hungUp
  streams : link.streams = start.streams
  running : link.reader ≠ .finished
  known : ∀ m before, start.calls m = some before → ∃ call, link.calls m = some call
  calls : ∀ m call, link.calls m = some call → ∃ before, start.calls m = some before ∧
    call.caller = before.caller ∧ call.kind = before.kind ∧
      before.inbox.length ≤ call.inbox.length ∧ (call.inbox.length = before.inbox.length ∨
        call.inbox.length ≤ streamChannelCapacity)
  balance : ∀ m call before, link.calls m = some call → start.calls m = some before →
    call.kind.isStream = true → call.caller.hears = true →
      call.inbox.length + load link rest m = before.inbox.length + load start ahead m
  untouched : ∀ requestId n, start.pending requestId = some n → Untouched start ahead requestId →
    link.pending requestId = some n ∧ link.calls n = start.calls n ∧ Untouched link rest requestId

theorem along_start (inbound : start.inbound = ahead ++ behind) (running : start.reader ≠ .finished) :
    Along start start ahead ahead behind := by
  refine ⟨inbound, rfl, rfl, running, fun m before found => ⟨before, found⟩, ?_, ?_, ?_⟩
  · intro m call found
    exact ⟨call, found, rfl, rfl, Nat.le_refl _, .inl rfl⟩
  · intro m call before found found' _ _
    rw [found] at found'
    cases found'
    rfl
  · intro requestId n pending untouched
    exact ⟨pending, rfl, untouched⟩

/-- What is left to do: three steps a message, and those the reader is in the middle of. -/
def remaining (link : AgentLink Reply Command) (messages : List (Nat × Option Reply)) : Nat :=
  3 * messages.length + match link.reader with
    | .routing _ _ => 2
    | .handing _ _ | .unmatched _ _ => 1
    | .reading | .finished => 0

/-- A stream that a payload is on its way to is a stream indeed. -/
theorem isStream_of_load (registered : Registered link) (found : link.calls m = some call)
    (loaded : 0 < load link rest m) : call.kind.isStream = true := by
  by_cases holding : 0 < held link.streams m link.reader
  · cases reader : link.reader with
    | handing other payload =>
        have same : other = m := by
          by_contra different
          simp [held, reader, different] at holding
        obtain ⟨target, foundTarget, isStream, _⟩ := registered.handing other payload reader
        rw [same, found] at foundTarget
        cases foundTarget
        exact isStream
    | routing requestId payload =>
        have inStreams : link.streams requestId = some m := by
          by_contra different
          simp [held, reader, different] at holding
        obtain ⟨target, foundTarget, _, isStream, _⟩ := registered.streams requestId m inStreams
        rw [found] at foundTarget
        cases foundTarget
        exact isStream
    | reading | unmatched _ _ | finished => simp [held, reader] at holding
  · have counted : 0 < rest.countP (addressed link.streams m) := by
      simp only [load] at loaded
      omega
    obtain ⟨message, _, isAddressed⟩ := List.countP_pos_iff.1 counted
    simp only [addressed, decide_eq_true_eq] at isAddressed
    obtain ⟨target, foundTarget, _, isStream, _⟩ := registered.streams _ m isAddressed.2
    rw [found] at foundTarget
    cases foundTarget
    exact isStream

/-- Once the reader is past all of them, everything they brought has found a slot. -/
theorem Along.fits (along : Along start link ahead [] behind) (registered : Registered start)
    (reading : link.reader = .reading) : Fits start ahead := by
  intro m before found hears loaded
  obtain ⟨call, foundNow⟩ := along.known m before found
  obtain ⟨before', found', caller, kind, grown, within⟩ := along.calls m call foundNow
  rw [found] at found'
  cases found'
  have isStream := isStream_of_load registered found loaded
  have balance := along.balance m call before foundNow found (kind ▸ isStream) (caller ▸ hears)
  have nothing : load link [] m = 0 := by simp [load, held, reading]
  omega

/-- A channel that has to take a payload has room for it, as long as everything fits. -/
theorem Along.room (along : Along start link ahead rest behind) (registered : Registered link)
    (fits : Fits start ahead) (handing : link.reader = .handing m payload)
    (found : link.calls m = some call) (hears : call.caller.hears = true) :
    call.inbox.length < streamChannelCapacity := by
  obtain ⟨before, foundBefore, caller, kind, grown, _⟩ := along.calls m call found
  have holding : 0 < load link rest m := by
    simp only [load, held, handing, if_true]
    omega
  have isStream := isStream_of_load registered found holding
  have balance := along.balance m call before found foundBefore isStream hears
  have enough := fits m before foundBefore (caller ▸ hears) (by omega)
  omega

/-- One call's inbox has grown, within its capacity. -/
theorem receives {base : AgentLink Reply Command} {inbox : List Reply}
    (known : ∀ m before, start.calls m = some before → ∃ call, base.calls m = some call)
    (calls : ∀ m call, base.calls m = some call → ∃ before, start.calls m = some before ∧
      call.caller = before.caller ∧ call.kind = before.kind ∧
        before.inbox.length ≤ call.inbox.length ∧ (call.inbox.length = before.inbox.length ∨
          call.inbox.length ≤ streamChannelCapacity))
    (found : base.calls n = some call) (grown : call.inbox.length ≤ inbox.length)
    (within : inbox.length ≤ streamChannelCapacity) :
    (∀ m before, start.calls m = some before →
      ∃ call', (base.setCall n { call with inbox }).calls m = some call') ∧
    ∀ m call', (base.setCall n { call with inbox }).calls m = some call' →
      ∃ before, start.calls m = some before ∧ call'.caller = before.caller ∧
        call'.kind = before.kind ∧ before.inbox.length ≤ call'.inbox.length ∧
          (call'.inbox.length = before.inbox.length ∨
            call'.inbox.length ≤ streamChannelCapacity) := by
  constructor
  · intro m before foundBefore
    by_cases same : m = n
    · exact ⟨{ call with inbox }, by simp [same]⟩
    · simpa [same] using known m before foundBefore
  · intro m call' found'
    by_cases same : m = n
    · subst same
      simp only [AgentLink.setCall_calls, if_true, Option.some.injEq] at found'
      subst found'
      obtain ⟨before, foundBefore, caller, kind, le, _⟩ := calls m call found
      exact ⟨before, foundBefore, caller, kind, Nat.le_trans le grown, .inr within⟩
    · rw [AgentLink.setCall_calls, if_neg same] at found'
      exact calls m call' found'

/-- One step of the reader brings it on, until it is past all of them. -/
theorem Along.step (along : Along start link ahead rest behind) (registered : Registered link)
    (isReader : event.IsReader) (effect : Effect link event next)
    (more : rest ≠ [] ∨ link.reader ≠ .reading) :
    ∃ rest', Along start next ahead rest' behind ∧ remaining next rest' < remaining link rest := by
  obtain ⟨inbound, hungUp, streams, running, known, calls, balance, untouched⟩ := along
  cases effect with
  | quiet isQuiet quieter => cases event <;> first | exact isReader.elim | cases isQuiet
  | begin | registerStream | registerPending | reply | noReply | yield | ended => cases isReader
  | finished reading empty isHungUp =>
      rw [empty, eq_comm, List.append_eq_nil_iff] at inbound
      rcases more with more | more
      · exact absurd inbound.1 more
      · exact absurd reading more
  | @skipped requestId later reading isNext =>
      cases rest with
      | nil => simp [reading] at more
      | cons message rest =>
          rw [isNext, List.cons_append, List.cons.injEq] at inbound
          obtain ⟨rfl, rfl⟩ := inbound
          refine ⟨rest, ⟨rfl, hungUp, streams, running, known, calls, ?_, ?_⟩, ?_⟩
          · intro m call before found found' isStream hears
            have before := balance m call before found found' isStream hears
            simpa [load, addressed] using before
          · intro other n pending free
            obtain ⟨stays, same, unread⟩ := untouched other n pending free
            exact ⟨stays, same, fun message member => unread.1 message (List.mem_cons_of_mem _ member),
              unread.2⟩
          · simp [remaining]
  | @read requestId payload later reading isNext =>
      cases rest with
      | nil => simp [reading] at more
      | cons message rest =>
          rw [isNext, List.cons_append, List.cons.injEq] at inbound
          obtain ⟨rfl, rfl⟩ := inbound
          refine ⟨rest, ⟨rfl, hungUp, streams, by rintro ⟨⟩, known, calls, ?_, ?_⟩, ?_⟩
          · intro m call before found found' isStream hears
            have before := balance m call before found found' isStream hears
            simp only [load, held, addressed, List.countP_cons, reading] at before ⊢
            by_cases same : link.streams requestId = some m <;> simp [same] at before ⊢ <;> omega
          · intro other n pending free
            obtain ⟨stays, same, unread⟩ := untouched other n pending free
            have different := unread.1 _ List.mem_cons_self rfl
            refine ⟨stays, same, fun message member => unread.1 message (List.mem_cons_of_mem _ member),
              fun payload => ⟨?_, by rintro ⟨⟩⟩⟩
            simp only [ne_eq, Reader.routing.injEq, not_and]
            exact fun isOther => absurd isOther different
          · simp only [remaining, reading, List.length_cons]
            omega
  | matched routing isRegistered =>
      refine ⟨rest, ⟨inbound, hungUp, streams, by rintro ⟨⟩, known, calls, ?_, ?_⟩, ?_⟩
      · intro m call before found found' isStream hears
        have before := balance m call before found found' isStream hears
        simpa [load, held, routing, isRegistered] using before
      · intro other n pending free
        obtain ⟨stays, same, unread⟩ := untouched other n pending free
        exact ⟨stays, same, unread.1, fun _ => ⟨by rintro ⟨⟩, by rintro ⟨⟩⟩⟩
      · simp [remaining, routing]
  | unmatched routing absent =>
      refine ⟨rest, ⟨inbound, hungUp, streams, by rintro ⟨⟩, known, calls, ?_, ?_⟩, ?_⟩
      · intro m call before found found' isStream hears
        have before := balance m call before found found' isStream hears
        simpa [load, held, routing, absent] using before
      · intro other n pending free
        obtain ⟨stays, same, unread⟩ := untouched other n pending free
        have different := unread.2
        refine ⟨stays, same, unread.1, fun payload => ⟨by rintro ⟨⟩, ?_⟩⟩
        grind
      · simp [remaining, routing]
  | @unheard target payload call handing found deaf =>
      refine ⟨rest, ⟨inbound, hungUp, streams, by rintro ⟨⟩, known, calls, ?_, ?_⟩, ?_⟩
      · intro m hearing before found' foundBefore isStream hears
        have different : target ≠ m := by
          rintro rfl
          rw [found] at found'
          cases found'
          rw [deaf] at hears
          cases hears
        have balanced := balance m hearing before found' foundBefore isStream hears
        simpa [load, held, handing, different] using balanced
      · intro other n pending free
        obtain ⟨stays, same, unread⟩ := untouched other n pending free
        exact ⟨stays, same, unread.1, fun _ => ⟨by rintro ⟨⟩, by rintro ⟨⟩⟩⟩
      · simp [remaining, handing]
  | @handed target payload call handing found hears room =>
      have grown : call.inbox.length ≤ (call.inbox ++ [payload]).length := by simp
      have within : (call.inbox ++ [payload]).length ≤ streamChannelCapacity := by
        simp only [List.length_append, List.length_singleton]
        omega
      obtain ⟨known', calls'⟩ := receives known calls found grown within
      refine ⟨rest, ⟨inbound, hungUp, streams, by rintro ⟨⟩, known', calls', ?_, ?_⟩, ?_⟩
      · intro m hearing before found' foundBefore isStream hears'
        rw [AgentLink.setCall_calls] at found'
        by_cases same : m = target
        · simp only [same, if_true, Option.some.injEq] at found'
          subst same found'
          have balanced := balance m call before found foundBefore isStream hears
          simp only [load, held, handing, if_true] at balanced
          simp only [load, held, AgentLink.setCall_streams, List.length_append,
            List.length_singleton]
          omega
        · rw [if_neg same] at found'
          have balanced := balance m hearing before found' foundBefore isStream hears'
          simpa [load, held, handing, Ne.symm same] using balanced
      · intro other n pending free
        obtain ⟨stays, same, unread⟩ := untouched other n pending free
        obtain ⟨_, foundTarget, isStream, _⟩ := registered.handing target payload handing
        obtain ⟨_, foundOneShot, _, oneShot, _⟩ := registered.pending other n stays
        have different : n ≠ target := by
          rintro rfl
          rw [foundTarget] at foundOneShot
          cases foundOneShot
          rw [isStream] at oneShot
          cases oneShot
        exact ⟨stays, by simp [different, same], unread.1, fun _ => ⟨by rintro ⟨⟩, by rintro ⟨⟩⟩⟩
      · simp [remaining, handing]
  | unknown isUnmatched absent =>
      refine ⟨rest, ⟨inbound, hungUp, streams, by rintro ⟨⟩, known, calls, ?_, ?_⟩, ?_⟩
      · intro m call before found found' isStream hears
        have before := balance m call before found found' isStream hears
        simpa [load, held, isUnmatched] using before
      · intro other n pending free
        obtain ⟨stays, same, unread⟩ := untouched other n pending free
        exact ⟨stays, same, unread.1, fun _ => ⟨by rintro ⟨⟩, by rintro ⟨⟩⟩⟩
      · simp [remaining, isUnmatched]
  | @answered requestId target payload call isUnmatched isRegistered found hears =>
      obtain ⟨_, foundTarget, ownId, oneShot, _, empty, _⟩ := registered.pending _ _ isRegistered
      rw [found] at foundTarget
      cases foundTarget
      have grown : call.inbox.length ≤ [payload].length := by simp [empty]
      have within : [payload].length ≤ streamChannelCapacity := by simp [streamChannelCapacity]
      obtain ⟨known', calls'⟩ := receives known calls found grown within
      refine ⟨rest, ⟨inbound, hungUp, streams, by rintro ⟨⟩, known', calls', ?_, ?_⟩, ?_⟩
      · intro m hearing before found' foundBefore isStream hears'
        rw [AgentLink.setCall_calls] at found'
        by_cases same : m = target
        · simp only [same, if_true, Option.some.injEq] at found'
          subst found'
          rw [oneShot] at isStream
          cases isStream
        · rw [if_neg same] at found'
          have balanced := balance m hearing before found' foundBefore isStream hears'
          simpa [load, held, isUnmatched] using balanced
      · intro other n pending free
        obtain ⟨stays, same, unread⟩ := untouched other n pending free
        have different : other ≠ requestId := by
          rintro rfl
          exact (unread.2 payload).2 isUnmatched
        have differentCall : n ≠ target := by
          rintro rfl
          obtain ⟨_, foundOther, otherId, _⟩ := registered.pending other n stays
          rw [found] at foundOther
          cases foundOther
          exact different (otherId.symm.trans ownId)
        exact ⟨by simp [different, stays], by simp [differentCall, same], unread.1,
          fun _ => ⟨by rintro ⟨⟩, by rintro ⟨⟩⟩⟩
      · simp [remaining, isUnmatched]
  | @forgotten requestId target payload call isUnmatched isRegistered found deaf =>
      refine ⟨rest, ⟨inbound, hungUp, streams, by rintro ⟨⟩, known, calls, ?_, ?_⟩, ?_⟩
      · intro m hearing before found' foundBefore isStream hears
        have balanced := balance m hearing before found' foundBefore isStream hears
        simpa [load, held, isUnmatched] using balanced
      · intro other n pending free
        obtain ⟨stays, same, unread⟩ := untouched other n pending free
        have different : other ≠ requestId := by
          rintro rfl
          exact (unread.2 payload).2 isUnmatched
        exact ⟨by simp [different, stays], same, unread.1, fun _ => ⟨by rintro ⟨⟩, by rintro ⟨⟩⟩⟩
      · simp [remaining, isUnmatched]

/-- As long as everything fits, the reader is never stuck on its way. -/
theorem Along.progress (along : Along start link ahead rest behind) (registered : Registered link)
    (fits : Fits start ahead) (more : rest ≠ [] ∨ link.reader ≠ .reading) :
    ∃ event next, event.IsReader ∧ link.step event = some next := by
  cases reader : link.reader with
  | reading =>
      cases rest with
      | nil => simp [reader] at more
      | cons message rest =>
          obtain ⟨requestId, payload⟩ := message
          refine ⟨.read, ?_⟩
          cases payload <;>
            simp [Event.IsReader, AgentLink.step, AgentLink.read, reader, along.inbound]
  | routing requestId payload =>
      refine ⟨.lookUpStream, ?_⟩
      cases registration : link.streams requestId <;>
        simp [Event.IsReader, AgentLink.step, AgentLink.lookUpStream, reader, registration]
  | handing m payload =>
      obtain ⟨call, found, _⟩ := registered.handing m payload reader
      refine ⟨.handOver, ?_⟩
      cases hears : call.caller.hears with
      | false => simp [Event.IsReader, AgentLink.step, AgentLink.handOver, reader, found, hears]
      | true =>
          have room := along.room registered fits reader found hears
          simp [Event.IsReader, AgentLink.step, AgentLink.handOver, reader, found, hears, room]
  | unmatched requestId payload =>
      refine ⟨.lookUpPending, ?_⟩
      cases registration : link.pending requestId with
      | none =>
          simp [Event.IsReader, AgentLink.step, AgentLink.lookUpPending, reader, registration]
      | some n =>
          obtain ⟨call, found, _⟩ := registered.pending requestId n registration
          cases hears : call.caller.hears <;>
            simp [Event.IsReader, AgentLink.step, AgentLink.lookUpPending, reader, registration,
              found, hears]
  | finished => exact absurd reader along.running

/-- If everything fits, the reader gets past all of it. -/
theorem Along.consumes (along : Along start link ahead rest behind) (registered : Registered link)
    (fits : Fits start ahead) :
    ∃ later, (machine Reply Command).Leads Event.IsReader link later ∧ Registered later ∧
      Along start later ahead [] behind ∧ later.reader = .reading := by
  induction measured : remaining link rest using Nat.strongRecOn generalizing link rest
  rename_i measure ih
  by_cases more : rest ≠ [] ∨ link.reader ≠ .reading
  · obtain ⟨event, next, isReader, stepped⟩ := along.progress registered fits more
    have effect := AgentLink.step_effect stepped
    obtain ⟨rest', along', less⟩ := along.step registered isReader effect more
    obtain ⟨later, leads, arrived⟩ :=
      ih _ (measured ▸ less) along' (registered.moves effect) rfl
    exact ⟨later, Machine.Leads.head isReader stepped leads, arrived⟩
  · obtain ⟨empty, reading⟩ := not_or.1 more
    rw [not_not] at empty reading
    subst empty
    exact ⟨link, .refl, registered, along, reading⟩

/-- If not, it stops on the way. -/
theorem Along.stops (along : Along start link ahead rest behind) (registered : Registered link)
    (starting : Registered start) (overfull : ¬ Fits start ahead)
    (leads : (machine Reply Command).Leads Event.IsReader link next) :
    ∃ rest', Along start next ahead rest' behind := by
  refine (leads.keeps (fun next => Registered next ∧
    ∃ rest', Along start next ahead rest' behind) ?_ ⟨registered, rest, along⟩).2
  rintro link event next ⟨registered, rest, along⟩ isReader stepped
  have effect := AgentLink.step_effect stepped
  refine ⟨registered.moves effect, ?_⟩
  by_cases more : rest ≠ [] ∨ link.reader ≠ .reading
  · obtain ⟨rest', along', _⟩ := along.step registered isReader effect more
    exact ⟨rest', along'⟩
  · obtain ⟨empty, reading⟩ := not_or.1 more
    rw [not_not] at empty reading
    subst empty
    exact absurd (along.fits starting reading) overfull

/-- The reader leaves a call alone whose id it finds among the streams. -/
theorem pending_of_stream (registered : Registered start) (pending : start.pending requestId = some n)
    (isStream : start.streams requestId = some m)
    (idle : ∀ payload, start.reader ≠ .unmatched requestId payload)
    (leads : (machine Reply Command).Leads Event.IsReader start next) :
    next.calls n = start.calls n := by
  refine (leads.keeps (fun next => Registered next ∧ next.streams requestId = some m ∧
    next.pending requestId = some n ∧ (∀ payload, next.reader ≠ .unmatched requestId payload) ∧
      next.calls n = start.calls n) ?_ ⟨registered, isStream, pending, idle, rfl⟩).2.2.2.2
  rintro link event next ⟨registered, isStream, pending, idle, same⟩ isReader stepped
  have effect := AgentLink.step_effect stepped
  obtain ⟨call, found, id, oneShot, _⟩ := registered.pending requestId n pending
  refine ⟨registered.moves effect, ?_⟩
  cases effect with
  | quiet isQuiet quieter => cases event <;> first | exact isReader.elim | cases isQuiet
  | begin | registerStream | registerPending | reply | noReply | yield | ended => cases isReader
  | finished | skipped | read | matched | unmatched | unheard | unknown => grind
  | handed handing foundTarget hears room =>
      obtain ⟨target, foundTarget', streaming, _⟩ := registered.handing _ _ handing
      grind
  | answered isUnmatched isRegistered foundTarget hears =>
      obtain ⟨target, foundTarget', targetId, _⟩ := registered.pending _ _ isRegistered
      grind
  | forgotten isUnmatched isRegistered foundTarget deaf => grind

/-- A reader that has finished has nothing left to read. -/
theorem drained_of_reachable (reachable : (machine Reply Command).Reachable link) :
    link.reader = .finished → link.inbound = [] ∧ link.hungUp = true := by
  refine reachable.invariant (fun link =>
    link.reader = .finished → link.inbound = [] ∧ link.hungUp = true) ?_ ?_
  · intro link isInitial
    rw [eq_new isInitial]
    simp [AgentLink.new]
  · intro link event next drained stepped _
    have stepped : link.step event = some next := stepped
    cases event with
    | begin | endStream | closeWire | hangUp | clearPending =>
        cases stepped
        simp_all [AgentLink.begin, AgentLink.removeStream]
    | setOutbound | transmit | arrive | clearStreams | clearOutbound =>
        simp only [AgentLink.step] at stepped
        split at stepped <;> cases stepped
        simp_all
    | register n | readOutbound n | nextPayload n payload | handed n | unregister n | receive n
    | timeOut n | removeExpired n | drop n =>
        obtain ⟨call, found, stepped⟩ := Option.bind_eq_some_iff.1 stepped
        simp only [AgentLink.register, AgentLink.readOutbound, AgentLink.nextPayload,
          AgentLink.handed, AgentLink.unregister, AgentLink.receive, AgentLink.timeOut,
          AgentLink.removeExpired, AgentLink.drop] at stepped
        repeat' split at stepped
        all_goals cases stepped
        all_goals exact drained
    | read | lookUpStream | handOver | lookUpPending =>
        cases AgentLink.step_effect stepped <;> first | contradiction | simp_all

theorem leads_reading {state state' state'' : AgentLink Reply Command}
    (event : Event Reply Command) (isReader : event.IsReader)
    (stepped : state.step event = some state')
    (rest : (machine Reply Command).Leads Event.IsReader state' state'') :
    (machine Reply Command).Leads Event.IsReader state state'' :=
  Machine.Leads.head isReader stepped rest

/-- A reply at the head of the queue is delivered in three steps. -/
theorem delivers (reading : link.reader = .reading)
    (inbound : link.inbound = (requestId, some payload) :: behind)
    (oneShot : link.streams requestId = none) (pending : link.pending requestId = some n)
    (found : link.calls n = some call) (hears : call.caller.hears = true) :
    ∃ later call', (machine Reply Command).Leads Event.IsReader link later ∧
      later.calls n = some call' ∧ call'.inbox = [payload] := by
  let routing := { link with reader := .routing requestId payload, inbound := behind }
  let unmatched := { routing with reader := .unmatched requestId payload }
  let answered := ({ unmatched with reader := .reading }.removePending requestId).setCall n
    { call with inbox := [payload] }
  have isRead : link.step .read = some routing := by
    simp [AgentLink.step, AgentLink.read, reading, inbound, routing]
  have isUnmatched : routing.step .lookUpStream = some unmatched := by
    simp [AgentLink.step, AgentLink.lookUpStream, oneShot, routing, unmatched]
  have isAnswered : unmatched.step .lookUpPending = some answered := by
    simp [AgentLink.step, AgentLink.lookUpPending, pending, found, hears, routing, unmatched,
      answered]
  refine ⟨answered, { call with inbox := [payload] }, ?_, by simp [answered], rfl⟩
  exact leads_reading .read trivial isRead
    (leads_reading .lookUpStream trivial isUnmatched
      (leads_reading .lookUpPending trivial isAnswered .refl))

/-- A one-shot reply is delivered by the reader alone if and only if everything before it fits. -/
theorem delivered_iff (reachable : (machine Reply Command).Reachable start)
    (inbound : start.inbound = ahead ++ (requestId, some payload) :: behind)
    (pending : start.pending requestId = some n) (found : start.calls n = some call)
    (hears : call.caller.hears = true) (untouched : Untouched start ahead requestId) :
    (∃ later call', (machine Reply Command).Leads Event.IsReader start later ∧
      later.calls n = some call' ∧ call'.inbox = [payload]) ↔
        Fits start ahead ∧ start.streams requestId = none := by
  have registered := registered_of_reachable reachable
  have running : start.reader ≠ .finished := by
    intro finished
    have empty := (drained_of_reachable reachable finished).1
    rw [inbound] at empty
    simp at empty
  obtain ⟨_, found', _, _, _, empty, _⟩ := registered.pending requestId n pending
  rw [found] at found'
  cases found'
  have along := along_start inbound running
  constructor
  · rintro ⟨later, call', leads, foundLater, inbox⟩
    have moved : later.calls n ≠ start.calls n := by
      intro same
      rw [foundLater, found] at same
      cases same
      rw [empty] at inbox
      cases inbox
    constructor
    · by_contra overfull
      obtain ⟨rest, along'⟩ := along.stops registered registered overfull leads
      exact moved (along'.untouched requestId n pending untouched).2.1
    · cases isStream : start.streams requestId with
      | none => rfl
      | some m =>
          exact absurd (pending_of_stream registered pending isStream
            (fun payload => (untouched.2 payload).2) leads) moved
  · rintro ⟨fits, oneShot⟩
    obtain ⟨middle, leads, _, along', reading⟩ := along.consumes registered fits
    obtain ⟨pendingThen, foundThen, _⟩ := along'.untouched requestId n pending untouched
    rw [found] at foundThen
    rw [← along'.streams] at oneShot
    obtain ⟨later, call', rest, delivered⟩ :=
      delivers reading along'.inbound oneShot pendingThen foundThen hears
    exact ⟨later, call', leads.trans rest, delivered⟩

/-- So is the end of the session noticed if and only if everything that is still queued fits. -/
theorem finished_iff (reachable : (machine Reply Command).Reachable start)
    (hungUp : start.hungUp = true) :
    (∃ later, (machine Reply Command).Leads Event.IsReader start later ∧
      later.reader = .finished) ↔ Fits start start.inbound := by
  have registered := registered_of_reachable reachable
  by_cases running : start.reader = .finished
  · refine ⟨fun _ m call _ _ loaded => ?_, fun _ => ⟨start, .refl, running⟩⟩
    simp [load, held, running, (drained_of_reachable reachable running).1] at loaded
  have along := @along_start _ _ start start.inbound [] (List.append_nil _).symm running
  constructor
  · rintro ⟨later, leads, finished⟩
    by_contra overfull
    obtain ⟨rest, along'⟩ := along.stops registered registered overfull leads
    exact along'.running finished
  · intro fits
    obtain ⟨middle, leads, _, along', reading⟩ := along.consumes registered fits
    have isOver : middle.step .read = some { middle with reader := .finished } := by
      simp [AgentLink.step, AgentLink.read, reading, along'.inbound, along'.hungUp, hungUp]
    exact ⟨_, leads.trans (leads_reading .read trivial isOver .refl), rfl⟩

/-- What the reader can do for the other requests while the consumers of the streams stand still. -/
structure Independent (link : AgentLink Reply Command) : Prop where
  delivered : ∀ ahead behind requestId payload n call,
    link.inbound = ahead ++ (requestId, some payload) :: behind →
      link.pending requestId = some n → link.calls n = some call → call.caller.hears = true →
        Untouched link ahead requestId →
          ((∃ later call', (machine Reply Command).Leads Event.IsReader link later ∧
            later.calls n = some call' ∧ call'.inbox = [payload]) ↔
              Fits link ahead ∧ link.streams requestId = none)
  noticed : link.hungUp = true →
    ((∃ later, (machine Reply Command).Leads Event.IsReader link later ∧
      later.reader = .finished) ↔ Fits link link.inbound)

theorem reader_independent (reachable : (machine Reply Command).Reachable link) :
    Independent link :=
  ⟨fun _ _ _ _ _ _ inbound pending found hears untouched =>
      delivered_iff reachable inbound pending found hears untouched,
    fun hungUp => finished_iff reachable hungUp⟩

/-- A response nobody reads takes `streamChannelCapacity` payloads, then one more waits. -/
def unreadResponse : List (Event Nat Nat) :=
  [.setOutbound, .begin .bidiStreamed, .register 0, .readOutbound 0, .begin .streamed, .register 1]
    ++ (List.range 16).flatMap (fun n => [.arrive (1, some n), .read, .lookUpStream, .handOver])
    ++ [.arrive (1, some 16), .arrive (2, some 17), .hangUp, .read, .lookUpStream]

/-- One channel is full: the reply behind it is not delivered, and the end is not noticed. -/
theorem full_channel_blocks : ∃ link : AgentLink Nat Nat, (machine Nat Nat).Reachable link ∧
    link.inbound = [(2, some 17)] ∧ link.pending 2 = some 1 ∧
      (link.calls 1).map (·.caller.hears) = some true ∧ link.hungUp = true ∧
        ∀ later, (machine Nat Nat).Leads Event.IsReader link later →
          later = link ∧ (later.calls 1).map (·.inbox) = some [] := by
  obtain ⟨link, reachable, held⟩ := Machine.exists_of_play (machine Nat Nat)
    (fun _ _ => True) (fun _ _ => true)
    (fun link => link.inbound = [(2, some 17)] ∧ link.pending 2 = some 1 ∧
      (link.calls 1).map (·.caller.hears) = some true ∧ link.hungUp = true ∧
        (link.calls 1).map (·.inbox) = some [] ∧ (link.step .read).isNone = true ∧
          (link.step .lookUpStream).isNone = true ∧ (link.step .handOver).isNone = true ∧
            (link.step .lookUpPending).isNone = true)
    (fun _ _ _ => trivial) rfl unreadResponse (by decide +kernel)
  obtain ⟨inbound, pending, hears, hungUp, inbox, read, lookedUp, handed, answered⟩ :=
    of_decide_eq_true held
  refine ⟨link, reachable, inbound, pending, hears, hungUp, fun later leads => ?_⟩
  have same := leads.stuck fun event isReader => by
    cases event <;> first
      | exact isReader.elim
      | exact Option.isNone_iff_eq_none.1 ‹_›
  exact ⟨same, same ▸ inbox⟩

/-- Half of the channel is free, and the reply behind two more payloads comes through. -/
def slowResponse : List (Event Nat Nat) :=
  [.setOutbound, .begin .bidiStreamed, .register 0, .readOutbound 0, .begin .streamed, .register 1]
    ++ (List.range 8).flatMap (fun n => [.arrive (1, some n), .read, .lookUpStream, .handOver])
    ++ [.arrive (1, some 16), .arrive (1, some 17), .arrive (2, some 18), .hangUp]

theorem reader_independent_slow : ∃ link : AgentLink Nat Nat, (machine Nat Nat).Reachable link ∧
    link.inbound.length = 3 ∧ link.hungUp = true ∧ Independent link := by
  obtain ⟨link, reachable, held⟩ := Machine.exists_of_play (machine Nat Nat)
    (fun _ _ => True) (fun _ _ => true)
    (fun link => link.inbound.length = 3 ∧ link.hungUp = true)
    (fun _ _ _ => trivial) rfl slowResponse (by decide +kernel)
  obtain ⟨queued, hungUp⟩ := of_decide_eq_true held
  exact ⟨link, reachable, queued, hungUp, reader_independent reachable⟩

end Berth.Link
