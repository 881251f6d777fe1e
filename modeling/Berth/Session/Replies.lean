import Berth.Session.Effects

/-!
Which payloads reach which call. A call is known by its request id; a run of the link is
followed by what `resolve` has looked up under that id.
-/

namespace Berth.Link

open Interleave

variable {Reply Command : Type}

abbrev History (Reply Command : Type) : Type :=
  List (AgentLink Reply Command × Event Reply Command)

/-- The message that `resolve` finds registered as a stream with this event. -/
def offer (link : AgentLink Reply Command) : Event Reply Command → Option (Nat × Reply)
  | .lookUpStream =>
      match link.reader with
      | .routing requestId payload =>
          if (link.streams requestId).isSome then some (requestId, payload) else none
      | _ => none
  | _ => none

/-- The message that `resolve` is done with by this event, once it has decided where it goes. -/
def decided (link : AgentLink Reply Command) : Event Reply Command → Option (Nat × Reply)
  | .lookUpPending =>
      match link.reader with
      | .unmatched requestId payload => some (requestId, payload)
      | _ => none
  | event => offer link event

def carried (requestId : Nat) : Option (Nat × Reply) → List Reply
  | some (other, payload) => if other = requestId then [payload] else []
  | none => []

/-- The payloads carrying the id that were resolved while it was registered as a stream, in
session order. -/
def offered (requestId : Nat) : History Reply Command → List Reply
  | [] => []
  | (link, event) :: older => offered requestId older ++ carried requestId (offer link event)

def Event.registers (n : Nat) : Event Reply Command → Bool
  | .register m => m = n
  | _ => false

/-- The payloads carrying the id that `resolve` processed after the call registered. -/
def answersSince (n requestId : Nat) : History Reply Command → List Reply
  | [] => []
  | (link, event) :: older =>
      if event.registers n then []
      else answersSince n requestId older ++ carried requestId (decided link event)

/-- The payload of this call that `resolve` is handing over. -/
def inHand (link : AgentLink Reply Command) (n : Nat) : List Reply :=
  match link.reader with
  | .handing m payload => if m = n then [payload] else []
  | _ => []

section Small

variable {link next : AgentLink Reply Command} {event : Event Reply Command}
variable {history : History Reply Command} {requestId n : Nat}

theorem offer_quiet (quiet : event.isQuiet = true) : offer link event = none := by
  cases event <;> first | rfl | cases quiet

theorem decided_quiet (quiet : event.isQuiet = true) : decided link event = none := by
  cases event <;> first | rfl | cases quiet

theorem registers_quiet (quiet : event.isQuiet = true) : event.registers n = false := by
  cases event <;> first | rfl | cases quiet

@[simp] theorem offered_cons : offered requestId ((link, event) :: history) =
    offered requestId history ++ carried requestId (offer link event) := rfl

@[simp] theorem carried_none : carried requestId (none : Option (Nat × Reply)) = [] := rfl

end Small

/-- Every registration belongs to the one call that has the request id. -/
structure Registered (link : AgentLink Reply Command) : Prop where
  nextRequestId : link.nextRequestId = requestIdOf link.started
  known : ∀ n call, link.calls n = some call →
    n < link.started ∧ call.requestId = requestIdOf n
  registering : ∀ n call, link.calls n = some call → call.caller = .registering →
    call.inbox = [] ∧ call.yielded = []
  streams : ∀ requestId n, link.streams requestId = some n → ∃ call, link.calls n = some call ∧
    call.requestId = requestId ∧ call.kind.isStream = true ∧ call.caller ≠ .registering ∧
      call.caller ≠ .ended
  pending : ∀ requestId n, link.pending requestId = some n → ∃ call, link.calls n = some call ∧
    call.requestId = requestId ∧ call.kind.isStream = false ∧ call.caller ≠ .registering ∧
      call.inbox = [] ∧ ∀ payload, call.caller ≠ .replied payload
  handing : ∀ n payload, link.reader = .handing n payload → ∃ call, link.calls n = some call ∧
    call.kind.isStream = true ∧ call.caller ≠ .registering ∧ call.caller ≠ .ended

section

variable {link next : AgentLink Reply Command} {event : Event Reply Command}
variable {history : History Reply Command}

theorem registered_new : Registered (AgentLink.new : AgentLink Reply Command) := by
  constructor <;> simp [AgentLink.new, requestIdOf]

/-- Fewer than `2 ^ 64` calls never get the same id. -/
theorem Registered.unique (registered : Registered link) (few : link.started < 2 ^ 64)
    {n m : Nat} {call other : Call Reply Command} (found : link.calls n = some call)
    (found' : link.calls m = some other) (same : call.requestId = other.requestId) : n = m := by
  obtain ⟨below, id⟩ := registered.known n call found
  obtain ⟨below', id'⟩ := registered.known m other found'
  rw [id, id'] at same
  exact requestIdOf_injective (by omega) (by omega) same

theorem Registered.quieter (registered : Registered link) (quieter : Quieter link next) :
    Registered next := by
  refine ⟨?_, ?_, ?_, ?_, ?_, ?_⟩
  · rw [quieter.nextRequestId, quieter.started]
    exact registered.nextRequestId
  · intro n call' found'
    obtain ⟨call, found, quiet⟩ := quieter.calls n call' found'
    rw [quieter.started, quiet.requestId]
    exact registered.known n call found
  · intro n call' found' registering'
    obtain ⟨call, found, quiet⟩ := quieter.calls n call' found'
    rw [quiet.inbox, quiet.yielded]
    exact registered.registering n call found (quiet.registering registering')
  · intro requestId n mem
    obtain ⟨call, found, id, isStream, begun, notEnded⟩ :=
      registered.streams requestId n (quieter.streams requestId n mem)
    obtain ⟨call', found', quiet⟩ := quieter.kept n call found
    exact ⟨call', found', quiet.requestId.trans id, quiet.kind ▸ isStream,
      fun same => begun (quiet.registering same), fun same => notEnded (quiet.ended same)⟩
  · intro requestId n mem
    obtain ⟨call, found, id, oneShot, begun, inbox, noReply⟩ :=
      registered.pending requestId n (quieter.pending requestId n mem)
    obtain ⟨call', found', quiet⟩ := quieter.kept n call found
    exact ⟨call', found', quiet.requestId.trans id, quiet.kind ▸ oneShot,
      fun same => begun (quiet.registering same), quiet.inbox ▸ inbox,
      fun payload same => noReply payload (quiet.replied payload same)⟩
  · intro n payload handing
    obtain ⟨call, found, isStream, begun, notEnded⟩ :=
      registered.handing n payload (quieter.reader ▸ handing)
    obtain ⟨call', found', quiet⟩ := quieter.kept n call found
    exact ⟨call', found', quiet.kind ▸ isStream, fun same => begun (quiet.registering same),
      fun same => notEnded (quiet.ended same)⟩

/-- The maps lose registrations, and the reader goes on with its message. -/
theorem Registered.reader (registered : Registered link)
    (nextRequestId : next.nextRequestId = link.nextRequestId) (started : next.started = link.started)
    (calls : next.calls = link.calls) (streams : next.streams = link.streams)
    (pending : ∀ requestId n, next.pending requestId = some n → link.pending requestId = some n)
    (handing : ∀ n payload, next.reader = .handing n payload → ∃ call, link.calls n = some call ∧
      call.kind.isStream = true ∧ call.caller ≠ .registering ∧ call.caller ≠ .ended) :
    Registered next where
  nextRequestId := by rw [nextRequestId, started, registered.nextRequestId]
  known := calls ▸ started ▸ registered.known
  registering := calls ▸ registered.registering
  streams := calls ▸ streams ▸ registered.streams
  pending := calls ▸ fun requestId n mem => registered.pending requestId n (pending requestId n mem)
  handing := calls ▸ handing

/-- One call moves on. Only this call is registered anew, and what it has been given meanwhile does
not contradict the registrations that it keeps. -/
theorem Registered.setCall (registered : Registered link) {n : Nat} {call : Call Reply Command}
    (found : link.calls n = some call) (call' : Call Reply Command) (kind : call'.kind = call.kind)
    (requestId : call'.requestId = call.requestId) (begun : call'.caller ≠ .registering)
    (nextRequestId : next.nextRequestId = link.nextRequestId) (started : next.started = link.started)
    (calls : ∀ m, next.calls m = if m = n then some call' else link.calls m)
    (streams : ∀ id m, next.streams id = some m → link.streams id = some m ∨
      m = n ∧ id = call.requestId ∧ call.kind.isStream = true)
    (pending : ∀ id m, next.pending id = some m → link.pending id = some m ∨
      m = n ∧ id = call.requestId ∧ call.kind.isStream = false)
    (handing : ∀ m payload, next.reader = .handing m payload → link.reader = .handing m payload)
    (notEnded : next.streams call.requestId = some n ∨ next.reader.holds n = true →
      call'.caller ≠ .ended)
    (waiting : next.pending call.requestId = some n →
      call'.inbox = [] ∧ ∀ payload, call'.caller ≠ .replied payload) :
    Registered next := by
  have self : next.calls n = some call' := by simp [calls]
  have others : ∀ m, m ≠ n → next.calls m = link.calls m := fun m different => by
    simp [calls, different]
  refine ⟨by rw [nextRequestId, started, registered.nextRequestId], ?_, ?_, ?_, ?_, ?_⟩
  · intro m other found'
    rw [started]
    by_cases same : m = n
    · subst same
      rw [self] at found'
      cases found'
      rw [requestId]
      exact registered.known m call found
    · exact registered.known m other (others m same ▸ found')
  · intro m other found' registering
    by_cases same : m = n
    · subst same
      rw [self] at found'
      cases found'
      exact absurd registering begun
    · exact registered.registering m other (others m same ▸ found') registering
  · intro id m mem
    by_cases same : m = n
    · subst same
      have own : id = call.requestId ∧ call.kind.isStream = true := by
        rcases streams id m mem with before | ⟨_, own⟩
        · obtain ⟨call₀, found₀, id', isStream, _⟩ := registered.streams id m before
          rw [found] at found₀
          cases found₀
          exact ⟨id'.symm, isStream⟩
        · exact own
      exact ⟨call', self, requestId.trans own.1.symm, kind ▸ own.2, begun,
        notEnded (.inl (own.1 ▸ mem))⟩
    · rcases streams id m mem with before | ⟨isOne, _⟩
      · rw [others m same]
        exact registered.streams id m before
      · exact absurd isOne same
  · intro id m mem
    by_cases same : m = n
    · subst same
      have own : id = call.requestId ∧ call.kind.isStream = false := by
        rcases pending id m mem with before | ⟨_, own⟩
        · obtain ⟨call₀, found₀, id', oneShot, _⟩ := registered.pending id m before
          rw [found] at found₀
          cases found₀
          exact ⟨id'.symm, oneShot⟩
        · exact own
      have untold := waiting (own.1 ▸ mem)
      exact ⟨call', self, requestId.trans own.1.symm, kind ▸ own.2, begun, untold⟩
    · rcases pending id m mem with before | ⟨isOne, _⟩
      · rw [others m same]
        exact registered.pending id m before
      · exact absurd isOne same
  · intro m payload holds
    obtain ⟨call₀, found₀, isStream, begun₀, notEnded₀⟩ :=
      registered.handing m payload (handing m payload holds)
    by_cases same : m = n
    · subst same
      rw [found] at found₀
      cases found₀
      exact ⟨call', self, kind ▸ isStream, begun, notEnded (.inr (by simp [holds, Reader.holds]))⟩
    · exact ⟨call₀, (others m same).trans found₀, isStream, begun₀, notEnded₀⟩

theorem Registered.begin (registered : Registered link) (kind : Kind) :
    Registered (link.begin kind) := by
  have others : ∀ m call, link.calls m = some call → (link.begin kind).calls m = some call := by
    intro m call found
    have below := (registered.known m call found).1
    simp only [AgentLink.begin, Function.update_of_ne (Nat.ne_of_lt below), found]
  refine ⟨?_, ?_, ?_, ?_, ?_, ?_⟩
  · have counted := registered.nextRequestId
    simp only [requestIdOf] at counted
    simp only [AgentLink.begin, requestIdOf]
    omega
  · intro m call found
    simp only [AgentLink.begin, Function.update_apply] at found ⊢
    split at found
    · rename_i isNew
      cases found
      exact ⟨by omega, isNew ▸ registered.nextRequestId⟩
    · obtain ⟨below, id⟩ := registered.known m call found
      exact ⟨by omega, id⟩
  · intro m call found registering
    simp only [AgentLink.begin, Function.update_apply] at found
    split at found
    · cases found
      exact ⟨rfl, rfl⟩
    · exact registered.registering m call found registering
  · intro requestId m mem
    obtain ⟨call, found, rest⟩ := registered.streams requestId m mem
    exact ⟨call, others m call found, rest⟩
  · intro requestId m mem
    obtain ⟨call, found, rest⟩ := registered.pending requestId m mem
    exact ⟨call, others m call found, rest⟩
  · intro m payload handing
    obtain ⟨call, found, rest⟩ := registered.handing m payload handing
    exact ⟨call, others m call found, rest⟩

/-- A call in `pending` has nothing in its channel. -/
theorem Registered.noPending {n : Nat} {call : Call Reply Command} (registered : Registered link)
    (found : link.calls n = some call) (told : call.inbox ≠ []) :
    link.pending call.requestId ≠ some n := by
  intro mem
  obtain ⟨other, found', _, _, _, empty, _⟩ := registered.pending _ n mem
  rw [found] at found'
  cases found'
  exact told empty

/-- What an event does to the registrations is a matter of the one call it moves. -/
theorem Registered.moves (registered : Registered link) (effect : Effect link event next) :
    Registered next := by
  cases effect with
  | quiet _ quieter => exact registered.quieter quieter
  | begin kind => exact registered.begin kind
  | @registerStream n call found isRegistering isStream =>
      have empty := (registered.registering n call found isRegistering).1
      refine registered.setCall found { call with caller := .readingOutbound } rfl rfl (by simp) rfl
        rfl (fun m => by simp) ?_ (fun _ _ => .inl) (fun _ _ => id) (fun _ => by simp)
        (fun _ => ⟨empty, by simp⟩)
      intro id m mem
      simp only [Function.update_apply] at mem
      split at mem
      · rename_i same
        cases mem
        exact .inr ⟨rfl, same, isStream⟩
      · exact .inl mem
  | @registerPending n call found isRegistering oneShot =>
      have empty := (registered.registering n call found isRegistering).1
      refine registered.setCall found { call with caller := .readingOutbound } rfl rfl (by simp) rfl
        rfl (fun m => by simp) (fun _ _ => .inl) ?_ (fun _ _ => id) (fun _ => by simp)
        (fun _ => ⟨empty, by simp⟩)
      intro id m mem
      simp only [Function.update_apply] at mem
      split at mem
      · rename_i same
        cases mem
        exact .inr ⟨rfl, same, oneShot⟩
      · exact .inl mem
  | @reply n call payload rest found waiting inbox =>
      have absent := registered.noPending found (by simp [inbox])
      exact registered.setCall found { call with caller := .replied payload, inbox := rest } rfl rfl
        (by simp) rfl rfl (fun m => by simp) (fun _ _ => .inl) (fun _ _ => .inl) (fun _ _ => id)
        (fun _ => by simp) (fun mem => absurd mem absent)
  | @noReply n call found waiting inbox closed =>
      exact registered.setCall found { call with caller := .failed .agentUnavailable } rfl rfl
        (by simp) rfl rfl (fun m => by simp) (fun _ _ => .inl) (fun _ _ => .inl) (fun _ _ => id)
        (fun _ => by simp) (fun _ => ⟨inbox, by simp⟩)
  | @yield n call payload rest found listening inbox =>
      have absent := registered.noPending found (by simp [inbox])
      exact registered.setCall found { call with inbox := rest, yielded := call.yielded ++ [payload] }
        rfl rfl (by simp [listening]) rfl rfl (fun m => by simp) (fun _ _ => .inl) (fun _ _ => .inl)
        (fun _ _ => id) (fun _ => by simp [listening]) (fun mem => absurd mem absent)
  | @ended n call found listening inbox closed =>
      simp only [AgentLink.hasSender, decide_eq_false_iff_not, not_or] at closed
      obtain ⟨noPending, noStream, notHeld⟩ := closed
      exact registered.setCall found { call with caller := .ended } rfl rfl (by simp) rfl rfl
        (fun m => by simp) (fun _ _ => .inl) (fun _ _ => .inl) (fun _ _ => id)
        (fun holds => (holds.elim noStream notHeld).elim) (fun mem => absurd mem noPending)
  | finished reading | skipped reading | read reading =>
      exact registered.reader rfl rfl rfl rfl (fun _ _ => id) (by simp [reading])
  | unmatched routing | unheard handing | unknown unmatched =>
      exact registered.reader rfl rfl rfl rfl (fun _ _ => id) (by simp)
  | forgotten unmatched isRegistered found deaf =>
      exact registered.reader rfl rfl rfl rfl (fun _ _ => AgentLink.removed_sub) (by simp)
  | @matched requestId m payload routing isRegistered =>
      obtain ⟨call, found, _, listed⟩ := registered.streams requestId m isRegistered
      refine registered.reader rfl rfl rfl rfl (fun _ _ => id) fun n other handing => ?_
      cases handing
      exact ⟨call, found, listed⟩
  | @handed m payload call handing found hears room =>
      obtain ⟨call₀, found₀, isStream, begun, notEnded⟩ := registered.handing m payload handing
      rw [found] at found₀
      cases found₀
      refine registered.setCall found { call with inbox := call.inbox ++ [payload] } rfl rfl begun rfl
        rfl (fun n => by simp) (fun _ _ => .inl) (fun _ _ => .inl) (by simp) (fun _ => notEnded)
        fun mem => ?_
      obtain ⟨call₁, found₁, _, oneShot, _⟩ := registered.pending _ m mem
      rw [found] at found₁
      cases found₁
      simp [isStream] at oneShot
  | @answered requestId m payload call unmatched isRegistered found hears =>
      obtain ⟨call₀, found₀, id, oneShot, begun, _⟩ := registered.pending requestId m isRegistered
      rw [found] at found₀
      cases found₀
      refine registered.setCall found { call with inbox := [payload] } rfl rfl begun rfl rfl
        (fun n => by simp) (fun _ _ => .inl) (fun _ _ mem => .inl (AgentLink.removed_sub mem))
        (by simp) (fun _ ended => ?_) fun mem => ?_
      · have ended : call.caller = .ended := ended
        simp [ended, Caller.hears] at hears
      · simp [AgentLink.removePending, id] at mem

theorem registered_of_reachable (reachable : (machine Reply Command).Reachable link) :
    Registered link :=
  reachable.invariant _ (fun _ isInitial => eq_new isInitial ▸ registered_new)
    fun _ _ _ registered stepped _ => registered.moves (AgentLink.step_effect stepped)

/-- No request id is in both maps. -/
theorem Registered.disjoint (registered : Registered link) (few : link.started < 2 ^ 64)
    (requestId : Nat) : link.pending requestId = none ∨ link.streams requestId = none := by
  cases pending : link.pending requestId with
  | none => exact .inl rfl
  | some n =>
      refine .inr ?_
      cases streams : link.streams requestId with
      | none => rfl
      | some m =>
          obtain ⟨call, found, id, oneShot, _⟩ := registered.pending requestId n pending
          obtain ⟨other, found', id', isStream, _⟩ := registered.streams requestId m streams
          have same := registered.unique few found found' (id.trans id'.symm)
          subst same
          rw [found] at found'
          cases found'
          rw [oneShot] at isStream
          cases isStream

/-- What the one-shot calls have been told. -/
structure Answered (history : History Reply Command) (link : AgentLink Reply Command) : Prop where
  pending : ∀ n call, link.calls n = some call → link.pending call.requestId = some n →
    answersSince n call.requestId history = []
  told : ∀ n call, link.calls n = some call → call.kind.isStream = false →
    ∀ payload, payload ∈ call.inbox ∨ call.caller = .replied payload →
      (answersSince n call.requestId history).head? = some payload

/-- What the streams have been told, and what is on its way to them. -/
structure Streamed (history : History Reply Command) (link : AgentLink Reply Command) : Prop where
  fresh : ∀ n, link.started ≤ n → n < 2 ^ 64 → offered (requestIdOf n) history = []
  registering : ∀ n call, link.calls n = some call → call.caller = .registering →
    offered call.requestId history = []
  hearing : ∀ n call, link.calls n = some call → call.kind.isStream = true →
    call.caller.hears = true →
      call.yielded ++ call.inbox ++ inHand link n = offered call.requestId history
  yielded : ∀ n call, link.calls n = some call → call.kind.isStream = true →
    call.yielded <+: offered call.requestId history
  ended : ∀ n call, link.calls n = some call → call.kind.isStream = true →
    call.caller = .ended → call.yielded = offered call.requestId history

theorem answered_new : Answered [] (AgentLink.new : AgentLink Reply Command) := by
  constructor <;> simp [AgentLink.new]

theorem streamed_new : Streamed [] (AgentLink.new : AgentLink Reply Command) := by
  constructor <;> simp [AgentLink.new, offered]

theorem Answered.quieter (answered : Answered history link) (isQuiet : event.isQuiet = true)
    (quieter : Quieter link next) : Answered ((link, event) :: history) next := by
  have same : ∀ n requestId, answersSince n requestId ((link, event) :: history) =
      answersSince n requestId history := fun n requestId => by
    simp [answersSince, registers_quiet isQuiet, decided_quiet isQuiet]
  refine ⟨?_, ?_⟩
  · intro n call' found' mem
    obtain ⟨call, found, quiet⟩ := quieter.calls n call' found'
    rw [same, quiet.requestId]
    exact answered.pending n call found (quieter.pending _ _ (quiet.requestId ▸ mem))
  · intro n call' found' oneShot payload told
    obtain ⟨call, found, quiet⟩ := quieter.calls n call' found'
    rw [same, quiet.requestId]
    exact answered.told n call found (quiet.kind ▸ oneShot) payload
      (told.imp (quiet.inbox ▸ ·) (quiet.replied payload))

/-- What the clauses of `Answered` say of one call. -/
structure Heard (waits : Prop) (answers : List Reply) (call : Call Reply Command) : Prop where
  pending : waits → answers = []
  told : call.kind.isStream = false → ∀ payload, payload ∈ call.inbox ∨ call.caller = .replied payload →
    answers.head? = some payload

theorem Answered.heard {n : Nat} {call : Call Reply Command} (answered : Answered history link)
    (found : link.calls n = some call) :
    Heard (link.pending call.requestId = some n) (answersSince n call.requestId history) call :=
  ⟨answered.pending n call found, answered.told n call found⟩

/-- What comes later is not the first answer. -/
theorem Heard.later {waits waits' : Prop} {answers more : List Reply} {call : Call Reply Command}
    (heard : Heard waits answers call) (still : waits' → waits ∧ more = []) :
    Heard waits' (answers ++ more) call where
  pending := fun isWaiting => by
    obtain ⟨wasWaiting, none⟩ := still isWaiting
    rw [heard.pending wasWaiting, none, List.append_nil]
  told := fun oneShot payload told => by
    rw [List.head?_append, heard.told oneShot payload told, Option.some_or]

theorem answersSince_cons {n requestId : Nat} (calm : event.registers n = false) :
    answersSince n requestId ((link, event) :: history) =
      answersSince n requestId history ++ carried requestId (decided link event) := by
  simp [answersSince, calm]

theorem answersSince_same {n requestId : Nat} (calm : event.registers n = false)
    (none : decided link event = none) :
    answersSince n requestId ((link, event) :: history) = answersSince n requestId history := by
  simp [answersSince_cons calm, none]

/-- The other calls wait on only for what was not meant for them. -/
theorem Answered.setCall (answered : Answered history link) (n : Nat) (call' : Call Reply Command)
    (calls : ∀ m, next.calls m = if m = n then some call' else link.calls m)
    (calm : ∀ m, m ≠ n → event.registers m = false)
    (pending : ∀ m call, m ≠ n → link.calls m = some call → next.pending call.requestId = some m →
      link.pending call.requestId = some m ∧ carried call.requestId (decided link event) = [])
    (heard : Heard (next.pending call'.requestId = some n)
      (answersSince n call'.requestId ((link, event) :: history)) call') :
    Answered ((link, event) :: history) next := by
  have each : ∀ m call, next.calls m = some call → Heard (next.pending call.requestId = some m)
      (answersSince m call.requestId ((link, event) :: history)) call := by
    intro m call found
    rw [calls] at found
    split at found
    · rename_i isOne
      cases found
      exact isOne ▸ heard
    · rename_i different
      rw [answersSince_cons (calm m different)]
      exact (answered.heard found).later (pending m call different found)
  exact ⟨fun m call found => (each m call found).pending, fun m call found => (each m call found).told⟩

theorem Answered.reader (answered : Answered history link) (calls : next.calls = link.calls)
    (calm : ∀ n, event.registers n = false)
    (pending : ∀ n call, link.calls n = some call → next.pending call.requestId = some n →
      link.pending call.requestId = some n ∧ carried call.requestId (decided link event) = []) :
    Answered ((link, event) :: history) next := by
  have each : ∀ n call, next.calls n = some call → Heard (next.pending call.requestId = some n)
      (answersSince n call.requestId ((link, event) :: history)) call := by
    intro n call found
    rw [calls] at found
    rw [answersSince_cons (calm n)]
    exact (answered.heard found).later (pending n call found)
  exact ⟨fun n call found => (each n call found).pending, fun n call found => (each n call found).told⟩

/-- A call in `pending` is not the stream that a message has been matched with. -/
theorem Registered.carries_nothing {requestId m n : Nat} {payload : Reply} {call : Call Reply Command}
    (registered : Registered link) (few : link.started < 2 ^ 64)
    (isRegistered : link.streams requestId = some m)
    (mem : link.pending call.requestId = some n) :
    carried call.requestId (some (requestId, payload)) = [] := by
  have different : requestId ≠ call.requestId := by
    rintro rfl
    rcases registered.disjoint few call.requestId with absent | absent
    · simp [absent] at mem
    · simp [absent] at isRegistered
  simp [carried, different]

theorem Answered.moves (answered : Answered history link) (registered : Registered link)
    (few : link.started < 2 ^ 64) (effect : Effect link event next) :
    Answered ((link, event) :: history) next := by
  cases effect with
  | quiet isQuiet quieter => exact answered.quieter isQuiet quieter
  | begin kind =>
      refine answered.setCall link.started ⟨kind, link.nextRequestId, .registering, .idle, [], []⟩
        (fun m => Function.update_apply _ _ _ _) (fun _ _ => rfl) (fun _ _ _ _ mem => ⟨mem, rfl⟩)
        ⟨fun mem => ?_, by simp⟩
      obtain ⟨call, found, _⟩ := registered.pending _ _ mem
      have known := (registered.known _ call found).1
      omega
  | @registerStream n call found isRegistering isStream =>
      refine answered.setCall n { call with caller := .readingOutbound } (fun m => by simp)
        (fun m different => by simp [Event.registers, Ne.symm different])
        (fun m other _ found mem => ⟨mem, rfl⟩) ⟨fun _ => by simp [answersSince, Event.registers], ?_⟩
      simp [isStream]
  | @registerPending n call found isRegistering oneShot =>
      have empty := (registered.registering n call found isRegistering).1
      refine answered.setCall n { call with caller := .readingOutbound } (fun m => by simp)
        (fun m different => by simp [Event.registers, Ne.symm different])
        (fun m other different found mem => ⟨?_, rfl⟩)
        ⟨fun _ => by simp [answersSince, Event.registers], by simp [empty]⟩
      simp only [Function.update_apply] at mem
      split at mem
      · cases mem
        exact absurd rfl different
      · exact mem
  | @reply n call payload rest found waiting inbox =>
      have heard := answered.heard found
      have mem : ∀ other, other ∈ rest ∨ .replied payload = (.replied other : Caller Reply) →
          other ∈ call.inbox := by
        simp only [inbox, Caller.replied.injEq]
        exact fun other told => List.mem_cons.2 (told.symm.imp_left Eq.symm)
      refine answered.setCall n { call with caller := .replied payload, inbox := rest }
        (fun m => by simp) (fun _ _ => rfl) (fun _ _ _ _ mem => ⟨mem, rfl⟩) ?_
      rw [answersSince_same rfl rfl]
      exact ⟨heard.pending, fun oneShot other told => heard.told oneShot other (.inl (mem other told))⟩
  | @noReply n call found waiting inbox closed =>
      refine answered.setCall n { call with caller := .failed .agentUnavailable } (fun m => by simp)
        (fun _ _ => rfl) (fun _ _ _ _ mem => ⟨mem, rfl⟩) ?_
      rw [answersSince_same rfl rfl]
      exact ⟨(answered.heard found).pending, by simp [inbox]⟩
  | @yield n call payload rest found listening inbox =>
      have heard := answered.heard found
      refine answered.setCall n { call with inbox := rest, yielded := call.yielded ++ [payload] }
        (fun m => by simp) (fun _ _ => rfl) (fun _ _ _ _ mem => ⟨mem, rfl⟩) ?_
      rw [answersSince_same rfl rfl]
      refine ⟨heard.pending, fun oneShot other told => heard.told oneShot other ?_⟩
      exact told.imp_left fun mem => inbox ▸ List.mem_cons_of_mem payload mem
  | @ended n call found listening inbox closed =>
      refine answered.setCall n { call with caller := .ended } (fun m => by simp)
        (fun _ _ => rfl) (fun _ _ _ _ mem => ⟨mem, rfl⟩) ?_
      rw [answersSince_same rfl rfl]
      exact ⟨(answered.heard found).pending, by simp [inbox]⟩
  | @handed m payload call handing found hears room =>
      obtain ⟨call₀, found₀, isStream, _⟩ := registered.handing m payload handing
      rw [found] at found₀
      cases found₀
      refine answered.setCall m { call with inbox := call.inbox ++ [payload] } (fun n => by simp)
        (fun _ _ => rfl) (fun _ _ _ _ mem => ⟨mem, rfl⟩) ?_
      rw [answersSince_same rfl rfl]
      exact ⟨(answered.heard found).pending, by simp [isStream]⟩
  | finished | skipped | read | unheard =>
      exact answered.reader rfl (fun _ => rfl) (fun _ _ _ mem => ⟨mem, rfl⟩)
  | unmatched routing absent =>
      refine answered.reader rfl (fun _ => rfl) (fun _ _ _ mem => ⟨mem, ?_⟩)
      simp [decided, offer, routing, absent]
  | @matched requestId m payload routing isRegistered =>
      refine answered.reader rfl (fun _ => rfl) (fun n call _ mem => ⟨mem, ?_⟩)
      have decides : decided link (.lookUpStream : Event Reply Command) = some (requestId, payload) := by
        simp [decided, offer, routing, isRegistered]
      rw [decides]
      exact registered.carries_nothing few isRegistered mem
  | @unknown requestId payload unmatched absent =>
      refine answered.reader rfl (fun _ => rfl) (fun n call _ mem => ⟨mem, ?_⟩)
      have different : requestId ≠ call.requestId := by
        rintro rfl
        simp [absent] at mem
      simp [decided, unmatched, carried, different]
  | @forgotten requestId m payload call unmatched isRegistered found deaf =>
      refine answered.reader rfl (fun _ => rfl) (fun n other _ mem => ⟨AgentLink.removed_sub mem, ?_⟩)
      have different : requestId ≠ other.requestId := by
        rintro rfl
        simp [AgentLink.removePending] at mem
      simp [decided, unmatched, carried, different]
  | @answered requestId m payload call unmatched isRegistered found hears =>
      obtain ⟨call₀, found₀, id, _, _, _, noReply⟩ := registered.pending requestId m isRegistered
      rw [found] at found₀
      cases found₀
      have first := answered.pending m call found (id ▸ isRegistered)
      refine answered.setCall m { call with inbox := [payload] } (fun n => by simp)
        (fun _ _ => rfl) (fun n other _ _ mem => ⟨AgentLink.removed_sub mem, ?_⟩) ?_
      · have different : requestId ≠ other.requestId := by
          rintro rfl
          simp [AgentLink.removePending] at mem
        simp [decided, unmatched, carried, different]
      · rw [answersSince_cons rfl]
        have given : carried call.requestId (decided link (.lookUpPending : Event Reply Command)) =
            [payload] := by
          simp [decided, unmatched, carried, id]
        refine ⟨fun mem => ?_, fun oneShot other told => ?_⟩
        · simp [AgentLink.removePending, id] at mem
        · have isGiven : other = payload := by
            rcases told with mem | replied
            · exact List.mem_singleton.1 mem
            · exact absurd replied (noReply other)
          rw [first, given, isGiven, List.nil_append, List.head?_cons]

theorem Streamed.quieter (streamed : Streamed history link) (quiet : event.isQuiet = true)
    (quieter : Quieter link next) : Streamed ((link, event) :: history) next := by
  have same : ∀ requestId, offered requestId ((link, event) :: history) =
      offered requestId history := fun requestId => by simp [offer_quiet quiet]
  have hand : ∀ n, inHand next n = inHand link n := fun n => by simp [inHand, quieter.reader]
  refine ⟨?_, ?_, ?_, ?_, ?_⟩
  · intro n later below
    rw [same]
    exact streamed.fresh n (quieter.started ▸ later) below
  · intro n call' found' registering'
    obtain ⟨call, found, quiet⟩ := quieter.calls n call' found'
    rw [same, quiet.requestId]
    exact streamed.registering n call found (quiet.registering registering')
  · intro n call' found' isStream hears
    obtain ⟨call, found, quiet⟩ := quieter.calls n call' found'
    rw [same, quiet.requestId, quiet.inbox, quiet.yielded, hand]
    exact streamed.hearing n call found (quiet.kind ▸ isStream) (quiet.hears hears)
  · intro n call' found' isStream
    obtain ⟨call, found, quiet⟩ := quieter.calls n call' found'
    rw [same, quiet.requestId, quiet.yielded]
    exact streamed.yielded n call found (quiet.kind ▸ isStream)
  · intro n call' found' isStream ended
    obtain ⟨call, found, quiet⟩ := quieter.calls n call' found'
    rw [same, quiet.requestId, quiet.yielded]
    exact streamed.ended n call found (quiet.kind ▸ isStream) (quiet.ended ended)

theorem inHand_of_closed {n : Nat} {call : Call Reply Command}
    (closed : link.hasSender n call = false) : inHand link n = [] := by
  simp only [AgentLink.hasSender, decide_eq_false_iff_not, not_or] at closed
  cases reader : link.reader <;> simp_all [inHand, Reader.holds]

theorem Streamed.matched {requestId m : Nat} {payload : Reply} (streamed : Streamed history link)
    (registered : Registered link) (few : link.started < 2 ^ 64)
    (routing : link.reader = .routing requestId payload)
    (isRegistered : link.streams requestId = some m) :
    Streamed ((link, (.lookUpStream : Event Reply Command)) :: history)
      { link with reader := .handing m payload } := by
  obtain ⟨target, found, id, isStream, begun, notEnded⟩ := registered.streams requestId m isRegistered
  have offer : offer link (.lookUpStream : Event Reply Command) = some (requestId, payload) := by
    simp [offer, routing, isRegistered]
  -- Nobody but the call that is registered has this id.
  have others : ∀ n call, link.calls n = some call → n ≠ m → requestId ≠ call.requestId :=
    fun n call found' different same =>
      different (registered.unique few found' found (same.symm.trans id.symm))
  have idle : ∀ n, inHand link n = [] := fun n => by simp [inHand, routing]
  refine ⟨?_, ?_, ?_, ?_, ?_⟩
  · intro n later below
    have known := registered.known m target found
    have different : requestId ≠ requestIdOf n := fun same => by
      have := requestIdOf_injective (by omega) below (known.2.symm.trans (id.trans same))
      simp only at later
      omega
    simp [streamed.fresh n later below, offer, carried, different]
  · intro n call found' registering
    have different : n ≠ m := by
      rintro rfl
      rw [found] at found'
      cases found'
      exact begun registering
    simp [streamed.registering n call found' registering, offer, carried,
      others n call found' different]
  · intro n call found' isStream' hears
    have before := streamed.hearing n call found' isStream' hears
    rw [idle, List.append_nil] at before
    by_cases same : n = m
    · subst same
      rw [found] at found'
      cases found'
      simp [inHand, before, offer, carried, id]
    · simp [inHand, before, offer, carried, others n call found' same, Ne.symm same]
  · intro n call found' isStream'
    exact (streamed.yielded n call found' isStream').trans (List.prefix_append _ _)
  · intro n call found' isStream' ended
    have different : n ≠ m := by
      rintro rfl
      rw [found] at found'
      cases found'
      exact notEnded ended
    simp [streamed.ended n call found' isStream' ended, offer, carried, others n call found' different]

/-- What the clauses of `Streamed` say of one call. -/
structure Told (offered inHand : List Reply) (call : Call Reply Command) : Prop where
  registering : call.caller = .registering → offered = []
  hearing : call.kind.isStream = true → call.caller.hears = true →
    call.yielded ++ call.inbox ++ inHand = offered
  yielded : call.kind.isStream = true → call.yielded <+: offered
  ended : call.kind.isStream = true → call.caller = .ended → call.yielded = offered

theorem Streamed.told {n : Nat} {call : Call Reply Command} (streamed : Streamed history link)
    (found : link.calls n = some call) :
    Told (offered call.requestId history) (inHand link n) call :=
  ⟨streamed.registering n call found, streamed.hearing n call found,
    streamed.yielded n call found, streamed.ended n call found⟩

/-- An event that offers nothing and moves one call leaves the others with what they have been
told. -/
theorem Streamed.setCall (streamed : Streamed history link) (n : Nat)
    (call' : Call Reply Command) (calm : offer link event = none) (started : next.started = link.started)
    (calls : ∀ m, next.calls m = if m = n then some call' else link.calls m)
    (hand : ∀ m, m ≠ n → inHand next m = inHand link m)
    (told : Told (offered call'.requestId history) (inHand next n) call') :
    Streamed ((link, event) :: history) next := by
  have same : ∀ requestId, offered requestId ((link, event) :: history) =
      offered requestId history := fun requestId => by simp [calm]
  have each : ∀ m other, next.calls m = some other →
      Told (offered other.requestId history) (inHand next m) other := by
    intro m other found
    rw [calls] at found
    split at found
    · rename_i isOne
      cases found
      exact isOne ▸ told
    · rename_i different
      exact hand m different ▸ streamed.told found
  refine ⟨?_, ?_, ?_, ?_, ?_⟩
  · intro m later below
    rw [same]
    exact streamed.fresh m (started ▸ later) below
  · exact fun m other found => same _ ▸ (each m other found).registering
  · exact fun m other found => same _ ▸ (each m other found).hearing
  · exact fun m other found => same _ ▸ (each m other found).yielded
  · exact fun m other found => same _ ▸ (each m other found).ended

theorem Streamed.reader (streamed : Streamed history link) (calm : offer link event = none)
    (calls : next.calls = link.calls) (started : next.started = link.started)
    (hand : ∀ n, inHand next n = inHand link n) : Streamed ((link, event) :: history) next := by
  have same : ∀ requestId, offered requestId ((link, event) :: history) =
      offered requestId history := fun requestId => by simp [calm]
  refine ⟨?_, ?_, ?_, ?_, ?_⟩
  · intro n later below
    rw [same]
    exact streamed.fresh n (started ▸ later) below
  · intro n call found
    rw [same]
    exact streamed.registering n call (calls ▸ found)
  · intro n call found
    rw [same, hand]
    exact streamed.hearing n call (calls ▸ found)
  · intro n call found
    rw [same]
    exact streamed.yielded n call (calls ▸ found)
  · intro n call found
    rw [same]
    exact streamed.ended n call (calls ▸ found)

theorem Streamed.begin (streamed : Streamed history link) (registered : Registered link)
    (few : link.started < 2 ^ 64) (kind : Kind) :
    Streamed ((link, .begin kind) :: history) (link.begin kind) := by
  have same : ∀ requestId, offered requestId ((link, .begin kind) :: history) =
      offered requestId history := fun requestId => by simp [offer]
  have each : ∀ m other, (link.begin kind).calls m = some other →
      Told (offered other.requestId history) (inHand (link.begin kind) m) other := by
    intro m other found
    simp only [AgentLink.begin, Function.update_apply] at found
    split at found
    · rename_i isNew
      cases found
      have unused : offered link.nextRequestId history = [] := by
        rw [registered.nextRequestId]
        exact streamed.fresh _ (Nat.le_refl _) few
      have idle : inHand (link.begin kind) m = [] := by
        simp only [inHand, AgentLink.begin]
        split
        · rename_i target payload handing
          obtain ⟨call, found, _⟩ := registered.handing target payload handing
          have known := (registered.known target call found).1
          rw [if_neg (by omega)]
        · rfl
      exact ⟨fun _ => unused, fun _ _ => by simp [idle, unused], fun _ => List.nil_prefix, by simp⟩
    · exact streamed.told found
  refine ⟨?_, ?_, ?_, ?_, ?_⟩
  · intro m later below
    simp only [AgentLink.begin] at later
    rw [same]
    exact streamed.fresh m (by omega) below
  · exact fun m other found => same _ ▸ (each m other found).registering
  · exact fun m other found => same _ ▸ (each m other found).hearing
  · exact fun m other found => same _ ▸ (each m other found).yielded
  · exact fun m other found => same _ ▸ (each m other found).ended

theorem Streamed.moves (streamed : Streamed history link) (registered : Registered link)
    (few : link.started < 2 ^ 64) (effect : Effect link event next) :
    Streamed ((link, event) :: history) next := by
  cases effect with
  | quiet isQuiet quieter => exact streamed.quieter isQuiet quieter
  | matched routing isRegistered => exact streamed.matched registered few routing isRegistered
  | begin kind => exact streamed.begin registered few kind
  | @registerStream n call found isRegistering isStream =>
      have told := streamed.told found
      refine streamed.setCall n { call with caller := .readingOutbound } rfl rfl
        (fun m => by simp) (fun m _ => rfl) ⟨by simp, fun _ _ => ?_, told.yielded, by simp⟩
      exact told.hearing isStream (by simp [isRegistering, Caller.hears])
  | @registerPending n call found isRegistering oneShot =>
      refine streamed.setCall n { call with caller := .readingOutbound } rfl rfl
        (fun m => by simp) (fun m _ => rfl) ?_
      constructor <;> simp [oneShot]
  | @reply n call payload rest found waiting inbox =>
      exact streamed.setCall n { call with caller := .replied payload, inbox := rest } rfl rfl
        (fun m => by simp) (fun m _ => rfl)
        ⟨by simp, by simp [Caller.hears], (streamed.told found).yielded, by simp⟩
  | @noReply n call found waiting inbox closed =>
      exact streamed.setCall n { call with caller := .failed .agentUnavailable } rfl rfl
        (fun m => by simp) (fun m _ => rfl)
        ⟨by simp, by simp [Caller.hears], (streamed.told found).yielded, by simp⟩
  | @yield n call payload rest found listening inbox =>
      have heard : call.kind.isStream = true →
          call.yielded ++ [payload] ++ (rest ++ inHand link n) =
            offered call.requestId history := by
        intro isStream
        have before := (streamed.told found).hearing isStream (by simp [listening, Caller.hears])
        rw [inbox] at before
        simpa using before
      refine streamed.setCall n { call with inbox := rest, yielded := call.yielded ++ [payload] }
        rfl rfl (fun m => by simp) (fun m _ => rfl) ⟨by simp [listening], ?_, ?_, by simp [listening]⟩
      · intro isStream _
        rw [List.append_assoc]
        exact heard isStream
      · exact fun isStream => ⟨_, heard isStream⟩
  | @ended n call found listening inbox closed =>
      have told := streamed.told found
      refine streamed.setCall n { call with caller := .ended } rfl rfl (fun m => by simp)
        (fun m _ => rfl) ⟨by simp, by simp [Caller.hears], told.yielded, fun isStream _ => ?_⟩
      have before := told.hearing isStream (by simp [listening, Caller.hears])
      simpa [inbox, inHand_of_closed closed] using before
  | finished reading | skipped reading | read reading =>
      exact streamed.reader rfl rfl rfl (by simp [inHand, reading])
  | unknown unmatched => exact streamed.reader rfl rfl rfl (by simp [inHand, unmatched])
  | unmatched routing absent =>
      exact streamed.reader (by simp [offer, routing, absent]) rfl rfl (by simp [inHand, routing])
  | @unheard m payload call handing found deaf =>
      have told := streamed.told found
      refine streamed.setCall m call rfl rfl ?_ ?_
        ⟨told.registering, by simp [deaf], told.yielded, told.ended⟩
      · exact fun n => (ite_eq_right_iff.2 fun same => same ▸ found.symm).symm
      · exact fun n different => by simp [inHand, handing, Ne.symm different]
  | @handed m payload call handing found hears room =>
      have told := streamed.told found
      have others : ∀ n, n ≠ m → inHand link n = [] :=
        fun n different => by simp [inHand, handing, Ne.symm different]
      refine streamed.setCall m { call with inbox := call.inbox ++ [payload] } rfl rfl
        (fun n => by simp) (fun n different => (others n different).symm)
        ⟨told.registering, fun isStream _ => ?_, told.yielded, told.ended⟩
      have before := told.hearing isStream hears
      simpa [inHand, handing] using before
  | @answered requestId m payload call unmatched isRegistered found hears =>
      obtain ⟨other, found', _, oneShot, begun, _⟩ := registered.pending requestId m isRegistered
      rw [found] at found'
      cases found'
      refine streamed.setCall m { call with inbox := [payload] } rfl rfl (fun n => by simp)
        (fun n _ => by simp [inHand, unmatched]) ?_
      constructor <;> simp [oneShot, begun]
  | @forgotten requestId m payload call unmatched isRegistered found deaf =>
      exact streamed.reader rfl rfl rfl (by simp [inHand, unmatched])

end

end Berth.Link
