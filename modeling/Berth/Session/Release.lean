import Berth.Session.Replies

/-!
What the end of a session leaves behind: `fail_all_pending` clears the two maps and only then takes
the outbound channel away, while calls go on registering.
-/

namespace Berth.Link

open Interleave

variable {Reply Command : Type} {link next : AgentLink Reply Command}
variable {event : Event Reply Command} {history : History Reply Command}
variable {n requestId : Nat} {call : Call Reply Command}

/-- The call has not got the outbound channel: what it does next ends in giving its registration
back. -/
def Call.Leaving (call : Call Reply Command) : Prop :=
  call.caller = .readingOutbound ∨ call.feeder = .unregisteringPending ∨
    call.feeder = .unregisteringStreams

/-- The call is registered although `fail_all_pending` has already cleared the map it is in. -/
def AgentLink.stays (link : AgentLink Reply Command) (n : Nat) : Bool :=
  match link.calls n with
  | some call =>
      link.pendingCleared ∧ link.pending call.requestId = some n ∨
        link.streamsCleared ∧ link.streams call.requestId = some n
  | none => false

/-- No call that has registered after its map was cleared is handed the outbound channel, and none
is dropped. -/
def InTime (link : AgentLink Reply Command) : Event Reply Command → Prop
  | .readOutbound n => link.stays n = true → link.outbound ≠ .attached
  | .drop n => link.stays n = false
  | _ => True

instance (link : AgentLink Reply Command) (event : Event Reply Command) :
    Decidable (InTime link event) :=
  match event with
  | .readOutbound n => inferInstanceAs (Decidable (link.stays n = true → _))
  | .drop n => inferInstanceAs (Decidable (link.stays n = false))
  | .begin _ | .register _ | .nextPayload _ _ | .handed _ | .unregister _ | .receive _ | .timeOut _
  | .removeExpired _ | .endStream _ | .setOutbound | .transmit | .closeWire | .arrive _ | .hangUp
  | .read | .lookUpStream | .handOver | .lookUpPending | .clearPending | .clearStreams
  | .clearOutbound => isTrue trivial

/-- After a map has been cleared, only calls on their way out are in it. -/
structure Clearing (link : AgentLink Reply Command) : Prop where
  order : link.streamsCleared = true → link.pendingCleared = true
  cleared : link.outbound = .cleared → link.streamsCleared = true
  pending : link.pendingCleared = true → ∀ n call, link.calls n = some call →
    link.pending call.requestId = some n → call.Leaving
  streams : link.streamsCleared = true → ∀ n call, link.calls n = some call →
    link.streams call.requestId = some n → call.Leaving
  idle : ∀ n call, link.calls n = some call → call.caller = .registering → call.feeder = .idle
  removed : ∀ n call, link.calls n = some call → call.feeder = .unregisteringStreams →
    link.pending call.requestId ≠ some n

theorem clearing_new : Clearing (AgentLink.new : AgentLink Reply Command) := by
  constructor <;> simp [AgentLink.new]

/-- What the clauses of `Clearing` say of one call. -/
structure Lingers (link : AgentLink Reply Command) (n : Nat) (call : Call Reply Command) : Prop where
  pending : link.pendingCleared = true → link.pending call.requestId = some n → call.Leaving
  streams : link.streamsCleared = true → link.streams call.requestId = some n → call.Leaving
  idle : call.caller = .registering → call.feeder = .idle
  removed : call.feeder = .unregisteringStreams → link.pending call.requestId ≠ some n

theorem Clearing.lingers (clearing : Clearing link) (found : link.calls n = some call) :
    Lingers link n call :=
  ⟨fun cleared => clearing.pending cleared n call found,
    fun cleared => clearing.streams cleared n call found, clearing.idle n call found,
    clearing.removed n call found⟩

/-- What an event leaves of the two maps, up to the registrations of one call. -/
structure Kept (link next : AgentLink Reply Command) (n : Nat) : Prop where
  outbound : next.outbound = link.outbound
  pendingCleared : next.pendingCleared = link.pendingCleared
  streamsCleared : next.streamsCleared = link.streamsCleared
  pending : ∀ requestId m, m ≠ n → next.pending requestId = some m →
    link.pending requestId = some m
  streams : ∀ requestId m, m ≠ n → next.streams requestId = some m →
    link.streams requestId = some m

theorem Clearing.setCall (clearing : Clearing link) (n : Nat) (call' : Call Reply Command)
    (kept : Kept link next n)
    (calls : ∀ m, next.calls m = if m = n then some call' else link.calls m)
    (lingers : Lingers next n call') : Clearing next := by
  have each : ∀ m other, next.calls m = some other → Lingers next m other := by
    intro m other found
    rw [calls] at found
    split at found
    · rename_i isOne
      cases found
      exact isOne ▸ lingers
    · rename_i different
      have old := clearing.lingers found
      refine ⟨fun cleared inPending => ?_, fun cleared inStreams => ?_, old.idle,
        fun isLast inPending => ?_⟩
      · exact old.pending (kept.pendingCleared ▸ cleared) (kept.pending _ m different inPending)
      · exact old.streams (kept.streamsCleared ▸ cleared) (kept.streams _ m different inStreams)
      · exact old.removed isLast (kept.pending _ m different inPending)
  refine ⟨?_, ?_, ?_, ?_, ?_, ?_⟩
  · rw [kept.streamsCleared, kept.pendingCleared]
    exact clearing.order
  · rw [kept.streamsCleared, kept.outbound]
    exact clearing.cleared
  · exact fun cleared m other found => (each m other found).pending cleared
  · exact fun cleared m other found => (each m other found).streams cleared
  · exact fun m other found => (each m other found).idle
  · exact fun m other found => (each m other found).removed

theorem Kept.refl : Kept link link n :=
  ⟨rfl, rfl, rfl, fun _ _ _ => id, fun _ _ _ => id⟩

theorem Kept.setCall : Kept link (link.setCall n call) n :=
  ⟨rfl, rfl, rfl, fun _ _ _ => id, fun _ _ _ => id⟩

theorem Kept.removePending : Kept link ((link.removePending requestId).setCall n call) n :=
  ⟨rfl, rfl, rfl, fun _ _ _ => AgentLink.removed_sub, fun _ _ _ => id⟩

theorem Kept.removeStream : Kept link ((link.removeStream requestId).setCall n call) n :=
  ⟨rfl, rfl, rfl, fun _ _ _ => id, fun _ _ _ => AgentLink.removed_sub⟩

/-- A call that goes on without registering. -/
theorem Clearing.moved (clearing : Clearing link) (found : link.calls n = some call)
    (call' : Call Reply Command) (requestId : call'.requestId = call.requestId)
    (leaving : call.Leaving → call'.Leaving)
    (idle : call'.caller = .registering → call'.feeder = .idle)
    (removed : call'.feeder = .unregisteringStreams → call.feeder = .unregisteringStreams) :
    Clearing (link.setCall n call') := by
  have old := clearing.lingers found
  refine clearing.setCall n call' .setCall (fun m => by simp) ⟨?_, ?_, idle, ?_⟩
  · rw [requestId]
    exact fun cleared inPending => leaving (old.pending cleared inPending)
  · rw [requestId]
    exact fun cleared inStreams => leaving (old.streams cleared inStreams)
  · rw [requestId]
    exact fun isLast => old.removed (removed isLast)

/-- An event that moves no call and registers none. -/
theorem Clearing.shrink (clearing : Clearing link) (calls : next.calls = link.calls)
    (order : next.streamsCleared = true → next.pendingCleared = true)
    (cleared : next.outbound = .cleared → next.streamsCleared = true)
    (pending : ∀ requestId n, next.pending requestId = some n →
      link.pending requestId = some n ∧ next.pendingCleared = link.pendingCleared)
    (streams : ∀ requestId n, next.streams requestId = some n →
      link.streams requestId = some n ∧ next.streamsCleared = link.streamsCleared) :
    Clearing next := by
  refine ⟨order, cleared, ?_, ?_, ?_, ?_⟩
  · intro isCleared n call found inPending
    obtain ⟨before, same⟩ := pending _ n inPending
    exact clearing.pending (same ▸ isCleared) n call (calls ▸ found) before
  · intro isCleared n call found inStreams
    obtain ⟨before, same⟩ := streams _ n inStreams
    exact clearing.streams (same ▸ isCleared) n call (calls ▸ found) before
  · exact fun n call found => clearing.idle n call (calls ▸ found)
  · intro n call found isLast inPending
    exact clearing.removed n call (calls ▸ found) isLast (pending _ n inPending).1

theorem Clearing.unmoved (clearing : Clearing link) (calls : next.calls = link.calls)
    (pending : next.pending = link.pending) (streams : next.streams = link.streams)
    (pendingCleared : next.pendingCleared = link.pendingCleared)
    (streamsCleared : next.streamsCleared = link.streamsCleared)
    (outbound : next.outbound = link.outbound) : Clearing next := by
  refine clearing.shrink calls ?_ ?_ (fun _ _ mem => ⟨pending ▸ mem, pendingCleared⟩)
    fun _ _ mem => ⟨streams ▸ mem, streamsCleared⟩
  · rw [streamsCleared, pendingCleared]
    exact clearing.order
  · rw [outbound, streamsCleared]
    exact clearing.cleared

theorem Clearing.begin (clearing : Clearing link) (registered : Registered link) (kind : Kind) :
    Clearing (link.begin kind) := by
  -- The maps hold calls that have begun, so not this one.
  have absent : ∀ requestId, link.pending requestId ≠ some link.started ∧
      link.streams requestId ≠ some link.started := by
    refine fun requestId => ⟨fun inPending => ?_, fun inStreams => ?_⟩
    · obtain ⟨call, found, _⟩ := registered.pending requestId _ inPending
      exact Nat.lt_irrefl _ (registered.known _ call found).1
    · obtain ⟨call, found, _⟩ := registered.streams requestId _ inStreams
      exact Nat.lt_irrefl _ (registered.known _ call found).1
  refine clearing.setCall link.started ⟨kind, link.nextRequestId, .registering, .idle, [], []⟩
    ⟨rfl, rfl, rfl, fun _ _ _ => id, fun _ _ _ => id⟩ ?_ ?_
  · exact fun m => by simp [AgentLink.begin, Function.update_apply]
  · exact ⟨fun _ inPending => absurd inPending (absent _).1,
      fun _ inStreams => absurd inStreams (absent _).2, fun _ => rfl, by simp⟩

theorem Clearing.register (clearing : Clearing link) (effect : Effect link (.register n) next) :
    Clearing next := by
  cases effect with
  | quiet isQuiet => cases isQuiet
  | @registerStream _ call found registering isStream =>
      have idle := clearing.idle n call found registering
      refine clearing.setCall n { call with caller := .readingOutbound }
        ⟨rfl, rfl, rfl, fun _ _ _ => id, ?_⟩ (fun m => by simp)
        ⟨fun _ _ => .inl rfl, fun _ _ => .inl rfl, by simp, by simp [idle]⟩
      intro requestId m different inStreams
      by_cases same : requestId = call.requestId
      · subst same
        simp only [Function.update_self, Option.some.injEq] at inStreams
        exact absurd inStreams.symm different
      · simpa [Function.update_of_ne same] using inStreams
  | @registerPending _ call found registering oneShot =>
      have idle := clearing.idle n call found registering
      refine clearing.setCall n { call with caller := .readingOutbound }
        ⟨rfl, rfl, rfl, ?_, fun _ _ _ => id⟩ (fun m => by simp)
        ⟨fun _ _ => .inl rfl, fun _ _ => .inl rfl, by simp, by simp [idle]⟩
      intro requestId m different inPending
      by_cases same : requestId = call.requestId
      · subst same
        simp only [Function.update_self, Option.some.injEq] at inPending
        exact absurd inPending.symm different
      · simpa [Function.update_of_ne same] using inPending

theorem Clearing.readOutbound (clearing : Clearing link) (found : link.calls n = some call)
    (stepped : link.readOutbound n call = some next)
    (inTime : link.stays n = true → link.outbound ≠ .attached) : Clearing next := by
  simp only [AgentLink.stays, found, decide_eq_true_eq] at inTime
  simp only [AgentLink.readOutbound] at stepped
  split at stepped
  · split at stepped
    · rename_i attached
      have gone := fun stays => inTime stays attached
      split at stepped <;> cases stepped
      all_goals
        refine clearing.setCall n _ .setCall (fun m => AgentLink.setCall_calls) ⟨?_, ?_, by simp, by simp⟩
      all_goals
        intro isCleared registered
        first
          | exact (gone (.inl ⟨isCleared, registered⟩)).elim
          | exact (gone (.inr ⟨isCleared, registered⟩)).elim
    · cases stepped
      exact clearing.moved found _ rfl (fun _ => .inr (.inl rfl)) (by simp) (by simp)
    · cases stepped
      exact clearing.moved found _ rfl (fun _ => .inr (.inl rfl)) (by simp) (by simp)
  · cases stepped

theorem Clearing.handed (clearing : Clearing link) (found : link.calls n = some call)
    (stepped : link.handed n call = some next) : Clearing next := by
  have idle := clearing.idle n call found
  have sent : ∀ wire, Clearing { link with wire } := fun wire =>
    clearing.unmoved rfl rfl rfl rfl rfl rfl
  simp only [AgentLink.handed] at stepped
  split at stepped
  · rename_i command handing
    have begun : call.caller ≠ .registering := fun same => by simp [idle same] at handing
    split at stepped
    · cases stepped
      exact clearing.moved found _ rfl (fun _ => .inr (.inl rfl)) (absurd · begun) (by simp)
    · split at stepped
      · split at stepped <;> cases stepped
        all_goals
          refine (sent (link.wire ++ [(call.requestId, command)])).moved found _ rfl ?_ ?_ ?_ <;>
            simp_all [Call.Leaving]
      · cases stepped
  · cases stepped

theorem Clearing.drop (clearing : Clearing link) (found : link.calls n = some call)
    (stepped : link.drop n call = some next) (gone : link.stays n = false) : Clearing next := by
  simp only [AgentLink.stays, found, decide_eq_false_iff_not, not_or, not_and] at gone
  have idle := clearing.idle n call found
  have last := clearing.removed n call found
  simp only [AgentLink.drop] at stepped
  split at stepped <;> cases stepped
  all_goals
    refine clearing.setCall n _ .setCall (fun m => AgentLink.setCall_calls) ⟨?_, ?_, by simp, ?_⟩
  all_goals
    first
      | exact fun isCleared registered => absurd registered (gone.1 isCleared)
      | exact fun isCleared registered => absurd registered (gone.2 isCleared)
      | exact last
      | simp

theorem Clearing.unregister (clearing : Clearing link) (found : link.calls n = some call)
    (stepped : link.unregister n call = some next) : Clearing next := by
  have old := clearing.lingers found
  have begun : call.feeder ≠ .idle → call.caller ≠ .registering := fun busy same =>
    busy (old.idle same)
  simp only [AgentLink.unregister] at stepped
  split at stepped
  · rename_i unregistering
    cases stepped
    refine clearing.setCall n _ .removePending (fun m => AgentLink.setCall_calls)
      ⟨fun _ _ => .inr (.inr rfl), fun _ _ => .inr (.inr rfl), ?_, by simp⟩
    exact fun same => absurd same (begun (by simp [unregistering]))
  · rename_i unregistering
    have out := old.removed unregistering
    split at stepped <;> cases stepped
    all_goals
      refine clearing.setCall n _ .removeStream (fun m => AgentLink.setCall_calls)
        ⟨fun _ inPending => absurd inPending out, fun _ => by simp,
          by simp [begun (by simp [unregistering])], by simp⟩
  · cases stepped

theorem Clearing.moves (clearing : Clearing link) (registered : Registered link)
    (stepped : link.step event = some next) (inTime : InTime link event) : Clearing next := by
  have effect := AgentLink.step_effect stepped
  cases event with
  | begin kind =>
      cases stepped
      exact clearing.begin registered kind
  | register n => exact clearing.register effect
  | readOutbound n =>
      obtain ⟨call, found, stepped⟩ := Option.bind_eq_some_iff.1 stepped
      exact clearing.readOutbound found stepped inTime
  | unregister n =>
      obtain ⟨call, found, stepped⟩ := Option.bind_eq_some_iff.1 stepped
      exact clearing.unregister found stepped
  | nextPayload n payload =>
      obtain ⟨call, found, stepped⟩ := Option.bind_eq_some_iff.1 stepped
      have idle := clearing.idle n call found
      simp only [AgentLink.nextPayload] at stepped
      repeat' split at stepped
      all_goals cases stepped
      all_goals
        refine clearing.moved found _ rfl ?_ ?_ ?_ <;> simp_all [Call.Leaving]
  | handed n =>
      obtain ⟨call, found, stepped⟩ := Option.bind_eq_some_iff.1 stepped
      exact clearing.handed found stepped
  | receive n =>
      clear stepped
      cases effect with
      | quiet isQuiet => cases isQuiet
      | reply found waiting inbox | noReply found waiting inbox closed => 
          refine clearing.moved found _ rfl ?_ ?_ ?_ <;> simp_all [Call.Leaving]
      | yield found listening inbox | ended found listening inbox closed => 
          refine clearing.moved found _ rfl ?_ ?_ ?_ <;> simp_all [Call.Leaving]
  | timeOut n =>
      obtain ⟨call, found, stepped⟩ := Option.bind_eq_some_iff.1 stepped
      simp only [AgentLink.timeOut] at stepped
      split at stepped <;> cases stepped
      refine clearing.moved found _ rfl ?_ ?_ ?_ <;> simp_all [Call.Leaving]
  | removeExpired n =>
      obtain ⟨call, found, stepped⟩ := Option.bind_eq_some_iff.1 stepped
      simp only [AgentLink.removeExpired] at stepped
      split at stepped <;> cases stepped
      have removed : Clearing (link.removePending call.requestId) :=
        clearing.shrink rfl clearing.order clearing.cleared
          (fun _ _ mem => ⟨AgentLink.removed_sub mem, rfl⟩) fun _ _ mem => ⟨mem, rfl⟩
      refine removed.moved found _ rfl ?_ ?_ ?_ <;> simp_all [Call.Leaving]
  | drop n =>
      obtain ⟨call, found, stepped⟩ := Option.bind_eq_some_iff.1 stepped
      exact clearing.drop found stepped inTime
  | endStream requestId =>
      cases stepped
      exact clearing.shrink rfl clearing.order clearing.cleared (fun _ _ mem => ⟨mem, rfl⟩)
        fun _ _ mem => ⟨AgentLink.removed_sub mem, rfl⟩
  | read =>
      cases effect with
      | quiet isQuiet => cases isQuiet
      | finished | skipped | read => exact clearing.unmoved rfl rfl rfl rfl rfl rfl
  | lookUpStream =>
      cases effect with
      | quiet isQuiet => cases isQuiet
      | matched | unmatched => exact clearing.unmoved rfl rfl rfl rfl rfl rfl
  | handOver =>
      cases effect with
      | quiet isQuiet => cases isQuiet
      | unheard => exact clearing.unmoved rfl rfl rfl rfl rfl rfl
      | handed handing found hears room =>
          have old := clearing.lingers found
          exact clearing.setCall _ _ ⟨rfl, rfl, rfl, fun _ _ _ => id, fun _ _ _ => id⟩
            (fun m => AgentLink.setCall_calls) ⟨old.pending, old.streams, old.idle, old.removed⟩
  | lookUpPending =>
      cases effect with
      | quiet isQuiet => cases isQuiet
      | unknown => exact clearing.unmoved rfl rfl rfl rfl rfl rfl
      | forgotten =>
          exact clearing.shrink rfl clearing.order clearing.cleared
            (fun _ _ mem => ⟨AgentLink.removed_sub mem, rfl⟩) fun _ _ mem => ⟨mem, rfl⟩
      | answered unmatched registered found hears =>
          have old := clearing.lingers found
          exact clearing.setCall _ _
            ⟨rfl, rfl, rfl, fun _ _ _ => AgentLink.removed_sub, fun _ _ _ => id⟩
            (fun m => AgentLink.setCall_calls)
            ⟨fun isCleared mem => old.pending isCleared (AgentLink.removed_sub mem), old.streams,
              old.idle, fun isLast mem => old.removed isLast (AgentLink.removed_sub mem)⟩
  | closeWire | hangUp =>
      cases stepped
      exact clearing.unmoved rfl rfl rfl rfl rfl rfl
  | setOutbound =>
      simp only [AgentLink.step] at stepped
      split at stepped <;> cases stepped
      exact clearing.shrink rfl clearing.order (by simp) (fun _ _ mem => ⟨mem, rfl⟩)
        fun _ _ mem => ⟨mem, rfl⟩
  | transmit | arrive message =>
      simp only [AgentLink.step] at stepped
      split at stepped <;> cases stepped
      exact clearing.unmoved rfl rfl rfl rfl rfl rfl
  | clearPending =>
      cases stepped
      exact clearing.shrink rfl (fun _ => rfl) clearing.cleared (by simp) fun _ _ mem => ⟨mem, rfl⟩
  | clearStreams =>
      simp only [AgentLink.step] at stepped
      split at stepped <;> cases stepped
      rename_i isCleared
      exact clearing.shrink rfl (fun _ => isCleared) (fun _ => rfl) (fun _ _ mem => ⟨mem, rfl⟩)
        (by simp)
  | clearOutbound =>
      simp only [AgentLink.step] at stepped
      split at stepped <;> cases stepped
      rename_i isCleared
      exact clearing.shrink rfl clearing.order (fun _ => isCleared) (fun _ _ mem => ⟨mem, rfl⟩)
        fun _ _ mem => ⟨mem, rfl⟩

/-! A call that begins once the outbound channel has been taken away. -/

/-- The call has failed with `AgentUnavailable`, or is on its way there, unless it was dropped. -/
def Call.Refused (call : Call Reply Command) : Prop :=
  call.caller = .registering ∨ call.caller = .readingOutbound ∨
    call.caller = .feeding ∧
      (call.feeder = .unregisteringPending ∨ call.feeder = .unregisteringStreams) ∨
    call.caller = .failed .agentUnavailable ∨ call.caller = .dropped

theorem cleared_stays (stepped : link.step event = some next) (cleared : link.outbound = .cleared) :
    next.outbound = .cleared := by
  cases event with
  | begin kind | endStream requestId | closeWire | hangUp | clearPending =>
      cases stepped
      exact cleared
  | setOutbound =>
      simp only [AgentLink.step, cleared] at stepped
      cases stepped
  | transmit | arrive message | clearStreams | clearOutbound =>
      simp only [AgentLink.step] at stepped
      split at stepped <;> cases stepped
      first | exact cleared | rfl
  | register n | readOutbound n | nextPayload n payload | handed n | unregister n | receive n
  | timeOut n | removeExpired n | drop n =>
      obtain ⟨call, found, stepped⟩ := Option.bind_eq_some_iff.1 stepped
      simp only [AgentLink.register, AgentLink.readOutbound, AgentLink.nextPayload,
        AgentLink.handed, AgentLink.unregister, AgentLink.receive, AgentLink.timeOut,
        AgentLink.removeExpired, AgentLink.drop] at stepped
      repeat' split at stepped
      all_goals cases stepped
      all_goals exact cleared
  | read | lookUpStream | handOver | lookUpPending =>
      cases AgentLink.step_effect stepped <;> first | contradiction | exact cleared

theorem Call.Refused.moves {m : Nat} (registered : Registered link)
    (cleared : link.outbound = .cleared) (found : link.calls m = some call) (refused : call.Refused)
    (stepped : link.step event = some next) :
    ∃ call', next.calls m = some call' ∧ call'.Refused := by
  have known := registered.known m call found
  cases event with
  | begin kind =>
      cases stepped
      have different : m ≠ link.started := by omega
      exact ⟨call, by simp [AgentLink.begin, Function.update_of_ne different, found], refused⟩
  | endStream requestId | closeWire | hangUp | clearPending =>
      cases stepped
      exact ⟨call, found, refused⟩
  | setOutbound | transmit | arrive message | clearStreams | clearOutbound =>
      simp only [AgentLink.step] at stepped
      split at stepped <;> cases stepped
      exact ⟨call, found, refused⟩
  | readOutbound n | nextPayload n payload | handed n | unregister n | timeOut n | removeExpired n
  | drop n =>
      obtain ⟨mover, foundMover, stepped⟩ := Option.bind_eq_some_iff.1 stepped
      simp only [AgentLink.readOutbound, AgentLink.nextPayload, AgentLink.handed,
        AgentLink.unregister, AgentLink.timeOut, AgentLink.removeExpired, AgentLink.drop] at stepped
      repeat' split at stepped
      all_goals cases stepped
      all_goals grind [Call.Refused]
  | register n | receive n | read | lookUpStream | handOver | lookUpPending =>
      cases AgentLink.step_effect stepped <;>
        first | contradiction | exact ⟨call, found, refused⟩ | grind [Call.Refused]

/-- The steps by which a call that finds no outbound channel takes itself out of the maps. -/
def Event.Withdraws (n : Nat) : Event Reply Command → Prop
  | .register m | .readOutbound m | .unregister m => m = n
  | _ => False

/-- The call is in neither map, and has failed if its future was still running. -/
def AgentLink.Withdrawn (link : AgentLink Reply Command) (n : Nat) (call : Call Reply Command) :
    Prop :=
  link.pending call.requestId ≠ some n ∧ link.streams call.requestId ≠ some n ∧
    (call.caller = .registering ∨ call.caller = .readingOutbound ∨ call.caller = .feeding →
      ∃ call', link.calls n = some call' ∧ call'.caller = .failed .agentUnavailable)

theorem leads_withdrawing {state state' state'' : AgentLink Reply Command}
    (event : Event Reply Command) (withdraws : event.Withdraws n)
    (stepped : state.step event = some state')
    (rest : (machine Reply Command).Leads (Event.Withdraws n) state' state'') :
    (machine Reply Command).Leads (Event.Withdraws n) state state'' :=
  Machine.Leads.head withdraws stepped rest

theorem withdraws_unregisteringStreams (found : link.calls n = some call)
    (unregistering : call.feeder = .unregisteringStreams)
    (removed : link.pending call.requestId ≠ some n)
    (running : call.caller ≠ .registering ∧ call.caller ≠ .readingOutbound) :
    ∃ later, (machine Reply Command).Leads (Event.Withdraws n) link later ∧
      later.Withdrawn n call := by
  cases stepped : link.step (.unregister n) with
  | none =>
      simp only [AgentLink.step, found, AgentLink.unregister, unregistering, Option.bind_some]
        at stepped
      split at stepped <;> cases stepped
  | some later =>
      refine ⟨later, leads_withdrawing (.unregister n) rfl stepped .refl, ?_⟩
      simp only [AgentLink.step, found, AgentLink.unregister, unregistering, Option.bind_some]
        at stepped
      split at stepped <;> cases stepped <;>
        simp_all [AgentLink.Withdrawn]

theorem withdraws_unregisteringPending (found : link.calls n = some call)
    (unregistering : call.feeder = .unregisteringPending)
    (running : call.caller ≠ .registering ∧ call.caller ≠ .readingOutbound) :
    ∃ later, (machine Reply Command).Leads (Event.Withdraws n) link later ∧
      later.Withdrawn n call := by
  have stepped : link.step (.unregister n) = some ((link.removePending call.requestId).setCall n
      { call with feeder := .unregisteringStreams }) := by
    simp [AgentLink.step, found, AgentLink.unregister, unregistering]
  obtain ⟨later, leads, withdrawn⟩ := @withdraws_unregisteringStreams _ _
    ((link.removePending call.requestId).setCall n { call with feeder := .unregisteringStreams }) n
    { call with feeder := .unregisteringStreams } (by simp) rfl (by simp) running
  exact ⟨later, leads_withdrawing (.unregister n) rfl stepped leads, withdrawn⟩

theorem withdraws_readingOutbound (found : link.calls n = some call)
    (reading : call.caller = .readingOutbound) (cleared : link.outbound = .cleared) :
    ∃ later, (machine Reply Command).Leads (Event.Withdraws n) link later ∧
      later.Withdrawn n call := by
  have stepped : link.step (.readOutbound n) = some (link.setCall n
      { call with caller := .feeding, feeder := .unregisteringPending }) := by
    simp [AgentLink.step, found, AgentLink.readOutbound, reading, cleared]
  obtain ⟨later, leads, out, out', failed⟩ := @withdraws_unregisteringPending _ _
    (link.setCall n { call with caller := .feeding, feeder := .unregisteringPending }) n
    { call with caller := .feeding, feeder := .unregisteringPending } (by simp) rfl ⟨by rintro ⟨⟩, by rintro ⟨⟩⟩
  exact ⟨later, leads_withdrawing (.readOutbound n) rfl stepped leads, out, out',
    fun _ => failed (.inr (.inr rfl))⟩

theorem withdraws_registering (found : link.calls n = some call)
    (registering : call.caller = .registering) (cleared : link.outbound = .cleared) :
    ∃ later, (machine Reply Command).Leads (Event.Withdraws n) link later ∧
      later.Withdrawn n call := by
  cases stepped : link.step (.register n) with
  | none =>
      simp only [AgentLink.step, found, AgentLink.register, registering, Option.bind_some]
        at stepped
      split at stepped <;> cases stepped
  | some middle =>
      have waiting : middle.calls n = some { call with caller := .readingOutbound } ∧
          middle.outbound = .cleared := by
        simp only [AgentLink.step, found, AgentLink.register, registering, Option.bind_some]
          at stepped
        split at stepped <;> cases stepped <;> simp [cleared]
      obtain ⟨later, leads, out, out', failed⟩ :=
        withdraws_readingOutbound waiting.1 rfl waiting.2
      exact ⟨later, leads_withdrawing (.register n) rfl stepped leads, out, out',
        fun _ => failed (.inr (.inl rfl))⟩

/-- Nothing keeps waiting on a link whose `fail_all_pending` is through. -/
structure Released (history : History Reply Command) (link : AgentLink Reply Command) : Prop where
  /-- An id is left only where a call is about to take it out. -/
  left : ∀ requestId n, link.pending requestId = some n ∨ link.streams requestId = some n →
    ∃ call, link.calls n = some call ∧ call.requestId = requestId ∧ call.Leaving
  /-- Such a call does so by its own steps, and fails if it was still running. -/
  withdraws : ∀ n call, link.calls n = some call → call.caller = .registering ∨ call.Leaving →
    ∃ later, (machine Reply Command).Leads (Event.Withdraws n) link later ∧ later.Withdrawn n call
  /-- Every other call has its channel closed, once `resolve` has let go of it. -/
  closed : ∀ n call, link.calls n = some call → ¬ call.Leaving → link.reader.holds n = false →
    link.hasSender n call = false
  /-- A call begun afterwards has failed with `AgentUnavailable` or is about to. -/
  refused : ∀ earlier kind, (earlier, .begin kind) ∈ history → earlier.outbound = .cleared →
    ∃ call, link.calls earlier.started = some call ∧ call.Refused

theorem clearing_of_run (run : (machine Reply Command).Run InTime history link) :
    Registered link ∧ Clearing link := by
  refine run.invariant (fun _ link => Registered link ∧ Clearing link) ?_ ?_
  · intro link isInitial
    rw [eq_new isInitial]
    exact ⟨registered_new, clearing_new⟩
  · intro history link event next holds stepped inTime
    exact ⟨holds.1.moves (AgentLink.step_effect stepped), holds.2.moves holds.1 stepped inTime⟩

/-- Calls that begin on a link without an outbound channel are refused all along. -/
theorem refused_of_run (run : (machine Reply Command).Run InTime history link)
    (earlier : AgentLink Reply Command) (kind : Kind) (began : (earlier, .begin kind) ∈ history)
    (cleared : earlier.outbound = .cleared) :
    link.outbound = .cleared ∧
      ∃ call, link.calls earlier.started = some call ∧ call.Refused := by
  induction run with
  | initial isInitial => cases began
  | @step history link next event before stepped inTime ih =>
      rcases List.mem_cons.1 began with now | old
      · cases now
        have stepped : earlier.step (.begin kind) = some next := stepped
        refine ⟨cleared_stays stepped cleared, ?_⟩
        cases stepped
        exact ⟨⟨kind, earlier.nextRequestId, .registering, .idle, [], []⟩, by simp [AgentLink.begin],
          .inl rfl⟩
      · obtain ⟨still, call, found, refused⟩ := ih old
        exact ⟨cleared_stays stepped still,
          refused.moves (clearing_of_run before).1 still found stepped⟩

/-- The end of a session releases every caller. -/
theorem callers_released (run : (machine Reply Command).Run InTime history link)
    (completed : link.outbound = .cleared) : Released history link := by
  obtain ⟨registered, clearing⟩ := clearing_of_run run
  have streamsCleared := clearing.cleared completed
  have pendingCleared := clearing.order streamsCleared
  refine ⟨?_, ?_, ?_, ?_⟩
  · rintro requestId n (inPending | inStreams)
    · obtain ⟨call, found, rfl, _⟩ := registered.pending requestId n inPending
      exact ⟨call, found, rfl, clearing.pending pendingCleared n call found inPending⟩
    · obtain ⟨call, found, rfl, _⟩ := registered.streams requestId n inStreams
      exact ⟨call, found, rfl, clearing.streams streamsCleared n call found inStreams⟩
  · rintro n call found (registering | leaving)
    · exact withdraws_registering found registering completed
    by_cases registering : call.caller = .registering
    · exact withdraws_registering found registering completed
    by_cases reading : call.caller = .readingOutbound
    · exact withdraws_readingOutbound found reading completed
    rcases leaving with absurdly | unregistering | unregistering
    · exact absurd absurdly reading
    · exact withdraws_unregisteringPending found unregistering ⟨registering, reading⟩
    · exact withdraws_unregisteringStreams found unregistering
        (clearing.removed n call found unregistering) ⟨registering, reading⟩
  · intro n call found staying free
    simp only [AgentLink.hasSender, decide_eq_false_iff_not, not_or]
    exact ⟨fun inPending => staying (clearing.pending pendingCleared n call found inPending),
      fun inStreams => staying (clearing.streams streamsCleared n call found inStreams), by simp [free]⟩
  · intro earlier kind began cleared
    exact (refused_of_run run earlier kind began cleared).2

/-- `call_bidi_streamed` registers between the second and the third lock of `fail_all_pending`. -/
def lateRegistration : List (Event Nat Nat) :=
  [.setOutbound, .hangUp, .read, .clearPending, .clearStreams, .begin .bidiStreamed, .register 0,
    .readOutbound 0, .clearOutbound]

/-- The session is over, and the caller listens to a channel that nothing closes any more. -/
theorem caller_never_released : ∃ link : AgentLink Nat Nat, (machine Nat Nat).Reachable link ∧
    link.outbound = .cleared ∧ link.streams 1 = some 0 ∧
      (link.calls 0).map (·.caller.hears) = some true ∧
        ∀ event, (event = .receive 0 ∨ event = .read) → link.step event = none := by
  obtain ⟨link, reachable, held⟩ := Machine.exists_of_play (machine Nat Nat)
    (fun _ _ => True) (fun _ _ => true)
    (fun link => link.outbound = .cleared ∧ link.streams 1 = some 0 ∧
      (link.calls 0).map (·.caller.hears) = some true ∧ (link.step (.receive 0)).isNone = true ∧
        (link.step .read).isNone = true)
    (fun _ _ _ => trivial) rfl lateRegistration (by decide +kernel)
  obtain ⟨cleared, registered, hears, deaf, isOver⟩ := of_decide_eq_true held
  refine ⟨link, reachable, cleared, registered, hears, ?_⟩
  rintro event (rfl | rfl)
  · exact Option.isNone_iff_eq_none.1 deaf
  · exact Option.isNone_iff_eq_none.1 isOver

/-- Three calls meet the end of a session: one is cut off, one gives up, one comes too late. -/
def earlyRegistration : List (Event Nat Nat) :=
  [.setOutbound, .begin .bidiStreamed, .register 0, .readOutbound 0, .hangUp, .read, .begin .streamed,
    .clearPending, .register 1, .clearStreams, .clearOutbound, .readOutbound 1,
    .begin .streamingReply, .register 2]

theorem callers_released_early : ∃ (history : History Nat Nat) (link : AgentLink Nat Nat),
    (machine Nat Nat).Run InTime history link ∧ link.outbound = .cleared ∧ link.started = 3 ∧
      Released history link := by
  obtain ⟨link, ⟨history, run⟩, held⟩ := Machine.exists_of_play (machine Nat Nat)
    InTime (fun link event => InTime link event)
    (fun link => link.outbound = .cleared ∧ link.started = 3)
    (fun _ _ => of_decide_eq_true) rfl earlyRegistration (by decide +kernel)
  obtain ⟨cleared, started⟩ := of_decide_eq_true held
  exact ⟨history, link, run, cleared, started, callers_released run cleared⟩

end Berth.Link
