import Berth.Session.Link

/-!
What a single event can do to the calls of a link and to the two maps they register in.
-/

namespace Berth.Link

open Interleave

variable {Reply Command : Type}

/-- A call moves on without registering, without a message, and without hearing anything it did
not hear before. -/
structure Quiet (call call' : Call Reply Command) : Prop where
  kind : call'.kind = call.kind
  requestId : call'.requestId = call.requestId
  inbox : call'.inbox = call.inbox
  yielded : call'.yielded = call.yielded
  hears : call'.caller.hears = true → call.caller.hears = true
  registering : call'.caller = .registering → call.caller = .registering
  registered : call.caller = .registering → call'.caller ≠ .registering → call'.caller.hears = false
  replied : ∀ payload, call'.caller = .replied payload → call.caller = .replied payload
  ended : call'.caller = .ended → call.caller = .ended

theorem Quiet.refl (call : Call Reply Command) : Quiet call call :=
  ⟨rfl, rfl, rfl, rfl, id, id, fun isOne notOne => absurd isOne notOne, fun _ => id, id⟩

theorem Quiet.feeder {call : Call Reply Command} {feeder : Feeder Command} :
    Quiet call { call with feeder } :=
  ⟨rfl, rfl, rfl, rfl, id, id, fun isOne notOne => absurd isOne notOne, fun _ => id, id⟩

theorem Quiet.moved {call : Call Reply Command} {caller : Caller Reply} {feeder : Feeder Command}
    (begun : call.caller ≠ .registering) (hears : caller.hears = true → call.caller.hears = true)
    (begun' : caller ≠ .registering) (noReply : ∀ payload, caller ≠ .replied payload)
    (notEnded : caller ≠ .ended) : Quiet call { call with caller, feeder } :=
  ⟨rfl, rfl, rfl, rfl, hears, fun same => absurd same begun', fun same => absurd same begun,
    fun payload same => absurd same (noReply payload), fun same => absurd same notEnded⟩

/-- The events that neither bring a call into a map nor move a message. -/
def Event.isQuiet : Event Reply Command → Bool
  | .begin _ | .register _ | .receive _ | .read | .lookUpStream | .handOver | .lookUpPending => false
  | _ => true

/-- What the quiet events have in common. -/
structure Quieter (link next : AgentLink Reply Command) : Prop where
  nextRequestId : next.nextRequestId = link.nextRequestId
  started : next.started = link.started
  reader : next.reader = link.reader
  calls : ∀ m call', next.calls m = some call' → ∃ call, link.calls m = some call ∧ Quiet call call'
  kept : ∀ m call, link.calls m = some call → ∃ call', next.calls m = some call' ∧ Quiet call call'
  pending : ∀ requestId m, next.pending requestId = some m → link.pending requestId = some m
  streams : ∀ requestId m, next.streams requestId = some m → link.streams requestId = some m

theorem Quieter.shrink {link next shrunk : AgentLink Reply Command} (quieter : Quieter link next)
    (calls : shrunk.calls = next.calls) (reader : shrunk.reader = next.reader)
    (nextRequestId : shrunk.nextRequestId = next.nextRequestId)
    (started : shrunk.started = next.started)
    (pending : ∀ requestId m, shrunk.pending requestId = some m → next.pending requestId = some m)
    (streams : ∀ requestId m, shrunk.streams requestId = some m → next.streams requestId = some m) :
    Quieter link shrunk :=
  ⟨nextRequestId.trans quieter.nextRequestId, started.trans quieter.started,
    reader.trans quieter.reader, calls ▸ quieter.calls, calls ▸ quieter.kept,
    fun id m mem => quieter.pending id m (pending id m mem),
    fun id m mem => quieter.streams id m (streams id m mem)⟩

inductive Effect (link : AgentLink Reply Command) :
    Event Reply Command → AgentLink Reply Command → Prop
  | quiet {event : Event Reply Command} {next : AgentLink Reply Command}
      (isQuiet : event.isQuiet = true) (quieter : Quieter link next) : Effect link event next
  | begin (kind : Kind) : Effect link (.begin kind) (link.begin kind)
  | registerStream {n : Nat} {call : Call Reply Command} (found : link.calls n = some call)
      (registering : call.caller = .registering) (isStream : call.kind.isStream = true) :
      Effect link (.register n) { link.setCall n { call with caller := .readingOutbound } with
        streams := Function.update link.streams call.requestId (some n) }
  | registerPending {n : Nat} {call : Call Reply Command} (found : link.calls n = some call)
      (registering : call.caller = .registering) (oneShot : call.kind.isStream = false) :
      Effect link (.register n) { link.setCall n { call with caller := .readingOutbound } with
        pending := Function.update link.pending call.requestId (some n) }
  | reply {n : Nat} {call : Call Reply Command} {payload : Reply} {rest : List Reply}
      (found : link.calls n = some call) (waiting : call.caller = .waiting)
      (inbox : call.inbox = payload :: rest) :
      Effect link (.receive n) (link.setCall n { call with caller := .replied payload, inbox := rest })
  | noReply {n : Nat} {call : Call Reply Command} (found : link.calls n = some call)
      (waiting : call.caller = .waiting) (inbox : call.inbox = [])
      (closed : link.hasSender n call = false) :
      Effect link (.receive n) (link.setCall n { call with caller := .failed .agentUnavailable })
  | yield {n : Nat} {call : Call Reply Command} {payload : Reply} {rest : List Reply}
      (found : link.calls n = some call) (listening : call.caller = .listening)
      (inbox : call.inbox = payload :: rest) :
      Effect link (.receive n)
        (link.setCall n { call with inbox := rest, yielded := call.yielded ++ [payload] })
  | ended {n : Nat} {call : Call Reply Command} (found : link.calls n = some call)
      (listening : call.caller = .listening) (inbox : call.inbox = [])
      (closed : link.hasSender n call = false) :
      Effect link (.receive n) (link.setCall n { call with caller := .ended })
  | finished (reading : link.reader = .reading) (empty : link.inbound = [])
      (hungUp : link.hungUp = true) : Effect link .read { link with reader := .finished }
  | skipped {requestId : Nat} {rest : List (Nat × Option Reply)} (reading : link.reader = .reading)
      (inbound : link.inbound = (requestId, none) :: rest) :
      Effect link .read { link with inbound := rest }
  | read {requestId : Nat} {payload : Reply} {rest : List (Nat × Option Reply)}
      (reading : link.reader = .reading)
      (inbound : link.inbound = (requestId, some payload) :: rest) :
      Effect link .read { link with reader := .routing requestId payload, inbound := rest }
  | matched {requestId m : Nat} {payload : Reply} (routing : link.reader = .routing requestId payload)
      (registered : link.streams requestId = some m) :
      Effect link .lookUpStream { link with reader := .handing m payload }
  | unmatched {requestId : Nat} {payload : Reply}
      (routing : link.reader = .routing requestId payload)
      (absent : link.streams requestId = none) :
      Effect link .lookUpStream { link with reader := .unmatched requestId payload }
  | unheard {m : Nat} {payload : Reply} {call : Call Reply Command}
      (handing : link.reader = .handing m payload) (found : link.calls m = some call)
      (deaf : call.caller.hears = false) : Effect link .handOver { link with reader := .reading }
  | handed {m : Nat} {payload : Reply} {call : Call Reply Command}
      (handing : link.reader = .handing m payload) (found : link.calls m = some call)
      (hears : call.caller.hears = true) (room : call.inbox.length < streamChannelCapacity) :
      Effect link .handOver { link.setCall m { call with inbox := call.inbox ++ [payload] } with
        reader := .reading }
  | unknown {requestId : Nat} {payload : Reply}
      (unmatched : link.reader = .unmatched requestId payload)
      (absent : link.pending requestId = none) :
      Effect link .lookUpPending { link with reader := .reading }
  | answered {requestId m : Nat} {payload : Reply} {call : Call Reply Command}
      (unmatched : link.reader = .unmatched requestId payload)
      (registered : link.pending requestId = some m) (found : link.calls m = some call)
      (hears : call.caller.hears = true) :
      Effect link .lookUpPending
        { (link.removePending requestId).setCall m { call with inbox := [payload] } with
          reader := .reading }
  | forgotten {requestId m : Nat} {payload : Reply} {call : Call Reply Command}
      (unmatched : link.reader = .unmatched requestId payload)
      (registered : link.pending requestId = some m) (found : link.calls m = some call)
      (deaf : call.caller.hears = false) :
      Effect link .lookUpPending { link.removePending requestId with reader := .reading }

namespace AgentLink

variable {link next : AgentLink Reply Command} {event : Event Reply Command}
variable {n : Nat} {call call' : Call Reply Command}

theorem quieter_refl (link : AgentLink Reply Command) : Quieter link link :=
  ⟨rfl, rfl, rfl, fun _ call found => ⟨call, found, .refl call⟩,
    fun _ call found => ⟨call, found, .refl call⟩, fun _ _ => id, fun _ _ => id⟩

theorem quieter_setCall (found : link.calls n = some call) (quiet : Quiet call call') :
    Quieter link (link.setCall n call') := by
  refine ⟨rfl, rfl, rfl, ?_, ?_, fun _ _ => id, fun _ _ => id⟩
  · intro m changed mem
    by_cases same : m = n
    · subst same
      simp only [setCall, Function.update_self, Option.some.injEq] at mem
      exact ⟨call, found, mem ▸ quiet⟩
    · simp only [setCall, Function.update_of_ne same] at mem
      exact ⟨changed, mem, .refl changed⟩
  · intro m before mem
    by_cases same : m = n
    · subst same
      rw [found] at mem
      cases mem
      exact ⟨call', by simp [setCall], quiet⟩
    · exact ⟨before, by simp [setCall, Function.update_of_ne same, mem], .refl before⟩

theorem removed_sub {map : Nat → Option Nat} {requestId other m : Nat}
    (mem : Function.update map requestId none other = some m) : map other = some m := by
  by_cases same : other = requestId
  · simp [same] at mem
  · rwa [Function.update_of_ne same] at mem

theorem readOutbound_quieter (found : link.calls n = some call)
    (stepped : link.readOutbound n call = some next) : Quieter link next := by
  simp only [readOutbound] at stepped
  split at stepped
  · rename_i reading
    have begun : call.caller ≠ .registering := by simp [reading]
    have hears : call.caller.hears = true := by simp [reading, Caller.hears]
    repeat' split at stepped
    all_goals cases stepped
    all_goals exact quieter_setCall found (.moved begun (fun _ => hears) nofun nofun nofun)
  · cases stepped

theorem nextPayload_quieter {payload : Option Command} (found : link.calls n = some call)
    (stepped : link.nextPayload n call payload = some next) : Quieter link next := by
  simp only [nextPayload] at stepped
  split at stepped
  · split at stepped <;> cases stepped
    · exact quieter_setCall found .feeder
    · rename_i feeding
      have begun : call.caller ≠ .registering := by simp [feeding]
      have hears : call.caller.hears = true := by simp [feeding, Caller.hears]
      exact quieter_setCall found (.moved begun (fun _ => hears) nofun nofun nofun)
    · exact quieter_setCall found .feeder
  · cases stepped

theorem handed_quieter (found : link.calls n = some call)
    (stepped : link.handed n call = some next) : Quieter link next := by
  simp only [handed] at stepped
  split at stepped
  · split at stepped
    · cases stepped
      exact quieter_setCall found .feeder
    · split at stepped
      · split at stepped <;> cases stepped
        · rename_i feeding
          have begun : call.caller ≠ .registering := by simp [feeding]
          have hears : call.caller.hears = true := by simp [feeding, Caller.hears]
          refine (quieter_setCall found ?_).shrink rfl rfl rfl rfl (fun _ _ => id) fun _ _ => id
          exact .moved begun (fun _ => hears) nofun nofun nofun
        · refine (quieter_setCall found ?_).shrink rfl rfl rfl rfl (fun _ _ => id) fun _ _ => id
          exact .feeder
      · cases stepped
  · cases stepped

theorem unregister_quieter (found : link.calls n = some call)
    (stepped : link.unregister n call = some next) : Quieter link next := by
  simp only [unregister] at stepped
  split at stepped
  · cases stepped
    refine (quieter_setCall found ?_).shrink rfl rfl rfl rfl (fun _ _ => removed_sub) fun _ _ => id
    exact .feeder
  · split at stepped <;> cases stepped
    · rename_i feeding
      have begun : call.caller ≠ .registering := by simp [feeding]
      refine (quieter_setCall found ?_).shrink rfl rfl rfl rfl (fun _ _ => id) fun _ _ => removed_sub
      exact .moved begun nofun nofun nofun nofun
    · refine (quieter_setCall found ?_).shrink rfl rfl rfl rfl (fun _ _ => id) fun _ _ => removed_sub
      exact .feeder
  · cases stepped

theorem timeOut_quieter (found : link.calls n = some call)
    (stepped : link.timeOut n call = some next) : Quieter link next := by
  simp only [timeOut] at stepped
  split at stepped
  · rename_i waiting _
    cases stepped
    have begun : call.caller ≠ .registering := by simp [waiting]
    exact quieter_setCall found (.moved begun nofun nofun nofun nofun)
  · cases stepped

theorem removeExpired_quieter (found : link.calls n = some call)
    (stepped : link.removeExpired n call = some next) : Quieter link next := by
  simp only [removeExpired] at stepped
  split at stepped
  · rename_i expired
    cases stepped
    have begun : call.caller ≠ .registering := by simp [expired]
    refine (quieter_setCall found ?_).shrink rfl rfl rfl rfl (fun _ _ => removed_sub) fun _ _ => id
    exact .moved begun nofun nofun nofun nofun
  · cases stepped

theorem drop_quieter (found : link.calls n = some call)
    (stepped : link.drop n call = some next) : Quieter link next := by
  have dropped : ∀ feeder, Quiet call { call with caller := .dropped, feeder } := fun _ =>
    ⟨rfl, rfl, rfl, rfl, nofun, nofun, fun _ _ => rfl, nofun, nofun⟩
  simp only [drop] at stepped
  split at stepped <;> cases stepped
  all_goals exact quieter_setCall found (dropped _)

theorem receive_effect (found : link.calls n = some call)
    (stepped : link.receive n call = some next) : Effect link (.receive n) next := by
  simp only [receive] at stepped
  split at stepped
  · rename_i waiting inbox
    cases stepped
    exact .reply found waiting inbox
  · rename_i waiting inbox
    split at stepped
    · cases stepped
    · rename_i closed
      cases stepped
      exact .noReply found waiting inbox (by simpa using closed)
  · rename_i listening inbox
    cases stepped
    exact .yield found listening inbox
  · rename_i listening inbox
    split at stepped
    · cases stepped
    · rename_i closed
      cases stepped
      exact .ended found listening inbox (by simpa using closed)
  · cases stepped

theorem register_effect (found : link.calls n = some call)
    (stepped : link.register n call = some next) : Effect link (.register n) next := by
  simp only [register] at stepped
  split at stepped
  · rename_i registering
    split at stepped
    · rename_i isStream
      cases stepped
      exact .registerStream found registering isStream
    · rename_i oneShot
      cases stepped
      exact .registerPending found registering (by simpa using oneShot)
  · cases stepped

theorem read_effect (stepped : link.read = some next) : Effect link .read next := by
  simp only [read] at stepped
  split at stepped
  · rename_i reading empty
    split at stepped
    · rename_i hungUp
      cases stepped
      exact .finished reading empty hungUp
    · cases stepped
  · rename_i reading inbound
    cases stepped
    exact .skipped reading inbound
  · rename_i reading inbound
    cases stepped
    exact .read reading inbound
  · cases stepped

theorem lookUpStream_effect (stepped : link.lookUpStream = some next) :
    Effect link .lookUpStream next := by
  simp only [lookUpStream] at stepped
  split at stepped
  · rename_i routing
    split at stepped
    · rename_i registered
      cases stepped
      exact .matched routing registered
    · rename_i absent
      cases stepped
      exact .unmatched routing absent
  · cases stepped

theorem handOver_effect (stepped : link.handOver = some next) : Effect link .handOver next := by
  simp only [handOver] at stepped
  split at stepped
  · rename_i handing
    obtain ⟨call, found, stepped⟩ := Option.bind_eq_some_iff.1 stepped
    split at stepped
    · rename_i deaf
      cases stepped
      exact .unheard handing found (by simpa using deaf)
    · rename_i hears
      split at stepped
      · rename_i room
        cases stepped
        exact .handed handing found (by simpa using hears) room
      · cases stepped
  · cases stepped

theorem lookUpPending_effect (stepped : link.lookUpPending = some next) :
    Effect link .lookUpPending next := by
  simp only [lookUpPending] at stepped
  split at stepped
  · rename_i unmatched
    split at stepped
    · rename_i absent
      cases stepped
      exact .unknown unmatched absent
    · rename_i registered
      obtain ⟨call, found, stepped⟩ := Option.bind_eq_some_iff.1 stepped
      split at stepped
      · rename_i hears
        cases stepped
        exact .answered unmatched registered found hears
      · rename_i deaf
        cases stepped
        exact .forgotten unmatched registered found (by simpa using deaf)
  · cases stepped

/-- Everything an event can do. -/
theorem step_effect (stepped : link.step event = some next) : Effect link event next := by
  cases event with
  | begin kind => cases stepped; exact .begin kind
  | register n =>
      obtain ⟨call, found, stepped⟩ := Option.bind_eq_some_iff.1 stepped
      exact register_effect found stepped
  | readOutbound n =>
      obtain ⟨call, found, stepped⟩ := Option.bind_eq_some_iff.1 stepped
      exact .quiet rfl (readOutbound_quieter found stepped)
  | nextPayload n payload =>
      obtain ⟨call, found, stepped⟩ := Option.bind_eq_some_iff.1 stepped
      exact .quiet rfl (nextPayload_quieter found stepped)
  | handed n =>
      obtain ⟨call, found, stepped⟩ := Option.bind_eq_some_iff.1 stepped
      exact .quiet rfl (handed_quieter found stepped)
  | unregister n =>
      obtain ⟨call, found, stepped⟩ := Option.bind_eq_some_iff.1 stepped
      exact .quiet rfl (unregister_quieter found stepped)
  | receive n =>
      obtain ⟨call, found, stepped⟩ := Option.bind_eq_some_iff.1 stepped
      exact receive_effect found stepped
  | timeOut n =>
      obtain ⟨call, found, stepped⟩ := Option.bind_eq_some_iff.1 stepped
      exact .quiet rfl (timeOut_quieter found stepped)
  | removeExpired n =>
      obtain ⟨call, found, stepped⟩ := Option.bind_eq_some_iff.1 stepped
      exact .quiet rfl (removeExpired_quieter found stepped)
  | drop n =>
      obtain ⟨call, found, stepped⟩ := Option.bind_eq_some_iff.1 stepped
      exact .quiet rfl (drop_quieter found stepped)
  | endStream requestId =>
      cases stepped
      exact .quiet rfl ((quieter_refl link).shrink rfl rfl rfl rfl (fun _ _ => id)
        fun _ _ => removed_sub)
  | read => exact read_effect stepped
  | lookUpStream => exact lookUpStream_effect stepped
  | handOver => exact handOver_effect stepped
  | lookUpPending => exact lookUpPending_effect stepped
  | closeWire | hangUp =>
      cases stepped
      exact .quiet rfl ((quieter_refl link).shrink rfl rfl rfl rfl (fun _ _ => id) fun _ _ => id)
  | setOutbound | transmit =>
      simp only [step] at stepped
      split at stepped <;> cases stepped
      exact .quiet rfl ((quieter_refl link).shrink rfl rfl rfl rfl (fun _ _ => id) fun _ _ => id)
  | arrive message =>
      simp only [step] at stepped
      split at stepped <;> cases stepped
      exact .quiet rfl ((quieter_refl link).shrink rfl rfl rfl rfl (fun _ _ => id) fun _ _ => id)
  | clearPending =>
      cases stepped
      exact .quiet rfl ((quieter_refl link).shrink rfl rfl rfl rfl nofun fun _ _ => id)
  | clearStreams =>
      simp only [step] at stepped
      split at stepped <;> cases stepped
      exact .quiet rfl ((quieter_refl link).shrink rfl rfl rfl rfl (fun _ _ => id) nofun)
  | clearOutbound =>
      simp only [step] at stepped
      split at stepped <;> cases stepped
      exact .quiet rfl ((quieter_refl link).shrink rfl rfl rfl rfl (fun _ _ => id) fun _ _ => id)

end AgentLink

end Berth.Link
