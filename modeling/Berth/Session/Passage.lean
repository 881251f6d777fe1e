import Berth.Session.Handlers

/-!
How far the dispatch loop gets on its own. It puts every chunk into its transfer's channel before
it reads on, so what it can dispatch without the help of any handler is a matter of the free slots
of the channels before it.
-/

namespace Berth.Dispatch

open Interleave

variable {Command Answer : Type} {session next start : Session Command Answer}
variable {event : Event Answer} {n m requestId id : Nat} {handler : Handler} {chunk : Chunk}
variable {family other : Family} {message : Message Command}
variable {ahead rest behind tail : List (Message Command)}

/-- The steps of the loop in `run_session`. -/
def Event.IsLoop : Event Answer → Prop
  | .read | .route | .hand => True
  | _ => False

/-- Where the chunks of a request go: nowhere, to a receiver that is gone, or into a channel. -/
inductive Slot where
  | absent
  | deaf
  | free (slots : Nat)
  deriving DecidableEq

/-- One more chunk, if there is a place for it. -/
def Slot.take : Slot → Option Slot
  | absent => some absent
  | deaf => some deaf
  | free 0 => none
  | free (slots + 1) => some (free slots)

/-- The first message of an upload makes its channel. -/
def Slot.registered : Slot → Slot
  | absent => free channelCapacity
  | deaf => deaf
  | free slots => free slots

def Slot.pass (family : Family) (requestId : Nat) (slot : Slot) (message : Message Command) :
    Option Slot :=
  if message.requestId = requestId then
    match family, message.payload with
    | .uploads, some (.uploadZipAndExtract req) =>
        if req.chunk.isSome then slot.registered.take else some slot.registered
    | .relays, some (.relayHttpRequest (some (.head _))) => some (.free channelCapacity)
    | .relays, some (.relayHttpRequest (some (.bodyChunk _))) => slot.take
    | _, _ => some slot
  else some slot

/-- The loop is about to send one chunk to the channel. -/
def Loop.sends (n : Nat) : Loop Command → Bool
  | handing m _ => m = n
  | starting m chunk => m = n ∧ chunk.isSome
  | reading | routing _ _ | returned => false

namespace Session

variable (session : Session Command Answer)

def slot (family : Family) (requestId : Nat) : Slot :=
  match session.inFlight family requestId with
  | none => .absent
  | some n =>
      match session.handlers n with
      | none => .absent
      | some handler =>
          if handler.hears then
            .free (channelCapacity - (handler.queue.length + (session.loop.sends n).toNat))
          else .deaf

end Session

/-- Every chunk that the loop comes past, from the one in its hands on, finds a free slot. -/
structure Fits (session : Session Command Answer) (messages : List (Message Command)) : Prop where
  held : ∀ n chunk handler, session.loop = .handing n chunk → session.handlers n = some handler →
    handler.hears = true → handler.queue.length < channelCapacity
  queued : ∀ family requestId, ((session.inHand ++ messages).foldlM (Slot.pass family requestId)
    (session.slot family requestId)).isSome

theorem Slot.pass_other {slot : Slot} (different : message.requestId ≠ requestId) :
    slot.pass family requestId message = some slot := by
  simp [Slot.pass, different]

theorem Slot.pass_upload {slot : Slot} {req : UploadZipAndExtractRequest}
    (foreign : ¬ (family = .uploads ∧ id = requestId)) :
    slot.pass family id (⟨requestId, some (.uploadZipAndExtract req)⟩ : Message Command) =
      some slot := by
  cases family with
  | uploads => exact Slot.pass_other fun same => foreign ⟨rfl, same.symm⟩
  | relays =>
      simp only [Slot.pass]
      split <;> rfl

theorem Slot.pass_relay {slot : Slot} {part : Option RelayHttpRequest}
    (foreign : ¬ (family = .relays ∧ id = requestId)) :
    slot.pass family id (⟨requestId, some (.relayHttpRequest part)⟩ : Message Command) =
      some slot := by
  cases family with
  | relays => exact Slot.pass_other fun same => foreign ⟨rfl, same.symm⟩
  | uploads =>
      simp only [Slot.pass]
      split <;> rfl

theorem Slot.pass_command {slot : Slot} {command : Command} :
    slot.pass family id (⟨requestId, some (.other command)⟩ : Message Command) = some slot := by
  simp only [Slot.pass]
  split
  · cases family <;> rfl
  · rfl

theorem fits_nil (reading : session.loop = .reading) : Fits session [] := by
  constructor
  · simp [reading]
  · simp [Session.inHand, reading]

/-- Only its own request's slot depends on a handler. -/
theorem Orderly.slot_congr (orderly : Orderly session)
    (inFlight : next.inFlight family requestId = session.inFlight family requestId)
    (handlers : ∀ n handler, session.inFlight family requestId = some n →
      session.handlers n = some handler → next.handlers n = some handler)
    (sends : ∀ n, session.inFlight family requestId = some n →
      next.loop.sends n = session.loop.sends n) :
    next.slot family requestId = session.slot family requestId := by
  simp only [Session.slot, inFlight]
  cases entry : session.inFlight family requestId with
  | none => rfl
  | some n =>
      obtain ⟨handler, found, _⟩ := orderly.entries family requestId n entry
      simp only [found, handlers n handler entry found, sends n entry]

/-- A request has one entry, and its number in the two maps tells it from all others. -/
theorem Orderly.entry_unique (orderly : Orderly session)
    (entry : session.inFlight family requestId = some n)
    (entry' : session.inFlight other id = some n) : family = other ∧ requestId = id := by
  obtain ⟨handler, found, ofFamily, ofRequest, _⟩ := orderly.entries family requestId n entry
  obtain ⟨handler', found', ofFamily', ofRequest', _⟩ := orderly.entries other id n entry'
  rw [found] at found'
  cases found'
  exact ⟨ofFamily.symm.trans ofFamily', ofRequest.symm.trans ofRequest'⟩

/-- Reading a message takes it from the queue into the loop's hands. -/
theorem fits_read {payload : Payload Command} {later : List (Message Command)}
    (reading : session.loop = .reading) :
    Fits session (⟨requestId, some payload⟩ :: rest) ↔
      Fits { session with inbound := later, loop := .routing requestId payload } rest := by
  have slots : ∀ family id,
      { session with inbound := later, loop := .routing requestId payload }.slot family id =
        session.slot family id := by
    intro family id
    simp [Session.slot, reading, Loop.sends]
  constructor
  · rintro ⟨_, queued⟩
    refine ⟨by rintro _ _ _ ⟨⟩, fun family id => ?_⟩
    rw [slots]
    simpa [Session.inHand, reading] using queued family id
  · rintro ⟨_, queued⟩
    refine ⟨by simp [reading], fun family id => ?_⟩
    rw [← slots]
    simpa [Session.inHand, reading] using queued family id

theorem fits_skip {later : List (Message Command)} (reading : session.loop = .reading) :
    Fits session (⟨requestId, none⟩ :: rest) ↔ Fits { session with inbound := later } rest := by
  have passes : ∀ family id (slot : Slot),
      slot.pass family id (⟨requestId, none⟩ : Message Command) = some slot := by
    intro family id slot
    simp only [Slot.pass]
    split
    · cases family <;> rfl
    · rfl
  have slots : ∀ family id, { session with inbound := later }.slot family id =
      session.slot family id := fun _ _ => rfl
  constructor
  · rintro ⟨_, queued⟩
    refine ⟨by simp [reading], fun family id => ?_⟩
    rw [slots]
    simpa [Session.inHand, reading, passes] using queued family id
  · rintro ⟨_, queued⟩
    refine ⟨by simp [reading], fun family id => ?_⟩
    rw [← slots]
    simpa [Session.inHand, reading, passes] using queued family id

/-- Routing a message that every slot can take leaves the rest as it was. -/
theorem fits_of_pass {payload : Payload Command}
    (routing : session.loop = .routing requestId payload) (routed : next.inHand = [])
    (slots : ∀ family id, (session.slot family id).pass family id ⟨requestId, some payload⟩ =
      some (next.slot family id))
    (held : ∀ n chunk handler, next.loop = .handing n chunk → next.handlers n = some handler →
      handler.hears = true → handler.queue.length < channelCapacity) :
    Fits session rest ↔ Fits next rest := by
  constructor
  · rintro ⟨_, queued⟩
    refine ⟨held, fun family id => ?_⟩
    have before := queued family id
    rw [routed]
    simpa [Session.inHand, routing, slots] using before
  · rintro ⟨_, queued⟩
    refine ⟨by simp [routing], fun family id => ?_⟩
    have after := queued family id
    simp only [Session.inHand, routing, List.singleton_append, List.foldlM_cons, slots]
    simpa [routed] using after

/-- A full channel stops the loop with the chunk in its hands. -/
theorem not_fits_of_full (family : Family) (id : Nat) {payload : Payload Command}
    (routing : session.loop = .routing requestId payload)
    (full : (session.slot family id).pass family id ⟨requestId, some payload⟩ = none) :
    ¬ Fits session rest := by
  rintro ⟨_, queued⟩
  have before := queued family id
  simp [Session.inHand, routing, full] at before

/-- A chunk for a registered transfer. -/
theorem fits_handing {payload : Payload Command} (orderly : Orderly session)
    (routing : session.loop = .routing requestId payload)
    (entry : session.inFlight family requestId = some m)
    (own : (session.slot family requestId).pass family requestId ⟨requestId, some payload⟩ =
      (session.slot family requestId).take)
    (foreign : ∀ other id, ¬ (other = family ∧ id = requestId) →
      (session.slot other id).pass other id ⟨requestId, some payload⟩ =
        some (session.slot other id)) :
    Fits session rest ↔ Fits { session with loop := .handing m chunk } rest := by
  obtain ⟨handler, found, _⟩ := orderly.entries family requestId m entry
  have others : ∀ other id, ¬ (other = family ∧ id = requestId) →
      { session with loop := .handing m chunk }.slot other id = session.slot other id := by
    intro other id different
    refine orderly.slot_congr rfl (fun _ _ _ found => found) fun n entry' => ?_
    have distinct : m ≠ n := by
      rintro rfl
      obtain ⟨rfl, rfl⟩ := orderly.entry_unique entry entry'
      exact different ⟨rfl, rfl⟩
    simp [Loop.sends, routing, distinct]
  have slot : session.slot family requestId =
      if handler.hears then .free (channelCapacity - handler.queue.length) else .deaf := by
    simp [Session.slot, entry, found, routing, Loop.sends]
  have slot' : { session with loop := .handing m chunk }.slot family requestId =
      if handler.hears then .free (channelCapacity - (handler.queue.length + 1)) else .deaf := by
    simp [Session.slot, entry, found, Loop.sends]
  by_cases full : handler.hears = true ∧ channelCapacity ≤ handler.queue.length
  · obtain ⟨hears, full⟩ := full
    have noSlots : channelCapacity - handler.queue.length = 0 := by omega
    constructor
    · intro fits
      refine absurd fits (not_fits_of_full family requestId routing ?_)
      rw [own, slot, if_pos hears, noSlots]
      rfl
    · intro fits
      have room := fits.held m chunk handler rfl found hears
      omega
  · refine fits_of_pass routing rfl (fun other id => ?_) ?_
    · by_cases same : other = family ∧ id = requestId
      · obtain ⟨rfl, rfl⟩ := same
        rw [own, slot, slot']
        cases hears : handler.hears with
        | false => rfl
        | true =>
            have room : channelCapacity - handler.queue.length =
                channelCapacity - (handler.queue.length + 1) + 1 := by
              simp only [hears, true_and] at full
              omega
            simp only [if_true, room, Slot.take]
      · rw [foreign other id same, others other id same]
    · intro n chunk' handler' handing found' hears
      cases handing
      rw [found] at found'
      cases found'
      simp only [hears, true_and] at full
      omega

/-- A new channel has all its slots; nobody else's change. -/
theorem slot_openChannel (orderly : Orderly session) {task : Task} {phase : Phase}
    {loop : Loop Command} (idle : ∀ n, session.loop.sends n = false)
    (sends : ∀ n, n ≠ session.started → loop.sends n = false) :
    { session.openChannel requestId task phase with loop }.slot family id =
      if family = task.family ∧ id = requestId then
        .free (channelCapacity - (loop.sends session.started).toNat)
      else session.slot family id := by
  split
  · rename_i same
    simp only [Session.slot, openChannel_inFlight, if_pos same, openChannel_handlers, if_true]
    simp [Handler.hears]
  · rename_i different
    refine orderly.slot_congr ?_ (fun n handler entry found => ?_) fun n entry => ?_
    · simp only [openChannel_inFlight, if_neg different]
    · have older : n ≠ session.started := Nat.ne_of_lt (orderly.known n handler found)
      simp only [openChannel_handlers, if_neg older, found]
    · obtain ⟨handler, found, _⟩ := orderly.entries family id n entry
      rw [sends n (Nat.ne_of_lt (orderly.known n handler found)), idle n]

theorem fits_opening {req : UploadZipAndExtractRequest} {task : Task} (orderly : Orderly session)
    (routing : session.loop = .routing requestId (.uploadZipAndExtract req))
    (isUpload : task.family = .uploads) (free : session.inFlight .uploads requestId = none) :
    Fits session rest ↔ Fits { session.openChannel requestId task .starting with
      loop := .starting session.started req.chunk } rest := by
  refine fits_of_pass routing rfl (fun family id => ?_) (by rintro _ _ _ ⟨⟩)
  have sends : ∀ n, n ≠ session.started →
      (Loop.starting session.started req.chunk : Loop Command).sends n = false := by
    intro n different
    simp [Loop.sends, Ne.symm different]
  rw [slot_openChannel orderly (by simp [routing, Loop.sends]) sends, isUpload]
  by_cases same : family = .uploads ∧ id = requestId
  · obtain ⟨rfl, rfl⟩ := same
    have absent : session.slot .uploads id = .absent := by simp [Session.slot, free]
    cases chunk : req.chunk <;>
      simp [Slot.pass, absent, chunk, Slot.registered, Slot.take, Loop.sends, channelCapacity]
  · rw [if_neg same, Slot.pass_upload same]

theorem fits_head {head : RelayHttpRequestHead} (orderly : Orderly session)
    (routing : session.loop = .routing requestId (.relayHttpRequest (some (.head head)))) :
    Fits session rest ↔ Fits { session.openChannel requestId (.relay head) .relaying with
      loop := .reading } rest := by
  refine fits_of_pass routing rfl (fun family id => ?_) (by rintro _ _ _ ⟨⟩)
  rw [slot_openChannel orderly (by simp [routing, Loop.sends]) (by simp [Loop.sends])]
  by_cases same : family = .relays ∧ id = requestId
  · obtain ⟨rfl, rfl⟩ := same
    simp [Slot.pass, Loop.sends, Task.family]
  · rw [Task.family, if_neg same, Slot.pass_relay same]

/-- Sending the chunk in the loop's hands takes the slot that was set aside for it. -/
theorem fits_settles (after : Handler) (found : session.handlers m = some handler)
    (handlers : ∀ n, next.handlers n = if n = m then some after else session.handlers n)
    (hears : after.hears = handler.hears) (inFlight : next.inFlight = session.inFlight)
    (balance : handler.hears = true → after.queue.length + (next.loop.sends m).toNat =
      handler.queue.length + (session.loop.sends m).toNat)
    (idle : ∀ n, n ≠ m → session.loop.sends n = false ∧ next.loop.sends n = false)
    (emptied : session.inHand = [] ∧ next.inHand = [])
    (held : ∀ n chunk handler, session.loop = .handing n chunk →
      session.handlers n = some handler → handler.hears = true →
        handler.queue.length < channelCapacity)
    (done : ∀ n chunk, next.loop ≠ .handing n chunk) : Fits session rest ↔ Fits next rest := by
  have slots : ∀ family id, next.slot family id = session.slot family id := by
    intro family id
    simp only [Session.slot, inFlight]
    cases entry : session.inFlight family id with
    | none => rfl
    | some n =>
        by_cases same : n = m
        · subst same
          simp only [handlers, if_true, found, hears]
          split
          · rename_i isHearing
            rw [balance isHearing]
          · rfl
        · simp only [handlers, if_neg same, (idle n same).1, (idle n same).2]
  constructor
  · rintro ⟨_, queued⟩
    refine ⟨fun n chunk _ absurdly => absurd absurdly (done n chunk), fun family id => ?_⟩
    rw [slots, emptied.2, ← emptied.1]
    exact queued family id
  · rintro ⟨_, queued⟩
    refine ⟨held, fun family id => ?_⟩
    rw [← slots, emptied.1, ← emptied.2]
    exact queued family id

theorem fits_hand (stepped : session.hand = some next) :
    Fits session rest ↔ Fits next rest := by
  simp only [Session.hand] at stepped
  split at stepped
  · rename_i m chunk handing
    obtain ⟨handler, found, stepped⟩ := Option.bind_eq_some_iff.1 stepped
    have others : ∀ n, n ≠ m → session.loop.sends n = false := by
      intro n different
      simp [handing, Loop.sends, Ne.symm different]
    have own : ∀ n chunk' handler', session.loop = .handing n chunk' →
        session.handlers n = some handler' → handler' = handler := by
      intro n chunk' handler' handing' found'
      rw [handing] at handing'
      cases handing'
      rw [found] at found'
      cases found'
      rfl
    split at stepped
    · rename_i deaf
      cases stepped
      refine fits_settles handler found (fun n => ?_) rfl rfl ?_
        (fun n different => ⟨others n different, rfl⟩) (by simp [Session.inHand, handing]) ?_ (by rintro _ _ ⟨⟩)
      · grind
      · intro hears
        simp [hears] at deaf
      · intro n chunk' handler' handing' found' hears
        rw [own n chunk' handler' handing' found'] at hears
        simp [hears] at deaf
    · rename_i hears
      split at stepped
      · rename_i room
        cases stepped
        refine fits_settles _ found (fun _ => Session.setHandler_handlers) rfl rfl ?_
          (fun n different => ⟨others n different, rfl⟩) (by simp [Session.inHand, handing]) ?_ (by rintro _ _ ⟨⟩)
        · intro _
          simp [handing, Loop.sends]
        · intro n chunk' handler' handing' found' _
          rw [own n chunk' handler' handing' found']
          exact room
      · cases stepped
  · rename_i m chunk opening
    obtain ⟨handler, found, stepped⟩ := Option.bind_eq_some_iff.1 stepped
    split at stepped <;> cases stepped
    refine fits_settles _ found (fun _ => Session.setHandler_handlers) rfl rfl ?_ ?_
      (by simp [Session.inHand, opening]) (by simp [opening]) (by rintro _ _ ⟨⟩)
    · intro _
      simp [opening, Loop.sends]
    · intro n different
      simp [opening, Loop.sends, Ne.symm different]
  · rename_i m opening
    obtain ⟨handler, found, stepped⟩ := Option.bind_eq_some_iff.1 stepped
    cases stepped
    refine fits_settles _ found (fun _ => Session.setHandler_handlers) rfl rfl ?_ ?_
      (by simp [Session.inHand, opening]) (by simp [opening]) (by rintro _ _ ⟨⟩)
    · intro _
      simp [opening, Loop.sends]
    · intro n different
      simp [opening, Loop.sends]
  · cases stepped

theorem fits_route (orderly : Orderly session) (stepped : session.route = some next) :
    Fits session rest ↔ Fits next rest := by
  simp only [Session.route] at stepped
  split at stepped
  · rename_i requestId req routing
    cases stepped
    simp only [Session.routeUploadChunk]
    split
    · rename_i m entry
      obtain ⟨handler, found, _⟩ := orderly.entries _ _ _ entry
      have registered : (session.slot .uploads requestId).registered =
          session.slot .uploads requestId := by
        simp only [Session.slot, entry, found]
        split <;> rfl
      split
      · rename_i chunk isChunk
        refine fits_handing orderly routing entry ?_ fun _ _ => Slot.pass_upload
        simp [Slot.pass, isChunk, registered]
      · rename_i noChunk
        refine fits_of_pass routing rfl (fun family id => ?_) (by rintro _ _ _ ⟨⟩)
        have same : { session with loop := .reading }.slot family id = session.slot family id := by
          simp [Session.slot, routing, Loop.sends]
        rw [same]
        by_cases own : family = .uploads ∧ id = requestId
        · obtain ⟨rfl, rfl⟩ := own
          simp [Slot.pass, noChunk, registered]
        · exact Slot.pass_upload own
    · rename_i free
      exact fits_opening orderly routing rfl free
  · rename_i requestId part routing
    cases stepped
    have same : ∀ family id, { session with loop := .reading }.slot family id =
        session.slot family id := by
      intro family id
      simp [Session.slot, routing, Loop.sends]
    simp only [Session.routeRelayMessage]
    split
    · exact fits_head orderly routing
    · split
      · rename_i m entry
        refine fits_handing orderly routing entry ?_ fun _ _ => Slot.pass_relay
        simp [Slot.pass]
      · rename_i free
        refine fits_of_pass routing rfl (fun family id => ?_) (by rintro _ _ _ ⟨⟩)
        rw [same]
        by_cases own : family = .relays ∧ id = requestId
        · obtain ⟨rfl, rfl⟩ := own
          have absent : session.slot .relays id = .absent := by simp [Session.slot, free]
          simp [Slot.pass, absent, Slot.take]
        · exact Slot.pass_relay own
    · refine fits_of_pass routing rfl (fun family id => ?_) (by rintro _ _ _ ⟨⟩)
      rw [same]
      by_cases own : family = .relays ∧ id = requestId
      · obtain ⟨rfl, rfl⟩ := own
        simp [Slot.pass]
      · exact Slot.pass_relay own
  · rename_i requestId command routing
    cases stepped
    refine fits_of_pass routing rfl (fun family id => ?_) (by rintro _ _ _ ⟨⟩)
    have same : { session with
        loop := .reading, spawned := session.spawned ++ [(requestId, command)] }.slot family id =
          session.slot family id := by
      simp [Session.slot, routing, Loop.sends]
    rw [same, Slot.pass_command]
  · cases stepped

/-- The loop is past some of the messages ahead, and `rest` are still to come. -/
structure Along (start session : Session Command Answer)
    (ahead rest behind tail : List (Message Command)) : Prop where
  orderly : Orderly session
  inbound : session.inbound = rest ++ behind
  running : session.loop ≠ .returned
  fits : Fits start (ahead ++ tail) ↔ Fits session (rest ++ tail)

/-- What is left to do: four steps a message, and those the loop is in the middle of. -/
def remaining (session : Session Command Answer) (messages : List (Message Command)) : Nat :=
  4 * messages.length + match session.loop with
    | .routing _ _ => 3
    | .starting _ (some _) => 2
    | .starting _ none | .handing _ _ => 1
    | .reading | .returned => 0

theorem remaining_route (stepped : session.route = some next) :
    remaining next rest < remaining session rest ∧ next.inbound = session.inbound ∧
      next.loop ≠ .returned := by
  simp only [Session.route] at stepped
  split at stepped
  all_goals cases stepped
  all_goals rename_i routing
  · simp only [Session.routeUploadChunk]
    split
    · split <;> simp [remaining, routing]
    · rename_i req _ _
      cases chunk : req.chunk <;> simp [remaining, routing]
  · simp only [Session.routeRelayMessage]
    split
    · simp [remaining, routing]
    · split <;> simp [remaining, routing]
    · simp [remaining, routing]
  · simp [remaining, routing]

theorem remaining_hand (stepped : session.hand = some next) :
    remaining next rest < remaining session rest ∧ next.inbound = session.inbound ∧
      next.loop ≠ .returned := by
  simp only [Session.hand] at stepped
  split at stepped
  · rename_i handing
    obtain ⟨handler, found, stepped⟩ := Option.bind_eq_some_iff.1 stepped
    repeat' split at stepped
    all_goals cases stepped
    all_goals simp [remaining, handing]
  · rename_i opening
    obtain ⟨handler, found, stepped⟩ := Option.bind_eq_some_iff.1 stepped
    split at stepped <;> cases stepped
    simp [remaining, opening]
  · rename_i opening
    obtain ⟨handler, found, stepped⟩ := Option.bind_eq_some_iff.1 stepped
    cases stepped
    simp [remaining, opening]
  · cases stepped

theorem Along.step (along : Along start session ahead rest behind tail) (isLoop : event.IsLoop)
    (stepped : session.step event = some next) (more : rest ≠ [] ∨ session.loop ≠ .reading) :
    ∃ rest', Along start next ahead rest' behind tail ∧
      remaining next rest' < remaining session rest := by
  obtain ⟨orderly, inbound, running, fits⟩ := along
  have orderly' := orderly.moves stepped
  cases event with
  | read =>
      simp only [Session.step, Session.read] at stepped
      split at stepped
      · rename_i reading empty
        rw [empty, eq_comm, List.append_eq_nil_iff] at inbound
        rcases more with more | more
        · exact absurd inbound.1 more
        · exact absurd reading more
      · rename_i requestId later reading isNext
        cases stepped
        cases rest with
        | nil => simp [reading] at more
        | cons message rest =>
            rw [isNext, List.cons_append, List.cons.injEq] at inbound
            obtain ⟨rfl, rfl⟩ := inbound
            refine ⟨rest, ⟨orderly', rfl, running, fits.trans (fits_skip reading)⟩, ?_⟩
            simp [remaining, reading]
      · rename_i requestId payload later reading isNext
        cases stepped
        cases rest with
        | nil => simp [reading] at more
        | cons message rest =>
            rw [isNext, List.cons_append, List.cons.injEq] at inbound
            obtain ⟨rfl, rfl⟩ := inbound
            refine ⟨rest, ⟨orderly', rfl, by rintro ⟨⟩, fits.trans (fits_read reading)⟩, ?_⟩
            simp only [remaining, reading, List.length_cons]
            omega
      · cases stepped
  | route =>
      obtain ⟨less, same, running'⟩ := @remaining_route _ _ session next rest stepped
      exact ⟨rest, ⟨orderly', same ▸ inbound, running', fits.trans (fits_route orderly stepped)⟩, less⟩
  | hand =>
      obtain ⟨less, same, running'⟩ := @remaining_hand _ _ session next rest stepped
      exact ⟨rest, ⟨orderly', same ▸ inbound, running', fits.trans (fits_hand stepped)⟩, less⟩
  | _ => exact isLoop.elim

theorem Along.progress (along : Along start session ahead rest behind tail)
    (fits : Fits start (ahead ++ tail)) (more : rest ≠ [] ∨ session.loop ≠ .reading) :
    ∃ event next, event.IsLoop ∧ session.step event = some next := by
  obtain ⟨orderly, inbound, running, iff⟩ := along
  cases loop : session.loop with
  | reading =>
      cases rest with
      | nil => simp [loop] at more
      | cons message rest =>
          obtain ⟨requestId, payload⟩ := message
          refine ⟨.read, ?_⟩
          cases payload <;> simp [Event.IsLoop, Session.step, Session.read, loop, inbound]
  | routing requestId payload =>
      refine ⟨.route, ?_⟩
      cases payload <;> simp [Event.IsLoop, Session.step, Session.route, loop]
  | handing m chunk =>
      obtain ⟨handler, found, _⟩ := orderly.handing m chunk loop
      refine ⟨.hand, ?_⟩
      cases hears : handler.hears with
      | false => simp [Event.IsLoop, Session.step, Session.hand, loop, found, hears]
      | true =>
          have room := (iff.1 fits).held m chunk handler loop found hears
          simp [Event.IsLoop, Session.step, Session.hand, loop, found, hears, room]
  | starting m chunk =>
      obtain ⟨handler, found, _, _, empty⟩ := orderly.opened m chunk loop
      refine ⟨.hand, ?_⟩
      cases chunk with
      | none => simp [Event.IsLoop, Session.step, Session.hand, loop, found]
      | some chunk =>
          simp [Event.IsLoop, Session.step, Session.hand, loop, found, empty rfl, channelCapacity]
  | returned => exact absurd loop running

/-- If everything fits, the loop gets past all of it. -/
theorem Along.consumes (along : Along start session ahead rest behind tail)
    (fits : Fits start (ahead ++ tail)) :
    ∃ later, (machine Command Answer).Leads Event.IsLoop session later ∧
      Along start later ahead [] behind tail ∧ later.loop = .reading := by
  induction measured : remaining session rest using Nat.strongRecOn generalizing session rest
  rename_i measure ih
  by_cases more : rest ≠ [] ∨ session.loop ≠ .reading
  · obtain ⟨event, next, isLoop, stepped⟩ := along.progress fits more
    obtain ⟨rest', along', less⟩ := along.step isLoop stepped more
    obtain ⟨later, leads, arrived⟩ := ih _ (measured ▸ less) along' rfl
    exact ⟨later, Machine.Leads.head isLoop stepped leads, arrived⟩
  · obtain ⟨empty, reading⟩ := not_or.1 more
    rw [not_not] at empty reading
    subst empty
    exact ⟨session, .refl, along, reading⟩

/-- If not, it stops on the way. -/
theorem Along.stops (along : Along start session ahead rest behind []) (overfull : ¬ Fits start ahead)
    (leads : (machine Command Answer).Leads Event.IsLoop session next) :
    ∃ rest', Along start next ahead rest' behind [] ∧ (rest' ≠ [] ∨ next.loop ≠ .reading) := by
  have unfinished : ∀ (session : Session Command Answer) rest,
      Along start session ahead rest behind [] → rest ≠ [] ∨ session.loop ≠ .reading := by
    intro session rest along
    by_contra finished
    obtain ⟨empty, reading⟩ := not_or.1 finished
    rw [not_not] at empty reading
    subst empty
    have fits := along.fits.2 (fits_nil reading)
    rw [List.append_nil] at fits
    exact overfull fits
  obtain ⟨rest', along'⟩ := leads.keeps
    (fun next => ∃ rest', Along start next ahead rest' behind [])
    (fun session event next ⟨rest, along⟩ isLoop stepped => by
      obtain ⟨rest', along', _⟩ := along.step isLoop stepped (unfinished session rest along)
      exact ⟨rest', along'⟩)
    ⟨rest, along⟩
  exact ⟨rest', along', unfinished next rest' along'⟩

/-- A loop that has returned has nothing left to read. -/
theorem drained_of_reachable (reachable : (machine Command Answer).Reachable session) :
    Orderly session ∧ (session.loop = .returned → session.inbound = [] ∧ session.ended = true) := by
  refine reachable.invariant (fun session =>
    Orderly session ∧ (session.loop = .returned → session.inbound = [] ∧ session.ended = true)) ?_ ?_
  · rintro session ⟨coming, rfl⟩
    exact ⟨orderly_new coming, nofun⟩
  · rintro session event next ⟨orderly, drained⟩ stepped _
    have stepped : session.step event = some next := stepped
    refine ⟨orderly.moves stepped, ?_⟩
    cases event with
    | arrive | transmit =>
        simp only [Session.step] at stepped
        repeat' split at stepped
        all_goals cases stepped
        all_goals simp_all
    | cut kept | closeOutbox =>
        cases stepped
        intro returned
        simp [drained returned]
    | read =>
        simp only [Session.step, Session.read] at stepped
        repeat' split at stepped
        all_goals cases stepped
        all_goals simp_all
    | route =>
        obtain ⟨_, _, running⟩ := @remaining_route _ _ session next [] stepped
        exact fun returned => absurd returned running
    | hand =>
        obtain ⟨_, _, running⟩ := @remaining_hand _ _ session next [] stepped
        exact fun returned => absurd returned running
    | create n _ | receive n | write n _ | extract n _ | removeZip n | stopReading n | dropBody n
    | finish n | remove n =>
        obtain ⟨handler, found, stepped⟩ := Option.bind_eq_some_iff.1 stepped
        simp only [Session.create, Session.receive, Session.write, Session.extract,
          Session.removeZip, Session.stopReading, Session.dropBody, Session.finish,
          Session.remove] at stepped
        repeat' split at stepped
        all_goals cases stepped
        all_goals exact drained
    | reply n | respond n _ =>
        obtain ⟨handler, found, stepped⟩ := Option.bind_eq_some_iff.1 stepped
        simp only [Session.reply, Session.respond, Session.post] at stepped
        repeat' split at stepped
        all_goals cases stepped
        all_goals exact drained
    | answer requestId answer =>
        simp only [Session.step, Session.post] at stepped
        repeat' split at stepped
        all_goals cases stepped
        all_goals exact drained

/-- The message has come to where it belongs. -/
def Reached (session : Session Command Answer) (message : Message Command) : Prop :=
  match message.payload with
  | none | some (.relayHttpRequest none) => True
  | some (.other command) => (message.requestId, command) ∈ session.spawned
  | some (.uploadZipAndExtract req) => ∃ n handler,
      session.inFlight .uploads message.requestId = some n ∧ session.handlers n = some handler ∧
        handler.phase ≠ .starting ∧ ∀ chunk, req.chunk = some chunk → handler.hears = true →
          chunk ∈ handler.queue
  | some (.relayHttpRequest (some (.head head))) => ∃ n handler,
      session.inFlight .relays message.requestId = some n ∧ session.handlers n = some handler ∧
        handler.task = .relay head ∧ handler.phase = .relaying
  | some (.relayHttpRequest (some (.bodyChunk chunk))) => ∀ n handler,
      session.inFlight .relays message.requestId = some n → session.handlers n = some handler →
        handler.hears = true → chunk ∈ handler.queue

theorem leads_loop {state state' state'' : Session Command Answer} (event : Event Answer)
    (isLoop : event.IsLoop) (stepped : state.step event = some state')
    (rest : (machine Command Answer).Leads Event.IsLoop state' state'') :
    (machine Command Answer).Leads Event.IsLoop state state'' :=
  Machine.Leads.head isLoop stepped rest

/-- From the loop's hands, a chunk for which there is room gets into its channel. -/
theorem hands_over (orderly : Orderly session) (handing : session.loop = .handing m chunk)
    (fits : Fits session []) : ∃ later handler, (machine Command Answer).Leads Event.IsLoop session later ∧
      later.inbound = session.inbound ∧ later.loop = .reading ∧
        later.inFlight = session.inFlight ∧ later.handlers m = some handler ∧
          handler.phase ≠ .starting ∧ (handler.hears = true → chunk ∈ handler.queue) := by
  obtain ⟨handler, found, notStarting⟩ := orderly.handing m chunk handing
  cases hears : handler.hears with
  | false =>
      have stepped : session.step .hand = some { session with loop := .reading } := by
        simp [Session.step, Session.hand, handing, found, hears]
      exact ⟨_, handler, leads_loop .hand trivial stepped .refl, rfl, rfl, rfl, found, notStarting,
        by simp [hears]⟩
  | true =>
      have room := fits.held m chunk handler handing found hears
      have stepped : session.step .hand = some ({ session with loop := .reading }.setHandler m
          { handler with queue := handler.queue ++ [chunk] }) := by
        simp [Session.step, Session.hand, handing, found, hears, room]
      exact ⟨_, { handler with queue := handler.queue ++ [chunk] },
        leads_loop .hand trivial stepped .refl, rfl, rfl, rfl, by simp, notStarting, by simp⟩

/-- A new upload's first chunk gets into its channel, and its handler starts. -/
theorem starts {first : Option Chunk} (orderly : Orderly session)
    (opening : session.loop = .starting m first) : ∃ later handler,
      (machine Command Answer).Leads Event.IsLoop session later ∧
        later.inbound = session.inbound ∧ later.loop = .reading ∧
          later.inFlight = session.inFlight ∧ later.handlers m = some handler ∧
            handler.phase ≠ .starting ∧ ∀ chunk, first = some chunk → chunk ∈ handler.queue := by
  obtain ⟨handler, found, _, _, empty⟩ := orderly.opened m first opening
  cases first with
  | none =>
      have stepped : session.step .hand = some ({ session with loop := .reading }.setHandler m
          { handler with phase := .creating }) := by
        simp [Session.step, Session.hand, opening, found]
      exact ⟨_, { handler with phase := .creating }, leads_loop .hand trivial stepped .refl, rfl, rfl,
        rfl, by simp, by rintro ⟨⟩, by rintro _ ⟨⟩⟩
  | some chunk =>
      let filled := { handler with queue := handler.queue ++ [chunk] }
      let middle := { session with loop := .starting m none }.setHandler m filled
      let later := { middle with loop := .reading }.setHandler m { filled with phase := .creating }
      have sent : session.step .hand = some middle := by
        simp [Session.step, Session.hand, opening, found, empty rfl, channelCapacity, middle, filled]
      have spawned : middle.step .hand = some later := by
        simp [Session.step, Session.hand, middle, later]
      refine ⟨later, { filled with phase := .creating }, leads_loop .hand trivial sent
        (leads_loop .hand trivial spawned .refl), rfl, rfl, rfl, by simp [later], by rintro ⟨⟩, ?_⟩
      rintro chunk' ⟨⟩
      simp [filled]

/-- A message at the head of the queue that finds its slot gets to where it belongs. -/
theorem reaches (orderly : Orderly session) (reading : session.loop = .reading)
    (inbound : session.inbound = message :: behind) (fits : Fits session [message]) :
    ∃ later, (machine Command Answer).Leads Event.IsLoop session later ∧
      later.inbound = behind ∧ later.loop = .reading ∧ Reached later message := by
  obtain ⟨requestId, payload⟩ := message
  cases payload with
  | none =>
      have stepped : session.step .read = some { session with inbound := behind } := by
        simp [Session.step, Session.read, reading, inbound]
      exact ⟨_, leads_loop .read trivial stepped .refl, rfl, reading, trivial⟩
  | some payload =>
      let routing := { session with inbound := behind, loop := .routing requestId payload }
      have isRead : session.step .read = some routing := by
        simp [Session.step, Session.read, reading, inbound, routing]
      have orderly' : Orderly routing := orderly.moves isRead
      have fits' : Fits routing [] := (fits_read reading).1 fits
      cases payload with
      | other command =>
          let spawned := { routing with
            loop := .reading, spawned := session.spawned ++ [(requestId, command)] }
          have isRouted : routing.step .route = some spawned := by
            simp [Session.step, Session.route, routing, spawned]
          exact ⟨spawned, leads_loop .read trivial isRead (leads_loop .route trivial isRouted .refl),
            rfl, rfl, by simp [Reached, spawned]⟩
      | uploadZipAndExtract req =>
          have isRouted : routing.step .route = some (routing.routeUploadChunk requestId req) := by
            simp [Session.step, Session.route, routing]
          have orderly'' := orderly'.moves isRouted
          have fits'' := (fits_route orderly' isRouted).1 fits'
          have leads : (machine Command Answer).Leads Event.IsLoop session _ :=
            leads_loop .read trivial isRead (leads_loop .route trivial isRouted .refl)
          cases entry : routing.inFlight .uploads requestId with
          | some m =>
              cases chunk : req.chunk with
              | none =>
                  simp only [Session.routeUploadChunk, entry, chunk] at leads
                  obtain ⟨handler, found, started⟩ := orderly'.registered (by simp [routing]) entry
                  exact ⟨_, leads, rfl, rfl, m, handler, entry, found, started, by simp [chunk]⟩
              | some chunk' =>
                  simp only [Session.routeUploadChunk, entry, chunk] at leads orderly'' fits''
                  obtain ⟨later, handler, rest, inbound', reading', inFlight, found, started, got⟩ :=
                    hands_over orderly'' rfl fits''
                  refine ⟨later, leads.trans rest, inbound', reading', m, handler, ?_, found, started,
                    ?_⟩
                  · rw [inFlight]
                    exact entry
                  · intro other isOther hears
                    rw [chunk] at isOther
                    cases isOther
                    exact got hears
          | none =>
              simp only [Session.routeUploadChunk, entry] at leads orderly''
              obtain ⟨later, handler, rest, inbound', reading', inFlight, found, started, got⟩ :=
                starts orderly'' rfl
              refine ⟨later, leads.trans rest, inbound', reading', _, handler, ?_, found, started,
                fun chunk isChunk _ => got chunk isChunk⟩
              rw [inFlight]
              simp [Task.family]
      | relayHttpRequest part =>
          have isRouted : routing.step .route = some (routing.routeRelayMessage requestId part) := by
            simp [Session.step, Session.route, routing]
          have orderly'' := orderly'.moves isRouted
          have fits'' := (fits_route orderly' isRouted).1 fits'
          have leads : (machine Command Answer).Leads Event.IsLoop session _ :=
            leads_loop .read trivial isRead (leads_loop .route trivial isRouted .refl)
          rcases part with _ | head | chunk
          · exact ⟨_, leads, rfl, rfl, trivial⟩
          · refine ⟨_, leads, rfl, rfl, routing.started,
              ⟨.relay head, requestId, [], .reading, .relaying⟩, ?_, ?_, rfl, rfl⟩
            · simp [Session.routeRelayMessage, Task.family]
            · simp [Session.routeRelayMessage]
          · cases entry : routing.inFlight .relays requestId with
            | none =>
                simp only [Session.routeRelayMessage, entry] at leads
                refine ⟨_, leads, rfl, rfl, fun n handler entry' => ?_⟩
                rw [show routing.inFlight .relays requestId = some n from entry'] at entry
                cases entry
            | some m =>
                simp only [Session.routeRelayMessage, entry] at leads orderly'' fits''
                obtain ⟨later, handler, rest, inbound', reading', inFlight, found, _, got⟩ :=
                  hands_over orderly'' rfl fits''
                refine ⟨later, leads.trans rest, inbound', reading', fun n other entry' found' => ?_⟩
                rw [inFlight, show _ = some m from entry] at entry'
                cases entry'
                rw [found] at found'
                cases found'
                exact got

/-- The loop brings a message to where it belongs, on its own, if and only if the chunks before it
and the message itself find free slots. -/
theorem dispatched_iff (reachable : (machine Command Answer).Reachable session)
    (inbound : session.inbound = ahead ++ message :: behind) :
    (∃ later, (machine Command Answer).Leads Event.IsLoop session later ∧
      later.inbound = behind ∧ later.loop = .reading ∧ Reached later message) ↔
        Fits session (ahead ++ [message]) := by
  obtain ⟨orderly, drained⟩ := drained_of_reachable reachable
  have running : session.loop ≠ .returned := by
    intro returned
    have empty := (drained returned).1
    rw [inbound] at empty
    simp at empty
  have split : session.inbound = (ahead ++ [message]) ++ behind := by simp [inbound]
  have along : Along session session (ahead ++ [message]) (ahead ++ [message]) behind [] :=
    ⟨orderly, split, running, Iff.rfl⟩
  constructor
  · rintro ⟨later, leads, isBehind, reading, _⟩
    by_contra overfull
    obtain ⟨rest, along', unfinished⟩ := along.stops overfull leads
    have empty : rest = [] := by
      have same := along'.inbound
      rw [isBehind] at same
      simpa using same.symm
    rcases unfinished with more | more
    · exact more empty
    · exact more reading
  · intro fits
    have along : Along session session ahead ahead (message :: behind) [message] :=
      ⟨orderly, inbound, running, Iff.rfl⟩
    obtain ⟨middle, leads, along', reading⟩ := along.consumes fits
    obtain ⟨later, rest, arrived⟩ :=
      reaches along'.orderly reading along'.inbound (along'.fits.1 fits)
    exact ⟨later, leads.trans rest, arrived⟩

def relayHead : Message Unit :=
  ⟨1, some (.relayHttpRequest (some (.head ⟨"POST", "/", [], "app", 80⟩)))⟩

def relayChunk : Message Unit := ⟨1, some (.relayHttpRequest (some (.bodyChunk ⟨[0], false⟩)))⟩

/-- A command for something else, such as `StopAndRemoveContainer`. -/
def unrelated : Message Unit := ⟨2, some (.other ())⟩

/-- The container reads nothing: sixteen chunks fill its channel, and the loop holds one more. -/
def unreadBody : List (Event Unit) :=
  List.replicate 19 .arrive ++ [.read, .route] ++
    (List.replicate 16 [.read, .route, .hand]).flatten ++ [.read, .route]

/-- One channel is full, and the command behind it is never dispatched. -/
theorem unread_body_blocks : ∃ session : Session Unit Unit,
    (machine Unit Unit).Reachable session ∧ session.inbound = [unrelated] ∧
      ∀ later, (machine Unit Unit).Leads Event.IsLoop session later →
        later = session ∧ later.spawned = [] := by
  obtain ⟨session, reachable, held⟩ := Machine.exists_of_play (machine Unit Unit)
    (fun _ _ => True) (fun _ _ => true)
    (fun session => session.inbound = [unrelated] ∧ session.spawned = [] ∧
      session.read.isNone = true ∧ session.route.isNone = true ∧ session.hand.isNone = true)
    (fun _ _ _ => trivial)
    ⟨[relayHead] ++ List.replicate 17 relayChunk ++ [unrelated], rfl⟩ unreadBody (by decide +kernel)
  obtain ⟨inbound, spawned, read, route, hand⟩ := of_decide_eq_true held
  refine ⟨session, reachable, inbound, fun later leads => ?_⟩
  have same := leads.stuck fun event isLoop => by
    cases event <;> first
      | exact isLoop.elim
      | exact Option.isNone_iff_eq_none.1 ‹_›
  exact ⟨same, same ▸ spawned⟩

/-- The container is behind by four chunks, and another one is ahead of the command. -/
theorem dispatched_iff_slow : ∃ session : Session Unit Unit,
    (machine Unit Unit).Reachable session ∧ session.inbound = [relayChunk] ++ unrelated :: [] ∧
      ((∃ later, (machine Unit Unit).Leads Event.IsLoop session later ∧ later.inbound = [] ∧
        later.loop = .reading ∧ Reached later unrelated) ↔
          Fits session ([relayChunk] ++ [unrelated])) := by
  obtain ⟨session, reachable, held⟩ := Machine.exists_of_play (machine Unit Unit)
    (fun _ _ => True) (fun _ _ => true)
    (fun session => session.inbound = [relayChunk] ++ unrelated :: [])
    (fun _ _ _ => trivial)
    ⟨[relayHead] ++ List.replicate 5 relayChunk ++ [unrelated], rfl⟩
    (List.replicate 7 .arrive ++ [.read, .route] ++
      (List.replicate 4 [.read, .route, .hand]).flatten) (by decide +kernel)
  have inbound := of_decide_eq_true held
  exact ⟨session, reachable, inbound, dispatched_iff reachable inbound⟩

end Berth.Dispatch
