import Berth.Session.Dispatch

/-!
How handlers, channels and maps belong together in every state of a session.
-/

namespace Berth.Dispatch

open Interleave

variable {Command Answer : Type} {session next : Session Command Answer}
variable {event : Event Answer} {n : Nat} {handler : Handler}

/-- The message the loop has read and not routed yet. -/
def Session.inHand (session : Session Command Answer) : List (Message Command) :=
  match session.loop with
  | .routing requestId payload => [⟨requestId, some payload⟩]
  | .reading | .handing _ _ | .starting _ _ | .returned => []

/-- `upload_zip_and_extract` has returned. -/
def Phase.finished : Phase → Bool
  | .removing | .done => true
  | .starting | .creating | .receiving | .writing _ | .extracting | .cleaning _ | .replying _
  | .relaying => false

structure Orderly (session : Session Command Answer) : Prop where
  known : ∀ n handler, session.handlers n = some handler → n < session.started
  entries : ∀ family requestId n, session.inFlight family requestId = some n →
    ∃ handler, session.handlers n = some handler ∧ handler.task.family = family ∧
      handler.requestId = requestId ∧ handler.phase ≠ .done
  uploads : ∀ n handler, session.handlers n = some handler → handler.task.family = .uploads →
    handler.phase ≠ .done → session.inFlight .uploads handler.requestId = some n
  starting : ∀ n handler, session.handlers n = some handler → handler.phase = .starting →
    ∃ chunk, session.loop = .starting n chunk
  opened : ∀ n chunk, session.loop = .starting n chunk → ∃ handler,
    session.handlers n = some handler ∧ handler.phase = .starting ∧
      handler.task.family = .uploads ∧ (chunk.isSome → handler.queue = [])
  handing : ∀ n chunk, session.loop = .handing n chunk → ∃ handler,
    session.handlers n = some handler ∧ handler.phase ≠ .starting
  hearing : ∀ n handler, session.handlers n = some handler → handler.task.family = .uploads →
    handler.hears = !handler.phase.finished
  relaying : ∀ n handler, session.handlers n = some handler → handler.task.family = .relays →
    handler.phase = .relaying ∨ handler.phase.finished

theorem orderly_new (coming : List (Message Command)) :
    Orderly (Session.new coming : Session Command Answer) := by
  constructor <;> simp [Session.new]

theorem Orderly.congr (orderly : Orderly session) (started : next.started = session.started)
    (handlers : next.handlers = session.handlers) (inFlight : next.inFlight = session.inFlight)
    (loop : next.loop = session.loop) : Orderly next := by
  obtain ⟨known, entries, uploads, starting, opened, handing, hearing, relaying⟩ := orderly
  constructor <;> simpa only [started, handlers, inFlight, loop]

/-- What a handler's own step does to it, short of leaving the map. -/
structure Advances (before after : Handler) : Prop where
  task : after.task = before.task
  requestId : after.requestId = before.requestId
  starting : after.phase ≠ .starting
  started : before.phase ≠ .starting
  done : after.phase = .done ↔ before.phase = .done
  hearing : before.task.family = .uploads → before.hears = !before.phase.finished →
    after.hears = !after.phase.finished
  relaying : before.task.family = .relays → before.phase = .relaying ∨ before.phase.finished →
    after.phase = .relaying ∨ after.phase.finished

structure Handled (session : Session Command Answer) (n : Nat) (next : Session Command Answer) :
    Prop where
  handlers : ∃ before after, session.handlers n = some before ∧ Advances before after ∧
    ∀ m, next.handlers m = if m = n then some after else session.handlers m
  coming : next.coming = session.coming
  inbound : next.inbound = session.inbound
  loop : next.loop = session.loop
  started : next.started = session.started
  inFlight : ∀ family requestId, next.inFlight family requestId = session.inFlight family requestId

theorem handled_setHandler {after : Handler} (found : session.handlers n = some handler)
    (advances : Advances handler after) : Handled session n (session.setHandler n after) :=
  ⟨⟨handler, after, found, advances, fun _ => Session.setHandler_handlers⟩, rfl, rfl, rfl, rfl,
    fun _ _ => rfl⟩

theorem Handled.zips (handled : Handled session n next) (zips : String → Bool) :
    Handled session n { next with zips } :=
  ⟨handled.handlers, handled.coming, handled.inbound, handled.loop, handled.started,
    handled.inFlight⟩

/-- Sending to the hub leaves everything else as it is. -/
structure Posted (session next : Session Command Answer) : Prop where
  handlers : next.handlers = session.handlers
  coming : next.coming = session.coming
  inbound : next.inbound = session.inbound
  loop : next.loop = session.loop
  started : next.started = session.started
  inFlight : next.inFlight = session.inFlight
  zips : next.zips = session.zips
  outboxOpen : next.outboxOpen = session.outboxOpen
  delivered : next.delivered = session.delivered

theorem posted_of_post {requestId : Nat} {reply : Reply Answer}
    (post : session.post requestId reply = some next) : Posted session next := by
  simp only [Session.post] at post
  repeat' split at post
  all_goals cases post
  all_goals constructor <;> rfl

theorem Handled.posted {posted : Session Command Answer} (handled : Handled posted n next)
    (post : Posted session posted) : Handled session n next := by
  obtain ⟨handlers, coming, inbound, loop, started, inFlight⟩ := handled
  rw [post.handlers] at handlers
  rw [post.inFlight] at inFlight
  exact ⟨handlers, coming.trans post.coming, inbound.trans post.inbound, loop.trans post.loop,
    started.trans post.started, inFlight⟩

theorem Orderly.handled (orderly : Orderly session) (handled : Handled session n next) :
    Orderly next := by
  obtain ⟨known, entries, uploads, starting, opened, handing, hearing, relaying⟩ := orderly
  obtain ⟨⟨before, after, found, advances, same⟩, _, _, loop, started, inFlight⟩ := handled
  obtain ⟨task, requestId, notStarting, wasStarted, done, nowHearing, nowRelaying⟩ := advances
  constructor <;> grind

/-- A handler's own step, short of leaving the map. -/
def Event.handledBy : Event Answer → Option Nat
  | .create n _ | .receive n | .write n _ | .extract n _ | .removeZip n | .reply n | .stopReading n
  | .dropBody n | .respond n _ | .finish n => some n
  | .arrive | .cut _ | .read | .route | .hand | .remove _ | .answer _ _ | .transmit
  | .closeOutbox => none

theorem Orderly.advances (orderly : Orderly session) (found : session.handlers n = some handler) :
    (handler.task.family = .uploads → handler.hears = !handler.phase.finished) ∧
      (handler.task.family = .relays → handler.phase = .relaying ∨ handler.phase.finished) :=
  ⟨orderly.hearing n handler found, orderly.relaying n handler found⟩

theorem handled_of_step (orderly : Orderly session) (own : event.handledBy = some n)
    (stepped : session.step event = some next) : Handled session n next := by
  cases event with
  | create m failure =>
      cases own
      obtain ⟨handler, found, stepped⟩ := Option.bind_eq_some_iff.1 stepped
      simp only [Session.create] at stepped
      split at stepped <;> cases stepped
      · refine (handled_setHandler found ?_).zips _
        constructor <;> grind [Phase.finished, Handler.hears, Task.family]
      · refine handled_setHandler found ?_
        constructor <;> grind [Phase.finished, Handler.hears, Task.family]
  | receive m | write m failure | extract m result | stopReading m | dropBody m | finish m =>
      cases own
      obtain ⟨handler, found, stepped⟩ := Option.bind_eq_some_iff.1 stepped
      have relaying := orderly.relaying n handler found
      simp only [Session.receive, Session.write, Session.extract, Session.stopReading,
        Session.dropBody, Session.finish] at stepped
      repeat' split at stepped
      all_goals cases stepped
      all_goals refine handled_setHandler found ?_
      all_goals constructor <;> grind [Phase.finished, Handler.hears, Task.family]
  | removeZip m =>
      cases own
      obtain ⟨handler, found, stepped⟩ := Option.bind_eq_some_iff.1 stepped
      simp only [Session.removeZip] at stepped
      split at stepped <;> cases stepped
      refine (handled_setHandler found ?_).zips _
      constructor <;> grind [Phase.finished, Handler.hears, Task.family]
  | reply m =>
      cases own
      obtain ⟨handler, found, stepped⟩ := Option.bind_eq_some_iff.1 stepped
      simp only [Session.reply] at stepped
      split at stepped
      · obtain ⟨posted, post, stepped⟩ := Option.map_eq_some_iff.1 stepped
        subst stepped
        have isPosted := posted_of_post post
        refine Handled.posted (handled_setHandler (isPosted.handlers ▸ found) ?_) isPosted
        constructor <;> grind [Phase.finished, Handler.hears, Task.family]
      · cases stepped
  | respond m answer =>
      cases own
      obtain ⟨handler, found, stepped⟩ := Option.bind_eq_some_iff.1 stepped
      simp only [Session.respond] at stepped
      split at stepped
      · have isPosted := posted_of_post stepped
        refine ⟨⟨handler, handler, found, ?_, fun m => ?_⟩, isPosted.coming, isPosted.inbound,
          isPosted.loop, isPosted.started, fun _ _ => isPosted.inFlight ▸ rfl⟩
        · constructor <;> grind
        · rw [isPosted.handlers]
          grind
      · cases stepped
  | arrive | cut | read | route | hand | remove | answer | transmit | closeOutbox => cases own

section Opening

variable {requestId m id : Nat} {task : Task} {phase : Phase} {family : Family}

@[simp, grind =] theorem openChannel_handlers :
    (session.openChannel requestId task phase).handlers m =
      if m = session.started then some ⟨task, requestId, [], .reading, phase⟩
      else session.handlers m := by
  simp [Session.openChannel]

@[simp, grind =] theorem openChannel_inFlight :
    (session.openChannel requestId task phase).inFlight family id =
      if family = task.family ∧ id = requestId then some session.started
      else session.inFlight family id := by
  simp [Session.openChannel]

@[simp, grind =] theorem openChannel_started :
    (session.openChannel requestId task phase).started = session.started + 1 := rfl

@[simp, grind =] theorem openChannel_inbound :
    (session.openChannel requestId task phase).inbound = session.inbound := rfl

@[simp, grind =] theorem openChannel_coming :
    (session.openChannel requestId task phase).coming = session.coming := rfl

end Opening

/-- A new channel is registered for a new handler; that of an upload has yet to be started. -/
theorem Orderly.openChannel (orderly : Orderly session) {requestId : Nat} {task : Task}
    {phase : Phase} {loop : Loop Command} (idle : ∀ m chunk, session.loop ≠ .starting m chunk)
    (free : task.family = .uploads → session.inFlight .uploads requestId = none)
    (kind : (phase = .starting ∧ task.family = .uploads ∧
        ∃ chunk, loop = .starting session.started chunk) ∨
      (phase = .relaying ∧ task.family = .relays ∧ loop = .reading)) :
    Orderly { session.openChannel requestId task phase with loop } := by
  obtain ⟨known, entries, uploads, starting, opened, handing, hearing, relaying⟩ := orderly
  have running : phase ≠ .done := by
    rcases kind with ⟨rfl, _⟩ | ⟨rfl, _⟩ <;> simp
  have begun : phase.finished = false := by
    rcases kind with ⟨rfl, _⟩ | ⟨rfl, _⟩ <;> rfl
  refine ⟨?_, ?_, ?_, ?_, ?_, ?_, ?_, ?_⟩
  · grind
  · intro family id n entry
    simp only [openChannel_inFlight] at entry
    split at entry
    · rename_i same
      cases entry
      refine ⟨⟨task, requestId, [], .reading, phase⟩, ?_, same.1.symm, same.2.symm, running⟩
      simp only [openChannel_handlers, if_true]
    · obtain ⟨handler, found, belongs⟩ := entries family id n entry
      have different : n ≠ session.started := Nat.ne_of_lt (known n handler found)
      exact ⟨handler, by simp only [openChannel_handlers, if_neg different, found], belongs⟩
  · grind
  · intro n handler found isStarting
    simp only [openChannel_handlers] at found
    split at found
    · rename_i same
      cases found
      rcases kind with ⟨_, _, chunk, opening⟩ | ⟨isRelaying, _⟩
      · exact ⟨chunk, same ▸ opening⟩
      · exact absurd (isRelaying.symm.trans isStarting) nofun
    · obtain ⟨chunk, absurdly⟩ := starting n handler found isStarting
      exact absurd absurdly (idle n chunk)
  · intro n chunk opening
    rcases kind with ⟨isStarting, isUpload, chunk', isOpening⟩ | ⟨_, _, isReading⟩
    · have same : n = session.started := by grind
      refine ⟨⟨task, requestId, [], .reading, phase⟩, ?_, isStarting, isUpload, fun _ => rfl⟩
      simp only [openChannel_handlers, if_pos same]
    · exact absurd (isReading.symm.trans opening) nofun
  · rintro n chunk handing'
    rcases kind with ⟨_, _, chunk', isOpening⟩ | ⟨_, _, isReading⟩
    · exact absurd (isOpening.symm.trans handing') nofun
    · exact absurd (isReading.symm.trans handing') nofun
  · grind [Handler.hears]
  · grind

/-- The loop goes on with something that starts no handler. -/
theorem Orderly.turns (orderly : Orderly session) (started : next.started = session.started)
    (handlers : next.handlers = session.handlers) (inFlight : next.inFlight = session.inFlight)
    (idle : ∀ m chunk, session.loop ≠ .starting m chunk)
    (idle' : ∀ m chunk, next.loop ≠ .starting m chunk)
    (handing : ∀ m chunk, next.loop = .handing m chunk → ∃ handler,
      session.handlers m = some handler ∧ handler.phase ≠ .starting) : Orderly next := by
  obtain ⟨known, entries, uploads, starting, opened, _, hearing, relaying⟩ := orderly
  refine ⟨?_, ?_, ?_, ?_, ?_, ?_, ?_, ?_⟩ <;> simp only [started, handlers, inFlight]
  · exact known
  · exact entries
  · exact uploads
  · intro n handler found isStarting
    obtain ⟨chunk, absurdly⟩ := starting n handler found isStarting
    exact absurd absurdly (idle n chunk)
  · exact fun n chunk absurdly => absurd absurdly (idle' n chunk)
  · exact handing
  · exact hearing
  · exact relaying

theorem Orderly.registered (orderly : Orderly session)
    (idle : ∀ m chunk, session.loop ≠ .starting m chunk) {family : Family} {requestId : Nat}
    (entry : session.inFlight family requestId = some n) :
    ∃ handler, session.handlers n = some handler ∧ handler.phase ≠ .starting := by
  obtain ⟨handler, found, _⟩ := orderly.entries family requestId n entry
  refine ⟨handler, found, fun isStarting => ?_⟩
  obtain ⟨chunk, absurdly⟩ := orderly.starting n handler found isStarting
  exact idle n chunk absurdly

/-- Every event keeps handlers, channels and maps together. -/
theorem Orderly.moves (orderly : Orderly session) (stepped : session.step event = some next) :
    Orderly next := by
  cases event with
  | create m _ | receive m | write m _ | extract m _ | removeZip m | reply m | stopReading m
  | dropBody m | respond m _ | finish m => exact orderly.handled (handled_of_step orderly rfl stepped)
  | arrive | transmit =>
      simp only [Session.step] at stepped
      repeat' split at stepped
      all_goals cases stepped
      all_goals exact orderly.congr rfl rfl rfl rfl
  | cut kept | closeOutbox =>
      cases stepped
      exact orderly.congr rfl rfl rfl rfl
  | answer requestId answer =>
      have posted := posted_of_post stepped
      exact orderly.congr posted.started posted.handlers posted.inFlight posted.loop
  | read =>
      simp only [Session.step, Session.read] at stepped
      split at stepped
      · rename_i reading _
        split at stepped <;> cases stepped
        exact orderly.turns rfl rfl rfl (by simp [reading]) nofun nofun
      · rename_i reading _
        cases stepped
        exact orderly.congr rfl rfl rfl rfl
      · rename_i reading _
        cases stepped
        exact orderly.turns rfl rfl rfl (by simp [reading]) nofun nofun
      · cases stepped
  | route =>
      simp only [Session.step, Session.route] at stepped
      split at stepped
      · rename_i requestId req routing
        cases stepped
        have idle : ∀ m chunk, session.loop ≠ .starting m chunk := by simp [routing]
        simp only [Session.routeUploadChunk]
        split
        · rename_i m entry
          have registered := orderly.registered idle entry
          split <;> exact orderly.turns rfl rfl rfl idle nofun (by simp [registered])
        · rename_i free
          exact orderly.openChannel idle (fun _ => free) (.inl ⟨rfl, rfl, _, rfl⟩)
      · rename_i requestId part routing
        cases stepped
        have idle : ∀ m chunk, session.loop ≠ .starting m chunk := by simp [routing]
        simp only [Session.routeRelayMessage]
        split
        · exact orderly.openChannel idle nofun (.inr ⟨rfl, rfl, rfl⟩)
        · split
          · rename_i m entry
            have registered := orderly.registered idle entry
            exact orderly.turns rfl rfl rfl idle nofun (by simp [registered])
          · exact orderly.turns rfl rfl rfl idle nofun nofun
        · exact orderly.turns rfl rfl rfl idle nofun nofun
      · rename_i routing
        cases stepped
        exact orderly.turns rfl rfl rfl (by simp [routing]) nofun nofun
      · cases stepped
  | hand =>
      obtain ⟨known, entries, uploads, starting, opened, handing, hearing, relaying⟩ := id orderly
      simp only [Session.step, Session.hand] at stepped
      split at stepped
      · obtain ⟨handler, found, stepped⟩ := Option.bind_eq_some_iff.1 stepped
        repeat' split at stepped
        all_goals cases stepped
        all_goals constructor <;> grind [Handler.hears]
      · obtain ⟨handler, found, stepped⟩ := Option.bind_eq_some_iff.1 stepped
        split at stepped <;> cases stepped
        constructor <;> grind [Handler.hears]
      · obtain ⟨handler, found, stepped⟩ := Option.bind_eq_some_iff.1 stepped
        cases stepped
        constructor <;> grind [Handler.hears, Phase.finished]
      · cases stepped
  | remove n =>
      obtain ⟨known, entries, uploads, starting, opened, handing, hearing, relaying⟩ := id orderly
      obtain ⟨handler, found, stepped⟩ := Option.bind_eq_some_iff.1 stepped
      simp only [Session.remove] at stepped
      split at stepped <;> cases stepped
      constructor <;> grind [Phase.finished, Handler.hears]

theorem orderly_of_reachable (reachable : (machine Command Answer).Reachable session) :
    Orderly session := by
  refine reachable.invariant _ ?_ fun _ _ _ orderly stepped _ => orderly.moves stepped
  rintro session ⟨coming, rfl⟩
  exact orderly_new coming

end Berth.Dispatch
