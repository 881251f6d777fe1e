import Berth.Session.Handlers

/-!
What is left of a session's transfers when `run_session` returns. Every handler task holds the map
that it has to remove itself from, and with it the sender of its own channel.
-/

namespace Berth.Dispatch

open Interleave

variable {Command Answer : Type} {session next : Session Command Answer}
variable {event : Event Answer} {n : Nat} {handler : Handler}

/-- A handler in flight whose entry stands has a sender left, also when the loop is gone. -/
theorem Orderly.hasSender (orderly : Orderly session) (found : session.handlers n = some handler)
    (entry : session.inFlight handler.task.family handler.requestId = some n) :
    session.hasSender n handler = true := by
  have alive : session.mapAlive handler.task.family = true := by
    cases returned : session.loop.hasReturned with
    | false => simp [Session.mapAlive, returned]
    | true =>
        obtain ⟨other, found', _, _, notDone⟩ := orderly.entries _ _ _ entry
        rw [found] at found'
        cases found'
        have notStarting : handler.phase ≠ .starting := by
          intro isStarting
          obtain ⟨chunk, opening⟩ := orderly.starting n handler found isStarting
          simp [opening, Loop.hasReturned] at returned
        have runs : handler.runs = true := by
          cases phase : handler.phase <;> simp_all [Handler.runs]
        simp only [Session.mapAlive, Bool.or_eq_true, List.any_eq_true, List.mem_range]
        exact .inr ⟨n, orderly.known n handler found, by simp [found, runs]⟩
  simp [Session.hasSender, alive, entry]

theorem noSender (returned : session.loop = .returned)
    (displaced : session.inFlight handler.task.family handler.requestId ≠ some n) :
    session.hasSender n handler = false := by
  simp [Session.hasSender, returned, Loop.holds, displaced]

/-- Once the loop has returned, no upload is in flight, and a relayed request that still is has
lost its entry. -/
def Unattended (session : Session Command Answer) : Prop :=
  ∀ n handler, session.handlers n = some handler → handler.hears = true →
    handler.task.family = .relays ∧ session.inFlight .relays handler.requestId ≠ some n

/-- The upload has made its temporary zip and not removed it. -/
def Phase.keepsZip : Phase → Bool
  | .receiving | .writing _ | .extracting | .cleaning _ => true
  | .starting | .creating | .replying _ | .relaying | .removing | .done => false

/-- Every temporary zip belongs to an upload that is going to remove it. -/
def Zipped (session : Session Command Answer) : Prop :=
  ∀ deploymentId, session.zips deploymentId = true → ∃ n handler size,
    session.handlers n = some handler ∧ handler.task = .upload deploymentId size ∧
      handler.phase.keepsZip = true

theorem Zipped.congr (zipped : Zipped session) (zips : next.zips = session.zips)
    (handlers : next.handlers = session.handlers) : Zipped next := by
  intro deploymentId present
  rw [zips] at present
  rw [handlers]
  exact zipped deploymentId present

theorem Zipped.updates (zipped : Zipped session) (after : Handler) (zips : next.zips = session.zips)
    (handlers : ∀ m, next.handlers m = if m = n then some after else session.handlers m)
    (found : session.handlers n = some handler) (task : after.task = handler.task)
    (keeps : handler.phase.keepsZip = true → after.phase.keepsZip = true) : Zipped next := by
  intro deploymentId present
  rw [zips] at present
  obtain ⟨m, other, size, found', isUpload, keeping⟩ := zipped deploymentId present
  by_cases same : m = n
  · subst same
    rw [found] at found'
    cases found'
    exact ⟨m, after, size, by simp [handlers], task.trans isUpload, keeps keeping⟩
  · exact ⟨m, other, size, by simp [handlers, same, found'], isUpload, keeping⟩

theorem Zipped.openChannel (zipped : Zipped session) (orderly : Orderly session) {requestId : Nat}
    {task : Task} {phase : Phase} : Zipped (session.openChannel requestId task phase) := by
  intro deploymentId present
  obtain ⟨m, other, size, found, isUpload, keeping⟩ := zipped deploymentId present
  have different : m ≠ session.started := Nat.ne_of_lt (orderly.known m other found)
  exact ⟨m, other, size, by simp [different, found], isUpload, keeping⟩

theorem Zipped.moves (zipped : Zipped session) (orderly : Orderly session)
    (stepped : session.step event = some next) : Zipped next := by
  cases event with
  | arrive | transmit | read =>
      simp only [Session.step, Session.read] at stepped
      repeat' split at stepped
      all_goals cases stepped
      all_goals exact zipped.congr rfl rfl
  | cut kept | closeOutbox =>
      cases stepped
      exact zipped.congr rfl rfl
  | answer requestId answer =>
      have posted := posted_of_post stepped
      exact zipped.congr posted.zips posted.handlers
  | route =>
      simp only [Session.step, Session.route, Session.routeUploadChunk, Session.routeRelayMessage]
        at stepped
      repeat' split at stepped
      all_goals cases stepped
      all_goals first
        | exact zipped.congr rfl rfl
        | exact (zipped.openChannel orderly).congr rfl rfl
  | hand =>
      simp only [Session.step, Session.hand] at stepped
      split at stepped
      · obtain ⟨handler, found, stepped⟩ := Option.bind_eq_some_iff.1 stepped
        repeat' split at stepped
        all_goals cases stepped
        · exact zipped.congr rfl rfl
        · exact zipped.updates _ rfl (fun _ => Session.setHandler_handlers) found rfl fun keeps => keeps
      · obtain ⟨handler, found, stepped⟩ := Option.bind_eq_some_iff.1 stepped
        split at stepped <;> cases stepped
        exact zipped.updates _ rfl (fun _ => Session.setHandler_handlers) found rfl fun keeps => keeps
      · rename_i opening
        obtain ⟨handler, found, stepped⟩ := Option.bind_eq_some_iff.1 stepped
        cases stepped
        obtain ⟨_, found', isStarting, _⟩ := orderly.opened _ _ opening
        rw [found] at found'
        cases found'
        exact zipped.updates _ rfl (fun _ => Session.setHandler_handlers) found rfl
          (by simp [isStarting, Phase.keepsZip])
      · cases stepped
  | create n failure =>
      obtain ⟨handler, found, stepped⟩ := Option.bind_eq_some_iff.1 stepped
      simp only [Session.create] at stepped
      split at stepped <;> cases stepped
      · rename_i creating isUpload
        have kept : Zipped (session.setHandler n { handler with phase := .receiving }) :=
          zipped.updates _ rfl (fun _ => Session.setHandler_handlers) found rfl fun _ => rfl
        intro deploymentId present
        simp only [Function.update_apply] at present
        split at present
        · rename_i same
          exact ⟨n, { handler with phase := .receiving }, _, by simp, same ▸ isUpload, rfl⟩
        · exact kept deploymentId present
      · exact zipped.updates _ rfl (fun _ => Session.setHandler_handlers) found rfl fun _ => rfl
  | receive n | write n failure | extract n result | stopReading n | dropBody n | finish n
  | remove n =>
      obtain ⟨handler, found, stepped⟩ := Option.bind_eq_some_iff.1 stepped
      simp only [Session.receive, Session.write, Session.extract, Session.stopReading,
        Session.dropBody, Session.finish, Session.remove] at stepped
      repeat' split at stepped
      all_goals cases stepped
      all_goals
        exact zipped.updates _ rfl (fun _ => Session.setHandler_handlers) found rfl
          (by simp_all [Phase.keepsZip])
  | removeZip n =>
      obtain ⟨handler, found, stepped⟩ := Option.bind_eq_some_iff.1 stepped
      simp only [Session.removeZip] at stepped
      split at stepped <;> cases stepped
      rename_i isUpload
      intro deploymentId present
      simp only [Function.update_apply] at present
      split at present
      · cases present
      · rename_i notSame
        obtain ⟨m, other, size, found', isUpload', keeping⟩ := zipped deploymentId present
        have different : m ≠ n := by
          rintro rfl
          rw [found] at found'
          cases found'
          rw [isUpload] at isUpload'
          cases isUpload'
          exact notSame rfl
        exact ⟨m, other, size, by simp [different, found'], isUpload', keeping⟩
  | reply n =>
      obtain ⟨handler, found, stepped⟩ := Option.bind_eq_some_iff.1 stepped
      simp only [Session.reply] at stepped
      split at stepped
      · rename_i replying
        obtain ⟨posted, post, stepped⟩ := Option.map_eq_some_iff.1 stepped
        subst stepped
        have isPosted := posted_of_post post
        refine zipped.updates { handler with receiver := .dropped, phase := .removing }
          isPosted.zips (fun m => ?_) found rfl ?_
        · rw [Session.setHandler_handlers, isPosted.handlers]
        · simp [replying, Phase.keepsZip]
      · cases stepped
  | respond n answer =>
      obtain ⟨handler, found, stepped⟩ := Option.bind_eq_some_iff.1 stepped
      simp only [Session.respond] at stepped
      split at stepped
      · have posted := posted_of_post stepped
        exact zipped.congr posted.zips posted.handlers
      · cases stepped

theorem returned_stays (orderly : Orderly session) (stepped : session.step event = some next)
    (returned : session.loop = .returned) : next.loop = .returned := by
  cases event with
  | create m _ | receive m | write m _ | extract m _ | removeZip m | reply m | stopReading m
  | dropBody m | respond m _ | finish m => rw [(handled_of_step orderly rfl stepped).loop, returned]
  | arrive | transmit =>
      simp only [Session.step] at stepped
      repeat' split at stepped
      all_goals cases stepped
      all_goals exact returned
  | cut kept | closeOutbox =>
      cases stepped
      exact returned
  | answer requestId answer => rw [(posted_of_post stepped).loop, returned]
  | read | route | hand =>
      simp [Session.step, Session.read, Session.route, Session.hand, returned] at stepped
  | remove n =>
      obtain ⟨handler, found, stepped⟩ := Option.bind_eq_some_iff.1 stepped
      simp only [Session.remove] at stepped
      split at stepped <;> cases stepped
      exact returned

theorem zipped_of_reachable (reachable : (machine Command Answer).Reachable session) :
    Orderly session ∧ Zipped session := by
  refine reachable.invariant (fun session => Orderly session ∧ Zipped session) ?_ ?_
  · rintro session ⟨coming, rfl⟩
    exact ⟨orderly_new coming, nofun⟩
  · intro session event next holds stepped _
    exact ⟨holds.1.moves stepped, holds.2.moves holds.1 stepped⟩

/-- An event that does not move the handler leaves it alone, once the loop has returned. -/
theorem handler_stays (orderly : Orderly session) (returned : session.loop = .returned)
    (found : session.handlers n = some handler) (waiting : handler.phase = .receiving)
    (empty : handler.queue = []) (stepped : session.step event = some next) :
    next.handlers n = some handler := by
  have isUpload : handler.task.family = .uploads := by
    cases family : handler.task.family with
    | uploads => rfl
    | relays =>
        rcases orderly.relaying n handler found family with relaying | finished
        · rw [waiting] at relaying
          cases relaying
        · rw [waiting] at finished
          cases finished
  have sender : session.hasSender n handler = true := by
    refine orderly.hasSender found ?_
    rw [isUpload]
    exact orderly.uploads n handler found isUpload (by simp [waiting])
  have own : ∀ m, event.handledBy = some m → m = n → False := by
    rintro m isOwn rfl
    cases event with
    | create k _ | receive k | write k _ | extract k _ | removeZip k | reply k | stopReading k
    | dropBody k | respond k _ | finish k =>
        cases isOwn
        cases task : handler.task with
        | relay head => simp [task, Task.family] at isUpload
        | upload deploymentId size =>
            simp [Session.step, found, Session.create, Session.receive, Session.write,
              Session.extract, Session.removeZip, Session.reply, Session.stopReading,
              Session.dropBody, Session.respond, Session.finish, waiting, empty, sender, task]
              at stepped
    | arrive | cut | read | route | hand | remove | answer | transmit | closeOutbox => cases isOwn
  cases event with
  | create m _ | receive m | write m _ | extract m _ | removeZip m | reply m | stopReading m
  | dropBody m | respond m _ | finish m =>
      have handled := handled_of_step orderly rfl stepped
      obtain ⟨_, _, _, _, handlers⟩ := handled.handlers
      rw [handlers, if_neg fun same => own m rfl same.symm]
      exact found
  | arrive | transmit =>
      simp only [Session.step] at stepped
      repeat' split at stepped
      all_goals cases stepped
      all_goals exact found
  | cut kept | closeOutbox =>
      cases stepped
      exact found
  | answer requestId answer => rw [(posted_of_post stepped).handlers, found]
  | read | route | hand =>
      simp [Session.step, Session.read, Session.route, Session.hand, returned] at stepped
  | remove m =>
      obtain ⟨other, found', stepped⟩ := Option.bind_eq_some_iff.1 stepped
      simp only [Session.remove] at stepped
      split at stepped <;> cases stepped
      rename_i removing
      have different : n ≠ m := by
        rintro rfl
        rw [found] at found'
        cases found'
        rw [waiting] at removing
        cases removing
      simp [different, found]

/-- An upload that waits for a chunk when the loop has returned does so in every later state. -/
theorem waits_forever {later : Session Command Answer} (orderly : Orderly session)
    (returned : session.loop = .returned) (found : session.handlers n = some handler)
    (waiting : handler.phase = .receiving) (empty : handler.queue = [])
    (leads : (machine Command Answer).Leads (fun _ => True) session later) :
    later.handlers n = some handler := by
  refine (leads.keeps (fun later =>
    Orderly later ∧ later.loop = .returned ∧ later.handlers n = some handler) ?_
    ⟨orderly, returned, found⟩).2.2
  rintro session event next ⟨orderly, returned, found⟩ _ stepped
  exact ⟨orderly.moves stepped, returned_stays orderly stepped returned,
    handler_stays orderly returned found waiting empty stepped⟩

/-- What the handlers can count on after `run_session` has returned. -/
structure TornDown (session : Session Command Answer) : Prop where
  closed : (∀ n handler, session.handlers n = some handler → handler.hears = true →
    session.hasSender n handler = false) ↔ Unattended session
  cleared : Unattended session → ∀ deploymentId, session.zips deploymentId = false
  waits : ∀ n handler, session.handlers n = some handler → handler.phase = .receiving →
    handler.queue = [] → ∀ later, (machine Command Answer).Leads (fun _ => True) session later →
      later.handlers n = some handler

theorem torn_down (reachable : (machine Command Answer).Reachable session)
    (returned : session.loop = .returned) : TornDown session := by
  obtain ⟨orderly, zipped⟩ := zipped_of_reachable reachable
  refine ⟨⟨?_, ?_⟩, ?_, ?_⟩
  · intro closed n handler found hears
    have noSender := closed n handler found hears
    have displaced : session.inFlight handler.task.family handler.requestId ≠ some n := by
      intro entry
      rw [orderly.hasSender found entry] at noSender
      cases noSender
    cases family : handler.task.family with
    | relays => exact ⟨rfl, family ▸ displaced⟩
    | uploads =>
        have hearing := orderly.hearing n handler found family
        have running : handler.phase ≠ .done := by
          intro isDone
          simp [hears, isDone, Phase.finished] at hearing
        exact absurd (family ▸ orderly.uploads n handler found family running) displaced
  · intro unattended n handler found hears
    obtain ⟨family, displaced⟩ := unattended n handler found hears
    exact noSender returned (family ▸ displaced)
  · intro unattended deploymentId
    by_contra present
    obtain ⟨n, handler, size, found, isUpload, keeps⟩ := zipped deploymentId (by simpa using present)
    have family : handler.task.family = .uploads := by simp [isUpload, Task.family]
    have hears : handler.hears = true := by
      rw [orderly.hearing n handler found family]
      cases phase : handler.phase <;> simp_all [Phase.keepsZip, Phase.finished]
    have absurdly := (unattended n handler found hears).1
    rw [family] at absurdly
    cases absurdly
  · intro n handler found waiting empty later leads
    exact waits_forever orderly returned found waiting empty leads

def Handler.awaitsChunk (handler : Handler) : Bool :=
  match handler.phase with
  | .receiving => true
  | _ => false

/-- The hub's session ends after one chunk of an upload that is not the final one. -/
def firstChunkOnly : Message Unit :=
  ⟨7, some (.uploadZipAndExtract ⟨"d", 10, some ⟨[1], false⟩⟩)⟩

def endsEarly : List (Event Unit) :=
  [.arrive, .read, .route, .hand, .hand, .create 0 none, .receive 0, .write 0 none, .cut 0, .read]

/-- The session is over, and the upload waits for its next chunk with its zip in place. -/
theorem upload_never_ends : ∃ session : Session Unit Unit,
    (machine Unit Unit).Reachable session ∧ session.loop = .returned ∧
      session.zips "d" = true ∧ ∃ handler, session.handlers 0 = some handler ∧
        handler.hears = true ∧ session.hasSender 0 handler = true ∧
          ∀ later, (machine Unit Unit).Leads (fun _ => True) session later →
            later.handlers 0 = some handler := by
  obtain ⟨session, reachable, held⟩ := Machine.exists_of_play (machine Unit Unit)
    (fun _ _ => True) (fun _ _ => true)
    (fun session => session.loop.hasReturned = true ∧ session.zips "d" = true ∧
      (session.handlers 0).any (fun handler => handler.hears ∧
        handler.awaitsChunk ∧ handler.queue = [] ∧ session.hasSender 0 handler) = true)
    (fun _ _ _ => trivial) ⟨[firstChunkOnly], rfl⟩ endsEarly (by decide +kernel)
  obtain ⟨hasReturned, zip, held⟩ := of_decide_eq_true held
  cases found : session.handlers 0 with
  | none => simp [found] at held
  | some handler =>
      simp only [found, Option.any_some, decide_eq_true_eq] at held
      obtain ⟨hears, waiting, empty, sender⟩ := held
      have returned : session.loop = .returned := by
        cases loop : session.loop <;> simp_all [Loop.hasReturned]
      refine ⟨session, reachable, returned, zip, handler, found, hears, sender, ?_⟩
      intro later leads
      refine waits_forever (orderly_of_reachable reachable) returned found ?_ empty leads
      cases phase : handler.phase <;> simp_all [Handler.awaitsChunk]

theorem torn_down_early : ∃ session : Session Unit Unit, (machine Unit Unit).Reachable session ∧
    session.loop = .returned ∧ session.started = 1 ∧ TornDown session := by
  obtain ⟨session, reachable, held⟩ := Machine.exists_of_play (machine Unit Unit)
    (fun _ _ => True) (fun _ _ => true)
    (fun session => session.loop.hasReturned = true ∧ session.started = 1)
    (fun _ _ _ => trivial) ⟨[firstChunkOnly], rfl⟩ endsEarly (by decide +kernel)
  obtain ⟨hasReturned, started⟩ := of_decide_eq_true held
  have returned : session.loop = .returned := by
    cases loop : session.loop <;> simp_all [Loop.hasReturned]
  exact ⟨session, reachable, returned, started, torn_down reachable returned⟩

end Berth.Dispatch
