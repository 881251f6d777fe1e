import Berth.Session.RunLogs

/-!
Which tasks of an agent follow a container's logs, and which ids of them are still registered on
the hub.
-/

namespace Berth.RunLogs

open Interleave Link

namespace Session

variable (session : Session)

/-- The requests for logs that are on their way, by id. -/
def asking : List Nat :=
  ((session.coming ++ session.link.wire).filter fun message => message.2.isLogs).map Prod.fst

def served : List Nat := session.handlers.map Handler.requestId

/-- The agent's other requests, by id. -/
def foreign : List Nat :=
  session.others ++
    ((session.coming ++ session.link.wire).filter fun message => !message.2.isLogs).map Prod.fst

/-- The requests of `StreamContainerLogs` in flight. -/
def inFlight : Nat := session.asking.length

def live : Nat := (session.handlers.filter Handler.isLive).length

/-- The ids in `streams`. -/
def registeredIds : Finset Nat :=
  ((Finset.range session.link.started).filter fun n =>
    session.link.streams (requestIdOf n) = some n).image requestIdOf

/-- Neither end of the session is over. -/
def isOpen : Bool := !session.link.streamsCleared && !session.ended

theorem mem_registeredIds {session : Session} (registered : Registered session.link) {id : Nat} :
    id ∈ session.registeredIds ↔ ∃ n, session.link.streams id = some n := by
  simp only [registeredIds, Finset.mem_image, Finset.mem_filter, Finset.mem_range]
  constructor
  · rintro ⟨n, ⟨_, there⟩, rfl⟩
    exact ⟨n, there⟩
  · rintro ⟨n, there⟩
    obtain ⟨call, found, isId, _⟩ := registered.streams id n there
    obtain ⟨below, isId'⟩ := registered.known n call found
    have same : requestIdOf n = id := isId'.symm.trans isId
    exact ⟨n, ⟨below, same ▸ there⟩, same⟩

/-- Nobody serves this request any more, or is going to. -/
def Silent (id : Nat) : Prop :=
  id ∉ session.asking ∧
    ∀ handler ∈ session.handlers, handler.requestId = id → handler.stage = .done

/-- A message for the caller of this id, on its way back to the hub or there. -/
def Brings (id : Nat) (part : Part) : Prop :=
  session.link.Brings id part ∨ (id, part) ∈ session.outbox ∨ (id, part) ∈ session.delivered

/-- Who has sent it: another task, or a handler that is done if it was the final one. -/
def SentBy (id : Nat) (part : Part) : Prop :=
  id ∈ session.others ∨ ∃ handler ∈ session.handlers, handler.requestId = id ∧
    ∃ chunk, part = some chunk ∧ (chunk.isFinal = true → handler.stage = .done)

end Session

open Session

/-- The feeder has something to do. -/
def isActive : Feeder Command → Bool
  | .next | .handing _ | .unregisteringPending | .unregisteringStreams => true
  | .idle | .stopped => false

/-- The pump, at this stage, still hears its stream. -/
def Pumping.wants : Pumping → Caller Part → Bool
  | .calling, .registering => false
  | .calling, _ | .opening, _ | .pumping, _ => true
  | .ending _, _ | .done, _ => false

def Pumping.isOver : Pumping → Bool
  | .ending _ | .done => true
  | .calling | .opening | .pumping => false

/-- What a pump and its call have to do with each other. -/
structure Fits (session : Session) (n : Nat) (pump : Pump) (call : Call Part Command) : Prop where
  kind : call.kind = .streamingReply
  calling : pump.stage = .calling ↔ call.caller.isCalling = true
  listening : pump.stage = .opening ∨ pump.stage = .pumping → call.caller = .listening
  feeding : isActive call.feeder = true → call.caller = .feeding
  handing : ∀ command, call.feeder = .handing command → command.isLogs = true
  registered : session.link.streamsCleared = false → pump.stage.wants call.caller = true →
    session.link.streams (requestIdOf n) = some n
  silent : session.link.streamsCleared = false → pump.stage.isOver = true →
    session.Silent (requestIdOf n)

/-- The requests on their way, and those taken: every pump's at most once. -/
structure Asked (session : Session) : Prop where
  nodup : (session.served ++ session.asking).Nodup
  sent : ∀ id ∈ session.served ++ session.asking, ∃ n pump, id = requestIdOf n ∧
    session.pumps n = some pump ∧ pump.stage ≠ .calling
  foreign : ∀ id ∈ session.foreign, ∃ n, n < session.link.started ∧ id = requestIdOf n ∧
    session.pumps n = none

structure Kept (session : Session) : Prop where
  pumps : ∀ n pump, session.pumps n = some pump → ∃ call, session.link.calls n = some call ∧
    Fits session n pump call
  others : ∀ n call, session.link.calls n = some call → session.pumps n = none →
    ∀ command, call.feeder = .handing command → command.isLogs = false
  asked : Asked session
  told : ∀ id part, session.Brings id part → session.SentBy id part

variable {session session' : Session} {n h id : Nat} {pump pump' : Pump}
variable {call call' : Call Part Command} {link' : AgentLink Part Command}

/-- A pump goes on like before where its call, its registration and its request do. -/
theorem Fits.keeps (fits : Fits session n pump call) (kind : call'.kind = call.kind)
    (caller : call'.caller = call.caller) (feeder : call'.feeder = call.feeder)
    (registered : session'.link.streamsCleared = false → session.link.streamsCleared = false ∧
      (session.link.streams (requestIdOf n) = some n →
        session'.link.streams (requestIdOf n) = some n))
    (silent : session.Silent (requestIdOf n) → session'.Silent (requestIdOf n)) :
    Fits session' n pump call' where
  kind := kind.trans fits.kind
  calling := caller ▸ fits.calling
  listening := caller ▸ fits.listening
  feeding := caller ▸ feeder ▸ fits.feeding
  handing := feeder ▸ fits.handing
  registered := fun open' wants =>
    (registered open').2 (fits.registered (registered open').1 (caller ▸ wants))
  silent := fun open' isOver => silent (fits.silent (registered open').1 isOver)

theorem Asked.shrink (asked : Asked session)
    (same : (session'.served ++ session'.asking).Sublist (session.served ++ session.asking))
    (foreign : ∀ id ∈ session'.foreign, id ∈ session.foreign)
    (pumps : ∀ n pump, session.pumps n = some pump → ∃ pump', session'.pumps n = some pump' ∧
      (pump.stage ≠ .calling → pump'.stage ≠ .calling))
    (none : ∀ n, n < session.link.started → session.pumps n = none → session'.pumps n = none)
    (started : session.link.started ≤ session'.link.started) : Asked session' where
  nodup := asked.nodup.sublist same
  sent := by
    intro id member
    obtain ⟨n, pump, isId, found, begun⟩ := asked.sent id (same.subset member)
    obtain ⟨pump', found', later⟩ := pumps n pump found
    exact ⟨n, pump', isId, found', later begun⟩
  foreign := by
    intro id member
    obtain ⟨n, below, isId, free⟩ := asked.foreign id (foreign id member)
    exact ⟨n, Nat.lt_of_lt_of_le below started, isId, none n below free⟩

/-- The agent's half moves, and the link keeps all that its calls and streams are about. -/
theorem Kept.agentMoves (kept : Kept session) (calls : session'.link.calls = session.link.calls)
    (streams : session'.link.streams = session.link.streams)
    (cleared : session'.link.streamsCleared = session.link.streamsCleared)
    (started : session'.link.started = session.link.started)
    (pumps : session'.pumps = session.pumps)
    (same : (session'.served ++ session'.asking).Sublist (session.served ++ session.asking))
    (foreign : ∀ id ∈ session'.foreign, id ∈ session.foreign)
    (silent : ∀ id, session.Silent id → session'.Silent id)
    (told : ∀ id part, session'.Brings id part → session'.SentBy id part) : Kept session' where
  pumps := by
    intro n pump found
    obtain ⟨call, there, fits⟩ := kept.pumps n pump (pumps ▸ found)
    exact ⟨call, calls ▸ there, fits.keeps rfl rfl rfl
      (fun isOpen => ⟨cleared ▸ isOpen, fun there => streams ▸ there⟩) (silent _)⟩
  others := fun n call there free => kept.others n call (calls ▸ there) (pumps ▸ free)
  asked := kept.asked.shrink same foreign (fun n pump found => ⟨pump, pumps ▸ found, id⟩)
    (fun n _ free => pumps ▸ free) (Nat.le_of_eq started.symm)
  told := told

/-! The agent's half. -/

theorem mem_setHandler {handler other : Handler} (handler' : Handler)
    (found : session.handlers[h]? = some handler) (member : other ∈ session.handlers) :
    other ∈ (session.setHandler h handler').handlers ∨
      other = handler ∧ handler' ∈ (session.setHandler h handler').handlers := by
  obtain ⟨i, bound, isOther⟩ := List.mem_iff_getElem.1 member
  obtain ⟨inside, isHandler⟩ := List.getElem?_eq_some_iff.1 found
  by_cases same : h = i
  · subst same
    refine .inr ⟨isOther.symm.trans isHandler, List.mem_iff_getElem.2 ⟨h, ?_, ?_⟩⟩
    · simpa [setHandler] using inside
    · simp [setHandler]
  · refine .inl (List.mem_iff_getElem.2 ⟨i, by simpa [setHandler] using bound, ?_⟩)
    simp [setHandler, List.getElem_set_ne same, isOther]

theorem served_setHandler {handler handler' : Handler}
    (found : session.handlers[h]? = some handler) (sameId : handler'.requestId = handler.requestId) :
    (session.setHandler h handler').served = session.served := by
  obtain ⟨inside, isHandler⟩ := List.getElem?_eq_some_iff.1 found
  simp only [served, setHandler, List.map_set, sameId, ← isHandler]
  rw [← List.getElem_map Handler.requestId (h := by simpa using inside), List.set_getElem_self]

/-- A handler that is not done yet makes a step. -/
theorem Kept.handlerMoves {handler : Handler} (handler' : Handler) (kept : Kept session)
    (found : session.handlers[h]? = some handler) (sameId : handler'.requestId = handler.requestId)
    (busy : handler.stage ≠ .done) (outbox : List (Nat × Part))
    (sent : ∀ message ∈ outbox, message ∈ session.outbox ∨ message.1 = handler.requestId ∧
      ∃ chunk, message.2 = some chunk ∧ (chunk.isFinal = true → handler'.stage = .done)) :
    Kept ({ session with outbox }.setHandler h handler') := by
  have isThere : handler ∈ session.handlers := List.mem_of_getElem? found
  have same := served_setHandler found sameId
  have new : handler' ∈ (session.setHandler h handler').handlers := by
    rcases mem_setHandler handler' found isThere with still | ⟨_, new⟩
    · obtain ⟨inside, _⟩ := List.getElem?_eq_some_iff.1 found
      exact List.mem_iff_getElem.2 ⟨h, by simpa [setHandler] using inside, by simp [setHandler]⟩
    · exact new
  refine kept.agentMoves rfl rfl rfl rfl rfl ?_ (fun _ => id) ?_ ?_
  · exact (congrArg (· ++ session.asking) same) ▸ .refl _
  · intro id silent
    refine ⟨silent.1, fun other member isId => ?_⟩
    rcases List.mem_or_eq_of_mem_set member with before | rfl
    · exact silent.2 other before isId
    · exact absurd (silent.2 handler isThere (sameId.symm.trans isId)) busy
  · intro id part brings
    have before : session.Brings id part ∨ id = handler.requestId ∧
        ∃ chunk, part = some chunk ∧ (chunk.isFinal = true → handler'.stage = .done) := by
      rcases brings with ofLink | out | delivered
      · exact .inl (.inl ofLink)
      · exact (sent _ out).imp_left fun there => .inr (.inl there)
      · exact .inl (.inr (.inr delivered))
    rcases before with before | ⟨isId, chunk, isChunk, final⟩
    · rcases kept.told id part before with other | ⟨sender, member, isId, chunk, isChunk, final⟩
      · exact .inl other
      · rcases mem_setHandler handler' found member with still | ⟨rfl, _⟩
        · exact .inr ⟨sender, still, isId, chunk, isChunk, final⟩
        · exact .inr ⟨handler', new, sameId.trans isId, chunk, isChunk,
            fun isFinal => absurd (final isFinal) busy⟩
    · exact .inr ⟨handler', new, sameId.trans isId.symm, chunk, isChunk, final⟩

theorem keeps_source {handler : Handler} {data : Option Bytes} (kept : Kept session)
    (found : session.handlers[h]? = some handler)
    (stepped : session.source h handler data = some session') : Kept session' := by
  simp only [source] at stepped
  split at stepped <;> cases stepped
  rename_i following
  exact kept.handlerMoves { handler with stage := data.elim .sendingFinal .sending } found rfl
    (by simp [following]) session.outbox fun _ => .inl

theorem keeps_send {handler : Handler} (kept : Kept session)
    (found : session.handlers[h]? = some handler)
    (stepped : session.send h handler = some session') : Kept session' := by
  have sends : ∀ chunk stage, handler.stage ≠ .done → (chunk.isFinal = true → stage = .done) →
      ((session.sendOut (handler.requestId, some chunk)).map fun sent =>
        sent.setHandler h { handler with stage }) = some session' → Kept session' := by
    intro chunk stage busy final stepped
    obtain ⟨sent, out, rfl⟩ := Option.map_eq_some_iff.1 stepped
    simp only [sendOut] at out
    repeat' split at out
    all_goals cases out
    · exact kept.handlerMoves { handler with stage } found rfl busy session.outbox fun _ => .inl
    · refine kept.handlerMoves { handler with stage } found rfl busy _ fun message member => ?_
      rcases List.mem_append.1 member with before | isNew
      · exact .inl before
      · cases List.mem_singleton.1 isNew
        exact .inr ⟨rfl, chunk, rfl, final⟩
  simp only [send] at stepped
  split at stepped
  · rename_i data sending
    exact sends _ _ (by simp [sending]) (by simp) stepped
  · rename_i sending
    exact sends _ _ (by simp [sending]) (fun _ => rfl) stepped
  · cases stepped

theorem keeps_answer {part : Part} (kept : Kept session)
    (stepped : session.answer id part = some session') : Kept session' := by
  simp only [answer, sendOut] at stepped
  split at stepped
  · rename_i isOther
    split at stepped
    · cases stepped
      exact kept
    · split at stepped <;> cases stepped
      refine kept.agentMoves rfl rfl rfl rfl rfl (.refl _) (fun _ there => there) (fun _ same => same) ?_
      rintro id' part' (ofLink | out | delivered)
      · exact kept.told id' part' (.inl ofLink)
      · rcases List.mem_append.1 out with before | isNew
        · exact kept.told id' part' (.inr (.inl before))
        · cases List.mem_singleton.1 isNew
          exact .inl isOther
      · exact kept.told id' part' (.inr (.inr delivered))
  · cases stepped

theorem keeps_transmit (kept : Kept session) (stepped : session.transmit = some session') :
    Kept session' := by
  simp only [transmit] at stepped
  split at stepped <;> cases stepped
  rename_i message rest outbox
  refine kept.agentMoves rfl rfl rfl rfl rfl (.refl _) (fun _ there => there) (fun _ same => same) ?_
  rintro id' part' (ofLink | out | delivered)
  · exact kept.told id' part' (.inl ofLink)
  · exact kept.told id' part' (.inr (.inl (outbox ▸ List.mem_cons_of_mem _ out)))
  · rcases List.mem_append.1 delivered with before | isNew
    · exact kept.told id' part' (.inr (.inr before))
    · cases List.mem_singleton.1 isNew
      exact kept.told id' part' (.inr (.inl (outbox ▸ List.mem_cons_self ..)))

theorem keeps_arrive (kept : Kept session) (registered : Registered session.link)
    (stepped : session.arrive = some session') : Kept session' := by
  simp only [arrive] at stepped
  split at stepped
  · cases stepped
  · rename_i id part rest delivered
    obtain ⟨link', moved, rfl⟩ := Option.map_eq_some_iff.1 stepped
    have told : ∀ id' part', link'.Brings id' part' → session.link.Brings id' part' ∨
        (.arrive (id, some part) : Link.Event Part Command) = .arrive (id', some part') :=
      fun _ _ => brings_step registered moved
    simp only [AgentLink.step] at moved
    split at moved <;> cases moved
    refine kept.agentMoves rfl rfl rfl rfl rfl (.refl _) (fun _ there => there) (fun _ same => same) ?_
    rintro id' part' (ofLink | out | rest)
    · rcases told id' part' ofLink with before | arrived
      · exact kept.told id' part' (.inl before)
      · cases arrived
        exact kept.told id part (.inr (.inr (delivered ▸ List.mem_cons_self ..)))
    · exact kept.told id' part' (.inr (.inl out))
    · exact kept.told id' part' (.inr (.inr (delivered ▸ List.mem_cons_of_mem _ rest)))

theorem keeps_closeOutbox (kept : Kept session) : Kept session.closeOutbox := by
  refine kept.agentMoves rfl rfl rfl rfl rfl (.refl _) (fun _ there => there) (fun _ same => same) ?_
  rintro id part (ofLink | out | delivered)
  · exact kept.told id part (.inl ofLink)
  · cases out
  · exact kept.told id part (.inr (.inr delivered))

theorem keeps_endSession (kept : Kept session) : Kept session.endSession := by
  have closed := keeps_closeOutbox kept
  have fewer : session.endSession.asking.Sublist session.asking := by
    simp only [endSession, closeOutbox, asking, List.nil_append, List.filter_append, List.map_append]
    exact List.sublist_append_right ..
  refine closed.agentMoves rfl rfl rfl rfl rfl (fewer.append_left _) ?_ ?_ closed.told
  · intro id member
    simp only [endSession, closeOutbox, foreign, List.nil_append, List.filter_append,
      List.map_append, List.mem_append] at member ⊢
    exact member.imp_right .inr
  · exact fun id silent => ⟨fun member => silent.1 (fewer.subset member), silent.2⟩

theorem keeps_deliver (kept : Kept session) (stepped : session.deliver = some session') :
    Kept session' := by
  simp only [deliver] at stepped
  split at stepped
  · cases stepped
  · rename_i message rest wire
    split at stepped
    · cases stepped
    · obtain ⟨link', moved, rfl⟩ := Option.map_eq_some_iff.1 stepped
      simp only [AgentLink.step] at moved
      split at moved <;> cases moved
      have same : (session.coming ++ [message]) ++ session.link.wire.tail =
          session.coming ++ session.link.wire := by
        simp [wire]
      have asked : (Session.asking { session with
          link := { session.link with wire := session.link.wire.tail }
          coming := session.coming ++ [message] }) = session.asking := by
        simp only [asking, same]
      refine kept.agentMoves rfl rfl rfl rfl rfl (asked ▸ .refl _) ?_
        (fun id silent => ⟨asked ▸ silent.1, silent.2⟩) kept.told
      intro id member
      simpa only [foreign, same] using member

theorem keeps_take (kept : Kept session) (stepped : session.take = some session') :
    Kept session' := by
  simp only [take] at stepped
  split at stepped
  · cases stepped
  · rename_i id containerName follow rest coming
    cases stepped
    let handler : Handler := ⟨id, containerName, follow, .following⟩
    let taken : Session :=
      { session with coming := rest, handlers := session.handlers ++ [handler] }
    have asked : session.asking = id :: taken.asking := by
      simp [asking, taken, coming, Command.isLogs]
    have same : taken.served ++ taken.asking = session.served ++ session.asking := by
      simp [served, asked, taken, handler]
    refine kept.agentMoves rfl rfl rfl rfl rfl (same ▸ .refl _) ?_ ?_ ?_
    · intro id member
      simpa [foreign, coming, Command.isLogs] using member
    · intro id' silent
      rw [Silent, asked, List.mem_cons, not_or] at silent
      refine ⟨silent.1.2, fun other member isId => ?_⟩
      rcases List.mem_append.1 member with before | isNew
      · exact silent.2 other before isId
      · cases List.mem_singleton.1 isNew
        exact absurd isId.symm silent.1.1
    · intro id' part brings
      refine (kept.told id' part brings).imp_right ?_
      rintro ⟨sender, member, told⟩
      exact ⟨sender, List.mem_append_left _ member, told⟩
  · rename_i id rest coming
    cases stepped
    have asked : ({ session with coming := rest, others := session.others ++ [id] } : Session).asking =
        session.asking := by
      simp [asking, coming, Command.isLogs]
    refine kept.agentMoves rfl rfl rfl rfl rfl (asked ▸ .refl _) ?_
      (fun id' silent => ⟨asked ▸ silent.1, silent.2⟩) ?_
    · intro id' member
      simpa only [foreign, coming, List.cons_append, Command.isLogs, List.filter_cons, Bool.not_false,
        if_true, List.map_cons, List.append_assoc, List.mem_append, List.mem_cons,
        List.not_mem_nil, false_or] using member
    · exact fun id' part brings => (kept.told id' part brings).imp_left (List.mem_append_left _)

/-! The hub's half. Below 2^64 calls, what one call does on its link touches no other call's id. -/

section Link

variable {event : Link.Event Part Command} {m : Nat}

/-- The steps of one call, the end of its stream included. -/
def isOf (n id : Nat) (event : Link.Event Part Command) : Prop :=
  event.isOwn n = true ∨ event = .endStream id

theorem requestId_ne (few : session.link.started ≤ 2 ^ 64) (below : n < session.link.started)
    (below' : m < session.link.started) (different : m ≠ n) : requestIdOf m ≠ requestIdOf n :=
  fun same => different (requestIdOf_injective (by omega) (by omega) same)

theorem streams_apart (registered : Registered session.link) (few : session.link.started ≤ 2 ^ 64)
    (found : session.link.calls n = some call) (stepped : session.link.step event = some link')
    (own : isOf n call.requestId event) (below : m < session.link.started) (different : m ≠ n)
    (there : session.link.streams (requestIdOf m) = some m) :
    link'.streams (requestIdOf m) = some m := by
  obtain ⟨known, isId⟩ := registered.known n call found
  have apart := requestId_ne few known below different
  rcases streams_after stepped there with kept | rfl | rfl | ⟨k, other, found', sameId, moves⟩
  · exact kept
  · rcases own with own | own <;> cases own
  · rcases own with own | own
    · cases own
    · injection own with same
      exact absurd (same.trans isId) apart
  · have same : k = n := by
      rcases own with own | own
      · rcases moves with ⟨rfl, _⟩ | ⟨rfl, _⟩ <;> exact of_decide_eq_true own
      · rcases moves with ⟨rfl, _⟩ | ⟨rfl, _⟩ <;> cases own
    subst same
    cases found.symm.trans found'
    exact absurd (sameId.symm.trans isId) apart

theorem calls_apart (found : session.link.calls n = some call)
    (stepped : session.link.step event = some link') (own : isOf n call.requestId event)
    (different : m ≠ n) : link'.calls m = session.link.calls m := by
  rcases own with own | rfl
  · obtain ⟨_, own⟩ := ownStep found own stepped
    exact own.others m different
  · cases stepped
    rfl

theorem streamsCleared_own (id : Nat) (stepped : session.link.step event = some link')
    (own : isOf n id event) : link'.streamsCleared = session.link.streamsCleared := by
  rcases streamsCleared_step stepped with same | rfl
  · exact same
  · rcases own with own | own <;> cases own

theorem started_own (found : session.link.calls n = some call)
    (stepped : session.link.step event = some link') (own : isOf n call.requestId event) :
    link'.started = session.link.started := by
  rcases own with own | rfl
  · obtain ⟨_, own⟩ := ownStep found own stepped
    exact own.started
  · cases stepped
    rfl

/-- What a step of the link adds to the messages on their way to the agent. -/
theorem asking_step (stepped : session.link.step event = some link') (pumps : Nat → Option Pump) :
    (Session.asking { session with link := link', pumps }).Sublist session.asking ∧
        (∀ id ∈ Session.foreign { session with link := link', pumps }, id ∈ session.foreign) ∨
      ∃ n call command, event = .handed n ∧ session.link.calls n = some call ∧
        call.feeder = .handing command ∧ link'.wire ≠ session.link.wire ∧
          Session.asking { session with link := link', pumps } =
            session.asking ++ (if command.isLogs then [call.requestId] else []) ∧
          Session.foreign { session with link := link', pumps } =
            session.foreign ++ (if command.isLogs then [] else [call.requestId]) := by
  rcases wire_step stepped with fewer | ⟨n, call, command, isHanded, found, handing, wire⟩
  · have less : (session.coming ++ link'.wire).Sublist (session.coming ++ session.link.wire) :=
      fewer.append_left _
    refine .inl ⟨(less.filter _).map _, fun id member => ?_⟩
    simp only [foreign, List.mem_append] at member ⊢
    exact member.imp_right fun member => ((less.filter _).map _).subset member
  · refine .inr ⟨n, call, command, isHanded, found, handing, by simp [wire], ?_, ?_⟩
    · cases isLogs : command.isLogs <;> simp [asking, wire, isLogs, ← List.append_assoc]
    · cases isLogs : command.isLogs <;> simp [foreign, wire, isLogs, ← List.append_assoc]

/-- What a step of the link, and of the pump that makes it, does to the requests. -/
theorem Kept.asksOn (kept : Kept session) (registered : Registered session.link)
    (few : session.link.started ≤ 2 ^ 64) (stepped : session.link.step event = some link')
    (started : session.link.started ≤ link'.started) {pumps : Nat → Option Pump}
    (later : ∀ n pump, session.pumps n = some pump → ∃ pump', pumps n = some pump' ∧
      (pump.stage ≠ .calling → pump'.stage ≠ .calling))
    (none : ∀ n, n < session.link.started → session.pumps n = none → pumps n = none)
    (sends : ∀ n pump, event = .handed n → link'.wire ≠ session.link.wire → pumps n = some pump →
      pump.stage ≠ .calling) : Asked { session with link := link', pumps } := by
  rcases asking_step stepped pumps with ⟨fewer, foreign⟩ |
    ⟨n, call, command, isHanded, found, handing, wire, asking, foreign⟩
  · exact kept.asked.shrink (fewer.append_left _) foreign later none started
  · obtain ⟨below, isId⟩ := registered.known n call found
    cases isLogs : command.isLogs with
    | true =>
        simp only [isLogs, if_true, List.append_nil] at asking foreign
        cases isPump : session.pumps n with
        | none => exact nomatch isLogs.symm.trans (kept.others n call found isPump command handing)
        | some pump =>
            obtain ⟨_, same, fits⟩ := kept.pumps n pump isPump
            cases found.symm.trans same
            have calling : pump.stage = .calling := by
              refine fits.calling.2 ?_
              rw [fits.feeding (by simp [isActive, handing])]
              rfl
            -- A request is sent once, as its pump is in its call only until then.
            have fresh : call.requestId ∉ session.served ++ session.asking := by
              intro member
              obtain ⟨m, other, isId', found', begun⟩ := kept.asked.sent _ member
              obtain ⟨_, known, _⟩ := kept.pumps m other found'
              have below' := (registered.known m _ known).1
              have same : m = n := requestIdOf_injective (by omega) (by omega) (isId'.symm.trans isId)
              subst same
              cases isPump.symm.trans found'
              exact begun calling
            refine ⟨?_, fun id member => ?_, fun id member => ?_⟩
            · rw [asking, ← List.append_assoc]
              exact List.nodup_append.2 ⟨kept.asked.nodup, List.nodup_singleton _, fun a isOld b isNew =>
                fun same => fresh (List.mem_singleton.1 isNew ▸ same ▸ isOld)⟩
            · rw [asking, ← List.append_assoc] at member
              rcases List.mem_append.1 member with before | isNew
              · obtain ⟨m, other, isId', found', begun⟩ := kept.asked.sent id before
                obtain ⟨other', found'', still⟩ := later m other found'
                exact ⟨m, other', isId', found'', still begun⟩
              · obtain ⟨pump', found', _⟩ := later n pump isPump
                exact ⟨n, pump', (List.mem_singleton.1 isNew).trans isId, found',
                  sends n pump' isHanded wire found'⟩
            · obtain ⟨m, below', isId', free⟩ := kept.asked.foreign id (foreign ▸ member)
              exact ⟨m, Nat.lt_of_lt_of_le below' started, isId', none m below' free⟩
    | false =>
        simp only [isLogs, Bool.false_eq_true, if_false, List.append_nil] at asking foreign
        have free : session.pumps n = .none := by
          cases isPump : session.pumps n with
          | none => rfl
          | some pump =>
              obtain ⟨_, same, fits⟩ := kept.pumps n pump isPump
              cases found.symm.trans same
              exact nomatch isLogs.symm.trans (fits.handing command handing)
        refine ⟨asking ▸ kept.asked.nodup, fun id member => ?_, fun id member => ?_⟩
        · obtain ⟨m, other, isId', found', begun⟩ := kept.asked.sent id (asking ▸ member)
          obtain ⟨other', found'', still⟩ := later m other found'
          exact ⟨m, other', isId', found'', still begun⟩
        · rw [foreign] at member
          rcases List.mem_append.1 member with before | isNew
          · obtain ⟨m, below', isId', free⟩ := kept.asked.foreign id before
            exact ⟨m, Nat.lt_of_lt_of_le below' started, isId', none m below' free⟩
          · exact ⟨n, Nat.lt_of_lt_of_le below started, (List.mem_singleton.1 isNew).trans isId,
              none n below free⟩

theorem Session.Silent.moves (silent : session.Silent id)
    (stepped : session.link.step event = some link') (pumps : Nat → Option Pump)
    (notSent : ∀ n call, event = .handed n → session.link.calls n = some call →
      link'.wire ≠ session.link.wire → call.requestId ≠ id) : Session.Silent { session with link := link', pumps } id := by
  refine ⟨fun member => silent.1 ?_, silent.2⟩
  rcases asking_step stepped pumps with ⟨fewer, _⟩ |
    ⟨n, call, command, isHanded, found, _, wire, asking, _⟩
  · exact fewer.subset member
  · rw [asking] at member
    rcases List.mem_append.1 member with before | isNew
    · exact before
    · split at isNew
      · exact absurd (List.mem_singleton.1 isNew).symm (notSent n call isHanded found wire)
      · cases isNew

/-- A pump is still in its call: nobody has been asked under its id. -/
theorem Kept.silent_of_calling (kept : Kept session) (registered : Registered session.link)
    (few : session.link.started ≤ 2 ^ 64) (isPump : session.pumps n = some pump)
    (calling : pump.stage = .calling) : session.Silent (requestIdOf n) := by
  have unasked : requestIdOf n ∉ session.served ++ session.asking := by
    intro member
    obtain ⟨m, other, isId, found, begun⟩ := kept.asked.sent _ member
    obtain ⟨_, known, _⟩ := kept.pumps m other found
    obtain ⟨_, known', _⟩ := kept.pumps n pump isPump
    have below := (registered.known m _ known).1
    have below' := (registered.known n _ known').1
    have same : m = n := requestIdOf_injective (by omega) (by omega) isId.symm
    subst same
    cases isPump.symm.trans found
    exact begun calling
  refine ⟨fun member => unasked (List.mem_append_right _ member), fun handler member isId => ?_⟩
  exact absurd (List.mem_append_left _ (isId ▸ List.mem_map_of_mem member)) unasked

/-- One call makes a step, and its pump with it. -/
theorem Kept.ownMoves (kept : Kept session) (registered : Registered session.link)
    (few : session.link.started ≤ 2 ^ 64) (found : session.link.calls n = some call)
    (stepped : session.link.step event = some link') (own : isOf n call.requestId event)
    {pumps : Nat → Option Pump} (others : ∀ m, m ≠ n → pumps m = session.pumps m)
    (mine : ∀ pump', pumps n = some pump' → ∃ call', link'.calls n = some call' ∧
      Fits { session with link := link', pumps } n pump' call')
    (later : ∀ pump, session.pumps n = some pump → ∃ pump', pumps n = some pump' ∧
      (pump.stage ≠ .calling → pump'.stage ≠ .calling))
    (none : session.pumps n = none → pumps n = none ∧ ∀ call', link'.calls n = some call' →
      ∀ command, call'.feeder = .handing command → command.isLogs = false)
    (sends : ∀ pump', event = .handed n → link'.wire ≠ session.link.wire → pumps n = some pump' →
      pump'.stage ≠ .calling) : Kept { session with link := link', pumps } where
  pumps := by
    intro m other found'
    by_cases same : m = n
    · exact same ▸ mine other (same ▸ found')
    · obtain ⟨call', there, fits⟩ := kept.pumps m other (others m same ▸ found')
      have below := (registered.known m call' there).1
      obtain ⟨known, isId⟩ := registered.known n call found
      refine ⟨call', (calls_apart found stepped own same).trans there, fits.keeps rfl rfl rfl
        (fun isOpen => ⟨streamsCleared_own _ stepped own ▸ isOpen,
          streams_apart registered few found stepped own below same⟩) fun silent => ?_⟩
      refine silent.moves stepped pumps fun k sender isHanded isSender _ sameId => ?_
      have isMine : k = n := by
        subst isHanded
        rcases own with own | own
        · exact of_decide_eq_true own
        · cases own
      subst isMine
      cases found.symm.trans isSender
      exact requestId_ne few known below same (sameId.symm.trans isId)
  others := by
    intro m other there free
    by_cases same : m = n
    · subst same
      cases isPump : session.pumps m with
      | none => exact (none isPump).2 other there
      | some pump =>
          obtain ⟨pump', found', _⟩ := later pump isPump
          cases free.symm.trans found'
    · exact kept.others m other ((calls_apart found stepped own same).symm.trans there)
        ((others m same).symm.trans free)
  asked := by
    refine kept.asksOn registered few stepped (Nat.le_of_eq (started_own found stepped own).symm)
      ?_ ?_ ?_
    · intro m other found'
      by_cases same : m = n
      · subst same
        exact later other found'
      · exact ⟨other, (others m same).trans found', id⟩
    · intro m _ free
      by_cases same : m = n
      · subst same
        exact (none free).1
      · exact (others m same).trans free
    · intro m pump' isHanded wire found'
      have same : m = n := by
        subst isHanded
        rcases own with own | own
        · exact of_decide_eq_true own
        · cases own
      subst same
      exact sends pump' isHanded wire found'
  told := by
    rintro id part (ofLink | back)
    · rcases brings_step registered stepped ofLink with before | rfl
      · exact kept.told id part (.inl before)
      · rcases own with own | own <;> cases own
    · exact kept.told id part (.inr back)

/-- The steps of a pump's call. -/
def isCall (n : Nat) : Link.Event Part Command → Bool
  | .register m | .readOutbound m | .handed m | .unregister m => m = n
  | .nextPayload m payload => m = n ∧ payload.any Command.isLogs
  | _ => false

theorem isOwn_of_isCall (call : isCall n event = true) : event.isOwn n = true := by
  cases event with
  | nextPayload m payload => exact decide_eq_true (of_decide_eq_true call).1
  | register _ | readOutbound _ | handed _ | unregister _ => exact call
  | begin _ | receive _ | timeOut _ | removeExpired _ | drop _ | endStream _ | setOutbound | transmit
  | closeWire | arrive _ | hangUp | read | lookUpStream | handOver | lookUpPending | clearPending
  | clearStreams | clearOutbound => cases call

/-- What has become of a call that made a step: it goes on and is registered, it has sent its one
request, or it has failed. -/
inductive Asks (link link' : AgentLink Part Command) (n : Nat) (call call' : Call Part Command) : Prop
  | on (calling : call'.caller.isCalling = true) (wire : link'.wire = link.wire)
      (registered : link'.streams call.requestId = some n ∨
        call.caller ≠ .registering ∧ link'.streams = link.streams)
  | sent (listening : call'.caller = .listening) (begun : call.caller ≠ .registering)
      (streams : link'.streams = link.streams)
  | failed (err : AppError) (isFailed : call'.caller = .failed err) (wire : link'.wire = link.wire)

structure AskStep (link link' : AgentLink Part Command) (n : Nat) (call call' : Call Part Command) :
    Prop where
  calling : call.caller.isCalling = true
  feeding : isActive call'.feeder = true → call'.caller = .feeding
  handing : ∀ command, call'.feeder = .handing command → command.isLogs = true
  asks : Asks link link' n call call'

theorem askStep {link : AgentLink Part Command} (found : link.calls n = some call)
    (kind : call.kind = .streamingReply) (feeding : isActive call.feeder = true → call.caller = .feeding)
    (handing : ∀ command, call.feeder = .handing command → command.isLogs = true)
    (isCall : isCall n event = true) (stepped : link.step event = some link')
    (found' : link'.calls n = some call') : AskStep link link' n call call' := by
  have busy : isActive call.feeder = true → call.caller.isCalling = true := by
    intro active
    rw [feeding active]
    rfl
  cases event with
  | register m =>
      obtain rfl : m = n := of_decide_eq_true isCall
      simp only [AgentLink.step, found, Option.bind_some, AgentLink.register, kind, Kind.isStream,
        if_true] at stepped
      split at stepped <;> cases stepped
      rename_i registering
      simp only [AgentLink.setCall_calls, if_true, Option.some.injEq] at found'
      subst found'
      refine ⟨by simp [registering, Caller.isCalling], fun active => ?_, handing, .on rfl rfl ?_⟩
      · cases registering.symm.trans (feeding active)
      · exact .inl (Function.update_self ..)
  | readOutbound m =>
      obtain rfl : m = n := of_decide_eq_true isCall
      have reading : call.caller = .readingOutbound := by
        cases caller : call.caller <;>
          simp [AgentLink.step, found, AgentLink.readOutbound, caller] at stepped
        rfl
      simp only [AgentLink.step, found, Option.bind_some, AgentLink.readOutbound, kind, reading]
        at stepped
      repeat' split at stepped
      all_goals cases stepped
      all_goals
        simp only [AgentLink.setCall_calls, if_true, Option.some.injEq] at found'
        subst found'
        refine ⟨by simp [reading, Caller.isCalling], fun _ => rfl, by rintro _ ⟨⟩, .on rfl rfl (.inr ⟨?_, rfl⟩)⟩
        simp [reading]
  | nextPayload m payload =>
      obtain ⟨rfl, isLogs⟩ := of_decide_eq_true isCall
      obtain ⟨command, rfl, isLogs⟩ := (Option.any_eq_true _ _).1 isLogs
      simp only [AgentLink.step, found, Option.bind_some, AgentLink.nextPayload] at stepped
      split at stepped <;> cases stepped
      rename_i isNext
      have isFeeding := feeding (by simp [isNext, isActive])
      simp only [AgentLink.setCall_calls, if_true, Option.some.injEq] at found'
      subst found'
      refine ⟨busy (by simp [isNext, isActive]), fun _ => isFeeding, ?_, .on ?_ rfl (.inr ⟨?_, rfl⟩)⟩
      · intro command' same
        cases same
        exact isLogs
      · exact busy (by simp [isNext, isActive])
      · simp [isFeeding]
  | handed m =>
      obtain rfl : m = n := of_decide_eq_true isCall
      simp only [AgentLink.step, found, Option.bind_some, AgentLink.handed, kind] at stepped
      split at stepped
      · rename_i command isHanding
        have active : isActive call.feeder = true := by simp [isHanding, isActive]
        have isFeeding := feeding active
        simp only [isFeeding] at stepped
        repeat' split at stepped
        all_goals cases stepped
        all_goals
          simp only [AgentLink.setCall_calls, if_true, Option.some.injEq] at found'
          subst found'
        · refine ⟨busy active, fun _ => rfl, by rintro _ ⟨⟩, .on rfl rfl (.inr ⟨?_, rfl⟩)⟩
          simp [isFeeding]
        · exact ⟨busy active, by rintro ⟨⟩, by rintro _ ⟨⟩, .sent rfl (by simp [isFeeding]) rfl⟩
      · cases stepped
  | unregister m =>
      obtain rfl : m = n := of_decide_eq_true isCall
      simp only [AgentLink.step, found, Option.bind_some, AgentLink.unregister] at stepped
      split at stepped
      · rename_i unregistering
        have active : isActive call.feeder = true := by simp [unregistering, isActive]
        have isFeeding := feeding active
        cases stepped
        simp only [AgentLink.setCall_calls, if_true, Option.some.injEq] at found'
        subst found'
        refine ⟨busy active, fun _ => isFeeding, by rintro _ ⟨⟩, .on (busy active) rfl (.inr ⟨?_, rfl⟩)⟩
        simp [isFeeding]
      · rename_i unregistering
        have active : isActive call.feeder = true := by simp [unregistering, isActive]
        simp only [feeding active] at stepped
        cases stepped
        simp only [AgentLink.setCall_calls, if_true, Option.some.injEq] at found'
        subst found'
        exact ⟨busy active, by rintro ⟨⟩, by rintro _ ⟨⟩, .failed _ rfl rfl⟩
      · cases stepped
  | begin _ | receive _ | timeOut _ | removeExpired _ | drop _ | endStream _ | setOutbound | transmit
  | closeWire | arrive _ | hangUp | read | lookUpStream | handOver | lookUpPending | clearPending
  | clearStreams | clearOutbound => cases isCall

theorem setPump_self {pumps : Nat → Option Pump} {other : Pump}
    (there : Function.update pumps n (some pump') n = some other) : other = pump' := by
  rw [Function.update_self] at there
  exact (Option.some.inj there).symm

theorem keeps_call (kept : Kept session) (registered : Registered session.link)
    (few : session.link.started ≤ 2 ^ 64) (isPump : session.pumps n = some pump)
    (asks : isCall n event = true) (stepped : session.callStep n pump event = some session') :
    Kept session' := by
  simp only [callStep, Option.bind_eq_some_iff, Option.map_eq_some_iff] at stepped
  obtain ⟨link', moved, call', found', rfl⟩ := stepped
  obtain ⟨call, found, fits⟩ := kept.pumps n pump isPump
  have own := isOwn_of_isCall asks
  have isId := (registered.known n call found).2
  have ask := askStep found fits.kind fits.feeding fits.handing asks moved found'
  have calling : pump.stage = .calling := fits.calling.2 ask.calling
  have kind : call'.kind = .streamingReply := by
    obtain ⟨_, step⟩ := ownStep found own moved
    cases found'.symm.trans step.found
    exact step.kind.trans fits.kind
  have isOpen : link'.streamsCleared = false → session.link.streamsCleared = false := fun isOpen =>
    streamsCleared_own call.requestId moved (.inl own) ▸ isOpen
  refine kept.ownMoves registered few found moved (.inl own)
    (fun m different => Function.update_of_ne different ..) ?_ ?_ (fun free => ?_) ?_
  · intro other there
    cases setPump_self there
    refine ⟨call', found', ?_⟩
    cases ask.asks with
    | on calling' wire streams =>
        have stage : settle pump.stage call'.caller = .calling := by
          rw [calling]
          cases caller : call'.caller <;> simp [caller, Caller.isCalling, settle] at calling' ⊢
        refine ⟨kind, iff_of_true stage calling', fun isOne => ?_, ask.feeding, ask.handing,
          fun uncleared _ => ?_, fun _ isOver => ?_⟩
        · rcases isOne with isOne | isOne <;> cases stage.symm.trans isOne
        · rcases streams with there | ⟨begun, same⟩
          · exact isId ▸ there
          · refine same ▸ fits.registered (isOpen uncleared) ?_
            rw [calling]
            cases caller : call.caller <;> first | rfl | exact absurd caller begun
        · rw [stage] at isOver
          cases isOver
    | sent listening begun streams =>
        have stage : settle pump.stage call'.caller = .opening := by rw [calling, listening]; rfl
        refine ⟨kind, iff_of_false (by simp [stage]) (by simp [listening, Caller.isCalling]),
          fun _ => listening, ask.feeding, ask.handing, fun uncleared _ => ?_, fun _ isOver => ?_⟩
        · refine streams ▸ fits.registered (isOpen uncleared) ?_
          rw [calling]
          cases caller : call.caller <;> first | rfl | exact absurd caller begun
        · rw [stage] at isOver
          cases isOver
    | failed err isFailed wire =>
        have stage : settle pump.stage call'.caller = .done := by rw [calling, isFailed]; rfl
        refine ⟨kind, iff_of_false (by simp [stage]) (by simp [isFailed, Caller.isCalling]),
          fun isOne => ?_, ask.feeding, ask.handing, fun _ wants => ?_, fun _ _ => ?_⟩
        · rcases isOne with isOne | isOne <;> cases stage.symm.trans isOne
        · rw [stage] at wants
          cases wants
        · have silent := kept.silent_of_calling registered few isPump calling
          exact silent.moves moved _ fun _ _ _ _ changed => absurd wire changed
  · intro other there
    cases isPump.symm.trans there
    exact ⟨_, Function.update_self .., fun begun => absurd calling begun⟩
  · cases isPump.symm.trans free
  · intro other isHanded wire there
    cases setPump_self there
    cases ask.asks with
    | on _ same | failed _ _ same => exact absurd same wire
    | sent listening =>
        rw [calling, listening]
        rintro ⟨⟩

/-- What comes for a pump was sent by a handler of its request. -/
theorem Kept.sender {part : Part} (kept : Kept session) (registered : Registered session.link)
    (few : session.link.started ≤ 2 ^ 64) (isPump : session.pumps n = some pump)
    (sentBy : session.SentBy (requestIdOf n) part) :
    ∃ handler ∈ session.handlers, handler.requestId = requestIdOf n ∧
      ∃ chunk, part = some chunk ∧ (chunk.isFinal = true → handler.stage = .done) := by
  refine sentBy.resolve_left fun isOther => ?_
  obtain ⟨m, below, same, free⟩ := kept.asked.foreign _ (List.mem_append_left _ isOther)
  obtain ⟨_, known, _⟩ := kept.pumps n pump isPump
  have below' := (registered.known n _ known).1
  have isMine : n = m := requestIdOf_injective (by omega) (by omega) same
  subst isMine
  cases isPump.symm.trans free

theorem Kept.silent_of_done {handler : Handler} (kept : Kept session)
    (member : handler ∈ session.handlers) (isDone : handler.stage = .done) :
    session.Silent handler.requestId := by
  obtain ⟨served, _, apart⟩ := List.nodup_append.1 kept.asked.nodup
  refine ⟨fun asking => ?_, fun twin isTwin same => ?_⟩
  · exact apart _ (List.mem_map_of_mem member) _ asking rfl
  · rw [List.inj_on_of_nodup_map served isTwin member same]
    exact isDone

/-- A listening call receives something, or learns that there is nothing more to come. -/
theorem receiveStep {link : AgentLink Part Command} (found : link.calls n = some call)
    (listening : call.caller = .listening) (stepped : link.step (.receive n) = some link') :
    link'.streams = link.streams ∧ ∃ call', link'.calls n = some call' ∧
      call'.kind = call.kind ∧ call'.feeder = call.feeder ∧
        (call'.caller = .listening ∧ call.inbox ≠ [] ∨ call'.caller = .ended ∧ call.inbox = [] ∧
          link.hasSender n call = false) := by
  simp only [AgentLink.step, found, Option.bind_some, AgentLink.receive, listening] at stepped
  split at stepped
  · contradiction
  · contradiction
  · cases stepped
    rename_i inbox
    exact ⟨rfl, _, AgentLink.setCall_calls.trans (if_pos rfl), rfl, rfl, .inl ⟨rfl, by simp [inbox]⟩⟩
  · split at stepped <;> cases stepped
    rename_i inbox closed
    exact ⟨rfl, _, AgentLink.setCall_calls.trans (if_pos rfl), rfl, rfl,
      .inr ⟨rfl, inbox, Bool.eq_false_iff.2 closed⟩⟩
  · cases stepped

theorem silent_of_over (kept : Kept session) (registered : Registered session.link)
    (few : session.link.started ≤ 2 ^ 64) (isPump : session.pumps n = some pump)
    (found : session.link.calls n = some call) (pumping : pump.stage = .pumping)
    (uncleared : session.link.streamsCleared = false)
    (closed : call.inbox = [] → session.link.hasSender n call = false)
    (isOver : goesOn call.inbox.head? = false) : session.Silent (requestIdOf n) := by
  obtain ⟨_, same, fits⟩ := kept.pumps n pump isPump
  cases found.symm.trans same
  have isId := (registered.known n call found).2
  cases inbox : call.inbox with
  | nil =>
      have there := fits.registered uncleared (by rw [pumping]; rfl)
      have gone := closed inbox
      simp [AgentLink.hasSender, isId, there] at gone
  | cons part rest =>
      have brings : session.Brings (requestIdOf n) part :=
        .inl (.inr (.inr (.inr ⟨n, call, found, isId, .inr (inbox ▸ List.mem_cons_self ..)⟩)))
      obtain ⟨handler, member, sameId, chunk, rfl, final⟩ :=
        kept.sender registered few isPump (kept.told _ _ brings)
      rw [inbox] at isOver
      have isFinal : chunk.isFinal = true := by simpa [goesOn] using isOver
      exact sameId ▸ kept.silent_of_done member (final isFinal)

theorem keeps_receive (kept : Kept session) (registered : Registered session.link)
    (few : session.link.started ≤ 2 ^ 64) (isPump : session.pumps n = some pump)
    (found : session.link.calls n = some call)
    (stepped : session.receive n pump call = some session') : Kept session' := by
  obtain ⟨_, same, fits⟩ := kept.pumps n pump isPump
  cases found.symm.trans same
  simp only [receive] at stepped
  split at stepped
  · rename_i pumping
    obtain ⟨link', moved, rfl⟩ := Option.map_eq_some_iff.1 stepped
    have listening := fits.listening (.inr pumping)
    have own : (.receive n : Link.Event Part Command).isOwn n = true := by simp [Event.isOwn]
    obtain ⟨streams, call', found', kind, feeder, caller⟩ := receiveStep found listening moved
    have idle : isActive call'.feeder = false := by
      cases active : isActive call'.feeder with
      | false => rfl
      | true => cases listening.symm.trans (fits.feeding (feeder ▸ active))
    have returned : call'.caller.isCalling = false := by
      rcases caller with ⟨caller, _⟩ | ⟨caller, _⟩ <;> rw [caller] <;> rfl
    have isOpen : link'.streamsCleared = false → session.link.streamsCleared = false := fun isOpen =>
      streamsCleared_own call.requestId moved (.inl own) ▸ isOpen
    have handing : ∀ command, call'.feeder = .handing command → command.isLogs = true := by
      intro command isHanding
      simp [isHanding, isActive] at idle
    refine kept.ownMoves registered few found moved (.inl own)
      (fun m different => Function.update_of_ne different ..) ?_ ?_ (fun free => ?_) ?_
    · intro other there
      cases setPump_self there
      refine ⟨call', found', ?_⟩
      cases more : goesOn call.inbox.head? with
      | true =>
          have stillListening : call'.caller = .listening := by
            refine (caller.resolve_right fun ⟨_, inbox, _⟩ => ?_).1
            simp [inbox, goesOn] at more
          refine ⟨kind.trans fits.kind, iff_of_false (by simp) (by simp [returned]),
            fun _ => stillListening, by simp [idle], handing, fun uncleared _ => ?_,
            fun _ isOver => nomatch isOver⟩
          exact streams ▸ fits.registered (isOpen uncleared) (by rw [pumping]; rfl)
      | false =>
          refine ⟨kind.trans fits.kind, iff_of_false (by simp) (by simp [returned]), by simp,
            by simp [idle], handing, fun _ wants => (nomatch wants), fun uncleared _ => ?_⟩
          refine Session.Silent.moves (silent_of_over kept registered few isPump found pumping
            (isOpen uncleared) (fun inbox => ?_) more) moved _ (fun _ _ same => nomatch same)
          exact (caller.resolve_left fun ⟨_, more⟩ => more inbox).2.2
    · intro other there
      cases isPump.symm.trans there
      exact ⟨_, Function.update_self .., fun _ => by dsimp only; split <;> simp⟩
    · cases isPump.symm.trans free
    · intro other isHanded
      cases isHanded
  · cases stepped

/-- What another call hands over is no request for logs. -/
theorem otherHanding {link : AgentLink Part Command} (found : link.calls n = some call)
    (before : ∀ command, call.feeder = .handing command → command.isLogs = false)
    (isOther : Session.isOther n call.requestId event = true) (stepped : link.step event = some link')
    (found' : link'.calls n = some call') :
    ∀ command, call'.feeder = .handing command → command.isLogs = false := by
  intro command handing
  cases event with
  | nextPayload m payload =>
      obtain ⟨rfl, noLogs⟩ := of_decide_eq_true isOther
      simp only [AgentLink.step, found, Option.bind_some, AgentLink.nextPayload] at stepped
      repeat' split at stepped
      all_goals cases stepped
      all_goals
        simp only [AgentLink.setCall_calls, if_true, Option.some.injEq] at found'
        subst found'
      · cases handing
        simpa using noLogs
      · cases handing
      · cases handing
  | register m | readOutbound m | handed m | unregister m | receive m | timeOut m | removeExpired m
  | drop m =>
      obtain rfl : m = n := of_decide_eq_true isOther
      simp only [AgentLink.step, found, Option.bind_some] at stepped
      simp only [AgentLink.register, AgentLink.readOutbound, AgentLink.handed, AgentLink.unregister,
        AgentLink.receive, AgentLink.timeOut, AgentLink.removeExpired, AgentLink.drop] at stepped
      repeat' split at stepped
      all_goals cases stepped
      all_goals
        simp only [AgentLink.setCall_calls, if_true, Option.some.injEq] at found'
        subst found'
      all_goals first | exact before command handing | cases handing
  | endStream _ =>
      cases stepped
      cases found.symm.trans found'
      exact before command handing
  | begin _ | setOutbound | transmit | closeWire | arrive _ | hangUp | read | lookUpStream | handOver
  | lookUpPending | clearPending | clearStreams | clearOutbound => cases isOther

theorem keeps_ofOther (kept : Kept session) (registered : Registered session.link)
    (few : session.link.started ≤ 2 ^ 64) (found : session.link.calls n = some call)
    (stepped : session.ofOther n call event = some session') : Kept session' := by
  simp only [ofOther] at stepped
  split at stepped
  · rename_i free
    obtain ⟨free, isOther⟩ := free
    obtain ⟨link', moved, rfl⟩ := Option.map_eq_some_iff.1 stepped
    have own : isOf n call.requestId event := by
      cases event with
      | nextPayload m payload =>
          exact .inl (decide_eq_true (of_decide_eq_true isOther).1)
      | endStream other => exact .inr (by rw [of_decide_eq_true isOther])
      | register _ | readOutbound _ | handed _ | unregister _ | receive _ | timeOut _
      | removeExpired _ | drop _ | begin _ | setOutbound | transmit | closeWire | arrive _ | hangUp
      | read | lookUpStream | handOver | lookUpPending | clearPending | clearStreams
      | clearOutbound => exact .inl isOther
    refine kept.ownMoves registered few found moved own (fun _ _ => rfl) (fun pump' isPump => ?_)
      (fun pump isPump => ?_) (fun _ => ⟨free, fun call' found' command handing => ?_⟩)
      (fun pump' _ _ isPump => ?_)
    · cases free.symm.trans isPump
    · cases free.symm.trans isPump
    · exact otherHanding found (kept.others n call found free) isOther moved found' command handing
    · cases free.symm.trans isPump
  · cases stepped

/-- The pump alone moves on. -/
theorem Kept.pumpMoves (kept : Kept session) (isPump : session.pumps n = some pump)
    (found : session.link.calls n = some call) (begun : pump'.stage ≠ .calling)
    (fits : Fits (session.setPump n pump') n pump' call) : Kept (session.setPump n pump') where
  pumps := by
    intro m other found'
    by_cases same : m = n
    · subst same
      cases setPump_self found'
      exact ⟨call, found, fits⟩
    · obtain ⟨call', there, fits⟩ :=
        kept.pumps m other ((Function.update_of_ne same ..).symm.trans found')
      exact ⟨call', there, fits.keeps rfl rfl rfl (fun isOpen => ⟨isOpen, id⟩) id⟩
  others := by
    intro m other there free
    by_cases same : m = n
    · subst same
      cases (Function.update_self ..).symm.trans free
    · exact kept.others m other there ((Function.update_of_ne same ..).symm.trans free)
  asked := by
    refine kept.asked.shrink (.refl _) (fun _ there => there) (fun m other found' => ?_)
      (fun m _ free => ?_) (Nat.le_refl _)
    · by_cases same : m = n
      · subst same
        exact ⟨pump', Function.update_self .., fun _ => begun⟩
      · exact ⟨other, (Function.update_of_ne same ..).trans found', id⟩
    · by_cases same : m = n
      · subst same
        cases isPump.symm.trans free
      · exact (Function.update_of_ne same ..).trans free
  told := kept.told

/-- The task of the pump ends, with its registration and its receiver. -/
theorem keeps_ended (kept : Kept session) (registered : Registered session.link)
    (few : session.link.started ≤ 2 ^ 64) (isPump : session.pumps n = some pump)
    (found : session.link.calls n = some call) {holdsPump : Bool}
    (ending : pump.stage = .ending holdsPump) :
    Kept ({ session with link := (session.link.removeStream call.requestId).dropReceiver n }.setPump n
      { pump with stage := .done }) := by
  obtain ⟨_, same, fits⟩ := kept.pumps n pump isPump
  cases found.symm.trans same
  have returned : call.caller.isCalling = false := by
    cases calling : call.caller.isCalling with
    | false => rfl
    | true => cases ending.symm.trans (fits.calling.2 calling)
  have idle : isActive call.feeder = false := by
    cases active : isActive call.feeder with
    | false => rfl
    | true => cases returned.symm.trans (congrArg Caller.isCalling (fits.feeding active))
  have moved : session.link.step (.endStream call.requestId) =
      some (session.link.removeStream call.requestId) := rfl
  have registered' : Registered (session.link.removeStream call.requestId) :=
    registered.moves (AgentLink.step_effect moved)
  have kept' : Kept { session with link := session.link.removeStream call.requestId } := by
    refine kept.ownMoves registered few found moved (.inr rfl) (fun _ _ => rfl) (fun pump' there => ?_)
      (fun pump' there => ⟨pump', there, id⟩) (fun free => ?_) (by rintro _ ⟨⟩)
    · cases isPump.symm.trans there
      refine ⟨call, found, fits.kind, fits.calling, fits.listening, fits.feeding, fits.handing,
        fun _ wants => ?_, fun uncleared isOver => ?_⟩
      · rw [ending] at wants
        cases wants
      · exact (fits.silent uncleared isOver).moves moved session.pumps (by rintro _ _ ⟨⟩)
    · cases isPump.symm.trans free
  have silent : session.link.streamsCleared = false →
      Session.Silent { session with link := session.link.removeStream call.requestId }
        (requestIdOf n) := fun uncleared =>
    (fits.silent uncleared (by rw [ending]; rfl)).moves moved session.pumps (by rintro _ _ ⟨⟩)
  cases stepped : (session.link.removeStream call.requestId).step (.drop n) with
  | none =>
      simp only [AgentLink.dropReceiver, stepped, Option.getD_none]
      refine kept'.pumpMoves isPump found (by simp) ⟨fits.kind, iff_of_false (by simp) (by simp [returned]),
        by simp, by simp [idle], fits.handing, by rintro _ ⟨⟩, fun uncleared _ => ?_⟩
      exact silent uncleared
  | some link' =>
      simp only [AgentLink.dropReceiver, stepped, Option.getD_some]
      have own : (.drop n : Link.Event Part Command).isOwn n = true := by simp [Event.isOwn]
      have there : (session.link.removeStream call.requestId).calls n = some call := found
      obtain ⟨call', step⟩ := ownStep there own stepped
      refine kept'.ownMoves registered' few found stepped (.inl own)
        (fun m different => Function.update_of_ne different ..) (fun other there => ?_)
        (fun other there => ⟨_, Function.update_self .., fun _ => by simp⟩) (fun free => ?_)
        (by rintro _ ⟨⟩)
      · cases setPump_self there
        have dropped : call'.caller = .dropped ∧ (call'.feeder = call.feeder ∨ call'.feeder = .stopped) := by
          have there := step.found
          simp only [AgentLink.step, AgentLink.removeStream_calls, found, Option.bind_some,
            AgentLink.drop] at stepped
          repeat' split at stepped
          all_goals cases stepped
          all_goals
            simp only [AgentLink.setCall_calls, if_true, Option.some.injEq] at there
            subst there
          all_goals first | exact ⟨rfl, .inl rfl⟩ | exact ⟨rfl, .inr rfl⟩
        obtain ⟨caller, feeder⟩ := dropped
        have idle' : isActive call'.feeder = false := by
          rcases feeder with feeder | feeder <;> rw [feeder]
          · exact idle
          · rfl
        refine ⟨call', step.found, step.kind.trans fits.kind,
          iff_of_false (by simp) (by simp [caller, Caller.isCalling]), by simp, by simp [idle'],
          fun command handing => ?_, by rintro _ ⟨⟩, fun uncleared _ => ?_⟩
        · simp [handing, isActive] at idle'
        · refine Session.Silent.moves (silent ?_) stepped _ (by rintro _ _ ⟨⟩)
          have same := (streamsCleared_step stepped).resolve_right (by simp)
          exact same ▸ uncleared
      · cases isPump.symm.trans free

theorem keeps_begin {kind : Kind} {pumps : Nat → Option Pump} (kept : Kept session)
    (registered : Registered session.link)
    (others : ∀ n, n < session.link.started → pumps n = session.pumps n)
    (mine : ∀ pump, pumps session.link.started = some pump → kind = .streamingReply ∧
      pump.stage = .calling)
    (unknown : ∀ n pump, pumps n = some pump → n ≤ session.link.started) :
    Kept { session with link := session.link.begin kind, pumps } where
  pumps := by
    intro n pump isPump
    rcases Nat.lt_or_eq_of_le (unknown n pump isPump) with below | rfl
    · obtain ⟨call, found, fits⟩ := kept.pumps n pump (others n below ▸ isPump)
      exact ⟨call, (Function.update_of_ne (Nat.ne_of_lt below) ..).trans found,
        fits.keeps rfl rfl rfl (fun isOpen => ⟨isOpen, id⟩) id⟩
    · obtain ⟨rfl, calling⟩ := mine pump isPump
      refine ⟨_, Function.update_self .., rfl, iff_of_true calling rfl, ?_, nofun, nofun, ?_, ?_⟩
      · rintro (isOne | isOne) <;> cases calling.symm.trans isOne
      · intro _ wants
        rw [calling] at wants
        cases wants
      · intro _ isOver
        rw [calling] at isOver
        cases isOver
  others := by
    intro n call found free command handing
    simp only [AgentLink.begin, Function.update_apply] at found
    split at found
    · cases found
      cases handing
    · have below := (registered.known n call found).1
      exact kept.others n call found (others n below ▸ free) command handing
  asked := by
    refine kept.asked.shrink (.refl _) (fun _ there => there) (fun n pump isPump => ?_)
      (fun n below free => (others n below).trans free) (Nat.le_succ _)
    obtain ⟨call, found, _⟩ := kept.pumps n pump isPump
    exact ⟨pump, (others n (registered.known n call found).1).trans isPump, id⟩
  told := by
    rintro id part (ofLink | back)
    · have moved : session.link.step (.begin kind) = some (session.link.begin kind) := rfl
      rcases brings_step registered moved ofLink with before | isArrival
      · exact kept.told id part (.inl before)
      · cases isArrival
    · exact kept.told id part (.inr back)

theorem keeps_ofSession (kept : Kept session) (registered : Registered session.link)
    (stepped : session.ofSession event = some session') : Kept session' := by
  simp only [ofSession] at stepped
  split at stepped
  · rename_i isOf
    obtain ⟨link', moved, rfl⟩ := Option.map_eq_some_iff.1 stepped
    have isOf' : event.isOfSession = true := by
      cases event <;> first | exact isOf | rfl
    have calls : ∀ n call', link'.calls n = some call' → ∃ call, session.link.calls n = some call ∧
        call'.kind = call.kind ∧ call'.caller = call.caller ∧ call'.feeder = call.feeder := by
      intro n call' there
      rcases session_calls isOf' moved n with same | ⟨call, inbox, found, same⟩
      · exact ⟨call', same ▸ there, rfl, rfl, rfl⟩
      · cases same.symm.trans there
        exact ⟨call, found, rfl, rfl, rfl⟩
    have still : ∀ n call, session.link.calls n = some call → ∃ call', link'.calls n = some call' := by
      intro n call found
      rcases session_calls isOf' moved n with same | ⟨_, _, _, same⟩
      · exact ⟨call, same.trans found⟩
      · exact ⟨_, same⟩
    have streams : link'.streamsCleared = false → session.link.streamsCleared = false ∧
        ∀ n, session.link.streams (requestIdOf n) = some n →
          link'.streams (requestIdOf n) = some n := by
      intro uncleared
      have notClear : event ≠ .clearStreams := by
        rintro rfl
        simp only [AgentLink.step] at moved
        split at moved <;> cases moved
        cases uncleared
      refine ⟨((streamsCleared_step moved).resolve_right notClear).symm.trans uncleared,
        fun n there => ?_⟩
      rcases streams_after moved there with same | isClear | isEnd | ⟨_, _, _, _, ⟨isOne, _⟩ | ⟨isOne, _⟩⟩
      · exact same
      · exact absurd isClear notClear
      · cases isEnd
        cases isOf'
      · cases isOne
        cases isOf'
      · cases isOne
        cases isOf'
    have notSent : ∀ n : Nat, event ≠ .handed n := by
      rintro n rfl
      cases isOf'
    refine ⟨fun n pump isPump => ?_, fun n call' there free command handing => ?_, ?_, ?_⟩
    · obtain ⟨call, found, fits⟩ := kept.pumps n pump isPump
      obtain ⟨call', there⟩ := still n call found
      obtain ⟨_, found', kind, caller, feeder⟩ := calls n call' there
      cases found.symm.trans found'
      refine ⟨call', there, fits.keeps kind caller feeder
        (fun isOpen => ⟨(streams isOpen).1, (streams isOpen).2 n⟩) fun silent => ?_⟩
      exact silent.moves moved session.pumps fun n _ isHanded => absurd isHanded (notSent n)
    · obtain ⟨call, found, _, _, feeder⟩ := calls n call' there
      exact kept.others n call found free command (feeder ▸ handing)
    · rcases asking_step moved session.pumps with ⟨fewer, foreign⟩ | ⟨n, _, _, isHanded, _⟩
      · refine kept.asked.shrink (fewer.append_left _) foreign (fun _ pump isPump => ⟨pump, isPump, id⟩)
          (fun _ _ free => free) (Nat.le_of_eq ?_)
        cases AgentLink.step_effect moved with
        | quiet _ quieter => exact quieter.started.symm
        | begin => cases isOf'
        | registerStream | registerPending | reply | noReply | yield | ended | finished | skipped
        | read | matched | unmatched | unheard | handed | unknown | answered | forgotten => rfl
      · exact absurd isHanded (notSent n)
    · rintro id part (ofLink | back)
      · rcases brings_step registered moved ofLink with before | rfl
        · exact kept.told id part (.inl before)
        · cases isOf
      · exact kept.told id part (.inr back)
  · cases stepped

end Link

/-! Runs. -/

/-- No `LogPump` is refused, and no session ends while a task of it follows a container's logs. -/
def Orderly (x : State) : Event → Prop
  | .tryNew s n => ∀ session pump, x.sessions s = some session → session.pumps n = some pump →
      x.registry pump.deploymentId = none
  | .endSession s => ∀ session, x.sessions s = some session → ∀ handler ∈ session.handlers,
      handler.stage = .sendingFinal ∨ handler.stage = .done
  | _ => True

/-- Once the session is over, its tasks have nothing left but their last message. -/
def Over (session : Session) : Prop :=
  session.ended = true → session.coming = [] ∧ session.outboxOpen = false ∧
    ∀ handler ∈ session.handlers, handler.stage = .sendingFinal ∨ handler.stage = .done

structure Held (session : Session) : Prop where
  registered : Registered session.link
  kept : session.link.started ≤ 2 ^ 64 → Kept session
  finished : Over session

theorem held_new : Held Session.new := by
  refine ⟨registered_new, fun _ => ⟨fun _ _ found => (nomatch found),
    fun _ _ found => (nomatch found),
    ⟨List.nodup_nil, fun _ found => (nomatch found), fun _ found => (nomatch found)⟩, ?_⟩,
    fun ended => (nomatch ended)⟩
  rintro id part ((inbound | routing | unmatched | ⟨_, _, found, _⟩) | out | delivered)
  · cases inbound
  · cases routing
  · cases unmatched
  · cases found
  · cases out
  · cases delivered

/-- A step of the link, with what the pumps make of it. -/
theorem Held.link {event : Link.Event Part Command} {pumps : Nat → Option Pump} (held : Held session)
    (moved : session.link.step event = some link')
    (kept : session.link.started ≤ 2 ^ 64 → Kept session →
      Kept { session with link := link', pumps }) : Held { session with link := link', pumps } where
  registered := held.registered.moves (AgentLink.step_effect moved)
  kept := fun few =>
    have before := Nat.le_trans (started_le (AgentLink.step_effect moved)) few
    kept before (held.kept before)
  finished := held.finished

theorem held_callStep {event : Link.Event Part Command} (held : Held session)
    (isPump : session.pumps n = some pump) (asks : isCall n event = true)
    (stepped : session.callStep n pump event = some session') : Held session' := by
  have keeps := fun few kept => keeps_call kept held.registered few isPump asks stepped
  simp only [callStep, Option.bind_eq_some_iff, Option.map_eq_some_iff] at stepped
  obtain ⟨link', moved, call', found', rfl⟩ := stepped
  exact held.link moved keeps

theorem held_receive (held : Held session) (isPump : session.pumps n = some pump)
    (found : session.link.calls n = some call)
    (stepped : session.receive n pump call = some session') : Held session' := by
  have keeps := fun few kept => keeps_receive kept held.registered few isPump found stepped
  simp only [receive] at stepped
  split at stepped
  · obtain ⟨link', moved, rfl⟩ := Option.map_eq_some_iff.1 stepped
    exact held.link moved keeps
  · cases stepped

theorem held_ofOther {event : Link.Event Part Command} (held : Held session)
    (found : session.link.calls n = some call)
    (stepped : session.ofOther n call event = some session') : Held session' := by
  have keeps := fun few kept => keeps_ofOther kept held.registered few found stepped
  simp only [ofOther] at stepped
  split at stepped
  · obtain ⟨link', moved, rfl⟩ := Option.map_eq_some_iff.1 stepped
    exact held.link moved keeps
  · cases stepped

theorem held_ofSession {event : Link.Event Part Command} (held : Held session)
    (stepped : session.ofSession event = some session') : Held session' := by
  have keeps := fun kept => keeps_ofSession kept held.registered stepped
  simp only [ofSession] at stepped
  split at stepped
  · obtain ⟨link', moved, rfl⟩ := Option.map_eq_some_iff.1 stepped
    exact held.link moved fun _ => keeps
  · cases stepped

theorem held_begin {kind : Kind} {pumps : Nat → Option Pump} (held : Held session)
    (others : ∀ n, n < session.link.started → pumps n = session.pumps n)
    (mine : Kept session → ∀ pump, pumps session.link.started = some pump →
      kind = .streamingReply ∧ pump.stage = .calling)
    (unknown : Kept session → ∀ n pump, pumps n = some pump → n ≤ session.link.started) :
    Held { session with link := session.link.begin kind, pumps } :=
  have moved : session.link.step (.begin kind) = some (session.link.begin kind) := rfl
  held.link moved fun _ kept =>
    keeps_begin kept held.registered others (mine kept) (unknown kept)

theorem held_deliver (held : Held session) (stepped : session.deliver = some session') :
    Held session' := by
  have keeps := fun kept => keeps_deliver kept stepped
  simp only [deliver] at stepped
  split at stepped
  · cases stepped
  · split at stepped
    · cases stepped
    · rename_i running
      obtain ⟨link', moved, rfl⟩ := Option.map_eq_some_iff.1 stepped
      refine ⟨held.registered.moves (AgentLink.step_effect moved), fun few => keeps (held.kept ?_),
        fun isOver => absurd isOver running⟩
      exact Nat.le_trans (started_le (AgentLink.step_effect moved)) few

theorem held_arrive (held : Held session) (stepped : session.arrive = some session') :
    Held session' := by
  have keeps := fun kept => keeps_arrive kept held.registered stepped
  simp only [arrive] at stepped
  split at stepped
  · cases stepped
  · obtain ⟨link', moved, rfl⟩ := Option.map_eq_some_iff.1 stepped
    refine ⟨held.registered.moves (AgentLink.step_effect moved), fun few => keeps (held.kept ?_),
      held.finished⟩
    exact Nat.le_trans (started_le (AgentLink.step_effect moved)) few

/-- The agent moves, and the link stays as it is. -/
theorem Held.agent (held : Held session) (same : session'.link = session.link)
    (kept : Kept session → Kept session') (finished : Over session → Over session') : Held session' :=
  ⟨same ▸ held.registered, fun few => kept (held.kept (same ▸ few)), finished held.finished⟩

theorem held_take (held : Held session) (stepped : session.take = some session') : Held session' := by
  have keeps := fun kept => keeps_take kept stepped
  simp only [take] at stepped
  split at stepped <;> cases stepped
  all_goals
    rename_i coming
    refine held.agent rfl keeps fun finished ended => ?_
    cases coming.symm.trans (finished ended).1

theorem held_source {handler : Handler} {data : Option Bytes} (held : Held session)
    (found : session.handlers[h]? = some handler)
    (stepped : session.source h handler data = some session') : Held session' := by
  have keeps := fun kept => keeps_source kept found stepped
  simp only [source] at stepped
  split at stepped <;> cases stepped
  rename_i following
  refine held.agent rfl keeps fun finished ended => ?_
  have isLast := (finished ended).2.2 handler (List.mem_of_getElem? found)
  rw [following] at isLast
  rcases isLast with isLast | isLast <;> cases isLast

theorem held_send {handler : Handler} (held : Held session)
    (found : session.handlers[h]? = some handler)
    (stepped : session.send h handler = some session') : Held session' := by
  have keeps := fun kept => keeps_send kept found stepped
  have isThere := List.mem_of_getElem? found
  have sends : ∀ message stage sent, session.sendOut message = some sent →
      (Over session → session.ended = true → stage = .done) →
        sent.link = session.link ∧ (Over session → Over (sent.setHandler h { handler with stage })) := by
    intro message stage sent out final
    simp only [sendOut] at out
    repeat' split at out
    all_goals cases out
    all_goals
      refine ⟨rfl, fun finished ended =>
        ⟨(finished ended).1, (finished ended).2.1, fun other member => ?_⟩⟩
      rcases List.mem_or_eq_of_mem_set member with before | rfl
      · exact (finished ended).2.2 other before
      · exact .inr (final finished ended)
  simp only [send] at stepped
  split at stepped
  · rename_i data sending
    obtain ⟨sent, out, rfl⟩ := Option.map_eq_some_iff.1 stepped
    obtain ⟨same, finished⟩ := sends _ .following sent out fun finished ended => by
      have isLast := (finished ended).2.2 handler isThere
      rw [sending] at isLast
      rcases isLast with isLast | isLast <;> cases isLast
    exact held.agent same keeps finished
  · obtain ⟨sent, out, rfl⟩ := Option.map_eq_some_iff.1 stepped
    obtain ⟨same, finished⟩ := sends _ .done sent out fun _ _ => rfl
    exact held.agent same keeps finished
  · cases stepped

theorem held_answer {part : Part} (held : Held session)
    (stepped : session.answer id part = some session') : Held session' := by
  have keeps := fun kept => keeps_answer kept stepped
  simp only [answer, sendOut] at stepped
  repeat' split at stepped
  all_goals cases stepped
  all_goals exact held.agent rfl keeps fun finished => finished

theorem held_transmit (held : Held session) (stepped : session.transmit = some session') :
    Held session' := by
  have keeps := fun kept => keeps_transmit kept stepped
  simp only [transmit] at stepped
  split at stepped <;> cases stepped
  exact held.agent rfl keeps fun finished => finished

/-- Every session of the hub's is sound. -/
def Sound (x : State) : Prop := ∀ s session, x.sessions s = some session → Held session

variable {x next : State} {s : Nat}

theorem Sound.set (sound : Sound x) (held : Held session) : Sound (x.setSession s session) := by
  intro other session' there
  by_cases same : other = s
  · subst same
    cases (Function.update_self ..).symm.trans there
    exact held
  · exact sound other session' ((Function.update_of_ne same ..).symm.trans there)

theorem Sound.within (sound : Sound x) {step : Session → Option Session}
    (keeps : ∀ session session', x.sessions s = some session → Held session →
      step session = some session' → Held session') (stepped : x.within s step = some next) :
    Sound next := by
  obtain ⟨session, there, stepped⟩ := Option.bind_eq_some_iff.1 stepped
  obtain ⟨session', moved, rfl⟩ := Option.map_eq_some_iff.1 stepped
  exact sound.set (keeps session session' there (sound s session there) moved)

theorem Sound.ofPump (sound : Sound x) {event : Link.Event Part Command}
    (asks : isCall n event = true) (stepped : x.ofPump s n event = some next) : Sound next := by
  refine sound.within (fun session session' _ held moved => ?_) stepped
  obtain ⟨pump, isPump, moved⟩ := Option.bind_eq_some_iff.1 moved
  exact held_callStep held isPump asks moved

theorem sound_tryNew (sound : Sound x) (orderly : Orderly x (.tryNew s n))
    (stepped : x.tryNew s n = some next) : Sound next := by
  obtain ⟨session, there, stepped⟩ := Option.bind_eq_some_iff.1 stepped
  obtain ⟨pump, isPump, stepped⟩ := Option.bind_eq_some_iff.1 stepped
  have held := sound s session there
  have free := orderly session pump there isPump
  split at stepped
  · rename_i opening _
    cases stepped
    refine sound.set ⟨held.registered, fun few => ?_, held.finished⟩
    have kept := held.kept few
    obtain ⟨call, found, fits⟩ := kept.pumps n pump isPump
    have notCalling : call.caller.isCalling ≠ true := fun calling =>
      nomatch opening.symm.trans (fits.calling.2 calling)
    refine kept.pumpMoves isPump found (by simp) ⟨fits.kind, iff_of_false (by simp) notCalling,
      fun _ => fits.listening (.inl opening), fits.feeding, fits.handing, fun uncleared _ => ?_,
      fun _ isOver => nomatch isOver⟩
    exact fits.registered uncleared (by rw [opening]; rfl)
  · rename_i occupied
    cases free.symm.trans occupied
  · cases stepped

theorem sound_endStream (sound : Sound x) (stepped : x.endStream s n = some next) : Sound next := by
  obtain ⟨session, there, stepped⟩ := Option.bind_eq_some_iff.1 stepped
  obtain ⟨pump, isPump, stepped⟩ := Option.bind_eq_some_iff.1 stepped
  obtain ⟨call, found, stepped⟩ := Option.bind_eq_some_iff.1 stepped
  have held := sound s session there
  have ended : ∀ holdsPump, pump.stage = .ending holdsPump →
      Held ({ session with
        link := (session.link.removeStream call.requestId).dropReceiver n }.setPump n
          { pump with stage := .done }) := by
    intro holdsPump ending
    have moved : session.link.step (.endStream call.requestId) =
        some (session.link.removeStream call.requestId) := rfl
    have registered := held.registered.moves (AgentLink.step_effect moved)
    cases dropped : (session.link.removeStream call.requestId).step (.drop n) with
    | none =>
        have same : (session.link.removeStream call.requestId).dropReceiver n =
            session.link.removeStream call.requestId := by simp [AgentLink.dropReceiver, dropped]
        refine ⟨?_, fun few => ?_, held.finished⟩
        · show Registered ((session.link.removeStream call.requestId).dropReceiver n)
          rw [same]
          exact registered
        · simp only [setPump, same] at few
          exact keeps_ended (held.kept few) held.registered few isPump found ending
    | some link' =>
        have same : (session.link.removeStream call.requestId).dropReceiver n = link' := by
          simp [AgentLink.dropReceiver, dropped]
        refine ⟨?_, fun few => ?_, held.finished⟩
        · show Registered ((session.link.removeStream call.requestId).dropReceiver n)
          rw [same]
          exact registered.moves (AgentLink.step_effect dropped)
        · simp only [setPump, same] at few
          have later : (session.link.removeStream call.requestId).started ≤ link'.started :=
            started_le (AgentLink.step_effect dropped)
          have few' : session.link.started ≤ 2 ^ 64 := Nat.le_trans later few
          exact keeps_ended (held.kept few') held.registered few' isPump found ending
  split at stepped <;> cases stepped
  · exact sound.set (ended _ (by assumption))
  · exact sound.set (ended _ (by assumption))

theorem sound_step {event : Event} (sound : Sound x) (orderly : Orderly x event)
    (stepped : x.step event = some next) : Sound next := by
  cases event with
  | connect =>
      cases stepped
      exact sound.set held_new
  | spawn s containerName deploymentId =>
      refine sound.within (fun session session' _ held moved => ?_) stepped
      cases moved
      refine held_begin held (fun n below => Function.update_of_ne (Nat.ne_of_lt below) ..)
        (fun _ pump isPump => ?_) fun kept n pump isPump => ?_
      · cases setPump_self isPump
        exact ⟨rfl, rfl⟩
      · simp only [Function.update_apply] at isPump
        split at isPump
        · exact Nat.le_of_eq (by assumption)
        · obtain ⟨call, found, _⟩ := kept.pumps n pump isPump
          exact Nat.le_of_lt (held.registered.known n call found).1
  | begin s kind =>
      refine sound.within (fun session session' _ held moved => ?_) stepped
      cases moved
      refine held_begin held (fun _ _ => rfl) (fun kept pump isPump => ?_) fun kept n pump isPump => ?_
      · obtain ⟨call, found, _⟩ := kept.pumps _ pump isPump
        exact absurd (held.registered.known _ call found).1 (Nat.lt_irrefl _)
      · obtain ⟨call, found, _⟩ := kept.pumps n pump isPump
        exact Nat.le_of_lt (held.registered.known n call found).1
  | register s n | readOutbound s n | handed s n | unregister s n =>
      exact sound.ofPump (by simp [isCall]) stepped
  | request s n =>
      refine sound.within (fun session session' _ held moved => ?_) stepped
      obtain ⟨pump, isPump, moved⟩ := Option.bind_eq_some_iff.1 moved
      exact held_callStep held isPump (by simp [isCall, Command.isLogs]) moved
  | tryNew s n => exact sound_tryNew sound orderly stepped
  | receive s n =>
      refine sound.within (fun session session' _ held moved => ?_) stepped
      obtain ⟨pump, isPump, moved⟩ := Option.bind_eq_some_iff.1 moved
      obtain ⟨call, found, moved⟩ := Option.bind_eq_some_iff.1 moved
      exact held_receive held isPump found moved
  | endStream s n => exact sound_endStream sound stepped
  | occupy deploymentId | vacate deploymentId =>
      simp only [State.step] at stepped
      split at stepped <;> cases stepped
      exact sound
  | ofOther s n event =>
      refine sound.within (fun session session' _ held moved => ?_) stepped
      obtain ⟨call, found, moved⟩ := Option.bind_eq_some_iff.1 moved
      exact held_ofOther held found moved
  | ofSession s event =>
      exact sound.within (fun session session' _ held moved => held_ofSession held moved) stepped
  | deliver s => exact sound.within (fun session session' _ held moved => held_deliver held moved) stepped
  | take s => exact sound.within (fun session session' _ held moved => held_take held moved) stepped
  | source s h data =>
      refine sound.within (fun session session' _ held moved => ?_) stepped
      obtain ⟨handler, found, moved⟩ := Option.bind_eq_some_iff.1 moved
      exact held_source held found moved
  | send s h =>
      refine sound.within (fun session session' _ held moved => ?_) stepped
      obtain ⟨handler, found, moved⟩ := Option.bind_eq_some_iff.1 moved
      exact held_send held found moved
  | answer s requestId part =>
      exact sound.within (fun session session' _ held moved => held_answer held moved) stepped
  | transmit s =>
      exact sound.within (fun session session' _ held moved => held_transmit held moved) stepped
  | arrive s => exact sound.within (fun session session' _ held moved => held_arrive held moved) stepped
  | closeOutbox s =>
      refine sound.within (fun session session' _ held moved => ?_) stepped
      cases moved
      exact held.agent rfl keeps_closeOutbox fun finished ended =>
        ⟨(finished ended).1, rfl, (finished ended).2.2⟩
  | endSession s =>
      refine sound.within (fun session session' there held moved => ?_) stepped
      cases moved
      exact held.agent rfl keeps_endSession fun _ _ => ⟨rfl, rfl, orderly session there⟩

theorem sound_of_run {history : List (State × Event)} (run : machine.Run Orderly history x) :
    Sound x := by
  refine run.invariant (fun _ x => Sound x) ?_ ?_
  · rintro x rfl s session found
    cases found
  · exact fun _ _ _ _ sound stepped orderly => sound_step sound orderly stepped

/-- Every live task is registered: its request has been sent, and its pump still listens. -/
theorem Kept.live_le (kept : Kept session) (registered : Registered session.link)
    (uncleared : session.link.streamsCleared = false) :
    session.live ≤ session.registeredIds.card := by
  let ids := (session.handlers.filter Handler.isLive).map Handler.requestId
  have nodup : ids.Nodup :=
    (List.nodup_append.1 kept.asked.nodup).1.sublist (List.filter_sublist.map _)
  have among : ids.toFinset ⊆ session.registeredIds := by
    intro id member
    obtain ⟨handler, isLive, rfl⟩ := List.mem_map.1 (List.mem_toFinset.1 member)
    obtain ⟨isThere, isLive⟩ := List.mem_filter.1 isLive
    obtain ⟨n, pump, isId, isPump, begun⟩ :=
      kept.asked.sent handler.requestId (List.mem_append_left _ (List.mem_map_of_mem isThere))
    obtain ⟨call, found, fits⟩ := kept.pumps n pump isPump
    refine (mem_registeredIds registered).2 ⟨n, isId ▸ fits.registered uncleared ?_⟩
    cases stage : pump.stage with
    | calling => exact absurd stage begun
    | opening | pumping => rfl
    | ending holdsPump | done =>
        have silent := fits.silent uncleared (by rw [stage]; rfl)
        have isDone := silent.2 handler isThere isId
        simp [Handler.isLive, isDone] at isLive
  calc session.live = ids.length := (List.length_map ..).symm
    _ = ids.toFinset.card := (List.toFinset_card_of_nodup nodup).symm
    _ ≤ session.registeredIds.card := Finset.card_le_card among

/-- What becomes of the tasks that follow logs. -/
structure Stopped (x : State) (s : Nat) (session : Session) : Prop where
  /-- While the session is open, every live task is accounted for. -/
  counted : session.isOpen = true → session.link.started ≤ 2 ^ 64 →
    session.live ≤ session.inFlight + session.registeredIds.card
  /-- Once it is over, a task that is left ends by its own next step. -/
  finishes : session.ended = true → ∀ h handler, session.handlers[h]? = some handler →
    handler.isLive = true → ∃ next after, x.step (.send s h) = some next ∧
      next.sessions s = some after ∧
        (after.handlers[h]?).map (fun handler => handler.isLive) = some false

theorem followers_stop {history : List (State × Event)} (run : machine.Run Orderly history x)
    (found : x.sessions s = some session) : Stopped x s session := by
  have held := sound_of_run run s session found
  constructor
  · intro opened few
    simp only [isOpen, Bool.and_eq_true, Bool.not_eq_true'] at opened
    have bound := (held.kept few).live_le held.registered opened.1
    omega
  · intro ended h handler isThere isLive
    obtain ⟨_, closed, last⟩ := held.finished ended
    rcases last handler (List.mem_of_getElem? isThere) with sendingFinal | isDone
    · obtain ⟨inside, _⟩ := List.getElem?_eq_some_iff.1 isThere
      let after := session.setHandler h { handler with stage := .done }
      have sent : session.send h handler = some after := by
        simp [send, sendingFinal, sendOut, closed, after]
      refine ⟨x.setSession s after, after, ?_, Function.update_self .., ?_⟩
      · simp only [State.step, State.within, found, isThere, Option.bind_some, sent, Option.map_some]
      · simp [after, setHandler, inside, Handler.isLive]
    · simp [Handler.isLive, isDone] at isLive

/-! Whether a step is orderly can be looked up. -/

def isOrderly (x : State) : Event → Bool
  | .tryNew s n => (x.sessions s).all fun session => (session.pumps n).all fun pump =>
      x.registry pump.deploymentId = none
  | .endSession s => (x.sessions s).all fun session => session.handlers.all fun handler =>
      handler.stage = .sendingFinal ∨ handler.stage = .done
  | _ => true

theorem orderly_of_isOrderly (x : State) (event : Event) (checked : isOrderly x event = true) :
    Orderly x event := by
  cases event with
  | tryNew s n =>
      intro session pump there isPump
      simpa [isOrderly, there, isPump] using checked
  | endSession s =>
      intro session there
      simpa [isOrderly, there] using checked
  | connect | spawn _ _ _ | register _ _ | readOutbound _ _ | request _ _ | handed _ _
  | unregister _ _ | receive _ _ | endStream _ _ | occupy _ | vacate _ | begin _ _ | ofOther _ _ _
  | ofSession _ _ | deliver _ | take _ | source _ _ _ | send _ _ | answer _ _ _ | transmit _
  | arrive _ | closeOutbox _ => trivial

/-- A pump is spawned and sends its request, which the agent takes. -/
def follows (n : Nat) : List Event :=
  [.spawn 0 "berth-app" "2222", .register 0 n, .readOutbound 0 n, .request 0 n, .handed 0 n]

/-- The app's logs are pumped already when another pass opens a redundant stream, and closes it. -/
def reconciledTwice : List Event :=
  [.connect, .ofSession 0 .setOutbound] ++ follows 0 ++ [.tryNew 0 0, .deliver 0, .take 0] ++
    follows 1 ++ [.tryNew 0 1, .endStream 0 1, .deliver 0, .take 0]

/-- Two tasks follow the container's logs, one stream is registered, and nothing is in flight. -/
theorem redundant_follower : ∃ x session, machine.Reachable x ∧ x.sessions 0 = some session ∧
    session.isOpen = true ∧ session.outboxOpen = true ∧ session.link.outbound = .attached ∧
      session.live = 2 ∧ session.inFlight = 0 ∧ session.registeredIds.card = 1 := by
  obtain ⟨x, reachable, held⟩ := Machine.exists_of_play machine (fun _ _ => True) (fun _ _ => true)
    (fun x => (x.sessions 0).any fun session => session.isOpen = true ∧ session.outboxOpen = true ∧
      session.link.outbound = .attached ∧ session.live = 2 ∧ session.inFlight = 0 ∧
        session.registeredIds.card = 1)
    (fun _ _ _ => trivial) rfl reconciledTwice (by decide +kernel)
  obtain ⟨session, there, held⟩ := (Option.any_eq_true _ _).1 held
  exact ⟨x, session, reachable, there, of_decide_eq_true held⟩

/-- One app's logs are followed to their end, another's still are. -/
def followedTwice : List Event :=
  [.connect, .ofSession 0 .setOutbound] ++ follows 0 ++ [.tryNew 0 0, .deliver 0, .take 0,
    .source 0 0 (some [104, 105]), .send 0 0, .source 0 0 none, .send 0 0, .transmit 0, .arrive 0,
    .transmit 0, .arrive 0] ++ [.spawn 0 "berth-other" "3333", .register 0 1, .readOutbound 0 1,
    .request 0 1, .handed 0 1, .tryNew 0 1, .deliver 0, .take 0]

theorem followers_stop_twice : ∃ (history : List (State × Event)) (x : State) (session : Session),
    machine.Run Orderly history x ∧ x.sessions 0 = some session ∧ session.handlers.length = 2 ∧
      session.live = 1 ∧ session.live ≤ session.inFlight + session.registeredIds.card := by
  obtain ⟨x, ⟨history, run⟩, held⟩ := Machine.exists_of_play machine Orderly isOrderly
    (fun x => (x.sessions 0).any fun session => session.handlers.length = 2 ∧ session.live = 1 ∧
      session.isOpen = true ∧ session.link.started ≤ 2 ^ 64)
    orderly_of_isOrderly rfl followedTwice (by decide +kernel)
  obtain ⟨session, there, held⟩ := (Option.any_eq_true _ _).1 held
  obtain ⟨length, live, opened, few⟩ := of_decide_eq_true held
  exact ⟨history, x, session, run, there, length, live, (followers_stop run there).counted opened few⟩

end Berth.RunLogs
