import Berth.Session.Proxy

/-!
Who ends the registration of a relayed request. It is owed by the handler, by the upgraded
connection, by the response's body or by the task of its guard, one after the other.
-/

namespace Berth.Proxy

open Interleave Link

variable {x next : Proxies} {event : Event} {n : Nat} {exchange exchange' : Exchange}
variable {call call' : Call Part RelayHttpRequest} {link link' : AgentLink Part RelayHttpRequest}

/-- The handler waits for its call exactly until the call returns. -/
structure Fits (exchange : Exchange) (call : Call Part RelayHttpRequest) : Prop where
  kind : call.kind = .bidiStreamed
  calling : exchange.serve = .calling ↔ call.caller.isCalling = true

/-- Every call is that of an exchange. -/
structure Tied (x : Proxies) : Prop where
  registered : Registered x.link
  calls : ∀ n call, x.link.calls n = some call →
    ∃ exchange, x.exchanges n = some exchange ∧ Fits exchange call

/-- Somebody is still going to end every registration. -/
def Owed (x : Proxies) : Prop :=
  ∀ requestId n, x.link.streams requestId = some n →
    ∃ exchange, x.exchanges n = some exchange ∧ exchange.serve ≠ .done

/-- A guarded step: the handler is not dropped while the request is registered without a guard,
and the response to an upgrade can be built. -/
def Guarded (x : Proxies) : Event → Prop
  | .disconnect n _ => ∀ exchange call, x.exchanges n = some exchange → x.link.calls n = some call →
      exchange.serve = .streaming ∨ x.link.streams call.requestId ≠ some n
  | .reply n => ∀ exchange call head, x.exchanges n = some exchange → x.link.calls n = some call →
      call.inbox.head? = some (some (.head head)) →
        isUpgradeRequest exchange.parts.headers = true → statusFrom head.status = 101 →
          (buildHeaders head.headers).isSome = true
  | _ => True

section Steps

theorem Tied.set (tied : Tied x) (registered : Registered link')
    (own : OwnStep x.link link' n call call') (fits : Fits exchange' call') :
    Tied (({ x with link := link' } : Proxies).setExchange n exchange') := by
  refine ⟨registered, fun m other found => ?_⟩
  simp only [Proxies.setExchange] at found ⊢
  by_cases same : m = n
  · subst same
    rw [own.found] at found
    cases found
    exact ⟨exchange', Function.update_self .., fits⟩
  · rw [own.others m same] at found
    obtain ⟨exchange, there, fits⟩ := tied.calls m other found
    exact ⟨exchange, (Function.update_of_ne same ..).trans there, fits⟩

/-- The exchange that moves may only be done once it is registered nowhere. -/
theorem Owed.set (owed : Owed x)
    (streams : ∀ requestId m, link'.streams requestId = some m →
      x.link.streams requestId = some m ∨ m = n)
    (mine : exchange'.serve = .done → ∀ requestId, link'.streams requestId ≠ some n) :
    Owed (({ x with link := link' } : Proxies).setExchange n exchange') := by
  intro requestId m there
  simp only [Proxies.setExchange]
  by_cases same : m = n
  · subst same
    exact ⟨exchange', Function.update_self .., fun isDone => mine isDone requestId there⟩
  · obtain ⟨exchange, found, busy⟩ := owed requestId m ((streams requestId m there).resolve_right same)
    exact ⟨exchange, (Function.update_of_ne same ..).trans found, busy⟩

theorem registered_step (registered : Registered link) {ofLink : Link.Event Part RelayHttpRequest}
    (stepped : link.step ofLink = some link') : Registered link' :=
  registered.moves (AgentLink.step_effect stepped)

/-- What dropping the receiver does, whether or not there still is one. -/
theorem dropReceiver_spec (registered : Registered link) (found : link.calls n = some call)
    (bidi : call.kind = .bidiStreamed) :
    Registered (link.dropReceiver n) ∧
      (∀ requestId m, (link.dropReceiver n).streams requestId = some m →
        link.streams requestId = some m) ∧
      ∃ call', OwnStep link (link.dropReceiver n) n call call' ∧
        call'.caller.isCalling = false := by
  cases stepped : link.step (.drop n) with
  | none =>
      have same : link.dropReceiver n = link := by simp [AgentLink.dropReceiver, stepped]
      rw [same]
      refine ⟨registered, fun _ _ => id, call, .refl found, ?_⟩
      cases caller : call.caller with
      | registering | readingOutbound | feeding | listening | waiting | expired =>
          simp [AgentLink.step, found, AgentLink.drop, caller] at stepped
      | replied _ | ended | failed _ | dropped => rfl
  | some dropped =>
      have same : link.dropReceiver n = dropped := by simp [AgentLink.dropReceiver, stepped]
      rw [same]
      have isOwn : (Link.Event.drop n : Link.Event Part RelayHttpRequest).isOwn n = true := by
        simp [Event.isOwn]
      obtain ⟨call', own⟩ := ownStep found isOwn stepped
      refine ⟨registered_step registered stepped, fun requestId m there => ?_, call', own, ?_⟩
      · exact (streams_before stepped there).resolve_right (by rintro ⟨⟨⟩, _⟩)
      · rw [bidi_caller found bidi stepped own.found isOwn]
        rfl

theorem streams_own {ofLink : Link.Event Part RelayHttpRequest}
    (isOwn : ofLink.isOwn n = true) (stepped : link.step ofLink = some link') (requestId m : Nat)
    (there : link'.streams requestId = some m) : link.streams requestId = some m ∨ m = n := by
  rcases streams_before stepped there with before | ⟨rfl, _⟩
  · exact .inl before
  · exact .inr (of_decide_eq_true isOwn)

theorem keeps_feed (tied : Tied x) (owed : Owed x) (found : x.link.calls n = some call)
    (there : x.exchanges n = some exchange)
    (stepped : Proxies.feedStep exchange call = some exchange') :
    Tied (x.setExchange n exchange') ∧ Owed (x.setExchange n exchange') := by
  have serve : exchange'.serve = exchange.serve := by
    simp only [Proxies.feedStep, Proxies.sendOut] at stepped
    repeat' split at stepped
    all_goals cases stepped
    all_goals rfl
  obtain ⟨_, same, fits⟩ := tied.calls n call found
  cases there.symm.trans same
  refine ⟨tied.set tied.registered (.refl found) ⟨fits.kind, serve ▸ fits.calling⟩,
    owed.set (fun _ _ => .inl) fun isDone requestId registered => ?_⟩
  obtain ⟨_, same, busy⟩ := owed requestId n registered
  cases there.symm.trans same
  exact busy (serve.symm.trans isDone)

theorem settle_calling {caller : Caller Part} (calling : exchange.serve = .calling) :
    (Proxies.settle exchange caller).serve =
      match caller with
      | .listening => .awaitingHead
      | .failed _ => .done
      | _ => .calling := by
  simp only [Proxies.settle, calling]
  cases caller <;> simp [calling]

theorem settle_settled {caller : Caller Part} (settled : exchange.serve ≠ .calling) :
    Proxies.settle exchange caller = exchange := by
  unfold Proxies.settle
  split <;> first | rfl | contradiction

/-- What `callStep` may be about. -/
def isCallEvent (n : Nat) : Link.Event Part RelayHttpRequest → Bool
  | .register m | .readOutbound m | .unregister m | .handed m => m = n
  | _ => false

/-- The call goes on, returns its receiver, or fails after it has given its registration back. -/
inductive Proceeds (link' : AgentLink Part RelayHttpRequest) (call call' : Call Part RelayHttpRequest) :
    Prop
  | on (same : call'.caller.isCalling = call.caller.isCalling)
  | returned (calling : call.caller.isCalling = true) (listening : call'.caller = .listening)
  | failed (calling : call.caller.isCalling = true) (err : AppError)
      (failed : call'.caller = .failed err) (gone : link'.streams call.requestId = none)

theorem proceeds {ofLink : Link.Event Part RelayHttpRequest} (isCall : isCallEvent n ofLink = true)
    (found : link.calls n = some call) (bidi : call.kind = .bidiStreamed)
    (stepped : link.step ofLink = some link') (found' : link'.calls n = some call') :
    Proceeds link' call call' := by
  have caller := bidi_caller found bidi stepped found'
  cases ofLink with
  | register m =>
      obtain ⟨registering, reading⟩ := caller isCall
      exact .on (by simp [registering, reading, Caller.isCalling])
  | readOutbound m =>
      obtain ⟨reading, listening | feeding⟩ := caller isCall
      · exact .returned (by simp [reading, Caller.isCalling]) listening
      · exact .on (by simp [reading, feeding, Caller.isCalling])
  | handed m => exact .on (by rw [caller isCall])
  | unregister m =>
      rcases caller isCall with same | ⟨feeding, failed, gone⟩
      · exact .on (by rw [same])
      · exact .failed (by simp [feeding, Caller.isCalling]) _ failed gone
  | begin _ | nextPayload _ _ | receive _ | timeOut _ | removeExpired _ | drop _ | endStream _
  | setOutbound | transmit | closeWire | arrive _ | hangUp | read | lookUpStream | handOver
  | lookUpPending | clearPending | clearStreams | clearOutbound => cases isCall

theorem keeps_callStep (tied : Tied x) (owed : Owed x) (found : x.link.calls n = some call)
    (there : x.exchanges n = some exchange) {ofLink : Link.Event Part RelayHttpRequest}
    (isCall : isCallEvent n ofLink = true)
    (stepped : x.callStep n exchange ofLink = some next) : Tied next ∧ Owed next := by
  simp only [Proxies.callStep, Option.bind_eq_some_iff, Option.map_eq_some_iff] at stepped
  obtain ⟨link', moved, call', found', rfl⟩ := stepped
  have isOwn : ofLink.isOwn n = true := by
    cases ofLink <;> first | exact isCall | cases isCall
  obtain ⟨_, same, fits⟩ := tied.calls n call found
  cases there.symm.trans same
  obtain ⟨_, own⟩ := ownStep found isOwn moved
  cases found'.symm.trans own.found
  have registered := registered_step tied.registered moved
  have streams := streams_own isOwn moved
  -- An exchange that was done before is registered nowhere, and does not register now.
  have wasDone : exchange.serve = .done → ∀ requestId, link'.streams requestId ≠ some n := by
    intro isDone requestId there'
    rcases streams_before moved there' with before | ⟨_, other, found'', registering⟩
    · obtain ⟨_, same, busy⟩ := owed requestId n before
      cases there.symm.trans same
      exact busy isDone
    · cases found.symm.trans found''
      have calling := fits.calling.2 (by simp [registering, Caller.isCalling])
      cases isDone.symm.trans calling
  have bidi := own.kind.trans fits.kind
  cases proceeds isCall found fits.kind moved found' with
  | on same =>
      by_cases calling : exchange.serve = .calling
      · have still : call'.caller.isCalling = true := same.trans (fits.calling.1 calling)
        have serve : (Proxies.settle exchange call'.caller).serve = .calling := by
          rw [settle_calling calling]
          cases caller : call'.caller <;> simp [caller, Caller.isCalling] at still ⊢
        exact ⟨tied.set registered own ⟨bidi, iff_of_true serve still⟩,
          owed.set streams fun isDone => (by cases isDone.symm.trans serve)⟩
      · rw [settle_settled calling]
        exact ⟨tied.set registered own ⟨bidi, by rw [same, fits.calling]⟩, owed.set streams wasDone⟩
  | returned calling listening =>
      have serve : (Proxies.settle exchange call'.caller).serve = .awaitingHead := by
        rw [settle_calling (fits.calling.2 calling), listening]
      exact ⟨tied.set registered own ⟨bidi,
          iff_of_false (by simp [serve]) (by simp [listening, Caller.isCalling])⟩,
        owed.set streams fun isDone => (by cases isDone.symm.trans serve)⟩
  | failed calling err failed gone =>
      have serve : (Proxies.settle exchange call'.caller).serve = .done := by
        rw [settle_calling (fits.calling.2 calling), failed]
      refine ⟨tied.set registered own ⟨bidi,
          iff_of_false (by simp [serve]) (by simp [failed, Caller.isCalling])⟩,
        owed.set streams fun _ requestId there' => ?_⟩
      obtain ⟨_, same, id, _⟩ := registered.streams requestId n there'
      cases found'.symm.trans same
      rw [← id, own.requestId, gone] at there'
      cases there'

theorem keeps_forward (tied : Tied x) (owed : Owed x) (found : x.link.calls n = some call)
    (there : x.exchanges n = some exchange) (stepped : x.forward n exchange = some next) :
    Tied next ∧ Owed next := by
  obtain ⟨_, same, fits⟩ := tied.calls n call found
  cases there.symm.trans same
  have isOwn : ∀ payload, (.nextPayload n payload : Link.Event Part RelayHttpRequest).isOwn n = true :=
    fun payload => by simp [Event.isOwn]
  have keeps : ∀ payload link' outgoing, x.link.step (.nextPayload n payload) = some link' →
      Tied (({ x with link := link' } : Proxies).setExchange n { exchange with outgoing }) ∧
        Owed (({ x with link := link' } : Proxies).setExchange n { exchange with outgoing }) := by
    intro payload link' outgoing moved
    obtain ⟨call', own⟩ := ownStep found (isOwn payload) moved
    have caller := bidi_caller found fits.kind moved own.found (isOwn payload)
    refine ⟨tied.set (registered_step tied.registered moved) own
      ⟨own.kind.trans fits.kind, by rw [caller]; exact fits.calling⟩,
      owed.set (streams_own (isOwn payload) moved) fun isDone requestId there' => ?_⟩
    rcases streams_before moved there' with before | ⟨eq, _⟩
    · obtain ⟨_, same, busy⟩ := owed requestId n before
      cases there.symm.trans same
      exact busy isDone
    · cases eq
  simp only [Proxies.forward] at stepped
  split at stepped
  · obtain ⟨link', moved, rfl⟩ := Option.map_eq_some_iff.1 stepped
    exact keeps _ link' _ moved
  · split at stepped
    · cases stepped
    · obtain ⟨link', moved, rfl⟩ := Option.map_eq_some_iff.1 stepped
      have unchanged : ({ x with link := link' } : Proxies) =
          ({ x with link := link' } : Proxies).setExchange n
            { exchange with outgoing := exchange.outgoing } := by
        simp [Proxies.setExchange, ← there]
      exact unchanged ▸ keeps _ link' _ moved

/-- An exchange whose call has returned moves on. -/
theorem keeps_settled (tied : Tied x) (owed : Owed x) (own : OwnStep x.link link' n call call')
    (bidi : call.kind = .bidiStreamed) (registered : Registered link')
    (streams : ∀ requestId m, link'.streams requestId = some m →
      x.link.streams requestId = some m)
    (returned : call'.caller.isCalling = false) (settled : exchange'.serve ≠ .calling)
    (mine : exchange'.serve = .done → ∀ requestId, link'.streams requestId ≠ some n) :
    Tied (({ x with link := link' } : Proxies).setExchange n exchange') ∧
      Owed (({ x with link := link' } : Proxies).setExchange n exchange') :=
  ⟨tied.set registered own ⟨own.kind.trans bidi, iff_of_false settled (by simp [returned])⟩,
    owed.set (fun requestId m there => .inl (streams requestId m there)) mine⟩

/-- What receiving does to the link, and dropping the receiver afterwards. -/
theorem receive_spec (registered : Registered link) (found : link.calls n = some call)
    (bidi : call.kind = .bidiStreamed) (moved : link.step (.receive n) = some link') :
    Registered link' ∧
      (∀ requestId m, link'.streams requestId = some m → link.streams requestId = some m) ∧
      ∃ call', OwnStep link link' n call call' ∧ call'.caller.isCalling = false := by
  have isOwn : (.receive n : Link.Event Part RelayHttpRequest).isOwn n = true := by
    simp [Event.isOwn]
  obtain ⟨call', own⟩ := ownStep found isOwn moved
  refine ⟨registered_step registered moved, fun requestId m there => ?_, call', own,
    bidi_caller found bidi moved own.found isOwn⟩
  exact (streams_before moved there).resolve_right fun ⟨eq, _⟩ => nomatch eq

theorem receive_dropped_spec (registered : Registered link) (found : link.calls n = some call)
    (bidi : call.kind = .bidiStreamed) (moved : link.step (.receive n) = some link') :
    Registered (link'.dropReceiver n) ∧
      (∀ requestId m, (link'.dropReceiver n).streams requestId = some m →
        link.streams requestId = some m) ∧
      ∃ call', OwnStep link (link'.dropReceiver n) n call call' ∧
        call'.caller.isCalling = false := by
  obtain ⟨registered', streams, call', own, _⟩ := receive_spec registered found bidi moved
  obtain ⟨registered'', streams', call'', own', returned⟩ :=
    dropReceiver_spec registered' own.found (own.kind.trans bidi)
  exact ⟨registered'', fun requestId m there => streams requestId m (streams' requestId m there),
    call'', own.trans own', returned⟩

/-- A registration that is there is under the id of the call. -/
theorem unregistered (registered : Registered link) (found : link.calls n = some call)
    (out : link.streams call.requestId ≠ some n) (requestId : Nat) :
    link.streams requestId ≠ some n := by
  intro there
  obtain ⟨_, same, rfl, _⟩ := registered.streams requestId n there
  cases found.symm.trans same
  exact out there

theorem keeps_reply (tied : Tied x) (owed : Owed x) (found : x.link.calls n = some call)
    (there : x.exchanges n = some exchange) (guarded : Guarded x (.reply n))
    (stepped : x.reply n exchange call = some next) : Tied next ∧ Owed next := by
  obtain ⟨_, same, fits⟩ := tied.calls n call found
  cases there.symm.trans same
  simp only [Proxies.reply] at stepped
  split at stepped
  · obtain ⟨link', moved, rfl⟩ := Option.map_eq_some_iff.1 stepped
    have settled : (Proxies.answered exchange call.inbox.head?).serve ≠ .calling ∧
        (Proxies.answered exchange call.inbox.head?).serve ≠ .done := by
      simp only [Proxies.answered]
      split
      · rename_i head inbox
        split
        · split <;> exact ⟨nofun, nofun⟩
        · rename_i unbuilt
          split
          · rename_i upgrades
            have built := guarded exchange call head there found inbox upgrades.1 upgrades.2
            rw [unbuilt] at built
            cases built
          · exact ⟨nofun, nofun⟩
      · exact ⟨nofun, nofun⟩
    by_cases holds : (Proxies.answered exchange call.inbox.head?).serve.holdsReceiver = true
    · simp only [holds, if_true]
      obtain ⟨registered, streams, call', own, returned⟩ :=
        receive_spec tied.registered found fits.kind moved
      exact keeps_settled tied owed own fits.kind registered streams returned settled.1
        fun isDone => absurd isDone settled.2
    · simp only [holds]
      obtain ⟨registered, streams, call', own, returned⟩ :=
        receive_dropped_spec tied.registered found fits.kind moved
      exact keeps_settled tied owed own fits.kind registered streams returned settled.1
        fun isDone => absurd isDone settled.2
  · cases stepped

theorem fits_of (tied : Tied x) (found : x.link.calls n = some call)
    (there : x.exchanges n = some exchange) : Fits exchange call := by
  obtain ⟨_, same, fits⟩ := tied.calls n call found
  cases there.symm.trans same
  exact fits

/-- A handler whose call has returned, and whose link is left as it is. -/
theorem keeps_serve (tied : Tied x) (owed : Owed x) (found : x.link.calls n = some call)
    (there : x.exchanges n = some exchange) (settled : exchange.serve ≠ .calling)
    (settled' : exchange'.serve ≠ .calling) (busy : exchange'.serve ≠ .done) :
    Tied (x.setExchange n exchange') ∧ Owed (x.setExchange n exchange') := by
  have fits := fits_of tied found there
  have returned : call.caller.isCalling = false := by
    cases calling : call.caller.isCalling with
    | true => exact absurd (fits.calling.2 calling) settled
    | false => rfl
  exact keeps_settled tied owed (.refl found) fits.kind tied.registered (fun _ _ => id) returned
    settled' fun isDone => absurd isDone busy

theorem pumpState_busy (reader : BrowserReader) (writing : Bool) :
    Proxies.pumpState reader writing ≠ .calling ∧ Proxies.pumpState reader writing ≠ .done := by
  cases reader <;> cases writing <;> exact ⟨nofun, nofun⟩

theorem keeps_pump (tied : Tied x) (owed : Owed x) (found : x.link.calls n = some call)
    (there : x.exchanges n = some exchange)
    (stepped : (∃ ok, x.upgraded n exchange ok = some next) ∨
      (∃ data, x.browse n exchange data = some next) ∨ x.pumpSend n exchange call = some next) :
    Tied next ∧ Owed next := by
  have sendsOut : ∀ part (sent failed exchange' : Exchange),
      Proxies.sendOut exchange call part sent failed = some exchange' →
        exchange'.serve = sent.serve ∨ exchange'.serve = failed.serve := by
    intro part sent failed exchange' stepped
    simp only [Proxies.sendOut] at stepped
    repeat' split at stepped
    all_goals cases stepped
    · exact .inr rfl
    · exact .inl rfl
  rcases stepped with ⟨ok, stepped⟩ | ⟨data, stepped⟩ | stepped
  · simp only [Proxies.upgraded] at stepped
    split at stepped <;> cases stepped
    rename_i upgrading
    refine keeps_serve tied owed found there (by simp [upgrading]) ?_ ?_ <;>
      cases ok <;> simp
  · simp only [Proxies.browse] at stepped
    split at stepped
    · split at stepped <;> cases stepped
      rename_i pumping _
      exact keeps_serve tied owed found there (by simp [pumping]) (by simp) (by simp)
    · cases stepped
      rename_i pumping
      exact keeps_serve tied owed found there (by simp [pumping]) (by simp) (by simp)
    · cases stepped
  · simp only [Proxies.pumpSend] at stepped
    split at stepped
    · rename_i pumping
      obtain ⟨exchange', sent, rfl⟩ := Option.map_eq_some_iff.1 stepped
      have serve := sendsOut _ _ _ _ sent
      refine keeps_serve tied owed found there (by simp [pumping]) ?_ ?_ <;>
        rcases serve with serve | serve <;> simp [serve]
    · rename_i pumping
      obtain ⟨exchange', sent, rfl⟩ := Option.map_eq_some_iff.1 stepped
      have serve := (sendsOut _ _ _ _ sent).elim id id
      exact keeps_serve tied owed found there (by simp [pumping])
        (serve ▸ (pumpState_busy _ _).1) (serve ▸ (pumpState_busy _ _).2)
    · cases stepped

theorem keeps_pumpReceive (tied : Tied x) (owed : Owed x) (found : x.link.calls n = some call)
    (there : x.exchanges n = some exchange) {written : Bool}
    (stepped : x.pumpReceive n exchange call written = some next) : Tied next ∧ Owed next := by
  have fits := fits_of tied found there
  simp only [Proxies.pumpReceive] at stepped
  split at stepped
  · obtain ⟨link', moved, rfl⟩ := Option.map_eq_some_iff.1 stepped
    obtain ⟨registered, streams, call', own, returned⟩ :=
      receive_spec tied.registered found fits.kind moved
    exact keeps_settled tied owed own fits.kind registered streams returned
      (pumpState_busy _ _).1 fun isDone => absurd isDone (pumpState_busy _ _).2
  · cases stepped

theorem keeps_poll (tied : Tied x) (owed : Owed x) (found : x.link.calls n = some call)
    (there : x.exchanges n = some exchange) (stepped : x.poll n exchange call = some next) :
    Tied next ∧ Owed next := by
  have fits := fits_of tied found there
  simp only [Proxies.poll] at stepped
  split at stepped
  · rename_i streaming
    obtain ⟨link', moved, rfl⟩ := Option.map_eq_some_iff.1 stepped
    have finishes : ∀ answer, Tied (({ x with link := link'.dropReceiver n } :
          Proxies).setExchange n { exchange with serve := .cleaning, answer }) ∧
        Owed (({ x with link := link'.dropReceiver n } : Proxies).setExchange n
          { exchange with serve := .cleaning, answer }) := by
      intro answer
      obtain ⟨registered, streams, call', own, returned⟩ :=
        receive_dropped_spec tied.registered found fits.kind moved
      exact keeps_settled tied owed own fits.kind registered streams returned nofun nofun
    split
    · split
      · exact finishes _
      · obtain ⟨registered, streams, call', own, returned⟩ :=
          receive_spec tied.registered found fits.kind moved
        exact keeps_settled tied owed own fits.kind registered streams returned
          (by simp [streaming]) (by simp [streaming])
    · exact finishes _
  · cases stepped

theorem keeps_endStream (tied : Tied x) (owed : Owed x) (found : x.link.calls n = some call)
    (there : x.exchanges n = some exchange) (stepped : x.endStream n exchange call = some next) :
    Tied next ∧ Owed next := by
  have fits := fits_of tied found there
  let removed := x.link.removeStream call.requestId
  have gone : ∀ requestId, removed.streams requestId ≠ some n :=
    unregistered (registered_step tied.registered (show x.link.step (.endStream call.requestId) =
      some removed from rfl)) found (by simp [removed])
  have registered : Registered removed := registered_step tied.registered
    (show x.link.step (.endStream call.requestId) = some removed from rfl)
  have found' : removed.calls n = some call := found
  have streams : ∀ requestId m, removed.streams requestId = some m →
      x.link.streams requestId = some m := fun _ _ => AgentLink.removed_sub
  have drops : ∀ answer, Tied (({ x with link := removed.dropReceiver n } :
        Proxies).setExchange n { exchange with serve := .done, answer }) ∧
      Owed (({ x with link := removed.dropReceiver n } : Proxies).setExchange n
        { exchange with serve := .done, answer }) := by
    intro answer
    obtain ⟨registered', streams', call', own, returned⟩ :=
      dropReceiver_spec registered found' fits.kind
    refine keeps_settled tied owed ⟨own.found, own.others, own.started, own.kind, own.requestId⟩
      fits.kind registered' (fun requestId m there => streams _ m (streams' _ m there)) returned
      nofun fun _ requestId there => gone requestId (streams' requestId n there)
  simp only [Proxies.endStream] at stepped
  split at stepped
  · cases stepped
    exact drops badGateway
  · cases stepped
    exact drops exchange.answer
  · rename_i cleaning
    cases stepped
    have returned : call.caller.isCalling = false := by
      cases calling : call.caller.isCalling with
      | true => exact nomatch cleaning.symm.trans (fits.calling.2 calling)
      | false => rfl
    exact keeps_settled tied owed ⟨found, fun _ _ => rfl, rfl, rfl, rfl⟩ fits.kind registered
      streams returned nofun fun _ => gone
  · cases stepped

theorem keeps_disconnect (tied : Tied x) (owed : Owed x) (found : x.link.calls n = some call)
    (there : x.exchanges n = some exchange) {kept : Nat} (guarded : Guarded x (.disconnect n kept))
    (stepped : x.disconnect n exchange kept = some next) : Tied next ∧ Owed next := by
  have fits := fits_of tied found there
  obtain ⟨registered, streams, call', own, returned⟩ :=
    dropReceiver_spec tied.registered found fits.kind
  have unguarded : exchange.serve ≠ .streaming → ∀ requestId,
      (x.link.dropReceiver n).streams requestId ≠ some n := by
    intro others requestId there'
    have out := (guarded exchange call there found).resolve_left others
    exact unregistered tied.registered found out requestId (streams requestId n there')
  simp only [Proxies.disconnect] at stepped
  split at stepped
  · rename_i serve
    cases stepped
    exact keeps_settled tied owed own fits.kind registered streams returned nofun
      fun _ => unguarded (by simp [serve])
  · rename_i serve
    cases stepped
    exact keeps_settled tied owed own fits.kind registered streams returned nofun
      fun _ => unguarded (by simp [serve])
  · rename_i serve
    cases stepped
    exact keeps_settled tied owed own fits.kind registered streams returned nofun
      fun _ => unguarded (by simp [serve])
  · cases stepped
    exact keeps_settled tied owed own fits.kind registered streams returned nofun nofun
  all_goals cases stepped

theorem keeps_accept (tied : Tied x) (owed : Owed x) (parts : RequestParts) (body : List BodyFrame)
    (containerName : String) (containerPort : Fin (2 ^ 16)) :
    Tied (x.accept parts body containerName containerPort) ∧
      Owed (x.accept parts body containerName containerPort) := by
  have registered : Registered (x.link.begin .bidiStreamed) := registered_step tied.registered
    (show x.link.step (.begin .bidiStreamed) = some (x.link.begin .bidiStreamed) from rfl)
  refine ⟨⟨registered, fun m call found => ?_⟩, fun requestId m there => ?_⟩
  · simp only [Proxies.accept, AgentLink.begin, Function.update_apply] at found ⊢
    split at found
    · rename_i isNew
      cases found
      exact ⟨_, if_pos isNew, rfl, by simp [Caller.isCalling]⟩
    · rename_i isOld
      obtain ⟨exchange, there, fits⟩ := tied.calls m call found
      exact ⟨exchange, (if_neg isOld).trans there, fits⟩
  · obtain ⟨exchange, found, busy⟩ := owed requestId m there
    obtain ⟨call, foundCall, _⟩ := tied.registered.streams requestId m there
    have isOld : m ≠ x.link.started := Nat.ne_of_lt (tied.registered.known m call foundCall).1
    exact ⟨exchange, (Function.update_of_ne isOld ..).trans found, busy⟩

theorem keeps_session (tied : Tied x) (owed : Owed x)
    {ofLink : Link.Event Part RelayHttpRequest} (isOf : ofLink.isOfSession = true)
    (moved : x.link.step ofLink = some link') :
    Tied { x with link := link' } ∧ Owed { x with link := link' } := by
  refine ⟨⟨registered_step tied.registered moved, fun m call found => ?_⟩, fun requestId m there => ?_⟩
  · rcases session_calls isOf moved m with same | ⟨call, inbox, found', eq⟩
    · exact tied.calls m call (same ▸ found)
    · rw [eq] at found
      cases found
      obtain ⟨exchange, there, fits⟩ := tied.calls m call found'
      exact ⟨exchange, there, fits.kind, fits.calling⟩
  · refine owed requestId m ((streams_before moved there).resolve_right ?_)
    rintro ⟨rfl, _⟩
    cases isOf

theorem keeps_step (tied : Tied x) (owed : Owed x) (guarded : Guarded x event)
    (stepped : x.step event = some next) : Tied next ∧ Owed next := by
  cases event with
  | accept parts body name port =>
      cases stepped
      exact keeps_accept tied owed parts body name port
  | session ofLink =>
      simp only [Proxies.step] at stepped
      split at stepped
      · rename_i isOf
        obtain ⟨link', moved, rfl⟩ := Option.map_eq_some_iff.1 stepped
        exact keeps_session tied owed isOf moved
      · cases stepped
  | feed n =>
      obtain ⟨exchange, there, stepped⟩ := Option.bind_eq_some_iff.1 stepped
      obtain ⟨call, found, stepped⟩ := Option.bind_eq_some_iff.1 stepped
      obtain ⟨exchange', fed, rfl⟩ := Option.map_eq_some_iff.1 stepped
      exact keeps_feed tied owed found there fed
  | register n | readOutbound n | unregister n | handed n =>
      obtain ⟨exchange, there, stepped⟩ := Option.bind_eq_some_iff.1 stepped
      obtain ⟨call, found, stepped⟩ := Option.bind_eq_some_iff.1 stepped
      exact keeps_callStep tied owed found there (by simp [isCallEvent]) stepped
  | forward n =>
      obtain ⟨exchange, there, stepped⟩ := Option.bind_eq_some_iff.1 stepped
      obtain ⟨call, found, stepped⟩ := Option.bind_eq_some_iff.1 stepped
      exact keeps_forward tied owed found there stepped
  | reply n =>
      obtain ⟨exchange, there, stepped⟩ := Option.bind_eq_some_iff.1 stepped
      obtain ⟨call, found, stepped⟩ := Option.bind_eq_some_iff.1 stepped
      exact keeps_reply tied owed found there guarded stepped
  | upgraded n ok =>
      obtain ⟨exchange, there, stepped⟩ := Option.bind_eq_some_iff.1 stepped
      obtain ⟨call, found, stepped⟩ := Option.bind_eq_some_iff.1 stepped
      exact keeps_pump tied owed found there (.inl ⟨ok, stepped⟩)
  | browse n data =>
      obtain ⟨exchange, there, stepped⟩ := Option.bind_eq_some_iff.1 stepped
      obtain ⟨call, found, stepped⟩ := Option.bind_eq_some_iff.1 stepped
      exact keeps_pump tied owed found there (.inr (.inl ⟨data, stepped⟩))
  | pumpSend n =>
      obtain ⟨exchange, there, stepped⟩ := Option.bind_eq_some_iff.1 stepped
      obtain ⟨call, found, stepped⟩ := Option.bind_eq_some_iff.1 stepped
      exact keeps_pump tied owed found there (.inr (.inr stepped))
  | pumpReceive n written =>
      obtain ⟨exchange, there, stepped⟩ := Option.bind_eq_some_iff.1 stepped
      obtain ⟨call, found, stepped⟩ := Option.bind_eq_some_iff.1 stepped
      exact keeps_pumpReceive tied owed found there stepped
  | poll n =>
      obtain ⟨exchange, there, stepped⟩ := Option.bind_eq_some_iff.1 stepped
      obtain ⟨call, found, stepped⟩ := Option.bind_eq_some_iff.1 stepped
      exact keeps_poll tied owed found there stepped
  | endStream n =>
      obtain ⟨exchange, there, stepped⟩ := Option.bind_eq_some_iff.1 stepped
      obtain ⟨call, found, stepped⟩ := Option.bind_eq_some_iff.1 stepped
      exact keeps_endStream tied owed found there stepped
  | disconnect n kept =>
      obtain ⟨exchange, there, stepped⟩ := Option.bind_eq_some_iff.1 stepped
      obtain ⟨call, found, stepped⟩ := Option.bind_eq_some_iff.1 stepped
      exact keeps_disconnect tied owed found there guarded stepped

end Steps

/-- No task of the request is left, and no body of its response. -/
def Proxies.finished (x : Proxies) (n : Nat) : Prop :=
  ∃ exchange call, x.exchanges n = some exchange ∧ x.link.calls n = some call ∧
    exchange.serve = .done ∧ exchange.feeder = .stopped ∧ takesPayloads call = false

theorem tied_new : Tied Proxies.new :=
  ⟨registered_new, fun _ _ found => nomatch found⟩

theorem owed_of_run {history : List (Proxies × Event)} (run : machine.Run Guarded history x) :
    Tied x ∧ Owed x := by
  refine run.invariant (fun _ x => Tied x ∧ Owed x) ?_ ?_
  · rintro x rfl
    exact ⟨tied_new, fun _ _ there => nomatch there⟩
  · intro history x event next holds stepped guarded
    exact keeps_step holds.1 holds.2 guarded stepped

/-- No finished request is registered any more. -/
theorem registrations_end {history : List (Proxies × Event)} (run : machine.Run Guarded history x)
    (finished : x.finished n) :
    (∀ requestId, x.link.streams requestId ≠ some n) ∧
      (x.link.started ≤ 2 ^ 64 → x.link.streams (requestIdOf n) = none) := by
  obtain ⟨tied, owed⟩ := owed_of_run run
  obtain ⟨exchange, call, there, found, isDone, _⟩ := finished
  have out : ∀ requestId, x.link.streams requestId ≠ some n := by
    intro requestId registered
    obtain ⟨_, same, busy⟩ := owed requestId n registered
    cases there.symm.trans same
    exact busy isDone
  refine ⟨out, fun few => ?_⟩
  cases registered : x.link.streams (requestIdOf n) with
  | none => rfl
  | some m =>
      -- Below 2^64 calls, whoever is registered under the id is the request itself.
      exfalso
      obtain ⟨other, found', id, _⟩ := tied.registered.streams _ m registered
      have known := tied.registered.known m other found'
      have known' := tied.registered.known n call found
      have same : m = n := requestIdOf_injective (by omega) (by omega) (known.2.symm.trans id)
      exact out _ (same ▸ registered)

/-! Whether a step is guarded can be looked up. -/

def firstHead : List Part → Option RelayHttpResponseHead
  | some (.head head) :: _ => some head
  | _ => none

def isGuarded (x : Proxies) : Event → Bool
  | .disconnect n _ =>
      (x.exchanges n).all fun exchange => (x.link.calls n).all fun call =>
        exchange.serve = .streaming ∨ x.link.streams call.requestId ≠ some n
  | .reply n =>
      (x.exchanges n).all fun exchange => (x.link.calls n).all fun call =>
        (firstHead call.inbox).all fun head =>
          !isUpgradeRequest exchange.parts.headers || statusFrom head.status ≠ 101 ||
            (buildHeaders head.headers).isSome
  | _ => true

theorem guarded_of_isGuarded (x : Proxies) (event : Event) (checked : isGuarded x event = true) :
    Guarded x event := by
  cases event with
  | disconnect n kept =>
      intro exchange call there found
      simpa [isGuarded, there, found] using checked
  | reply n =>
      intro exchange call head there found inbox upgrades agrees
      have first : firstHead call.inbox = some head := by
        obtain ⟨rest, isFirst⟩ := List.head?_eq_some_iff.1 inbox
        rw [isFirst, firstHead]
      simpa [isGuarded, there, found, first, upgrades, agrees] using checked
  | accept _ _ _ _ | feed _ | register _ | readOutbound _ | unregister _ | forward _ | handed _
  | upgraded _ _ | browse _ _ | pumpSend _ | pumpReceive _ _ | poll _ | endStream _ | session _ =>
      trivial

def getParts : RequestParts := ⟨"GET", some "/index.html", []⟩

/-- A request has been sent, and the client goes away before the response's head is there. -/
def leaveEarly : List Event :=
  [.session .setOutbound, .accept getParts [] "berth-app" 80, .register 0, .readOutbound 0, .feed 0,
    .feed 0, .feed 0, .forward 0, .handed 0, .forward 0, .handed 0, .disconnect 0 0, .forward 0]

/-- The handler's future is gone with all it awaited, and nobody ends the registration. -/
theorem registration_leaks : ∃ x, machine.Reachable x ∧ x.finished 0 ∧
    x.link.streams 1 = some 0 ∧ x.link.outbound = .attached ∧ x.link.hungUp = false := by
  obtain ⟨x, reachable, held⟩ := Machine.exists_of_play machine (fun _ _ => True) (fun _ _ => true)
    (fun x => (x.exchanges 0).any (fun exchange =>
        exchange.serve = .done ∧ exchange.feeder = .stopped) &&
      (x.link.calls 0).any (fun call => !takesPayloads call) &&
      (x.link.streams 1 = some 0 ∧ x.link.outbound = .attached ∧ x.link.hungUp = false))
    (fun _ _ _ => trivial) rfl leaveEarly (by decide +kernel)
  simp only [Bool.and_eq_true, decide_eq_true_eq, Option.any_eq_true, Bool.not_eq_true'] at held
  obtain ⟨⟨⟨exchange, there, isDone, stopped⟩, call, found, idle⟩, leaked⟩ := held
  exact ⟨x, reachable, ⟨exchange, call, there, found, isDone, stopped, idle⟩, leaked⟩

/-- The client goes away in the middle of the response's body. -/
def leaveMidway : List Event :=
  [.session .setOutbound, .accept getParts [] "berth-app" 80, .register 0, .readOutbound 0, .feed 0,
    .feed 0, .feed 0, .forward 0, .handed 0, .forward 0, .handed 0,
    .session (.arrive (1, some (some (.head ⟨200, []⟩)))), .session .read, .session .lookUpStream,
    .session .handOver, .reply 0, .disconnect 0 0, .endStream 0, .forward 0]

theorem registrations_end_midway : ∃ (history : List (Proxies × Event)) (x : Proxies),
    machine.Run Guarded history x ∧ x.finished 0 ∧ x.link.streams 1 = none := by
  obtain ⟨x, ⟨history, run⟩, held⟩ := Machine.exists_of_play machine Guarded isGuarded
    (fun x => (x.exchanges 0).any (fun exchange =>
        exchange.serve = .done ∧ exchange.feeder = .stopped) &&
      (x.link.calls 0).any (fun call => !takesPayloads call) && (x.link.started ≤ 2 ^ 64))
    guarded_of_isGuarded rfl leaveMidway (by decide +kernel)
  simp only [Bool.and_eq_true, decide_eq_true_eq, Option.any_eq_true, Bool.not_eq_true'] at held
  obtain ⟨⟨⟨exchange, there, isDone, stopped⟩, call, found, idle⟩, few⟩ := held
  have finished : x.finished 0 := ⟨exchange, call, there, found, isDone, stopped, idle⟩
  exact ⟨history, x, run, finished, (registrations_end run finished).2 few⟩

end Berth.Proxy
