import Berth.Session.CommandOutput

/-!
What the hub makes of a streamed command. On the agent nothing is sent before what was emitted
before it, and the result last; the session brings it in this order; and the hub takes all of it,
unless the session is over.
-/

namespace Berth.Streamed

open Interleave

def Handler.isLate : Handler → Bool
  | replying _ | done _ => true
  | parsing | starting | waiting | joining _ | creating | forwarding _ => false

/-- `run` has still to return. -/
def Handler.isEarly : Handler → Bool
  | parsing | starting | waiting | joining _ | creating => true
  | forwarding _ | replying _ | done _ => false

def Handler.result : Handler → Option Outcome
  | forwarding result | replying result => some result
  | parsing | starting | waiting | joining _ | creating | done _ => none

/-- The chunks between `forward_logs` and the channel to the hub. -/
def AgentSide.underway (x : AgentSide) : List Bytes :=
  x.forwarder.hand ++ x.logChannel ++ x.forwardLogs.hand

/-- What has been sent is the output as it was emitted, and then the result. While the forwarder
can send, it has what is not sent yet, and it ends only when nobody can give it more. -/
structure Sends (x : AgentSide) : Prop where
  before : x.handler ≠ .done true → ∃ pieces, x.sent = pieces.map x.command.log ∧
    pieces <+: x.emitted ∧ (x.outboxOpen = true → x.emitted = pieces ++ x.underway)
  after : x.handler = .done true → x.hasSink = false ∧ ∃ outcome, x.outcome = some outcome ∧
    x.sent = x.emitted.map x.command.log ++ [x.command.final outcome]
  quiet : x.outboxOpen = true → x.forwarder.isActive = false →
    x.hasSink = false ∧ x.logChannel = []
  late : x.handler.isLate = true → x.forwarder.isActive = false
  idle : x.forwarder = .idle → x.handler = .parsing ∨ x.handler.isLate = true
  result : ∀ outcome, x.handler.result = some outcome → x.outcome = some outcome
  early : x.handler.isEarly = true → x.outcome = none
  dropped : x.handler = .done false → x.outboxOpen = false
  unparsed : x.handler = .parsing → x.forwarder = .idle ∧ x.forwardLogs = .idle
  unlaunched : x.handler = .starting → x.forwardLogs = .idle

variable {x y : AgentSide} {result : Outcome} {chunk : Bytes} {rest : List Bytes}

theorem sends_start {requestId timeoutSecs : Nat} {command : Command}
    {outbox : List SessionRequest} : Sends (.start requestId command timeoutSecs outbox) := by
  constructor <;> simp [AgentSide.start, AgentSide.underway, AgentSide.hasSink, Relay.hand,
    Relay.isActive, Handler.isLate, Handler.result]

theorem AgentSide.hasSink_eq_false : x.hasSink = false ↔
    x.handler ≠ .starting ∧ x.forwardLogs.isActive = false := by
  simp [AgentSide.hasSink]

theorem Relay.hand_eq_nil {relay : Relay} (inactive : relay.isActive = false) : relay.hand = [] := by
  cases relay <;> simp_all [Relay.hand, Relay.isActive]

/-- What becomes of the channel to the hub does not matter, unless it closes. -/
theorem Sends.outbox (sends : Sends x) {outbox : List SessionRequest} {isOpen : Bool}
    (closes : isOpen = true → x.outboxOpen = true) :
    Sends { x with outbox := outbox, outboxOpen := isOpen } where
  before := fun notDone => by
    obtain ⟨pieces, sent, emitted, whole⟩ := sends.before notDone
    exact ⟨pieces, sent, emitted, fun isOpen => whole (closes isOpen)⟩
  after := sends.after
  quiet := fun isOpen => sends.quiet (closes isOpen)
  late := sends.late
  idle := sends.idle
  result := sends.result
  early := sends.early
  dropped := fun done => by
    have closed := sends.dropped done
    cases isOpen with
    | false => rfl
    | true => simp [closed] at closes
  unparsed := sends.unparsed
  unlaunched := sends.unlaunched

/-- The handler goes on, up to its last message. -/
theorem Sends.advance (sends : Sends x) {handler : Handler} {outcome : Option Outcome}
    (before : x.handler ≠ .done true) (notDone : ∀ b, handler ≠ .done b)
    (notFirst : handler ≠ .parsing ∧ handler ≠ .starting)
    (late : handler.isLate = true → x.forwarder.isActive = false)
    (idle : x.forwarder = .idle → handler.isLate = true)
    (result : ∀ result, handler.result = some result → outcome = some result)
    (early : handler.isEarly = true → outcome = none) :
    Sends { x with handler := handler, outcome := outcome } where
  before := fun _ => sends.before before
  after := fun done => absurd done (notDone true)
  quiet := fun isOpen inactive => by
    obtain ⟨noSink, empty⟩ := sends.quiet isOpen inactive
    exact ⟨AgentSide.hasSink_eq_false.2 ⟨notFirst.2, (AgentSide.hasSink_eq_false.1 noSink).2⟩, empty⟩
  late := late
  idle := fun isIdle => Or.inr (idle isIdle)
  result := result
  early := early
  dropped := fun done => absurd done (notDone false)
  unparsed := fun parsing => absurd parsing notFirst.1
  unlaunched := fun starting => absurd starting notFirst.2

theorem Sends.notIdle (sends : Sends x) (begun : x.handler ≠ .parsing)
    (notLate : x.handler.isLate = false) : x.forwarder ≠ .idle := by
  intro isIdle
  rcases sends.idle isIdle with parsing | late
  · exact begun parsing
  · simp [notLate] at late

theorem Handler.notLate {handler : Handler} (early : handler.isEarly = true) :
    handler.isLate = false := by
  cases handler <;> simp_all [Handler.isEarly, Handler.isLate]

theorem Sends.returns (sends : Sends x) (early : x.handler.isEarly = true)
    (begun : x.handler ≠ .parsing) : Sends (x.returns result) := by
  have notDone : x.handler ≠ .done true := by
    intro done
    simp [done, Handler.isEarly] at early
  have notIdle := sends.notIdle begun (Handler.notLate early)
  exact sends.advance notDone (by simp) (by simp) (by simp [Handler.isLate])
    (fun isIdle => absurd isIdle notIdle) (by simp [Handler.result]) (by simp [Handler.isEarly])

theorem Sends.parse (sends : Sends x) (parsing : x.handler = .parsing) :
    Sends { x with handler := .starting, forwarder := .receiving } := by
  obtain ⟨idle, unlaunched⟩ := sends.unparsed parsing
  refine ⟨fun _ => ?_, (by simp), fun _ active => (by simp [Relay.isActive] at active),
    fun late => (by simp [Handler.isLate] at late), (by simp), (by simp [Handler.result]),
    fun _ => sends.early (by simp [parsing, Handler.isEarly]), (by simp), (by simp),
    fun _ => unlaunched⟩
  obtain ⟨pieces, sent, emitted, whole⟩ := sends.before (by simp [parsing])
  refine ⟨pieces, sent, emitted, fun isOpen => ?_⟩
  rw [whole isOpen]
  simp [AgentSide.underway, idle, Relay.hand]

theorem Sends.refuse (sends : Sends x) (parsing : x.handler = .parsing) :
    Sends { x with handler := .replying result, outcome := some result } := by
  have idle := (sends.unparsed parsing).1
  exact sends.advance (by simp [parsing]) (by simp) (by simp) (fun _ => (by simp [idle, Relay.isActive]))
    (fun _ => rfl) (by simp [Handler.result]) (by simp [Handler.isEarly])

theorem Sends.launch (sends : Sends x) (starting : x.handler = .starting) :
    Sends { x with handler := .waiting, forwardLogs := .receiving } := by
  have unlaunched := sends.unlaunched starting
  refine ⟨fun _ => ?_, (by simp), fun isOpen inactive => ?_, fun late => (by simp [Handler.isLate] at late),
    fun isIdle => absurd isIdle (sends.notIdle (by simp [starting]) (by simp [starting, Handler.isLate])),
    (by simp [Handler.result]), fun _ => sends.early (by simp [starting, Handler.isEarly]), (by simp),
    (by simp), (by simp)⟩
  · obtain ⟨pieces, sent, emitted, whole⟩ := sends.before (by simp [starting])
    refine ⟨pieces, sent, emitted, fun isOpen => ?_⟩
    rw [whole isOpen]
    simp [AgentSide.underway, unlaunched, Relay.hand]
  · have noSink := (sends.quiet isOpen inactive).1
    simp [AgentSide.hasSink, starting] at noSink

/-- The log channel has a sender, and the forwarder is there. -/
theorem Sends.emit (sends : Sends x) (receiving : x.forwardLogs = .receiving) :
    Sends { x with forwardLogs := .sending chunk, emitted := x.emitted ++ [chunk] } := by
  have sink : x.hasSink = true := by simp [AgentSide.hasSink, receiving, Relay.isActive]
  refine ⟨fun notDone => ?_, fun done => ?_, fun isOpen inactive => ?_, sends.late, sends.idle,
    sends.result, sends.early, sends.dropped, fun parsing => ?_, fun starting => ?_⟩
  · obtain ⟨pieces, sent, emitted, whole⟩ := sends.before notDone
    refine ⟨pieces, sent, emitted.trans (List.prefix_append _ _), fun isOpen => ?_⟩
    show x.emitted ++ [chunk] = pieces ++ (x.forwarder.hand ++ x.logChannel ++ [chunk])
    rw [whole isOpen]
    simp [AgentSide.underway, receiving, Relay.hand]
  · have noSink := (sends.after done).1
    simp [sink] at noSink
  · have noSink := (sends.quiet isOpen inactive).1
    simp [sink] at noSink
  · have idle := (sends.unparsed parsing).2
    simp [receiving] at idle
  · have idle := sends.unlaunched starting
    simp [receiving] at idle

/-- `forward_logs` passes its chunk on, or ends. -/
theorem Sends.sink (sends : Sends x) {forwardLogs : Relay} {channel : List Bytes}
    (active : x.forwardLogs.isActive = true)
    (whole : x.outboxOpen = true → x.forwarder ≠ .ended →
      channel ++ forwardLogs.hand = x.logChannel ++ x.forwardLogs.hand) :
    Sends { x with forwardLogs := forwardLogs, logChannel := channel } := by
  have sink : x.hasSink = true := by simp [AgentSide.hasSink, active]
  have begun (isOpen : x.outboxOpen = true) : x.forwarder.isActive = true := by
    cases inactive : x.forwarder.isActive with
    | true => rfl
    | false => simp [(sends.quiet isOpen inactive).1] at sink
  refine ⟨fun notDone => ?_, fun done => ?_, fun isOpen inactive => ?_, sends.late, sends.idle,
    sends.result, sends.early, sends.dropped, fun parsing => ?_, fun starting => ?_⟩
  · obtain ⟨pieces, sent, emitted, all⟩ := sends.before notDone
    refine ⟨pieces, sent, emitted, fun isOpen => ?_⟩
    have notOver : x.forwarder ≠ .ended := by
      intro ended
      simpa [ended, Relay.isActive] using begun isOpen
    show x.emitted = pieces ++ (x.forwarder.hand ++ channel ++ forwardLogs.hand)
    rw [all isOpen, List.append_assoc x.forwarder.hand, whole isOpen notOver, AgentSide.underway,
      List.append_assoc x.forwarder.hand]
  · have noSink := (sends.after done).1
    simp [sink] at noSink
  · have isOpen : x.outboxOpen = true := isOpen
    have inactive : x.forwarder.isActive = false := inactive
    simp [begun isOpen] at inactive
  · have idle := (sends.unparsed parsing).2
    simp [idle, Relay.isActive] at active
  · have idle := sends.unlaunched starting
    simp [idle, Relay.isActive] at active

theorem Sends.notLate (sends : Sends x) (active : x.forwarder.isActive = true) :
    x.handler.isLate = false := by
  cases late : x.handler.isLate with
  | false => rfl
  | true => simp [sends.late late] at active

/-- The forwarder takes a chunk, or ends. -/
theorem Sends.forwarder (sends : Sends x) {forwarder : Relay} {channel : List Bytes}
    (active : x.forwarder.isActive = true) (notIdle : forwarder ≠ .idle)
    (whole : x.outboxOpen = true → forwarder.hand ++ channel = x.forwarder.hand ++ x.logChannel)
    (quiet : x.outboxOpen = true → forwarder.isActive = false → x.hasSink = false ∧ channel = []) :
    Sends { x with forwarder := forwarder, logChannel := channel } := by
  have notLate := sends.notLate active
  refine ⟨fun notDone => ?_, sends.after, quiet, fun late => ?_, fun isIdle => absurd isIdle notIdle,
    sends.result, sends.early, sends.dropped, fun parsing => ?_, sends.unlaunched⟩
  · obtain ⟨pieces, sent, emitted, all⟩ := sends.before notDone
    refine ⟨pieces, sent, emitted, fun isOpen => ?_⟩
    show x.emitted = pieces ++ (forwarder.hand ++ channel ++ x.forwardLogs.hand)
    rw [whole isOpen]
    exact all isOpen
  · have late : x.handler.isLate = true := late
    simp [notLate] at late
  · have idle := (sends.unparsed parsing).1
    simp [idle, Relay.isActive] at active

theorem Sends.forward (sends : Sends x) (sending : x.forwarder = .sending chunk)
    (isOpen : x.outboxOpen = true) :
    Sends ({ x with forwarder := .receiving }.say (x.command.log chunk)) := by
  have active : x.forwarder.isActive = true := by simp [sending, Relay.isActive]
  have notLate := sends.notLate active
  have notDone : ∀ b, x.handler ≠ .done b := by
    intro b done
    simp [done, Handler.isLate] at notLate
  refine ⟨fun _ => ?_, fun done => absurd done (notDone true),
    fun _ inactive => (by simp [AgentSide.say, Relay.isActive] at inactive), fun late => ?_,
    fun isIdle => (by cases isIdle), sends.result, sends.early, sends.dropped, fun parsing => ?_,
    sends.unlaunched⟩
  · obtain ⟨pieces, sent, emitted, all⟩ := sends.before (notDone true)
    have whole : x.emitted = (pieces ++ [chunk]) ++ (x.logChannel ++ x.forwardLogs.hand) := by
      rw [all isOpen]
      simp [AgentSide.underway, sending, Relay.hand]
    refine ⟨pieces ++ [chunk], ?_, ⟨_, whole.symm⟩, fun _ => ?_⟩
    · show x.sent ++ [x.command.log chunk] = (pieces ++ [chunk]).map x.command.log
      simp [sent]
    · exact whole
  · have late : x.handler.isLate = true := late
    simp [notLate] at late
  · have idle := (sends.unparsed parsing).1
    simp [idle] at sending

theorem Sends.giveUp (sends : Sends x) (replying : x.handler = .replying result)
    (closed : x.outboxOpen = false) : Sends { x with handler := .done false } := by
  refine ⟨fun _ => sends.before (by simp [replying]), (by simp), ?_, fun _ => ?_, fun _ => Or.inr rfl,
    (by simp [Handler.result]), (by simp [Handler.isEarly]), fun _ => closed, (by simp), (by simp)⟩
  · intro isOpen
    simp [closed] at isOpen
  · exact sends.late (by simp [replying, Handler.isLate])

/-- By the time of its last message, all the output is sent. -/
theorem Sends.reply (sends : Sends x) (replying : x.handler = .replying result)
    (isOpen : x.outboxOpen = true) :
    Sends ({ x with handler := .done true }.say (x.command.final result)) := by
  have inactive := sends.late (by simp [replying, Handler.isLate])
  obtain ⟨noSink, empty⟩ := sends.quiet isOpen inactive
  have ended := (AgentSide.hasSink_eq_false.1 noSink).2
  have still : ({ x with handler := .done true } : AgentSide).hasSink = false :=
    AgentSide.hasSink_eq_false.2 ⟨by simp, ended⟩
  refine ⟨(by simp [AgentSide.say]), fun _ => ⟨still, result, ?_, ?_⟩, fun _ _ => ⟨still, empty⟩,
    fun _ => inactive, fun _ => Or.inr rfl, (by simp [AgentSide.say, Handler.result]),
    (by simp [AgentSide.say, Handler.isEarly]), (by simp [AgentSide.say]), (by simp [AgentSide.say]),
    (by simp [AgentSide.say])⟩
  · exact sends.result result (by simp [replying, Handler.result])
  · obtain ⟨pieces, sent, _, all⟩ := sends.before (by simp [replying])
    have whole : x.emitted = pieces := by
      rw [all isOpen]
      simp [AgentSide.underway, Relay.hand_eq_nil inactive, empty, Relay.hand_eq_nil ended]
    show x.sent ++ [x.command.final result] = x.emitted.map x.command.log ++ [x.command.final result]
    rw [sent, whole]

theorem Sends.moves (sends : Sends x) {event : AgentEvent} (stepped : x.step event = some y) :
    Sends y := by
  cases event with
  | parse failure =>
      simp only [AgentSide.step] at stepped
      split at stepped <;> cases stepped
      · rename_i parsing
        exact sends.parse parsing
      · rename_i parsing
        exact sends.refuse parsing
  | settle result =>
      simp only [AgentSide.step] at stepped
      split at stepped <;> cases stepped
      rename_i starting _
      exact sends.returns (by simp [starting, Handler.isEarly]) (by simp [starting])
  | launch =>
      simp only [AgentSide.step] at stepped
      split at stepped <;> cases stepped
      rename_i starting
      exact sends.launch starting
  | wait waited =>
      simp only [AgentSide.step] at stepped
      split at stepped <;> cases stepped
      rename_i waiting
      exact sends.advance (by simp [waiting]) (by simp) (by simp) (by simp [Handler.isLate])
        (fun isIdle => absurd isIdle (sends.notIdle (by simp [waiting]) (by simp [waiting, Handler.isLate])))
        (by simp [Handler.result]) (fun _ => sends.early (by simp [waiting, Handler.isEarly]))
  | join timedOut =>
      simp only [AgentSide.step] at stepped
      split at stepped <;> try cases stepped
      rename_i result joining
      split at stepped <;> try cases stepped
      split at stepped <;> cases stepped
      · exact sends.advance (by simp [joining]) (by simp) (by simp) (by simp [Handler.isLate])
          (fun isIdle => absurd isIdle (sends.notIdle (by simp [joining]) (by simp [joining, Handler.isLate])))
          (by simp [Handler.result]) (fun _ => sends.early (by simp [joining, Handler.isEarly]))
      · exact sends.returns (by simp [joining, Handler.isEarly]) (by simp [joining])
  | create result =>
      simp only [AgentSide.step] at stepped
      split at stepped <;> cases stepped
      rename_i creating
      exact sends.returns (by simp [creating, Handler.isEarly]) (by simp [creating])
  | awaitForwarder =>
      simp only [AgentSide.step] at stepped
      split at stepped <;> try cases stepped
      rename_i result forwarding
      split at stepped <;> cases stepped
      rename_i ended
      exact sends.advance (by simp [forwarding]) (by simp) (by simp)
        (fun _ => (by simp [ended, Relay.isActive])) (by simp [ended])
        (fun _ same => sends.result _ (by simpa [forwarding, Handler.result] using same))
        (by simp [Handler.isEarly])
  | reply =>
      simp only [AgentSide.step] at stepped
      split at stepped <;> try cases stepped
      rename_i result replying
      split at stepped
      · rename_i closed
        cases stepped
        exact sends.giveUp replying closed
      · rename_i isOpen
        split at stepped <;> cases stepped
        exact sends.reply replying (by simpa using isOpen)
  | emit chunk =>
      simp only [AgentSide.step] at stepped
      split at stepped <;> cases stepped
      rename_i receiving
      exact sends.emit receiving
  | endLogs =>
      simp only [AgentSide.step] at stepped
      split at stepped <;> cases stepped
      rename_i receiving
      exact sends.sink (by simp [receiving, Relay.isActive])
        (fun _ _ => (by simp [receiving, Relay.hand]))
  | sink =>
      simp only [AgentSide.step] at stepped
      split at stepped <;> try cases stepped
      rename_i chunk sending
      have active : x.forwardLogs.isActive = true := by simp [sending, Relay.isActive]
      split at stepped
      · rename_i ended
        cases stepped
        exact sends.sink active (fun _ notOver => absurd ended notOver)
      · split at stepped <;> cases stepped
        exact sends.sink active (fun _ _ => (by simp [sending, Relay.hand]))
  | receive =>
      simp only [AgentSide.step] at stepped
      split at stepped <;> try cases stepped
      · rename_i chunk rest receiving channel
        exact sends.forwarder (by simp [receiving, Relay.isActive]) (by simp)
          (fun _ => (by simp [receiving, channel, Relay.hand])) (fun _ => (by simp [Relay.isActive]))
      · rename_i receiving channel
        split at stepped <;> cases stepped
        rename_i noSink
        exact sends.forwarder (by simp [receiving, Relay.isActive]) (by simp)
          (fun _ => (by simp [receiving, Relay.hand])) (fun _ _ => ⟨by simpa using noSink, channel⟩)
  | forward =>
      simp only [AgentSide.step] at stepped
      split at stepped <;> try cases stepped
      rename_i chunk sending
      split at stepped
      · rename_i closed
        cases stepped
        exact sends.forwarder (by simp [sending, Relay.isActive]) (by simp)
          (fun isOpen => (by simp [closed] at isOpen)) (fun isOpen => (by simp [closed] at isOpen))
      · rename_i isOpen
        split at stepped <;> cases stepped
        exact sends.forward sending (by simpa using isOpen)
  | post message =>
      simp only [AgentSide.step] at stepped
      split at stepped <;> cases stepped
      exact sends.outbox fun isOpen => isOpen

/-- A step adds what it says to the channel, and to what has been sent. -/
structure Posts (x y : AgentSide) : Prop where
  requestId : y.requestId = x.requestId
  command : y.command = x.command
  outboxOpen : y.outboxOpen = x.outboxOpen
  emitted : x.emitted <+: y.emitted
  said : ∃ said, y.sent = x.sent ++ said ∧
    own x.requestId y.outbox = own x.requestId x.outbox ++ said

variable {id : Nat} {message : SessionRequest} {messages others : List SessionRequest}

theorem own_append : own id (messages ++ others) = own id messages ++ own id others :=
  List.filterMap_append

theorem own_take (kept : Nat) : own id (messages.take kept) <+: own id messages := by
  refine ⟨own id (messages.drop kept), ?_⟩
  rw [← own_append, List.take_append_drop]

theorem Posts.silent (handler : Handler) (forwardLogs forwarder : Relay) (channel : List Bytes)
    (outcome : Option Outcome) : Posts x { x with
      handler := handler, forwardLogs := forwardLogs, forwarder := forwarder,
      logChannel := channel, outcome := outcome } :=
  ⟨rfl, rfl, rfl, List.prefix_refl _, [], by simp⟩

theorem Posts.say (handler : Handler) (forwarder : Relay) (payload : Payload) :
    Posts x ({ x with handler := handler, forwarder := forwarder }.say payload) := by
  refine ⟨rfl, rfl, rfl, List.prefix_refl _, [payload], rfl, ?_⟩
  simp [AgentSide.say, own]

theorem AgentSide.posts {event : AgentEvent} (stepped : x.step event = some y) : Posts x y := by
  cases event with
  | emit chunk =>
      simp only [AgentSide.step] at stepped
      split at stepped <;> cases stepped
      exact ⟨rfl, rfl, rfl, List.prefix_append _ _, [], by simp⟩
  | post message =>
      simp only [AgentSide.step] at stepped
      split at stepped <;> cases stepped
      rename_i foreign
      refine ⟨rfl, rfl, rfl, List.prefix_refl _, [], by simp, ?_⟩
      simp [own, foreign.1]
  | parse _ | settle _ | launch | wait _ | join _ | create _ | awaitForwarder | reply | endLogs | sink
  | receive | forward =>
      simp only [AgentSide.step, AgentSide.returns] at stepped
      repeat' split at stepped
      all_goals cases stepped
      all_goals first
        | exact Posts.silent _ _ _ _ _
        | exact Posts.say _ _ _

/-- After the last message, only other requests' tasks do something. -/
theorem Sends.settled (sends : Sends x) {event : AgentEvent} (stepped : x.step event = some y)
    (done : x.handler = .done true) : y.handler = .done true ∧ y.sent = x.sent ∧
      y.emitted = x.emitted ∧ y.outcome = x.outcome := by
  have quiet := (AgentSide.hasSink_eq_false.1 (sends.after done).1).2
  have inactive := sends.late (by simp [done, Handler.isLate])
  cases event with
  | post message =>
      simp only [AgentSide.step] at stepped
      split at stepped <;> cases stepped
      exact ⟨done, rfl, rfl, rfl⟩
  | parse _ | settle _ | launch | wait _ | join _ | create _ | awaitForwarder | reply =>
      simp [AgentSide.step, done] at stepped
  | emit _ | endLogs | sink =>
      simp only [AgentSide.step] at stepped
      split at stepped <;> simp_all [Relay.isActive]
  | receive | forward =>
      simp only [AgentSide.step] at stepped
      split at stepped <;> simp_all [Relay.isActive]

/-- What the hub makes of an outcome. -/
def reported : Outcome → AppResult Unit
  | .ok () => .ok ()
  | .error (.unavailable msg) => .error (.containerUnavailable msg)
  | .error (.startFailed msg) => .error (.containerStartFailed msg)
  | .error (.commandFailed msg) => .error (.commandFailed msg)

theorem drained_final (outcome : Outcome) :
    drained (some (some (finalResult outcome))) = reported outcome := by
  rcases outcome with err | _
  · cases err <;> rfl
  · rfl

theorem Command.extract_wrap (command : Command) (output : CommandOutput) :
    command.extract (command.wrap output) = some output := by
  cases command <;> rfl

/-- The hub has got this outcome after all of the output, or else the session is over. -/
def Told (x : State) (result : AppResult Unit) : Prop :=
  (∃ outcome, x.agent.handler = .done true ∧ x.agent.outcome = some outcome ∧
    x.hub.heard = x.agent.sent ∧ (x.hub.pump = true → x.hub.pushed = x.agent.emitted) ∧
      result = reported outcome) ∨
  (x.broken = true ∧ result = .error closedStream ∧ ∃ pieces, pieces <+: x.agent.emitted ∧
    x.hub.heard = pieces.map x.agent.command.log ∧ (x.hub.pump = true → x.hub.pushed = pieces))

/-- Nothing is lost between the two sides, and nothing is passed over, while the hub listens. -/
structure Flows (x : State) : Prop where
  heard : ∃ pieces, x.hub.heard = pieces.map x.agent.command.log ∧
    (x.hub.pump = true → x.hub.pushed = pieces)
  registered : x.hub.reader ≠ .ended → x.hub.registered = true
  flow : x.hub.heard ++ x.hub.inbox ++ x.hub.reader.hand ++ own x.agent.requestId x.wire <+:
    x.agent.sent
  whole : x.broken = false → x.agent.sent = x.hub.heard ++ x.hub.inbox ++ x.hub.reader.hand ++
    own x.agent.requestId x.wire ++ own x.agent.requestId x.agent.outbox

structure Carries (x : State) : Prop where
  sends : Sends x.agent
  requestId : x.hub.requestId = x.agent.requestId
  command : x.hub.command = x.agent.command
  ended : x.hub.reader = .ended → x.broken = true
  closed : x.agent.outboxOpen = false → x.broken = true
  flows : x.hub.drain = .receiving → Flows x
  ending : ∀ result, x.hub.drain = .ending result → Told x (drained result)
  returned : ∀ result, x.hub.drain = .returned result → Told x result

variable {s t : State} {told : AppResult Unit}

theorem Told.keeps (before : Told s told) (hub : t.hub.heard = s.hub.heard ∧
    t.hub.pump = s.hub.pump ∧ t.hub.pushed = s.hub.pushed)
    (command : t.agent.command = s.agent.command) (emitted : s.agent.emitted <+: t.agent.emitted)
    (broken : s.broken = true → t.broken = true)
    (settled : s.agent.handler = .done true → t.agent.handler = .done true ∧
      t.agent.sent = s.agent.sent ∧ t.agent.emitted = s.agent.emitted ∧
        t.agent.outcome = s.agent.outcome) : Told t told := by
  obtain ⟨heard, pump, pushed⟩ := hub
  rcases before with ⟨outcome, done, isOutcome, all, push, same⟩ | ⟨isBroken, same, pieces, before, all, push⟩
  · obtain ⟨done', sent', emitted', outcome'⟩ := settled done
    refine Or.inl ⟨outcome, done', outcome'.trans isOutcome, ?_, ?_, same⟩
    · rw [heard, all, sent']
    · rw [pump, pushed, emitted']
      exact push
  · refine Or.inr ⟨broken isBroken, same, pieces, before.trans emitted, ?_, ?_⟩
    · rw [heard, all, command]
    · rw [pump, pushed]
      exact push

theorem last_of_append {α : Type} {front before rest : List α} {last next : α}
    (same : front ++ [last] = before ++ next :: rest) :
    next ∈ front ∨ next = last ∧ before = front := by
  rcases List.eq_nil_or_concat rest with rfl | ⟨init, end', rfl⟩
  · obtain ⟨fronts, lasts⟩ := List.append_inj' same rfl
    exact Or.inr ⟨(List.cons.inj lasts).1.symm, fronts.symm⟩
  · have same : front ++ [last] = (before ++ next :: init) ++ [end'] := by simpa using same
    obtain ⟨fronts, _⟩ := List.append_inj' same rfl
    exact Or.inl (by simp [fronts])

/-- What the hub takes is a chunk, or it is the result and all of the output is before it. -/
theorem Flows.next (flows : Flows s) (sends : Sends s.agent) {payload : Payload}
    {rest : List Payload} (inbox : s.hub.inbox = payload :: rest) :
    (∃ chunk, payload = s.agent.command.log chunk) ∨
      ∃ outcome, payload = s.agent.command.final outcome ∧ s.agent.handler = .done true ∧
        s.agent.outcome = some outcome ∧ s.hub.heard ++ [payload] = s.agent.sent ∧
        s.hub.heard = s.agent.emitted.map s.agent.command.log := by
  obtain ⟨later, sent⟩ := flows.flow
  have sent : s.agent.sent = s.hub.heard ++ payload ::
      (rest ++ s.hub.reader.hand ++ own s.agent.requestId s.wire ++ later) := by
    rw [← sent, inbox]
    simp
  by_cases done : s.agent.handler = .done true
  · obtain ⟨_, outcome, isOutcome, all⟩ := sends.after done
    rw [all] at sent
    rcases last_of_append sent with chunk | ⟨isLast, heard⟩
    · obtain ⟨chunk, _, same⟩ := List.mem_map.1 chunk
      exact Or.inl ⟨chunk, same.symm⟩
    · exact Or.inr ⟨outcome, isLast, done, isOutcome, by rw [heard, isLast, all], heard⟩
  · obtain ⟨all, same, _⟩ := sends.before done
    have chunk : payload ∈ all.map s.agent.command.log := by
      rw [← same, sent]
      simp
    obtain ⟨chunk, _, same⟩ := List.mem_map.1 chunk
    exact Or.inl ⟨chunk, same.symm⟩

theorem Command.log_injective (command : Command) : Function.Injective command.log := by
  intro chunk chunk' same
  cases command <;> simpa [Command.log, Command.wrap] using same

theorem Command.log_ne_final {command : Command} {outcome : Outcome} :
    command.log chunk ≠ command.final outcome := by
  cases command <;> simp [Command.log, Command.final, Command.wrap]

/-- What is heard of the output is a first part of it. -/
theorem Flows.heard_prefix (flows : Flows s) (sends : Sends s.agent) :
    ∃ pieces, pieces <+: s.agent.emitted ∧ s.hub.heard = pieces.map s.agent.command.log ∧
      (s.hub.pump = true → s.hub.pushed = pieces) := by
  obtain ⟨pieces, heard, pushed⟩ := flows.heard
  refine ⟨pieces, ?_, heard, pushed⟩
  have first : pieces.map s.agent.command.log <+: s.agent.sent := by
    obtain ⟨later, sent⟩ := flows.flow
    rw [heard] at sent
    exact ⟨_, by simpa only [List.append_assoc] using sent⟩
  by_cases done : s.agent.handler = .done true
  · obtain ⟨_, outcome, _, all⟩ := sends.after done
    rw [all] at first
    rcases List.prefix_concat_iff.1 first with whole | part
    · have final : s.agent.command.final outcome ∈ pieces.map s.agent.command.log := by
        rw [whole]
        simp
      obtain ⟨chunk, _, same⟩ := List.mem_map.1 final
      exact absurd same Command.log_ne_final
    · exact (List.prefix_map_iff_of_injective s.agent.command.log_injective).1 part
  · obtain ⟨all, same, before, _⟩ := sends.before done
    rw [same] at first
    exact ((List.prefix_map_iff_of_injective s.agent.command.log_injective).1 first).trans before

/-- The agent's side goes on, by itself or with the channel between it and the hub. -/
theorem Carries.agent (carries : Carries s) {agent : AgentSide} (sends : Sends agent)
    (posts : Posts s.agent agent) (settled : s.agent.handler = .done true →
      agent.handler = .done true ∧ agent.sent = s.agent.sent ∧
        agent.emitted = s.agent.emitted ∧ agent.outcome = s.agent.outcome) :
    Carries { s with agent := agent } := by
  have keeps {told : AppResult Unit} (before : Told s told) : Told { s with agent := agent } told :=
    before.keeps ⟨rfl, rfl, rfl⟩ posts.command posts.emitted id settled
  refine ⟨sends, carries.requestId.trans posts.requestId.symm, carries.command.trans posts.command.symm,
    carries.ended, fun closed => carries.closed (posts.outboxOpen.symm.trans closed), fun receiving => ?_,
    fun result ending => keeps (carries.ending result ending),
    fun result returned => keeps (carries.returned result returned)⟩
  obtain ⟨heard, registered, flow, whole⟩ := carries.flows receiving
  obtain ⟨said, sent, outbox⟩ := posts.said
  refine ⟨?_, registered, ?_, fun isOpen => ?_⟩
  · show ∃ pieces : List Bytes, s.hub.heard = pieces.map agent.command.log ∧ _
    rw [posts.command]
    exact heard
  · show _ ++ own agent.requestId s.wire <+: agent.sent
    rw [posts.requestId, sent]
    exact flow.trans (List.prefix_append _ _)
  · show agent.sent = _ ++ own agent.requestId s.wire ++ own agent.requestId agent.outbox
    rw [sent, posts.requestId, outbox, whole isOpen]
    simp only [List.append_assoc]

/-- The session ends on the way: part of what is on the wire may be lost, and what the agent has in
its channel. -/
theorem Carries.breaks (carries : Carries s) (kept : Nat) (outbox : List SessionRequest)
    (isOpen : Bool) (closes : isOpen = true → s.agent.outboxOpen = true) :
    Carries { s with
      agent := { s.agent with outbox := outbox, outboxOpen := isOpen }
      wire := s.wire.take kept
      broken := true } := by
  have keeps {told : AppResult Unit} (before : Told s told) : Told { s with
      agent := { s.agent with outbox := outbox, outboxOpen := isOpen }
      wire := s.wire.take kept
      broken := true } told :=
    before.keeps ⟨rfl, rfl, rfl⟩ rfl (List.prefix_refl _) (fun _ => rfl) fun done => ⟨done, rfl, rfl, rfl⟩
  refine ⟨carries.sends.outbox closes, carries.requestId, carries.command, fun _ => rfl, fun _ => rfl,
    fun receiving => ?_, fun result ending => keeps (carries.ending result ending),
    fun result returned => keeps (carries.returned result returned)⟩
  obtain ⟨heard, registered, flow, _⟩ := carries.flows receiving
  refine ⟨heard, registered, ?_, fun whole => (by cases whole)⟩
  exact ((List.prefix_append_right_inj _).2 (own_take kept)).trans flow

theorem Carries.transmit (carries : Carries s) (outbox : s.agent.outbox = message :: messages)
    (isOpen : s.broken = false) : Carries { s with
      agent := { s.agent with outbox := messages }
      wire := s.wire ++ [message] } := by
  have keeps {told : AppResult Unit} (before : Told s told) : Told { s with
      agent := { s.agent with outbox := messages }
      wire := s.wire ++ [message] } told :=
    before.keeps ⟨rfl, rfl, rfl⟩ rfl (List.prefix_refl _) (fun same => same)
      fun done => ⟨done, rfl, rfl, rfl⟩
  refine ⟨carries.sends.outbox fun same => same, carries.requestId, carries.command, carries.ended,
    carries.closed, fun receiving => ?_, fun result ending => keeps (carries.ending result ending),
    fun result returned => keeps (carries.returned result returned)⟩
  obtain ⟨heard, registered, _, whole⟩ := carries.flows receiving
  have moved : s.agent.sent = s.hub.heard ++ s.hub.inbox ++ s.hub.reader.hand ++
      own s.agent.requestId (s.wire ++ [message]) ++ own s.agent.requestId messages := by
    have split : message :: messages = [message] ++ messages := rfl
    rw [whole isOpen, outbox, split, own_append, own_append]
    simp only [List.append_assoc]
  exact ⟨heard, registered, ⟨_, moved.symm⟩, fun _ => moved⟩

/-- The hub's side goes on with what it has. -/
theorem Carries.hub (carries : Carries s) {hub : HubSide} {wire : List SessionRequest}
    (requestId : hub.requestId = s.hub.requestId) (command : hub.command = s.hub.command)
    (drain : hub.drain = s.hub.drain) (told : hub.heard = s.hub.heard ∧ hub.pump = s.hub.pump ∧
      hub.pushed = s.hub.pushed)
    (ended : hub.reader = .ended → s.broken = true)
    (registered : hub.reader ≠ .ended → hub.registered = s.hub.registered ∧ s.hub.reader ≠ .ended)
    (flow : s.hub.drain = .receiving → Flows s →
      hub.inbox ++ hub.reader.hand ++ own s.agent.requestId wire =
        s.hub.inbox ++ s.hub.reader.hand ++ own s.agent.requestId s.wire) :
    Carries { s with hub := hub, wire := wire } := by
  have keeps {result : AppResult Unit} (before : Told s result) :
      Told { s with hub := hub, wire := wire } result :=
    before.keeps told rfl (List.prefix_refl _) (fun same => same) fun done => ⟨done, rfl, rfl, rfl⟩
  refine ⟨carries.sends, requestId.trans carries.requestId, command.trans carries.command, ended,
    carries.closed, fun receiving => ?_,
    fun result ending => keeps (carries.ending result (drain.symm.trans ending)),
    fun result returned => keeps (carries.returned result (drain.symm.trans returned))⟩
  have receiving := drain.symm.trans receiving
  have flows := carries.flows receiving
  have same : hub.heard ++ hub.inbox ++ hub.reader.hand ++ own s.agent.requestId wire =
      s.hub.heard ++ s.hub.inbox ++ s.hub.reader.hand ++ own s.agent.requestId s.wire := by
    have same := congrArg (s.hub.heard ++ ·) (flow receiving flows)
    rw [told.1]
    simpa only [List.append_assoc] using same
  refine ⟨?_, fun notOver => ?_, ?_, fun isOpen => ?_⟩
  · show ∃ pieces, hub.heard = _ ∧ (hub.pump = true → hub.pushed = pieces)
    rw [told.1, told.2.1, told.2.2]
    exact flows.heard
  · obtain ⟨same, before⟩ := registered notOver
    exact same.trans (flows.registered before)
  · show hub.heard ++ hub.inbox ++ hub.reader.hand ++ own s.agent.requestId wire <+: s.agent.sent
    rw [same]
    exact flows.flow
  · show s.agent.sent = hub.heard ++ hub.inbox ++ hub.reader.hand ++ own s.agent.requestId wire ++
      own s.agent.requestId s.agent.outbox
    rw [same]
    exact flows.whole isOpen

theorem Carries.read (carries : Carries s) (reading : s.hub.reader = .reading)
    (wire : s.wire = message :: messages) : Carries { s with
      wire := messages
      hub := { s.hub with reader := s.hub.resolve message } } := by
  have notOver : s.hub.resolve message ≠ .ended := by
    simp only [HubSide.resolve]
    split
    · split <;> simp
    · simp
  refine carries.hub rfl rfl rfl ⟨rfl, rfl, rfl⟩ (fun ended => absurd ended notOver)
    (fun _ => ⟨rfl, by simp [reading]⟩) fun _ flows => ?_
  have registered := flows.registered (by simp [reading])
  have taken : (s.hub.resolve message).hand = own s.agent.requestId [message] := by
    cases payload : message.payload with
    | none => simp [HubSide.resolve, own, payload, Reader.hand]
    | some payload =>
        by_cases mine : message.requestId = s.agent.requestId
        · simp [HubSide.resolve, own, payload, Reader.hand, carries.requestId, registered, mine]
        · simp [HubSide.resolve, own, payload, Reader.hand, carries.requestId, mine]
  have split : message :: messages = [message] ++ messages := rfl
  show s.hub.inbox ++ (s.hub.resolve message).hand ++ _ = _
  rw [taken, wire, split, own_append, reading]
  simp [Reader.hand]

theorem Carries.endReading (carries : Carries s) (reading : s.hub.reader = .reading)
    (broken : s.broken = true) :
    Carries { s with hub := { s.hub with reader := .ended, registered := false } } :=
  carries.hub rfl rfl rfl ⟨rfl, rfl, rfl⟩ (fun _ => broken) (fun notOver => absurd rfl notOver)
    fun _ _ => by simp [reading, Reader.hand]

theorem Carries.hand (carries : Carries s) {hub : HubSide} (handed : s.hub.hand = some hub) :
    Carries { s with hub := hub } := by
  simp only [HubSide.hand] at handed
  split at handed <;> try cases handed
  rename_i payload handing
  split at handed
  · rename_i gone
    cases handed
    refine carries.hub rfl rfl rfl ⟨rfl, rfl, rfl⟩ (by simp) (fun _ => ⟨rfl, by simp [handing]⟩)
      fun receiving => ?_
    simp [receiving, Drain.hasReturned] at gone
  · split at handed <;> cases handed
    refine carries.hub rfl rfl rfl ⟨rfl, rfl, rfl⟩ (by simp) (fun _ => ⟨rfl, by simp [handing]⟩)
      fun _ _ => ?_
    simp [handing, Reader.hand]

/-- The drain's loop ends, with what it has heard. -/
theorem Carries.ends (carries : Carries s) {result : Option (Option CommandResult)}
    {inbox : List Payload} {heard : List Payload} (told : Told { s with
      hub := { s.hub with inbox := inbox, heard := heard, drain := .ending result } }
      (drained result)) : Carries { s with
      hub := { s.hub with inbox := inbox, heard := heard, drain := .ending result } } := by
  refine ⟨carries.sends, carries.requestId, carries.command, carries.ended, carries.closed,
    fun receiving => (by cases receiving), fun other ending => ?_, fun result returned => (by cases returned)⟩
  cases ending
  exact told

theorem Carries.receive (carries : Carries s) {hub : HubSide}
    (received : s.hub.receive = some hub) : Carries { s with hub := hub } := by
  simp only [HubSide.receive] at received
  split at received <;> try cases received
  · rename_i payload rest receiving inbox
    have flows := carries.flows receiving
    obtain ⟨pieces, before, heard, pushed⟩ := flows.heard_prefix carries.sends
    rcases flows.next carries.sends inbox with ⟨chunk, rfl⟩ | ⟨outcome, rfl, done, isOutcome, all, output⟩
    · have taken : s.hub.take (s.agent.command.log chunk) rest = { s.hub with
          inbox := rest
          heard := s.hub.heard ++ [s.agent.command.log chunk]
          pushed := if s.hub.pump then s.hub.pushed ++ [chunk] else s.hub.pushed } := by
        simp [HubSide.take, carries.command, Command.log, Command.extract_wrap]
      rw [taken]
      refine ⟨carries.sends, carries.requestId, carries.command, carries.ended, carries.closed,
        fun _ => ⟨⟨pieces ++ [chunk], ?_, fun pump => ?_⟩, flows.registered, ?_, fun isOpen => ?_⟩,
        fun result ending => ?_, fun result returned => ?_⟩
      · simp [heard]
      · have pump : s.hub.pump = true := pump
        simp [pump, pushed pump]
      · have flow := flows.flow
        rw [inbox] at flow
        simpa using flow
      · have whole := flows.whole isOpen
        rw [inbox] at whole
        simpa using whole
      · have ending : s.hub.drain = .ending result := ending
        simp [receiving] at ending
      · have returned : s.hub.drain = .returned result := returned
        simp [receiving] at returned
    · have taken : s.hub.take (s.agent.command.final outcome) rest = { s.hub with
          inbox := rest
          heard := s.hub.heard ++ [s.agent.command.final outcome]
          drain := .ending (some (some (finalResult outcome))) } := by
        simp [HubSide.take, carries.command, Command.final, Command.extract_wrap]
      rw [taken]
      refine carries.ends (Or.inl ⟨outcome, done, isOutcome, all, fun pump => ?_, drained_final outcome⟩)
      have same : pieces = s.agent.emitted :=
        s.agent.command.log_injective.list_map (heard.symm.trans output)
      rw [← same]
      exact pushed pump
  · rename_i receiving inbox
    split at received <;> cases received
    rename_i silent
    have flows := carries.flows receiving
    obtain ⟨pieces, before, heard, pushed⟩ := flows.heard_prefix carries.sends
    have broken : s.broken = true := by
      apply carries.ended
      by_contra notOver
      exact silent (Or.inl (flows.registered notOver))
    have told : Told { s with hub := { s.hub with drain := .ending none } } (drained none) :=
      Or.inr ⟨broken, rfl, pieces, before, heard, pushed⟩
    exact carries.ends told

theorem Carries.endStream (carries : Carries s) {hub : HubSide}
    (ended : s.hub.endStream = some hub) : Carries { s with hub := hub } := by
  simp only [HubSide.endStream] at ended
  split at ended <;> cases ended
  rename_i result ending
  have told := carries.ending result ending
  refine ⟨carries.sends, carries.requestId, carries.command, carries.ended, carries.closed,
    fun receiving => (by cases receiving), fun result ending => (by cases ending), fun other returned => ?_⟩
  cases returned
  exact told

theorem Carries.moves (carries : Carries s) {event : Event} (stepped : s.step event = some t) :
    Carries t := by
  cases event with
  | agent event =>
      obtain ⟨agent, moved, rfl⟩ := Option.map_eq_some_iff.1 stepped
      exact carries.agent (carries.sends.moves moved) (AgentSide.posts moved)
        (carries.sends.settled moved)
  | closeOutbox =>
      cases stepped
      have breaks := carries.breaks s.wire.length [] false (by simp)
      rwa [List.take_length] at breaks
  | transmit =>
      simp only [State.step] at stepped
      split at stepped <;> try cases stepped
      rename_i message rest outbox
      split at stepped <;> cases stepped
      rename_i isOpen
      exact carries.transmit outbox (by simpa using isOpen)
  | cut kept =>
      cases stepped
      exact carries.breaks kept s.agent.outbox s.agent.outboxOpen fun same => same
  | read =>
      simp only [State.step] at stepped
      split at stepped <;> cases stepped
      rename_i message rest reading wire
      exact carries.read reading wire
  | endReading =>
      simp only [State.step] at stepped
      split at stepped <;> cases stepped
      rename_i ended
      exact carries.endReading ended.1 ended.2.2
  | hand =>
      obtain ⟨hub, handed, rfl⟩ := Option.map_eq_some_iff.1 stepped
      exact carries.hand handed
  | receive =>
      obtain ⟨hub, received, rfl⟩ := Option.map_eq_some_iff.1 stepped
      exact carries.receive received
  | endStream =>
      obtain ⟨hub, ended, rfl⟩ := Option.map_eq_some_iff.1 stepped
      exact carries.endStream ended

theorem carries_of_reachable (reachable : machine.Reachable s) : Carries s := by
  refine reachable.invariant Carries ?_ fun _ _ _ carries stepped _ => carries.moves stepped
  rintro s ⟨requestId, command, timeoutSecs, pump, outbox, wire, rfl, foreign⟩
  rw [own_append] at foreign
  obtain ⟨noneOut, noneOn⟩ := List.append_eq_nil_iff.1 foreign
  refine ⟨sends_start, rfl, rfl, fun ended => (by cases ended), fun closed => (by cases closed),
    fun _ => ⟨⟨[], rfl, fun _ => rfl⟩, fun _ => rfl, ?_, fun _ => ?_⟩, fun _ ending => (by cases ending),
    fun _ returned => (by cases returned)⟩
  · simp [State.start, HubSide.start, AgentSide.start, Reader.hand, noneOn]
  · simp [State.start, HubSide.start, AgentSide.start, Reader.hand, noneOn, noneOut]

/-- What the two sides do by themselves once `run` has returned; the command's output is over. -/
def AgentEvent.isInternal : AgentEvent → Bool
  | awaitForwarder | reply | endLogs | sink | receive | forward => true
  | parse _ | settle _ | launch | wait _ | join _ | create _ | emit _ | post _ => false

def Event.isInternal : Event → Bool
  | agent event => event.isInternal
  | transmit | read | hand | receive | endStream => true
  | closeOutbox | cut _ | endReading => false

def Handler.rank : Handler → Nat
  | forwarding _ => 6
  | replying _ => 5
  | parsing | starting | waiting | joining _ | creating | done _ => 0

def Relay.rank : Relay → Nat
  | receiving => 1
  | idle | sending _ | ended => 0

def Drain.rank : Drain → Nat
  | receiving => 2
  | ending _ => 1
  | returned _ => 0

/-- How many steps the messages under way have still to go, and the tasks besides. -/
def AgentSide.rank (x : AgentSide) : Nat :=
  x.handler.rank + x.forwardLogs.rank + x.forwarder.rank + 8 * x.forwardLogs.hand.length +
    6 * x.logChannel.length + 6 * x.forwarder.hand.length + 4 * x.outbox.length

def State.rank (x : State) : Nat :=
  x.agent.rank + 3 * x.wire.length + 2 * x.hub.reader.hand.length + x.hub.inbox.length +
    x.hub.drain.rank

theorem AgentSide.rank_lt {event : AgentEvent} (isInternal : event.isInternal = true)
    (stepped : x.step event = some y) : y.rank < x.rank := by
  cases event with
  | awaitForwarder | reply | endLogs | sink | receive | forward =>
      simp only [AgentSide.step] at stepped
      repeat' split at stepped
      all_goals cases stepped
      all_goals simp_all [AgentSide.rank, AgentSide.say, Handler.rank, Relay.rank, Relay.hand]
      all_goals omega
  | parse _ | settle _ | launch | wait _ | join _ | create _ | emit _ | post _ => cases isInternal

theorem HubSide.resolve_hand (hub : HubSide) (message : SessionRequest) :
    (hub.resolve message).hand.length ≤ 1 := by
  simp only [HubSide.resolve]
  repeat' split
  all_goals simp [Reader.hand]

theorem State.rank_lt {event : Event} (isInternal : event.isInternal = true)
    (stepped : s.step event = some t) : t.rank < s.rank := by
  cases event with
  | agent event =>
      obtain ⟨agent, moved, rfl⟩ := Option.map_eq_some_iff.1 stepped
      have less := AgentSide.rank_lt isInternal moved
      simp only [State.rank]
      omega
  | transmit =>
      simp only [State.step] at stepped
      split at stepped <;> try cases stepped
      rename_i message rest outbox
      split at stepped <;> cases stepped
      simp only [State.rank, AgentSide.rank, outbox, List.length_cons, List.length_append,
        List.length_nil]
      omega
  | read =>
      simp only [State.step] at stepped
      split at stepped <;> cases stepped
      rename_i message rest reading wire
      have taken := s.hub.resolve_hand message
      have nothing : s.hub.reader.hand = [] := by simp [reading, Reader.hand]
      simp only [State.rank, nothing, wire, List.length_cons, List.length_nil]
      omega
  | hand =>
      obtain ⟨hub, handed, rfl⟩ := Option.map_eq_some_iff.1 stepped
      simp only [HubSide.hand] at handed
      repeat' split at handed
      all_goals cases handed
      all_goals simp_all [State.rank, Reader.hand]
      omega
  | receive =>
      obtain ⟨hub, received, rfl⟩ := Option.map_eq_some_iff.1 stepped
      simp only [HubSide.receive, HubSide.take] at received
      repeat' split at received
      all_goals cases received
      all_goals simp_all [State.rank, Drain.rank]
      all_goals omega
  | endStream =>
      obtain ⟨hub, ended, rfl⟩ := Option.map_eq_some_iff.1 stepped
      simp only [HubSide.endStream] at ended
      split at ended <;> cases ended
      simp_all [State.rank, Drain.rank]
  | closeOutbox | cut _ | endReading => cases isInternal

/-- Once `run` has returned, the agent's tasks do not wait for one another for ever. -/
theorem Sends.progress (sends : Sends x) (isOpen : x.outboxOpen = true) (empty : x.outbox = [])
    (returned : x.handler.isEarly = false) (notDone : ∀ replied, x.handler ≠ .done replied) :
    ∃ event, event.isInternal = true ∧ (x.step event).isSome = true := by
  cases handler : x.handler with
  | parsing | starting | waiting | joining _ | creating => simp [handler, Handler.isEarly] at returned
  | done replied => exact absurd handler (notDone replied)
  | replying result =>
      exact ⟨.reply, rfl, by simp [AgentSide.step, handler, isOpen, empty, channelCapacity]⟩
  | forwarding result =>
      cases forwarder : x.forwarder with
      | idle =>
          exact absurd forwarder (sends.notIdle (by simp [handler]) (by simp [handler, Handler.isLate]))
      | ended => exact ⟨.awaitForwarder, rfl, by simp [AgentSide.step, handler, forwarder]⟩
      | sending chunk =>
          exact ⟨.forward, rfl, by simp [AgentSide.step, forwarder, isOpen, empty, channelCapacity]⟩
      | receiving =>
          cases channel : x.logChannel with
          | cons chunk rest => exact ⟨.receive, rfl, by simp [AgentSide.step, forwarder, channel]⟩
          | nil =>
              cases logs : x.forwardLogs with
              | receiving => exact ⟨.endLogs, rfl, by simp [AgentSide.step, logs]⟩
              | sending chunk =>
                  exact ⟨.sink, rfl, by simp [AgentSide.step, logs, forwarder, channel, logCapacity]⟩
              | idle | ended =>
                  exact ⟨.receive, rfl, by simp [AgentSide.step, forwarder, channel,
                    AgentSide.hasSink, handler, logs, Relay.isActive]⟩

theorem Carries.progress (carries : Carries s) (isOpen : s.broken = false) {outcome : Outcome}
    (returned : s.agent.outcome = some outcome) (waits : s.hub.drain.hasReturned = false) :
    ∃ event, event.isInternal = true ∧ (s.step event).isSome = true := by
  have outboxOpen : s.agent.outboxOpen = true := by
    by_contra closed
    simp [carries.closed (by simpa using closed)] at isOpen
  cases drain : s.hub.drain with
  | returned result => simp [drain, Drain.hasReturned] at waits
  | ending result => exact ⟨.endStream, rfl, by simp [State.step, HubSide.endStream, drain]⟩
  | receiving =>
      cases inbox : s.hub.inbox with
      | cons payload rest => exact ⟨.receive, rfl, by simp [State.step, HubSide.receive, drain, inbox]⟩
      | nil =>
          cases reader : s.hub.reader with
          | ended => simp [carries.ended reader] at isOpen
          | handing payload =>
              exact ⟨.hand, rfl, by
                simp [State.step, HubSide.hand, reader, drain, Drain.hasReturned, inbox, channelCapacity]⟩
          | reading =>
              cases wire : s.wire with
              | cons message rest => exact ⟨.read, rfl, by simp [State.step, reader, wire]⟩
              | nil =>
                  cases outbox : s.agent.outbox with
                  | cons message rest => exact ⟨.transmit, rfl, by simp [State.step, outbox, isOpen]⟩
                  | nil =>
                      have notDone (replied : Bool) : s.agent.handler ≠ .done replied := by
                        intro done
                        cases replied with
                        | false => simp [carries.sends.dropped done] at outboxOpen
                        | true =>
                            have whole := (carries.flows drain).whole isOpen
                            obtain ⟨pieces, heard, _⟩ := (carries.flows drain).heard
                            obtain ⟨_, outcome, _, sent⟩ := carries.sends.after done
                            simp only [inbox, reader, wire, outbox, heard, Reader.hand, own,
                              List.filterMap_nil, List.append_nil] at whole
                            have final : s.agent.command.final outcome ∈
                                pieces.map s.agent.command.log := by
                              rw [← whole, sent]
                              simp
                            obtain ⟨chunk, _, same⟩ := List.mem_map.1 final
                            exact Command.log_ne_final same
                      have notEarly : s.agent.handler.isEarly = false := by
                        by_contra early
                        simp [carries.sends.early (by simpa using early)] at returned
                      obtain ⟨event, isInternal, moves⟩ :=
                        carries.sends.progress outboxOpen outbox notEarly notDone
                      exact ⟨.agent event, isInternal, by simpa [State.step] using moves⟩

/-- A session that goes on, and a `run` that has returned, stay so. -/
theorem State.lasts {event : Event} {outcome : Outcome} (isInternal : event.isInternal = true)
    (stepped : s.step event = some t) (before : s.broken = false ∧ s.agent.outcome = some outcome) :
    t.broken = false ∧ t.agent.outcome = some outcome := by
  cases event with
  | agent event =>
      obtain ⟨agent, moved, rfl⟩ := Option.map_eq_some_iff.1 stepped
      refine ⟨before.1, ?_⟩
      cases event with
      | awaitForwarder | reply | endLogs | sink | receive | forward =>
          simp only [AgentSide.step] at moved
          repeat' split at moved
          all_goals cases moved
          all_goals exact before.2
      | parse _ | settle _ | launch | wait _ | join _ | create _ | emit _ | post _ => cases isInternal
  | transmit | read =>
      simp only [State.step] at stepped
      repeat' split at stepped
      all_goals cases stepped
      all_goals exact before
  | hand | receive | endStream =>
      obtain ⟨hub, _, rfl⟩ := Option.map_eq_some_iff.1 stepped
      exact before
  | closeOutbox | cut _ | endReading => cases isInternal

/-- The two sides bring the outcome to the caller, by themselves. -/
theorem returns_of_reachable {outcome : Outcome} (reachable : machine.Reachable s)
    (isOpen : s.broken = false) (returned : s.agent.outcome = some outcome) :
    ∃ last, machine.Leads (fun event => event.isInternal = true) s last ∧
      last.hub.drain = .returned (reported outcome) := by
  have all (budget : Nat) : ∀ s, s.rank = budget → machine.Reachable s → s.broken = false →
      s.agent.outcome = some outcome →
        ∃ last, machine.Leads (fun event => event.isInternal = true) s last ∧
          last.hub.drain = .returned (reported outcome) := by
    induction budget using Nat.strongRecOn with
    | ind budget ih =>
        intro s rank reachable isOpen returned
        have carries := carries_of_reachable reachable
        cases waits : s.hub.drain.hasReturned with
        | true =>
            cases drain : s.hub.drain with
            | receiving | ending _ => simp [drain, Drain.hasReturned] at waits
            | returned result =>
                refine ⟨s, Relation.ReflTransGen.refl, ?_⟩
                rcases carries.returned result drain with ⟨other, _, isOutcome, _, _, same⟩ | ⟨broken, _⟩
                · rw [returned] at isOutcome
                  cases isOutcome
                  rw [same] at drain
                  exact drain
                · simp [isOpen] at broken
        | false =>
            obtain ⟨event, isInternal, moves⟩ := carries.progress isOpen returned waits
            obtain ⟨next, stepped⟩ := Option.isSome_iff_exists.1 moves
            have less := State.rank_lt isInternal stepped
            obtain ⟨stillOpen, stillReturned⟩ := State.lasts isInternal stepped ⟨isOpen, returned⟩
            obtain ⟨last, leads, told⟩ := ih next.rank (by omega) next rfl (reachable.step stepped)
              stillOpen stillReturned
            exact ⟨last, Machine.Leads.head isInternal stepped leads, told⟩
  exact all s.rank s rfl reachable isOpen returned

/-- The reply to the request: the output in the order of its emission, and after all of it the
result, once. What `drain_command_output` returns is that result, or the session is over. -/
structure Reported (s : State) : Prop where
  sent : (∃ pieces, pieces <+: s.agent.emitted ∧ s.agent.sent = pieces.map s.agent.command.log) ∨
    ∃ outcome, s.agent.outcome = some outcome ∧
      s.agent.sent = s.agent.emitted.map s.agent.command.log ++ [s.agent.command.final outcome]
  replied : s.broken = false → ∀ replied, s.agent.handler = .done replied →
    ∃ outcome, s.agent.outcome = some outcome ∧
      s.agent.sent = s.agent.emitted.map s.agent.command.log ++ [s.agent.command.final outcome]
  told : ∀ result, s.hub.drain = .returned result → Told s result
  succeeded : s.hub.drain = .returned (.ok ()) → s.agent.outcome = some (.ok ())
  arrives : s.broken = false → ∀ outcome, s.agent.outcome = some outcome →
    ∃ last, machine.Leads (fun event => event.isInternal = true) s last ∧
      last.hub.drain = .returned (reported outcome)

theorem command_reported (reachable : machine.Reachable s) : Reported s := by
  have carries := carries_of_reachable reachable
  constructor
  · by_cases done : s.agent.handler = .done true
    · exact Or.inr (carries.sends.after done).2
    · obtain ⟨pieces, sent, before, _⟩ := carries.sends.before done
      exact Or.inl ⟨pieces, before, sent⟩
  · intro isOpen replied done
    cases replied with
    | true => exact (carries.sends.after done).2
    | false => simp [carries.closed (carries.sends.dropped done)] at isOpen
  · exact carries.returned
  · intro returned
    rcases carries.returned _ returned with ⟨outcome, _, isOutcome, _, _, same⟩ | ⟨_, same, _⟩
    · rw [isOutcome]
      rcases outcome with err | _
      · cases err <;> cases same
      · rfl
    · cases same
  · intro isOpen outcome returned
    exact returns_of_reachable reachable isOpen returned

/-- The command runs into its timeout, and the join of `forward_logs` into its own, before the last
of the output has been passed on. -/
def timesOut : List Event :=
  [.agent (.parse none), .agent .launch, .agent (.emit [1]), .agent .sink, .agent .receive,
    .agent .forward, .transmit, .read, .hand, .receive, .agent (.emit [2]), .agent (.wait .timedOut),
    .agent (.join true), .agent .sink, .agent .endLogs, .agent .receive, .agent .forward,
    .agent .receive, .agent .awaitForwarder, .agent .reply, .transmit, .read, .hand, .receive,
    .transmit, .read, .hand, .receive, .endStream]

theorem command_reported_late : ∃ s, machine.Reachable s ∧ s.hub.pushed = [[1], [2]] ∧
    s.hub.drain.hasReturned = true ∧ Reported s := by
  obtain ⟨s, reachable, held⟩ := Machine.exists_of_play machine (fun _ _ => True) (fun _ _ => true)
    (fun s => s.hub.pushed = [[1], [2]] ∧ s.hub.drain.hasReturned = true) (fun _ _ _ => trivial)
    (⟨3, .runBuildCommand, 60, true, [], [], rfl, rfl⟩ : machine.initial _) timesOut
    (by decide +kernel)
  obtain ⟨pushed, returned⟩ := of_decide_eq_true held
  exact ⟨s, reachable, pushed, returned, command_reported reachable⟩

end Berth.Streamed
