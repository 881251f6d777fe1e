import Mathlib.Data.List.Forall2
import Mathlib.Logic.Relation
import Berth.Interleave.System

/-!
Rely and guarantee for threads. A discipline fixes which events a run may contain, what every
event of a thread guarantees to the others, and an invariant; a thread may rely on what the
others guarantee.
-/

namespace Interleave

variable {Act : Type} {Res : Act → Type} {Call Reply State Choice : Type} {α β ε : Type}

structure Discipline (Act : Type) (Res : Act → Type) (Call Reply State Choice : Type) where
  Allowed : World Act Res Call Reply State Choice → Event Act Res Call Reply Choice → Prop
  Permit : World Act Res Call Reply State Choice → Event Act Res Call Reply Choice → Prop
  Inv : World Act Res Call Reply State Choice → Prop

namespace Discipline

variable (sem : Semantics Act Res Call Reply State Choice)
variable (D : Discipline Act Res Call Reply State Choice)
variable (thread : Nat) (call : Call)

/-- What may be assumed of every event of an allowed run, in the world it happens in. -/
structure Known (w : World Act Res Call Reply State Choice) (event : Event Act Res Call Reply Choice) :
    Prop where
  numbered : w.Numbered
  inv : D.Inv w
  permit : event.Owned → D.Permit w event

/-- The thread is alive in a world of an allowed run. -/
structure Ready (w : World Act Res Call Reply State Choice) : Prop where
  numbered : w.Numbered
  inv : D.Inv w
  member : (thread, call) ∈ w.live

/-- One step of somebody else while the thread is alive. -/
structure Interferes (w w' : World Act Res Call Reply State Choice)
    (event : Event Act Res Call Reply Choice) : Prop where
  before : D.Ready thread call w
  after : D.Ready thread call w'
  moves : w.Moves sem event w'
  other : event.thread ≠ some thread
  allowed : D.Allowed w event
  permit : event.Owned → D.Permit w event

def Rely : World Act Res Call Reply State Choice → World Act Res Call Reply State Choice → Prop :=
  Relation.ReflTransGen fun w w' => ∃ event, Interferes sem D thread call w w' event

/-- An assertion of the thread that nobody else can invalidate. -/
def Stable (assertion : World Act Res Call Reply State Choice → Prop) : Prop :=
  ∀ w w' event, Interferes sem D thread call w w' event → assertion w → assertion w'

variable {sem D thread call}

theorem Stable.rely {assertion : World Act Res Call Reply State Choice → Prop}
    (stable : Stable sem D thread call assertion) {w w' : World Act Res Call Reply State Choice}
    (rely : Rely sem D thread call w w') (holds : assertion w) : assertion w' := by
  induction rely with
  | refl => exact holds
  | tail _ last ih =>
      obtain ⟨event, interferes⟩ := last
      exact stable _ _ event interferes ih

theorem Stable.and {left right : World Act Res Call Reply State Choice → Prop}
    (leftStable : Stable sem D thread call left) (rightStable : Stable sem D thread call right) :
    Stable sem D thread call fun w => left w ∧ right w :=
  fun w w' event interferes holds =>
    ⟨leftStable w w' event interferes holds.1, rightStable w w' event interferes holds.2⟩

theorem stable_const (fact : Prop) : Stable sem D thread call fun _ => fact :=
  fun _ _ _ _ holds => holds

theorem Stable.forall {ι : Type} {assertion : ι → World Act Res Call Reply State Choice → Prop}
    (stable : ∀ index, Stable sem D thread call (assertion index)) :
    Stable sem D thread call fun w => ∀ index, assertion index w :=
  fun w w' event interferes holds index => stable index w w' event interferes (holds index)

theorem Stable.or {left right : World Act Res Call Reply State Choice → Prop}
    (leftStable : Stable sem D thread call left) (rightStable : Stable sem D thread call right) :
    Stable sem D thread call fun w => left w ∨ right w :=
  fun w w' event interferes holds =>
    holds.imp (leftStable w w' event interferes) (rightStable w w' event interferes)

theorem stable_did (happened : Event Act Res Call Reply Choice → Prop) :
    Stable sem D thread call fun w => w.Did happened :=
  fun _ _ _ interferes holds => interferes.moves.did holds

theorem stable_occurred (earlier : World Act Res Call Reply State Choice)
    (event : Event Act Res Call Reply Choice) :
    Stable sem D thread call fun w => w.Occurred earlier event :=
  fun _ _ _ interferes holds => holds.later interferes.moves

/-- What the thread itself has not done, nobody else does for it. -/
theorem stable_not_did {happened : Event Act Res Call Reply Choice → Prop}
    (own : ∀ event, happened event → event.thread = some thread) :
    Stable sem D thread call fun w => ¬ w.Did happened := by
  intro w w' event interferes holds done
  rcases (interferes.moves.did_iff happened).1 done with now | before
  · exact interferes.other (own event now)
  · exact holds before

variable (sem D thread call)

/-- Every event the program can bring about is permitted, whatever the others do in between, and
`post` holds when it is done. -/
def Safe : Program Act Res Call α → (α → World Act Res Call Reply State Choice → Prop) →
    World Act Res Call Reply State Choice → Prop
  | .done value, post, w => post value w
  | .act action next, post, w =>
      ∀ w' choice result w'', Rely sem D thread call w w' → D.Ready thread call w' →
        w'.Moves sem (.act thread call action choice result) w'' →
        D.Allowed w' (.act thread call action choice result) →
          D.Permit w' (.act thread call action choice result) ∧
            (D.Ready thread call w'' → Safe (next result) post w'')
  | .fork forked next, post, w =>
      ∀ w' w'', Rely sem D thread call w w' → D.Ready thread call w' →
        w'.Moves sem (.fork thread call w'.next forked) w'' →
        D.Allowed w' (.fork thread call w'.next forked) →
          D.Permit w' (.fork thread call w'.next forked) ∧
            (D.Ready thread call w'' → Safe next post w'')

def Final (reply : Reply) (w : World Act Res Call Reply State Choice) : Prop :=
  ∀ w', Rely sem D thread call w w' → D.Ready thread call w' →
    D.Allowed w' (.finish thread call reply) → D.Permit w' (.finish thread call reply)

variable {sem D thread call}
variable {w w' : World Act Res Call Reply State Choice}

theorem Final.rely {reply : Reply} (final : Final sem D thread call reply w)
    (rely : Rely sem D thread call w w') : Final sem D thread call reply w' :=
  fun w'' later => final w'' (rely.trans later)

theorem Safe.rely {program : Program Act Res Call Reply}
    (safe : Safe sem D thread call program (Final sem D thread call) w)
    (rely : Rely sem D thread call w w') :
    Safe sem D thread call program (Final sem D thread call) w' := by
  cases program with
  | done reply => exact Final.rely safe rely
  | act action next => exact fun w₁ choice result w₂ later => safe w₁ choice result w₂ (rely.trans later)
  | fork forked next => exact fun w₁ w₂ later => safe w₁ w₂ (rely.trans later)

theorem Safe.mono {post post' : α → World Act Res Call Reply State Choice → Prop}
    {program : Program Act Res Call α} (safe : Safe sem D thread call program post w)
    (weaker : ∀ value w', post value w' → post' value w') :
    Safe sem D thread call program post' w := by
  induction program generalizing w with
  | done value => exact weaker value w safe
  | act action next ih =>
      intro w' choice result w'' rely ready moves allowed
      obtain ⟨permit, rest⟩ := safe w' choice result w'' rely ready moves allowed
      exact ⟨permit, fun readyAfter => ih result (rest readyAfter)⟩
  | fork forked next ih =>
      intro w' w'' rely ready moves allowed
      obtain ⟨permit, rest⟩ := safe w' w'' rely ready moves allowed
      exact ⟨permit, fun readyAfter => ih (rest readyAfter)⟩

theorem Safe.and {post post' : α → World Act Res Call Reply State Choice → Prop}
    {program : Program Act Res Call α} (left : Safe sem D thread call program post w)
    (right : Safe sem D thread call program post' w) :
    Safe sem D thread call program (fun value w' => post value w' ∧ post' value w') w := by
  induction program generalizing w with
  | done value => exact ⟨left, right⟩
  | act action next ih =>
      intro w' choice result w'' rely ready moves allowed
      obtain ⟨permit, rest⟩ := left w' choice result w'' rely ready moves allowed
      have rest' := (right w' choice result w'' rely ready moves allowed).2
      exact ⟨permit, fun readyAfter => ih result (rest readyAfter) (rest' readyAfter)⟩
  | fork forked next ih =>
      intro w' w'' rely ready moves allowed
      obtain ⟨permit, rest⟩ := left w' w'' rely ready moves allowed
      have rest' := (right w' w'' rely ready moves allowed).2
      exact ⟨permit, fun readyAfter => ih (rest readyAfter) (rest' readyAfter)⟩

theorem Safe.bind {post : β → World Act Res Call Reply State Choice → Prop}
    {program : Program Act Res Call α} {after : α → Program Act Res Call β}
    (safe : Safe sem D thread call program
      (fun value w' => Safe sem D thread call (after value) post w') w) :
    Safe sem D thread call (program >>= after) post w := by
  induction program generalizing w with
  | done value => exact safe
  | act action next ih =>
      intro w' choice result w'' rely ready moves allowed
      obtain ⟨permit, rest⟩ := safe w' choice result w'' rely ready moves allowed
      exact ⟨permit, fun readyAfter => ih result (rest readyAfter)⟩
  | fork forked next ih =>
      intro w' w'' rely ready moves allowed
      obtain ⟨permit, rest⟩ := safe w' w'' rely ready moves allowed
      exact ⟨permit, fun readyAfter => ih (rest readyAfter)⟩

/-- What holds of a fallible program's outcome: `post` of a value, `failed` of an error. -/
def Outcome (post : α → World Act Res Call Reply State Choice → Prop)
    (failed : ε → World Act Res Call Reply State Choice → Prop) :
    Except ε α → World Act Res Call Reply State Choice → Prop
  | .ok value, w => post value w
  | .error err, w => failed err w

section Fallible

variable {post : Except ε β → World Act Res Call Reply State Choice → Prop}

theorem Safe.bindE {program : Fallible Act Res Call ε α} {after : α → Fallible Act Res Call ε β}
    (safe : Safe sem D thread call program.run
      (Outcome (fun value w' => Safe sem D thread call (after value).run post w')
        fun err w' => post (.error err) w') w) :
    Safe sem D thread call (program >>= after).run post w := by
  rw [ExceptT.run_bind]
  refine Safe.bind (safe.mono fun outcome w' holds => ?_)
  cases outcome with
  | ok value => exact holds
  | error err => exact holds

/-- Sequencing under an assertion that holds however the first program ends. -/
theorem Safe.thenE {program : Fallible Act Res Call ε α} {after : α → Fallible Act Res Call ε β}
    {assertion : World Act Res Call Reply State Choice → Prop}
    (safe : Safe sem D thread call program.run (fun _ w' => assertion w') w)
    (rest : ∀ value w', assertion w' → Safe sem D thread call (after value).run post w')
    (failed : ∀ err w', assertion w' → post (.error err) w') :
    Safe sem D thread call (program >>= after).run post w := by
  refine Safe.bindE (safe.mono fun outcome w' holds => ?_)
  cases outcome with
  | ok value => exact rest value w' holds
  | error err => exact failed err w' holds

/-- Sequencing where the two ways in which the first program can end are known apart. -/
theorem Safe.seqE {program : Fallible Act Res Call ε α} {after : α → Fallible Act Res Call ε β}
    {good : α → World Act Res Call Reply State Choice → Prop}
    {bad : ε → World Act Res Call Reply State Choice → Prop}
    (safe : Safe sem D thread call program.run (Outcome good bad) w)
    (rest : ∀ value w', good value w' → Safe sem D thread call (after value).run post w')
    (failed : ∀ err w', bad err w' → post (.error err) w') :
    Safe sem D thread call (program >>= after).run post w := by
  refine Safe.bindE (safe.mono fun outcome w' holds => ?_)
  cases outcome with
  | ok value => exact rest value w' holds
  | error err => exact failed err w' holds

theorem Safe.attempt {post : Except ε (Except ε α) → World Act Res Call Reply State Choice → Prop}
    {program : Fallible Act Res Call ε α}
    (safe : Safe sem D thread call program.run (fun outcome w' => post (.ok outcome) w') w) :
    Safe sem D thread call (Fallible.attempt program).run post w :=
  Safe.bind safe

theorem Safe.onError {program : Fallible Act Res Call ε β} {cleanup : Program Act Res Call Unit}
    (safe : Safe sem D thread call program.run
      (Outcome (fun value w' => post (.ok value) w')
        fun err w' => Safe sem D thread call cleanup (fun _ w'' => post (.error err) w'') w') w) :
    Safe sem D thread call (Fallible.onError program cleanup).run post w := by
  refine Safe.bind (safe.mono fun outcome w' holds => ?_)
  cases outcome with
  | ok value => exact holds
  | error err => exact Safe.bind holds

end Fallible

/-- The rule for one action: what the thread knows beforehand has to be stable. -/
theorem Safe.perform {action : Act} {post : Res action → World Act Res Call Reply State Choice → Prop}
    {assertion : World Act Res Call Reply State Choice → Prop}
    (stable : Stable sem D thread call assertion) (holds : assertion w)
    (runs : ∀ w' choice result w'', assertion w' → D.Ready thread call w' →
      w'.Moves sem (.act thread call action choice result) w'' →
      D.Allowed w' (.act thread call action choice result) →
        D.Permit w' (.act thread call action choice result) ∧
          (D.Ready thread call w'' → post result w'')) :
    Safe sem D thread call (Program.perform action) post w :=
  fun w' choice result w'' rely => runs w' choice result w'' (stable.rely rely holds)

theorem Safe.spawn {forked : Call} {post : Unit → World Act Res Call Reply State Choice → Prop}
    {assertion : World Act Res Call Reply State Choice → Prop}
    (stable : Stable sem D thread call assertion) (holds : assertion w)
    (runs : ∀ w' w'', assertion w' → D.Ready thread call w' →
      w'.Moves sem (.fork thread call w'.next forked) w'' →
      D.Allowed w' (.fork thread call w'.next forked) →
        D.Permit w' (.fork thread call w'.next forked) ∧
          (D.Ready thread call w'' → post () w'')) :
    Safe sem D thread call (Program.spawn forked) post w :=
  fun w' w'' rely => runs w' w'' (stable.rely rely holds)

variable (sem D thread call)

/-- An assertion that neither the others nor the thread's own steps among these invalidate. -/
structure Frame (acts : Act → Prop) (calls : Call → Prop)
    (assertion : World Act Res Call Reply State Choice → Prop) : Prop where
  stable : Stable sem D thread call assertion
  own : ∀ w event w', event.By thread call acts calls → assertion w → D.Ready thread call w →
    D.Ready thread call w' → w.Moves sem event w' → D.Allowed w event → D.Permit w event →
      assertion w'

/-- The thread may take the steps among these whatever the others do. -/
def Free (acts : Act → Prop) (calls : Call → Prop) : Prop :=
  ∀ w event w', event.By thread call acts calls → D.Ready thread call w → w.Moves sem event w' →
    D.Allowed w event → D.Permit w event

variable {sem D thread call}
variable {acts acts' : Act → Prop} {calls calls' : Call → Prop}

theorem Frame.mono {assertion : World Act Res Call Reply State Choice → Prop}
    (frame : Frame sem D thread call acts calls assertion)
    (fewer : ∀ action, acts' action → acts action)
    (fewerCalls : ∀ forked, calls' forked → calls forked) :
    Frame sem D thread call acts' calls' assertion :=
  ⟨frame.stable, fun w event w' own => frame.own w event w' (own.mono fewer fewerCalls)⟩

theorem Free.mono (free : Free sem D thread call acts calls)
    (fewer : ∀ action, acts' action → acts action)
    (fewerCalls : ∀ forked, calls' forked → calls forked) :
    Free sem D thread call acts' calls' :=
  fun w event w' own => free w event w' (own.mono fewer fewerCalls)

theorem Frame.and {left right : World Act Res Call Reply State Choice → Prop}
    (leftFrame : Frame sem D thread call acts calls left)
    (rightFrame : Frame sem D thread call acts calls right) :
    Frame sem D thread call acts calls fun w => left w ∧ right w :=
  ⟨leftFrame.stable.and rightFrame.stable,
    fun w event w' own holds ready readyAfter moves allowed permit =>
      ⟨leftFrame.own w event w' own holds.1 ready readyAfter moves allowed permit,
        rightFrame.own w event w' own holds.2 ready readyAfter moves allowed permit⟩⟩

theorem frame_const (fact : Prop) : Frame sem D thread call acts calls fun _ => fact :=
  ⟨stable_const fact, fun _ _ _ _ holds _ _ _ _ _ => holds⟩

/-- What a safe program does not disturb holds afterwards as well. -/
theorem Safe.along {assertion : World Act Res Call Reply State Choice → Prop}
    {post : α → World Act Res Call Reply State Choice → Prop} {program : Program Act Res Call α}
    (safe : Safe sem D thread call program post w) (uses : program.Uses acts calls)
    (frame : Frame sem D thread call acts calls assertion) (holds : assertion w) :
    Safe sem D thread call program (fun value w' => post value w' ∧ assertion w') w := by
  induction program generalizing w with
  | done value => exact ⟨safe, holds⟩
  | act action next ih =>
      intro w' choice result w'' rely ready moves allowed
      obtain ⟨permit, rest⟩ := safe w' choice result w'' rely ready moves allowed
      exact ⟨permit, fun readyAfter => ih result (rest readyAfter) (uses.2 result)
        (frame.own w' _ w'' (.act uses.1) (frame.stable.rely rely holds) ready readyAfter moves
          allowed permit)⟩
  | fork forked next ih =>
      intro w' w'' rely ready moves allowed
      obtain ⟨permit, rest⟩ := safe w' w'' rely ready moves allowed
      exact ⟨permit, fun readyAfter => ih (rest readyAfter) uses.2
        (frame.own w' _ w'' (.fork uses.1) (frame.stable.rely rely holds) ready readyAfter moves
          allowed permit)⟩

/-- A program whose every step is permitted where the assertion holds, which the program itself does
not disturb. -/
theorem Safe.within {assertion : World Act Res Call Reply State Choice → Prop}
    {program : Program Act Res Call α} (uses : program.Uses acts calls)
    (frame : Frame sem D thread call acts calls assertion)
    (permits : ∀ w event w', event.By thread call acts calls → assertion w →
      D.Ready thread call w → w.Moves sem event w' → D.Allowed w event → D.Permit w event)
    (holds : assertion w) : Safe sem D thread call program (fun _ w' => assertion w') w := by
  induction program generalizing w with
  | done value => exact holds
  | act action next ih =>
      intro w' choice result w'' rely ready moves allowed
      have before := frame.stable.rely rely holds
      have permit := permits w' _ w'' (.act uses.1) before ready moves allowed
      exact ⟨permit, fun readyAfter => ih result (uses.2 result)
        (frame.own w' _ w'' (.act uses.1) before ready readyAfter moves allowed permit)⟩
  | fork forked next ih =>
      intro w' w'' rely ready moves allowed
      have before := frame.stable.rely rely holds
      have permit := permits w' _ w'' (.fork uses.1) before ready moves allowed
      exact ⟨permit, fun readyAfter => ih uses.2
        (frame.own w' _ w'' (.fork uses.1) before ready readyAfter moves allowed permit)⟩

/-- A program whose every step is permitted anyway is safe. -/
theorem Safe.free {program : Program Act Res Call α} (uses : program.Uses acts calls)
    (free : Free sem D thread call acts calls) :
    Safe sem D thread call program (fun _ _ => True) w := by
  induction program generalizing w with
  | done value => trivial
  | act action next ih =>
      intro w' choice result w'' rely ready moves allowed
      exact ⟨free w' _ w'' (.act uses.1) ready moves allowed, fun _ => ih result (uses.2 result)⟩
  | fork forked next ih =>
      intro w' w'' rely ready moves allowed
      exact ⟨free w' _ w'' (.fork uses.1) ready moves allowed, fun _ => ih uses.2⟩

theorem Safe.frame {assertion : World Act Res Call Reply State Choice → Prop}
    {program : Program Act Res Call α} (uses : program.Uses acts calls)
    (free : Free sem D thread call acts calls)
    (frame : Frame sem D thread call acts calls assertion) (holds : assertion w) :
    Safe sem D thread call program (fun _ w' => assertion w') w :=
  ((Safe.free uses free).along uses frame holds).mono fun _ _ after => after.2

section Sequences

variable {post : Except ε β → World Act Res Call Reply State Choice → Prop}

theorem Safe.lift {program : Program Act Res Call β}
    (safe : Safe sem D thread call program (fun value w' => post (.ok value) w') w) :
    Safe sem D thread call (Fallible.lift program : Fallible Act Res Call ε β).run post w :=
  Safe.bind safe

/-- A loop with an invariant over what is left to do. -/
theorem Safe.forEach {body : α → Fallible Act Res Call ε Unit}
    (loop : List α → World Act Res Call Reply State Choice → Prop)
    {failed : ε → World Act Res Call Reply State Choice → Prop}
    (step : ∀ item rest w, loop (item :: rest) w →
      Safe sem D thread call (body item).run (Outcome (fun _ w' => loop rest w') failed) w)
    (items : List α) (holds : loop items w) :
    Safe sem D thread call (Fallible.forEach body items).run
      (Outcome (fun _ w' => loop [] w') failed) w := by
  induction items generalizing w with
  | nil => exact holds
  | cons item rest ih =>
      refine Safe.bindE ((step item rest w holds).mono fun outcome w' done => ?_)
      cases outcome with
      | ok _ => exact ih done
      | error _ => exact done

theorem Safe.collect {body : α → Fallible Act Res Call ε β} {related : α → β → Prop}
    {assertion : World Act Res Call Reply State Choice → Prop}
    (step : ∀ item w, assertion w → Safe sem D thread call (body item).run
      (Outcome (fun value w' => related item value ∧ assertion w') fun _ w' => assertion w') w)
    (items : List α) (holds : assertion w) :
    Safe sem D thread call (Fallible.collect body items).run
      (Outcome (fun values w' => List.Forall₂ related items values ∧ assertion w')
        fun _ w' => assertion w') w := by
  induction items generalizing w with
  | nil => exact ⟨.nil, holds⟩
  | cons item rest ih =>
      refine Safe.bindE ((step item w holds).mono fun outcome w' done => ?_)
      cases outcome with
      | error _ => exact done
      | ok value =>
          refine Safe.bindE ((ih done.2).mono fun others w'' rests => ?_)
          cases others with
          | error _ => exact rests
          | ok values => exact ⟨.cons done.1 rests.1, rests.2⟩

theorem Safe.forEachDone {body : α → Program Act Res Call Unit}
    (loop : List α → World Act Res Call Reply State Choice → Prop)
    (step : ∀ item rest w, loop (item :: rest) w →
      Safe sem D thread call (body item) (fun _ w' => loop rest w') w)
    (items : List α) (holds : loop items w) :
    Safe sem D thread call (Program.forEach body items) (fun _ w' => loop [] w') w := by
  induction items generalizing w with
  | nil => exact holds
  | cons item rest ih =>
      exact Safe.bind ((step item rest w holds).mono fun _ w' done => ih done)

end Sequences

variable (sem D)

/-- The obligations of a discipline: permitted events keep the invariant, and every program that
starts, or is forked, is safe from where it starts. -/
structure Sound : Prop where
  keeps : ∀ w event w', w.Numbered → D.Inv w → w.Moves sem event w' → D.Allowed w event →
    (event.Owned → D.Permit w event) → D.Inv w'
  starts : ∀ w call w', w.Numbered → D.Inv w → w.Moves sem (.start w.next call) w' →
    D.Allowed w (.start w.next call) → D.Ready w.next call w' →
      Safe sem D w.next call (sem.body call) (Final sem D w.next call) w'
  forks : ∀ w thread call forked w', w.Numbered → D.Inv w →
    w.Moves sem (.fork thread call w.next forked) w' →
    D.Allowed w (.fork thread call w.next forked) →
    D.Permit w (.fork thread call w.next forked) → D.Ready w.next forked w' →
      Safe sem D w.next forked (sem.body forked) (Final sem D w.next forked) w'

variable {sem D}

/-- Every thread of the pool is safe in the current world. -/
structure Secure (sem : Semantics Act Res Call Reply State Choice)
    (D : Discipline Act Res Call Reply State Choice) (cfg : Config Act Res Call Reply State Choice) : Prop where
  numbered : cfg.world.Numbered
  inv : D.Inv cfg.world
  safe : ∀ task ∈ cfg.pool,
    Safe sem D task.thread task.call task.program (Final sem D task.thread task.call) cfg.world

theorem Secure.ready {cfg : Config Act Res Call Reply State Choice} (secure : Secure sem D cfg)
    {task : Task Act Res Call Reply} (member : task ∈ cfg.pool) :
    D.Ready task.thread task.call cfg.world :=
  ⟨secure.numbered, secure.inv, Config.mem_live member⟩

theorem Secure.permit {cfg cfg' : Config Act Res Call Reply State Choice} (secure : Secure sem D cfg)
    {event : Event Act Res Call Reply Choice} (executes : cfg.Executes sem event cfg')
    (allowed : D.Allowed cfg.world event) (owned : event.Owned) : D.Permit cfg.world event := by
  have moves := executes.moves
  cases executes with
  | start _ | drop _ | restart => exact owned.elim
  | act member program performed =>
      have safe := secure.safe _ member
      rw [program] at safe
      exact (safe _ _ _ _ .refl (secure.ready member) moves allowed).1
  | fork member program =>
      have safe := secure.safe _ member
      rw [program] at safe
      exact (safe _ _ .refl (secure.ready member) moves allowed).1
  | finish member program =>
      have safe := secure.safe _ member
      rw [program] at safe
      exact safe _ .refl (secure.ready member) allowed

theorem Secure.known {cfg cfg' : Config Act Res Call Reply State Choice} (secure : Secure sem D cfg)
    {event : Event Act Res Call Reply Choice} (executes : cfg.Executes sem event cfg')
    (allowed : D.Allowed cfg.world event) : D.Known cfg.world event :=
  ⟨secure.numbered, secure.inv, secure.permit executes allowed⟩

/-- A thread that did not move is still safe after the step of another one. -/
theorem Secure.other {cfg cfg' : Config Act Res Call Reply State Choice} (secure : Secure sem D cfg)
    {event : Event Act Res Call Reply Choice} (moves : cfg.world.Moves sem event cfg'.world)
    (allowed : D.Allowed cfg.world event) (permit : event.Owned → D.Permit cfg.world event)
    (inv : D.Inv cfg'.world) {task : Task Act Res Call Reply} (member : task ∈ cfg.pool)
    (member' : task ∈ cfg'.pool) (other : event.thread ≠ some task.thread) :
    Safe sem D task.thread task.call task.program (Final sem D task.thread task.call)
      cfg'.world := by
  have numbered' := secure.numbered.moves moves
  refine (secure.safe task member).rely (.single ⟨event, ?_⟩)
  exact ⟨secure.ready member, ⟨numbered', inv, Config.mem_live member'⟩, moves, other, allowed,
    permit⟩

theorem Sound.step (sound : Sound sem D) {cfg cfg' : Config Act Res Call Reply State Choice}
    (secure : Secure sem D cfg) {event : Event Act Res Call Reply Choice}
    (executes : cfg.Executes sem event cfg') (allowed : D.Allowed cfg.world event) :
    Secure sem D cfg' := by
  have moves := executes.moves
  have permit := secure.permit executes allowed
  have inv := sound.keeps _ _ _ secure.numbered secure.inv moves allowed permit
  have numbered' := secure.numbered.moves moves
  have fresh : ∀ task ∈ cfg.pool, task.thread ≠ cfg.next := by
    intro task member same
    have live := Config.mem_live member
    rw [same] at live
    exact secure.numbered.next_not_live task.call live
  refine ⟨numbered', inv, ?_⟩
  intro task member'
  cases executes with
  | @start call admitted =>
      rcases List.mem_cons.1 member' with rfl | member
      · exact sound.starts _ _ _ secure.numbered secure.inv moves allowed
          ⟨numbered', inv, Config.mem_live member'⟩
      · exact secure.other moves allowed permit inv member member'
          (fun same => fresh task member (by simpa [Event.thread, eq_comm] using same))
  | @act mover action next choice result shared member program performed =>
      rcases Config.mem_resume member' with ⟨old, different⟩ | ⟨old, oldMember, same, rfl⟩
      · exact secure.other moves allowed permit inv old member'
          (fun same => different (by simpa [Event.thread, eq_comm] using same))
      · have sameCall : old.call = mover.call :=
          secure.numbered.unique _ _ _ (Config.mem_live oldMember)
            (same ▸ Config.mem_live member)
        have safe := secure.safe _ member
        rw [program] at safe
        have rest := (safe _ _ _ _ .refl (secure.ready member) moves allowed).2
        simp only [same, sameCall]
        refine rest ⟨numbered', inv, ?_⟩
        simpa [same, sameCall] using Config.mem_live member'
  | @fork mover call next member program =>
      rcases List.mem_cons.1 member' with rfl | resumed
      · exact sound.forks _ _ _ _ _ secure.numbered secure.inv moves allowed (permit trivial)
          ⟨numbered', inv, Config.mem_live member'⟩
      rcases Config.mem_resume resumed with ⟨old, different⟩ | ⟨old, oldMember, same, rfl⟩
      · exact secure.other moves allowed permit inv old member'
          (fun same => different (by simpa [Event.thread, eq_comm] using same))
      · have sameCall : old.call = mover.call :=
          secure.numbered.unique _ _ _ (Config.mem_live oldMember)
            (same ▸ Config.mem_live member)
        have safe := secure.safe _ member
        rw [program] at safe
        have rest := (safe _ _ .refl (secure.ready member) moves allowed).2
        simp only [same, sameCall]
        refine rest ⟨numbered', inv, ?_⟩
        simpa [same, sameCall] using Config.mem_live member'
  | @finish mover reply member program =>
      have kept := List.mem_filter.1 member'
      exact secure.other moves allowed permit inv kept.1 member'
        (fun same => of_decide_eq_true kept.2 (by simpa [Event.thread, eq_comm] using same))
  | @drop mover member =>
      have kept := List.mem_filter.1 member'
      exact secure.other moves allowed permit inv kept.1 member'
        (fun same => of_decide_eq_true kept.2 (by simpa [Event.thread, eq_comm] using same))
  | restart => simp at member'

theorem Sound.secure (sound : Sound sem D) {first cfg : Config Act Res Call Reply State Choice}
    (initial : Secure sem D first) (reachable : Reachable sem D.Allowed first cfg) :
    Secure sem D cfg := by
  induction reachable with
  | refl => exact initial
  | step _ executed permitted ih =>
      exact sound.step ih (Config.exec_executes executed) permitted

theorem secure_idle {shared : State} (inv : D.Inv (Config.idle shared).world) :
    Secure sem D (Config.idle shared) :=
  ⟨idle_numbered shared, inv, by simp [Config.idle]⟩

/-- In every allowed run the invariant holds throughout. -/
theorem Sound.invariant (sound : Sound sem D) {first cfg : Config Act Res Call Reply State Choice}
    (initial : Secure sem D first) (reachable : Reachable sem D.Allowed first cfg) :
    D.Inv cfg.world :=
  (sound.secure initial reachable).inv

/-- The runs of a stricter discipline may assume everything a sound one guarantees. -/
theorem Sound.grounded (sound : Sound sem D) {first cfg : Config Act Res Call Reply State Choice}
    {allowed : World Act Res Call Reply State Choice → Event Act Res Call Reply Choice → Prop}
    (stricter : ∀ w event, allowed w event → D.Allowed w event) (initial : Secure sem D first)
    (reachable : Reachable sem allowed first cfg) :
    Reachable sem (fun w event => allowed w event ∧ D.Known w event) first cfg := by
  refine reachable.assume fun cfg cfg' event before executes permitted => ?_
  exact (sound.secure initial (before.mono stricter)).known executes (stricter _ _ permitted)

end Discipline

end Interleave
