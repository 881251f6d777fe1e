import Berth.Agreement

/-!
Runs whose events all meet some condition. They are runs of the hub, so the ledger is kept, and
further invariants and further guarantees can be proved on top of it.
-/

namespace Berth

open Interleave Interleave.Discipline

variable {limit thread : Nat} {call : Call} {w w' : HubWorld} {event : HubEvent}
variable {condition : HubWorld → HubEvent → Prop} {state : State} {cfg : HubConfig}

/-- An event that meets the condition, and what the ledger says about it. -/
structure Meets (condition : HubWorld → HubEvent → Prop) (w : HubWorld) (event : HubEvent) :
    Prop where
  condition : condition w event
  numbered : w.Numbered
  ledger : Ledger w
  permitted : Permitted w event

theorem reachable_meets (blank : state.Blank)
    (reachable : Reachable (hub limit) condition (Config.idle state) cfg) :
    Reachable (hub limit) (Meets condition) (Config.idle state) cfg :=
  (ledger_sound.grounded (fun _ _ _ => trivial) (ledger_secure blank) reachable).mono
    fun _ _ ⟨condition, known⟩ =>
      ⟨condition, known.numbered, known.inv, permitted_of_owned known.permit⟩

theorem reachable_ledger (blank : state.Blank)
    (reachable : Reachable (hub limit) condition (Config.idle state) cfg) : Ledger cfg.world :=
  ledger_sound.invariant (ledger_secure blank) (reachable.mono fun _ _ _ => trivial)

/-- The next event of such a run. -/
theorem meets_next {cfg' : HubConfig} (blank : state.Blank)
    (reachable : Reachable (hub limit) condition (Config.idle state) cfg)
    (executes : cfg.Executes (hub limit) event cfg') (fine : condition cfg.world event) :
    Meets condition cfg.world event := by
  have secure := ledger_sound.secure (ledger_secure blank) (reachable.mono fun _ _ _ => trivial)
  exact ⟨fine, secure.numbered, secure.inv, permitted_of_owned (secure.permit executes trivial)⟩

/-- What every step of such a run keeps holds all along it. -/
theorem invariant_of_meets (holds : HubWorld → Prop) (blank : state.Blank)
    (initial : holds (Config.idle state : HubConfig).world)
    (preserved : ∀ w event w', Meets condition w event → w.Moves (hub limit) event w' →
      holds w → holds w')
    (reachable : Reachable (hub limit) condition (Config.idle state) cfg) : holds cfg.world :=
  (reachable_meets blank reachable).invariant initial
    fun w event w' holds moves meets => preserved w event w' meets moves holds

/-- The discipline of these runs, with a further invariant and a further guarantee. -/
def following (condition permit : HubWorld → HubEvent → Prop) (inv : HubWorld → Prop) :
    Discipline Act Act.Res Call Reply State Choice where
  Allowed := Meets condition
  Permit := permit
  Inv := inv

section Following

variable {permit : HubWorld → HubEvent → Prop} {inv : HubWorld → Prop}

theorem following_grounded : Grounded (following condition permit inv) :=
  ⟨fun _ _ _ meets => meets.ledger, fun _ _ meets _ => meets.permitted⟩

end Following

/-! Calls that end in a certain way. -/

section Concluding

variable {good : HubWorld → Nat → Call → Reply → Prop}

/-- Whoever finishes does so as `good` says. -/
def Concludes (good : HubWorld → Nat → Call → Reply → Prop) (w : HubWorld) (event : HubEvent) :
    Prop :=
  ∀ thread call reply, event = .finish thread call reply → good w thread call reply

def concluding (condition : HubWorld → HubEvent → Prop)
    (good : HubWorld → Nat → Call → Reply → Prop) :
    Discipline Act Act.Res Call Reply State Choice :=
  following condition (Concludes good) fun _ => True

theorem concluding_grounded : Grounded (concluding condition good) := following_grounded

theorem concludes_act {action : Act} {choice : Choice} {result : action.Res} :
    Concludes good w (.act thread call action choice result) := fun _ _ _ eq => nomatch eq

theorem concludes_fork {child : Nat} {forked : Call} :
    Concludes good w (.fork thread call child forked) := fun _ _ _ eq => nomatch eq

theorem free_concluding {acts : Act → Prop} {calls : Call → Prop} :
    Free (hub limit) (concluding condition good) thread call acts calls := by
  intro w event w' own ready moves allowed
  cases own with
  | act _ => exact concludes_act
  | fork _ => exact concludes_fork

/-- A call that ends well however it ends. -/
theorem safe_indifferent (anyway : ∀ w reply, good w thread call reply) (program : Async Reply) :
    Safe (hub limit) (concluding condition good) thread call program
      (Final (hub limit) (concluding condition good) thread call) w := by
  refine (Safe.free program.uses_all free_concluding).mono ?_
  rintro reply w₁ _ w₂ _ _ _ _ _ _ eq
  cases eq
  exact anyway w₂ reply

theorem final_concluded {reply : Reply} {fact : HubWorld → Prop}
    (lasts : Lasting limit thread call (fun _ => False) (fun _ => False) fact) (holds : fact w)
    (ends : ∀ w', fact w' → good w' thread call reply) :
    Final (hub limit) (concluding condition good) thread call reply w := by
  intro w₂ rely _ _ _ _ _ eq
  cases eq
  exact ends w₂ ((lasts.frame concluding_grounded).stable.rely rely holds)

/-- A call that ends well because of what holds when its handler is done. -/
theorem safe_concluded {α : Type} {wrap : AppResult α → Reply} {handler : AsyncResult α}
    {post : AppResult α → HubWorld → Prop}
    (safe : Safe (hub limit) (concluding condition good) thread call handler.run post w)
    (lasts : ∀ outcome, Lasting limit thread call (fun _ => False) (fun _ => False) (post outcome))
    (ends : ∀ outcome w', post outcome w' → good w' thread call (wrap outcome)) :
    Safe (hub limit) (concluding condition good) thread call (replyTo wrap handler)
      (Final (hub limit) (concluding condition good) thread call) w := by
  exact Safe.bind (safe.mono fun outcome w₁ holds =>
    final_concluded (lasts outcome) holds (ends outcome))

/-- Every call that starts or is forked runs in a thread of its own. -/
theorem concluding_sound (runs : ∀ w event call w', w.Numbered → Meets condition w event →
    w.Moves (hub limit) event w' →
    (event = .start w.next call ∨ ∃ thread forking, event = .fork thread forking w.next call) →
      Safe (hub limit) (concluding condition good) w.next call (body limit call)
        (Final (hub limit) (concluding condition good) w.next call) w') :
    Sound (hub limit) (concluding condition good) where
  keeps _ _ _ _ _ _ _ _ := trivial
  starts w call w' numbered _ moves allowed _ := runs w _ call w' numbered allowed moves (.inl rfl)
  forks w thread call forked w' numbered _ moves allowed _ _ :=
    runs w _ forked w' numbered allowed moves (.inr ⟨thread, call, rfl⟩)

/-- In every run that meets the condition, whoever finishes does so as `good` says. -/
theorem concludes_in_run (sound : Sound (hub limit) (concluding condition good))
    (blank : state.Blank) (reachable : Reachable (hub limit) condition (Config.idle state) cfg)
    {command : Command Call Choice} {reply : Reply} {next : HubConfig}
    (executed : cfg.exec (hub limit) command = some (.finish thread call reply, next))
    (fine : condition cfg.world (.finish thread call reply)) : good cfg.world thread call reply := by
  have secure := sound.secure (secure_idle trivial) (reachable_meets blank reachable)
  have executes := Config.exec_executes executed
  exact secure.permit executes (meets_next blank reachable executes fine) trivial _ _ _ rfl

end Concluding

end Berth
