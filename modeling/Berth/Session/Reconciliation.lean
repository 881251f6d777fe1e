import Berth.Session.Registry

/-!
The signal from `Hub::session` to the reconciliation loop. A call makes its link callable and then
signals into a channel of one slot, without waiting: where the slot is taken, the signal is
dropped. The loop takes one signal, runs `on_agent_connected`, and receives again.
-/

namespace Berth.Reconciliation

open Interleave
open Berth.Registry (AgentRegistry)

/-- `connected` of the registry is the channel's slot. The calls in `signalling` have set their
outbound side and not come to `try_send` yet; `reconciling` says that a pass is under way. -/
structure Hub where
  registry : AgentRegistry
  signalling : Nat → Bool
  reconciling : Bool

inductive Event where
  | session (event : Registry.Event)
  | trySend (n : Nat)
  | recv
  | reconciled
  deriving DecidableEq

namespace Hub

variable (hub : Hub)

/-- A call that is about to signal does nothing else: `try_send` follows `set_outbound` at once. -/
def session : Registry.Event → Option Hub
  | .setOutbound n =>
      (hub.registry.advance n .settingOutbound .touchingHost).map fun registry =>
        { hub with registry, signalling := Function.update hub.signalling n true }
  | .touchHost n =>
      if hub.signalling n then none
      else (hub.registry.step (.touchHost n)).map fun registry => { hub with registry }
  | .drop n =>
      if hub.signalling n then none
      else (hub.registry.step (.drop n)).map fun registry => { hub with registry }
  | .reconcile => none
  | event => (hub.registry.step event).map fun registry => { hub with registry }

/-- A full channel drops the signal, and is as full as before. -/
def trySend (n : Nat) : Option Hub :=
  if hub.signalling n then
    some { hub with
      registry := { hub.registry with connected := true }
      signalling := Function.update hub.signalling n false }
  else none

def recv : Option Hub :=
  if hub.reconciling = false ∧ hub.registry.connected = true then
    some { hub with registry := { hub.registry with connected := false }, reconciling := true }
  else none

def reconciled : Option Hub :=
  if hub.reconciling then some { hub with reconciling := false } else none

def step : Event → Option Hub
  | .session event => hub.session event
  | .trySend n => hub.trySend n
  | .recv => hub.recv
  | .reconciled => hub.reconciled

def new : Hub where
  registry := AgentRegistry.new
  signalling := fun _ => false
  reconciling := false

end Hub

abbrev machine : Machine Hub Event where
  initial := fun hub => hub = Hub.new
  step := Hub.step

variable {hub next : Hub} {history : List (Hub × Event)} {event : Event} {n : Nat}

def Happened (history : List (Hub × Event)) (event : Event) : Prop :=
  ∃ hub, (hub, event) ∈ history

/-- A pass of the loop has begun after the event. -/
def PassSince (history : List (Hub × Event)) (event : Event) : Prop :=
  ∃ later hub earlier, history = later ++ (hub, .recv) :: earlier ∧ Happened earlier event

theorem Happened.later (happened : Happened history event) (moment : Hub × Event) :
    Happened (moment :: history) event := by
  obtain ⟨hub, member⟩ := happened
  exact ⟨hub, List.mem_cons_of_mem _ member⟩

theorem PassSince.later (pass : PassSince history event) (moment : Hub × Event) :
    PassSince (moment :: history) event := by
  obtain ⟨later, hub, earlier, rfl, happened⟩ := pass
  exact ⟨moment :: later, hub, earlier, rfl, happened⟩

theorem Happened.passSince (happened : Happened history event) :
    PassSince ((hub, .recv) :: history) event :=
  ⟨[], hub, history, rfl, happened⟩

theorem advance_connected {registry advanced : AgentRegistry} {before after : Registry.Phase}
    (stepped : registry.advance n before after = some advanced) :
    advanced.connected = registry.connected := by
  obtain ⟨host, _, rfl⟩ := Registry.advance_eq stepped
  rfl

/-- Only `try_send` and the loop touch the channel. -/
theorem step_connected {registry after : AgentRegistry} {event : Registry.Event}
    (stepped : registry.step event = some after) (outbound : ∀ n, event ≠ .setOutbound n)
    (reconcile : event ≠ .reconcile) : after.connected = registry.connected := by
  cases event with
  | call =>
      cases stepped
      rfl
  | authenticate n host =>
      simp only [AgentRegistry.step, AgentRegistry.authenticate] at stepped
      split at stepped <;> cases stepped
      · simp only [AgentRegistry.connect]
        split <;> rfl
      · rfl
  | setOutbound n => exact absurd rfl (outbound n)
  | touchHost n | receive n | resolve n | failPending n => exact advance_connected stepped
  | hangUp n =>
      simp only [AgentRegistry.step, AgentRegistry.hangUp] at stepped
      split at stepped <;> cases stepped
      rfl
  | drop n =>
      simp only [AgentRegistry.step, AgentRegistry.drop] at stepped
      split at stepped
      · cases stepped
        rfl
      · split at stepped <;> cases stepped
        rfl
      · cases stepped
  | reconcile => exact absurd rfl reconcile

/-- What a step of a session does to the hub's side of the signal. -/
structure Calls (hub : Hub) (event : Registry.Event) (next : Hub) : Prop where
  connected : next.registry.connected = hub.registry.connected
  reconciling : next.reconciling = hub.reconciling
  signalling : ∀ n, next.signalling n = true → hub.signalling n = true ∨ event = .setOutbound n

theorem calls_of_step {event : Registry.Event} (outbound : ∀ n, event ≠ .setOutbound n)
    (reconcile : event ≠ .reconcile)
    (stepped : (hub.registry.step event).map (fun registry => { hub with registry }) = some next) :
    Calls hub event next := by
  obtain ⟨after, moved, rfl⟩ := Option.map_eq_some_iff.1 stepped
  exact ⟨step_connected moved outbound reconcile, rfl, fun _ held => Or.inl held⟩

theorem session_calls {event : Registry.Event} (stepped : hub.session event = some next) :
    Calls hub event next := by
  cases event with
  | setOutbound n =>
      obtain ⟨advanced, advances, rfl⟩ := Option.map_eq_some_iff.1 stepped
      refine ⟨advance_connected advances, rfl, fun m held => ?_⟩
      by_cases same : m = n
      · exact Or.inr (by rw [same])
      · exact Or.inl (by simpa [Function.update_apply, same] using held)
  | touchHost n | drop n =>
      simp only [Hub.session] at stepped
      split at stepped
      · cases stepped
      · exact calls_of_step (by simp) (by simp) stepped
  | reconcile => cases stepped
  | call | authenticate n host | receive n | resolve n | hangUp n | failPending n =>
      exact calls_of_step (by simp) (by simp) stepped

/-- A signal that was sent is in the slot, or a pass has begun since its link became callable. -/
structure Signalled (history : List (Hub × Event)) (hub : Hub) : Prop where
  outbound : ∀ n, hub.signalling n = true → Happened history (.session (.setOutbound n))
  sent : ∀ n, Happened history (.trySend n) → Happened history (.session (.setOutbound n))
  pending : ∀ n, Happened history (.trySend n) →
    hub.registry.connected = true ∨ PassSince history (.session (.setOutbound n))
  ends : ∀ later before earlier, history = later ++ (before, .recv) :: earlier →
    hub.reconciling = true ∨ Happened later .reconciled

theorem happened_cons (happened : Happened ((hub, event) :: history) (.trySend n))
    (different : event ≠ .trySend n) : Happened history (.trySend n) := by
  obtain ⟨before, member⟩ := happened
  rcases List.mem_cons.1 member with same | member
  · cases same
    exact absurd rfl different
  · exact ⟨before, member⟩

/-- The passes of a longer history are those of the shorter one, and perhaps one more. -/
theorem Signalled.ends_cons (signalled : Signalled history hub)
    {earlier later : List (Hub × Event)} {before : Hub}
    (same : (hub, event) :: history = later ++ (before, .recv) :: earlier)
    (different : event ≠ .recv) : hub.reconciling = true ∨ Happened later .reconciled := by
  rcases List.cons_eq_append_iff.1 same with ⟨_, eq⟩ | ⟨later', rfl, eq⟩
  · cases eq
    exact absurd rfl different
  · rcases signalled.ends later' before earlier eq with under | ended
    · exact Or.inl under
    · exact Or.inr (ended.later _)

theorem Signalled.session {called : Registry.Event} (signalled : Signalled history hub)
    (stepped : hub.session called = some next) :
    Signalled ((hub, .session called) :: history) next := by
  have calls := session_calls stepped
  refine ⟨?_, ?_, ?_, ?_⟩
  · intro n held
    rcases calls.signalling n held with held | rfl
    · exact (signalled.outbound n held).later _
    · exact ⟨hub, List.mem_cons_self⟩
  · intro n sent
    exact (signalled.sent n (happened_cons sent (by simp))).later _
  · intro n sent
    rw [calls.connected]
    rcases signalled.pending n (happened_cons sent (by simp)) with full | pass
    · exact Or.inl full
    · exact Or.inr (pass.later _)
  · intro later before earlier same
    rw [calls.reconciling]
    exact signalled.ends_cons same (by simp)

theorem Signalled.trySend (signalled : Signalled history hub)
    (stepped : hub.trySend n = some next) : Signalled ((hub, .trySend n) :: history) next := by
  simp only [Hub.trySend] at stepped
  split at stepped <;> cases stepped
  rename_i about
  refine ⟨?_, ?_, fun _ _ => Or.inl rfl, ?_⟩
  · intro m held
    have held : hub.signalling m = true := by
      by_cases same : m = n
      · exact same ▸ about
      · simpa [Function.update_apply, same] using held
    exact (signalled.outbound m held).later _
  · intro m sent
    by_cases same : m = n
    · exact (signalled.outbound m (same ▸ about)).later _
    · exact (signalled.sent m (happened_cons sent (by simpa using Ne.symm same))).later _
  · intro later before earlier same
    exact signalled.ends_cons same (by simp)

/-- Every signal sent so far is answered by the pass that begins now. -/
theorem Signalled.recv (signalled : Signalled history hub) (stepped : hub.recv = some next) :
    Signalled ((hub, .recv) :: history) next := by
  simp only [Hub.recv] at stepped
  split at stepped <;> cases stepped
  refine ⟨?_, ?_, ?_, fun _ _ _ _ => Or.inl rfl⟩
  · intro n held
    exact (signalled.outbound n held).later _
  · intro n sent
    exact (signalled.sent n (happened_cons sent (by simp))).later _
  · intro n sent
    exact Or.inr (signalled.sent n (happened_cons sent (by simp))).passSince

theorem Signalled.reconciled (signalled : Signalled history hub)
    (stepped : hub.reconciled = some next) : Signalled ((hub, .reconciled) :: history) next := by
  simp only [Hub.reconciled] at stepped
  split at stepped <;> cases stepped
  refine ⟨?_, ?_, ?_, ?_⟩
  · intro n held
    exact (signalled.outbound n held).later _
  · intro n sent
    exact (signalled.sent n (happened_cons sent (by simp))).later _
  · intro n sent
    rcases signalled.pending n (happened_cons sent (by simp)) with full | pass
    · exact Or.inl full
    · exact Or.inr (pass.later _)
  · intro later before earlier same
    rcases List.cons_eq_append_iff.1 same with ⟨_, eq⟩ | ⟨later', rfl, _⟩
    · cases eq
    · exact Or.inr ⟨hub, List.mem_cons_self⟩

theorem signalled_of_run (run : machine.Run (fun _ _ => True) history hub) :
    Signalled history hub := by
  refine run.invariant Signalled ?_ ?_
  · rintro hub rfl
    refine ⟨by simp [Hub.new], ?_, ?_, ?_⟩
    · rintro n ⟨before, member⟩
      cases member
    · rintro n ⟨before, member⟩
      cases member
    · intro later before earlier same
      simp at same
  · intro history hub event next signalled stepped _
    cases event with
    | session called => exact signalled.session stepped
    | trySend n => exact signalled.trySend stepped
    | recv => exact signalled.recv stepped
    | reconciled => exact signalled.reconciled stepped

/-- Once the loop is idle and the channel empty, a whole pass has run since the link of any call
that has signalled became callable. -/
theorem connect_reconciled (run : machine.Run (fun _ _ => True) history hub)
    (sent : Happened history (.trySend n)) (idle : hub.reconciling = false)
    (empty : hub.registry.connected = false) :
    ∃ later before earlier, history = later ++ (before, .recv) :: earlier ∧
      Happened later .reconciled ∧ Happened earlier (.session (.setOutbound n)) := by
  have signalled := signalled_of_run run
  have pass : PassSince history (.session (.setOutbound n)) :=
    (signalled.pending n sent).resolve_left (by simp [empty])
  obtain ⟨later, before, earlier, same, happened⟩ := pass
  have ended : Happened later .reconciled :=
    (signalled.ends later before earlier same).resolve_left (by simp [idle])
  exact ⟨later, before, earlier, same, ended, happened⟩

/-- Two agents connect; the second one's signal is taken while the first pass is under way, and a
third call's signal is dropped. -/
def crowded : List Event :=
  [.session .call, .session (.authenticate 0 (some 1)), .session (.setOutbound 0), .trySend 0, .recv,
    .session .call, .session (.authenticate 1 (some 2)), .session (.setOutbound 1), .trySend 1,
    .session .call, .session (.authenticate 2 (some 3)), .session (.setOutbound 2), .trySend 2,
    .reconciled, .recv, .reconciled]

theorem connect_reconciled_dropped : ∃ history hub, machine.Run (fun _ _ => True) history hub ∧
    history.map Prod.snd = crowded.reverse ∧
    ∃ later before earlier, history = later ++ (before, .recv) :: earlier ∧
      Happened later .reconciled ∧ Happened earlier (.session (.setOutbound 2)) := by
  obtain ⟨history, hub, run, same, held⟩ := Machine.exists_run_of_play machine (fun _ _ => True)
    (fun _ _ => true) (fun hub => !hub.reconciling && !hub.registry.connected)
    (fun _ _ _ => trivial) rfl crowded (by decide +kernel)
  simp only [Bool.and_eq_true, Bool.not_eq_true'] at held
  have sent : Happened history (.trySend 2) := by
    have member : Event.trySend 2 ∈ history.map Prod.snd := by
      rw [same]
      decide
    obtain ⟨⟨before, _⟩, member, rfl⟩ := List.mem_map.1 member
    exact ⟨before, member⟩
  exact ⟨history, hub, run, same, connect_reconciled run sent held.1 held.2⟩

end Berth.Reconciliation
