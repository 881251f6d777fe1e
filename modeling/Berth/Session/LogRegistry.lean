import Berth.Session.LogPump

/-!
`LogRegistry` and the writers that register in it: the `LogPump`s, and the `CloneProgress` families,
which are over when the last of their handles is dropped. `deregister` goes by the deployment's id.
-/

namespace Berth.LogRegistry

open Interleave LogFollow

/-- `tx` is the number of a channel. -/
structure ActivePump where
  kind : LogKind
  tx : Nat
  deriving DecidableEq

abbrev Registry : Type := String → Option ActivePump

/-- `LogRegistry::active`: the kind, and the channel that is subscribed to. -/
def active (registry : Registry) (deploymentId : String) : Option (LogKind × Nat) :=
  (registry deploymentId).map fun pump => (pump.kind, pump.tx)

def tryRegister (registry : Registry) (deploymentId : String) (kind : LogKind) (tx : Nat) :
    Option Registry :=
  match registry deploymentId with
  | some _ => none
  | none => some (Function.update registry deploymentId (some ⟨kind, tx⟩))

def deregister (registry : Registry) (deploymentId : String) : Registry :=
  Function.update registry deploymentId none

/-- The path of a target is the file of its kind in the deployment's directory. -/
structure LogTarget where
  deploymentId : String
  kind : LogKind
  deriving DecidableEq

inductive Source where
  | pump (pump : LogPump)
  | clone (hasFile : Bool)
  deriving DecidableEq

/-- `opening` is between the registration and the file, `dropping` between the last handle and
`deregister`. -/
inductive Stage where
  | opening
  | ready
  | dropping
  | gone
  deriving DecidableEq

/-- A pump has one handle, a family one for each `CloneProgress` that shares its sink. A disabled
family has no target: neither a sender nor a `DeregisterOnDrop`. -/
structure Writer where
  source : Source
  target : Option LogTarget
  handles : Nat
  stage : Stage
  deriving DecidableEq

/-- The writers by their numbers; a writer's channel has its number too. -/
structure State where
  registry : Registry
  writers : Nat → Option Writer
  dirs : String → Dir

inductive Event where
  | tryNew (i : Nat) (target : LogTarget)
  | start (i : Nat) (target : Option LogTarget)
  | openFile (i : Nat) (fault : Option LogFault)
  | push (i : Nat) (fault : Option LogFault) (chunk : Bytes)
  | writeLine (i : Nat) (fault : Option LogFault) (message : Bytes)
  | clone (i : Nat)
  | drop (i : Nat)
  | deregister (i : Nat)
  | active (deploymentId : String)
  deriving DecidableEq

/-- The writer that an event is one of. -/
def Event.writer : Event → Option Nat
  | tryNew i _ | start i _ | openFile i _ | push i _ _ | writeLine i _ _ | clone i | drop i
  | deregister i => some i
  | active _ => none

/-- `LogPump::try_new` and `CloneProgress::start`, once they are registered. -/
def Source.openFile (fault : Option LogFault) (kind : LogKind) (dir : Dir) : Source → Source × Dir
  | pump _ =>
      let opened := LogPump.tryNew fault kind dir
      (pump opened.1, opened.2)
  | clone _ =>
      if fault = some .openFile then (clone false, dir)
      else (clone true, Function.update dir kind.fileName (some []))

/-- `CloneProgress::write_line`, up to the broadcast. -/
def writeLine (fault : Option LogFault) (kind : LogKind) (dir : Dir) (message : Bytes) : Dir :=
  let line := message ++ [10]
  match fault with
  | some (.write written) => append dir kind (line.take written)
  | _ => append dir kind line

namespace State

variable (x : State)

def put (i : Nat) (writer : Writer) : State :=
  { x with writers := Function.update x.writers i (some writer) }

def putDir (deploymentId : String) (dir : Dir) : State :=
  { x with dirs := Function.update x.dirs deploymentId dir }

/-- A new writer under its number, if its deployment has none. -/
def register (i : Nat) (source : Source) (target : LogTarget) : Option State :=
  (tryRegister x.registry target.deploymentId target.kind i).map fun registry =>
    { x.put i ⟨source, some target, 1, .opening⟩ with registry := registry }

/-- `CloneProgress::disabled`. -/
def disabled (i : Nat) : State := x.put i ⟨.clone false, none, 1, .ready⟩

def step : Event → Option State
  | .tryNew i target =>
      if x.writers i = none then
        some ((x.register i (.pump ⟨target.kind, false, 0⟩) target).getD x)
      else none
  | .start i target =>
      if x.writers i = none then
        some ((target.bind (x.register i (.clone false))).getD (x.disabled i))
      else none
  | .openFile i fault =>
      match x.writers i with
      | some ⟨source, some target, handles, .opening⟩ =>
          let opened := source.openFile fault target.kind (x.dirs target.deploymentId)
          some ((x.put i ⟨opened.1, some target, handles, .ready⟩).putDir target.deploymentId opened.2)
      | _ => none
  | .push i fault chunk =>
      match x.writers i with
      | some ⟨.pump pump, some target, handles, .ready⟩ =>
          let pushed := pump.push fault (x.dirs target.deploymentId) chunk
          some ((x.put i ⟨.pump pushed.1, some target, handles, .ready⟩).putDir
            target.deploymentId pushed.2)
      | _ => none
  | .writeLine i fault message =>
      match x.writers i with
      | some ⟨.clone true, some target, _, .ready⟩ =>
          some (x.putDir target.deploymentId
            (LogRegistry.writeLine fault target.kind (x.dirs target.deploymentId) message))
      | some ⟨.clone _, _, _, .ready⟩ => some x
      | _ => none
  | .clone i =>
      match x.writers i with
      | some ⟨.clone hasFile, target, handles, .ready⟩ =>
          some (x.put i ⟨.clone hasFile, target, handles + 1, .ready⟩)
      | _ => none
  | .drop i =>
      match x.writers i with
      | some ⟨source, target, handles, .ready⟩ =>
          some (x.put i ⟨source, target, handles - 1, if handles ≤ 1 then .dropping else .ready⟩)
      | _ => none
  | .deregister i =>
      match x.writers i with
      | some ⟨source, some target, handles, .dropping⟩ =>
          some { x.put i ⟨source, some target, handles, .gone⟩ with
            registry := LogRegistry.deregister x.registry target.deploymentId }
      | some ⟨source, none, handles, .dropping⟩ => some (x.put i ⟨source, none, handles, .gone⟩)
      | _ => none
  | .active _ => some x

/-- Before the first writer. -/
def start (dirs : String → Dir) : State where
  registry := fun _ => none
  writers := fun _ => none
  dirs := dirs

end State

abbrev machine : Machine State Event where
  initial := fun x => ∃ dirs, x = State.start dirs
  step := State.step

/-- A writer is live from its registration until it has deregistered. -/
def State.Live (x : State) (i : Nat) (target : LogTarget) : Prop :=
  ∃ writer, x.writers i = some writer ∧ writer.target = some target ∧ writer.stage ≠ .gone

/-- A registration that finds its deployment registered, or that is not asked for. -/
def State.Refuses (x : State) : Event → Prop
  | .tryNew _ target | .start _ (some target) => x.registry target.deploymentId ≠ none
  | .start _ none => True
  | _ => False

/-- Every entry of the registry is that of a live writer, and every live writer has one. -/
structure Owned (x : State) : Prop where
  registered : ∀ i target, x.Live i target →
    x.registry target.deploymentId = some ⟨target.kind, i⟩
  live : ∀ deploymentId kind i, x.registry deploymentId = some ⟨kind, i⟩ →
    x.Live i ⟨deploymentId, kind⟩

variable {x y : State} {event : Event} {i j : Nat} {target other : LogTarget} {source : Source}
variable {writer next : Writer} {dir : Dir} {deploymentId : String}

theorem live_put : (x.put i writer).Live j target ↔
    if j = i then writer.target = some target ∧ writer.stage ≠ .gone else x.Live j target := by
  by_cases same : j = i
  · subst same
    simp [State.Live, State.put]
  · simp [State.Live, State.put, same]

theorem live_putDir : (x.putDir deploymentId dir).Live j target ↔ x.Live j target := Iff.rfl

theorem live_of_registry {registry : Registry} :
    ({ x with registry := registry } : State).Live j target ↔ x.Live j target := Iff.rfl

theorem live_target (first : x.Live i target) (second : x.Live i other) : target = other := by
  obtain ⟨writer, found, isTarget, _⟩ := first
  obtain ⟨_, same, isOther, _⟩ := second
  rw [found] at same
  cases same
  rw [isTarget] at isOther
  exact Option.some.inj isOther

/-- A writer that goes on with its target. -/
theorem live_put_same (found : x.writers i = some writer) (before : writer.stage ≠ .gone)
    (same : next.target = writer.target) (after : next.stage ≠ .gone) :
    (x.put i next).Live j target ↔ x.Live j target := by
  rw [live_put]
  by_cases isSame : j = i
  · subst isSame
    simp [State.Live, found, before, same, after]
  · simp [isSame]

/-- A writer without a target is never live. -/
theorem live_put_disabled (found : ∀ writer, x.writers i = some writer → writer.target = none)
    (disabled : next.target = none) : (x.put i next).Live j target ↔ x.Live j target := by
  rw [live_put]
  by_cases isSame : j = i
  · subst isSame
    simp only [if_true, disabled, reduceCtorEq, false_and, false_iff]
    rintro ⟨writer, present, isTarget, _⟩
    rw [found writer present] at isTarget
    cases isTarget
  · simp [isSame]

/-- What a step does to the registry and to those who are live. -/
inductive Effect (x : State) (event : Event) (y : State) : Prop
  | registers (i : Nat) (target : LogTarget) (isFree : x.registry target.deploymentId = none)
      (registry : y.registry =
        Function.update x.registry target.deploymentId (some ⟨target.kind, i⟩))
      (live : ∀ j other, y.Live j other ↔ x.Live j other ∨ j = i ∧ other = target)
  | keeps (registry : y.registry = x.registry) (live : ∀ j other, y.Live j other ↔ x.Live j other)
  | deregisters (i : Nat) (target : LogTarget) (isOwn : event = .deregister i)
      (wasLive : x.Live i target) (registry : y.registry = deregister x.registry target.deploymentId)
      (live : ∀ j other, y.Live j other ↔ x.Live j other ∧ j ≠ i)

theorem register_eq (isFree : x.registry target.deploymentId = none) :
    x.register i source target = some { x.put i ⟨source, some target, 1, .opening⟩ with
      registry := Function.update x.registry target.deploymentId (some ⟨target.kind, i⟩) } := by
  simp [State.register, tryRegister, isFree]

theorem register_refused (isTaken : x.registry target.deploymentId ≠ none) :
    x.register i source target = none := by
  obtain ⟨pump, taken⟩ := Option.ne_none_iff_exists'.1 isTaken
  simp [State.register, tryRegister, taken]

theorem Effect.register (isNew : x.writers i = none)
    (isFree : x.registry target.deploymentId = none) :
    Effect x event { x.put i ⟨source, some target, 1, .opening⟩ with
      registry := Function.update x.registry target.deploymentId (some ⟨target.kind, i⟩) } := by
  refine .registers i target isFree rfl ?_
  intro j other
  rw [live_of_registry, live_put]
  by_cases isSame : j = i
  · subst isSame
    have notLive : ¬ x.Live j other := by
      rintro ⟨writer, found, _⟩
      rw [isNew] at found
      cases found
    simp [notLive, eq_comm]
  · simp [isSame]

theorem step_effect (stepped : x.step event = some y) : Effect x event y := by
  cases event with
  | tryNew i target =>
      simp only [State.step] at stepped
      split at stepped <;> cases stepped
      rename_i isNew
      by_cases isFree : x.registry target.deploymentId = none
      · rw [register_eq isFree]
        exact .register isNew isFree
      · rw [register_refused isFree]
        exact .keeps rfl fun _ _ => Iff.rfl
  | start i target =>
      simp only [State.step] at stepped
      split at stepped <;> cases stepped
      rename_i isNew
      have disabled : Effect x (.start i target) (x.disabled i) := by
        refine .keeps rfl fun j other => live_put_disabled ?_ rfl
        intro writer found
        rw [isNew] at found
        cases found
      cases target with
      | none => exact disabled
      | some target =>
          by_cases isFree : x.registry target.deploymentId = none
          · rw [Option.bind_some, register_eq isFree]
            exact .register isNew isFree
          · rw [Option.bind_some, register_refused isFree]
            exact disabled
  | openFile i fault | push i fault chunk | clone i =>
      simp only [State.step] at stepped
      split at stepped <;> cases stepped
      rename_i found
      exact .keeps rfl fun j other => live_put_same found (by simp) rfl (by simp)
  | writeLine i fault message =>
      simp only [State.step] at stepped
      split at stepped <;> cases stepped
      · exact .keeps rfl fun j other => live_putDir
      · exact .keeps rfl fun _ _ => Iff.rfl
  | drop i =>
      simp only [State.step] at stepped
      split at stepped <;> cases stepped
      rename_i handles found
      refine .keeps rfl fun j other => live_put_same found (by simp) rfl ?_
      dsimp only
      split <;> simp
  | deregister i =>
      simp only [State.step] at stepped
      split at stepped <;> cases stepped
      · rename_i source target handles found
        refine .deregisters i target rfl ⟨_, found, rfl, by simp⟩ rfl ?_
        intro j other
        rw [live_of_registry, live_put]
        by_cases isSame : j = i
        · simp [isSame]
        · simp [isSame]
      · rename_i found
        refine .keeps rfl fun j other => live_put_disabled ?_ rfl
        intro writer present
        rw [found] at present
        cases present
        rfl
  | active deploymentId =>
      cases stepped
      exact .keeps rfl fun _ _ => Iff.rfl

theorem Owned.step (owned : Owned x) (stepped : x.step event = some y) : Owned y := by
  cases step_effect stepped with
  | registers i target isFree registry live =>
      constructor
      · intro j other isLive
        rw [registry]
        rcases (live j other).1 isLive with before | ⟨rfl, rfl⟩
        · have entry := owned.registered j other before
          have apart : other.deploymentId ≠ target.deploymentId := by
            intro same
            rw [same, isFree] at entry
            cases entry
          rw [Function.update_of_ne apart]
          exact entry
        · exact Function.update_self ..
      · intro deploymentId kind j entry
        rw [registry] at entry
        by_cases same : deploymentId = target.deploymentId
        · subst same
          rw [Function.update_self] at entry
          cases entry
          exact (live i target).2 (.inr ⟨rfl, rfl⟩)
        · rw [Function.update_of_ne same] at entry
          exact (live j _).2 (.inl (owned.live _ _ _ entry))
  | keeps registry live =>
      constructor
      · intro j other isLive
        rw [registry]
        exact owned.registered j other ((live j other).1 isLive)
      · intro deploymentId kind j entry
        rw [registry] at entry
        exact (live j _).2 (owned.live _ _ _ entry)
  | deregisters i target _ wasLive registry live =>
      constructor
      · intro j other isLive
        obtain ⟨before, apart⟩ := (live j other).1 isLive
        have entry := owned.registered j other before
        have elsewhere : other.deploymentId ≠ target.deploymentId := by
          -- the entry that goes is the one of the writer that deregisters
          intro same
          rw [same, owned.registered i target wasLive] at entry
          exact apart (congrArg ActivePump.tx (Option.some.inj entry)).symm
        rw [registry, deregister, Function.update_of_ne elsewhere]
        exact entry
      · intro deploymentId kind j entry
        rw [registry, deregister] at entry
        have elsewhere : deploymentId ≠ target.deploymentId := by
          intro same
          rw [same, Function.update_self] at entry
          cases entry
        rw [Function.update_of_ne elsewhere] at entry
        have before := owned.live _ _ _ entry
        refine (live j _).2 ⟨before, ?_⟩
        rintro rfl
        exact elsewhere (congrArg LogTarget.deploymentId (live_target before wasLive))

theorem owned_of_reachable (reachable : machine.Reachable x) : Owned x := by
  apply reachable.invariant Owned
  · rintro _ ⟨dirs, rfl⟩
    constructor
    · rintro i target ⟨writer, found, _⟩
      cases found
    · intro deploymentId kind i entry
      cases entry
  · exact fun x event y owned stepped _ => owned.step stepped

/-- What `active` finds is the live writer of the deployment. -/
theorem Owned.active (owned : Owned x) {kind : LogKind} {tx : Nat}
    (found : LogRegistry.active x.registry deploymentId = some (kind, tx)) :
    x.Live tx ⟨deploymentId, kind⟩ := by
  obtain ⟨pump, entry, same⟩ := Option.map_eq_some_iff.1 found
  cases same
  exact owned.live _ _ _ entry

theorem Owned.unique (owned : Owned x) (first : x.Live i target) (second : x.Live j other)
    (same : target.deploymentId = other.deploymentId) : i = j := by
  have entry := owned.registered i target first
  rw [same, owned.registered j other second] at entry
  exact (congrArg ActivePump.tx (Option.some.inj entry)).symm

theorem Owned.registered_iff (owned : Owned x) (deploymentId : String) :
    x.registry deploymentId ≠ none ↔ ∃! i, ∃ kind, x.Live i ⟨deploymentId, kind⟩ := by
  constructor
  · intro isThere
    obtain ⟨⟨kind, i⟩, entry⟩ := Option.ne_none_iff_exists'.1 isThere
    refine ⟨i, ⟨kind, owned.live _ _ _ entry⟩, ?_⟩
    rintro j ⟨kind', isLive⟩
    exact owned.unique isLive (owned.live _ _ _ entry) rfl
  · rintro ⟨i, ⟨kind, isLive⟩, _⟩
    rw [owned.registered i _ isLive]
    exact Option.some_ne_none _

/-- Only its own `deregister` ends a writer and its registration. -/
theorem Owned.stays (owned : Owned x) (stepped : x.step event = some y) (isLive : x.Live j target)
    (notOwn : event ≠ .deregister j) :
    y.Live j target ∧ y.registry target.deploymentId = x.registry target.deploymentId := by
  have after : y.Live j target := by
    cases step_effect stepped with
    | registers i other _ _ live => exact (live j target).2 (.inl isLive)
    | keeps _ live => exact (live j target).2 isLive
    | deregisters i other isOwn _ _ live =>
        refine (live j target).2 ⟨isLive, ?_⟩
        rintro rfl
        exact notOwn isOwn
  refine ⟨after, ?_⟩
  rw [(owned.step stepped).registered j target after, owned.registered j target isLive]

theorem refused_dirs (refuses : x.Refuses event) (stepped : x.step event = some y) :
    y.dirs = x.dirs ∧ y.registry = x.registry := by
  cases event with
  | tryNew i target =>
      simp only [State.step] at stepped
      split at stepped <;> cases stepped
      rw [register_refused refuses]
      exact ⟨rfl, rfl⟩
  | start i target =>
      simp only [State.step] at stepped
      split at stepped <;> cases stepped
      cases target with
      | none => exact ⟨rfl, rfl⟩
      | some target =>
          rw [Option.bind_some, register_refused refuses]
          exact ⟨rfl, rfl⟩
  | openFile _ _ | push _ _ _ | writeLine _ _ _ | clone _ | drop _ | deregister _ | active _ =>
      exact refuses.elim

/-- A disabled family touches neither a file nor the registry. -/
theorem disabled_dirs (found : x.writers i = some writer) (disabled : writer.target = none)
    (isOwn : event.writer = some i) (stepped : x.step event = some y) :
    y.dirs = x.dirs ∧ y.registry = x.registry := by
  have absent {source : Source} {target : LogTarget} {handles : Nat} {stage : Stage}
      (present : x.writers i = some ⟨source, some target, handles, stage⟩) : False := by
    rw [found] at present
    cases present
    cases disabled
  cases event with
  | tryNew j _ | start j _ =>
      cases isOwn
      simp [State.step, found] at stepped
  | openFile j _ | push j _ _ =>
      cases isOwn
      simp only [State.step] at stepped
      split at stepped <;> cases stepped
      rename_i present
      exact (absent present).elim
  | writeLine j _ _ =>
      cases isOwn
      simp only [State.step] at stepped
      split at stepped <;> cases stepped
      · rename_i present
        exact (absent present).elim
      · exact ⟨rfl, rfl⟩
  | clone j | drop j =>
      cases isOwn
      simp only [State.step] at stepped
      split at stepped <;> cases stepped
      exact ⟨rfl, rfl⟩
  | deregister j =>
      cases isOwn
      simp only [State.step] at stepped
      split at stepped <;> cases stepped
      · rename_i present
        exact (absent present).elim
      · exact ⟨rfl, rfl⟩
  | active _ => cases isOwn

/-- The rules of the registry, in a state of a run and for what can happen next in it. -/
structure OneWriter (x : State) : Prop where
  registered : ∀ deploymentId,
    x.registry deploymentId ≠ none ↔ ∃! i, ∃ kind, x.Live i ⟨deploymentId, kind⟩
  unique : ∀ i j target other, x.Live i target → x.Live j other →
    target.deploymentId = other.deploymentId → i = j
  active : ∀ deploymentId kind tx, active x.registry deploymentId = some (kind, tx) →
    x.Live tx ⟨deploymentId, kind⟩
  refused : ∀ event y, x.Refuses event → x.step event = some y →
    y.dirs = x.dirs ∧ y.registry = x.registry
  disabled : ∀ i writer event y, x.writers i = some writer → writer.target = none →
    event.writer = some i → x.step event = some y → y.dirs = x.dirs ∧ y.registry = x.registry
  stays : ∀ event y j target, x.step event = some y → x.Live j target → event ≠ .deregister j →
    y.Live j target ∧ y.registry target.deploymentId = x.registry target.deploymentId

theorem one_writer (reachable : machine.Reachable x) : OneWriter x := by
  have owned := owned_of_reachable reachable
  constructor
  · exact owned.registered_iff
  · exact fun i j target other => owned.unique
  · exact fun deploymentId kind tx => owned.active
  · exact fun event y => refused_dirs
  · exact fun i writer event y => disabled_dirs
  · exact fun event y j target => owned.stays

/-- A pump, a family that is refused beside it, and one of another deployment with two handles. -/
def threeWriters : List Event :=
  [.tryNew 0 ⟨"a", .build⟩, .openFile 0 none, .start 1 (some ⟨"a", .clone⟩),
    .start 2 (some ⟨"b", .clone⟩), .openFile 2 none, .clone 2, .push 0 none [1],
    .writeLine 1 none [2], .writeLine 2 none [3], .drop 1, .deregister 1, .drop 2]

theorem one_writer_three : ∃ x : State, machine.Reachable x ∧
    x.registry "a" = some ⟨.build, 0⟩ ∧ x.registry "b" = some ⟨.clone, 2⟩ ∧
    x.dirs "a" "build.log" = some [1] ∧ x.dirs "a" "clone.log" = none ∧ OneWriter x := by
  obtain ⟨x, reachable, held⟩ := Machine.exists_of_play machine (fun _ _ => True)
    (fun _ _ => true) (fun x => x.registry "a" = some ⟨.build, 0⟩ ∧
      x.registry "b" = some ⟨.clone, 2⟩ ∧ x.dirs "a" "build.log" = some [1] ∧
      x.dirs "a" "clone.log" = none)
    (fun _ _ _ => trivial) ⟨fun _ _ => none, rfl⟩ threeWriters (by decide +kernel)
  obtain ⟨first, second, written, untouched⟩ := of_decide_eq_true held
  exact ⟨x, reachable, first, second, written, untouched, one_writer reachable⟩

end Berth.LogRegistry
