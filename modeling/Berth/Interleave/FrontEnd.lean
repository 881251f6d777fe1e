import Mathlib.Data.List.Forall2
import Mathlib.Data.List.Nodup
import Berth.Interleave.Answers

/-!
Requests in front of a system. A request looks around before it goes on to a call of the system, and
again before it answers. Looking changes nothing, so a run with requests is a run of the system
behind them.
-/

namespace Interleave

variable {Act : Type} {Res : Act → Type} {Call Reply State Choice Request Answer : Type}

/-- A request, or a call that goes on without one. -/
inductive Entry (Request Call : Type) where
  | request (request : Request)
  | inner (call : Call)

inductive Output (Answer Reply : Type) where
  | answer (answer : Answer)
  | reply (reply : Reply)

namespace Program

variable {α β : Type}

/-- The program where calls are forked behind the requests. -/
def behind : Program Act Res Call α → Program Act Res (Entry Request Call) α
  | done value => done value
  | act action next => act action fun result => (next result).behind
  | fork call next => fork (.inner call) next.behind

theorem Uses.behind {acts : Act → Prop} {calls : Call → Prop} {program : Program Act Res Call α}
    (uses : program.Uses acts calls) :
    (program.behind : Program Act Res (Entry Request Call) α).Uses acts fun _ => True := by
  induction program with
  | done value => trivial
  | act action next ih => exact ⟨uses.1, fun result => ih result (uses.2 result)⟩
  | fork call next ih => exact ⟨trivial, ih uses.2⟩

/-- The next step, if there is one, is a silent action. -/
def Quiet (silent : Act → Prop) : Program Act Res Call α → Prop
  | done _ => True
  | act action _ => silent action
  | fork _ _ => False

end Program

open Program

namespace Config

variable {cfg : Config Act Res Call Reply State Choice}
variable (sem : Semantics Act Res Call Reply State Choice)

/-! What the commands do, one equation each. -/

theorem exec_start {call : Call} (admitted : sem.admits cfg.shared cfg.live call = true) :
    cfg.exec sem (.start call) = some (.start cfg.next call,
      ⟨cfg.shared, ⟨cfg.next, call, sem.body call⟩ :: cfg.pool, cfg.next + 1,
        cfg.world.record (.start cfg.next call)⟩) := by
  simp only [exec, if_pos admitted]

variable {task : Task Act Res Call Reply} {thread : Nat} (choice : Choice)

theorem exec_drop (found : cfg.pool.find? (fun task => task.thread = thread) = some task) :
    cfg.exec sem (.drop thread) = some (.drop thread task.call,
      ⟨sem.release thread cfg.shared, cfg.remove thread, cfg.next,
        cfg.world.record (.drop thread task.call)⟩) := by
  simp only [exec, found]

theorem exec_finish (found : cfg.pool.find? (fun task => task.thread = thread) = some task)
    {reply : Reply} (program : task.program = .done reply) :
    cfg.exec sem (.step thread choice) = some (.finish thread task.call reply,
      ⟨cfg.shared, cfg.remove thread, cfg.next,
        cfg.world.record (.finish thread task.call reply)⟩) := by
  simp only [exec, found, program]

theorem exec_act (found : cfg.pool.find? (fun task => task.thread = thread) = some task)
    {action : Act} {next : Res action → Program Act Res Call Reply}
    (program : task.program = .act action next) {result : Res action} {shared : State}
    (performed : sem.perform thread action choice cfg.shared = some (result, shared)) :
    cfg.exec sem (.step thread choice) = some (.act thread task.call action choice result,
      ⟨shared, cfg.resume thread (next result), cfg.next,
        cfg.world.record (.act thread task.call action choice result)⟩) := by
  simp only [exec, found, program, performed]

theorem exec_fork (found : cfg.pool.find? (fun task => task.thread = thread) = some task)
    {call : Call} {next : Program Act Res Call Reply} (program : task.program = .fork call next) :
    cfg.exec sem (.step thread choice) = some (.fork thread task.call cfg.next call,
      ⟨cfg.shared, ⟨cfg.next, call, sem.body call⟩ :: cfg.resume thread next, cfg.next + 1,
        cfg.world.record (.fork thread task.call cfg.next call)⟩) := by
  simp only [exec, found, program]

end Config

/-- A request ends with an answer of its own, or goes on to its call and answers what that replies. -/
structure FrontEnd (Act : Type) (Res : Act → Type) (Call Reply State Request Answer : Type) where
  call : Request → Call
  guard : Request → Program Act Res Call (Except Answer Unit)
  view : Request → Reply → Program Act Res Call Answer
  admits : State → Request → Bool
  inner : Call → Bool

namespace FrontEnd

variable (front : FrontEnd Act Res Call Reply State Request Answer)
variable (sem : Semantics Act Res Call Reply State Choice)

def callOf : Entry Request Call → Call
  | .request request => front.call request
  | .inner call => call

/-- What comes after the reply of the call. -/
def respond :
    Entry Request Call → Reply → Program Act Res (Entry Request Call) (Output Answer Reply)
  | .request request, reply =>
      (front.view request reply).behind >>= fun answer => done (.answer answer)
  | .inner _, reply => done (.reply reply)

def proceed (request : Request) :
    Except Answer Unit → Program Act Res (Entry Request Call) (Output Answer Reply)
  | .error answer => done (.answer answer)
  | .ok () => (sem.body (front.call request)).behind >>= front.respond (.request request)

def body : Entry Request Call → Program Act Res (Entry Request Call) (Output Answer Reply)
  | .request request => (front.guard request).behind >>= front.proceed sem request
  | .inner call => (sem.body call).behind >>= front.respond (.inner call)

def semantics : Semantics Act Res (Entry Request Call) (Output Answer Reply) State Choice where
  body := front.body sem
  perform := sem.perform
  admits state live
    | .request request => front.admits state request
    | .inner call =>
        front.inner call &&
          sem.admits state (live.map fun entry => (entry.1, front.callOf entry.2)) call
  release := sem.release
  restart := sem.restart

/-- The thread has taken no action. -/
def Fresh (w : World Act Res Call Reply State Choice) (thread : Nat) : Prop :=
  ¬ w.Did fun event => ∃ call action choice result, event = .act thread call action choice result

/-- Requests only look around, and whatever they go on to may start; a thread that has taken no
action has nothing to give back. -/
structure Harmless (silent : Act → Prop) (first : Config Act Res Call Reply State Choice) :
    Prop where
  guard : ∀ request, (front.guard request).Uses silent fun _ => False
  view : ∀ request reply, (front.view request reply).Uses silent fun _ => False
  silent : ∀ {thread action choice state result state'}, silent action →
    sem.perform thread action choice state = some (result, state') → state' = state
  admits : ∀ state live request, front.admits state request = true →
    sem.admits state live (front.call request) = true
  release : ∀ {cfg thread}, Reachable sem (fun _ _ => True) first cfg →
    Fresh cfg.world thread → sem.release thread cfg.shared = cfg.shared

/-- How far a request is: it looks around, its call is at work, or it looks at what was replied. -/
inductive Stage (silent : Act → Prop) (fresh : Prop) : Entry Request Call →
    Program Act Res (Entry Request Call) (Output Answer Reply) → Program Act Res Call Reply → Prop
  | looking {request : Request} {rest : Program Act Res Call (Except Answer Unit)}
      (looks : rest.Uses silent fun _ => False) (isFresh : fresh) :
      Stage silent fresh (.request request) (rest.behind >>= front.proceed sem request)
        (sem.body (front.call request))
  | working {entry : Entry Request Call} {rest : Program Act Res Call Reply} :
      Stage silent fresh entry (rest.behind >>= front.respond entry) rest
  | showing {request : Request} {reply : Reply} {rest : Program Act Res Call Answer}
      (looks : rest.Uses silent fun _ => False) :
      Stage silent fresh (.request request) (rest.behind >>= fun answer => done (.answer answer))
        (done reply)

variable {front sem} {silent : Act → Prop} {fresh fresh' : Prop}
variable {entry : Entry Request Call} {rest : Program Act Res Call Reply}

theorem Stage.mono {program : Program Act Res (Entry Request Call) (Output Answer Reply)}
    (stage : Stage front sem silent fresh entry program rest) (still : fresh → fresh') :
    Stage front sem silent fresh' entry program rest := by
  cases stage with
  | looking looks isFresh => exact .looking looks (still isFresh)
  | working => exact .working
  | showing looks => exact .showing looks

section Stages

variable {action : Act}
variable {next : Res action → Program Act Res (Entry Request Call) (Output Answer Reply)}
variable {then_ : Program Act Res (Entry Request Call) (Output Answer Reply)}
variable (views : ∀ request reply, (front.view request reply).Uses silent fun _ => False)

theorem showing_act {request : Request} {reply : Reply} {looker : Program Act Res Call Answer}
    (looks : looker.Uses silent fun _ => False)
    (eq : (looker.behind >>= fun answer => done (.answer answer)) = act action next) :
    silent action ∧ ∀ result,
      Stage front sem silent fresh (.request request) (next result) (done reply) := by
  cases looker with
  | done answer => cases eq
  | act other after =>
      cases eq
      exact ⟨looks.1, fun result => .showing (looks.2 result)⟩
  | fork call after => exact looks.1.elim

include views in
/-- What an action of a call at work is. -/
theorem working_act (eq : rest.behind >>= front.respond entry = act action next) :
    (silent action ∧ ∀ result, Stage front sem silent fresh entry (next result) rest) ∨
      ∃ after, rest = act action after ∧
        ∀ fresh' result, Stage front sem silent fresh' entry (next result) (after result) := by
  cases rest with
  | done reply =>
      cases entry with
      | request request => exact .inl (showing_act (views request reply) eq)
      | inner call => cases eq
  | act other after =>
      cases eq
      exact .inr ⟨after, rfl, fun fresh' result => .working⟩
  | fork call after => cases eq

include views in
theorem Stage.act (stage : Stage front sem silent fresh entry (act action next) rest) :
    (silent action ∧ ∀ result, Stage front sem silent fresh entry (next result) rest) ∨
      ∃ after, rest = .act action after ∧
        ∀ fresh' result, Stage front sem silent fresh' entry (next result) (after result) := by
  generalize eq : Program.act action next = program at stage
  cases stage with
  | @looking request looker looks isFresh =>
      cases looker with
      | done outcome =>
          cases outcome with
          | error answer => cases eq
          | ok value => exact working_act views eq.symm
      | act other after =>
          cases eq
          exact .inl ⟨looks.1, fun result => .looking (looks.2 result) isFresh⟩
      | fork call after => exact looks.1.elim
  | working => exact working_act views eq.symm
  | showing looks => exact .inl (showing_act looks eq.symm)

include views in
theorem working_fork {call : Entry Request Call}
    (eq : rest.behind >>= front.respond entry = fork call then_) :
    ∃ forked after, call = .inner forked ∧ rest = fork forked after ∧
      ∀ fresh', Stage front sem silent fresh' entry then_ after := by
  cases rest with
  | done reply =>
      cases entry with
      | inner call => cases eq
      | request request =>
          have looks := views request reply
          simp only [behind, done_bind, respond] at eq
          generalize front.view request reply = looker at looks eq
          cases looker with
          | done answer => cases eq
          | act other after => cases eq
          | fork call after => exact looks.1.elim
  | act other after => cases eq
  | fork call after =>
      cases eq
      exact ⟨call, after, rfl, rfl, fun fresh' => .working⟩

include views in
theorem Stage.fork {call : Entry Request Call}
    (stage : Stage front sem silent fresh entry (fork call then_) rest) :
    ∃ forked after, call = .inner forked ∧ rest = .fork forked after ∧
      ∀ fresh', Stage front sem silent fresh' entry then_ after := by
  generalize eq : Program.fork call then_ = program at stage
  cases stage with
  | @looking request looker looks isFresh =>
      cases looker with
      | done outcome =>
          cases outcome with
          | error answer => cases eq
          | ok value => exact working_fork views eq.symm
      | act other after => cases eq
      | fork call after => exact looks.1.elim
  | working => exact working_fork views eq.symm
  | @showing request reply looker looks =>
      cases looker with
      | done answer => cases eq
      | act other after => cases eq
      | fork call after => exact looks.1.elim

theorem Stage.done {output : Output Answer Reply}
    (stage : Stage front sem silent fresh entry (done output) rest) :
    fresh ∨ ∃ reply, rest = .done reply := by
  generalize eq : Program.done output = program at stage
  cases stage with
  | looking _ isFresh => exact .inl isFresh
  | showing _ => exact .inr ⟨_, rfl⟩
  | working =>
      cases rest with
      | done reply => exact .inr ⟨reply, rfl⟩
      | act other after => cases eq
      | fork call after => cases eq

end Stages

/-! The run of the system behind. -/

variable (front sem silent) in
/-- A request and its call, on the way together. -/
structure Paired (hub : World Act Res Call Reply State Choice)
    (task : Task Act Res (Entry Request Call) (Output Answer Reply))
    (task' : Task Act Res Call Reply) : Prop where
  thread : task'.thread = task.thread
  call : task'.call = front.callOf task.call
  stage : Stage front sem silent (Fresh hub task.thread) task.call task.program task'.program

variable (front sem silent) in
/-- The configuration with requests, and the one of the system behind it. -/
structure Simulates (cfg : Config Act Res (Entry Request Call) (Output Answer Reply) State Choice)
    (hub : Config Act Res Call Reply State Choice) : Prop where
  shared : hub.shared = cfg.shared
  next : hub.next = cfg.next
  pool : List.Forall₂ (Paired front sem silent hub.world) cfg.pool hub.pool

section Pools

variable {hub : World Act Res Call Reply State Choice}
variable {pool : List (Task Act Res (Entry Request Call) (Output Answer Reply))}
variable {pool' : List (Task Act Res Call Reply)}

theorem paired_find (paired : List.Forall₂ (Paired front sem silent hub) pool pool') {thread : Nat}
    {task : Task Act Res (Entry Request Call) (Output Answer Reply)}
    (found : pool.find? (fun task => task.thread = thread) = some task) :
    ∃ task', pool'.find? (fun task => task.thread = thread) = some task' ∧
      Paired front sem silent hub task task' := by
  induction paired with
  | nil => cases found
  | @cons first first' others others' head tail ih =>
      rw [List.find?_cons] at found ⊢
      rw [head.thread]
      split at found
      · rename_i here
        cases found
        exact ⟨first', rfl, head⟩
      · rename_i elsewhere
        obtain ⟨task', found', isPaired⟩ := ih found
        exact ⟨task', found', isPaired⟩

theorem paired_live (paired : List.Forall₂ (Paired front sem silent hub) pool pool') :
    pool'.map (fun task => (task.thread, task.call)) =
      (pool.map fun task => (task.thread, task.call)).map fun entry =>
        (entry.1, front.callOf entry.2) := by
  induction paired with
  | nil => rfl
  | cons head tail ih =>
      rw [List.map_cons, List.map_cons, List.map_cons, ih, head.thread, head.call]

theorem paired_remove (paired : List.Forall₂ (Paired front sem silent hub) pool pool')
    (thread : Nat) {hub' : World Act Res Call Reply State Choice}
    (fresh : ∀ other, Fresh hub other → Fresh hub' other) :
    List.Forall₂ (Paired front sem silent hub') (pool.filter fun task => task.thread ≠ thread)
      (pool'.filter fun task => task.thread ≠ thread) := by
  induction paired with
  | nil => exact .nil
  | @cons first first' others others' head tail ih =>
      rw [List.filter_cons, List.filter_cons, head.thread]
      by_cases same : first.thread = thread
      · rw [if_neg (by simpa using same), if_neg (by simpa using same)]
        exact ih
      · rw [if_pos (by simpa using same), if_pos (by simpa using same)]
        exact .cons ⟨head.thread, head.call, head.stage.mono (fresh _)⟩ ih

/-- The thread moves on, in front and behind. -/
theorem paired_resume (paired : List.Forall₂ (Paired front sem silent hub) pool pool')
    (thread : Nat) {hub' : World Act Res Call Reply State Choice}
    {next : Program Act Res (Entry Request Call) (Output Answer Reply)}
    {next' : Program Act Res Call Reply}
    (fresh : ∀ other, other ≠ thread → Fresh hub other → Fresh hub' other)
    (moved : ∀ task ∈ pool, task.thread = thread →
      Stage front sem silent (Fresh hub' thread) task.call next next') :
    List.Forall₂ (Paired front sem silent hub')
      (pool.map fun task => if task.thread = thread then { task with program := next } else task)
      (pool'.map fun task => if task.thread = thread then { task with program := next' } else task) := by
  induction paired with
  | nil => exact .nil
  | @cons first first' others others' head tail ih =>
      rw [List.map_cons, List.map_cons, head.thread]
      refine .cons ?_ (ih fun task member => moved task (List.mem_cons_of_mem _ member))
      by_cases same : first.thread = thread
      · rw [if_pos same, if_pos same]
        exact ⟨rfl, head.call, same ▸ moved first List.mem_cons_self same⟩
      · rw [if_neg same, if_neg same]
        exact ⟨head.thread, head.call, head.stage.mono (fresh _ same)⟩

/-- The thread moves on in front only. -/
theorem paired_stutter (paired : List.Forall₂ (Paired front sem silent hub) pool pool')
    (thread : Nat) {next : Program Act Res (Entry Request Call) (Output Answer Reply)}
    (moved : ∀ task ∈ pool, ∀ task' ∈ pool', task.thread = thread → task'.thread = thread →
      Stage front sem silent (Fresh hub thread) task.call next task'.program) :
    List.Forall₂ (Paired front sem silent hub)
      (pool.map fun task => if task.thread = thread then { task with program := next } else task)
      pool' := by
  induction paired with
  | nil => exact .nil
  | @cons first first' others others' head tail ih =>
      rw [List.map_cons]
      refine .cons ?_ (ih fun task member task' member' =>
        moved task (List.mem_cons_of_mem _ member) task' (List.mem_cons_of_mem _ member'))
      by_cases same : first.thread = thread
      · rw [if_pos same]
        exact ⟨head.thread, head.call, same ▸
          moved first List.mem_cons_self first' List.mem_cons_self same (head.thread.trans same)⟩
      · rw [if_neg same]
        exact head

end Pools

variable {cfg cfg' : Config Act Res (Entry Request Call) (Output Answer Reply) State Choice}
variable {hub : Config Act Res Call Reply State Choice}

/-- No two tasks run in one thread. -/
def Distinct {Call' Reply' : Type} (pool : List (Task Act Res Call' Reply')) : Prop :=
  (pool.map Task.thread).Nodup

theorem Distinct.unique {Call' Reply' : Type} {pool : List (Task Act Res Call' Reply')}
    (distinct : Distinct pool) {task other : Task Act Res Call' Reply'} (member : task ∈ pool)
    (otherMember : other ∈ pool) (same : task.thread = other.thread) : task = other :=
  List.inj_on_of_nodup_map distinct member otherMember same

theorem paired_threads {w : World Act Res Call Reply State Choice}
    {pool : List (Task Act Res (Entry Request Call) (Output Answer Reply))}
    {pool' : List (Task Act Res Call Reply)}
    (paired : List.Forall₂ (Paired front sem silent w) pool pool') :
    pool'.map Task.thread = pool.map Task.thread := by
  induction paired with
  | nil => rfl
  | cons head tail ih => rw [List.map_cons, List.map_cons, ih, head.thread]

theorem distinct_of_executes {Call' Reply' : Type} {system : Semantics Act Res Call' Reply' State Choice}
    {before after : Config Act Res Call' Reply' State Choice} {event : Event Act Res Call' Reply' Choice}
    (numbered : before.world.Numbered) (distinct : Distinct before.pool)
    (executes : before.Executes system event after) : Distinct after.pool := by
  have resumed (thread : Nat) (program : Program Act Res Call' Reply') :
      (before.resume thread program).map Task.thread = before.pool.map Task.thread := by
    rw [Config.resume, List.map_map]
    refine List.map_congr_left fun task _ => ?_
    by_cases same : task.thread = thread <;> simp [same]
  have unused : before.next ∉ before.pool.map Task.thread := by
    intro member
    obtain ⟨task, among, same⟩ := List.mem_map.1 member
    have bound := numbered.live_lt _ (Config.mem_live among)
    simp only [Config.world_next] at bound
    omega
  cases executes with
  | start _ => exact List.nodup_cons.2 ⟨unused, distinct⟩
  | act _ _ _ =>
      rw [Distinct, resumed]
      exact distinct
  | fork _ _ =>
      rw [Distinct, List.map_cons, resumed]
      exact List.nodup_cons.2 ⟨unused, distinct⟩
  | finish _ _ | drop _ =>
      exact distinct.sublist (List.Sublist.map _ List.filter_sublist)
  | restart => exact List.nodup_nil

theorem fresh_moves {w w' : World Act Res Call Reply State Choice} {event : Event Act Res Call Reply Choice}
    (moves : w.Moves sem event w') {thread : Nat} (fresh : Fresh w thread)
    (other : ∀ call action choice result, event ≠ .act thread call action choice result) :
    Fresh w' thread := by
  intro acted
  rcases (moves.did_iff _).1 acted with ⟨call, action, choice, result, eq⟩ | before
  · exact other call action choice result eq
  · exact fresh before

variable (front sem silent) in
/-- What the system behind does at an event: nothing where a request looks around, and otherwise a
step of its own. -/
def Mirrors (event : Event Act Res (Entry Request Call) (Output Answer Reply) Choice)
    (hub hub' : Config Act Res Call Reply State Choice) : Prop :=
  match event with
  | .act thread entry action choice result =>
      (silent action ∧ hub' = hub) ∨ hub.exec sem (.step thread choice) =
        some (.act thread (front.callOf entry) action choice result, hub')
  | .fork thread entry child (.inner forked) => ∃ command, hub.exec sem command =
      some (.fork thread (front.callOf entry) child forked, hub')
  | .fork _ _ _ (.request _) => False
  | .start _ _ | .finish _ _ _ | .drop _ _ | .restart =>
      ∃ command event', hub.exec sem command = some (event', hub')

theorem Mirrors.reachable {event : Event Act Res (Entry Request Call) (Output Answer Reply) Choice}
    {hub' first : Config Act Res Call Reply State Choice} (mirrors : Mirrors front sem silent event hub hub')
    (reachable : Reachable sem (fun _ _ => True) first hub) :
    Reachable sem (fun _ _ => True) first hub' := by
  cases event with
  | act thread entry action choice result =>
      rcases mirrors with ⟨_, rfl⟩ | executed
      · exact reachable
      · exact reachable.step executed trivial
  | fork thread entry child forked =>
      cases forked with
      | request request => exact mirrors.elim
      | inner call =>
          obtain ⟨command, executed⟩ := mirrors
          exact reachable.step executed trivial
  | start _ _ | finish _ _ _ | drop _ _ | restart =>
      obtain ⟨command, event', executed⟩ := mirrors
      exact reachable.step executed trivial

section Run

variable {first : Config Act Res Call Reply State Choice}
variable {event : Event Act Res (Entry Request Call) (Output Answer Reply) Choice}
variable {command : Command (Entry Request Call) Choice}

/-- Every step with requests is a step of the system behind, or looks around. -/
theorem Simulates.step (harmless : Harmless front sem silent first)
    (simulates : Simulates front sem silent cfg hub) (numbered : hub.world.Numbered)
    (distinct : Distinct cfg.pool) (reachable : Reachable sem (fun _ _ => True) first hub)
    (executed : cfg.exec (front.semantics sem) command = some (event, cfg')) :
    ∃ hub', Simulates front sem silent cfg' hub' ∧ Mirrors front sem silent event hub hub' := by
  obtain ⟨shared, next, pool⟩ := simulates
  have distinct' : Distinct hub.pool := by
    rw [Distinct, paired_threads pool]
    exact distinct
  have unacted : Fresh hub.world hub.next := numbered.not_did <| by
    rintro _ ⟨_, _, _, _, rfl⟩
    rfl
  cases command with
  | start entry =>
      simp only [Config.exec] at executed
      split at executed
      swap
      · cases executed
      rename_i admitted
      cases executed
      have admitted' : sem.admits hub.shared hub.live (front.callOf entry) = true := by
        cases entry with
        | request request => exact harmless.admits _ _ request (shared ▸ admitted)
        | inner call =>
            have live : hub.live = cfg.live.map fun entry => (entry.1, front.callOf entry.2) :=
              paired_live pool
            rw [shared, live]
            exact (Bool.and_eq_true_iff.1 admitted).2
      have started := Config.exec_start sem admitted'
      have moves := (Config.exec_executes started).moves
      have fresh (thread : Nat) := fun isFresh : Fresh hub.world thread =>
        fresh_moves moves isFresh (by simp)
      refine ⟨_, ?_, _, _, started⟩
      refine ⟨shared, congrArg (· + 1) next, .cons ⟨next, rfl, ?_⟩ ?_⟩
      · cases entry with
        | request request =>
            exact .looking (harmless.guard request) (fresh _ (next ▸ unacted))
        | inner call => exact .working
      · exact pool.imp fun task task' isPaired =>
          ⟨isPaired.thread, isPaired.call, isPaired.stage.mono (fresh _)⟩
  | restart =>
      cases executed
      refine ⟨⟨sem.restart hub.shared, [], hub.next, hub.world.record .restart⟩, ?_, .restart, _, rfl⟩
      exact ⟨congrArg sem.restart shared, next, .nil⟩
  | drop thread =>
      simp only [Config.exec] at executed
      split at executed
      · cases executed
      rename_i task found
      cases executed
      obtain ⟨task', found', isPaired⟩ := paired_find pool found
      have dropped := Config.exec_drop sem found'
      have moves := (Config.exec_executes dropped).moves
      refine ⟨_, ?_, _, _, dropped⟩
      refine ⟨congrArg (sem.release thread) shared, next, ?_⟩
      exact paired_remove pool thread fun other isFresh => fresh_moves moves isFresh (by simp)
  | step thread choice =>
      simp only [Config.exec] at executed
      split at executed
      · cases executed
      rename_i task found
      obtain ⟨task', found', isPaired⟩ := paired_find pool found
      obtain ⟨member, ofThread⟩ := Config.find_spec found
      obtain ⟨member', ofThread'⟩ := Config.find_spec found'
      have same (other) (among : other ∈ cfg.pool) (isOf : other.thread = thread) : other = task :=
        distinct.unique among member (isOf.trans ofThread.symm)
      have same' (other) (among : other ∈ hub.pool) (isOf : other.thread = thread) :
          other = task' := distinct'.unique among member' (isOf.trans ofThread'.symm)
      have stage := isPaired.stage
      split at executed
      · rename_i output program
        cases executed
        rw [program] at stage
        rcases stage.done with isFresh | ⟨reply, finished⟩
        · -- refused, or answered without the call: behind, it is dropped before its first step
          have dropped := Config.exec_drop sem found'
          have moves := (Config.exec_executes dropped).moves
          have kept := harmless.release reachable (ofThread ▸ isFresh)
          refine ⟨_, ?_, _, _, dropped⟩
          refine ⟨kept.trans shared, next, ?_⟩
          exact paired_remove pool thread fun other isFresh => fresh_moves moves isFresh (by simp)
        · have ended := Config.exec_finish sem choice found' finished
          have moves := (Config.exec_executes ended).moves
          refine ⟨_, ?_, _, _, ended⟩
          refine ⟨shared, next, ?_⟩
          exact paired_remove pool thread fun other isFresh => fresh_moves moves isFresh (by simp)
      · rename_i action following program
        split at executed
        · cases executed
        rename_i result after performed
        cases executed
        rw [program] at stage
        change sem.perform thread action choice cfg.shared = some (result, after) at performed
        rcases stage.act harmless.view with ⟨isSilent, goesOn⟩ | ⟨behind, isBehind, goesOn⟩
        · have kept := harmless.silent isSilent performed
          refine ⟨hub, ⟨shared.trans kept.symm, next, ?_⟩, .inl ⟨isSilent, rfl⟩⟩
          refine paired_stutter pool thread fun other among other' among' isOf isOf' => ?_
          rw [same other among isOf, same' other' among' isOf']
          exact ofThread ▸ goesOn result
        · have stepped := Config.exec_act sem choice found' isBehind (shared ▸ performed)
          rw [isPaired.call] at stepped
          have moves := (Config.exec_executes stepped).moves
          refine ⟨_, ?_, .inr stepped⟩
          refine ⟨rfl, next, ?_⟩
          refine paired_resume pool thread (fun other different isFresh => ?_) ?_
          · refine fresh_moves moves isFresh ?_
            rintro _ _ _ _ eq
            cases eq
            exact different rfl
          · intro other among isOf
            rw [same other among isOf]
            exact goesOn _ result
      · rename_i call following program
        cases executed
        rw [program] at stage
        obtain ⟨forked, behind, rfl, isBehind, goesOn⟩ := stage.fork harmless.view
        have stepped := Config.exec_fork sem choice found' isBehind
        rw [isPaired.call, next] at stepped
        have moves := (Config.exec_executes stepped).moves
        have fresh (other : Nat) := fun isFresh : Fresh hub.world other =>
          fresh_moves moves isFresh (by simp)
        refine ⟨_, ?_, _, stepped⟩
        refine ⟨shared, rfl, .cons ⟨rfl, rfl, .working⟩ ?_⟩
        refine paired_resume pool thread (fun other _ => fresh other) fun other among isOf => ?_
        rw [same other among isOf]
        exact goesOn _

/-- A run with requests, and the run of the system behind it. -/
theorem simulated {shared : State}
    (harmless : Harmless front sem silent (Config.idle shared))
    (reachable : Reachable (front.semantics sem) (fun _ _ => True) (Config.idle shared) cfg) :
    ∃ hub, Reachable sem (fun _ _ => True) (Config.idle shared) hub ∧
      Simulates front sem silent cfg hub ∧ Distinct cfg.pool := by
  induction reachable with
  | refl => exact ⟨_, .refl, ⟨rfl, rfl, .nil⟩, List.nodup_nil⟩
  | @step cfg next command event before executed _ ih =>
      obtain ⟨hub, reachable, simulates, distinct⟩ := ih
      have numbered := reachable.numbered (idle_numbered shared)
      obtain ⟨hub', simulates', mirrors⟩ :=
        simulates.step harmless numbered distinct reachable executed
      refine ⟨hub', mirrors.reachable reachable, simulates', ?_⟩
      exact distinct_of_executes (before.numbered (idle_numbered shared)) distinct
        (Config.exec_executes executed)

end Run

/-! What a request was answered before its call went to work. -/

section Answers

variable {α : Type} {answers : List (Σ action, Res action)} {request : Request}

theorem follows_behind {program : Program Act Res Call α}
    {last : Program Act Res (Entry Request Call) α} (follows : program.behind.Follows answers last) :
    ∃ first, program.Follows answers first ∧ last = first.behind := by
  induction follows with
  | refl => exact ⟨program, .refl, rfl⟩
  | act _ result ih =>
      obtain ⟨first, follows, eq⟩ := ih
      cases first <;> cases eq
      exact ⟨_, follows.act result, rfl⟩
  | fork _ ih =>
      obtain ⟨first, follows, eq⟩ := ih
      cases first <;> cases eq
      exact ⟨_, follows.fork, rfl⟩

theorem gives_behind {program : Program Act Res Call α} {value : α}
    (gives : (program.behind : Program Act Res (Entry Request Call) α).Gives answers value) :
    program.Gives answers value := by
  obtain ⟨first, follows, eq⟩ := follows_behind gives
  cases first <;> cases eq
  exact follows

variable {last : Program Act Res (Entry Request Call) (Output Answer Reply)}

theorem quiet_of_follows_view {looker : Program Act Res Call Answer}
    (looks : looker.Uses silent fun _ => False)
    (follows : (looker.behind >>= fun answer => (done (.answer answer) :
      Program Act Res (Entry Request Call) (Output Answer Reply))).Follows answers last) :
    last.Quiet silent := by
  rcases follows_bind follows with ⟨first, isBehind, rfl⟩ | ⟨_, _, _, _, _, rest⟩
  · obtain ⟨first, here, rfl⟩ := follows_behind isBehind
    have uses := looks.follows here
    cases first with
    | done answer => trivial
    | act action after => exact uses.1
    | fork call after => exact uses.1.elim
  · rw [(follows_done rest).2]
    trivial

/-- What comes after the guard and does not just look around comes from the call. -/
theorem follows_call (views : ∀ reply, (front.view request reply).Uses silent fun _ => False)
    (loud : ¬ last.Quiet silent)
    (follows : ((sem.body (front.call request)).behind >>= front.respond (.request request)).Follows
      answers last) :
    ∃ rest, (sem.body (front.call request)).Follows answers rest ∧
      last = rest.behind >>= front.respond (.request request) := by
  rcases follows_bind follows with ⟨first, isBehind, rfl⟩ | ⟨reply, _, _, _, _, showing⟩
  · obtain ⟨first, here, rfl⟩ := follows_behind isBehind
    exact ⟨first, here, rfl⟩
  · exact absurd (quiet_of_follows_view (views reply) showing) loud

/-- An action that does not just look around is one of the call. -/
theorem act_of_loud (views : ∀ reply, (front.view request reply).Uses silent fun _ => False)
    {action : Act} {next : Res action → Program Act Res (Entry Request Call) (Output Answer Reply)}
    (loud : ¬ silent action) {rest : Program Act Res Call Reply}
    (eq : rest.behind >>= front.respond (.request request) = act action next) :
    ∃ after, rest = act action after := by
  cases rest with
  | done reply =>
      have quiet : (act action next).Quiet silent := by
        rw [← eq]
        exact quiet_of_follows_view (views reply) .refl
      exact absurd quiet loud
  | act other after =>
      cases eq
      exact ⟨after, rfl⟩
  | fork call after => cases eq

/-- Whoever does more than look around has passed the guard, and it is the call that does it. -/
theorem follows_loud (guards : (front.guard request).Uses silent fun _ => False)
    (views : ∀ reply, (front.view request reply).Uses silent fun _ => False)
    (loud : ¬ last.Quiet silent)
    (follows : (front.body sem (.request request)).Follows answers last) :
    ∃ earlier later rest, answers = earlier ++ later ∧
      (front.guard request).Gives earlier (.ok ()) ∧
        (sem.body (front.call request)).Follows later rest ∧
          last = rest.behind >>= front.respond (.request request) := by
  rcases follows_bind follows with ⟨first, isBehind, rfl⟩ | ⟨outcome, earlier, later, rfl, gives, rest⟩
  · obtain ⟨first, here, rfl⟩ := follows_behind isBehind
    have uses := guards.follows here
    cases first with
    | done outcome =>
        cases outcome with
        | error answer => exact absurd trivial loud
        | ok value =>
            obtain ⟨rest, follows', eq⟩ := follows_call views loud .refl
            exact ⟨answers, [], rest, (List.append_nil _).symm, here, follows', eq⟩
    | act action after => exact absurd uses.1 loud
    | fork call after => exact uses.1.elim
  · cases outcome with
    | error answer =>
        rw [(follows_done rest).2] at loud
        exact absurd trivial loud
    | ok value =>
        obtain ⟨rest, follows', eq⟩ := follows_call views loud rest
        exact ⟨earlier, later, rest, rfl, gives_behind gives, follows', eq⟩

/-- A request answers by itself, or what its call has replied. -/
theorem gives_request {output : Output Answer Reply}
    (gives : (front.body sem (.request request)).Gives answers output) :
    (∃ answer, output = .answer answer ∧ ∃ earlier later, answers = earlier ++ later ∧
        (front.guard request).Gives earlier (.error answer)) ∨
      ∃ reply answer, output = .answer answer ∧ ∃ earlier middle later,
        answers = earlier ++ (middle ++ later) ∧ (front.guard request).Gives earlier (.ok ()) ∧
          (sem.body (front.call request)).Gives middle reply ∧
            (front.view request reply).Gives later answer := by
  obtain ⟨outcome, earlier, rest, rfl, guarded, proceeds⟩ := gives_bind gives
  cases outcome with
  | error answer =>
      cases gives_done proceeds
      exact .inl ⟨answer, rfl, earlier, rest, rfl, gives_behind guarded⟩
  | ok value =>
      obtain ⟨reply, middle, later, rfl, called, responds⟩ := gives_bind proceeds
      obtain ⟨answer, viewed, last, rfl, views, ends⟩ := gives_bind responds
      obtain ⟨rfl, eq⟩ := follows_done ends
      cases eq
      rw [List.append_nil]
      exact .inr ⟨reply, answer, rfl, earlier, middle, viewed, rfl, gives_behind guarded,
        gives_behind called, gives_behind views⟩

end Answers

end FrontEnd

end Interleave
