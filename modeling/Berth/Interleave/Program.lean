/-!
Programs as trees of atomic actions. A program either has finished with a value, performs one
action and continues with its result, or forks a detached call and continues.
-/

namespace Interleave

inductive Program (Act : Type) (Res : Act → Type) (Call : Type) (α : Type) where
  | done (value : α)
  | act (action : Act) (next : Res action → Program Act Res Call α)
  | fork (call : Call) (next : Program Act Res Call α)

namespace Program

variable {Act : Type} {Res : Act → Type} {Call : Type} {α β γ ε : Type}

def bind : Program Act Res Call α → (α → Program Act Res Call β) → Program Act Res Call β
  | done value, after => after value
  | act action next, after => act action fun result => (next result).bind after
  | fork call next, after => fork call (next.bind after)

instance : Monad (Program Act Res Call) where
  pure := done
  bind := bind

@[simp] theorem pure_eq (value : α) : (pure value : Program Act Res Call α) = done value := rfl

@[simp] theorem done_bind (value : α) (after : α → Program Act Res Call β) :
    done value >>= after = after value := rfl

@[simp] theorem act_bind (action : Act) (next : Res action → Program Act Res Call α)
    (after : α → Program Act Res Call β) :
    act action next >>= after = act action fun result => next result >>= after := rfl

@[simp] theorem fork_bind (call : Call) (next : Program Act Res Call α)
    (after : α → Program Act Res Call β) :
    fork call next >>= after = fork call (next >>= after) := rfl

theorem bind_done (program : Program Act Res Call α) : program >>= done = program := by
  induction program with
  | done value => rfl
  | act action next ih => simp only [act_bind, ih]
  | fork call next ih => simp only [fork_bind, ih]

theorem bind_assoc (program : Program Act Res Call α) (middle : α → Program Act Res Call β)
    (after : β → Program Act Res Call γ) :
    program >>= middle >>= after = program >>= fun value => middle value >>= after := by
  induction program with
  | done value => rfl
  | act action next ih => simp only [act_bind, ih]
  | fork call next ih => simp only [fork_bind, ih]

instance : LawfulMonad (Program Act Res Call) :=
  LawfulMonad.mk' _ (fun program => bind_done program) (fun _ _ => rfl) bind_assoc

def perform (action : Act) : Program Act Res Call (Res action) := act action done

def spawn (call : Call) : Program Act Res Call Unit := fork call (done ())

def forEach (body : α → Program Act Res Call Unit) : List α → Program Act Res Call Unit
  | [] => done ()
  | item :: rest => do
      body item
      forEach body rest

/-! The footprint of a program: every action it can reach and every call it can fork. -/

def Uses (acts : Act → Prop) (calls : Call → Prop) : Program Act Res Call α → Prop
  | done _ => True
  | act action next => acts action ∧ ∀ result, (next result).Uses acts calls
  | fork call next => calls call ∧ next.Uses acts calls

variable {acts acts' : Act → Prop} {calls calls' : Call → Prop}

theorem Uses.mono {program : Program Act Res Call α} (uses : program.Uses acts calls)
    (wider : ∀ action, acts action → acts' action) (widerCalls : ∀ call, calls call → calls' call) :
    program.Uses acts' calls' := by
  induction program with
  | done value => trivial
  | act action next ih => exact ⟨wider _ uses.1, fun result => ih result (uses.2 result)⟩
  | fork call next ih => exact ⟨widerCalls _ uses.1, ih uses.2⟩

theorem uses_all (program : Program Act Res Call α) :
    program.Uses (fun _ => True) (fun _ => True) := by
  induction program with
  | done value => trivial
  | act action next ih => exact ⟨trivial, ih⟩
  | fork call next ih => exact ⟨trivial, ih⟩

theorem Uses.bind {program : Program Act Res Call α} {after : α → Program Act Res Call β}
    (uses : program.Uses acts calls) (rest : ∀ value, (after value).Uses acts calls) :
    (program >>= after).Uses acts calls := by
  induction program with
  | done value => exact rest value
  | act action next ih => exact ⟨uses.1, fun result => ih result (uses.2 result)⟩
  | fork call next ih => exact ⟨uses.1, ih uses.2⟩

theorem uses_done (value : α) :
    (done value : Program Act Res Call α).Uses acts calls := trivial

theorem uses_perform {action : Act} (allowed : acts action) :
    (perform action : Program Act Res Call _).Uses acts calls := ⟨allowed, fun _ => trivial⟩

theorem uses_spawn {call : Call} (allowed : calls call) :
    (spawn call : Program Act Res Call _).Uses acts calls := ⟨allowed, trivial⟩

theorem uses_forEach {body : α → Program Act Res Call Unit}
    (uses : ∀ item, (body item).Uses acts calls) (items : List α) :
    (forEach body items).Uses acts calls := by
  induction items with
  | nil => exact uses_done ()
  | cons item rest ih => exact (uses item).bind fun _ => ih

end Program

/-! Programs that may stop early with an error. -/

abbrev Fallible (Act : Type) (Res : Act → Type) (Call ε α : Type) : Type :=
  ExceptT ε (Program Act Res Call) α

namespace Fallible

variable {Act : Type} {Res : Act → Type} {Call : Type} {α β ε : Type}

/-- A program that cannot fail, as a step of one that can. -/
def lift (program : Program Act Res Call α) : Fallible Act Res Call ε α :=
  ExceptT.mk do
    let value ← program
    pure (.ok value)

/-- Runs a fallible program and hands its outcome on instead of stopping at an error. -/
def attempt (program : Fallible Act Res Call ε α) : Fallible Act Res Call ε (Except ε α) :=
  ExceptT.mk do
    let outcome ← program.run
    pure (.ok outcome)

/-- Runs `cleanup` when `program` fails, and then fails with the same error. -/
def onError (program : Fallible Act Res Call ε α)
    (cleanup : Program Act Res Call Unit) : Fallible Act Res Call ε α :=
  ExceptT.mk do
    match ← program.run with
    | .ok value => pure (.ok value)
    | .error err =>
        cleanup
        pure (.error err)

def forEach (body : α → Fallible Act Res Call ε Unit) : List α → Fallible Act Res Call ε Unit
  | [] => pure ()
  | item :: rest => do
      body item
      forEach body rest

def collect (body : α → Fallible Act Res Call ε β) : List α → Fallible Act Res Call ε (List β)
  | [] => pure []
  | item :: rest => do
      let value ← body item
      let values ← collect body rest
      pure (value :: values)

variable {acts : Act → Prop} {calls : Call → Prop}

theorem uses_pure (value : α) :
    Program.Uses acts calls (pure value : Fallible Act Res Call ε α).run :=
  Program.uses_done _

theorem uses_throw (err : ε) :
    Program.Uses acts calls (throw err : Fallible Act Res Call ε α).run :=
  Program.uses_done _

theorem uses_bind {program : Fallible Act Res Call ε α}
    {after : α → Fallible Act Res Call ε β}
    (uses : Program.Uses acts calls program.run)
    (rest : ∀ value, Program.Uses acts calls (after value).run) :
    Program.Uses acts calls (program >>= after).run := by
  rw [ExceptT.run_bind]
  refine uses.bind fun outcome => ?_
  cases outcome with
  | ok value => exact rest value
  | error err => exact Program.uses_done _

theorem uses_lift {program : Program Act Res Call α} (uses : program.Uses acts calls) :
    Program.Uses acts calls (lift program : Fallible Act Res Call ε α).run :=
  uses.bind fun _ => Program.uses_done _

theorem uses_attempt {program : Fallible Act Res Call ε α}
    (uses : Program.Uses acts calls program.run) :
    Program.Uses acts calls (attempt program).run :=
  uses.bind fun _ => Program.uses_done _

theorem uses_onError {program : Fallible Act Res Call ε α} {cleanup : Program Act Res Call Unit}
    (uses : Program.Uses acts calls program.run) (cleanupUses : cleanup.Uses acts calls) :
    Program.Uses acts calls (onError program cleanup).run := by
  refine uses.bind fun outcome => ?_
  cases outcome with
  | ok value => exact Program.uses_done _
  | error err => exact cleanupUses.bind fun _ => Program.uses_done _

theorem uses_forEach {body : α → Fallible Act Res Call ε Unit}
    (uses : ∀ item, Program.Uses acts calls (body item).run) (items : List α) :
    Program.Uses acts calls (forEach body items).run := by
  induction items with
  | nil => exact uses_pure ()
  | cons item rest ih => exact uses_bind (uses item) fun _ => ih

theorem uses_collect {body : α → Fallible Act Res Call ε β}
    (uses : ∀ item, Program.Uses acts calls (body item).run) (items : List α) :
    Program.Uses acts calls (collect body items).run := by
  induction items with
  | nil => exact uses_pure []
  | cons item rest ih =>
      exact uses_bind (uses item) fun _ => uses_bind ih fun _ => uses_pure _

end Fallible

end Interleave
