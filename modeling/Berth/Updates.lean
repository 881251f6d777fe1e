import Berth.EnvHistory

/-!
Overlapping updates of one app. An update reads the row, resolves its variables against what it has
read, and writes without the write lock.
-/

namespace Berth

open Interleave Interleave.Discipline

variable {limit thread : Nat} {call : Call} {id : Uuid} {w w' : HubWorld} {event : HubEvent}
variable {first state state' : State}

/-! Updates one after another. -/

inductive Serially (first : State) : List Call → State → Prop
  | start : Serially first [] first
  | call {order : List Call} {appId : String} {name : Option String}
      {inputs : Option (List EnvVarInput)} {hostId : Option Int} {app : App} {state state' : State}
      (before : Serially first order state)
      (ran : Program.Runs (perform 0) (updateApp appId name inputs hostId).run state (.ok app)
        state') : Serially first (order ++ [.updateApp appId name inputs hostId]) state'

/-- The variables to store, if any are submitted. -/
def Resolved (secretsKey : SecretsKey) (existing : List EnvVar) :
    Option (List EnvVarInput) → Option (List EnvVar) → Prop :=
  Option.Rel fun inputs envVars => validateEnvVarInputs inputs = .ok () ∧
    List.Forall₂ (Resolves secretsKey existing) inputs envVars

/-- The checks of an update that do not depend on the row. -/
structure Passes (hosts : List HostRow) (name : Option String) (hostId : Option Int) : Prop where
  host : ∀ wanted ∈ hostId, ∃ host, (hosts.find? fun host => host.id = wanted) = some host ∧
    host.revoked = false
  slug : ∀ wanted ∈ name, validateSlug wanted = .ok ()

section Alone

theorem runs_of_resolves {existing : List EnvVar} {input : EnvVarInput} {envVar : EnvVar}
    (resolves : Resolves state.secretsKey existing input envVar) :
    Program.Runs (perform thread) (resolveEnvVarInput existing input).run state (.ok envVar)
      state := by
  obtain ⟨key, stored⟩ := envVar
  obtain ⟨inputKey, value⟩ := input
  obtain ⟨rfl, resolved⟩ := resolves
  cases value with
  | plain value =>
      cases resolved
      exact ⟨rfl, rfl⟩
  | secret value =>
      cases value with
      | some value =>
          obtain ⟨nonempty, nonce, ciphertext, encrypted, rfl⟩ := resolved
          simp only [resolveEnvVarInput, nonempty, ne_eq, not_false_eq_true, if_true]
          exact Fallible.runs_bind_ok.2 ⟨ciphertext, state,
            runs_encrypt.2 ⟨⟨nonce, encrypted⟩, rfl⟩, rfl, rfl⟩
      | none =>
          obtain ⟨kept, found, rfl⟩ := resolved
          simp only [resolveEnvVarInput, found]
          exact ⟨rfl, rfl⟩

theorem runs_of_passes {name : Option String} {hostId : Option Int} {row : AppRow}
    (passes : Passes state.db.hosts name hostId)
    (free : ∀ wanted ∈ name, wanted ≠ row.name →
      (state.db.apps.rows.find? fun row => row.name = wanted) = none) :
    (∃ checked, Program.Runs (perform thread) (mapGiven hostId validateHostId).run state
        (.ok checked) state) ∧
      ∃ checked, Program.Runs (perform thread) (mapGiven name (validateRename row)).run state
        (.ok checked) state := by
  constructor
  · cases hostId with
    | none => exact ⟨none, rfl, rfl⟩
    | some wanted =>
        obtain ⟨host, found, active⟩ := passes.host wanted rfl
        have executed : state.db.exec (.hostById wanted) = some (some host, state.db) := by
          rw [Database.exec, found]
          rfl
        refine ⟨some (), Fallible.runs_bind_ok.2 ⟨(), state, ?_, rfl, rfl⟩⟩
        refine Fallible.runs_bind_ok.2 ⟨some host, state, runs_of_exec executed, ?_⟩
        simp only [active, Bool.false_eq_true, if_false]
        exact ⟨rfl, rfl⟩
  · cases name with
    | none => exact ⟨none, rfl, rfl⟩
    | some wanted =>
        refine ⟨some (), Fallible.runs_bind_ok.2 ⟨(), state, ?_, rfl, rfl⟩⟩
        simp only [validateRename]
        split
        · exact ⟨rfl, rfl⟩
        · rename_i different
          have executed : state.db.exec (.appByName wanted) = some (none, state.db) := by
            rw [Database.exec, free wanted rfl different]
            rfl
          refine Fallible.runs_bind_ok.2 ⟨(), state, runs_liftStored.2
            ⟨(passes.slug wanted rfl).symm, rfl⟩, ?_⟩
          exact Fallible.runs_bind_ok.2 ⟨none, state, runs_of_exec executed, rfl, rfl⟩

/-- An update whose write goes through on the row as it is runs by itself as well. -/
theorem runs_updateApp_of (thread : Nat) {appId : String} {name : Option String}
    {inputs : Option (List EnvVarInput)} {envVars : Option (List EnvVar)} {hostId : Option Int}
    {row : AppRow} {db : Database} (isApp : Uuid.parseStr appId = some id)
    (found : state.db.app? id = some row)
    (resolved : Resolved state.secretsKey row.envVars inputs envVars)
    (passes : Passes state.db.hosts name hostId)
    (executed : state.db.exec (.updateApp id name envVars hostId) = some ((), db)) :
    ∃ app, Program.Runs (perform thread) (updateApp appId name inputs hostId).run state (.ok app)
      { state with db } := by
  cases Database.app?_id found
  have free : ∀ wanted ∈ name, wanted ≠ row.name →
      (state.db.apps.rows.find? fun row => row.name = wanted) = none := by
    intro wanted isName different
    cases isName
    refine List.find?_eq_none.2 fun other member same => ?_
    have named : other.name = wanted := by simpa using same
    have apart : other.id ≠ row.id := by
      intro sameId
      have looked : state.db.app? other.id = some other := Table.mem_rows.1 member
      rw [sameId, found] at looked
      cases looked
      exact different named.symm
    have taken : state.db.nameTaken wanted (some row.id) = true := by
      simp only [Database.nameTaken, List.any_eq_true, Bool.and_eq_true, decide_eq_true_eq]
      exact ⟨other, member, named, by simpa using apart⟩
    simp [Database.exec, taken] at executed
  have looks : Program.Runs (perform thread) (findAppRowById appId).run state (.ok row) state := by
    have read : state.db.exec (.appById row.id) = some (some row, state.db) := by
      rw [Database.exec, found]
      rfl
    simp only [findAppRowById, isApp]
    exact Fallible.runs_bind_ok.2 ⟨some row, state, runs_of_exec read, rfl, rfl⟩
  have resolves : (∃ checked, Program.Runs (perform thread)
      (mapGiven inputs fun inputs => liftResult (validateEnvVarInputs inputs)).run state
        (.ok checked) state) ∧ Program.Runs (perform thread)
      (mapGiven inputs fun inputs => resolveEnvVarInputs inputs row.envVars).run state
        (.ok envVars) state := by
    cases resolved with
    | none => exact ⟨⟨none, rfl, rfl⟩, rfl, rfl⟩
    | some both =>
        obtain ⟨valid, each⟩ := both
        constructor
        · exact ⟨some (), Fallible.runs_bind_ok.2
            ⟨(), state, runs_liftStored.2 ⟨valid.symm, rfl⟩, rfl, rfl⟩⟩
        · exact Fallible.runs_bind_ok.2 ⟨_, state, Fallible.runs_collect_of
            (each.imp fun _ _ resolves => runs_of_resolves resolves), rfl, rfl⟩
  obtain ⟨⟨checked, validated⟩, stored⟩ := resolves
  obtain ⟨⟨hostChecked, hosted⟩, nameChecked, renamed⟩ := runs_of_passes passes free
  obtain ⟨app, last⟩ := runs_permissions (row.change name envVars hostId)
  refine ⟨app, Fallible.runs_bind_ok.2 ⟨checked, state, validated, ?_⟩⟩
  refine Fallible.runs_bind_ok.2 ⟨row, state, looks, ?_⟩
  refine Fallible.runs_bind_ok.2 ⟨envVars, state, stored, ?_⟩
  refine Fallible.runs_bind_ok.2 ⟨hostChecked, state, hosted, ?_⟩
  refine Fallible.runs_bind_ok.2 ⟨nameChecked, state, renamed, ?_⟩
  exact Fallible.runs_bind_ok.2 ⟨(), { state with db }, runs_of_exec executed, last⟩

end Alone

/-! What a run has done so far, oldest first. -/

def rowRead? : HubEvent → Option (Nat × AppRow)
  | .act thread _ (.query (.appById _)) _ (.ok (some row)) => some (thread, row)
  | _ => none

def writing? : HubEvent → Option (Nat × Call)
  | .act thread call (.query (.updateApp _ _ _ _)) _ (.ok _) => some (thread, call)
  | _ => none

def success? : HubEvent → Option (Nat × Call)
  | .finish thread call (.app (.ok _)) => some (thread, call)
  | _ => none

def rowsRead (w : HubWorld) : List (Nat × AppRow) :=
  w.history.reverse.filterMap fun moment => rowRead? moment.event

/-- The calls that have written, in the order of their writes. -/
def writers (w : HubWorld) : List (Nat × Call) :=
  w.history.reverse.filterMap fun moment => writing? moment.event

def successes (w : HubWorld) : List (Nat × Call) :=
  w.history.reverse.filterMap fun moment => success? moment.event

theorem writers_moves (moves : w.Moves (hub limit) event w') :
    writers w' = writers w ++ (writing? event).toList := by
  simp only [writers, moves.history, World.record, List.reverse_cons, List.filterMap_append]
  cases isWrite : writing? event <;> simp [isWrite]

theorem successes_moves (moves : w.Moves (hub limit) event w') :
    successes w' = successes w ++ (success? event).toList := by
  simp only [successes, moves.history, World.record, List.reverse_cons, List.filterMap_append]
  cases isSuccess : success? event <;> simp [isSuccess]

theorem rowsRead_moves (moves : w.Moves (hub limit) event w') :
    rowsRead w' = rowsRead w ++ (rowRead? event).toList := by
  simp only [rowsRead, moves.history, World.record, List.reverse_cons, List.filterMap_append]
  cases isRead : rowRead? event <;> simp [isRead]

/-! Updates that do not overtake each other. -/

def Call.Updates (id : Uuid) (call : Call) : Prop :=
  ∃ appId name inputs hostId, call = .updateApp appId name inputs hostId ∧
    Uuid.parseStr appId = some id

/-- The stored secret of a key. -/
def secretOf (envVars : List EnvVar) (key : String) : Option EnvVar :=
  envVars.find? fun envVar => envVar.key = key ∧ envVar.value.isSecret

/-- The secrets a call keeps are the same in both lists. -/
def Call.KeepsSame (call : Call) (before after : List EnvVar) : Prop :=
  ∀ appId name inputs hostId, call = .updateApp appId name (some inputs) hostId →
    ∀ input ∈ inputs, input.value = .secret none →
      secretOf before input.key = secretOf after input.key

/-- Only updates of this app. No update writes back a secret that has been replaced since it read
the row, and one that has written comes to its end. -/
structure NotOvertaken (id : Uuid) (w : HubWorld) (event : HubEvent) : Prop where
  starts : ∀ thread call, event = .start thread call → call.Updates id
  keeps : ∀ thread call name envVars hostId choice result,
    event = .act thread call (.query (.updateApp id name envVars hostId)) choice result →
      ∀ before current, (thread, before) ∈ rowsRead w → app? w id = some current →
        call.KeepsSame before.envVars current.envVars
  answers : ∀ thread call q choice result, event = .act thread call (.query q) choice result →
    (thread, call) ∈ writers w → choice.failure = none
  stays : ∀ thread call, event = .drop thread call → (thread, call) ∉ writers w
  running : event = .restart → ∀ entry ∈ w.live, entry ∉ writers w

/-- What a thread of such a run does next. -/
inductive UpdateStep (id : Uuid) (first : State) (w : HubWorld) : HubEvent → Prop
  | look {thread : Nat} {call : Call} {action : Act} {choice : Choice} {result : action.Res}
      (looks : action.Looks) : UpdateStep id first w (.act thread call action choice result)
  | write {thread : Nat} {appId : String} {name : Option String}
      {inputs : Option (List EnvVarInput)} {hostId : Option Int} {envVars : Option (List EnvVar)}
      {row : AppRow} {choice : Choice} {result : AppResult Unit}
      (isApp : Uuid.parseStr appId = some id) (read : (thread, row) ∈ rowsRead w)
      (resolved : Resolved first.secretsKey row.envVars inputs envVars)
      (passes : Passes first.db.hosts name hostId)
      (isNew : (thread, Call.updateApp appId name inputs hostId) ∉ writers w) :
      UpdateStep id first w (.act thread (.updateApp appId name inputs hostId)
        (.query (.updateApp id name envVars hostId)) choice result)
  | succeed {thread : Nat} {call : Call} {app : App} (wrote : (thread, call) ∈ writers w) :
      UpdateStep id first w (.finish thread call (.app (.ok app)))
  | fail {thread : Nat} {call : Call} {err : AppError} (unwritten : (thread, call) ∉ writers w) :
      UpdateStep id first w (.finish thread call (.app (.error err)))

/-- The rows are what the calls that have written make of them one after another. -/
structure SerialRows (id : Uuid) (first state : State) (order : List Call) : Prop where
  secretsKey : state.secretsKey = first.secretsKey
  hosts : state.db.hosts = first.db.hosts
  named : ∃ row, state.db.app? id = some row ∧ validateSlug row.name = .ok ()
  serially : ∃ after, Serially first order after ∧ after.db = state.db

/-- Only a call that has written succeeds, and as long as it has not it goes on. -/
structure Finishing (id : Uuid) (w : HubWorld) : Prop where
  live : ∀ entry ∈ w.live, entry.2.Updates id
  onceWritten : (writers w).Nodup
  onceDone : (successes w).Nodup
  done : ∀ entry ∈ writers w, entry ∈ w.live ∨ entry ∈ successes w
  wrote : ∀ entry ∈ successes w, entry ∈ writers w ∧ entry ∉ w.live

structure Serial (id : Uuid) (first : State) (w : HubWorld) : Prop where
  rows : SerialRows id first w.shared ((writers w).map Prod.snd)
  calls : Finishing id w

def serial (id : Uuid) (first : State) : Discipline Act Act.Res Call Reply State Choice where
  Allowed := NotOvertaken id
  Permit := UpdateStep id first
  Inv := Serial id first

section Steps

theorem writing_look {action : Act} {choice : Choice} {result : action.Res}
    (looks : action.Looks) : writing? (.act thread call action choice result) = none := by
  cases action with
  | query q => cases q <;> first | rfl | cases looks
  | _ => rfl

theorem look_keeps {action : Act} {choice : Choice} {result : action.Res} {after : State}
    (looks : action.Looks) (performed : perform thread action choice state = some (result, after)) :
    after = state := by
  cases action with
  | query q =>
      rcases perform_query performed with ⟨_, _, same⟩ | ⟨_, db, executed, _, same⟩
      · exact same
      · rw [same, Database.exec_read looks executed]
  | encrypt _ | decrypt _ =>
      cases performed
      rfl
  | _ => exact looks.elim

theorem Serially.secretsKey {order : List Call} (serially : Serially first order state) :
    state.secretsKey = first.secretsKey := by
  induction serially with
  | start => rfl
  | call _ ran ih => exact (runs_secretsKey ran).trans ih

/-- A list resolved against an earlier row is resolved against the present one as well. -/
theorem Resolved.now {secretsKey : SecretsKey} {before current : List EnvVar}
    {inputs : Option (List EnvVarInput)} {envVars : Option (List EnvVar)} {appId : String}
    {name : Option String} {hostId : Option Int}
    (resolved : Resolved secretsKey before inputs envVars)
    (keeps : (Call.updateApp appId name inputs hostId).KeepsSame before current) :
    Resolved secretsKey current inputs envVars := by
  cases resolved with
  | none => exact .none
  | some both =>
      refine .some ⟨both.1, ?_⟩
      have same := keeps appId name _ hostId rfl
      have each := both.2
      clear both keeps
      induction each with
      | nil => exact .nil
      | @cons input envVar _ _ resolves _ ih =>
          refine .cons ⟨resolves.1, ?_⟩ (ih fun other member => same other (.tail _ member))
          have isSame := same input List.mem_cons_self
          have last := resolves.2
          split
          · rename_i isPlain
            rw [isPlain] at last
            exact last
          · rename_i isSecret
            rw [isSecret] at last
            exact last
          · rename_i isKept
            rw [isKept] at last
            obtain ⟨kept, found, eq⟩ := last
            exact ⟨kept, (isSame isKept).symm.trans found, eq⟩

theorem SerialRows.write {order : List Call} {appId : String} {name : Option String}
    {inputs : Option (List EnvVarInput)} {hostId : Option Int} {envVars : Option (List EnvVar)}
    {before current : AppRow} {db : Database} (rows : SerialRows id first state order)
    (isApp : Uuid.parseStr appId = some id) (found : state.db.app? id = some current)
    (resolved : Resolved first.secretsKey before.envVars inputs envVars)
    (passes : Passes first.db.hosts name hostId)
    (keeps : (Call.updateApp appId name inputs hostId).KeepsSame before.envVars current.envVars)
    (executed : state.db.exec (.updateApp id name envVars hostId) = some ((), db)) :
    SerialRows id first { state with db } (order ++ [.updateApp appId name inputs hostId]) := by
  obtain ⟨row, isRow, valid⟩ := rows.named
  cases isRow.symm.trans found
  obtain ⟨after, serially, sameDb⟩ := rows.serially
  have apps := (Database.exec_updateApp executed).1
  refine ⟨rows.secretsKey, ?_, ⟨_, (apps id).trans (by rw [if_pos rfl, found]; rfl), ?_⟩, ?_⟩
  · rw [← rows.hosts]
    simp only [Database.exec] at executed
    split at executed
    · cases executed
    · cases executed
      rfl
  · cases name with
    | none => exact valid
    | some wanted => exact passes.slug wanted rfl
  · have resolvedNow := resolved.now keeps
    rw [← serially.secretsKey] at resolvedNow
    rw [← rows.hosts, ← sameDb] at passes
    rw [← sameDb] at found executed
    obtain ⟨app, ran⟩ := runs_updateApp_of 0 isApp found resolvedNow passes executed
    exact ⟨_, .call serially ran, rfl⟩

theorem SerialRows.same {order : List Call} (rows : SerialRows id first state order)
    (sameDb : state'.db = state.db) (sameKey : state'.secretsKey = state.secretsKey) :
    SerialRows id first state' order := by
  obtain ⟨secretsKey, hosts, named, serially⟩ := rows
  rw [← sameKey] at secretsKey
  rw [← sameDb] at hosts named serially
  exact ⟨secretsKey, hosts, named, serially⟩

theorem SerialRows.moves (rows : SerialRows id first w.shared ((writers w).map Prod.snd))
    (moves : w.Moves (hub limit) event w') (apart : NotOvertaken id w event)
    (step : event.Owned → UpdateStep id first w event) :
    SerialRows id first w'.shared ((writers w').map Prod.snd) := by
  rw [writers_moves moves]
  cases moves with
  | start _ | fork _ | finish _ | drop _ | restart =>
      have same : SerialRows id first w.shared ((writers w ++ []).map Prod.snd) := by
        rwa [List.append_nil]
      exact same.same rfl rfl
  | @act thread call action choice result shared member performed =>
      cases step trivial with
      | look looks =>
          rw [look_keeps looks performed, writing_look looks]
          simpa using rows
      | @write _ appId name inputs hostId envVars before _ result isApp read resolved passes isNew =>
          have ran : perform thread (.query (.updateApp id name envVars hostId)) choice w.shared =
              some (result, shared) := performed
          rcases perform_query ran with ⟨message, rfl, rfl⟩ | ⟨_, db, executed, rfl, rfl⟩
          · simpa [writing?] using rows
          · obtain ⟨current, found, _⟩ := rows.named
            have keeps := apart.keeps _ _ _ _ _ _ _ rfl before current read found
            simpa [writing?] using rows.write isApp found resolved passes keeps executed

theorem success_of_mem {entry : Nat × Call} (member : entry ∈ successes w) :
    ∃ moment ∈ w.history, moment.event.thread = some entry.1 := by
  obtain ⟨moment, past, isSuccess⟩ := List.mem_filterMap.1 member
  refine ⟨moment, List.mem_reverse.1 past, ?_⟩
  simp only [success?] at isSuccess
  split at isSuccess
  · rename_i isFinish
    cases isSuccess
    rw [isFinish]
    rfl
  · cases isSuccess

/-- Nobody writes or succeeds, and no call that has written goes away. -/
theorem Finishing.quiet (calls : Finishing id w) (numbered : w.Numbered)
    (sameWriters : writers w' = writers w) (sameSuccesses : successes w' = successes w)
    (origin : ∀ entry ∈ w'.live, entry ∈ w.live ∨ (entry.1 = w.next ∧ entry.2.Updates id))
    (kept : ∀ entry ∈ writers w, entry ∈ w.live → entry ∈ w'.live) : Finishing id w' := by
  refine ⟨?_, sameWriters ▸ calls.onceWritten, sameSuccesses ▸ calls.onceDone, ?_, ?_⟩
  · intro entry member
    rcases origin entry member with old | ⟨_, updates⟩
    · exact calls.live entry old
    · exact updates
  · rw [sameWriters, sameSuccesses]
    exact fun entry member => (calls.done entry member).imp_left (kept entry member)
  · rw [sameWriters, sameSuccesses]
    intro entry member
    refine ⟨(calls.wrote entry member).1, fun now => ?_⟩
    rcases origin entry now with old | ⟨isNext, _⟩
    · exact (calls.wrote entry member).2 old
    · obtain ⟨moment, past, byThread⟩ := success_of_mem member
      have earlier := numbered.past_lt moment past entry.1 byThread
      omega

/-- Leaving, a call that has not written takes no other call with it. -/
theorem without_keeps (numbered : w.Numbered) {entry : Nat × Call}
    (member : (thread, call) ∈ w.live) (unwritten : (thread, call) ∉ writers w)
    (wrote : entry ∈ writers w) (live : entry ∈ w.live) : entry ∈ w.without thread := by
  obtain ⟨other, otherCall⟩ := entry
  refine World.mem_without.2 ⟨live, ?_⟩
  rintro rfl
  cases numbered.unique _ _ _ live member
  exact unwritten wrote

theorem Finishing.moves (calls : Finishing id w) (numbered : w.Numbered)
    (moves : w.Moves (hub limit) event w') (apart : NotOvertaken id w event)
    (step : event.Owned → UpdateStep id first w event) : Finishing id w' := by
  have isWriters := writers_moves moves
  have isSuccesses := successes_moves moves
  cases moves with
  | start _ =>
      apply calls.quiet numbered (isWriters.trans (List.append_nil _))
        (isSuccesses.trans (List.append_nil _))
      · intro entry member
        rcases List.mem_cons.1 member with rfl | old
        · exact .inr ⟨rfl, apart.starts _ _ rfl⟩
        · exact .inl old
      · exact fun entry _ live => List.mem_cons_of_mem _ live
  | fork _ => cases step trivial
  | drop member =>
      apply calls.quiet numbered (isWriters.trans (List.append_nil _))
        (isSuccesses.trans (List.append_nil _))
      · exact fun entry member => .inl (List.mem_filter.1 member).1
      · exact fun entry => without_keeps numbered member (apart.stays _ _ rfl)
  | restart =>
      apply calls.quiet numbered (isWriters.trans (List.append_nil _))
        (isSuccesses.trans (List.append_nil _))
      · exact fun entry member => nomatch member
      · exact fun entry wrote live => absurd wrote (apart.running rfl entry live)
  | @act thread call action choice result shared member performed =>
      have noSuccess : success? (.act thread call action choice result) = none := rfl
      rw [noSuccess, Option.toList_none, List.append_nil] at isSuccesses
      cases isWriting : writing? (.act thread call action choice result) with
      | none =>
          rw [isWriting, Option.toList_none, List.append_nil] at isWriters
          apply calls.quiet numbered isWriters isSuccesses
          · exact fun entry live => .inl live
          · exact fun entry _ live => live
      | some writer =>
          rw [isWriting, Option.toList_some] at isWriters
          have isNew : writer = (thread, call) ∧ (thread, call) ∉ writers w := by
            cases step trivial with
            | look looks =>
                rw [writing_look looks] at isWriting
                cases isWriting
            | @write _ _ _ _ _ _ _ _ outcome isApp read resolved passes isNew =>
                cases outcome with
                | error err => cases isWriting
                | ok value => exact ⟨(Option.some.inj isWriting).symm, isNew⟩
          obtain ⟨rfl, isNew⟩ := isNew
          refine ⟨calls.live, ?_, isSuccesses ▸ calls.onceDone, ?_, ?_⟩
          · rw [isWriters]
            exact List.nodup_append.2 ⟨calls.onceWritten, List.nodup_singleton _, by
              rintro entry old _ fresh rfl
              exact isNew (List.mem_singleton.1 fresh ▸ old)⟩
          · rw [isWriters, isSuccesses]
            intro entry wrote
            rcases List.mem_append.1 wrote with old | now
            · exact calls.done entry old
            · cases List.mem_singleton.1 now
              exact .inl member
          · rw [isWriters, isSuccesses]
            exact fun entry done => ⟨List.mem_append_left _ (calls.wrote entry done).1,
              (calls.wrote entry done).2⟩
  | @finish thread call reply member =>
      cases step trivial with
      | fail unwritten =>
          apply calls.quiet numbered (isWriters.trans (List.append_nil _))
            (isSuccesses.trans (List.append_nil _))
          · exact fun entry member => .inl (List.mem_filter.1 member).1
          · exact fun entry => without_keeps numbered member unwritten
      | @succeed _ _ app wrote =>
          have sameWriters : writers _ = writers w := isWriters.trans (List.append_nil _)
          have isSuccesses : successes _ = successes w ++ [(thread, call)] := isSuccesses
          refine ⟨fun entry live => calls.live entry (List.mem_filter.1 live).1,
            sameWriters ▸ calls.onceWritten, ?_, ?_, ?_⟩
          · rw [isSuccesses]
            exact List.nodup_append.2 ⟨calls.onceDone, List.nodup_singleton _, by
              rintro entry old _ fresh rfl
              exact (calls.wrote entry old).2 (List.mem_singleton.1 fresh ▸ member)⟩
          · rw [sameWriters, isSuccesses]
            intro entry written
            rcases calls.done entry written with live | done
            · by_cases same : entry.1 = thread
              · obtain ⟨other, otherCall⟩ := entry
                cases same
                cases numbered.unique _ _ _ live member
                exact .inr (List.mem_append_right _ List.mem_cons_self)
              · exact .inl (World.mem_without.2 ⟨live, same⟩)
            · exact .inr (List.mem_append_left _ done)
          · rw [sameWriters, isSuccesses]
            intro entry done
            rcases List.mem_append.1 done with old | now
            · exact ⟨(calls.wrote entry old).1, fun live =>
                (calls.wrote entry old).2 (List.mem_filter.1 live).1⟩
            · cases List.mem_singleton.1 now
              exact ⟨wrote, fun live => (World.mem_without.1 live).2 rfl⟩

end Steps

/-! The programs. -/

section Calls

variable {α : Type} {fact : HubWorld → Prop}

theorem free_looking : Free (hub limit) (serial id first) thread call Act.Looks fun _ => False := by
  intro w event w' own _ _ _
  cases own with
  | act looks => exact .look looks
  | fork forks => exact forks.elim

/-- Whether a thread has written is up to itself. -/
theorem frame_writers (wrote : Prop) :
    Frame (hub limit) (serial id first) thread call Act.Looks (fun _ => False)
      fun w => (thread, call) ∈ writers w ↔ wrote := by
  refine ⟨?_, ?_⟩
  · intro w w' event interferes holds
    rw [writers_moves interferes.moves, List.mem_append, ← holds]
    refine or_iff_left fun writing => ?_
    have isWriting := Option.mem_toList.1 writing
    simp only [writing?] at isWriting
    refine interferes.other ?_
    split at isWriting <;> cases isWriting
    rfl
  · intro w event w' own holds _ _ moves _ _
    cases own with
    | act looks => rw [writers_moves moves, writing_look looks, Option.toList_none,
        List.append_nil, holds]
    | fork forks => exact forks.elim

theorem frame_rowsRead (entry : Nat × AppRow) :
    Frame (hub limit) (serial id first) thread call Act.Looks (fun _ => False)
      fun w => entry ∈ rowsRead w := by
  refine ⟨?_, ?_⟩
  · intro w w' event interferes holds
    rw [rowsRead_moves interferes.moves]
    exact List.mem_append_left _ holds
  · intro w event w' _ holds _ _ moves _ _
    rw [rowsRead_moves moves]
    exact List.mem_append_left _ holds

/-- A given value is passed on, or the call ends. -/
theorem safe_mapGiven {β : Type} {given : Option α} {body : α → AsyncResult β}
    {good : α → β → Prop} (holds : fact w)
    (step : ∀ value, given = some value → Safe (hub limit) (serial id first) thread call
      (body value).run (Outcome (fun result w' => good value result ∧ fact w')
        fun _ w' => fact w') w) :
    Safe (hub limit) (serial id first) thread call (mapGiven given body).run
      (Outcome (fun result w' => Option.Rel good given result ∧ fact w')
        fun _ w' => fact w') w := by
  cases given with
  | none => exact ⟨.none, holds⟩
  | some value =>
      refine Safe.bindE ((step value rfl).mono fun outcome w' done => ?_)
      cases outcome with
      | ok result => exact ⟨.some done.1, done.2⟩
      | error err => exact done

variable (frame : Frame (hub limit) (serial id first) thread call Act.Looks (fun _ => False) fact)
include frame

theorem safe_readRow {appId : String} (isApp : Uuid.parseStr appId = some id) (holds : fact w) :
    Safe (hub limit) (serial id first) thread call (findAppRowById appId).run
      (Outcome (fun row w' => (row.id = id ∧ validateSlug row.name = .ok ()) ∧
        (thread, row) ∈ rowsRead w' ∧ fact w') fun _ w' => fact w') w := by
  simp only [findAppRowById, isApp]
  refine Safe.bindE (safe_read free_looking frame rfl rfl holds ?_
    fun _ _ _ _ after _ _ _ => after)
  intro _ w' _ found after ready moves _ executed
  cases executed
  cases there : w'.shared.db.app? id with
  | none => exact after
  | some row =>
      obtain ⟨_, isRow, valid⟩ := ready.inv.rows.named
      cases isRow.symm.trans there
      refine ⟨⟨Database.app?_id there, valid⟩, ?_, after⟩
      rw [rowsRead_moves moves, there]
      exact List.mem_append_right _ List.mem_cons_self

theorem safe_resolveInput {existing : List EnvVar} (input : EnvVarInput) (holds : fact w) :
    Safe (hub limit) (serial id first) thread call (resolveEnvVarInput existing input).run
      (Outcome (fun envVar w' => Resolves first.secretsKey existing input envVar ∧ fact w')
        fun _ w' => fact w') w := by
  simp only [resolveEnvVarInput]
  split
  · rename_i value isPlain
    exact ⟨⟨rfl, by rw [isPlain]⟩, holds⟩
  · rename_i value isSecret
    split
    · rename_i nonempty
      have looks : (Act.encrypt value).Looks := trivial
      refine Safe.bindE (Safe.perform frame.stable holds ?_)
      intro w₀ choice result w' before ready moves allowed
      have permit := free_looking w₀ _ w' (.act looks) ready moves allowed
      refine ⟨permit, fun readyAfter => ?_⟩
      have after := frame.own w₀ _ w' (.act looks) before ready readyAfter moves allowed permit
      have performed := act_performed moves
      have encrypted := congrArg Prod.fst (Option.some.inj performed)
      rw [ready.inv.rows.secretsKey] at encrypted
      cases result with
      | error err => exact after
      | ok ciphertext =>
          refine ⟨⟨rfl, ?_⟩, after⟩
          rw [isSecret]
          exact ⟨nonempty, choice.number, ciphertext, encrypted, rfl⟩
    · exact holds
  · rename_i isKept
    split
    · rename_i kept found
      refine ⟨⟨rfl, ?_⟩, holds⟩
      rw [isKept]
      exact ⟨kept, found, rfl⟩
    · exact holds

theorem safe_hostChecked {wanted : Int} (holds : fact w) :
    Safe (hub limit) (serial id first) thread call (validateHostId wanted).run
      (Outcome (fun _ w' => (∃ host, (first.db.hosts.find? fun host => host.id = wanted) =
        some host ∧ host.revoked = false) ∧ fact w') fun _ w' => fact w') w := by
  refine Safe.bindE (safe_read free_looking frame rfl rfl holds ?_
    fun _ _ _ _ after _ _ _ => after)
  intro _ w' _ found after ready _ _ executed
  cases executed
  rw [ready.inv.rows.hosts]
  cases there : first.db.hosts.find? fun host => host.id = wanted with
  | none => exact after
  | some host =>
      dsimp only [Outcome]
      split
      · exact after
      · rename_i active
        exact ⟨⟨host, rfl, by simpa using active⟩, after⟩

theorem safe_renameChecked {row : AppRow} {wanted : String}
    (valid : validateSlug row.name = .ok ()) (holds : fact w) :
    Safe (hub limit) (serial id first) thread call (validateRename row wanted).run
      (Outcome (fun _ w' => validateSlug wanted = .ok () ∧ fact w') fun _ w' => fact w') w := by
  simp only [validateRename]
  split
  · rename_i same
    exact ⟨same ▸ valid, holds⟩
  · cases isValid : validateSlug wanted with
    | error err => exact holds
    | ok _ =>
        have looks : Takes Act.Looks (fun _ => False) (requireFreeName wanted) :=
          takes_requireFreeName looks_looks _
        refine (safe_looks free_looking frame looks holds).mono fun outcome w' after => ?_
        cases outcome with
        | ok _ => exact ⟨rfl, after⟩
        | error _ => exact after

end Calls

section Finish

theorem exec_isRead {q : Query} (db : Database) (read : q.IsRead = true) :
    ∃ result, db.exec q = some (result, db) := by
  cases q <;> first | exact ⟨_, rfl⟩ | cases read

/-- Nothing that a call looks up after it has written fails. -/
theorem safe_answered {q : Query} (read : q.IsRead = true)
    (wrote : (thread, call) ∈ writers w ↔ True) :
    Safe (hub limit) (serial id first) thread call (query q).run
      (Outcome (fun _ w' => (thread, call) ∈ writers w' ↔ True) fun _ _ => False) w := by
  have looks : (Act.query q).Looks := read
  refine Safe.perform (frame_writers True).stable wrote ?_
  intro w₀ choice result w' before ready moves allowed
  have permit := free_looking w₀ _ w' (.act looks) ready moves allowed
  refine ⟨permit, fun readyAfter => ?_⟩
  have answers := allowed.answers _ _ _ _ _ rfl (before.2 trivial)
  cases result with
  | ok value =>
      exact (frame_writers True).own w₀ _ w' (.act looks) before ready readyAfter moves allowed
        permit
  | error err =>
      obtain ⟨value, executed⟩ := exec_isRead w₀.shared.db read
      have ran : w₀.shared.runQuery q choice = (.error err, w'.shared) :=
        Option.some.inj (act_performed moves)
      simp only [State.runQuery, answers, executed] at ran
      cases ran

theorem safe_answer {row : AppRow} (wrote : (thread, call) ∈ writers w ↔ True) :
    Safe (hub limit) (serial id first) thread call (appFromRowWithPermissions row).run
      (Outcome (fun _ w' => (thread, call) ∈ writers w' ↔ True) fun _ _ => False) w := by
  refine Safe.seqE ?_ (fun permissions w' wrote => wrote) fun _ _ still => still
  refine Safe.seqE (safe_answered rfl wrote) (fun rows w₁ wrote => ?_) fun _ _ still => still
  exact Safe.seqE (safe_answered rfl wrote) (fun users w₂ wrote => wrote) fun _ _ still => still

/-- The write of a call whose checks have passed. -/
theorem safe_writeRow {appId : String} {name : Option String} {inputs : Option (List EnvVarInput)}
    {hostId : Option Int} {envVars : Option (List EnvVar)} {row : AppRow}
    (isApp : Uuid.parseStr appId = some id)
    (resolved : Resolved first.secretsKey row.envVars inputs envVars)
    (passes : Passes first.db.hosts name hostId)
    (known : ((thread, Call.updateApp appId name inputs hostId) ∈ writers w ↔ False) ∧
      (thread, row) ∈ rowsRead w) :
    Safe (hub limit) (serial id first) thread (.updateApp appId name inputs hostId)
      (query (.updateApp id name envVars hostId)).run
      (Outcome (fun _ w' => (thread, Call.updateApp appId name inputs hostId) ∈ writers w' ↔ True)
        fun _ w' => (thread, Call.updateApp appId name inputs hostId) ∈ writers w' ↔ False) w := by
  refine Safe.perform ((frame_writers False).and (frame_rowsRead (thread, row))).stable known ?_
  intro w₀ choice result w' before ready moves allowed
  refine ⟨.write isApp before.2 resolved passes before.1.1, fun _ => ?_⟩
  have isWriters := writers_moves moves
  cases result with
  | ok _ =>
      rw [Outcome, isWriters]
      exact iff_true_intro (List.mem_append_right _ List.mem_cons_self)
  | error err =>
      rw [Outcome, isWriters.trans (List.append_nil _)]
      exact before.1

/-- A call replies with its app if it has written, and with an error if it has not. -/
theorem safe_update {appId : String} {name : Option String} {inputs : Option (List EnvVarInput)}
    {hostId : Option Int} (isCall : call = .updateApp appId name inputs hostId)
    (isApp : Uuid.parseStr appId = some id) (unwritten : (thread, call) ∈ writers w ↔ False) :
    Safe (hub limit) (serial id first) thread call (updateApp appId name inputs hostId).run
      (Outcome (fun _ w' => (thread, call) ∈ writers w' ↔ True)
        fun _ w' => (thread, call) ∈ writers w' ↔ False) w := by
  have idle : Frame (hub limit) (serial id first) thread call Act.Looks (fun _ => False)
      fun w => (thread, call) ∈ writers w ↔ False := frame_writers False
  have validates : ∀ given, inputs = some given → Safe (hub limit) (serial id first) thread call
      (liftResult (validateEnvVarInputs given)).run
      (Outcome (fun _ w' => validateEnvVarInputs given = .ok () ∧
          ((thread, call) ∈ writers w' ↔ False))
        fun _ w' => (thread, call) ∈ writers w' ↔ False) w := by
    intro given _
    cases valid : validateEnvVarInputs given with
    | ok _ => exact ⟨rfl, unwritten⟩
    | error err => exact unwritten
  refine Safe.seqE (safe_mapGiven unwritten validates) (fun _ w₁ ⟨validated, unwritten⟩ => ?_)
    fun _ _ still => still
  refine Safe.seqE (safe_readRow idle isApp unwritten)
    (fun row w₂ ⟨⟨isRow, slug⟩, read, unwritten⟩ => ?_) fun _ _ still => still
  have known := idle.and (frame_rowsRead (thread, row))
  refine Safe.seqE (safe_mapGiven ⟨unwritten, read⟩ fun given _ =>
    Safe.collect (fun input w => safe_resolveInput known input) given ⟨unwritten, read⟩)
    (fun envVars w₃ ⟨resolved, both⟩ => ?_) fun _ _ both => both.1
  refine Safe.seqE (safe_mapGiven both fun wanted _ => safe_hostChecked known both)
    (fun _ w₄ ⟨hosted, both⟩ => ?_) fun _ _ both => both.1
  refine Safe.seqE (safe_mapGiven both fun wanted _ => safe_renameChecked known slug both)
    (fun _ w₅ ⟨renamed, both⟩ => ?_) fun _ _ both => both.1
  subst isRow isCall
  refine Safe.seqE (safe_writeRow isApp ?_ ?_ both) (fun _ w₆ wrote => ?_) fun _ _ still => still
  · cases resolved with
    | none => exact .none
    | some each =>
        cases validated with
        | some valid => exact .some ⟨valid, each⟩
  · refine ⟨fun wanted given => ?_, fun wanted given => ?_⟩
    · cases hosted with
      | some active => cases given; exact active
      | none => cases given
    · cases renamed with
      | some valid => cases given; exact valid
      | none => cases given
  · exact (safe_answer wrote).mono fun outcome w₇ after => by
      cases outcome with
      | ok _ => exact after
      | error _ => exact after.elim

theorem final_update {result : AppResult App} (wrote : Prop)
    (holds : (thread, call) ∈ writers w ↔ wrote)
    (ends : ∀ w : HubWorld, ((thread, call) ∈ writers w ↔ wrote) →
      UpdateStep id first w (.finish thread call (.app result))) :
    Final (hub limit) (serial id first) thread call (.app result) w :=
  fun w' rely _ _ => ends w' ((frame_writers wrote).stable.rely rely holds)

theorem serial_sound : Sound (hub limit) (serial id first) where
  keeps _ _ _ numbered inv moves apart step :=
    ⟨inv.rows.moves moves apart step, inv.calls.moves numbered moves apart step⟩
  starts := by
    intro w call w' numbered inv moves apart ready
    obtain ⟨appId, name, inputs, hostId, rfl, isApp⟩ := apart.starts _ _ rfl
    have unwritten : (w.next, Call.updateApp appId name inputs hostId) ∉ writers w' := by
      rw [(writers_moves moves).trans (List.append_nil _)]
      intro wrote
      rcases inv.calls.done _ wrote with live | done
      · exact numbered.next_not_live _ live
      · obtain ⟨moment, past, byNext⟩ := success_of_mem done
        exact Nat.lt_irrefl _ (numbered.past_lt moment past _ byNext)
    refine Safe.bind ((safe_update rfl isApp (iff_false_intro unwritten)).mono ?_)
    intro outcome w₁ after
    cases outcome with
    | ok app => exact final_update True after fun _ wrote => .succeed (wrote.2 trivial)
    | error err => exact final_update False after fun _ wrote => .fail wrote.1
  forks := by
    intro w thread call forked w' _ _ _ _ step
    cases step

end Finish

theorem serial_secure {row : AppRow} (found : first.db.app? id = some row)
    (valid : validateSlug row.name = .ok ()) :
    Secure (hub limit) (serial id first) (Config.idle first) := by
  refine secure_idle ⟨⟨rfl, rfl, ⟨row, found, valid⟩, ⟨first, .start, rfl⟩⟩, ?_⟩
  refine ⟨?_, List.nodup_nil, List.nodup_nil, ?_, ?_⟩ <;> exact fun _ member => nomatch member

/-- Updates of an app that do not overtake each other are serializable. -/
theorem updates_serializable {row : AppRow} {cfg : HubConfig}
    (found : first.db.app? id = some row) (valid : validateSlug row.name = .ok ())
    (reachable : Reachable (hub limit) (NotOvertaken id) (Config.idle first) cfg)
    (finished : cfg.live = []) :
    ∃ order state, order.Perm ((successes cfg.world).map Prod.snd) ∧ Serially first order state ∧
      state.db = cfg.shared.db := by
  have inv := serial_sound.invariant (serial_secure found valid) reachable
  obtain ⟨state, serially, same⟩ := inv.rows.serially
  refine ⟨_, state, (List.Perm.map Prod.snd ?_), serially, same⟩
  refine (List.perm_ext_iff_of_nodup inv.calls.onceWritten inv.calls.onceDone).2 fun entry => ?_
  constructor
  · intro wrote
    rcases inv.calls.done entry wrote with live | done
    · rw [Config.world_live, finished] at live
      cases live
    · exact done
  · exact fun done => (inv.calls.wrote entry done).1

/-! Two updates at once. -/

/-- A serving hub with one app, whose `A` is the given secret. -/
def hubWith (secret : String) : State :=
  let row : AppRow := ⟨Uuid.repeated 1, "app", .upload, [⟨"A", .secret secret⟩], none, 1⟩
  let fresh := State.fresh sealingKey [] [⟨1, false⟩]
  { fresh with db := { fresh.db with apps := ⟨[row], by simp⟩ }, serving := true }

def keepsOld : Call :=
  .updateApp (Uuid.repeated 1).toString none (some [⟨"A", .secret none⟩]) none

def rotates : Call :=
  .updateApp (Uuid.repeated 1).toString none (some [⟨"A", .secret (some "new")⟩]) none

def renames : Call := .updateApp (Uuid.repeated 1).toString (some "other") none none

/-- Enough for `NotOvertaken`. -/
def checkNotOvertaken (id : Uuid) (w : HubWorld) : HubEvent → Bool
  | .start _ (.updateApp appId _ _ _) => Uuid.parseStr appId = some id
  | .act thread call action choice _ =>
      choice.failure.isNone && match action, call with
        | .query (.updateApp _ _ _ _), .updateApp _ _ (some inputs) _ =>
            (rowsRead w).all fun entry => entry.1 ≠ thread ||
              (app? w id).all fun current => inputs.all fun input => input.value ≠ .secret none ||
                secretOf entry.2.envVars input.key = secretOf current.envVars input.key
        | _, _ => true
  | .finish _ _ _ => true
  | _ => false

theorem notOvertaken_of_check (checked : checkNotOvertaken id w event = true) :
    NotOvertaken id w event := by
  refine ⟨?_, ?_, ?_, ?_, ?_⟩
  · rintro thread call rfl
    cases call with
    | updateApp appId name inputs hostId => exact ⟨_, _, _, _, rfl, of_decide_eq_true checked⟩
    | _ => cases checked
  · rintro thread call name envVars hostId choice result rfl before current read found
    rintro appId name' inputs hostId' rfl input member isKept
    simp only [checkNotOvertaken, Bool.and_eq_true, List.all_eq_true, Bool.or_eq_true,
      Option.all_eq_true, decide_eq_true_eq] at checked
    rcases checked.2 _ read with apart | kept
    · exact absurd rfl apart
    · rcases kept current found input member with notKept | same
      · exact absurd isKept notKept
      · exact same
  · rintro thread call q choice result rfl _
    simp only [checkNotOvertaken, Bool.and_eq_true, Option.isNone_iff_eq_none] at checked
    exact checked.1
  · rintro thread call rfl
    cases checked
  · rintro rfl
    cases checked

/-- The first call has read the row, and writes when the second one has come to its end. -/
def overtaken (slow quick : Call) : List (Command Call Choice) :=
  let plain : Choice := {}
  .start slow :: .start quick :: steps 0 1 plain ++ steps 1 6 { number := 1 } ++ steps 0 4 plain

theorem updates_serializable_renamed : ∃ cfg : HubConfig,
    (successes cfg.world).map Prod.snd = [renames, keepsOld] ∧
      ∃ order state, order.Perm ((successes cfg.world).map Prod.snd) ∧
        Serially (hubWith "#.old") order state ∧ state.db = cfg.shared.db := by
  have ran : (runChecked (hub 1000) (checkNotOvertaken (Uuid.repeated 1))
      (Config.idle (hubWith "#.old")) (overtaken keepsOld renames)).any (fun cfg =>
        cfg.live.isEmpty && (successes cfg.world).map Prod.snd = [renames, keepsOld]) = true := by
    decide +kernel
  obtain ⟨cfg, reachable, holds⟩ := runChecked_any (fun _ _ => notOvertaken_of_check) ran
  rw [Bool.and_eq_true, List.isEmpty_iff, decide_eq_true_eq] at holds
  exact ⟨cfg, holds.2, updates_serializable rfl rfl reachable holds.1⟩

/-- Whatever the order, the secret is the new one once it has been set. -/
theorem serially_rotated {secret : String} {order : List Call}
    (serially : Serially (hubWith secret) order state)
    (among : ∀ call ∈ order, call = keepsOld ∨ call = rotates) :
    ∃ ciphertext, envVarsOf (Uuid.repeated 1) state = some [⟨"A", .secret ciphertext⟩] ∧
      (rotates ∈ order → ∃ nonce, sealingKey.encrypt nonce "new" = .ok ciphertext) := by
  induction serially with
  | start => exact ⟨secret, rfl, nofun⟩
  | @call order appId name inputs hostId app before after serially ran ih =>
      obtain ⟨ciphertext, stored, isNew⟩ := ih fun call member =>
        among call (List.mem_append_left _ member)
      obtain ⟨row, envVars, isApp, found, updated, written⟩ := runs_updateApp ran
      rw [serially.secretsKey] at updated
      have isCall := among _ (List.mem_append_right _ List.mem_cons_self)
      have isRow : row.id = Uuid.repeated 1 := by
        rcases isCall with isCall | isCall <;> cases isCall <;>
          exact Option.some.inj (isApp.symm.trans (Uuid.parseStr_toString _))
      rw [isRow] at found written
      simp only [envVarsOf, found, Option.map_some, Option.some.injEq] at stored
      rw [stored] at updated
      rcases isCall with isCall | isCall <;> cases isCall
      · obtain ⟨⟨key, value⟩, _, ⟨rfl, kept, isKept, rfl⟩, rest, rfl⟩ :=
          List.forall₂_cons_left_iff.1 updated.2
        cases List.forall₂_nil_left_iff.1 rest
        cases Option.some.inj isKept
        refine ⟨ciphertext, written, fun member => isNew ?_⟩
        rcases List.mem_append.1 member with old | same
        · exact old
        · exact absurd (List.mem_singleton.1 same) (by decide)
      · obtain ⟨⟨key, value⟩, _, ⟨rfl, _, nonce, fresh, encrypted, rfl⟩, rest, rfl⟩ :=
          List.forall₂_cons_left_iff.1 updated.2
        cases List.forall₂_nil_left_iff.1 rest
        exact ⟨fresh, written, fun _ => ⟨nonce, encrypted⟩⟩

def startsEither : HubEvent → Bool
  | .start _ call => call = keepsOld ∨ call = rotates
  | _ => true

theorem updates_of_startsEither (checked : startsEither event = true) (thread : Nat) (call : Call)
    (isStart : event = .start thread call) : call.Updates (Uuid.repeated 1) := by
  subst isStart
  rcases of_decide_eq_true checked with rfl | rfl <;>
    exact ⟨_, _, _, _, rfl, Uuid.parseStr_toString _⟩

/-- The rotated secret is back to its old value, which no order of the two calls leads to. -/
theorem rotated_secret_reverted : ∃ cfg : HubConfig,
    Reachable (hub 1000) (fun _ event => ∀ thread call, event = .start thread call →
      call.Updates (Uuid.repeated 1)) (Config.idle (hubWith "#.old")) cfg ∧ cfg.live = [] ∧
      (successes cfg.world).map Prod.snd = [rotates, keepsOld] ∧
      envVarsOf (Uuid.repeated 1) cfg.shared = some [⟨"A", .secret "#.old"⟩] ∧
      ¬ ∃ order state, order.Perm ((successes cfg.world).map Prod.snd) ∧
        Serially (hubWith "#.old") order state ∧ state.db = cfg.shared.db := by
  have ran : (runChecked (hub 1000) (fun _ event => startsEither event)
      (Config.idle (hubWith "#.old")) (overtaken keepsOld rotates)).any (fun cfg =>
        cfg.live.isEmpty && ((successes cfg.world).map Prod.snd = [rotates, keepsOld] &&
          envVarsOf (Uuid.repeated 1) cfg.shared = some [⟨"A", .secret "#.old"⟩])) = true := by
    decide +kernel
  obtain ⟨cfg, reachable, holds⟩ := runChecked_any (fun _ _ => updates_of_startsEither) ran
  rw [Bool.and_eq_true, Bool.and_eq_true, List.isEmpty_iff, decide_eq_true_eq,
    decide_eq_true_eq] at holds
  obtain ⟨finished, isBoth, stored⟩ := holds
  refine ⟨cfg, reachable, finished, isBoth, stored, ?_⟩
  rintro ⟨order, state, perm, serially, same⟩
  rw [isBoth] at perm
  obtain ⟨ciphertext, rotated, isNew⟩ := serially_rotated serially fun call member => by
    simpa [or_comm] using perm.subset member
  obtain ⟨nonce, encrypted⟩ := isNew (perm.symm.subset List.mem_cons_self)
  have unchanged : envVarsOf (Uuid.repeated 1) state = some [⟨"A", .secret "#.old"⟩] := by
    rw [← stored, envVarsOf, same]
    rfl
  cases rotated.symm.trans unchanged
  have decrypted := sealingKey_inverts nonce "new" "#.old" encrypted
  exact absurd decrypted (by decide)

end Berth
