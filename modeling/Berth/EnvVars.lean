import Berth.Changes
import Berth.Interleave.Alone

/-!
Environment variables: what a sequence of submitted lists means, and the stored lists that stand
for it.
-/

namespace Berth

open Interleave

/-! What is submitted. -/

/-- What a variable was last set to, and whether as a secret. -/
structure Setting where
  key : String
  value : String
  secret : Bool
  deriving DecidableEq

/-- `none` where there is no secret to keep. -/
def EnvVarInput.setting (before : List Setting) (input : EnvVarInput) : Option Setting :=
  match input.value with
  | .plain value => some ⟨input.key, value, false⟩
  | .secret (some value) => some ⟨input.key, value, true⟩
  | .secret none => before.find? fun setting => setting.key = input.key ∧ setting.secret

def submit (before : List Setting) (inputs : List EnvVarInput) : Option (List Setting) :=
  inputs.mapM (EnvVarInput.setting before)

def lastSet (log : List (List EnvVarInput)) : Option (List Setting) := log.foldlM submit []

/-- The environment a container gets. -/
def Setting.decrypted (setting : Setting) : EnvVar := ⟨setting.key, .plain setting.value⟩

theorem lastSet_snoc (log : List (List EnvVarInput)) (inputs : List EnvVarInput) :
    lastSet (log ++ [inputs]) = (lastSet log).bind fun before => submit before inputs := by
  simp [lastSet, List.foldlM_append]

theorem setting_key {before : List Setting} {input : EnvVarInput} {setting : Setting}
    (isSetting : input.setting before = some setting) : setting.key = input.key := by
  simp only [EnvVarInput.setting] at isSetting
  split at isSetting
  · cases isSetting
    rfl
  · cases isSetting
    rfl
  · have found := List.find?_some isSetting
    simp only [decide_eq_true_eq] at found
    exact found.1

theorem submit_keys {before settings : List Setting} {inputs : List EnvVarInput}
    (submitted : submit before inputs = some settings) :
    settings.map Setting.key = inputs.map EnvVarInput.key := by
  induction inputs generalizing settings with
  | nil =>
      cases submitted
      rfl
  | cons input rest ih =>
      simp only [submit, List.mapM_cons, Option.bind_eq_bind, Option.bind_eq_some_iff,
        Option.pure_def, Option.some.injEq] at submitted
      obtain ⟨setting, isSetting, others, isRest, rfl⟩ := submitted
      simp only [List.map_cons, setting_key isSetting, ih isRest]

/-! What is stored. -/

/-- A secret is stored as a ciphertext of its value, and nothing else is. -/
def Stores (secretsKey : SecretsKey) (envVar : EnvVar) (setting : Setting) : Prop :=
  envVar.key = setting.key ∧
    match envVar.value with
    | .plain value => setting.secret = false ∧ value = setting.value
    | .secret ciphertext =>
        setting.secret = true ∧ ∃ nonce, secretsKey.encrypt nonce setting.value = .ok ciphertext

/-- Decryption gives back what was encrypted. -/
def SecretsKey.Inverts (secretsKey : SecretsKey) : Prop :=
  ∀ nonce plaintext ciphertext, secretsKey.encrypt nonce plaintext = .ok ciphertext →
    secretsKey.decrypt ciphertext = .ok plaintext

variable {secretsKey : SecretsKey} {envVar : EnvVar} {setting : Setting}

theorem Stores.isSecret (stores : Stores secretsKey envVar setting) :
    envVar.value.isSecret = setting.secret := by
  obtain ⟨_, stored⟩ := stores
  cases eq : envVar.value with
  | plain value =>
      rw [eq] at stored
      exact stored.1.symm
  | secret ciphertext =>
      rw [eq] at stored
      exact stored.1.symm

/-- In two lists that correspond, the first hits of corresponding tests correspond. -/
theorem find?_forall₂ {α β : Type} {r : α → β → Prop} {p : α → Bool} {q : β → Bool}
    {left : List α} {right : List β} (related : List.Forall₂ r left right)
    (same : ∀ a b, r a b → p a = q b) :
    (left.find? p = none ∧ right.find? q = none) ∨
      ∃ a b, left.find? p = some a ∧ right.find? q = some b ∧ r a b := by
  induction related with
  | nil => exact .inl ⟨rfl, rfl⟩
  | @cons a b left right isRelated _ ih =>
      have agree := same a b isRelated
      by_cases hit : q b = true
      · rw [hit] at agree
        exact .inr ⟨a, b, List.find?_cons_of_pos agree, List.find?_cons_of_pos hit, isRelated⟩
      · rw [List.find?_cons_of_neg hit, List.find?_cons_of_neg (agree ▸ hit)]
        exact ih

theorem find_stored {existing : List EnvVar} {before : List Setting}
    (stored : List.Forall₂ (Stores secretsKey) existing before) (key : String) :
    ((existing.find? fun envVar => envVar.key = key ∧ envVar.value.isSecret) = none ∧
        (before.find? fun setting => setting.key = key ∧ setting.secret) = none) ∨
      ∃ envVar setting, (existing.find? fun envVar => envVar.key = key ∧ envVar.value.isSecret) =
          some envVar ∧ (before.find? fun setting => setting.key = key ∧ setting.secret) =
          some setting ∧ Stores secretsKey envVar setting := by
  apply find?_forall₂ stored
  intro envVar setting stores
  simp only [stores.1, stores.isSecret]

/-! What becomes of a submitted list. -/

/-- The stored form of a submitted variable. -/
def Resolves (secretsKey : SecretsKey) (existing : List EnvVar) (input : EnvVarInput)
    (envVar : EnvVar) : Prop :=
  envVar.key = input.key ∧
    match input.value with
    | .plain value => envVar.value = .plain value
    | .secret (some value) => value ≠ "" ∧
        ∃ nonce ciphertext, secretsKey.encrypt nonce value = .ok ciphertext ∧
          envVar.value = .secret ciphertext
    | .secret none => ∃ kept, (existing.find? fun envVar =>
        envVar.key = input.key ∧ envVar.value.isSecret) = some kept ∧ envVar.value = kept.value

theorem Resolves.stores {existing : List EnvVar} {before : List Setting} {input : EnvVarInput}
    (resolves : Resolves secretsKey existing input envVar)
    (stored : List.Forall₂ (Stores secretsKey) existing before) :
    ∃ setting, input.setting before = some setting ∧ Stores secretsKey envVar setting := by
  obtain ⟨key, value⟩ := envVar
  obtain ⟨rfl, resolved⟩ := resolves
  simp only [EnvVarInput.setting]
  split at resolved
  · cases resolved
    exact ⟨_, rfl, rfl, rfl, rfl⟩
  · obtain ⟨_, nonce, ciphertext, encrypted, rfl⟩ := resolved
    exact ⟨_, rfl, rfl, rfl, nonce, encrypted⟩
  · obtain ⟨kept, found, rfl⟩ := resolved
    rcases find_stored stored input.key with ⟨absent, _⟩ | ⟨kept', setting, found', hit, stores⟩
    · exact nomatch absent.symm.trans found
    · cases found'.symm.trans found
      have sameKey := List.find?_some hit
      simp only [decide_eq_true_eq] at sameKey
      exact ⟨setting, hit, sameKey.1.symm, stores.2⟩

theorem submit_of_resolves {existing envVars : List EnvVar} {before : List Setting}
    {inputs : List EnvVarInput}
    (resolved : List.Forall₂ (Resolves secretsKey existing) inputs envVars)
    (stored : List.Forall₂ (Stores secretsKey) existing before) :
    ∃ settings, submit before inputs = some settings ∧
      List.Forall₂ (Stores secretsKey) envVars settings := by
  induction resolved with
  | nil => exact ⟨[], rfl, .nil⟩
  | cons resolves _ ih =>
      obtain ⟨setting, isSetting, stores⟩ := resolves.stores stored
      obtain ⟨settings, isRest, others⟩ := ih
      have isRest : List.mapM (EnvVarInput.setting before) _ = some settings := isRest
      exact ⟨setting :: settings, by simp [submit, isSetting, isRest], .cons stores others⟩

section Runs

variable {thread : Nat} {state state' : State}

theorem runs_hubQuery {q : Query} {outcome : AppResult q.Result}
    (runs : Program.Runs (perform thread) (query q).run state outcome state') :
    (∃ message, outcome = .error (.db message) ∧ state' = state) ∨
      ∃ result db, outcome = .ok result ∧ state.db.exec q = some (result, db) ∧
        state' = { state with db } := by
  obtain ⟨choice, performed⟩ := Program.runs_perform.1 runs
  have ran : state.runQuery q choice = (outcome, state') := Option.some.inj performed
  simp only [State.runQuery] at ran
  split at ran
  · cases ran
    exact .inl ⟨_, rfl, rfl⟩
  · split at ran
    · rename_i result db executed
      cases ran
      exact .inr ⟨result, db, rfl, executed, rfl⟩
    · cases ran
      exact .inl ⟨_, rfl, rfl⟩

theorem runs_of_exec {q : Query} {result : q.Result} {db : Database}
    (executed : state.db.exec q = some (result, db)) :
    Program.Runs (perform thread) (query q).run state (.ok result) { state with db } := by
  refine Program.runs_perform.2 ⟨{}, ?_⟩
  simp only [perform, State.runQuery, executed]
  rfl

theorem runs_encrypt {plaintext : String} {outcome : AppResult String} :
    Program.Runs (perform thread) (encrypt plaintext).run state outcome state' ↔
      (∃ nonce, state.secretsKey.encrypt nonce plaintext = outcome) ∧ state' = state := by
  refine Program.runs_perform.trans ?_
  constructor
  · rintro ⟨choice, performed⟩
    cases performed
    exact ⟨⟨choice.number, rfl⟩, rfl⟩
  · rintro ⟨⟨nonce, rfl⟩, rfl⟩
    exact ⟨{ number := nonce }, rfl⟩

theorem runs_decrypt {ciphertext : String} {outcome : AppResult String} :
    Program.Runs (perform thread) (decrypt ciphertext).run state outcome state' ↔
      outcome = state.secretsKey.decrypt ciphertext ∧ state' = state := by
  refine Program.runs_perform.trans ?_
  constructor
  · rintro ⟨choice, performed⟩
    cases performed
    exact ⟨rfl, rfl⟩
  · rintro ⟨rfl, rfl⟩
    exact ⟨{}, rfl⟩

theorem runs_resolveEnvVarInput {existing : List EnvVar} {input : EnvVarInput}
    (runs : Program.Runs (perform thread) (resolveEnvVarInput existing input).run state
      (.ok envVar) state') : Resolves state.secretsKey existing input envVar := by
  simp only [resolveEnvVarInput] at runs
  split at runs
  · cases runs.1
    rename_i value isPlain
    exact ⟨rfl, by rw [isPlain]⟩
  · rename_i value isSecret
    split at runs
    · rename_i nonempty
      obtain ⟨ciphertext, _, encrypted, last⟩ := Fallible.runs_bind_ok.1 runs
      obtain ⟨⟨nonce, encrypted⟩, rfl⟩ := runs_encrypt.1 encrypted
      cases last.1
      exact ⟨rfl, by rw [isSecret]; exact ⟨nonempty, nonce, ciphertext, encrypted, rfl⟩⟩
    · cases runs.1
  · rename_i isKept
    split at runs
    · rename_i kept found
      cases runs.1
      exact ⟨rfl, by rw [isKept]; exact ⟨kept, found, rfl⟩⟩
    · cases runs.1

/-- A variable is refused for what it is, or its encryption fails. -/
theorem runs_resolveEnvVarInput_error {existing : List EnvVar} {input : EnvVarInput} {err : AppError}
    (runs : Program.Runs (perform thread) (resolveEnvVarInput existing input).run state
      (.error err) state') :
    (err = .invalidEnvVar input.key ∧ (input.value = .secret (some "") ∨
      (input.value = .secret none ∧ (existing.find? fun envVar =>
        envVar.key = input.key ∧ envVar.value.isSecret) = none))) ∨
      ∃ nonce value, state.secretsKey.encrypt nonce value = .error err := by
  simp only [resolveEnvVarInput] at runs
  split at runs
  · cases runs.1
  · rename_i value isSecret
    split at runs
    · rcases Fallible.runs_bind.1 runs with ⟨_, encrypted, eq⟩ | ⟨_, _, _, last⟩
      · cases eq
        obtain ⟨⟨nonce, failed⟩, _⟩ := runs_encrypt.1 encrypted
        exact .inr ⟨nonce, value, failed⟩
      · cases last.1
    · rename_i isEmpty
      cases runs.1
      have empty : value = "" := by simpa using isEmpty
      exact .inl ⟨rfl, .inl (empty ▸ isSecret)⟩
  · rename_i isKept
    split at runs
    · cases runs.1
    · rename_i absent
      cases runs.1
      exact .inl ⟨rfl, .inr ⟨isKept, absent⟩⟩

theorem resolveEnvVarInput_keeps {existing : List EnvVar} {input : EnvVarInput}
    {outcome : AppResult EnvVar}
    (runs : Program.Runs (perform thread) (resolveEnvVarInput existing input).run state outcome
      state') : state' = state := by
  simp only [resolveEnvVarInput] at runs
  split at runs
  · exact runs.2
  · split at runs
    · rcases Fallible.runs_bind.1 runs with ⟨_, encrypted, _⟩ | ⟨_, _, encrypted, last⟩
      · exact (runs_encrypt.1 encrypted).2
      · exact last.2.trans (runs_encrypt.1 encrypted).2
    · exact runs.2
  · split at runs <;> exact runs.2

theorem runs_resolveEnvVarInputs {existing envVars : List EnvVar} {inputs : List EnvVarInput}
    (runs : Program.Runs (perform thread) (resolveEnvVarInputs inputs existing).run state
      (.ok envVars) state') :
    state' = state ∧ List.Forall₂ (Resolves state.secretsKey existing) inputs envVars := by
  obtain ⟨same, each⟩ :=
    Fallible.runs_collect_ok (fun _ _ _ runs => resolveEnvVarInput_keeps runs) runs
  exact ⟨same, each.imp fun _ _ ran => runs_resolveEnvVarInput ran⟩

/-! What the other steps of the hub leave alone. -/

theorem perform_secretsKey {action : Act} {choice : Choice} {result : action.Res}
    (performed : perform thread action choice state = some (result, state')) :
    state'.secretsKey = state.secretsKey := by
  by_cases onFiles : action.OnFiles
  · rw [(perform_onFiles onFiles performed).only]
    rfl
  cases action with
  | createDir _ | createDirAll _ | rename _ _ | removeDirAll _ | removeFile _ | readDir _
  | pathExists _ | createFile _ | writeFile _ | unpackZip _ _ | zipDir _ _ | cloneShallow _ _
  | dirSizeBytes _ => exact (onFiles trivial).elim
  | query q =>
      rcases perform_query performed with ⟨_, _, rfl⟩ | ⟨_, _, _, _, rfl⟩ <;> rfl
  | lock | nowV7 | connect _ =>
      simp only [perform] at performed
      split at performed <;> cases performed
      rfl
  | agent host request =>
      rcases ask_cases (Option.some.inj performed) with
        ⟨rfl, _⟩ | ⟨_, _, rfl⟩ | ⟨_, _, _, rfl⟩ | ⟨_, _, _, rfl⟩ <;> rfl
  | runBacklog host =>
      obtain ⟨after, worked, eq⟩ := Option.map_eq_some_iff.1 performed
      cases eq
      simp only [State.work] at worked
      split at worked
      · cases worked
      · split at worked
        · cases worked
        · split at worked <;> cases worked <;> rfl
  | unlock | uniqueTmpPath _ _ | encrypt _ | decrypt _ | timeoutElapsed | connectedHosts
  | disconnect _ | administer _ _ | serve =>
      cases Option.some.inj performed
      rfl

theorem runs_secretsKey {α : Type} {program : Async α} {value : α}
    (runs : Program.Runs (perform thread) program state value state') :
    state'.secretsKey = state.secretsKey :=
  runs.keeps (Program.uses_all program)
    (fun _ _ _ _ _ _ performed before => (perform_secretsKey performed).trans before) rfl

/-- The variables in the row of an app. -/
def envVarsOf (id : Uuid) (state : State) : Option (List EnvVar) :=
  (state.db.app? id).map AppRow.envVars

def Act.writesEnvVarsOf (id : Uuid) : Act → Bool
  | .query (.insertApp row _) => row.id = id
  | .query (.updateApp other _ envVars _) => other = id && envVars.isSome
  | .query (.deleteApp other) => other = id
  | _ => false

theorem perform_envVarsOf {id : Uuid} {action : Act} {choice : Choice} {result : action.Res}
    (performed : perform thread action choice state = some (result, state'))
    (apart : action.writesEnvVarsOf id = false) : envVarsOf id state' = envVarsOf id state := by
  by_cases isQuery : ∃ q, action = .query q
  · obtain ⟨q, rfl⟩ := isQuery
    rcases perform_query performed with ⟨_, _, rfl⟩ | ⟨value, db, executed, _, rfl⟩
    · rfl
    have sameApps : db.apps = state.db.apps → envVarsOf id { state with db } = envVarsOf id state := by
      intro same
      simp only [envVarsOf, Database.app?, same]
    cases q with
    | insertApp row creator =>
        obtain ⟨_, apps, _⟩ := Database.exec_insertApp executed
        simp only [Act.writesEnvVarsOf, decide_eq_false_iff_not] at apart
        simp only [envVarsOf, apps, if_neg (Ne.symm apart)]
    | updateApp other name envVars hostId =>
        obtain ⟨apps, _⟩ := Database.exec_updateApp executed
        simp only [envVarsOf, apps]
        split
        · rename_i same
          simp only [Act.writesEnvVarsOf, same, decide_true, Bool.true_and,
            Option.isSome_eq_false_iff, Option.isNone_iff_eq_none] at apart
          simp only [Option.map_map, apart]
          rfl
        · rfl
    | setActiveDeployment appId deploymentId =>
        obtain ⟨apps, _⟩ := Database.exec_setActiveDeployment executed
        simp only [envVarsOf, apps]
        split
        · simp only [Option.map_map]
          rfl
        · rfl
    | deleteApp other =>
        obtain ⟨apps, _⟩ := Database.exec_deleteApp executed
        simp only [Act.writesEnvVarsOf, decide_eq_false_iff_not] at apart
        simp only [envVarsOf, apps, if_neg (Ne.symm apart)]
    | insertDeployment row => exact sameApps (Database.exec_insertDeployment executed).2.2
    | updateGitInfo id gitInfo buildInfo size =>
        exact sameApps (Database.exec_updateGitInfo executed).2
    | updateStatus id status failureError => exact sameApps (Database.exec_updateStatus executed).2
    | deleteDeployment id => exact sameApps (Database.exec_deleteDeployment executed).2
    | replacePermissions appId granted =>
        exact sameApps (Database.exec_replacePermissions executed).1
    | appById _ | appByName _ | allApps | permissionsOf _ | usersIn _ | userByName _
    | hostById _ | deploymentById _ _ | deploymentsOf _ | allDeployments =>
        exact sameApps (congrArg Database.apps (Database.exec_read rfl executed))
  · have notQuery : ∀ q, action ≠ .query q := fun q eq => isQuery ⟨q, eq⟩
    simp only [envVarsOf, Database.app?, (perform_rows notQuery performed).1]

/-! The two operations. -/

theorem runs_liftStored {α : Type} {result outcome : AppResult α} :
    Program.Runs (perform thread) (liftResult result).run state outcome state' ↔
      outcome = result ∧ state' = state := by
  cases result <;> exact Iff.rfl

theorem runs_read {q : Query} {outcome : AppResult q.Result} (read : q.IsRead = true)
    (runs : Program.Runs (perform thread) (query q).run state outcome state') : state' = state := by
  rcases runs_hubQuery runs with ⟨_, _, rfl⟩ | ⟨_, db, _, executed, rfl⟩
  · rfl
  · rw [Database.exec_read read executed]

theorem runs_loadPermissions {row : AppRow} {outcome : AppResult (List AppPermission)}
    (runs : Program.Runs (perform thread) (loadPermissions row).run state outcome state') :
    state' = state := by
  rcases Fallible.runs_bind.1 runs with ⟨_, ran, _⟩ | ⟨_, _, ran, rest⟩
  · exact runs_read rfl ran
  cases runs_read rfl ran
  rcases Fallible.runs_bind.1 rest with ⟨_, ran, _⟩ | ⟨_, _, ran, last⟩
  · exact runs_read rfl ran
  · cases runs_read rfl ran
    exact last.2

theorem runs_appFromRowWithPermissions {row : AppRow} {outcome : AppResult App}
    (runs : Program.Runs (perform thread) (appFromRowWithPermissions row).run state outcome state') :
    state' = state ∧ ∀ app, outcome = .ok app → app.id = row.id.toString := by
  rcases Fallible.runs_bind.1 runs with ⟨_, ran, rfl⟩ | ⟨_, _, ran, last⟩
  · exact ⟨runs_loadPermissions ran, fun _ eq => nomatch eq⟩
  · cases runs_loadPermissions ran
    refine ⟨last.2, fun app eq => ?_⟩
    cases eq.symm.trans last.1
    rfl

theorem runs_permissions (row : AppRow) : ∃ app,
    Program.Runs (perform thread) (appFromRowWithPermissions row).run state (.ok app) state := by
  let rows := state.db.permissions.filter fun permission => permission.appId = row.id
  let users := state.db.users.filter fun user => user.id ∈ (rows.map PermissionRow.userId).eraseDups
  have loads : Program.Runs (perform thread) (loadPermissions row).run state
      (.ok (resolvePermissions rows users)) state :=
    Fallible.runs_bind_ok.2 ⟨rows, state, runs_of_exec rfl,
      Fallible.runs_bind_ok.2 ⟨users, state, runs_of_exec rfl, rfl, rfl⟩⟩
  exact ⟨appFromRow row (resolvePermissions rows users),
    Fallible.runs_bind_ok.2 ⟨_, state, loads, rfl, rfl⟩⟩

theorem runs_findAppRowById {appId : String} {row : AppRow}
    (runs : Program.Runs (perform thread) (findAppRowById appId).run state (.ok row) state') :
    state' = state ∧ Uuid.parseStr appId = some row.id ∧ state.db.app? row.id = some row := by
  simp only [findAppRowById] at runs
  split at runs
  · cases runs.1
  · rename_i id parsed
    obtain ⟨found, _, looked, last⟩ := Fallible.runs_bind_ok.1 runs
    rcases runs_hubQuery looked with ⟨_, eq, _⟩ | ⟨_, _, eq, executed, rfl⟩
    · cases eq
    cases executed
    cases eq
    cases isFound : state.db.app? id with
    | none =>
        rw [isFound] at last
        cases last.1
    | some row =>
        rw [isFound] at last
        cases last.1
        cases Database.app?_id isFound
        exact ⟨last.2, parsed, isFound⟩

theorem runs_withWriteLock {α : Type} {body : AsyncResult α} {outcome : AppResult α}
    (runs : Program.Runs (perform thread) (withWriteLock body).run state outcome state') :
    ∃ locked unlocked, Program.Runs (perform thread) body.run locked outcome unlocked ∧
      locked.db = state.db ∧ locked.secretsKey = state.secretsKey ∧ state'.db = unlocked.db := by
  obtain ⟨_, locked, locking, rest⟩ := Program.runs_bind.1 runs
  obtain ⟨result, unlocked, ran, ending⟩ := Program.runs_bind.1 rest
  obtain ⟨_, _, unlocking, last⟩ := Program.runs_bind.1 ending
  obtain ⟨choice, performed⟩ := Program.runs_perform.1 locking
  obtain ⟨choice', performed'⟩ := Program.runs_perform.1 unlocking
  obtain ⟨rfl, rfl⟩ := last
  refine ⟨locked, unlocked, ran, ?_, perform_secretsKey performed, ?_⟩
  · simp only [perform] at performed
    split at performed <;> cases performed
    rfl
  · cases performed'
    rfl

theorem runs_insertNewApp {name : String} {source : AppSource} {envVars : List EnvVar}
    {creator : Option String} {hostId : Int} {app : App} {id : Uuid}
    (runs : Program.Runs (perform thread) (insertNewApp name source envVars creator hostId).run
      state (.ok app) state') (isId : app.id = id.toString) :
    envVarsOf id state' = some envVars := by
  obtain ⟨_, _, _, runs₁⟩ := Fallible.runs_bind_ok.1 runs
  obtain ⟨_, _, _, runs₂⟩ := Fallible.runs_bind_ok.1 runs₁
  obtain ⟨_, _, _, runs₃⟩ := Fallible.runs_bind_ok.1 runs₂
  obtain ⟨_, _, _, runs₄⟩ := Fallible.runs_bind_ok.1 runs₃
  obtain ⟨_, _, _, runs₅⟩ := Fallible.runs_bind_ok.1 runs₄
  obtain ⟨_, _, _, runs₆⟩ := Fallible.runs_bind_ok.1 runs₅
  obtain ⟨_, _, _, runs₇⟩ := Fallible.runs_bind_ok.1 runs₆
  obtain ⟨_, _, _, runs₈⟩ := Fallible.runs_bind_ok.1 runs₇
  obtain ⟨_, _, inserted, last⟩ := Fallible.runs_bind_ok.1 runs₈
  obtain ⟨same, named⟩ := runs_appFromRowWithPermissions last
  cases Uuid.toString_injective (isId.symm.trans (named app rfl))
  subst same
  rcases runs_hubQuery inserted with ⟨_, eq, _⟩ | ⟨_, _, _, executed, rfl⟩
  · cases eq
  · obtain ⟨_, apps, _⟩ := Database.exec_insertApp executed
    simp only [envVarsOf, apps, if_true, Option.map_some]

/-- A new app starts with the list it was created with. -/
theorem runs_createApp {name : String} {source : AppSource} {inputs : List EnvVarInput}
    {creator : Option String} {hostId : Int} {app : App} {id : Uuid}
    (runs : Program.Runs (perform thread) (createApp name source inputs creator hostId).run
      state (.ok app) state') (isId : app.id = id.toString) :
    validateEnvVarInputs inputs = .ok () ∧ ∃ envVars, envVarsOf id state' = some envVars ∧
      List.Forall₂ (Resolves state.secretsKey []) inputs envVars := by
  obtain ⟨_, _, named, runs₁⟩ := Fallible.runs_bind_ok.1 runs
  obtain ⟨_, _, validated, runs₂⟩ := Fallible.runs_bind_ok.1 runs₁
  obtain ⟨envVars, _, resolved, runs₃⟩ := Fallible.runs_bind_ok.1 runs₂
  obtain ⟨_, _, sourced, locked⟩ := Fallible.runs_bind_ok.1 runs₃
  cases (runs_liftStored.1 named).2
  obtain ⟨valid, rfl⟩ := runs_liftStored.1 validated
  obtain ⟨rfl, each⟩ := runs_resolveEnvVarInputs resolved
  cases (runs_liftStored.1 sourced).2
  obtain ⟨before, unlocked, inserted, _, _, same⟩ := runs_withWriteLock locked
  have stored := runs_insertNewApp inserted isId
  refine ⟨valid.symm, envVars, ?_, each⟩
  simpa only [envVarsOf, same] using stored

theorem runs_validateHostId {hostId : Int} {outcome : AppResult Unit}
    (runs : Program.Runs (perform thread) (validateHostId hostId).run state outcome state') :
    state' = state := by
  rcases Fallible.runs_bind.1 runs with ⟨_, ran, _⟩ | ⟨found, _, ran, last⟩
  · exact runs_read rfl ran
  · cases runs_read rfl ran
    cases found with
    | none => exact last.2
    | some host =>
        dsimp only at last
        split at last <;> exact last.2

theorem runs_requireFreeName {name : String} {outcome : AppResult Unit}
    (runs : Program.Runs (perform thread) (requireFreeName name).run state outcome state') :
    state' = state := by
  rcases Fallible.runs_bind.1 runs with ⟨_, ran, _⟩ | ⟨found, _, ran, last⟩
  · exact runs_read rfl ran
  · cases runs_read rfl ran
    cases found <;> exact last.2

theorem runs_validateRename {row : AppRow} {name : String} {outcome : AppResult Unit}
    (runs : Program.Runs (perform thread) (validateRename row name).run state outcome state') :
    state' = state := by
  simp only [validateRename] at runs
  split at runs
  · exact runs.2
  · rcases Fallible.runs_bind.1 runs with ⟨_, ran, _⟩ | ⟨_, _, ran, last⟩
    · exact (runs_liftStored.1 ran).2
    · cases (runs_liftStored.1 ran).2
      exact runs_requireFreeName last

/-- A check of an optional field that changes nothing. -/
theorem runs_mapGiven {α β : Type} {given : Option α} {body : α → AsyncResult β}
    {outcome : AppResult (Option β)}
    (keeps : ∀ value outcome after, Program.Runs (perform thread) (body value).run state outcome
      after → after = state)
    (runs : Program.Runs (perform thread) (mapGiven given body).run state outcome state') :
    state' = state := by
  cases given with
  | none => exact runs.2
  | some value =>
      rcases Fallible.runs_bind.1 runs with ⟨_, ran, _⟩ | ⟨_, _, ran, last⟩
      · exact keeps value _ _ ran
      · exact last.2.trans (keeps value _ _ ran)

theorem runs_resolveEnvVarInputs_keeps {existing : List EnvVar} {inputs : List EnvVarInput}
    {outcome : AppResult (List EnvVar)}
    (runs : Program.Runs (perform thread) (resolveEnvVarInputs inputs existing).run state outcome
      state') : state' = state := by
  cases outcome with
  | ok envVars => exact (runs_resolveEnvVarInputs runs).1
  | error err =>
      exact (Fallible.runs_collect_error (fun _ _ _ ran => resolveEnvVarInput_keeps ran) runs).1

/-- What the variables of a row become by a successful update. -/
def Updated (secretsKey : SecretsKey) (inputs : Option (List EnvVarInput)) (before after : List EnvVar) :
    Prop :=
  match inputs with
  | none => after = before
  | some inputs => validateEnvVarInputs inputs = .ok () ∧
      List.Forall₂ (Resolves secretsKey before) inputs after

theorem runs_updateApp {appId : String} {name : Option String}
    {inputs : Option (List EnvVarInput)} {hostId : Option Int} {app : App}
    (runs : Program.Runs (perform thread) (updateApp appId name inputs hostId).run
      state (.ok app) state') :
    ∃ row envVars, Uuid.parseStr appId = some row.id ∧ state.db.app? row.id = some row ∧
      Updated state.secretsKey inputs row.envVars envVars ∧
        envVarsOf row.id state' = some envVars := by
  obtain ⟨_, _, validated, runs₁⟩ := Fallible.runs_bind_ok.1 runs
  obtain ⟨row, _, looked, runs₂⟩ := Fallible.runs_bind_ok.1 runs₁
  obtain ⟨stored, _, resolved, runs₃⟩ := Fallible.runs_bind_ok.1 runs₂
  obtain ⟨_, _, hosted, runs₄⟩ := Fallible.runs_bind_ok.1 runs₃
  obtain ⟨_, _, renamed, runs₅⟩ := Fallible.runs_bind_ok.1 runs₄
  obtain ⟨_, _, written, last⟩ := Fallible.runs_bind_ok.1 runs₅
  cases runs_mapGiven (fun _ _ _ ran => (runs_liftStored.1 ran).2) validated
  obtain ⟨rfl, parsed, found⟩ := runs_findAppRowById looked
  cases runs_mapGiven (fun _ _ _ ran => runs_resolveEnvVarInputs_keeps ran) resolved
  cases runs_mapGiven (fun _ _ _ ran => runs_validateHostId ran) hosted
  cases runs_mapGiven (fun _ _ _ ran => runs_validateRename ran) renamed
  cases (runs_appFromRowWithPermissions last).1
  refine ⟨row, stored.getD row.envVars, parsed, found, ?_, ?_⟩
  · cases inputs with
    | none =>
        cases resolved.1
        rfl
    | some inputs =>
        obtain ⟨_, _, valid, _⟩ := Fallible.runs_bind_ok.1 validated
        obtain ⟨envVars, _, ran, eq⟩ := Fallible.runs_bind_ok.1 resolved
        cases eq.1
        obtain ⟨_, each⟩ := runs_resolveEnvVarInputs ran
        exact ⟨(runs_liftStored.1 valid).1.symm, each⟩
  · rcases runs_hubQuery written with ⟨_, eq, _⟩ | ⟨_, _, _, executed, rfl⟩
    · cases eq
    · obtain ⟨apps, _⟩ := Database.exec_updateApp executed
      simp only [envVarsOf, apps, if_true, found, Option.map_some, AppRow.change]

end Runs

end Berth
