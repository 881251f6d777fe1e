import Berth.Agreement
import Berth.EnvVars

/-!
Environment variables mean what was last set: the histories of one app, and when an update of its
variables is rejected.
-/

namespace Berth

open Interleave

variable {id : Uuid} {log : List (List EnvVarInput)} {state state' : State} {thread : Nat}

/-- The lists submitted by the successful calls for an app, each call run from start to end, with
any other steps of the hub in between. -/
inductive EnvHistory (id : Uuid) : List (List EnvVarInput) → State → Prop
  | create {thread : Nat} {name : String} {source : AppSource} {inputs : List EnvVarInput}
      {creator : Option String} {hostId : Int} {app : App} {state state' : State}
      (ran : Program.Runs (perform thread) (createApp name source inputs creator hostId).run state
        (.ok app) state') (isApp : app.id = id.toString) : EnvHistory id [inputs] state'
  | update {thread : Nat} {appId : String} {name : Option String}
      {inputs : Option (List EnvVarInput)} {hostId : Option Int} {app : App}
      {log : List (List EnvVarInput)} {state state' : State} (before : EnvHistory id log state)
      (isApp : Uuid.parseStr appId = some id)
      (ran : Program.Runs (perform thread) (updateApp appId name inputs hostId).run state
        (.ok app) state') : EnvHistory id (log ++ inputs.toList) state'
  | other {thread : Nat} {action : Act} {choice : Choice} {result : action.Res}
      {log : List (List EnvVarInput)} {state state' : State} (before : EnvHistory id log state)
      (performed : perform thread action choice state = some (result, state'))
      (apart : action.writesEnvVarsOf id = false) : EnvHistory id log state'
  | restart {log : List (List EnvVarInput)} {state : State} (before : EnvHistory id log state) :
      EnvHistory id log (restart state)

/-! Keys. -/

/-- `[A-Za-z_][A-Za-z0-9_]*` -/
def IsEnvVarKey (key : String) : Prop :=
  ∃ first rest, key.toList = first :: rest ∧ (isAsciiAlphabetic first ∨ first = '_') ∧
    ∀ c ∈ rest, isAsciiAlphabetic c ∨ isAsciiDigit c ∨ c = '_'

theorem validEnvVarKey_iff {key : String} : validEnvVarKey key = true ↔ IsEnvVarKey key := by
  simp only [validEnvVarKey, IsEnvVarKey]
  cases key.toList with
  | nil => simp
  | cons first rest =>
      simp only [List.head?_cons, Option.any_some, List.all_cons, Bool.and_eq_true, Bool.or_eq_true,
        beq_iff_eq, List.all_eq_true, List.cons.injEq]
      constructor
      · rintro ⟨start, _, others⟩
        exact ⟨first, rest, ⟨rfl, rfl⟩, start, fun c member => or_assoc.1 (others c member)⟩
      · rintro ⟨_, _, ⟨rfl, rfl⟩, start, others⟩
        refine ⟨start, ?_, fun c member => or_assoc.2 (others c member)⟩
        exact start.imp_left .inl

theorem validateEnvVarKeys_ok {seen : List String} {inputs : List EnvVarInput} :
    validateEnvVarKeys seen inputs = .ok () ↔
      (∀ input ∈ inputs, IsEnvVarKey input.key ∧ input.key ∉ seen) ∧
        (inputs.map EnvVarInput.key).Nodup := by
  induction inputs generalizing seen with
  | nil => simp [validateEnvVarKeys]
  | cons input rest ih =>
      simp only [validateEnvVarKeys]
      by_cases valid : validEnvVarKey input.key = true
      · have isKey := validEnvVarKey_iff.1 valid
        by_cases repeated : input.key ∈ seen
        · simp [valid, repeated]
        · simp only [valid, Bool.not_true, Bool.false_eq_true, if_false, repeated, ih]
          constructor
          · rintro ⟨each, nodup⟩
            refine ⟨?_, List.nodup_cons.2 ⟨?_, nodup⟩⟩
            · intro other member
              rcases List.mem_cons.1 member with rfl | later
              · exact ⟨isKey, repeated⟩
              · exact ⟨(each other later).1, fun old =>
                  (each other later).2 (List.mem_cons_of_mem _ old)⟩
            · intro member
              obtain ⟨other, later, same⟩ := List.mem_map.1 member
              exact (each other later).2 (same ▸ List.mem_cons_self)
          · rintro ⟨each, nodup⟩
            obtain ⟨fresh, others⟩ := List.nodup_cons.1 nodup
            refine ⟨fun other later => ?_, others⟩
            obtain ⟨otherKey, unseen⟩ := each other (List.mem_cons_of_mem _ later)
            refine ⟨otherKey, fun member => ?_⟩
            rcases List.mem_cons.1 member with same | old
            · exact fresh (List.mem_map.2 ⟨other, later, same⟩)
            · exact unseen old
      · have notKey : ¬ IsEnvVarKey input.key := fun isKey => valid (validEnvVarKey_iff.2 isKey)
        simp [valid, notKey]

theorem validateEnvVarInputs_ok {inputs : List EnvVarInput} :
    validateEnvVarInputs inputs = .ok () ↔
      (∀ input ∈ inputs, IsEnvVarKey input.key) ∧ (inputs.map EnvVarInput.key).Nodup := by
  simp [validateEnvVarInputs, validateEnvVarKeys_ok]

/-! The stored list of a history. -/

/-- The stored list stands for these settings, whose keys are identifiers and all different. -/
structure StandsFor (secretsKey : SecretsKey) (envVars : List EnvVar) (settings : List Setting) :
    Prop where
  stores : List.Forall₂ (Stores secretsKey) envVars settings
  isKey : ∀ setting ∈ settings, IsEnvVarKey setting.key
  nodup : (settings.map Setting.key).Nodup

theorem standsFor_submit {secretsKey : SecretsKey} {existing envVars : List EnvVar}
    {before : List Setting} {inputs : List EnvVarInput}
    (stored : List.Forall₂ (Stores secretsKey) existing before)
    (valid : validateEnvVarInputs inputs = .ok ())
    (resolved : List.Forall₂ (Resolves secretsKey existing) inputs envVars) :
    ∃ settings, submit before inputs = some settings ∧ StandsFor secretsKey envVars settings := by
  obtain ⟨settings, submitted, stores⟩ := submit_of_resolves resolved stored
  obtain ⟨areKeys, nodup⟩ := validateEnvVarInputs_ok.1 valid
  have keys := submit_keys submitted
  refine ⟨settings, submitted, stores, ?_, keys ▸ nodup⟩
  intro setting member
  have keyMember : setting.key ∈ inputs.map EnvVarInput.key :=
    keys ▸ List.mem_map_of_mem member
  obtain ⟨input, inputMember, same⟩ := List.mem_map.1 keyMember
  exact same ▸ areKeys input inputMember

theorem EnvHistory.standsFor (history : EnvHistory id log state) :
    ∃ envVars settings, envVarsOf id state = some envVars ∧ lastSet log = some settings ∧
      StandsFor state.secretsKey envVars settings := by
  induction history with
  | create ran isApp =>
      obtain ⟨valid, envVars, stored, resolved⟩ := runs_createApp ran isApp
      rw [← runs_secretsKey ran] at resolved
      obtain ⟨settings, submitted, stands⟩ := standsFor_submit .nil valid resolved
      exact ⟨envVars, settings, stored, by simpa [lastSet] using submitted, stands⟩
  | @update thread appId name inputs hostId app log state state' before isApp ran ih =>
      obtain ⟨row, after, parsed, found, updated, stored⟩ := runs_updateApp ran
      obtain ⟨existing, settings, existingStored, isLast, stands⟩ := ih
      cases isApp.symm.trans parsed
      simp only [envVarsOf, found, Option.map_some, Option.some.injEq] at existingStored
      subst existingStored
      rw [← runs_secretsKey ran] at updated stands
      cases inputs with
      | none =>
          cases updated
          exact ⟨row.envVars, settings, stored, by simpa using isLast, stands⟩
      | some inputs =>
          obtain ⟨valid, resolved⟩ := updated
          obtain ⟨settings', submitted, stands'⟩ := standsFor_submit stands.stores valid resolved
          refine ⟨after, settings', stored, ?_, stands'⟩
          rw [Option.toList_some, lastSet_snoc, isLast, Option.bind_some, submitted]
  | other before performed apart ih =>
      obtain ⟨envVars, settings, stored, isLast, stands⟩ := ih
      refine ⟨envVars, settings, (perform_envVarsOf performed apart).trans stored, isLast, ?_⟩
      rw [perform_secretsKey performed]
      exact stands
  | restart before ih => exact ih

/-! What a container gets. -/

theorem runs_decryptEnvVar {envVar : EnvVar} {setting : Setting} {outcome : AppResult EnvVar}
    (inverts : state.secretsKey.Inverts) (stores : Stores state.secretsKey envVar setting) :
    Program.Runs (perform thread) (decryptEnvVar envVar).run state outcome state' ↔
      outcome = .ok setting.decrypted ∧ state' = state := by
  obtain ⟨sameKey, stored⟩ := stores
  simp only [decryptEnvVar]
  split
  · rename_i value isPlain
    rw [isPlain] at stored
    rw [Setting.decrypted, ← sameKey, ← stored.2]
    exact Fallible.runs_pure
  · rename_i ciphertext isSecret
    rw [isSecret] at stored
    obtain ⟨_, nonce, encrypted⟩ := stored
    have decrypted := inverts nonce setting.value ciphertext encrypted
    rw [Fallible.runs_bind]
    simp only [runs_decrypt, decrypted, reduceCtorEq, false_and, exists_false, false_or]
    constructor
    · rintro ⟨value, _, ⟨eq, rfl⟩, rfl, rfl⟩
      cases eq
      exact ⟨by rw [Setting.decrypted, sameKey], rfl⟩
    · rintro ⟨rfl, rfl⟩
      exact ⟨setting.value, state', ⟨rfl, rfl⟩, by rw [Setting.decrypted, sameKey], rfl⟩

theorem runs_decryptEnvVars {envVars : List EnvVar} {settings : List Setting}
    {outcome : AppResult (List EnvVar)} (inverts : state.secretsKey.Inverts)
    (stored : List.Forall₂ (Stores state.secretsKey) envVars settings) :
    Program.Runs (perform thread) (decryptEnvVars envVars).run state outcome state' ↔
      outcome = .ok (settings.map Setting.decrypted) ∧ state' = state := by
  induction stored generalizing outcome state' with
  | nil => exact Fallible.runs_pure
  | cons stores _ ih =>
      constructor
      · intro runs
        rcases Fallible.runs_bind.1 runs with ⟨err, ran, _⟩ | ⟨first, _, ran, rest⟩
        · cases ((runs_decryptEnvVar inverts stores).1 ran).1
        obtain ⟨eq, rfl⟩ := (runs_decryptEnvVar inverts stores).1 ran
        cases eq
        rcases Fallible.runs_bind.1 rest with ⟨err, ran', _⟩ | ⟨others, _, ran', last⟩
        · cases (ih.1 ran').1
        obtain ⟨eq, rfl⟩ := ih.1 ran'
        cases eq
        exact last
      · rintro ⟨rfl, rfl⟩
        refine Fallible.runs_bind.2 (.inr ⟨_, state', (runs_decryptEnvVar inverts stores).2 ⟨rfl, rfl⟩, ?_⟩)
        exact Fallible.runs_bind.2 (.inr ⟨_, state', ih.2 ⟨rfl, rfl⟩, rfl, rfl⟩)

/-! When an update of the variables is rejected. -/

/-- A key is malformed or repeated, a secret is empty, or there is no secret to keep. -/
def RefusedInputs (settings : List Setting) (inputs : List EnvVarInput) : Prop :=
  (∃ input ∈ inputs, ¬ IsEnvVarKey input.key) ∨ ¬ (inputs.map EnvVarInput.key).Nodup ∨
    (∃ input ∈ inputs, input.value = .secret (some "")) ∨
      ∃ input ∈ inputs, input.value = .secret none ∧
        ∀ setting ∈ settings, setting.key = input.key → setting.secret = false

theorem exists_of_forall₂ {α β : Type} {r : α → β → Prop} {left : List α} {right : List β}
    (related : List.Forall₂ r left right) {a : α} (member : a ∈ left) : ∃ b, r a b := by
  induction related with
  | nil => cases member
  | @cons first b _ _ isRelated _ ih =>
      rcases List.mem_cons.1 member with rfl | later
      · exact ⟨b, isRelated⟩
      · exact ih later

theorem not_refused_of_resolves {secretsKey : SecretsKey} {existing envVars : List EnvVar}
    {settings : List Setting} {inputs : List EnvVarInput}
    (stands : StandsFor secretsKey existing settings)
    (valid : validateEnvVarInputs inputs = .ok ())
    (resolved : List.Forall₂ (Resolves secretsKey existing) inputs envVars) :
    ¬ RefusedInputs settings inputs := by
  obtain ⟨areKeys, nodup⟩ := validateEnvVarInputs_ok.1 valid
  rintro (⟨input, member, notKey⟩ | repeated | ⟨input, member, isEmpty⟩ |
    ⟨input, member, isKept, absent⟩)
  · exact notKey (areKeys input member)
  · exact repeated nodup
  · obtain ⟨envVar, _, resolves⟩ := exists_of_forall₂ resolved member
    rw [isEmpty] at resolves
    exact resolves.1 rfl
  · obtain ⟨envVar, _, resolves⟩ := exists_of_forall₂ resolved member
    rw [isKept] at resolves
    obtain ⟨kept, found, _⟩ := resolves
    rcases find_stored stands.stores input.key with ⟨none, _⟩ | ⟨_, setting, _, hit, _⟩
    · exact nomatch none.symm.trans found
    · have isHit := List.find?_some hit
      simp only [decide_eq_true_eq] at isHit
      have plain := absent setting (List.mem_of_find?_eq_some hit) isHit.1
      exact Bool.noConfusion (plain.symm.trans isHit.2)

/-- An update that gets as far as writing was not to be refused. -/
theorem rejected_of_refused {appId : String} {inputs : List EnvVarInput} {outcome : AppResult App}
    {envVars : List EnvVar} {settings : List Setting} (isApp : Uuid.parseStr appId = some id)
    (stored : envVarsOf id state = some envVars)
    (stands : StandsFor state.secretsKey envVars settings)
    (runs : Program.Runs (perform thread) (updateApp appId none (some inputs) none).run state
      outcome state') (refused : RefusedInputs settings inputs) :
    (∃ err, outcome = .error err) ∧ state' = state := by
  rcases Fallible.runs_bind.1 runs with ⟨err, validated, rfl⟩ | ⟨_, _, validated, runs₁⟩
  · exact ⟨⟨err, rfl⟩, runs_mapGiven (fun _ _ _ ran => (runs_liftStored.1 ran).2) validated⟩
  cases runs_mapGiven (fun _ _ _ ran => (runs_liftStored.1 ran).2) validated
  rcases Fallible.runs_bind.1 runs₁ with ⟨err, looked, rfl⟩ | ⟨row, _, looked, runs₂⟩
  · refine ⟨⟨err, rfl⟩, ?_⟩
    simp only [findAppRowById, isApp] at looked
    rcases Fallible.runs_bind.1 looked with ⟨_, ran, _⟩ | ⟨found, _, ran, last⟩
    · exact runs_read rfl ran
    · cases runs_read rfl ran
      cases found <;> exact last.2
  obtain ⟨rfl, parsed, found⟩ := runs_findAppRowById looked
  cases isApp.symm.trans parsed
  simp only [envVarsOf, found, Option.map_some, Option.some.injEq] at stored
  subst stored
  rcases Fallible.runs_bind.1 runs₂ with ⟨err, resolved, rfl⟩ | ⟨_, _, resolved, _⟩
  · exact ⟨⟨err, rfl⟩, runs_mapGiven (fun _ _ _ ran => runs_resolveEnvVarInputs_keeps ran) resolved⟩
  obtain ⟨_, _, valid, _⟩ := Fallible.runs_bind_ok.1 validated
  obtain ⟨envVars, _, ran, _⟩ := Fallible.runs_bind_ok.1 resolved
  obtain ⟨_, each⟩ := runs_resolveEnvVarInputs ran
  exact absurd refused (not_refused_of_resolves stands (runs_liftStored.1 valid).1.symm each)

/-- The actions as long as the database answers. -/
def answered (thread : Nat) (action : Act) (choice : Choice) (state : State) :
    Option (action.Res × State) :=
  perform thread action { choice with failure := none } state

theorem runs_of_answered {α : Type} {program : Async α} {value : α}
    (runs : Program.Runs (answered thread) program state value state') :
    Program.Runs (perform thread) program state value state' :=
  runs.mono fun _ choice _ _ _ performed => ⟨{ choice with failure := none }, performed⟩

theorem runs_answered_query {q : Query} {outcome : AppResult q.Result} {result : q.Result}
    {db : Database} (executed : state.db.exec q = some (result, db))
    (runs : Program.Runs (answered thread) (query q).run state outcome state') :
    outcome = .ok result ∧ state' = { state with db } := by
  obtain ⟨choice, performed⟩ := Program.runs_perform.1 runs
  have ran : state.runQuery q { choice with failure := none } = (outcome, state') :=
    Option.some.inj performed
  simp only [State.runQuery, executed] at ran
  cases ran
  exact ⟨rfl, rfl⟩

theorem runs_answered_permissions {row : AppRow} {outcome : AppResult App}
    (runs : Program.Runs (answered thread) (appFromRowWithPermissions row).run state outcome
      state') : ∃ app, outcome = .ok app := by
  rcases Fallible.runs_bind.1 runs with ⟨err, loading, rfl⟩ | ⟨permissions, _, _, last⟩
  · rcases Fallible.runs_bind.1 loading with ⟨_, ran, eq⟩ | ⟨_, _, ran, rest⟩
    · exact nomatch (runs_answered_query rfl ran).1
    · rcases Fallible.runs_bind.1 rest with ⟨_, ran', eq⟩ | ⟨_, _, _, last⟩
      · exact nomatch (runs_answered_query rfl ran').1
      · exact nomatch last.1
  · exact ⟨_, last.1⟩

/-- What else can fail while the database answers is the encryption. -/
theorem accepted_of_not_refused {appId : String} {inputs : List EnvVarInput} {err : AppError}
    {envVars : List EnvVar} {settings : List Setting} (isApp : Uuid.parseStr appId = some id)
    (stored : envVarsOf id state = some envVars)
    (stands : StandsFor state.secretsKey envVars settings)
    (runs : Program.Runs (answered thread) (updateApp appId none (some inputs) none).run state
      (.error err) state') :
    RefusedInputs settings inputs ∨ ∃ nonce value, state.secretsKey.encrypt nonce value = .error err := by
  rcases Fallible.runs_bind.1 runs with ⟨_, validated, eq⟩ | ⟨_, _, validated, runs₁⟩
  · left
    by_contra notRefused
    simp only [RefusedInputs, not_or, not_exists, not_and, not_not] at notRefused
    have valid : validateEnvVarInputs inputs = .ok () :=
      validateEnvVarInputs_ok.2 ⟨notRefused.1, notRefused.2.1⟩
    rcases Fallible.runs_bind.1 validated with ⟨_, ran, _⟩ | ⟨_, _, _, last⟩
    · cases (runs_liftStored.1 (runs_of_answered ran)).1.trans valid
    · cases last.1
  cases runs_mapGiven (fun _ _ _ ran => (runs_liftStored.1 ran).2) (runs_of_answered validated)
  obtain ⟨row, found, rfl⟩ := Option.map_eq_some_iff.1 stored
  have looks : ∀ outcome after, Program.Runs (answered thread) (findAppRowById appId).run state
      outcome after → outcome = .ok row ∧ after = state := by
    intro outcome after looked
    simp only [findAppRowById, isApp] at looked
    rcases Fallible.runs_bind.1 looked with ⟨_, ran, eq⟩ | ⟨row', _, ran, last⟩
    · cases (runs_answered_query rfl ran).1
    · obtain ⟨eq, rfl⟩ := runs_answered_query rfl ran
      cases eq
      rw [found] at last
      exact last
  rcases Fallible.runs_bind.1 runs₁ with ⟨_, looked, eq⟩ | ⟨row', _, looked, runs₂⟩
  · cases (looks _ _ looked).1
  obtain ⟨eq, rfl⟩ := looks _ _ looked
  cases eq
  rcases Fallible.runs_bind.1 runs₂ with ⟨_, resolved, eq⟩ | ⟨_, _, resolved, runs₃⟩
  · cases eq
    rcases Fallible.runs_bind.1 resolved with ⟨_, ran, eq⟩ | ⟨_, _, _, last⟩
    · cases eq
      obtain ⟨_, input, member, failed⟩ := Fallible.runs_collect_error
        (fun _ _ _ ran => resolveEnvVarInput_keeps ran) (runs_of_answered ran)
      rcases runs_resolveEnvVarInput_error failed with ⟨_, isEmpty | ⟨isKept, absent⟩⟩ | failed
      · exact .inl (.inr (.inr (.inl ⟨input, member, isEmpty⟩)))
      · refine .inl (.inr (.inr (.inr ⟨input, member, isKept, fun setting isSetting same => ?_⟩)))
        rcases find_stored stands.stores input.key with ⟨_, none⟩ | ⟨_, _, found', _, _⟩
        · simpa [same] using List.find?_eq_none.1 none setting isSetting
        · cases absent.symm.trans found'
      · exact .inr failed
    · cases last.1
  cases runs_mapGiven (fun _ _ _ ran => runs_resolveEnvVarInputs_keeps ran)
    (runs_of_answered resolved)
  rcases Fallible.runs_bind.1 runs₃ with ⟨_, ran, _⟩ | ⟨_, _, ran, runs₄⟩
  · cases ran.1
  cases ran.2
  rcases Fallible.runs_bind.1 runs₄ with ⟨_, ran, _⟩ | ⟨_, _, ran, runs₅⟩
  · cases ran.1
  cases ran.2
  rcases Fallible.runs_bind.1 runs₅ with ⟨_, written, eq⟩ | ⟨_, _, written, last⟩
  · cases (runs_answered_query rfl written).1
  · obtain ⟨app, eq⟩ := runs_answered_permissions last
    cases eq

theorem keys_of_stores {secretsKey : SecretsKey} {envVars : List EnvVar} {settings : List Setting}
    (stored : List.Forall₂ (Stores secretsKey) envVars settings) :
    envVars.map EnvVar.key = settings.map Setting.key := by
  induction stored with
  | nil => rfl
  | cons stores _ ih => rw [List.map_cons, List.map_cons, stores.1, ih]

/-- What the stored variables of an app are after a history. -/
structure EnvVarLaw (id : Uuid) (log : List (List EnvVarInput)) (state : State)
    (envVars : List EnvVar) (settings : List Setting) : Prop where
  stored : envVarsOf id state = some envVars
  lastSet : lastSet log = some settings
  decrypted : ∀ thread outcome after,
    Program.Runs (perform thread) (decryptEnvVars envVars).run state outcome after ↔
      outcome = .ok (settings.map Setting.decrypted) ∧ after = state
  unique : (envVars.map EnvVar.key).Nodup
  keys : ∀ envVar ∈ envVars, IsEnvVarKey envVar.key
  secrets : List.Forall₂ (Stores state.secretsKey) envVars settings
  rejected : ∀ thread appId inputs outcome after, Uuid.parseStr appId = some id →
    Program.Runs (perform thread) (updateApp appId none (some inputs) none).run state outcome
      after → RefusedInputs settings inputs → (∃ err, outcome = .error err) ∧ after = state
  accepted : ∀ thread appId inputs err after, Uuid.parseStr appId = some id →
    Program.Runs (answered thread) (updateApp appId none (some inputs) none).run state (.error err)
      after → RefusedInputs settings inputs ∨
        ∃ nonce value, state.secretsKey.encrypt nonce value = .error err

theorem env_vars_mean_what_was_last_set (inverts : state.secretsKey.Inverts)
    (history : EnvHistory id log state) :
    ∃ envVars settings, EnvVarLaw id log state envVars settings := by
  obtain ⟨envVars, settings, stored, isLast, stands⟩ := history.standsFor
  have sameKeys := keys_of_stores stands.stores
  refine ⟨envVars, settings, stored, isLast, ?_, sameKeys ▸ stands.nodup, ?_, stands.stores, ?_, ?_⟩
  · exact fun thread outcome after => runs_decryptEnvVars inverts stands.stores
  · intro envVar member
    have keyMember : envVar.key ∈ settings.map Setting.key := sameKeys ▸ List.mem_map_of_mem member
    obtain ⟨setting, isSetting, same⟩ := List.mem_map.1 keyMember
    exact same ▸ stands.isKey setting isSetting
  · exact fun thread appId inputs outcome after isApp runs refused =>
      rejected_of_refused isApp stored stands runs refused
  · exact fun thread appId inputs err after isApp runs =>
      accepted_of_not_refused isApp stored stands runs

/-! A history that is played. -/

/-- A key whose ciphertexts show their nonces. -/
def sealingKey : SecretsKey where
  encrypt nonce plaintext :=
    .ok (String.ofList (List.replicate (nonce + 1) '#' ++ '.' :: plaintext.toList))
  decrypt ciphertext := .ok (String.ofList ((ciphertext.toList.dropWhile (· = '#')).drop 1))

theorem sealingKey_inverts : sealingKey.Inverts := by
  intro nonce plaintext ciphertext encrypted
  cases encrypted
  have dropped : (List.replicate (nonce + 1) '#' ++ '.' :: plaintext.toList).dropWhile
      (fun c => decide (c = '#')) = '.' :: plaintext.toList := by
    rw [List.dropWhile_append_of_pos (by simp)]
    rfl
  simp only [sealingKey, String.toList_ofList, dropped, List.drop_succ_cons, List.drop_zero,
    String.ofList_toList]

def emptyHub : State :=
  (State.fresh sealingKey [] [⟨1, false⟩]).withFiles (FileTree.empty.add [appsDir, tmpDir])

def createsA : AsyncResult App :=
  createApp "app" .upload [⟨"A", .secret (some "first")⟩, ⟨"B", .plain "second"⟩] none 1

/-- `A` is kept, and `B` becomes a secret. -/
def keepsA : AsyncResult App :=
  updateApp (Uuid.repeated 1).toString none
    (some [⟨"B", .secret (some "third")⟩, ⟨"A", .secret none⟩]) none

theorem env_vars_of_two_calls : ∃ state envVars settings,
    settings = [⟨"B", "third", true⟩, ⟨"A", "first", true⟩] ∧
      EnvVarLaw (Uuid.repeated 1)
        [[⟨"A", .secret (some "first")⟩, ⟨"B", .plain "second"⟩],
          [⟨"B", .secret (some "third")⟩, ⟨"A", .secret none⟩]] state envVars settings := by
  have played : (createsA.run.eval (perform 0)
      (List.replicate 13 { id := Uuid.repeated 1 }) emptyHub).any (fun created =>
        created.1.toOption.any (fun app => app.id = (Uuid.repeated 1).toString) &&
          (keepsA.run.eval (perform 0) (List.replicate 5 { number := 7 }) created.2).any
            fun kept => kept.1.toOption.isSome) = true := by decide +kernel
  obtain ⟨⟨created, before⟩, ran, played⟩ := (Option.any_eq_true _ _).1 played
  obtain ⟨named, played⟩ := Bool.and_eq_true_iff.1 played
  obtain ⟨⟨kept, state⟩, ran', isOk⟩ := (Option.any_eq_true _ _).1 played
  cases created with
  | error err => cases named
  | ok app =>
      cases kept with
      | error err => cases isOk
      | ok app' =>
          have first := Program.runs_of_eval ran
          have second := Program.runs_of_eval ran'
          have inverts : state.secretsKey.Inverts := by
            rw [runs_secretsKey second, runs_secretsKey first]
            exact sealingKey_inverts
          have isApp : app.id = (Uuid.repeated 1).toString := of_decide_eq_true named
          obtain ⟨envVars, settings, law⟩ := env_vars_mean_what_was_last_set inverts
            (.update (.create first isApp) (Uuid.parseStr_toString _) second)
          exact ⟨state, envVars, settings, Option.some.inj (law.lastSet.symm.trans rfl), law⟩

end Berth
