import Berth.LedgerCalls

/-!
The startup of the hub. Nothing else runs before the hub serves, so the sweeps can be followed like
a sequential program; when the hub starts serving, directories and rows agree exactly.
-/

namespace Berth

open Interleave Interleave.Discipline Interleave.Fallible

variable {limit thread : Nat} {call : Call} {w : HubWorld} {α : Type}

theorem stable_down {s : State} (down : s.serving = false) :
    Stable (hub limit) ledger thread .startup fun w => w.shared = s := by
  rintro w w' event interferes rfl
  have alone := interferes.before.inv.crew.alone down
  have member := interferes.before.member
  have foreign : ∀ {other call}, (other, call) ∈ w.live → event.thread ≠ some other := by
    intro other call inLive same
    have eq : other = thread := (alone _ member).2 _ inLive
    exact interferes.other (eq ▸ same)
  cases interferes.moves with
  | @start call admitted =>
      change admits w.shared w.live call = true at admitted
      have idle : w.live ≠ [] := List.ne_nil_of_mem member
      cases call <;> simp [admits, down, idle] at admitted
  | act inLive performed => exact absurd rfl (foreign inLive)
  | fork inLive => exact absurd rfl (foreign inLive)
  | finish inLive => exact absurd rfl (foreign inLive)
  | drop inLive => exact absurd rfl (foreign inLive)
  | restart =>
      have after := interferes.after.member
      simp at after

/-- One step of the startup: it finds the state as its last step left it. -/
theorem safe_alone {action : Act} {post : action.Res → HubWorld → Prop}
    (down : w.shared.serving = false)
    (permit : ∀ (w₀ : HubWorld) choice result, w₀.shared = w.shared →
      ledger.Ready thread .startup w₀ → Permitted w₀ (.act thread .startup action choice result))
    (after : ∀ choice result (w' : HubWorld),
      perform thread action choice w.shared = some (result, w'.shared) → post result w') :
    Safe (hub limit) ledger thread .startup (act action) post w := by
  refine Safe.perform (stable_down down) rfl fun w₀ choice result w' same ready moves _ =>
    ⟨permit w₀ choice result same ready, fun readyAfter => ?_⟩
  have performed := act_performed moves
  rw [same] at performed
  exact after choice result w' performed

/-- While the hub is down, all that is held are rows. -/
theorem held_down {path : Path} (ready : ledger.Ready thread .startup w)
    (down : w.shared.serving = false) (held : Held w thread path) :
    (∃ id row, app? w id = some row ∧ path = appDir id.toString) ∨
      ∃ id row rest, deployment? w id = some row ∧
        path = deploymentDir row.appId.toString id.toString ++ rest := by
  have nobody : ∀ other, other ≠ thread → ¬ Alive w other := by
    rintro other different ⟨call, inLive⟩
    exact different ((ready.inv.crew.alone down _ ready.member).2 _ inLive)
  cases held with
  | app found => exact .inl ⟨_, _, found, rfl⟩
  | deployment found rest => exact .inr ⟨_, _, rest, found, rfl⟩
  | placingApp different alive _ _ => exact absurd alive (nobody _ different)
  | placingDeployment different alive _ _ _ _ => exact absurd alive (nobody _ different)
  | staging different alive _ _ _ _ _ => exact absurd alive (nobody _ different)

/-! What the sweeping actions do when they succeed. -/

section Effects

variable {choice : Choice} {state state' : State} {path : Path}

theorem createDirAll_ok
    (performed : perform thread (.createDirAll path) choice state = some (.ok (), state')) :
    (path ≠ [] → state'.files.Has path) ∧
      ∀ other, state'.files.Has other → other <+: path ∨ state.files.Has other := by
  have ran := Option.some.inj performed
  unfold State.createDirAll at ran
  split at ran <;> cases ran
  refine ⟨fun some => ?_, fun other has => ?_⟩
  · by_cases old : state.files.Has path
    · simp [State.withFiles, old]
    · simp only [State.withFiles, FileTree.has_add]
      exact .inl ⟨path, by simp [some, old], List.prefix_rfl⟩
  · simp only [State.withFiles, FileTree.has_add, List.mem_filter, List.mem_inits] at has
    rcases has with ⟨whole, ⟨listed, _⟩, lies⟩ | old
    · exact .inl (lies.trans listed)
    · exact .inr old

theorem removeDirAll_ok
    (performed : perform thread (.removeDirAll path) choice state = some (.ok (), state')) :
    state'.files = state.files.removeBelow path [] := by
  have ran := Option.some.inj performed
  unfold State.removeDirAll at ran
  repeat' split at ran
  all_goals cases ran
  rfl

theorem readDir_ok {entries : List Component}
    (performed : perform thread (.readDir path) choice state = some (.ok entries, state')) :
    state' = state ∧ ∀ name, state.files.Has (path ++ [name]) → name ∈ entries := by
  obtain ⟨answer, same⟩ := Prod.mk.inj (Option.some.inj performed)
  refine ⟨same.symm, fun name has => ?_⟩
  unfold State.readDir at answer
  split at answer
  · cases answer
  · split at answer
    · cases answer
    · cases answer
      exact FileTree.mem_children.2 has

theorem readDir_missing {err : IoError}
    (performed : perform thread (.readDir path) choice state = some (.error (.io err), state'))
    (missing : err.kind = .notFound) : state' = state ∧ ¬ state.files.Has path := by
  obtain ⟨answer, same⟩ := Prod.mk.inj (Option.some.inj performed)
  refine ⟨same.symm, ?_⟩
  unfold State.readDir at answer
  split at answer
  · assumption
  · split at answer
    · cases answer
      cases missing
    · cases answer

end Effects

/-! The sweeps. -/

/-- Nothing is staged. -/
def TmpSwept (w : HubWorld) : Prop :=
  Has w tmpDir ∧ ∀ path, tmpDir <+: path → Has w path → path = tmpDir

theorem safe_sweepTmpDir (down : w.shared.serving = false) :
    Safe (hub limit) ledger thread .startup sweepTmpDir.run
      (Outcome (fun _ w' => w'.shared.serving = false ∧ TmpSwept w') fun _ _ => True) w := by
  have creates : ∀ {w₁ : HubWorld}, w₁.shared.serving = false →
      (∀ path, tmpDir <+: path → ¬ Has w₁ path) →
      Safe (hub limit) ledger thread .startup (createDirAll tmpDir).run
        (Outcome (fun _ w' => w'.shared.serving = false ∧ TmpSwept w') fun _ _ => True) w₁ := by
    intro w₁ down empty
    refine safe_alone down (fun _ _ _ _ _ => permitted_harmless trivial) ?_
    rintro choice (err | _) w₂ performed
    · trivial
    obtain ⟨has, only⟩ := createDirAll_ok performed
    refine ⟨(perform_sameCore id performed).serving.trans down, has nofun, fun path below there => ?_⟩
    rcases only path there with above | old
    · exact above.eq_of_length_le below.length_le
    · exact absurd old (empty path below)
  refine Safe.bindE (Safe.lift (safe_alone down (fun _ _ _ _ _ => permitted_harmless trivial) ?_))
  intro choice exists_ w₁ performed
  obtain ⟨answer, same⟩ := Prod.mk.inj (Option.some.inj performed)
  have down₁ : w₁.shared.serving = false := same ▸ down
  subst answer
  by_cases there : w.shared.files.Has tmpDir
  · simp only [there, decide_true]
    refine Safe.bindE (safe_alone down₁ (fun w₀ _ _ sameState ready => ?_) ?_)
    · refine permitted_files trivial fun root path clears lies held => ?_
      cases clears
      rcases held_down ready (sameState ▸ down₁) held with ⟨_, _, _, rfl⟩ | ⟨_, _, _, _, rfl⟩ <;>
        simp [tmpDir, appDir, appsDir, deploymentDir, deploymentsDir] at lies
    · rintro choice (err | _) w₂ performed
      · trivial
      refine creates ((perform_sameCore id performed).serving.trans down₁) fun path below has => ?_
      rw [Has, removeDirAll_ok performed] at has
      simp [below] at has
  · simp only [there, decide_false]
    refine creates down₁ fun path below has => there ?_
    rw [Has, ← same] at has
    exact has.front below

/-- Sweeping the directories only takes entries away, and only below `apps`. -/
structure Sweeps (w w' : HubWorld) : Prop where
  serving : w'.shared.serving = w.shared.serving
  db : w'.shared.db = w.shared.db
  fewer : ∀ path, Has w' path → Has w path
  others : ∀ path, Has w path → ¬ appsDir <+: path → Has w' path

theorem Sweeps.refl : Sweeps w w := ⟨rfl, rfl, fun _ => id, fun _ has _ => has⟩

theorem Sweeps.trans {w₁ w₂ w₃ : HubWorld} (first : Sweeps w₁ w₂) (second : Sweeps w₂ w₃) :
    Sweeps w₁ w₃ where
  serving := second.serving.trans first.serving
  db := second.db.trans first.db
  fewer path has := first.fewer path (second.fewer path has)
  others path has outside := second.others path (first.others path has outside) outside

theorem Sweeps.of_shared {w' : HubWorld} (same : w'.shared = w.shared) : Sweeps w w' := by
  refine ⟨by rw [same], by rw [same], fun path has => ?_, fun path has _ => ?_⟩
  · rwa [Has, same] at has
  · rwa [Has, same]

/-- Every UUID-named entry of the directory is still to be looked at, or one to keep. -/
def Cleared (w : HubWorld) (directory : Path) (rest : List Component)
    (kept : String → Uuid → Prop) : Prop :=
  ∀ name id, Uuid.parseStr name = some id → Has w (directory ++ [.text name]) →
    .text name ∈ rest ∨ kept name id

theorem Cleared.sweeps {w' : HubWorld} {directory : Path} {rest : List Component}
    {kept : String → Uuid → Prop} (cleared : Cleared w directory rest kept) (sweeps : Sweeps w w') :
    Cleared w' directory rest kept :=
  fun name id parsed has => cleared name id parsed (sweeps.fewer _ has)

theorem safe_readDirOrEmpty (path : Path) (down : w.shared.serving = false) :
    Safe (hub limit) ledger thread .startup (readDirOrEmpty path).run
      (Outcome (fun entries w' => Sweeps w w' ∧
        ∀ name, Has w' (path ++ [name]) → name ∈ entries) fun _ _ => True) w := by
  refine Safe.bindE (Safe.attempt (safe_alone down (fun _ _ _ _ _ => permitted_harmless trivial) ?_))
  intro choice outcome w' performed
  cases outcome with
  | ok entries =>
      obtain ⟨same, listed⟩ := readDir_ok performed
      exact ⟨.of_shared same, fun name has => listed name (by rwa [Has, same] at has)⟩
  | error err =>
      cases err with
      | io err =>
          by_cases missing : err.kind = .notFound
          · obtain ⟨same, absent⟩ := readDir_missing performed missing
            simp only [Outcome, missing, if_true]
            refine ⟨.of_shared same, fun name has => absurd ?_ absent⟩
            rw [Has, same] at has
            exact has.front (List.prefix_append path [name])
          · simp only [Outcome, missing, if_false]
            trivial
      | _ => trivial

/-- One entry of a sweep: it is kept, or nobody counts on it. -/
theorem safe_sweepEntry {valid : List Uuid} {directory : Path} {entry : Component}
    {keep : AsyncResult Unit} {rest : List Component} (kept : HubWorld → String → Uuid → Prop)
    (stays : ∀ {w w' : HubWorld} {name id}, Sweeps w w' → kept w name id → kept w' name id)
    (inside : appsDir <+: directory) (down : w.shared.serving = false)
    (cleared : Cleared w directory (entry :: rest) (kept w))
    (unheld : ∀ id, entryId entry = some id → id ∉ valid → ∀ w₀ : HubWorld,
      w₀.shared = w.shared → ledger.Ready thread .startup w₀ →
        ∀ path, directory ++ [entry] <+: path → ¬ Held w₀ thread path)
    (keeps : ∀ id, entryId entry = some id → id ∈ valid →
      Safe (hub limit) ledger thread .startup keep.run
        (Outcome (fun _ w' => Sweeps w w' ∧ ∀ name, entry = .text name → kept w' name id)
          fun _ _ => True) w) :
    Safe (hub limit) ledger thread .startup (sweepEntry valid directory entry keep).run
      (Outcome (fun _ w' => Sweeps w w' ∧ Cleared w' directory rest (kept w'))
        fun _ _ => True) w := by
  -- what is left once this entry is settled
  have settled : ∀ {w' : HubWorld}, Sweeps w w' →
      (∀ name id, entry = .text name → Uuid.parseStr name = some id →
        Has w' (directory ++ [.text name]) → kept w' name id) →
      Cleared w' directory rest (kept w') := by
    intro w' sweeps done name id parsed has
    rcases cleared name id parsed (sweeps.fewer _ has) with listed | kept
    · rcases List.mem_cons.1 listed with same | later
      · exact .inr (done name id same.symm parsed has)
      · exact .inl later
    · exact .inr (stays sweeps kept)
  unfold sweepEntry
  cases named : entryId entry with
  | none =>
      refine ⟨.refl, settled .refl ?_⟩
      rintro name id rfl parsed
      rw [entryId, parsed] at named
      cases named
  | some id =>
      by_cases isValid : id ∈ valid
      · simp only [isValid, if_true]
        refine (keeps id named isValid).mono fun outcome w' done => ?_
        cases outcome with
        | error err => trivial
        | ok _ =>
            refine ⟨done.1, settled done.1 ?_⟩
            rintro name other rfl parsed _
            have same : other = id := Option.some.inj (parsed.symm.trans named)
            exact same ▸ done.2 name rfl
      · simp only [isValid, if_false]
        refine safe_alone down (fun w₀ _ _ same ready => permitted_files trivial ?_) ?_
        · rintro root path rfl lies
          exact unheld id named isValid w₀ same ready path lies
        · rintro choice (err | _) w' performed
          · trivial
          have core := perform_sameCore (by exact nofun) performed
          have files : w'.shared.files = w.shared.files.removeBelow (directory ++ [entry]) [] :=
            removeDirAll_ok performed
          have sweeps : Sweeps w w' := by
            refine ⟨core.serving, core.db, fun path has => ?_, fun path has outside => ?_⟩
            · rw [Has, files, FileTree.has_removeBelow] at has
              exact has.1
            · rw [Has, files, FileTree.has_removeBelow]
              exact ⟨has, .inl fun lies =>
                outside (inside.trans ((List.prefix_append ..).trans lies))⟩
          refine ⟨sweeps, settled sweeps ?_⟩
          rintro name other rfl _ has
          rw [Has, files, FileTree.has_removeBelow] at has
          simp at has

/-- Answers of a lookup are about the rows as they stay. -/
theorem safe_lookup {q : Query} (read : q.IsRead = true) (down : w.shared.serving = false) :
    Safe (hub limit) ledger thread .startup (query q).run
      (Outcome (fun value w' => w'.shared = w.shared ∧
        w.shared.db.exec q = some (value, w.shared.db)) fun _ _ => True) w := by
  have harmless : (Act.query q).Harmless := looks_harmless _ read
  refine safe_alone down (fun _ _ _ _ _ => permitted_harmless harmless) ?_
  rintro choice (err | value) w' performed
  · trivial
  obtain ⟨db, executed, same⟩ := perform_query_ok performed
  have unchanged := Database.exec_read read executed
  subst unchanged
  exact ⟨same, executed⟩

theorem safe_sweepOrphanedDeploymentDirs {name : Component} {appId : Uuid}
    (down : w.shared.serving = false) (named : entryId name = some appId) :
    Safe (hub limit) ledger thread .startup (sweepOrphanedDeploymentDirs name appId).run
      (Outcome (fun _ w' => Sweeps w w' ∧
        Cleared w' (appsDir ++ [name, .text "deployments"]) [] fun _ id =>
          ∃ row, deployment? w id = some row ∧ row.appId = appId) fun _ _ => True) w := by
  refine Safe.seqE (safe_lookup rfl down) ?_ fun _ _ _ => trivial
  rintro rows w₁ ⟨same, executed⟩
  cases executed
  have sweeps₁ : Sweeps w w₁ := .of_shared same
  refine Safe.bindE ((safe_readDirOrEmpty _ (sweeps₁.serving.trans down)).mono ?_)
  rintro (err | entries) w₂ ⟨sweeps₂, listed⟩
  · trivial
  have valid : ∀ id, id ∈ (w.shared.db.deploymentsOf appId).map DeploymentRow.id ↔
      ∃ row, deployment? w id = some row ∧ row.appId = appId := by
    intro id
    simp only [List.mem_map, Database.mem_deploymentsOf]
    constructor
    · rintro ⟨row, ⟨found, inApp⟩, rfl⟩
      exact ⟨row, found, inApp⟩
    · rintro ⟨row, found, inApp⟩
      have sameId := Database.deployment?_id found
      exact ⟨row, ⟨sameId ▸ found, inApp⟩, sameId⟩
  refine Safe.forEach (fun rest w' => Sweeps w w' ∧
    Cleared w' (appsDir ++ [name, .text "deployments"]) rest fun _ id =>
      ∃ row, deployment? w id = some row ∧ row.appId = appId) ?_ entries
    ⟨sweeps₁.trans sweeps₂, fun name id _ has => .inl (listed _ has)⟩
  rintro entry rest w' ⟨sweeps, cleared⟩
  refine (safe_sweepEntry (fun _ _ id => ∃ row, deployment? w id = some row ∧
    row.appId = appId) (fun _ => id) (by simp) (sweeps.serving.trans down) cleared ?_ ?_).mono ?_
  · intro id parsed invalid w₀ sameState ready path lies held
    have db : w₀.shared.db = w.shared.db := sameState ▸ sweeps.db
    rcases held_down ready (sameState ▸ sweeps.serving.trans down) held with
      ⟨_, _, _, rfl⟩ | ⟨other, row, _, found, rfl⟩
    · simp [appDir, appsDir] at lies
    · simp only [appsDir, deploymentDir, deploymentsDir, appDir, List.cons_append,
        List.nil_append, List.cons_prefix_cons] at lies
      obtain ⟨_, sameApp, _, sameEntry, _⟩ := lies
      subst sameApp sameEntry
      cases (Uuid.parseStr_toString _).symm.trans named
      cases (Uuid.parseStr_toString _).symm.trans parsed
      exact invalid ((valid _).2 ⟨row, by rwa [deployment?, db] at found, rfl⟩)
  · intro id _ isValid
    exact ⟨.refl, fun _ _ => (valid id).1 isValid⟩
  · rintro (err | _) w'' done
    · trivial
    · exact ⟨sweeps.trans done.1, done.2⟩

/-- An app of these rows, whose deployments have been swept as well. -/
def keptApp (rows w : HubWorld) (name : String) (id : Uuid) : Prop :=
  (∃ row, app? rows id = some row) ∧
    Cleared w (appsDir ++ [.text name, .text "deployments"]) [] fun _ id' =>
      ∃ row, deployment? rows id' = some row ∧ row.appId = id

theorem keptApp_sweeps {rows w w' : HubWorld} {name : String} {id : Uuid} (sweeps : Sweeps w w')
    (kept : keptApp rows w name id) : keptApp rows w' name id :=
  ⟨kept.1, kept.2.sweeps sweeps⟩

theorem safe_sweepOrphanedDirs (down : w.shared.serving = false) :
    Safe (hub limit) ledger thread .startup sweepOrphanedDirs.run
      (Outcome (fun _ w' => Sweeps w w' ∧ Cleared w' appsDir [] (keptApp w w'))
        fun _ _ => True) w := by
  refine Safe.bindE ((safe_lookup rfl down).mono ?_)
  rintro (err | rows) w₁ looked
  · trivial
  obtain ⟨same, executed⟩ := looked
  cases executed
  have sweeps₁ : Sweeps w w₁ := .of_shared same
  refine Safe.bindE ((safe_readDirOrEmpty _ (sweeps₁.serving.trans down)).mono ?_)
  rintro (err | entries) w₂ ⟨sweeps₂, listed⟩
  · trivial
  have valid : ∀ id, id ∈ w.shared.db.apps.rows.map AppRow.id ↔ ∃ row, app? w id = some row := by
    intro id
    simp only [List.mem_map]
    constructor
    · rintro ⟨row, member, rfl⟩
      exact ⟨row, Table.mem_rows.1 member⟩
    · rintro ⟨row, found⟩
      have sameId := Database.app?_id found
      exact ⟨row, Table.mem_rows.2 (sameId ▸ found), sameId⟩
  refine Safe.forEach (fun rest w' => Sweeps w w' ∧ Cleared w' appsDir rest (keptApp w w'))
    ?_ entries ⟨sweeps₁.trans sweeps₂, fun name id _ has => .inl (listed _ has)⟩
  rintro entry rest w' ⟨sweeps, cleared⟩
  refine (safe_sweepEntry (keptApp w) keptApp_sweeps List.prefix_rfl
    (sweeps.serving.trans down) cleared ?_ ?_).mono ?_
  · intro id parsed invalid w₀ sameState ready path lies held
    have db : w₀.shared.db = w.shared.db := sameState ▸ sweeps.db
    rcases held_down ready (sameState ▸ sweeps.serving.trans down) held with
      ⟨other, row, found, rfl⟩ | ⟨other, row, _, found, rfl⟩
    · simp only [appDir, appsDir, List.cons_append, List.nil_append, List.cons_prefix_cons] at lies
      obtain ⟨_, sameEntry, _⟩ := lies
      subst sameEntry
      cases (Uuid.parseStr_toString _).symm.trans parsed
      exact invalid ((valid _).2 ⟨row, by rwa [app?, db] at found⟩)
    · simp only [appsDir, deploymentDir, deploymentsDir, appDir, List.cons_append,
        List.nil_append, List.cons_prefix_cons] at lies
      obtain ⟨_, sameEntry, _⟩ := lies
      subst sameEntry
      cases (Uuid.parseStr_toString _).symm.trans parsed
      obtain ⟨app, appFound⟩ := ready.inv.rows.parent other row found
      exact invalid ((valid _).2 ⟨app, by rwa [app?, db] at appFound⟩)
  · intro id parsed isValid
    simp only [parsed, Option.elim_some]
    refine (safe_sweepOrphanedDeploymentDirs (sweeps.serving.trans down) parsed).mono ?_
    rintro (err | _) w'' done
    · trivial
    refine ⟨done.1, ?_⟩
    rintro name rfl
    refine ⟨(valid id).1 isValid, fun name' id' parsed' has => ?_⟩
    rcases done.2 name' id' parsed' has with later | ⟨row, found, inApp⟩
    · cases later
    · exact .inr ⟨row, by rwa [deployment?, sweeps.db] at found, inApp⟩
  · rintro (err | _) w'' done
    · trivial
    · exact ⟨sweeps.trans done.1, done.2⟩

theorem permitted_serve {choice : Choice} (swept : Swept w) :
    Permitted w (.act thread call .serve choice ()) := by
  refine ⟨?_, ?_, ?_, ?_⟩ <;> intros
  · rename_i eq clears _
    cases eq
    exact clears.elim
  · rename_i eq
    cases eq
  · rename_i eq
    cases eq
  · exact swept

/-- When the hub starts to serve, directories and rows agree. -/
theorem safe_startup (down : w.shared.serving = false) :
    Safe (hub limit) ledger thread .startup startup.run (fun _ _ => True) w := by
  refine Safe.bindE (safe_alone down (fun _ _ _ _ _ => permitted_harmless trivial) ?_)
  rintro choice (err | _) w₁ performed
  · trivial
  have down₁ : w₁.shared.serving = false := (perform_sameCore id performed).serving.trans down
  refine Safe.bindE ((safe_sweepTmpDir down₁).mono ?_)
  rintro (err | _) w₂ swept
  · trivial
  obtain ⟨down₂, tmp, empty⟩ := swept
  refine Safe.seqE (safe_sweepOrphanedDirs down₂) ?_ fun _ _ _ => trivial
  rintro _ w₃ ⟨sweeps, apps⟩
  refine Safe.lift (safe_alone (sweeps.serving.trans down₂) ?_ fun _ _ _ _ => trivial)
  intro w₀ choice _ same _
  have has : ∀ {path}, Has w₀ path → Has w₃ path := fun has => by rwa [Has, same] at has
  have db : w₀.shared.db = w₂.shared.db := by rw [same, sweeps.db]
  refine permitted_serve ⟨⟨?_, fun path below there => ?_⟩, ?_, ?_⟩
  · rw [Has, same]
    exact sweeps.others _ tmp (by simp [appsDir, tmpDir])
  · exact empty path below (sweeps.fewer path (has there))
  · intro name id parsed there
    rcases apps name id parsed (has there) with later | ⟨⟨row, found⟩, _⟩
    · cases later
    · exact ⟨row, by rwa [app?, db]⟩
  · intro appId app name id found parsed there
    have above : appsDir ++ [.text appId.toString] <+: deploymentsDir appId.toString ++ [.text name] :=
      ⟨[.text "deployments", .text name], rfl⟩
    rcases apps _ appId (Uuid.parseStr_toString appId) ((has there).front above) with
      later | ⟨_, cleared⟩
    · cases later
    rcases cleared name id parsed (has there) with later | ⟨row, found, inApp⟩
    · cases later
    · exact ⟨row, by rwa [deployment?, db], inApp⟩

end Berth
