import Berth.Interleave.Confined
import Berth.Terminal

/-!
Where a call may go: the paths it names, the rows it writes and the deployments it names to an
agent. All of it comes from the ids that it was called with, once they have been parsed and found.
-/

namespace Berth

open Interleave Interleave.Fallible

/-! Texts that name one entry of a directory. -/

/-- Neither empty, nor `.` or `..`, and without a separator. -/
def PlainText (text : String) : Prop :=
  text ≠ "" ∧ text ≠ "." ∧ text ≠ ".." ∧ '/' ∉ text.toList

instance (text : String) : Decidable (PlainText text) :=
  inferInstanceAs (Decidable (_ ∧ _))

/-- What `unique_tmp_path` makes of a label contains a hyphen, so only a separator could hurt. -/
def Component.Plain : Component → Prop
  | .text value => PlainText value
  | .staged label _ _ extension =>
      '/' ∉ label.toList ∧ ∀ ending ∈ extension, '/' ∉ ending.toList

instance : (part : Component) → Decidable part.Plain
  | .text value => inferInstanceAs (Decidable (PlainText value))
  | .staged _ _ _ _ => inferInstanceAs (Decidable (_ ∧ _))

namespace Uuid

/-- The characters that a text of a UUID is made of. -/
def Symbol (c : Char) : Prop := (parseDigit c).isSome ∨ c ∈ "-{}urn:uid".toList

theorem symbol_of_simple {chars : List Char} {id : Uuid} (parsed : parseSimple chars = some id) :
    ∀ c ∈ chars, Symbol c := by
  intro c member
  unfold parseSimple at parsed
  split at parsed
  · rename_i digits mapped
    left
    clear parsed
    induction chars generalizing digits with
    | nil => cases member
    | cons first rest ih =>
        rw [List.mapM_cons] at mapped
        simp only [Option.bind_eq_bind, Option.bind_eq_some_iff, Option.pure_def] at mapped
        obtain ⟨digit, isDigit, others, restMapped, _⟩ := mapped
        rcases List.mem_cons.1 member with rfl | later
        · rw [isDigit]
          rfl
        · exact ih later others restMapped
  · cases parsed

theorem symbol_of_unhyphenate (counts : List Nat) : ∀ {chars rest : List Char},
    unhyphenate counts chars = some rest → (∀ c ∈ rest, Symbol c) → ∀ c ∈ chars, Symbol c := by
  induction counts with
  | nil =>
      intro chars rest eq symbols
      cases eq
      exact symbols
  | cons count counts ih =>
      intro chars rest eq symbols c member
      unfold unhyphenate at eq
      split at eq
      · rename_i after dropped
        obtain ⟨inner, innerEq, rfl⟩ := Option.map_eq_some_iff.1 eq
        rw [← List.take_append_drop count chars, dropped] at member
        rcases List.mem_append.1 member with front | back
        · exact symbols c (List.mem_append_left _ front)
        · rcases List.mem_cons.1 back with rfl | later
          · exact .inr (by decide)
          · exact ih innerEq (fun d among => symbols d (List.mem_append_right _ among)) c later
      · cases eq

theorem symbol_of_hyphenated {chars : List Char} {id : Uuid}
    (parsed : parseHyphenated chars = some id) : ∀ c ∈ chars, Symbol c := by
  obtain ⟨rest, unhyphenated, simple⟩ := Option.bind_eq_some_iff.1 parsed
  exact symbol_of_unhyphenate groups unhyphenated (symbol_of_simple simple)

theorem symbol_of_parseStr {text : String} {id : Uuid} (parsed : parseStr text = some id) :
    ∀ c ∈ text.toList, Symbol c := by
  unfold parseStr parseChars at parsed
  generalize text.toList = chars at parsed ⊢
  split at parsed
  · exact symbol_of_simple parsed
  · exact symbol_of_hyphenated parsed
  · -- the braces
    rename_i length
    split at parsed
    · rename_i braces
      have inner := symbol_of_hyphenated parsed
      obtain ⟨first, rest, rfl⟩ : ∃ first rest, chars = first :: rest :=
        List.exists_cons_of_length_pos (by omega)
      have nonempty : rest ≠ [] := by
        rintro rfl
        simp at length
      have isLast := braces.2
      rw [List.getLast?_cons, List.getLast?_eq_some_getLast nonempty] at isLast
      intro c member
      rcases List.mem_cons.1 member with rfl | later
      · have isFirst : c = '{' := by simpa using braces.1
        exact .inr (isFirst ▸ by decide)
      · rw [← List.dropLast_append_getLast nonempty] at later
        rcases List.mem_append.1 later with within | last
        · exact inner c within
        · have isBrace : c = '}' := by simpa [List.mem_singleton.1 last] using isLast
          exact .inr (isBrace ▸ by decide)
    · cases parsed
  · -- the URN
    split at parsed
    · rename_i urn
      obtain ⟨rest, rfl⟩ := urn
      intro c member
      rcases List.mem_append.1 member with front | back
      · have symbols : "urn:uuid:".toList.all (fun d => decide (d ∈ "-{}urn:uid".toList)) = true := by
          decide
        exact .inr (of_decide_eq_true (List.all_eq_true.1 symbols c front))
      · exact symbol_of_hyphenated parsed c (by simpa using back)
    · cases parsed
  · cases parsed

/-- A text of a UUID names one entry of a directory. -/
theorem plain_of_parseStr {text : String} {id : Uuid} (parsed : parseStr text = some id) :
    PlainText text := by
  have symbols := symbol_of_parseStr parsed
  have noDot : '.' ∉ text.toList := fun member => by
    rcases symbols '.' member with digit | other
    · cases digit
    · exact absurd other (by decide)
  refine ⟨?_, ?_, ?_, fun member => ?_⟩
  · rintro rfl
    cases parsed
  · rintro rfl
    exact noDot (by decide)
  · rintro rfl
    exact noDot (by decide)
  · rcases symbols '/' member with digit | other
    · cases digit
    · exact absurd other (by decide)

theorem plain_toString (id : Uuid) : PlainText id.toString :=
  plain_of_parseStr (parseStr_toString id)

end Uuid

/-! The territory of a call. -/

/-- What a call is about: the apps it names, the ids that it may create an app with, the
deployments that it executes, fails or deletes, and the archive it is given; or it goes on outside
of the hub. -/
structure Territory where
  app : Uuid → Prop
  fresh : Uuid → Prop
  executes : Uuid → Prop
  fails : Uuid → Prop
  deletes : Uuid → Prop
  given : Path → Prop
  outside : Prop

namespace Territory

/-- Below a staging directory, or the directory of an app or of one of its deployments. -/
inductive Owns (within : Territory) : Path → Prop
  | staged {label : String} {timestamp seq : Nat} {extension : Option String} {rest : Path}
      (plain : ∀ part ∈ Component.staged label timestamp seq extension :: rest, part.Plain) :
      Owns within (tmpDir ++ Component.staged label timestamp seq extension :: rest)
  | app {id : Uuid} (mine : within.app id) : Owns within (appDir id.toString)
  | deployment {appId id : Uuid} {text : String} (mine : within.app appId)
      (parsed : Uuid.parseStr text = some id) {rest : Path}
      (isFiles : rest = [] ∨ rest = [.text "files"]) :
      Owns within (deploymentDir appId.toString text ++ rest)

/-- Something may be moved to the path. -/
def Places (within : Territory) (path : Path) : Prop :=
  within.Owns path ∨ ∃ id, within.fresh id ∧ path = appDir id.toString

end Territory

def Query.Within (within : Territory) : Query → Prop
  | .insertApp row _ => within.fresh row.id
  | .updateApp id _ _ _ | .setActiveDeployment id _ | .deleteApp id
  | .replacePermissions id _ => within.app id
  | .insertDeployment row => within.app row.appId
  | .updateGitInfo id _ _ _ => within.executes id
  | .updateStatus id _ _ => within.executes id ∨ within.fails id
  | .deleteDeployment id => within.deletes id
  | _ => True

/-- The id of a deployment in a request is the text of a UUID. -/
def Request.Within : Request → Prop
  | .startRunContainer text _ _ _ | .createDeploymentDir text | .deleteDeploymentDir text
  | .uploadZipAndExtract text => (Uuid.parseStr text).isSome
  | .stopAndRemoveContainer _ _ | .runBuildCommand _ _ _ _ | .listDeploymentDirs => True

/-- The action names nothing outside the territory. -/
def Act.Within (within : Territory) : Act → Prop
  | .query q => q.Within within
  | .createDir path | .createDirAll path | .removeDirAll path | .removeFile path | .readDir path
  | .pathExists path | .createFile path | .writeFile path | .dirSizeBytes path
  | .cloneShallow _ path => within.Owns path
  | .rename source target => within.Owns source ∧ within.Places target
  | .zipDir source zip => within.Owns source ∧ within.Owns zip
  | .unpackZip zip target => (within.Owns zip ∨ within.given zip) ∧ within.Owns target
  | .agent _ request => request.Within
  | .connect _ | .disconnect _ | .runBacklog _ | .administer _ _ => within.outside
  | .serve => False
  | .lock | .unlock | .nowV7 | .uniqueTmpPath _ _ | .encrypt _ | .decrypt _ | .timeoutElapsed
  | .connectedHosts => True

/-- What a call can fork: the executor of a deployment of the same app. -/
def Call.Within (within : Territory) : Call → Prop
  | .runGitDeployment appText text _ =>
      (∃ appId, Uuid.parseStr appText = some appId ∧ within.app appId) ∧ (Uuid.parseStr text).isSome
  | _ => False

variable {within : Territory} {thread : Nat} {α : Type}

theorem within_looks (action : Act) (looks : action.Looks) : action.Within within := by
  cases action with
  | query q => cases q <;> trivial
  | encrypt _ | decrypt _ => trivial
  | _ => exact looks.elim

/-- The function takes and forks nothing outside the territory. -/
abbrev Stays (within : Territory) (thread : Nat) (program : AsyncResult α) : Prop :=
  Program.Stays (perform thread) (Act.Within within) (Call.Within within) program.run

/-- What the function can return. -/
abbrev Returns (thread : Nat) (program : AsyncResult α) (value : α) : Prop :=
  Program.Yields (perform thread) program.run (.ok value)

theorem stays_takes {program : AsyncResult α}
    (takes : Takes (Act.Within within) (Call.Within within) program) :
    Stays within thread program := Program.Uses.stays takes

/-! What lookups return. -/

theorem returns_query {q : Query} {value : q.Result} (returns : Returns thread (query q) value) :
    ∃ db db' : Database, db.exec q = some (value, db') := by
  obtain ⟨state, choice, state', performed⟩ := Program.yields_perform.1 returns
  obtain ⟨db, executed, _⟩ := perform_query_ok performed
  exact ⟨_, _, executed⟩

theorem returns_findAppRowById {appText : String} {row : AppRow}
    (returns : Returns thread (findAppRowById appText) row) :
    Uuid.parseStr appText = some row.id := by
  unfold findAppRowById at returns
  split at returns
  · cases returns
  · rename_i id parsed
    obtain ⟨found, read, last⟩ := yields_bind_ok.1 returns
    obtain ⟨db, _, executed⟩ := returns_query read
    cases found with
    | none => cases last
    | some other =>
        cases last
        have there := congrArg Prod.fst (Option.some.inj executed)
        rw [Database.app?_id there]
        exact parsed

theorem returns_findDeploymentRow {appId : Uuid} {text : String} {row : DeploymentRow}
    (returns : Returns thread (findDeploymentRow appId text) row) :
    Uuid.parseStr text = some row.id ∧ row.appId = appId := by
  unfold findDeploymentRow at returns
  split at returns
  · cases returns
  · rename_i id parsed
    obtain ⟨found, read, last⟩ := yields_bind_ok.1 returns
    obtain ⟨db, _, executed⟩ := returns_query read
    cases found with
    | none => cases last
    | some other =>
        cases last
        have there := congrArg Prod.fst (Option.some.inj executed)
        obtain ⟨there, inApp⟩ := Option.filter_eq_some_iff.1 there
        rw [Database.deployment?_id there]
        exact ⟨parsed, by simpa using inApp⟩

theorem returns_getDeployment {appText text : String} {deployment : Deployment}
    (returns : Returns thread (getDeployment appText text) deployment) :
    (Uuid.parseStr text).isSome := by
  obtain ⟨appRow, _, rest⟩ := yields_bind_ok.1 returns
  obtain ⟨row, found, _⟩ := yields_bind_ok.1 rest
  rw [(returns_findDeploymentRow found).1]
  rfl

theorem returns_uniqueTmpPath {label : String} {extension : Option String} {path : Path}
    (returns : Returns thread (uniqueTmpPath label extension) path) :
    ∃ timestamp seq, path = tmpDir ++ [.staged label timestamp seq extension] := by
  obtain ⟨state, choice, state', performed⟩ := Program.yields_perform.1 (yields_lift.1 returns)
  obtain ⟨timestamp, seq, rfl, _⟩ := perform_uniqueTmpPath performed
  exact ⟨timestamp, seq, rfl⟩

/-! The functions of the hub, each with the ids it has parsed. -/

/-- A path that `unique_tmp_path` has made, for a label and an extension without separators. -/
def Drawn (path : Path) : Prop :=
  ∃ label timestamp seq extension, path = tmpDir ++ [.staged label timestamp seq extension] ∧
    (Component.staged label timestamp seq extension).Plain

theorem drawn_uniqueTmpPath {label : String} {extension : Option String} {path : Path}
    (plain : '/' ∉ label.toList ∧ ∀ ending ∈ extension, '/' ∉ ending.toList)
    (returns : Returns thread (uniqueTmpPath label extension) path) : Drawn path := by
  obtain ⟨timestamp, seq, rfl⟩ := returns_uniqueTmpPath returns
  exact ⟨label, timestamp, seq, extension, rfl, plain⟩

theorem Drawn.below {path : Path} (drawn : Drawn path) {rest : Path}
    (plain : ∀ part ∈ rest, part.Plain) : within.Owns (path ++ rest) := by
  obtain ⟨label, timestamp, seq, extension, rfl, isPlain⟩ := drawn
  rw [List.append_assoc]
  refine .staged fun part member => ?_
  rcases List.mem_cons.1 member with rfl | later
  · exact isPlain
  · exact plain part later

theorem Drawn.owned {path : Path} (drawn : Drawn path) : within.Owns path := by
  have owned : within.Owns (path ++ []) := drawn.below (by simp)
  rwa [List.append_nil] at owned

theorem stays_uniqueTmpPath {label : String} {extension : Option String} :
    Stays within thread (uniqueTmpPath label extension) :=
  stays_lift (Program.stays_perform trivial)

theorem stays_write {q : Query} (among : q.Within within) : Stays within thread (query q) :=
  Program.stays_perform among

theorem stays_rename {source target : Path} (owned : within.Owns source)
    (owned' : within.Owns target) : Stays within thread (rename source target) :=
  Program.stays_perform ⟨owned, .inl owned'⟩

theorem stays_removeDirAllLogged {path : Path} (owned : within.Owns path) :
    (removeDirAllLogged path).Stays (perform thread) (Act.Within within) (Call.Within within) := by
  have removes : Stays within thread (removeDirAll path) := Program.stays_perform owned
  exact removes.bind fun _ _ => Program.stays_done _

theorem stays_removeFileLogged {path : Path} (owned : within.Owns path) :
    (removeFileLogged path).Stays (perform thread) (Act.Within within) (Call.Within within) := by
  have removes : Stays within thread (removeFile path) := Program.stays_perform owned
  exact removes.bind fun _ _ => Program.stays_done _

theorem stays_withWriteLock {body : AsyncResult α} (stays : Stays within thread body) :
    Stays within thread (withWriteLock body) :=
  (Program.stays_perform trivial).bind fun _ _ => stays.bind fun _ _ =>
    (Program.stays_perform trivial).bind fun _ _ => Program.stays_done _

theorem returns_withWriteLock {body : AsyncResult α} {value : α}
    (returns : Returns thread (withWriteLock body) value) : Returns thread body value := by
  obtain ⟨_, _, rest⟩ := Program.yields_bind.1 returns
  obtain ⟨outcome, yields, rest⟩ := Program.yields_bind.1 rest
  obtain ⟨_, _, last⟩ := Program.yields_bind.1 rest
  cases last
  exact yields

theorem asks_command {β : Type} {toAppError : AgentError → AppError}
    {reply : AsyncResult (Except AgentError β)} (stays : Stays within thread reply) :
    Stays within thread (command toAppError reply) := by
  refine stays_bind stays fun outcome _ => ?_
  cases outcome with
  | ok value => exact stays_pure _
  | error err => exact stays_throw _

theorem stays_ask {host : Int} {request : Request} (among : request.Within) :
    Stays within thread (ask host request) := Program.stays_perform among

/-! Apps. -/

theorem plain_text {text : String} (plain : PlainText text) : (Component.text text).Plain := plain

theorem stays_insertNewApp (any : ∀ id, within.fresh id) (name : String) (source : AppSource)
    (envVars : List EnvVar) (creator : Option String) (hostId : Int) :
    Stays within thread (insertNewApp name source envVars creator hostId) := by
  refine stays_bind (stays_takes (takes_requireFreeName within_looks name)) fun _ _ => ?_
  refine stays_bind (stays_takes (takes_validateHostId within_looks hostId)) fun _ _ => ?_
  refine stays_bind (stays_takes (takes_findCreatorId within_looks creator)) fun creatorId _ => ?_
  refine stays_bind (stays_lift (Program.stays_perform trivial)) fun id _ => ?_
  refine stays_bind stays_uniqueTmpPath fun staging returns => ?_
  have drawn := drawn_uniqueTmpPath (by decide) returns
  refine stays_bind (Program.stays_perform drawn.owned) fun _ _ => ?_
  refine stays_bind (Program.stays_perform (drawn.below (by decide))) fun _ _ => ?_
  refine stays_bind (stays_onError
    (Program.stays_perform ⟨drawn.owned, .inr ⟨id, any id, rfl⟩⟩)
    (stays_removeDirAllLogged drawn.owned)) fun _ _ => ?_
  exact stays_bind (stays_write (any id)) fun _ _ =>
    stays_takes (takes_appFromRowWithPermissions within_looks _)

theorem stays_createApp (any : ∀ id, within.fresh id) (name : String) (source : AppSource)
    (envVars : List EnvVarInput) (creator : Option String) (hostId : Int) :
    Stays within thread (createApp name source envVars creator hostId) := by
  refine stays_bind (stays_takes (takes_liftResult _)) fun _ _ => ?_
  refine stays_bind (stays_takes (takes_liftResult _)) fun _ _ => ?_
  refine stays_bind (stays_takes (takes_resolveEnvVarInputs within_looks _ _)) fun _ _ => ?_
  refine stays_bind (stays_takes (takes_liftResult _)) fun _ _ => ?_
  exact stays_withWriteLock (stays_insertNewApp any name source _ creator hostId)

section Apps

variable {appText : String} (names : ∀ id, Uuid.parseStr appText = some id → within.app id)
include names

theorem stays_updateApp (name : Option String) (envVars : Option (List EnvVarInput))
    (hostId : Option Int) : Stays within thread (updateApp appText name envVars hostId) := by
  refine stays_bind (stays_takes (takes_mapGiven fun _ => takes_liftResult _)) fun _ _ => ?_
  refine stays_bind (stays_takes (takes_findAppRowById within_looks _)) fun row returns => ?_
  refine stays_bind (stays_takes (takes_mapGiven fun _ =>
    takes_resolveEnvVarInputs within_looks _ _)) fun _ _ => ?_
  refine stays_bind (stays_takes (takes_mapGiven fun _ => takes_validateHostId within_looks _))
    fun _ _ => ?_
  refine stays_bind (stays_takes (takes_mapGiven fun _ => takes_validateRename within_looks _ _))
    fun _ _ => ?_
  exact stays_bind (stays_write (names _ (returns_findAppRowById returns))) fun _ _ =>
    stays_takes (takes_appFromRowWithPermissions within_looks _)

theorem stays_updateAppPermissions (permissions : List AppPermission) :
    Stays within thread (updateAppPermissions appText permissions) := by
  refine stays_bind (stays_takes (takes_findAppRowById within_looks _)) fun row returns => ?_
  refine stays_bind (stays_takes (uses_collect (takes_resolveGrant within_looks) _)) fun _ _ => ?_
  exact stays_bind (stays_write (names _ (returns_findAppRowById returns))) fun _ _ =>
    stays_takes (takes_appFromRowWithPermissions within_looks _)

theorem stays_deleteApp : Stays within thread (deleteApp appText) := by
  refine stays_withWriteLock ?_
  refine stays_bind (stays_takes (takes_findAppRowById within_looks _)) fun row returns => ?_
  have mine := names _ (returns_findAppRowById returns)
  refine stays_bind (stays_write mine) fun _ _ => ?_
  refine stays_bind stays_uniqueTmpPath fun staging returns => ?_
  have drawn := drawn_uniqueTmpPath (by decide) returns
  exact stays_bind (stays_rename (.app mine) drawn.owned) fun _ _ =>
    Program.stays_perform drawn.owned

end Apps

theorem stays_stopDeployment (hostId : Int) (deployment : Deployment) :
    Stays within thread (stopDeployment hostId deployment) := by
  unfold stopDeployment
  split
  · exact asks_command (stays_ask trivial)
  · exact stays_pure _

theorem stays_forEach {β : Type} {body : β → AsyncResult Unit} {items : List β}
    (stays : ∀ item, Stays within thread (body item)) :
    Stays within thread (Fallible.forEach body items) := by
  induction items with
  | nil => exact stays_pure ()
  | cons item rest ih => exact stays_bind (stays item) fun _ _ => ih

theorem stays_deleteAppWithContainers {appText : String}
    (names : ∀ id, Uuid.parseStr appText = some id → within.app id) :
    Stays within thread (deleteAppWithContainers appText) := by
  refine stays_bind (stays_takes (takes_getAppById within_looks _)) fun app _ => ?_
  refine stays_bind (stays_takes (takes_listDeployments within_looks _)) fun _ _ => ?_
  exact stays_bind (stays_forEach fun deployment => stays_stopDeployment app.hostId deployment)
    fun _ _ => stays_deleteApp names

/-! Activation. -/

theorem stays_activateDeployment {appText : String}
    (names : ∀ id, Uuid.parseStr appText = some id → within.app id) (text : String) :
    Stays within thread (activateDeployment appText text) := by
  refine stays_withWriteLock ?_
  refine stays_bind (stays_takes (takes_findAppRowById within_looks _)) fun row returns => ?_
  refine stays_bind (stays_takes (takes_findDeploymentRow within_looks _ _)) fun _ _ => ?_
  exact stays_write (names _ (returns_findAppRowById returns))

theorem stays_stopPrevious (app : App) (appText text : String) :
    Stays within thread (stopPrevious app appText text) := by
  refine stays_bind (stays_takes (takes_activeDeploymentId within_looks _)) fun active _ => ?_
  cases active with
  | none => exact stays_pure _
  | some previousId =>
      dsimp only
      split
      · refine stays_bind (stays_attempt (stays_takes (takes_getDeployment within_looks _ _)))
          fun found _ => ?_
        cases found with
        | error err => exact stays_pure _
        | ok previous =>
            dsimp only
            split
            · exact stays_pure _
            · exact stays_bind (stays_attempt (asks_command (stays_ask trivial)))
                fun _ _ => stays_pure _
      · exact stays_pure _

theorem stays_startIfRun (app : App) (appText text : String) :
    Stays within thread (startIfRun app appText text) := by
  unfold startIfRun
  split
  · refine stays_bind (stays_takes (takes_getDeployment within_looks _ _)) fun deployment returns => ?_
    split
    · exact stays_throw _
    · refine stays_bind (stays_takes (takes_decryptEnvVars within_looks _)) fun _ _ => ?_
      exact stays_bind (asks_command (stays_ask (returns_getDeployment returns)))
        fun _ _ => stays_stopPrevious app appText text
  · exact stays_pure _

theorem stays_activateWithContainers {appText : String}
    (names : ∀ id, Uuid.parseStr appText = some id → within.app id) (text : String) :
    Stays within thread (activateWithContainers appText text) := by
  refine stays_bind (stays_takes (takes_getAppById within_looks _)) fun app _ => ?_
  exact stays_bind (stays_startIfRun app appText text) fun _ _ => stays_activateDeployment names text

/-! Deleting a deployment. -/

section Deletion

variable {appText text : String} (names : ∀ id, Uuid.parseStr appText = some id → within.app id)
variable (deletes : ∀ id, Uuid.parseStr text = some id → within.deletes id)

theorem returns_removeDeploymentRow {appId : Uuid}
    (returns : Returns thread (removeDeploymentRow appText text) appId) :
    Uuid.parseStr appText = some appId ∧ ∃ id, Uuid.parseStr text = some id := by
  obtain ⟨appRow, found, rest⟩ := yields_bind_ok.1 returns
  obtain ⟨_, _, rest⟩ := yields_bind_ok.1 rest
  obtain ⟨row, found', rest⟩ := yields_bind_ok.1 rest
  obtain ⟨_, _, last⟩ := yields_bind_ok.1 rest
  cases last
  exact ⟨returns_findAppRowById found, row.id, (returns_findDeploymentRow found').1⟩

include deletes in
theorem stays_removeDeploymentRow : Stays within thread (removeDeploymentRow appText text) := by
  refine stays_bind (stays_takes (takes_findAppRowById within_looks _)) fun _ _ => ?_
  refine stays_bind (stays_takes (takes_requireInactive _ _)) fun _ _ => ?_
  refine stays_bind (stays_takes (takes_findDeploymentRow within_looks _ _)) fun row returns => ?_
  exact stays_bind (stays_write (deletes _ (returns_findDeploymentRow returns).1))
    fun _ _ => stays_pure _

include names deletes

theorem stays_deleteDeployment : Stays within thread (deleteDeployment appText text) := by
  refine stays_bind (stays_withWriteLock (stays_removeDeploymentRow deletes)) fun appId returns => ?_
  obtain ⟨parsed, id, isId⟩ := returns_removeDeploymentRow (returns_withWriteLock returns)
  refine stays_bind stays_uniqueTmpPath fun staging returns => ?_
  have drawn := drawn_uniqueTmpPath (by decide) returns
  have owned : within.Owns (deploymentDir appId.toString text) := by
    simpa using Territory.Owns.deployment (names _ parsed) isId (.inl rfl)
  refine stays_bind (stays_attempt (stays_rename owned drawn.owned)) fun _ _ => ?_
  exact stays_bind (stays_takes (takes_liftResult _)) fun _ _ => Program.stays_perform drawn.owned

theorem stays_deleteDeploymentWithContainers :
    Stays within thread (deleteDeploymentWithContainers appText text) := by
  refine stays_bind (stays_takes (takes_getAppById within_looks _)) fun app _ => ?_
  refine stays_bind (stays_takes (takes_containerNameOf within_looks _ _)) fun containerName _ => ?_
  refine stays_bind (stays_deleteDeployment names deletes) fun _ returns => ?_
  obtain ⟨_, removed, _⟩ := yields_bind_ok.1 returns
  obtain ⟨_, id, isId⟩ := returns_removeDeploymentRow (returns_withWriteLock removed)
  unfold removeFromAgent
  split
  · exact stays_bind (asks_command (stays_ask trivial)) fun _ _ =>
      asks_command (stays_ask (by rw [Request.Within, isId]; rfl))
  · exact stays_pure _

end Deletion

/-! Uploads. -/

section Uploads

variable {appText : String} (names : ∀ id, Uuid.parseStr appText = some id → within.app id)
include names

theorem stays_placeDeployment {id : Uuid} {staging : Path} (drawn : Drawn staging)
    (originalFilename : Option String) (size : Nat) :
    Stays within thread (placeDeployment appText id staging originalFilename size) := by
  refine stays_bind (stays_onError (stays_takes (takes_findAppRowById within_looks _))
    (stays_removeDirAllLogged drawn.owned)) fun row returns => ?_
  have mine := names _ (returns_findAppRowById (yields_onError returns))
  have owned : within.Owns (deploymentDir row.id.toString id.toString) := by
    simpa using Territory.Owns.deployment mine (Uuid.parseStr_toString id) (.inl rfl)
  refine stays_bind (stays_onError (stays_rename drawn.owned owned)
    (stays_removeDirAllLogged drawn.owned)) fun _ _ => ?_
  exact stays_bind (stays_onError (stays_write mine) (stays_removeDirAllLogged owned))
    fun _ _ => stays_pure _

theorem stays_createDeployment {zipPath : Path}
    (ownedZip : within.Owns zipPath ∨ within.given zipPath)
    (originalFilename : Option String) (size : Nat) :
    Stays within thread (createDeployment appText zipPath originalFilename size) := by
  refine stays_bind (stays_lift (Program.stays_perform trivial)) fun id _ => ?_
  refine stays_bind stays_uniqueTmpPath fun staging returns => ?_
  have drawn := drawn_uniqueTmpPath (by decide) returns
  have ownedFiles : within.Owns (staging ++ [.text "files"]) := drawn.below (by decide)
  have unpacks : Stays within thread (stageDeploymentFiles staging zipPath) :=
    stays_bind (Program.stays_perform drawn.owned) fun _ _ =>
      stays_bind (Program.stays_perform ownedFiles) fun _ _ =>
        Program.stays_perform ⟨ownedZip, ownedFiles⟩
  refine stays_bind (stays_onError unpacks (stays_removeDirAllLogged drawn.owned)) fun _ _ => ?_
  refine stays_bind (stays_withWriteLock (stays_placeDeployment names drawn _ _)) fun _ _ => ?_
  exact stays_bind (stays_activateDeployment names _) fun _ _ => stays_pure _

omit names in
theorem stays_writeChunks {zipPath : Path} (ownedZip : within.Owns zipPath) (limit : Nat) :
    ∀ (chunks : List (Except String Nat)) (total : Nat),
      Stays within thread (writeChunks zipPath limit total chunks) := by
  intro chunks
  have writes : Program.Stays (perform thread) (Act.Within within) (Call.Within within)
      (act (.writeFile zipPath)) := Program.stays_perform ownedZip
  induction chunks with
  | nil => exact fun total => stays_pure total
  | cons chunk rest ih =>
      intro total
      cases chunk with
      | error message => exact stays_throw _
      | ok size =>
          simp only [writeChunks]
          split
          · exact stays_throw _
          · exact stays_bind writes fun _ _ => ih (total + size)

omit names in
theorem stays_streamUploadToDisk {zipPath : Path} (ownedZip : within.Owns zipPath) (limit : Nat)
    (fields : List Field) : Stays within thread (streamUploadToDisk zipPath limit fields) := by
  have creates : Program.Stays (perform thread) (Act.Within within) (Call.Within within)
      (act (.createFile zipPath)) := Program.stays_perform ownedZip
  induction fields with
  | nil => exact stays_throw _
  | cons field rest ih =>
      unfold streamUploadToDisk
      split
      · exact ih
      · exact stays_bind creates fun _ _ =>
          stays_bind (stays_writeChunks ownedZip limit _ _) fun _ _ => stays_pure _

theorem stays_uploadDeployment (fields : List Field) (limit : Nat) :
    Stays within thread (uploadDeployment appText fields limit) := by
  refine stays_bind stays_uniqueTmpPath fun zipPath returns => ?_
  have drawn := drawn_uniqueTmpPath (by decide) returns
  refine stays_bind (stays_onError (stays_streamUploadToDisk drawn.owned limit fields)
    (stays_removeFileLogged drawn.owned)) fun _ _ => ?_
  refine stays_bind (stays_attempt (stays_createDeployment names (.inl drawn.owned) _ _)) fun result _ => ?_
  exact stays_bind (stays_lift (stays_removeFileLogged drawn.owned)) fun _ _ =>
    stays_takes (takes_liftResult result)

end Uploads

/-! Git deployments. -/

section Git

variable {appText : String} (names : ∀ id, Uuid.parseStr appText = some id → within.app id)

theorem returns_insertPending {deployment : Deployment} {gitSource : GitSource}
    (returns : Returns thread (insertPending appText) (deployment, gitSource)) :
    (∃ id, Uuid.parseStr appText = some id) ∧ (Uuid.parseStr deployment.id).isSome := by
  obtain ⟨appRow, found, rest⟩ := yields_bind_ok.1 returns
  obtain ⟨_, _, rest⟩ := yields_bind_ok.1 rest
  obtain ⟨_, _, rest⟩ := yields_bind_ok.1 rest
  obtain ⟨id, _, rest⟩ := yields_bind_ok.1 rest
  obtain ⟨_, _, rest⟩ := yields_bind_ok.1 rest
  obtain ⟨_, _, last⟩ := yields_bind_ok.1 rest
  cases last
  refine ⟨⟨appRow.id, returns_findAppRowById found⟩, ?_⟩
  change (Uuid.parseStr id.toString).isSome
  rw [Uuid.parseStr_toString]
  rfl

include names

theorem stays_createPendingGitDeployment :
    Stays within thread (createPendingGitDeployment appText) := by
  refine stays_withWriteLock ?_
  refine stays_bind (stays_takes (takes_findAppRowById within_looks _)) fun row returns => ?_
  have mine := names _ (returns_findAppRowById returns)
  refine stays_bind (stays_takes (takes_requireGitSource row)) fun gitSource _ => ?_
  refine stays_bind (stays_takes (takes_requireNonePending within_looks row)) fun _ _ => ?_
  refine stays_bind (stays_lift (Program.stays_perform trivial)) fun id _ => ?_
  have owned : within.Owns (deploymentDir row.id.toString id.toString) := by
    simpa using Territory.Owns.deployment mine (Uuid.parseStr_toString id) (.inl rfl)
  refine stays_bind (Program.stays_perform owned) fun _ _ => ?_
  exact stays_bind (stays_write mine) fun _ _ => stays_pure _

theorem stays_startGitDeployment : Stays within thread (startGitDeployment appText) := by
  refine stays_bind (stays_createPendingGitDeployment names) fun pending returns => ?_
  obtain ⟨deployment, gitSource⟩ := pending
  obtain ⟨⟨id, parsed⟩, isId⟩ := returns_insertPending (returns_withWriteLock returns)
  exact stays_bind (stays_lift ⟨⟨⟨id, parsed, names id parsed⟩, isId⟩, trivial⟩)
    fun _ _ => stays_pure _

end Git

/-! The executor of a git deployment. -/

theorem not_slash_of_split {chars part : List Char} (member : part ∈ splitSlash chars) :
    '/' ∉ part := by
  induction chars generalizing part with
  | nil =>
      rw [splitSlash, List.mem_singleton] at member
      simp [member]
  | cons c rest ih =>
      rw [splitSlash] at member
      split at member
      · rcases List.mem_cons.1 member with rfl | later
        · simp
        · exact ih later
      · rename_i notSlash
        split at member
        · rw [List.mem_singleton.1 member]
          simpa using fun eq => notSlash eq.symm
        · rename_i first others eq
          rcases List.mem_cons.1 member with rfl | later
          · have clean : '/' ∉ first := ih (eq ▸ List.mem_cons_self)
            simpa [clean] using fun same => notSlash same.symm
          · exact ih (eq ▸ List.mem_cons_of_mem _ later)

theorem plain_relativeComponents {text : String} {relative : Path}
    (eq : relativeComponents text = some relative) : ∀ part ∈ relative, part.Plain := by
  simp only [relativeComponents] at eq
  split at eq
  · cases eq
  · rename_i inside
    cases eq
    intro part member
    obtain ⟨chars, kept, rfl⟩ := List.mem_map.1 member
    obtain ⟨among, proper⟩ := List.mem_filter.1 kept
    have named : chars ≠ [] ∧ chars ≠ ['.'] := by simpa using proper
    have notUp : chars ≠ ['.', '.'] := fun up => inside (.inr (up ▸ among))
    have spelled : (String.ofList chars).toList = chars := String.toList_ofList
    refine plain_text ⟨?_, ?_, ?_, ?_⟩
    · exact fun eq => named.1 (by simpa [eq] using spelled.symm)
    · exact fun eq => named.2 (by simpa [eq] using spelled.symm)
    · exact fun eq => notUp (by simpa [eq] using spelled.symm)
    · rw [spelled]
      exact not_slash_of_split among

section Executor

variable {appText text : String} {staging : Path}

theorem stays_cloneWithTimeout (drawn : Drawn staging) (gitSource : GitSource) :
    Stays within thread (cloneWithTimeout staging gitSource) := by
  have checkout : within.Owns (staging ++ [.text "_checkout"]) := drawn.below (by decide)
  have clones : Stays within thread (cloneRepo staging gitSource) := by
    refine stays_bind (Program.stays_perform drawn.owned) fun _ _ => ?_
    refine stays_bind (Program.stays_perform checkout) fun _ _ => ?_
    have git : within.Owns (staging ++ [.text "_checkout"] ++ [.text ".git"]) := by
      rw [List.append_assoc]
      exact drawn.below (by decide)
    exact stays_bind (Program.stays_perform git) fun _ _ => stays_pure _
  refine stays_bind (stays_attempt clones) fun result _ => ?_
  refine stays_bind (stays_lift (Program.stays_perform trivial)) fun elapsed _ => ?_
  cases elapsed with
  | true => exact stays_throw _
  | false => exact stays_takes (takes_liftResult result)

theorem returns_cloneWithTimeout {gitSource : GitSource} {checkoutDir : Path} {commitSha : String}
    (returns : Returns thread (cloneWithTimeout staging gitSource) (checkoutDir, commitSha)) :
    checkoutDir = staging ++ [.text "_checkout"] := by
  obtain ⟨result, attempted, rest⟩ := yields_bind_ok.1 returns
  obtain ⟨elapsed, _, last⟩ := yields_bind_ok.1 rest
  cases elapsed with
  | true => cases last
  | false =>
      cases result with
      | error err => cases last
      | ok pair =>
          cases last
          obtain ⟨_, _, rest⟩ := yields_bind_ok.1 (yields_attempt.1 attempted)
          obtain ⟨_, _, rest⟩ := yields_bind_ok.1 rest
          obtain ⟨_, _, last⟩ := yields_bind_ok.1 rest
          cases last
          rfl

theorem stays_runBuild (app : App) (text : String) (mode : GitDeployMode) :
    Stays within thread (runBuild app text mode) := by
  cases mode with
  | static _ | run _ => exact stays_pure _
  | build config =>
      exact stays_bind (stays_takes (takes_decryptEnvVars within_looks _)) fun _ _ =>
        asks_command (stays_ask trivial)

/-- What is below the checkout, of a directory that the app's owner has chosen. -/
theorem Drawn.content {relative : Path} (drawn : Drawn staging)
    (plain : ∀ part ∈ relative, part.Plain) :
    within.Owns (staging ++ [.text "_checkout"] ++ relative) := by
  rw [List.append_assoc]
  refine drawn.below fun part member => ?_
  rcases List.mem_cons.1 member with rfl | later
  · exact plain_text (by decide)
  · exact plain part later

theorem stays_resolvePublishDir (drawn : Drawn staging) (publishDir : Option String) :
    Stays within thread (resolvePublishDir (staging ++ [.text "_checkout"]) publishDir) := by
  unfold resolvePublishDir
  split
  · exact stays_pure _
  · split
    · exact stays_throw _
    · rename_i relative eq
      have probes : Stays within thread
          (pathExists (staging ++ [.text "_checkout"] ++ relative)) :=
        stays_lift (Program.stays_perform (drawn.content (plain_relativeComponents eq)))
      refine stays_bind probes fun present _ => ?_
      cases present with
      | true => exact stays_pure _
      | false => exact stays_throw _

theorem returns_resolvePublishDir {publishDir : Option String} {contentRoot : Path}
    (returns : Returns thread (resolvePublishDir (staging ++ [.text "_checkout"]) publishDir)
      contentRoot) :
    ∃ relative : Path, contentRoot = staging ++ [.text "_checkout"] ++ relative ∧
      ∀ part ∈ relative, part.Plain := by
  unfold resolvePublishDir at returns
  split at returns
  · cases returns
    exact ⟨[], by simp⟩
  · split at returns
    · cases returns
    · rename_i relative eq
      obtain ⟨present, _, last⟩ := yields_bind_ok.1 returns
      cases present with
      | false => cases last
      | true =>
          cases last
          exact ⟨relative, rfl, plain_relativeComponents eq⟩

theorem stays_placeContent (drawn : Drawn staging) (mode : GitDeployMode) :
    Stays within thread (placeContent staging (staging ++ [.text "_checkout"]) mode) := by
  have files : within.Owns (staging ++ [.text "files"]) := drawn.below (by decide)
  have checkout : within.Owns (staging ++ [.text "_checkout"]) := drawn.below (by decide)
  have published (publishDir : Option String) : Stays within thread (do
      let contentRoot ← resolvePublishDir (staging ++ [.text "_checkout"]) publishDir
      rename contentRoot (staging ++ [.text "files"])
      Fallible.lift (removeDirAllLogged (staging ++ [.text "_checkout"]))) := by
    refine stays_bind (stays_resolvePublishDir drawn publishDir) fun contentRoot returns => ?_
    obtain ⟨relative, rfl, plain⟩ := returns_resolvePublishDir returns
    exact stays_bind (stays_rename (drawn.content plain) files) fun _ _ =>
      stays_lift (stays_removeDirAllLogged checkout)
  cases mode with
  | run _ => exact stays_rename checkout files
  | static publishDir => exact published publishDir
  | build config => exact published (some config.outputDir)

variable (names : ∀ id, Uuid.parseStr appText = some id → within.app id)
variable (executes : ∀ id, Uuid.parseStr text = some id → within.executes id)
variable (spelled : (Uuid.parseStr text).isSome)

include executes in
theorem stays_setDeploymentStatus (appText : String) (status : DeploymentStatus) :
    Stays within thread (setDeploymentStatus appText text status) := by
  refine stays_bind (stays_takes (takes_findAppRowById within_looks _)) fun _ _ => ?_
  refine stays_bind (stays_takes (takes_findDeploymentRow within_looks _ _)) fun row returns => ?_
  exact stays_write (.inl (executes _ (returns_findDeploymentRow returns).1))

include names executes spelled

theorem stays_finishGitDeployment (drawn : Drawn staging) (gitSource : GitSource)
    (commitSha : String) :
    Stays within thread (finishGitDeployment staging (staging ++ [.text "_checkout"]) appText text
      gitSource commitSha) := by
  have files : within.Owns (staging ++ [.text "files"]) := drawn.below (by decide)
  obtain ⟨id, isId⟩ := Option.isSome_iff_exists.1 spelled
  refine stays_bind (stays_placeContent drawn gitSource.mode) fun _ _ => ?_
  refine stays_bind (Program.stays_perform files) fun _ _ => ?_
  refine stays_bind (stays_takes (takes_findAppRowById within_looks _)) fun row returns => ?_
  have mine := names _ (returns_findAppRowById returns)
  refine stays_bind (stays_rename files (.deployment mine isId (.inr rfl))) fun _ _ => ?_
  refine stays_bind (stays_takes (takes_findDeploymentRow within_looks _ _)) fun row returns => ?_
  refine stays_bind (stays_write (executes _ (returns_findDeploymentRow returns).1)) fun _ _ => ?_
  exact stays_lift (stays_removeDirAllLogged drawn.owned)

theorem stays_prepareGitDeployment (drawn : Drawn staging) (app : App) (gitSource : GitSource) :
    Stays within thread (prepareGitDeployment app staging appText text gitSource) := by
  refine stays_onError ?_ (stays_removeDirAllLogged drawn.owned)
  refine stays_bind (stays_cloneWithTimeout drawn gitSource) fun cloned returns => ?_
  obtain ⟨checkoutDir, commitSha⟩ := cloned
  cases returns_cloneWithTimeout returns
  exact stays_bind (stays_runBuild app text gitSource.mode) fun _ _ =>
    stays_finishGitDeployment names executes spelled drawn gitSource commitSha

omit executes in
theorem stays_shipIfRun (mode : GitDeployMode) :
    Stays within thread (shipIfRun appText text mode) := by
  cases mode with
  | static _ | build _ => exact stays_pure _
  | run config =>
      obtain ⟨id, isId⟩ := Option.isSome_iff_exists.1 spelled
      refine stays_bind (stays_takes (takes_findAppRowById within_looks _)) fun row returns => ?_
      have mine := names _ (returns_findAppRowById returns)
      refine stays_bind stays_uniqueTmpPath fun zipPath returns => ?_
      have drawn := drawn_uniqueTmpPath (by decide) returns
      have zips : within.Owns (deploymentFilesDir row.id.toString text) ∧ within.Owns zipPath :=
        ⟨.deployment mine isId (.inr rfl), drawn.owned⟩
      refine stays_bind (Program.stays_perform zips) fun _ _ => ?_
      refine stays_bind (stays_attempt (stays_bind (asks_command (stays_ask spelled)) fun _ _ =>
        asks_command (stays_ask spelled))) fun result _ => ?_
      exact stays_bind (stays_lift (stays_removeFileLogged drawn.owned)) fun _ _ =>
        stays_takes (takes_liftResult result)

theorem stays_executeGitDeployment (gitSource : GitSource) :
    Stays within thread (executeGitDeployment appText text gitSource) := by
  refine stays_bind (stays_takes (takes_getAppById within_looks _)) fun app _ => ?_
  refine stays_bind stays_uniqueTmpPath fun staging returns => ?_
  have drawn := drawn_uniqueTmpPath (by decide) returns
  refine stays_bind (stays_prepareGitDeployment names executes spelled drawn app gitSource)
    fun _ _ => ?_
  refine stays_bind (stays_shipIfRun names spelled gitSource.mode) fun _ _ => ?_
  exact stays_bind (stays_activateWithContainers names text) fun _ _ =>
    stays_setDeploymentStatus executes appText .ready

theorem stays_runGitDeployment (gitSource : GitSource) :
    (runGitDeployment appText text gitSource).Stays (perform thread) (Act.Within within)
      (Call.Within within) := by
  refine (stays_executeGitDeployment names executes spelled gitSource).bind fun outcome _ => ?_
  cases outcome with
  | ok value => exact Program.stays_done _
  | error err =>
      exact Program.Stays.bind (stays_setDeploymentStatus executes appText (.failed err.toString))
        fun _ _ => Program.stays_done _

end Executor

/-! The pass when an agent connects. -/

section Pass

variable (any : ∀ id, within.fails id)
include any

theorem stays_failPendingDeployments :
    failPendingDeployments.Stays (perform thread) (Act.Within within) (Call.Within within) :=
  Program.Uses.stays (uses_failPendingDeployments within_looks (fun _ _ _ => trivial)
    (fun id _ _ => .inr (any id)))

omit any in
theorem stays_reconcileApp (app : App) : Stays within thread (reconcileApp app) := by
  unfold reconcileApp
  split
  · exact stays_pure _
  · refine stays_bind (stays_takes (takes_activeDeploymentId within_looks _)) fun active _ => ?_
    cases active with
    | none => exact stays_pure _
    | some deploymentId =>
        refine stays_bind (stays_takes (takes_getDeployment within_looks _ _))
          fun deployment returns => ?_
        cases deployment.containerName with
        | none => exact stays_pure _
        | some containerName =>
            exact stays_bind (stays_takes (takes_decryptEnvVars within_looks _)) fun _ _ =>
              asks_command (stays_ask (returns_getDeployment returns))

omit any in
theorem stays_reconcileRunModeContainers :
    reconcileRunModeContainers.Stays (perform thread) (Act.Within within) (Call.Within within) := by
  refine Program.Stays.bind (stays_takes (takes_listApps within_looks)) fun outcome _ => ?_
  cases outcome with
  | error err => exact Program.stays_done _
  | ok apps =>
      exact Program.stays_forEach fun app _ =>
        Program.Stays.bind (stays_reconcileApp app) fun _ _ => Program.stays_done _

omit any in
theorem stays_sweepAgentDir (host : Int) (valid : List Uuid) (text : String) :
    (sweepAgentDir host valid text).Stays (perform thread) (Act.Within within)
      (Call.Within within) := by
  unfold sweepAgentDir
  split
  · exact Program.stays_done _
  · rename_i id parsed
    split
    · exact Program.stays_done _
    · have deletes : Stays within thread (deleteAgentDeploymentDir host text) :=
        asks_command (stays_ask (by rw [Request.Within, parsed]; rfl))
      exact deletes.bind fun _ _ => Program.stays_done _

omit any in
theorem stays_sweepAgentOrphanedDeploymentDirs :
    sweepAgentOrphanedDeploymentDirs.Stays (perform thread) (Act.Within within)
      (Call.Within within) := by
  refine Program.Stays.bind (stays_write trivial) fun outcome _ => ?_
  cases outcome with
  | error err => exact Program.stays_done _
  | ok rows =>
      refine (Program.stays_perform trivial).bind fun hosts _ => ?_
      refine Program.stays_forEach fun host _ => ?_
      have lists : Stays within thread (listAgentDeploymentDirs host) :=
        asks_command (stays_ask trivial)
      refine lists.bind fun outcome _ => ?_
      cases outcome with
      | error err => exact Program.stays_done _
      | ok ids => exact Program.stays_forEach fun text _ => stays_sweepAgentDir host _ text

theorem stays_onAgentConnected :
    onAgentConnected.Stays (perform thread) (Act.Within within) (Call.Within within) :=
  (stays_failPendingDeployments any).bind fun _ _ =>
    stays_reconcileRunModeContainers.bind fun _ _ => stays_sweepAgentOrphanedDeploymentDirs

end Pass

/-! The territory of each call. -/

def Territory.nothing : Territory where
  app _ := False
  fresh _ := False
  executes _ := False
  fails _ := False
  deletes _ := False
  given _ := False
  outside := False

/-- The app that the text stands for, if it stands for one. -/
def Territory.ofApp (appText : String) : Territory :=
  { Territory.nothing with app := fun id => Uuid.parseStr appText = some id }


/-- A new app has an id that nobody could name beforehand; a pass is about all deployments. -/
def Call.territory : Call → Territory
  | .createApp .. => { Territory.nothing with fresh := fun _ => True }
  | .updateApp appText _ _ _ | .updateAppPermissions appText _ | .deleteApp appText
  | .deleteAppWithContainers appText | .uploadDeployment appText _
  | .createPendingGitDeployment appText | .startGitDeployment appText
  | .activateDeployment appText _ | .activateWithContainers appText _ => .ofApp appText
  | .createDeployment appText zipPath _ _ =>
      { Territory.ofApp appText with given := fun path => path = zipPath }
  | .runGitDeployment appText text _ =>
      { Territory.ofApp appText with executes := fun id => Uuid.parseStr text = some id }
  | .deleteDeployment appText text | .deleteDeploymentWithContainers appText text =>
      { Territory.ofApp appText with deletes := fun id => Uuid.parseStr text = some id }
  | .onAgentConnected => { Territory.nothing with fails := fun _ => True }
  | .agentConnects _ | .agentDisconnects _ | .agentWorks _ | .administer _ _ =>
      { Territory.nothing with outside := True }
  | .startup => .nothing

/-- All but the startup, with the executors that the hub can have forked. -/
def Call.Served : Call → Prop
  | .startup => False
  | .runGitDeployment _ text _ => (Uuid.parseStr text).isSome
  | _ => True

theorem stays_replyTo {wrap : AppResult α → Reply} {handler : AsyncResult α}
    (stays : Stays within thread handler) :
    (replyTo wrap handler).Stays (perform thread) (Act.Within within) (Call.Within within) :=
  stays.bind fun _ _ => Program.stays_done _

theorem stays_body {call : Call} (served : call.Served) (limit : Nat) :
    (body limit call).Stays (perform thread) (Act.Within call.territory)
      (Call.Within call.territory) := by
  cases call with
  | createApp => exact stays_replyTo (stays_createApp (fun _ => trivial) _ _ _ _ _)
  | updateApp => exact stays_replyTo (stays_updateApp (fun _ => id) _ _ _)
  | updateAppPermissions => exact stays_replyTo (stays_updateAppPermissions (fun _ => id) _)
  | deleteApp => exact stays_replyTo (stays_deleteApp fun _ => id)
  | deleteAppWithContainers => exact stays_replyTo (stays_deleteAppWithContainers fun _ => id)
  | createDeployment => exact stays_replyTo (stays_createDeployment (fun _ => id) (.inr rfl) _ _)
  | uploadDeployment => exact stays_replyTo (stays_uploadDeployment (fun _ => id) _ _)
  | createPendingGitDeployment =>
      exact stays_replyTo (stays_createPendingGitDeployment fun _ => id)
  | startGitDeployment => exact stays_replyTo (stays_startGitDeployment fun _ => id)
  | runGitDeployment =>
      exact (stays_runGitDeployment (fun _ => id) (fun _ => id) served _).bind
        fun _ _ => Program.stays_done _
  | activateDeployment => exact stays_replyTo (stays_activateDeployment (fun _ => id) _)
  | activateWithContainers => exact stays_replyTo (stays_activateWithContainers (fun _ => id) _)
  | deleteDeployment => exact stays_replyTo (stays_deleteDeployment (fun _ => id) fun _ => id)
  | deleteDeploymentWithContainers =>
      exact stays_replyTo (stays_deleteDeploymentWithContainers (fun _ => id) fun _ => id)
  | onAgentConnected =>
      exact (stays_onAgentConnected fun _ => trivial).bind fun _ _ => Program.stays_done _
  | agentConnects | agentDisconnects | agentWorks | administer =>
      exact (Program.stays_perform trivial).bind fun _ _ => Program.stays_done _
  | startup => exact served.elim

/-! Runs of the hub. -/

/-- The acts of a call that the hub serves are within its territory. -/
def Call.acts (call : Call) (action : Act) : Prop := call.Served → action.Within call.territory

theorem stays_acts (limit thread : Nat) (call : Call) :
    (body limit call).Stays (perform thread) call.acts
      fun forked => call.Served → forked.Within call.territory := by
  by_cases served : call.Served
  · exact (stays_body served limit).mono (fun _ within _ => within) fun _ within _ => within
  · exact (Program.uses_all _).stays.mono (fun _ _ is => absurd is served)
      fun _ _ is => absurd is served

/-- The hub only ever forks executors that are given the text of a UUID. -/
theorem Crew.served {w : HubWorld} (crew : Crew w) {call : Call} (live : (thread, call) ∈ w.live)
    (started : call ≠ .startup) : call.Served := by
  cases call with
  | runGitDeployment appText text gitSource =>
      obtain ⟨_, row, _, _, _, rfl, _⟩ := crew.executor _ _ _ _ live
      rw [Call.Served, Uuid.parseStr_toString]
      rfl
  | startup => exact absurd rfl started
  | _ => trivial

theorem within_in_run {limit : Nat} {state : State} (blank : state.Blank) {cfg next : HubConfig}
    {condition : HubWorld → HubEvent → Prop}
    (reachable : Reachable (hub limit) condition (Config.idle state) cfg) {call : Call}
    {action : Act} {choice : Choice} {result : action.Res}
    (executes : cfg.Executes (hub limit) (.act thread call action choice result) next)
    (started : call ≠ .startup) : action.Within call.territory := by
  have served := (reachable_ledger blank reachable).crew.served (acting_live executes.moves) started
  exact acts_in_run (stays_acts limit) reachable executes served

/-- Component by component below `tmp`, or at the directory of an app or below it. -/
def InDataDir (path : Path) : Prop :=
  (∀ part ∈ path, part.Plain) ∧
    ((tmpDir <+: path ∧ path ≠ tmpDir) ∨ ∃ id : Uuid, appDir id.toString <+: path)

theorem plain_apps : (Component.text "apps").Plain := plain_text (by decide)

theorem inDataDir_appDir (id : Uuid) : InDataDir (appDir id.toString) := by
  refine ⟨fun part member => ?_, .inr ⟨id, List.prefix_refl _⟩⟩
  rcases List.mem_append.1 member with front | back
  · rw [List.mem_singleton.1 front]
    exact plain_apps
  · rw [List.mem_singleton.1 back]
    exact plain_text id.plain_toString

theorem Territory.Owns.inside {path : Path} (owned : within.Owns path) : InDataDir path := by
  cases owned with
  | staged plain =>
      refine ⟨fun part member => ?_, .inl ⟨List.prefix_append _ _, by simp⟩⟩
      rcases List.mem_append.1 member with front | back
      · rw [List.mem_singleton.1 front]
        exact plain_text (by decide)
      · exact plain part back
  | @app id mine => exact inDataDir_appDir id
  | @deployment appId id text mine parsed rest isFiles =>
      have below : appDir appId.toString <+: deploymentDir appId.toString text ++ rest := by
        rw [deploymentDir, deploymentsDir, List.append_assoc, List.append_assoc]
        exact List.prefix_append _ _
      have plainRest : ∀ part ∈ rest, part.Plain := by
        rcases isFiles with rfl | rfl
        · simp
        · simpa using plain_text (by decide : PlainText "files")
      have plainFront : ∀ part ∈ deploymentDir appId.toString text, part.Plain := by
        have plainDeployments : (Component.text "deployments").Plain := plain_text (by decide)
        simpa [deploymentDir, deploymentsDir, appDir, appsDir] using
          ⟨plain_apps, plain_text appId.plain_toString, plainDeployments,
            plain_text (Uuid.plain_of_parseStr parsed)⟩
      refine ⟨fun part member => ?_, .inr ⟨appId, below⟩⟩
      exact (List.mem_append.1 member).elim (plainFront part) (plainRest part)

theorem Territory.Places.inside {path : Path} (places : within.Places path) : InDataDir path := by
  rcases places with owned | ⟨id, _, rfl⟩
  · exact owned.inside
  · exact inDataDir_appDir id

/-- The paths that an action names. -/
def Act.paths : Act → List Path
  | .createDir path | .createDirAll path | .removeDirAll path | .removeFile path | .readDir path
  | .pathExists path | .createFile path | .writeFile path | .dirSizeBytes path
  | .cloneShallow _ path => [path]
  | .rename source target | .unpackZip source target | .zipDir source target => [source, target]
  | _ => []

/-- The text of a deployment's id that a request names. -/
def Request.deploymentText : Request → Option String
  | .startRunContainer text _ _ _ | .createDeploymentDir text | .deleteDeploymentDir text
  | .uploadZipAndExtract text => some text
  | .stopAndRemoveContainer _ _ | .runBuildCommand _ _ _ _ | .listDeploymentDirs => none

theorem Act.Within.path_inside {action : Act} (actsWithin : action.Within within) :
    ∀ path ∈ action.paths, InDataDir path ∨ within.given path := by
  intro path member
  cases action with
  | createDir | createDirAll | removeDirAll | removeFile | readDir | pathExists | createFile
  | writeFile | dirSizeBytes | cloneShallow =>
      cases List.mem_singleton.1 member
      exact .inl (Territory.Owns.inside actsWithin)
  | rename =>
      rcases List.mem_cons.1 member with rfl | last
      · exact .inl actsWithin.1.inside
      · cases List.mem_singleton.1 last
        exact .inl actsWithin.2.inside
  | zipDir =>
      rcases List.mem_cons.1 member with rfl | last
      · exact .inl actsWithin.1.inside
      · cases List.mem_singleton.1 last
        exact .inl actsWithin.2.inside
  | unpackZip =>
      rcases List.mem_cons.1 member with rfl | last
      · exact actsWithin.1.imp_left Territory.Owns.inside
      · cases List.mem_singleton.1 last
        exact .inl actsWithin.2.inside
  | _ => cases member

theorem Request.Within.plain {request : Request} (asksWithin : request.Within) :
    ∀ text ∈ request.deploymentText, PlainText text := by
  intro text member
  cases request with
  | startRunContainer | createDeploymentDir | deleteDeploymentDir | uploadZipAndExtract =>
      cases member
      obtain ⟨id, parsed⟩ := Option.isSome_iff_exists.1 asksWithin
      exact Uuid.plain_of_parseStr parsed
  | _ => cases member

/-- Checks that the thread goes from one path to another one. -/
def movesContent (thread : Nat) : HubEvent → Bool
  | .act other call action _ _ => other = thread && call ≠ .startup && action.paths.length = 2
  | _ => false

end Berth
