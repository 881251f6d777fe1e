import Berth.Conditions

/-!
The pointer of an app to its active deployment. Deletion guards it by comparing texts, so it holds
as long as whoever deletes the active deployment spells its id the way the hub does.
-/

namespace Berth

open Interleave Interleave.Discipline Interleave.Fallible

variable {limit thread : Nat} {call : Call} {w w' : HubWorld} {event : HubEvent}

/-- Every pointer names a deployment of its app. -/
def Pointed (w : HubWorld) : Prop :=
  ∀ id row target, app? w id = some row → row.activeDeploymentId = some target →
    ∃ deployment, deployment? w target = some deployment ∧ deployment.appId = id

/-- Where a deletion finds, under the write lock, that it is about the active deployment, its text
is the canonical one. -/
def ActiveSpelledOut (w : HubWorld) (event : HubEvent) : Prop :=
  ∀ thread call appText text id choice row target, Deletes call appText text →
    event = .act thread call (.query (.appById id)) choice (.ok (some row)) → Locked w thread →
    row.activeDeploymentId = some target → Uuid.parseStr text = some target → Uuid.Canonical text

/-- The thread has read that the app's active deployment is the one the text names. -/
def FoundActive (w : HubWorld) (thread : Nat) (text : String) : Prop :=
  w.Did fun event => ∃ call id choice row target,
    event = .act thread call (.query (.appById id)) choice (.ok (some row)) ∧
      row.activeDeploymentId = some target ∧ Uuid.parseStr text = some target

/-- The thread has only looked things up so far. -/
def Untouched (w : HubWorld) (thread : Nat) : Prop :=
  ¬ w.Did fun event => ∃ call action choice result,
    event = .act thread call action choice result ∧ ¬ action.Looks ∧ ¬ action.Locks

/-- No step removes the active deployment, and a deletion that found it active is refused. -/
structure Guarded (w : HubWorld) (event : HubEvent) : Prop where
  spares : ∀ thread id, Wrote thread (.deleteDeployment id) event →
    ∀ app row, app? w app = some row → row.activeDeploymentId ≠ some id
  refuses : ∀ thread appText text reply,
    event = .finish thread (.deleteDeployment appText text) reply → FoundActive w thread text →
      reply = .unit (.error .deleteActiveDeployment) ∧ Untouched w thread

theorem Pointed.moves (pointed : Pointed w) (moves : w.Moves (hub limit) event w')
    (permitted : Permitted w event)
    (spares : ∀ thread id, Wrote thread (.deleteDeployment id) event →
      ∀ app row, app? w app = some row → row.activeDeploymentId ≠ some id) : Pointed w' := by
  have change := rowsChange moves
  intro id row target found active
  have before : ∃ deployment, deployment? w target = some deployment ∧ deployment.appId = id ∧
      ∀ thread, ¬ Wrote thread (.deleteDeployment target) event := by
    rcases change.app_before found with ⟨old, there, step⟩ | ⟨_, _, thread, creator, wrote⟩
    · rcases step.active with same | ⟨thread, other, wrote, eq⟩
      · rw [same] at active
        obtain ⟨deployment, present, inApp⟩ := pointed id old target there active
        exact ⟨deployment, present, inApp, fun thread wrote =>
          spares thread target wrote id old there active⟩
      · rw [active] at eq
        cases eq
        obtain ⟨call, may⟩ := permitted.write wrote
        obtain ⟨deployment, present, inApp⟩ := MayActivate.found may
        exact ⟨deployment, present, inApp, fun _ wrote' => nomatch (wrote_inj wrote wrote').2⟩
    · obtain ⟨call, may⟩ := permitted.write wrote
      rw [MayInsertApp.inactive may] at active
      cases active
  obtain ⟨deployment, present, inApp, kept⟩ := before
  rcases change.deployment_after present with
    ⟨new, after, step⟩ | ⟨_, ⟨thread, wrote⟩ | ⟨thread, wrote⟩⟩
  · exact ⟨new, after, step.appId.trans inApp⟩
  · exact absurd wrote (kept thread)
  · rw [inApp] at wrote
    rw [change.app_gone wrote] at found
    cases found

def guarding : Discipline Act Act.Res Call Reply State Choice :=
  following ActiveSpelledOut Guarded Pointed

theorem guarding_grounded : Grounded guarding := following_grounded

/-- Steps are only guarded where they delete a deployment. -/
theorem guarded_act {action : Act} {choice : Choice} {result : action.Res}
    (spares : ∀ id, action = .query (.deleteDeployment id) → ∀ app row,
      app? w app = some row → row.activeDeploymentId ≠ some id) :
    Guarded w (.act thread call action choice result) :=
  ⟨fun _ id wrote => spares id wrote.action.2, fun _ _ _ _ eq => nomatch eq⟩

theorem guarded_fork {child : Nat} {forked : Call} :
    Guarded w (.fork thread call child forked) :=
  ⟨fun _ _ ⟨_, _, _, eq⟩ => (nomatch eq), fun _ _ _ _ eq => (nomatch eq)⟩

theorem deletes_of_permitted {id : Uuid} {choice : Choice}
    (permitted : Permitted w (.act thread call (.query (.deleteDeployment id)) choice (.ok ()))) :
    ∃ appText text, Deletes call appText text := by
  obtain ⟨appText, text, _, _, asked, _⟩ := MayDelete.asked (permitted.writes _ _ _ _ _ rfl)
  exact ⟨appText, text, asked⟩

/-- The calls that delete no deployment need not be looked at. -/
theorem free_guarding (other : ∀ appText text, ¬ Deletes call appText text) :
    Free (hub limit) guarding thread call (fun _ => True) fun _ => True := by
  intro w event w' own ready moves allowed
  cases own with
  | fork _ => exact guarded_fork
  | act _ =>
      refine ⟨fun _ id wrote => ?_, fun _ _ _ _ eq => nomatch eq⟩
      obtain ⟨_, _, value, eq⟩ := wrote
      cases eq
      obtain ⟨appText, text, deletes⟩ := deletes_of_permitted allowed.permitted
      exact absurd deletes (other appText text)

/-- Everything but removing a deployment's row is free for every call. -/
theorem free_guarding_rest : Free (hub limit) guarding thread call
    (fun action => ∀ id, action ≠ .query (.deleteDeployment id)) fun _ => True := by
  intro w event w' own ready moves allowed
  cases own with
  | fork _ => exact guarded_fork
  | act rest => exact guarded_act fun id same => absurd same (rest id)

/-! What a deletion knows. -/

theorem lasting_unfound (text : String) {acts : Act → Prop} {calls : Call → Prop}
    (fine : ∀ action, acts action → ∀ id, action ≠ .query (.appById id)) :
    Lasting limit thread call acts calls fun w => ¬ FoundActive w thread text := by
  refine lasting_not_did ?_ ?_
  · rintro _ ⟨_, _, _, _, _, rfl, _⟩
    rfl
  · rintro _ own ⟨_, _, _, _, _, rfl, _⟩
    cases own with
    | act among => exact fine _ among _ rfl

theorem lasting_untouched {acts : Act → Prop}
    (fine : ∀ action, acts action → action.Looks ∨ action.Locks) :
    Lasting limit thread call acts (fun _ => False) fun w => Untouched w thread := by
  refine lasting_not_did ?_ ?_
  · rintro _ ⟨_, _, _, _, rfl, _⟩
    rfl
  · rintro _ own ⟨_, _, _, _, rfl, looks, locks⟩
    cases own with
    | act among => exact (fine _ among).elim looks locks

theorem looks_rest (action : Act) (looks : action.Looks) (id : Uuid) :
    action ≠ .query (.deleteDeployment id) := by
  rintro rfl
  cases looks

section Deletion

variable {appText text : String} {plain : Prop}

/-- What a deletion has found out once it has read the row of the app. -/
structure Checked (plain : Prop) (w : HubWorld) (thread : Nat) (text : String) (appRow : AppRow) :
    Prop where
  locked : Locked w thread
  there : AppThere w appRow.id appRow.activeDeploymentId
  untouched : plain → Untouched w thread
  verdict : (∃ target, appRow.activeDeploymentId = some target ∧
      Uuid.parseStr text = some target ∧ Uuid.Canonical text) ∨
    ((∀ target, appRow.activeDeploymentId = some target → Uuid.parseStr text ≠ some target) ∧
      (plain → ¬ FoundActive w thread text))

theorem safe_findCheckedApp (deletes : Deletes call appText text) (locked : Locked w thread)
    (quiet : plain → ¬ FoundActive w thread text ∧ Untouched w thread) :
    Safe (hub limit) guarding thread call (findAppRowById appText).run
      (Outcome (fun appRow w' => Checked plain w' thread text appRow)
        fun _ w' => plain → ¬ FoundActive w' thread text) w := by
  unfold findAppRowById
  split
  · exact fun isPlain => (quiet isPlain).1
  · rename_i id parsed
    have unfound : Lasting limit thread call (fun _ => False) (fun _ => False) fun w =>
        ¬ FoundActive w thread text := lasting_unfound text fun _ => False.elim
    have locks : Lasting limit thread call Act.Calm (fun _ => False) fun w => Locked w thread :=
      lasting_locked
    have untouched : Lasting limit thread call Act.Looks (fun _ => False) fun w =>
        Untouched w thread := lasting_untouched fun _ => .inl
    have before : Lasting limit thread call (fun _ => False) (fun _ => False) fun w =>
        Locked w thread ∧ (plain → ¬ FoundActive w thread text ∧ Untouched w thread) :=
      (locks.mono (fun _ => False.elim) fun _ => False.elim).and
        (unfound.and (untouched.mono (fun _ => False.elim) fun _ => False.elim)).given
    refine Safe.bindE (safe_action guarding_grounded before ⟨locked, quiet⟩ ?_)
    rintro w₀ choice result w' ⟨locked, quiet⟩ ready moves allowed
    refine ⟨guarded_act (by rintro _ ⟨⟩), fun around _ => ?_⟩
    have locked' := locks _ _ _ around (fun _ => .act (by rintro ⟨⟩)) locked
    have untouched' := fun isPlain =>
      untouched _ _ _ around (fun _ => .act rfl) (quiet isPlain).2
    have unfound' : (∀ row target, result = .ok (some row) → row.activeDeploymentId = some target →
        Uuid.parseStr text ≠ some target) → plain → ¬ FoundActive w' thread text := by
      intro otherwise isPlain found
      rcases (moves.did_iff _).1 found with ⟨_, _, _, row, target, eq, active, names⟩ | before
      · cases eq
        exact otherwise row target rfl active names
      · exact (quiet isPlain).1 before
    rcases result with err | _ | row
    · exact unfound' (by rintro _ _ ⟨⟩)
    · exact unfound' (by rintro _ _ ⟨⟩)
    · obtain ⟨_, _, there⟩ := appById_answer moves
      refine ⟨locked', ⟨row, there, rfl⟩, untouched', ?_⟩
      by_cases isActive : ∃ target, row.activeDeploymentId = some target ∧
          Uuid.parseStr text = some target
      · obtain ⟨target, active, names⟩ := isActive
        exact .inl ⟨target, active, names,
          allowed.condition _ _ _ _ _ _ _ _ deletes rfl locked active names⟩
      · have otherwise : ∀ target, row.activeDeploymentId = some target →
            Uuid.parseStr text ≠ some target :=
          fun target active names => isActive ⟨target, active, names⟩
        refine .inr ⟨otherwise, unfound' ?_⟩
        rintro row' target ⟨⟩
        exact otherwise target

/-- The locked part of a deletion: the active deployment is spared. -/
theorem safe_removeGuarded (deletes : Deletes call appText text) (locked : Locked w thread)
    (quiet : plain → ¬ FoundActive w thread text ∧ Untouched w thread) :
    Safe (hub limit) guarding thread call (removeDeploymentRow appText text).run
      (Outcome (fun _ w' => plain → ¬ FoundActive w' thread text)
        fun err w' => plain → FoundActive w' thread text →
          err = .deleteActiveDeployment ∧ Untouched w' thread) w := by
  refine Safe.bindE ((safe_findCheckedApp deletes locked quiet).mono ?_)
  rintro (err | appRow) w₁ checked
  · exact fun isPlain found => absurd found (checked isPlain)
  refine Safe.bindE ((safe_requireInactive (Checked plain · thread text appRow) checked).mono ?_)
  rintro (err | _) w₂ ⟨checked, rest⟩
  · exact fun isPlain _ => ⟨rest.1, checked.untouched isPlain⟩
  rcases checked.verdict with ⟨target, active, names, canonical⟩ | ⟨otherwise, unfound⟩
  · rw [active, canonical.eq_toString names] at rest
    exact absurd rfl rest
  have apps : Lasting limit thread call Act.Calm (fun _ => False) fun w =>
      Locked w thread ∧ AppThere w appRow.id appRow.activeDeploymentId := lasting_app _ _
  have unfounds : ∀ {acts : Act → Prop}, (∀ action, acts action → ∀ id, action ≠ .query (.appById id)) →
      Lasting limit thread call acts (fun _ => False) fun w => plain → ¬ FoundActive w thread text :=
    fun fine => (lasting_unfound text fine).given
  let reads : Act → Prop := fun action => ∃ id, action = .query (.deploymentById id appRow.id)
  have readsCalm : ∀ action, reads action → action.Calm := by
    rintro _ ⟨id, rfl⟩
    exact nofun
  have before : Lasting limit thread call reads (fun _ => False) fun w =>
      (Locked w thread ∧ AppThere w appRow.id appRow.activeDeploymentId) ∧
        (plain → ¬ FoundActive w thread text) :=
    (apps.mono readsCalm fun _ => id).and (unfounds (by rintro _ ⟨id, rfl⟩; exact nofun))
  refine Safe.bindE ((safe_findDeploymentRow (free_guarding_rest.mono ?_ fun _ => False.elim)
    (before.frame guarding_grounded) (fun id => ⟨id, rfl⟩)
    ⟨⟨checked.locked, checked.there⟩, unfound⟩).mono ?_)
  · rintro _ ⟨id, rfl⟩
    exact nofun
  rintro (err | row) w₃ found
  · exact fun isPlain seen => absurd seen (found.2 isPlain)
  obtain ⟨⟨appThere, unfound⟩, names, there, inApp⟩ := found
  have known : Lasting limit thread call (fun _ => False) (fun _ => False) fun w =>
      ((Locked w thread ∧ AppThere w appRow.id appRow.activeDeploymentId) ∧
        (Locked w thread ∧ DeploymentOf w row.id appRow.id)) ∧ (plain → ¬ FoundActive w thread text) :=
    ((apps.and (lasting_deployment row.id appRow.id)).mono (fun _ => False.elim)
      fun _ => id).and (unfounds fun _ => False.elim)
  refine Safe.bindE (safe_action guarding_grounded known
    ⟨⟨appThere, appThere.1, row, there, inApp⟩, unfound⟩ ?_)
  rintro w₄ choice result w₅ ⟨⟨⟨_, app, appFound, active⟩, _, target, present, targetApp⟩, unfound⟩
    ready moves allowed
  refine ⟨guarded_act ?_, fun around _ => ?_⟩
  · -- a pointer to this deployment would be the one of its own app
    rintro _ ⟨⟩ other otherRow otherFound pointer
    obtain ⟨deployment, same, ofOther⟩ := ready.inv other otherRow row.id otherFound pointer
    rw [present] at same
    cases same
    rw [← ofOther, targetApp, appFound] at otherFound
    cases otherFound
    exact otherwise row.id (active ▸ pointer) names
  · have still : plain → ¬ FoundActive w₅ thread text := fun isPlain seen => by
      rcases (moves.did_iff _).1 seen with ⟨_, _, _, _, _, eq, _⟩ | before
      · cases eq
      · exact unfound isPlain before
    cases result with
    | error err => exact fun isPlain seen => absurd seen (still isPlain)
    | ok _ => exact still

/-- If the thread found the deployment active, it has been refused. -/
def Refused (w : HubWorld) (thread : Nat) (text : String) (outcome : AppResult Unit) : Prop :=
  FoundActive w thread text → outcome = .error .deleteActiveDeployment ∧ Untouched w thread

theorem lasting_refused (outcome : AppResult Unit) :
    Lasting limit thread call Act.Locks (fun _ => False) fun w => Refused w thread text outcome := by
  refine Lasting.imp (lasting_unfound text ?_) ((lasting_const _).and (lasting_untouched ?_))
  · rintro _ locks id rfl
    exact locks
  · exact fun _ => .inr

theorem takes_deleteDeploymentDir (appId : Uuid) (deploymentId : String) :
    Takes (fun action => ¬ ∃ q, action = .query q) (fun _ => False)
      (deleteDeploymentDir appId deploymentId) := by
  have files : ∀ action : Act, action.OnFiles → ¬ ∃ q, action = .query q := by
    rintro _ onFiles ⟨q, rfl⟩
    exact onFiles
  refine uses_bind (uses_lift (Program.uses_perform (by rintro ⟨_, ⟨⟩⟩))) fun staging => ?_
  refine uses_bind (uses_attempt (takes_rename files _ _)) fun moved => ?_
  exact uses_bind (takes_liftResult _) fun _ => takes_removeDirAll files _

/-- However the locked part ends, giving the lock back changes nothing about it. -/
theorem lasting_removal (outcome : AppResult Uuid) :
    Lasting limit thread call Act.Locks (fun _ => False) fun w =>
      Outcome (fun _ w' => plain → ¬ FoundActive w' thread text)
        (fun err w' => plain → FoundActive w' thread text →
          err = .deleteActiveDeployment ∧ Untouched w' thread) outcome w := by
  have unfound : Lasting limit thread call Act.Locks (fun _ => False) fun w =>
      ¬ FoundActive w thread text := by
    refine lasting_unfound text ?_
    rintro _ locks id rfl
    exact locks
  cases outcome with
  | ok _ => exact unfound.given
  | error err =>
      exact (unfound.imp ((lasting_const _).and (lasting_untouched fun _ => .inr))).given

theorem safe_deleteGuarded (deletes : Deletes call appText text)
    (quiet : plain → ¬ FoundActive w thread text ∧ Untouched w thread) :
    Safe (hub limit) guarding thread call (deleteDeployment appText text).run
      (fun outcome w' => plain → Refused w' thread text outcome) w := by
  have before : Lasting limit thread call Act.Locks (fun _ => False) fun w =>
      plain → ¬ FoundActive w thread text ∧ Untouched w thread := by
    refine Lasting.given ((lasting_unfound text ?_).and (lasting_untouched fun _ => .inr))
    rintro _ locks id rfl
    exact locks
  have frees : Free (hub limit) guarding thread call Act.Locks fun _ => False := by
    refine free_guarding_rest.mono ?_ fun _ => False.elim
    rintro _ locks id rfl
    exact locks
  refine Safe.bindE ((safe_withWriteLock guarding_grounded frees before lasting_removal quiet
    fun w₁ quiet locked => safe_removeGuarded deletes locked quiet).mono ?_)
  rintro (err | appId) w₁ done
  · exact fun isPlain found => ⟨by rw [(done isPlain found).1], (done isPlain found).2⟩
  -- what remains reads no app row and removes no deployment row
  have unfound : Lasting limit thread call (fun action => ¬ ∃ q, action = .query q)
      (fun _ => False) fun w => plain → ¬ FoundActive w thread text := by
    refine (lasting_unfound text ?_).given
    rintro _ noQuery id rfl
    exact noQuery ⟨_, rfl⟩
  have rest : Free (hub limit) guarding thread call (fun action => ¬ ∃ q, action = .query q)
      fun _ => False := by
    refine free_guarding_rest.mono ?_ fun _ => False.elim
    rintro _ noQuery id rfl
    exact noQuery ⟨_, rfl⟩
  refine (Safe.frame (takes_deleteDeploymentDir appId text) rest
    (unfound.frame guarding_grounded) done).mono ?_
  exact fun outcome w₂ unfound isPlain found => absurd found (unfound isPlain)

end Deletion

/-! The discipline is sound. -/

theorem final_guarding {reply : Reply}
    (other : ∀ appText text, call ≠ .deleteDeployment appText text) :
    Final (hub limit) guarding thread call reply w := by
  intro w' _ _ _
  refine ⟨fun _ _ ⟨_, _, _, eq⟩ => (nomatch eq), ?_⟩
  rintro _ appText text _ eq
  cases eq
  exact absurd rfl (other appText text)

theorem safe_others (other : ∀ appText text, ¬ Deletes call appText text) (program : Async Reply) :
    Safe (hub limit) guarding thread call program (Final (hub limit) guarding thread call) w :=
  (Safe.free program.uses_all (free_guarding other)).mono fun _ _ _ =>
    final_guarding fun appText text eq => other appText text (.inl eq)

theorem safe_replyRefused {appText text : String}
    (quiet : ¬ FoundActive w thread text ∧ Untouched w thread) :
    Safe (hub limit) guarding thread (.deleteDeployment appText text)
      (replyTo .unit (deleteDeployment appText text))
      (Final (hub limit) guarding thread (.deleteDeployment appText text)) w := by
  have deletes : Deletes (.deleteDeployment appText text) appText text := .inl rfl
  refine Safe.bind ((safe_deleteGuarded deletes fun _ : True => quiet).mono ?_)
  intro outcome w₁ refused w₂ rely ready allowed
  have lasts : Lasting limit thread (.deleteDeployment appText text) Act.Locks (fun _ => False)
      fun w => Refused w thread text outcome := lasting_refused outcome
  have refused := (lasts.frame guarding_grounded).stable.rely rely (refused trivial)
  refine ⟨fun _ _ ⟨_, _, _, eq⟩ => (nomatch eq), ?_⟩
  rintro _ _ _ _ eq found
  cases eq
  obtain ⟨rfl, untouched⟩ := refused found
  exact ⟨rfl, untouched⟩

theorem safe_deleteWithContainers {appText text : String} :
    Safe (hub limit) guarding thread (.deleteDeploymentWithContainers appText text)
      (replyTo .unit (deleteDeploymentWithContainers appText text))
      (Final (hub limit) guarding thread (.deleteDeploymentWithContainers appText text)) w := by
  have freely : ∀ {α : Type} {program : AsyncResult α} {w₁ : HubWorld},
      Takes (fun action => ∀ id, action ≠ .query (.deleteDeployment id)) (fun _ => True) program →
      Safe (hub limit) guarding thread (.deleteDeploymentWithContainers appText text) program.run
        (fun _ _ => True) w₁ := fun takes => Safe.free takes free_guarding_rest
  have deletes : Deletes (.deleteDeploymentWithContainers appText text) appText text := .inr rfl
  have runs : Safe (hub limit) guarding thread (.deleteDeploymentWithContainers appText text)
      (deleteDeploymentWithContainers appText text).run (fun _ _ => True) w := ?_
  · exact Safe.bind (runs.mono fun _ _ _ => final_guarding nofun)
  refine Safe.thenE (freely (takes_getAppById looks_rest appText)) (fun app w₁ _ => ?_)
    fun _ _ _ => trivial
  refine Safe.thenE (freely (takes_containerNameOf looks_rest appText text)) (fun name w₂ _ => ?_)
    fun _ _ _ => trivial
  refine Safe.thenE ((safe_deleteGuarded deletes False.elim).mono fun _ _ _ => trivial)
    (fun _ w₃ _ => ?_) fun _ _ _ => trivial
  exact freely (takes_removeFromAgent (fun _ _ => nofun) app.hostId text name)

theorem quiet_start {text : String} (numbered : w.Numbered)
    (moves : w.Moves (hub limit) (.start w.next call) w') :
    ¬ FoundActive w' w.next text ∧ Untouched w' w.next := by
  constructor <;> intro happened <;> rcases (moves.did_iff _).1 happened with now | before
  · obtain ⟨_, _, _, _, _, eq, _⟩ := now
    cases eq
  · refine numbered.not_did ?_ before
    rintro _ ⟨_, _, _, _, _, rfl, _⟩
    rfl
  · obtain ⟨_, _, _, _, eq, _⟩ := now
    cases eq
  · refine numbered.not_did ?_ before
    rintro _ ⟨_, _, _, _, rfl, _⟩
    rfl

theorem guarding_sound : Sound (hub limit) guarding where
  keeps w event w' _ inv moves allowed permit := by
    refine Pointed.moves inv moves allowed.permitted ?_
    rintro thread id ⟨call, choice, value, rfl⟩
    exact Guarded.spares (permit trivial) thread id (wrote_act ..)
  starts w call w' numbered inv moves allowed ready := by
    by_cases deletes : ∃ appText text, Deletes call appText text
    · obtain ⟨appText, text, rfl | rfl⟩ := deletes
      · exact safe_replyRefused (quiet_start numbered moves)
      · exact safe_deleteWithContainers
    · exact safe_others (fun appText text is => deletes ⟨appText, text, is⟩) _
  forks w thread call forked w' numbered inv moves allowed permit ready := by
    obtain ⟨_, _, _, _, _, rfl, _⟩ := allowed.permitted.forks _ _ _ _ rfl
    refine safe_others ?_ _
    rintro appText text (eq | eq) <;> cases eq

/-- Active pointers stay intact in every run in which whoever asks to delete the active deployment
spells it out, and `delete_deployment` then refuses without having touched anything. -/
theorem active_pointer_integrity {state : State} (blank : state.Blank) {cfg : HubConfig}
    (reachable : Reachable (hub limit) ActiveSpelledOut (Config.idle state) cfg) :
    Pointed cfg.world ∧ ∀ command thread appText text reply cfg',
      cfg.exec (hub limit) command =
        some (.finish thread (.deleteDeployment appText text) reply, cfg') →
      FoundActive cfg.world thread text →
        reply = .unit (.error .deleteActiveDeployment) ∧ Untouched cfg.world thread := by
  have initial : Secure (hub limit) guarding (Config.idle state) :=
    secure_idle fun _ _ _ found => absurd found blank.no_app
  have meets := reachable_meets blank reachable
  have secure := guarding_sound.secure initial meets
  refine ⟨secure.inv, fun command thread appText text reply cfg' executed found => ?_⟩
  have executes := Config.exec_executes executed
  have allowed : guarding.Allowed cfg.world (.finish thread (.deleteDeployment appText text) reply) :=
    meets_next blank reachable executes fun _ _ _ _ _ _ _ _ _ eq => nomatch eq
  exact Guarded.refuses (secure.permit executes allowed trivial) _ _ _ _ rfl found

/-- One app with one upload, which somebody then deletes by this text. -/
def uploadThenDelete (text : String) (count : Nat) : List (Command Call Choice) :=
  let app := Uuid.repeated 1
  let plain : Choice := {}
  .start .startup :: steps 0 7 plain ++
  .start (.createApp "app" .upload [] none 1) :: steps 1 13 { id := app } ++
  .start (.uploadDeployment app.toString [⟨some "file", none, [.ok 1]⟩]) ::
    steps 2 20 { id := Uuid.repeated 10 } ++
  .start (.deleteDeployment app.toString text) :: steps 3 count plain

/-- The app still has a pointer, and that deployment has no row. -/
def dangles (cfg : HubConfig) : Bool :=
  (app? cfg.world (Uuid.repeated 1)).any fun row =>
    row.activeDeploymentId.any fun target => (deployment? cfg.world target).isNone

theorem active_pointer_dangles : ¬ ∀ cfg, Reachable (hub 1000) (fun _ _ => True)
    (Config.idle (State.fresh plainKey [] [⟨1, false⟩])) cfg → Pointed cfg.world := by
  intro always
  have ran : (runChecked (hub 1000) (fun _ _ => true)
      (Config.idle (State.fresh plainKey [] [⟨1, false⟩]))
      (uploadThenDelete (Uuid.repeated 10).toUpper 8)).any dangles = true := by decide +kernel
  obtain ⟨cfg, reachable, holds⟩ := runChecked_any (fun _ _ _ => trivial) ran
  simp only [dangles, Option.any_eq_true, Option.isNone_iff_eq_none] at holds
  obtain ⟨row, found, target, active, missing⟩ := holds
  obtain ⟨deployment, present, _⟩ := always cfg reachable _ row target found active
  rw [missing] at present
  cases present

/-- Checks of one event that every deletion is asked for by a canonical text. -/
def spelledOut : HubEvent → Bool
  | .start _ (.deleteDeployment _ text) => decide (Uuid.Canonical text)
  | .act _ (.deleteDeployment _ text) (.query (.appById _)) _ _ => decide (Uuid.Canonical text)
  | .act _ (.deleteDeploymentWithContainers _ text) (.query (.appById _)) _ _ =>
      decide (Uuid.Canonical text)
  | _ => true

theorem spelledOut_sound (checked : spelledOut event = true) : ActiveSpelledOut w event := by
  intro thread call appText text id choice row target deletes eq _ _ _
  subst eq
  rcases deletes with rfl | rfl <;> exact of_decide_eq_true checked

theorem active_pointer_integrity_refusal : ∃ cfg : HubConfig,
    (app? cfg.world (Uuid.repeated 1)).any
      (fun row => row.activeDeploymentId = some (Uuid.repeated 10)) = true ∧
    Pointed cfg.world := by
  have ran : (runChecked (hub 1000) (fun _ event => spelledOut event)
      (Config.idle (State.fresh plainKey [] [⟨1, false⟩]))
      (uploadThenDelete (Uuid.repeated 10).toString 4)).any (fun cfg =>
        (app? cfg.world (Uuid.repeated 1)).any
          fun row => row.activeDeploymentId = some (Uuid.repeated 10)) = true := by decide +kernel
  obtain ⟨cfg, reachable, holds⟩ := runChecked_any (fun _ _ => spelledOut_sound) ran
  exact ⟨cfg, holds, (active_pointer_integrity State.blank_fresh reachable).1⟩

end Berth
