import Berth.Executors

/-!
The statuses that are written last. An executor writes one status; a reconciliation pass writes
Failed over what it has listed as Pending some time ago, whoever has the deployment in hand.
-/

namespace Berth

open Interleave

variable {limit thread : Nat} {w w' : HubWorld} {event : HubEvent} {id : Uuid}

/-- The thread has listed the deployment as Pending while somebody had it in hand. -/
def ListedBusy (w : HubWorld) (thread : Nat) (id : Uuid) : Prop :=
  ∃ earlier call appId choice, ∃ rows : List DeploymentRow, ∃ row ∈ rows,
    w.Occurred earlier (.act thread call (.query (.deploymentsOf appId)) choice (.ok rows)) ∧
      row.id = id ∧ row.status = .pending ∧ Busy earlier id

/-- No reconciliation pass writes the status of a deployment that somebody had in hand when the pass
listed it. -/
def Considerate (w : HubWorld) (event : HubEvent) : Prop :=
  ∀ thread id status failureError choice,
    event = .act thread .onAgentConnected (.query (.updateStatus id status failureError)) choice
      (.ok ()) → ¬ ListedBusy w thread id

/-- Nobody has the deployment in hand any more. It is Pending, or a pass has failed it. -/
structure Abandoned (w : HubWorld) (id : Uuid) : Prop where
  recorded : Recorded w id
  idle : ¬ Busy w id
  status : ∀ row, deployment? w id = some row →
    row.status = .pending ∨ row.status = .failed ∧ row.failureError = some interrupted

/-- What is in hand is Pending until its executor writes its status, and what a pass has listed as
Pending while it was in nobody's hands is left to the passes. -/
structure Unfinished (w : HubWorld) : Prop where
  starting : ∀ thread id row, Starting w thread id → deployment? w id = some row →
    row.status = .pending
  running : ∀ thread id row, Running w thread id → ¬ Settled w thread id →
    deployment? w id = some row → row.status = .pending
  listed : ∀ earlier thread call appId choice, ∀ rows : List DeploymentRow, ∀ row ∈ rows,
    w.Occurred earlier (.act thread call (.query (.deploymentsOf appId)) choice (.ok rows)) →
      row.status = .pending → ¬ Busy earlier row.id → Abandoned w row.id

theorem busy_congr {earlier : HubWorld} (live : earlier.live = w.live)
    (history : earlier.history = w.history) : Busy earlier id ↔ Busy w id := by
  simp [Busy, Starting, Running, Inserted, Forked, World.Did, live, history]

/-- A pass that may write the status has listed what is abandoned now. -/
theorem Unfinished.abandoned (unfinished : Unfinished w) (listed : Listed w thread id)
    (patient : ¬ ListedBusy w thread id) : Abandoned w id := by
  obtain ⟨earlier, past, occurred, call, appId, choice, rows, row, among, rfl, rfl, pending⟩ :=
    listed.occurred
  exact unfinished.listed earlier thread call appId choice rows row among occurred pending
    fun busy => patient ⟨earlier, call, appId, choice, rows, row, among, occurred, rfl, pending, busy⟩

/-- A status is written over Pending, or over the same. -/
theorem Unfinished.step (unfinished : Unfinished w) (moves : w.Moves (hub limit) event w')
    (permitted : Permitted w event) (considerate : Considerate w event) {old new : DeploymentRow}
    (found : deployment? w id = some old) (step : DeploymentStep id old new event) :
    (new.status = old.status ∧ new.failureError = old.failureError) ∨
      (old.status = .pending ∧ ∃ thread, Running w thread id ∧ Settled w' thread id) ∨
      old.status = .pending ∧ new.status = .failed ∧ new.failureError = some interrupted ∧
        ¬ Busy w id := by
  rcases step.status with same | ⟨thread, wrote⟩
  · exact .inl same
  rcases permitted.settles moves wrote with
    ⟨running, unsettled, settled⟩ | ⟨failed, error, listed, choice, rfl⟩
  · exact .inr (.inl ⟨unfinished.running thread id old running unsettled found, thread, running,
      settled⟩)
  · have abandoned := unfinished.abandoned listed (considerate _ _ _ _ _ rfl)
    rcases abandoned.status old found with pending | ⟨wasFailed, wasInterrupted⟩
    · exact .inr (.inr ⟨pending, failed, error, abandoned.idle⟩)
    · exact .inl ⟨failed.trans wasFailed.symm, error.trans wasInterrupted.symm⟩

theorem Abandoned.moves (abandoned : Abandoned w id) (unfinished : Unfinished w)
    (numbered : w.Numbered) (ledger : Ledger w) (moves : w.Moves (hub limit) event w')
    (permitted : Permitted w event) (considerate : Considerate w event) : Abandoned w' id := by
  refine ⟨abandoned.recorded.moves moves,
    idle_moves abandoned.recorded abandoned.idle numbered ledger moves permitted, ?_⟩
  intro row found
  obtain ⟨old, before, step⟩ := abandoned.recorded.before ledger.rows moves permitted found
  rcases unfinished.step moves permitted considerate before step with
    ⟨same, sameError⟩ | ⟨_, thread, running, _⟩ | ⟨_, failed, error, _⟩
  · rw [same, sameError]
    exact abandoned.status old before
  · exact absurd ⟨thread, .inr running⟩ abandoned.idle
  · exact .inr ⟨failed, error⟩

/-- What is in hand stays Pending as long as it is not settled. -/
theorem Unfinished.still_pending (unfinished : Unfinished w) (ledger : Ledger w)
    (moves : w.Moves (hub limit) event w') (permitted : Permitted w event)
    (considerate : Considerate w event) (busy : Busy w id)
    (unsettled : ∀ thread, Running w thread id → ¬ Settled w' thread id)
    {row : DeploymentRow} (found : deployment? w' id = some row) : row.status = .pending := by
  obtain ⟨old, before, step⟩ :=
    (ledger.busy_recorded busy).before ledger.rows moves permitted found
  have pending : old.status = .pending := by
    obtain ⟨thread, starting | running⟩ := busy
    · exact unfinished.starting thread id old starting before
    · exact unfinished.running thread id old running
        (fun settled => unsettled thread running (moves.did settled)) before
  rcases unfinished.step moves permitted considerate before step with
    ⟨same, _⟩ | ⟨_, thread, running, settled⟩ | ⟨_, _, _, idle⟩
  · exact same.trans pending
  · exact absurd settled (unsettled thread running)
  · exact absurd busy idle

theorem Unfinished.moves (unfinished : Unfinished w) (numbered : w.Numbered) (ledger : Ledger w)
    (moves : w.Moves (hub limit) event w') (permitted : Permitted w event)
    (considerate : Considerate w event) : Unfinished w' := by
  refine ⟨?_, ?_, ?_⟩
  · intro thread id row starting found
    rcases starting.before numbered moves permitted with before | ⟨inserted, wrote, sameId⟩
    · have alone : ∀ other, Running w other id → ¬ Settled w' other id :=
        fun other running => absurd running (ledger.not_both before)
      exact unfinished.still_pending ledger moves permitted considerate ⟨thread, .inl before⟩ alone
        found
    · -- the call has just inserted its row
      obtain ⟨appText, _, live, _⟩ := starting
      have after := ledger.moves numbered moves permitted
      rcases (rowsChange moves).deployment_before found with ⟨old, before, _⟩ | ⟨_, _, other, wrote'⟩
      · obtain ⟨other, origin, was, originId, _⟩ := ledger.rows.origin id old before
        exact absurd wrote (Recorded.not_inserted ⟨other, origin, was, originId⟩ ledger.rows
          permitted sameId)
      · cases (wrote_inj wrote wrote').2
        exact (after.crew.starter thread appText row live ((inserted_iff moves).2 (.inl wrote))).1
  · intro thread id row running unsettled found
    have busy : Busy w id := by
      rcases running.before moves permitted with before | ⟨forker, before⟩
      · exact ⟨thread, .inr before⟩
      · exact ⟨forker, .inl before⟩
    refine unfinished.still_pending ledger moves permitted considerate busy ?_ found
    intro other others settled
    rcases running.before moves permitted with before | ⟨forker, before⟩
    · cases ledger.running_unique before others
      exact unsettled settled
    · exact ledger.not_both before others
  · intro earlier thread call appId choice rows row among occurred pending idle
    rcases moves.occurred_cases occurred with ⟨rfl, _, live, history⟩ | before
    · have idle : ¬ Busy w row.id := fun busy => idle ((busy_congr live history).2 busy)
      have found : deployment? w row.id = some row := by
        cases (read_answer rfl moves).2
        exact (Database.mem_deploymentsOf.1 among).1
      have recorded : Recorded w row.id := by
        obtain ⟨inserter, first, inserted, sameId, _⟩ := ledger.rows.origin row.id row found
        exact ⟨inserter, first, inserted, sameId⟩
      exact Abandoned.moves ⟨recorded, idle, fun other found' => .inl (by
        rw [found] at found'
        cases found'
        exact pending)⟩ unfinished numbered ledger moves permitted considerate
    · exact (unfinished.listed earlier thread call appId choice rows row among before pending
        idle).moves unfinished numbered ledger moves permitted considerate

/-- Whatever has a status that is written last keeps it. -/
def Keeps (w w' : HubWorld) : Prop :=
  ∀ id old new, deployment? w id = some old → deployment? w' id = some new →
    old.status ≠ .pending → new.status = old.status ∧ new.failureError = old.failureError

/-- No pass has written the status of a deployment whose executor was running. -/
def ExecutorsSpared (w : HubWorld) : Prop :=
  ∀ earlier thread id status failureError choice, w.Occurred earlier (.act thread .onAgentConnected
    (.query (.updateStatus id status failureError)) choice (.ok ())) →
      ∀ executor, ¬ Running earlier executor id

theorem Unfinished.keeps (unfinished : Unfinished w) (moves : w.Moves (hub limit) event w')
    (permitted : Permitted w event) (considerate : Considerate w event) {old new : DeploymentRow}
    (found : deployment? w id = some old) (step : DeploymentStep id old new event)
    (written : old.status ≠ .pending) :
    new.status = old.status ∧ new.failureError = old.failureError := by
  rcases unfinished.step moves permitted considerate found step with
    same | ⟨pending, _⟩ | ⟨pending, _⟩
  · exact same
  · exact absurd pending written
  · exact absurd pending written

theorem Unfinished.spares (unfinished : Unfinished w) {status : DeploymentState}
    {failureError : Option String} {choice : Choice} {executor : Nat} (isWrite : event = .act thread .onAgentConnected
      (.query (.updateStatus id status failureError)) choice (.ok ()))
    (permitted : Permitted w event) (considerate : Considerate w event) :
    ¬ Running w executor id := by
  subst isWrite
  intro running
  obtain ⟨_, becomes⟩ := permitted.writes _ _ _ _ _ rfl
  cases becomes with
  | interrupted listed =>
      have abandoned := unfinished.abandoned listed (considerate _ _ _ _ _ rfl)
      exact abandoned.idle ⟨executor, .inr running⟩

theorem unfinished_reachable {state : State} (blank : state.Blank) {cfg : HubConfig}
    (reachable : Reachable (hub limit) Considerate (Config.idle state) cfg) :
    Unfinished cfg.world ∧ ExecutorsSpared cfg.world := by
  refine invariant_of_meets (fun w => Unfinished w ∧ ExecutorsSpared w) blank ⟨⟨?_, ?_, ?_⟩, ?_⟩ ?_
    reachable
  · rintro thread id row ⟨_, _, live, _⟩
    cases live
  · rintro thread id row ⟨_, _, live⟩
    cases live
  · rintro earlier thread call appId choice rows row among ⟨newer, eq⟩
    simp [Config.world, Config.idle, World.record] at eq
  · rintro earlier thread id status failureError choice ⟨newer, eq⟩
    simp [Config.world, Config.idle, World.record] at eq
  · rintro w event w' meets moves ⟨unfinished, spared⟩
    refine ⟨unfinished.moves meets.numbered meets.ledger moves meets.permitted meets.condition, ?_⟩
    intro earlier thread id status failureError choice occurred executor running
    rcases moves.occurred_cases occurred with ⟨isWrite, _, live, _⟩ | before
    · have running : Running w executor id := by simpa [Running, live] using running
      exact unfinished.spares isWrite.symm meets.permitted meets.condition running
    · exact spared earlier thread id status failureError choice before executor running

theorem keeps_reachable {state : State} (blank : state.Blank) {cfg cfg' : HubConfig}
    (reachable : Reachable (hub limit) Considerate (Config.idle state) cfg)
    (later : Reachable (hub limit) Considerate cfg cfg') : Keeps cfg.world cfg'.world := by
  have recorded : ∀ {cfg' : HubConfig} {id row}, Reachable (hub limit) Considerate cfg cfg' →
      deployment? cfg.world id = some row → Recorded cfg'.world id := by
    intro cfg' id row later found
    have ledger := reachable_ledger blank reachable
    obtain ⟨inserter, first, inserted, sameId, _⟩ := ledger.rows.origin id row found
    clear found ledger
    induction later with
    | refl => exact ⟨inserter, first, inserted, sameId⟩
    | step _ executed _ ih => exact ih.moves (Config.exec_executes executed).moves
  induction later with
  | refl =>
      intro id old new found found' _
      rw [found] at found'
      cases found'
      exact ⟨rfl, rfl⟩
  | @step middle last command event before executed considerate ih =>
      intro id old new found found' written
      have reached := reachable.trans before
      have executes := Config.exec_executes executed
      have meets := meets_next blank reached executes considerate
      obtain ⟨between, foundBetween, step⟩ :=
        (recorded before found).before meets.ledger.rows executes.moves meets.permitted found'
      obtain ⟨same, sameError⟩ := ih id old between found foundBetween written
      obtain ⟨same', sameError'⟩ := (unfinished_reachable blank reached).1.keeps executes.moves
        meets.permitted considerate foundBetween step (same ▸ written)
      exact ⟨same'.trans same, sameError'.trans sameError⟩

/-- In a run in which no pass writes the status of a deployment that somebody had in hand when the
pass listed it, the statuses Ready and Failed are permanent, and no pass fails a deployment whose
executor is still running. -/
theorem terminal_statuses_permanent {state : State} (blank : state.Blank) {cfg cfg' : HubConfig}
    (reachable : Reachable (hub limit) Considerate (Config.idle state) cfg)
    (later : Reachable (hub limit) Considerate cfg cfg') :
    Keeps cfg.world cfg'.world ∧ ExecutorsSpared cfg'.world :=
  ⟨keeps_reachable blank reachable later,
    (unfinished_reachable blank (reachable.trans later)).2⟩

/-- One app with a static site in a repository, and a deployment of it that has just been forked. -/
def siteDeployment : List (Command Call Choice) :=
  let app := Uuid.repeated 1
  let plain : Choice := {}
  .start .startup :: steps 0 7 plain ++
  .start (.createApp "app" (.git ⟨"https://git/app", "main", .static none⟩) [] none 1) ::
    steps 1 13 { id := app } ++
  .start (.startGitDeployment app.toString) :: steps 2 9 { id := Uuid.repeated 2 }

/-- A pass that fails the deployment, and its executor up to the last write. -/
def passDuringDeployment : List (Command Call Choice) :=
  let plain : Choice := {}
  .start .onAgentConnected :: steps 4 8 plain ++ steps 3 26 { entries := [[.text ".git"]] }

def statusOf (w : HubWorld) (id : Uuid) : Option DeploymentState :=
  (deployment? w id).map DeploymentRow.status

/-- The next step of the thread makes the deployment Ready, which is Failed. -/
def revives (cfg : HubConfig) (thread : Nat) (id : Uuid) : Bool :=
  match cfg.exec (hub 1000) (.step thread {}) with
  | some (_, next) =>
      statusOf cfg.world id = some .failed ∧ statusOf next.world id = some .ready
  | none => false

theorem failed_turns_ready : ¬ ∀ cfg cfg',
    Reachable (hub 1000) (fun _ _ => True)
      (Config.idle (State.fresh plainKey [] [⟨1, false⟩])) cfg →
    Reachable (hub 1000) (fun _ _ => True) cfg cfg' →
      Keeps cfg.world cfg'.world ∧ ExecutorsSpared cfg'.world := by
  intro always
  have ran : (runChecked (hub 1000) (fun _ _ => true)
      (Config.idle (State.fresh plainKey [] [⟨1, false⟩]))
      (siteDeployment ++ passDuringDeployment)).any (revives · 3 (Uuid.repeated 2)) = true := by
    decide +kernel
  obtain ⟨cfg, reachable, revived⟩ := runChecked_any (fun _ _ _ => trivial) ran
  unfold revives at revived
  split at revived
  · rename_i event next executed
    simp only [Bool.decide_and, Bool.and_eq_true, decide_eq_true_eq, statusOf,
      Option.map_eq_some_iff] at revived
    obtain ⟨⟨old, found, failed⟩, new, found', ready⟩ := revived
    have kept := (always cfg next reachable (.step .refl executed trivial)).1 _ old new found found'
      (by simp [failed])
    rw [failed, ready] at kept
    cases kept.1
  · cases revived

/-- The call is one that has deployments in hand. -/
def Call.deploys : Call → Bool
  | .startGitDeployment _ | .runGitDeployment _ _ _ => true
  | _ => false

/-- Checks of one event that it is not the write of a pass that listed anything while a deployment
was in hand. -/
def considerate (w : HubWorld) : HubEvent → Bool
  | .act thread .onAgentConnected (.query (.updateStatus _ _ _)) _ _ =>
      w.history.all fun moment =>
        match moment.event with
        | .act other _ (.query (.deploymentsOf _)) _ _ =>
            other ≠ thread || moment.live.all fun entry => !entry.2.deploys
        | _ => true
  | _ => true

theorem considerate_sound (checked : considerate w event = true) : Considerate w event := by
  rintro thread id status failureError choice rfl
  rintro ⟨earlier, call, appId, choice', rows, row, _, ⟨newer, eq⟩, rfl, _, other, busy⟩
  have among : (⟨earlier.shared, earlier.live, .act thread call (.query (.deploymentsOf appId)) choice'
      (.ok rows)⟩ : Moment _ _ _ _ _ _) ∈ w.history := by simp [eq, World.record]
  have quiet := List.all_eq_true.1 checked _ among
  simp only [ne_eq, not_true_eq_false, decide_false, Bool.false_or, List.all_eq_true] at quiet
  rcases busy with ⟨_, _, live, _⟩ | ⟨_, _, live⟩
  · simpa [Call.deploys] using quiet _ live
  · simpa [Call.deploys] using quiet _ live

/-- The hub stops while it deploys, and a pass fails what is left. -/
def stopDuringDeployment : List (Command Call Choice) :=
  let plain : Choice := {}
  .restart :: .start .startup :: steps 4 9 plain ++ .start .onAgentConnected :: steps 5 8 plain

/-- The next deployment, from its first step to its last. -/
def nextDeployment : List (Command Call Choice) :=
  .start (.startGitDeployment (Uuid.repeated 1).toString) :: steps 6 9 { id := Uuid.repeated 3 } ++
  steps 7 27 { entries := [[.text ".git"]] }

theorem terminal_statuses_permanent_restarted : ∃ cfg cfg' : HubConfig,
    statusOf cfg.world (Uuid.repeated 2) = some .failed ∧
      statusOf cfg'.world (Uuid.repeated 3) = some .ready ∧
        Keeps cfg.world cfg'.world ∧ ExecutorsSpared cfg'.world := by
  have ran : (runChecked (hub 1000) considerate (Config.idle (State.fresh plainKey [] [⟨1, false⟩]))
      (siteDeployment ++ stopDuringDeployment)).any (fun cfg =>
        statusOf cfg.world (Uuid.repeated 2) = some .failed &&
          (runChecked (hub 1000) considerate cfg nextDeployment).any fun cfg' =>
            statusOf cfg'.world (Uuid.repeated 3) = some .ready) = true := by decide +kernel
  obtain ⟨cfg, reachable, holds⟩ := runChecked_any (fun _ _ => considerate_sound) ran
  obtain ⟨failed, goesOn⟩ := Bool.and_eq_true_iff.1 holds
  obtain ⟨cfg', later, ready⟩ := runChecked_any (fun _ _ => considerate_sound) goesOn
  exact ⟨cfg, cfg', of_decide_eq_true failed, of_decide_eq_true ready,
    terminal_statuses_permanent State.blank_fresh reachable later⟩

end Berth
