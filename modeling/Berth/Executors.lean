import Berth.Conditions

/-!
In whose hands a git deployment is: first in those of the call that inserts its row, then in those
of the executor that the call forks. Both hand it on at most once.
-/

namespace Berth

open Interleave

variable {limit thread other : Nat} {w w' : HubWorld} {event : HubEvent} {id : Uuid}

/-- The call that inserted the row has still to fork the executor. -/
def Starting (w : HubWorld) (thread : Nat) (id : Uuid) : Prop :=
  ∃ appText row, (thread, .startGitDeployment appText) ∈ w.live ∧ Inserted w thread row ∧
    row.id = id ∧ ∀ child, ¬ Forked w thread child

/-- The task of an executor has not returned. -/
def Running (w : HubWorld) (thread : Nat) (id : Uuid) : Prop :=
  ∃ appText gitSource, (thread, .runGitDeployment appText id.toString gitSource) ∈ w.live

/-- Somebody has the deployment in hand. -/
def Busy (w : HubWorld) (id : Uuid) : Prop :=
  ∃ thread, Starting w thread id ∨ Running w thread id

theorem Crew.forker (crew : Crew w) (running : Running w thread id) :
    ∃ forker row, Forked w forker thread ∧ Inserted w forker row ∧ row.id = id ∧
      row.status = .pending := by
  obtain ⟨appText, gitSource, live⟩ := running
  obtain ⟨forker, row, forked, inserted, pending, text, _⟩ := crew.executor _ _ _ _ live
  exact ⟨forker, row, forked, inserted, (Uuid.toString_injective text).symm, pending⟩

theorem Rows.inserter (rows : Rows w) {row row' : DeploymentRow} (inserted : Inserted w thread row)
    (inserted' : Inserted w other row') (same : row.id = row'.id) : thread = other := by
  have drawn := rows.drawn thread row inserted
  rw [same, rows.drawn other row' inserted'] at drawn
  exact (Option.some.inj drawn).symm

/-- A deployment has one executor. -/
theorem Ledger.running_unique (ledger : Ledger w) (running : Running w thread id)
    (running' : Running w other id) : thread = other := by
  obtain ⟨forker, row, forked, inserted, sameId, _⟩ := ledger.crew.forker running
  obtain ⟨forker', row', forked', inserted', sameId', _⟩ := ledger.crew.forker running'
  have same := ledger.rows.inserter inserted inserted' (sameId.trans sameId'.symm)
  exact ledger.crew.forkOnce forker thread other forked (same ▸ forked')

theorem Ledger.starting_unique (ledger : Ledger w) (starting : Starting w thread id)
    (starting' : Starting w other id) : thread = other := by
  obtain ⟨_, row, _, inserted, sameId, _⟩ := starting
  obtain ⟨_, row', _, inserted', sameId', _⟩ := starting'
  exact ledger.rows.inserter inserted inserted' (sameId.trans sameId'.symm)

theorem Ledger.not_both (ledger : Ledger w) (starting : Starting w thread id) :
    ¬ Running w other id := by
  intro running
  obtain ⟨_, row, _, inserted, sameId, unforked⟩ := starting
  obtain ⟨forker, row', forked, inserted', sameId', _⟩ := ledger.crew.forker running
  have same := ledger.rows.inserter inserted inserted' (sameId.trans sameId'.symm)
  exact unforked other (same ▸ forked)

theorem Ledger.busy_recorded (ledger : Ledger w) (busy : Busy w id) : Recorded w id := by
  obtain ⟨thread, ⟨_, row, _, inserted, sameId, _⟩ | running⟩ := busy
  · exact ⟨thread, row, inserted, sameId⟩
  · obtain ⟨forker, row, _, inserted, sameId, _⟩ := ledger.crew.forker running
    exact ⟨forker, row, inserted, sameId⟩

/-- A call that has a deployment in hand had it before, unless it has just inserted the row. -/
theorem Starting.before (starting : Starting w' thread id) (numbered : w.Numbered)
    (moves : w.Moves (hub limit) event w') (permitted : Permitted w event) :
    Starting w thread id ∨ ∃ row, Wrote thread (.insertDeployment row) event ∧ row.id = id := by
  obtain ⟨appText, row, live, inserted, sameId, unforked⟩ := starting
  rcases (inserted_iff moves).1 inserted with wrote | inserted
  · exact .inr ⟨row, wrote, sameId⟩
  refine .inl ⟨appText, row, ?_, inserted, sameId, fun child forked =>
    unforked child ((forked_iff moves).2 (.inr forked))⟩
  rcases moves.live_cases live with old | ⟨rfl, _, _⟩ | ⟨rfl, parent, forking, rfl, _⟩
  · exact old
  · exact absurd inserted (numbered.not_did fun _ wrote => wrote.thread)
  · obtain ⟨_, _, _, _, _, isRun, _⟩ := permitted.forks _ _ _ _ rfl
    cases isRun

/-- An executor was running before, or it has just been forked. -/
theorem Running.before (running : Running w' thread id) (moves : w.Moves (hub limit) event w')
    (permitted : Permitted w event) : Running w thread id ∨ ∃ forker, Starting w forker id := by
  obtain ⟨appText, gitSource, live⟩ := running
  rcases moves.live_cases live with old | ⟨_, _, admitted⟩ | ⟨_, forker, forking, rfl, forkerLive⟩
  · exact .inl ⟨appText, gitSource, old⟩
  · exact absurd admitted (by simp [hub, admits])
  · obtain ⟨unforked, startText, row, _, isStart, isRun, inserted, _⟩ :=
      permitted.forks _ _ _ _ rfl
    cases isStart
    simp only [Call.runGitDeployment.injEq] at isRun
    exact .inr ⟨forker, startText, row, forkerLive, inserted,
      (Uuid.toString_injective isRun.2.1).symm, unforked⟩

/-- A deployment that nobody has in hand stays so. -/
theorem idle_moves (recorded : Recorded w id) (idle : ¬ Busy w id) (numbered : w.Numbered)
    (ledger : Ledger w) (moves : w.Moves (hub limit) event w') (permitted : Permitted w event) :
    ¬ Busy w' id := by
  rintro ⟨thread, starting | running⟩
  · rcases starting.before numbered moves permitted with before | ⟨row, wrote, sameId⟩
    · exact idle ⟨thread, .inl before⟩
    · exact recorded.not_inserted ledger.rows permitted sameId wrote
  · rcases running.before moves permitted with before | ⟨forker, before⟩
    · exact idle ⟨thread, .inr before⟩
    · exact idle ⟨forker, .inl before⟩

/-- Whoever writes the status of a deployment is its executor, or a pass. -/
theorem Permitted.settles (permitted : Permitted w event) (moves : w.Moves (hub limit) event w')
    {status : DeploymentState} {failureError : Option String}
    (wrote : Wrote thread (.updateStatus id status failureError) event) :
    (Running w thread id ∧ ¬ Settled w thread id ∧ Settled w' thread id) ∨
      (status = .failed ∧ failureError = some interrupted ∧ Listed w thread id ∧
        ∃ choice, event = .act thread .onAgentConnected
          (.query (.updateStatus id status failureError)) choice (.ok ())) := by
  obtain ⟨call, choice, value, rfl⟩ := wrote
  have settled : Settled w' thread id :=
    (moves.did_iff _).2 (.inl ⟨status, failureError, wrote_act ..⟩)
  have live : (thread, call) ∈ w.live := by
    cases moves with
    | act member _ => exact member
  obtain ⟨_, becomes⟩ := permitted.writes _ _ _ _ _ rfl
  cases becomes with
  | @executor appId gitSource _ _ first _ => exact .inl ⟨⟨appId, gitSource, live⟩, first, settled⟩
  | interrupted listed => exact .inr ⟨rfl, rfl, listed, choice, rfl⟩

end Berth
