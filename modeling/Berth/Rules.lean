import Berth.Frames

/-!
The rules for single actions and for the write lock, in every discipline that keeps the ledger.
-/

namespace Berth

open Interleave Interleave.Discipline

/-- Taking the write lock and giving it back. -/
def Act.Locks : Act → Prop
  | .lock | .unlock => True
  | _ => False

theorem Act.Locks.gentle {action : Act} (locks : action.Locks) : action.Gentle := by
  cases action <;> trivial

variable {limit thread : Nat} {call : Call} {D : Discipline Act Act.Res Call Reply State Choice}
variable {acts : Act → Prop} {calls : Call → Prop} {fact : HubWorld → Prop} {w : HubWorld}
variable {α : Type}

/-- One step of the thread: why it may take it, and what holds afterwards. -/
theorem safe_action (grounded : Grounded D) {action : Act} {post : action.Res → HubWorld → Prop}
    (lasting : Lasting limit thread call acts calls fact) (holds : fact w)
    (runs : ∀ (w₀ : HubWorld) choice result w', fact w₀ → D.Ready thread call w₀ →
      w₀.Moves (hub limit) (.act thread call action choice result) w' →
      D.Allowed w₀ (.act thread call action choice result) →
        D.Permit w₀ (.act thread call action choice result) ∧
          (Around limit thread call w₀ (.act thread call action choice result) w' →
            D.Ready thread call w' → post result w')) :
    Safe (hub limit) D thread call (act action) post w := by
  refine Safe.perform (lasting.frame grounded).stable holds ?_
  intro w₀ choice result w' before ready moves allowed
  obtain ⟨permit, after⟩ := runs w₀ choice result w' before ready moves allowed
  refine ⟨permit, fun readyAfter => after ⟨moves, ready.numbered, ?_, ?_, ready.member,
    readyAfter.member⟩ readyAfter⟩
  · exact grounded.ledger w₀ _ ready.inv allowed
  · exact grounded.permitted w₀ _ allowed fun _ => permit

theorem locked_after {choice : Choice} {w' : HubWorld} {result : Act.lock.Res}
    (moves : w.Moves (hub limit) (.act thread call .lock choice result) w') : Locked w' thread := by
  have performed := act_performed moves
  simp only [perform] at performed
  split at performed
  · cases performed
  · have lock := congrArg State.lock (congrArg Prod.snd (Option.some.inj performed))
    exact lock.symm

/-- What holds before the lock is taken holds inside, and what holds inside still holds when the
lock has been given back. -/
theorem safe_withWriteLock (grounded : Grounded D)
    (free : Free (hub limit) D thread call Act.Locks fun _ => False) {body : AsyncResult α}
    {post : AppResult α → HubWorld → Prop}
    (before : Lasting limit thread call Act.Locks (fun _ => False) fact)
    (after : ∀ outcome, Lasting limit thread call Act.Locks (fun _ => False) (post outcome))
    (holds : fact w)
    (inside : ∀ w', fact w' → Locked w' thread →
      Safe (hub limit) D thread call body.run post w') :
    Safe (hub limit) D thread call (withWriteLock body).run post w := by
  have locks : Act.lock.Locks ∧ Act.unlock.Locks := ⟨trivial, trivial⟩
  refine Safe.bind (safe_action grounded before holds fun w₀ choice _ w' fact₀ ready moves allowed =>
    ⟨free w₀ _ w' (.act locks.1) ready moves allowed, fun around _ => ?_⟩)
  have fact' := before _ _ _ around (fun _ => .act locks.1) fact₀
  refine Safe.bind ((inside w' fact' (locked_after moves)).mono fun outcome w₁ done => ?_)
  refine Safe.bind (safe_action grounded (after outcome) done fun w₂ choice _ w₃ done ready moves
    allowed => ⟨free w₂ _ w₃ (.act locks.2) ready moves allowed, fun around _ => ?_⟩)
  exact after outcome _ _ _ around (fun _ => .act locks.2) done

end Berth
