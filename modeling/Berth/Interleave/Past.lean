import Berth.Interleave.System

/-!
The order of events in a history: a thread that acts after a moment, and had acted before it, was
alive in that moment.
-/

namespace Interleave

variable {Act : Type} {Res : Act → Type} {Call Reply State Choice : Type}

namespace World

/-- Whoever is alive and has acted before a moment of the history was alive in that moment. -/
def AliveSince (live : List (Nat × Call)) (history : List (Moment Act Res Call Reply State Choice)) :
    Prop :=
  ∀ newer moment older, history = newer ++ moment :: older → ∀ entry ∈ live,
    (∃ past ∈ older, past.event.thread = some entry.1) → entry ∈ moment.live

structure Chronicle (w : World Act Res Call Reply State Choice) : Prop where
  now : AliveSince w.live w.history
  past : ∀ newer moment older, w.history = newer ++ moment :: older → AliveSince moment.live older
  finishing : ∀ moment ∈ w.history, ∀ thread call reply,
    moment.event = .finish thread call reply → (thread, call) ∈ moment.live

variable {sem : Semantics Act Res Call Reply State Choice}
variable {w w' : World Act Res Call Reply State Choice} {event : Event Act Res Call Reply Choice}

theorem chronicle_of_no_past (noPast : w.history = []) : w.Chronicle := by
  refine ⟨?_, ?_, ?_⟩
  · intro newer moment older eq
    simp [noPast] at eq
  · intro newer moment older eq
    simp [noPast] at eq
  · intro moment member
    simp [noPast] at member

/-- A thread that is alive after a step, and has acted before it, was alive before it. -/
theorem Moves.live_before (numbered : w.Numbered) (moves : w.Moves sem event w')
    {entry : Nat × Call} (live : entry ∈ w'.live)
    (acted : ∃ past ∈ w.history, past.event.thread = some entry.1) : entry ∈ w.live := by
  obtain ⟨past, member, same⟩ := acted
  have known := numbered.past_lt past member entry.1 same
  rcases moves.live_cases live with old | ⟨eq, _⟩ | ⟨eq, _⟩
  · exact old
  · omega
  · omega

theorem Chronicle.moves (chronicle : w.Chronicle) (numbered : w.Numbered)
    (moves : w.Moves sem event w') : w'.Chronicle := by
  have history := moves.history
  refine ⟨?_, ?_, ?_⟩
  · intro newer moment older eq entry live acted
    rw [history, record] at eq
    rcases List.cons_eq_append_iff.1 eq with ⟨_, eq⟩ | ⟨newer', _, eq⟩
    · cases eq
      exact moves.live_before numbered live acted
    · obtain ⟨past, member, same⟩ := acted
      have before : entry ∈ w.live :=
        moves.live_before numbered live ⟨past, by rw [eq]; simp [member], same⟩
      exact chronicle.now newer' moment older eq entry before ⟨past, member, same⟩
  · intro newer moment older eq
    rw [history, record] at eq
    rcases List.cons_eq_append_iff.1 eq with ⟨_, eq⟩ | ⟨newer', _, eq⟩
    · cases eq
      exact chronicle.now
    · exact chronicle.past newer' moment older eq
  · intro moment member thread call reply finished
    rw [history, record] at member
    rcases List.mem_cons.1 member with rfl | old
    · cases moves <;> cases finished
      assumption
    · exact chronicle.finishing moment old thread call reply finished

/-- A thread that finishes, and had acted before some earlier moment, was alive in that moment. -/
theorem Chronicle.alive_between (chronicle : w.Chronicle)
    {newest newer before : List (Moment Act Res Call Reply State Choice)}
    {finish middle past : Moment Act Res Call Reply State Choice}
    (order : w.history = newest ++ finish :: (newer ++ middle :: before)) {thread : Nat} {call : Call}
    {reply : Reply} (finished : finish.event = .finish thread call reply) (member : past ∈ before)
    (acted : past.event.thread = some thread) : (thread, call) ∈ middle.live := by
  have live := chronicle.finishing finish (by simp [order]) thread call reply finished
  exact chronicle.past newest finish _ order newer middle before rfl _ live ⟨past, member, acted⟩

/-- No thread whose call has returned is alive. -/
def Retired (w : World Act Res Call Reply State Choice) : Prop :=
  ∀ thread call reply, w.Did (· = .finish thread call reply) → ∀ other, (thread, other) ∉ w.live

theorem Retired.moves (retired : w.Retired) (numbered : w.Numbered)
    (moves : w.Moves sem event w') : w'.Retired := by
  intro thread call reply finished other live
  rcases (moves.did_iff _).1 finished with rfl | before
  · cases moves with
    | finish member => exact (mem_without.1 live).2 rfl
  · obtain ⟨past, member, eq⟩ := before
    have acted : past.event.thread = some thread := by rw [eq]; rfl
    exact retired thread call reply ⟨past, member, eq⟩ other
      (moves.live_before numbered live ⟨past, member, acted⟩)

end World

end Interleave
