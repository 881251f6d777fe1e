import Mathlib.Data.List.Induction
import Mathlib.Data.List.TakeWhile
import Mathlib.Logic.Function.Basic
import Berth.Auth.Requests

/-!
The lockout after failed logins. The hub keeps one counter for each address; what it answers is
what the history of that address alone says.
-/

namespace Berth.Auth.Lockout

open Interleave

variable {Ip : Type} [DecidableEq Ip]

/-- `login_attempts`. -/
abbrev Attempts (Ip : Type) : Type := Ip → Option LoginAttempts

/-- What `check_login_lockout` makes of the entry it finds. -/
def lockout (entry : Option LoginAttempts) (now : Int) : AppResult Unit :=
  match entry with
  | none => .ok ()
  | some attempts =>
      let elapsed := now - attempts.windowStart
      if elapsed > loginLockoutWindowSecs ∨ attempts.count < loginMaxFailures then .ok ()
      else .error (.tooManyLoginAttempts ((loginLockoutWindowSecs - elapsed + 59).tdiv 60))

def checkLoginLockout (attempts : Attempts Ip) (ip : Ip) (now : Int) : AppResult Unit :=
  lockout (attempts ip) now

def recordFailedLogin (attempts : Attempts Ip) (ip : Ip) (now : Int) : Attempts Ip :=
  Function.update attempts ip (some (State.failedLogin (attempts ip) now))

def clearLoginAttempts (attempts : Attempts Ip) (ip : Ip) : Attempts Ip :=
  Function.update attempts ip none

def sweepExpiredLoginAttempts (attempts : Attempts Ip) (now : Int) : Attempts Ip :=
  fun ip => (attempts ip).filter fun entry => now - entry.windowStart ≤ loginLockoutWindowSecs

/-! The same on the state of the hub. -/

section Hub

variable {state state' : State} {ip : String}

def attemptsOf (state : State) : Attempts String := lookup state.loginAttempts

theorem checkLoginLockout_eq : Auth.checkLoginLockout ip = (do
    let now ← nowEpochSecs
    let entry ← act (.findLoginAttempts ip)
    liftResult (lockout entry now)) := by
  refine bind_congr fun now => bind_congr fun entry => ?_
  cases entry with
  | none => rfl
  | some attempts =>
      simp only [lockout]
      split <;> rfl

theorem checkLoginLockout_runs {outcome : AppResult Unit} :
    Program.Runs perform (Auth.checkLoginLockout ip).run state outcome state' ↔
      outcome = checkLoginLockout (attemptsOf state) ip state.now ∧ state' = state := by
  rw [checkLoginLockout_eq]
  constructor
  · rintro ⟨_, _, _, clock, _, _, _, found, rest⟩
    cases clock
    cases found
    exact rest
  · rintro ⟨rfl, rfl⟩
    exact ⟨{}, _, _, rfl, {}, _, _, rfl, rfl, rfl⟩

theorem attemptsOf_recorded (now : Int) (choice : Choice)
    (performed : perform (.recordFailedLogin ip now) choice state = some ((), state')) :
    attemptsOf state' = recordFailedLogin (attemptsOf state) ip now := by
  cases performed
  funext other
  by_cases same : other = ip
  · subst same
    simp [attemptsOf, recordFailedLogin]
  · simp [attemptsOf, recordFailedLogin, same]

theorem attemptsOf_cleared (choice : Choice)
    (performed : perform (.clearLoginAttempts ip) choice state = some ((), state')) :
    attemptsOf state' = clearLoginAttempts (attemptsOf state) ip := by
  cases performed
  funext other
  by_cases same : other = ip
  · subst same
    simp [attemptsOf, clearLoginAttempts]
  · simp [attemptsOf, clearLoginAttempts, same]

end Hub

inductive LoginEvent (Ip : Type) where
  | failed (ip : Ip)
  | succeeded (ip : Ip)
  | swept
  deriving DecidableEq

def LoginEvent.Concerns (ip : Ip) : LoginEvent Ip → Bool
  | failed other | succeeded other => other = ip
  | swept => false

/-- The events with the times they happen at, the oldest first. -/
abbrev History (Ip : Type) : Type := List (Int × LoginEvent Ip)

def after (attempts : Attempts Ip) (event : Int × LoginEvent Ip) : Attempts Ip :=
  match event.2 with
  | .failed ip => recordFailedLogin attempts ip event.1
  | .succeeded ip => clearLoginAttempts attempts ip
  | .swept => sweepExpiredLoginAttempts attempts event.1

def attemptsAfter (history : History Ip) : Attempts Ip := history.foldl after fun _ => none

/-! The rule. -/

/-- The failures of an address since its last success. -/
def remember (ip : Ip) (failures : List Int) (event : Int × LoginEvent Ip) : List Int :=
  match event.2 with
  | .failed other => if other = ip then failures ++ [event.1] else failures
  | .succeeded other => if other = ip then [] else failures
  | .swept => failures

def failuresOf (ip : Ip) (history : History Ip) : List Int := history.foldl (remember ip) []

/-- A window starts at the first failure that comes too late for the one before. -/
def windows : List Int → List (List Int)
  | [] => []
  | start :: rest =>
      let inTime := fun time : Int => decide (time - start ≤ loginLockoutWindowSecs)
      (start :: rest.takeWhile inTime) :: windows (rest.dropWhile inTime)
  termination_by failures => failures.length
  decreasing_by
    simp only [List.length_cons]
    exact Nat.lt_succ_of_le (List.length_dropWhile_le _ rest)

def currentWindow (failures : List Int) : Option (List Int) := (windows failures).getLast?

/-- The address is locked out at `now`. -/
def Locked (failures : List Int) (now : Int) : Prop :=
  ∃ start rest, currentWindow failures = some (start :: rest) ∧
    loginMaxFailures ≤ rest.length + 1 ∧ now - start ≤ loginLockoutWindowSecs

/-- What the rule makes of one more failure. -/
def extend (window : Option (List Int)) (time : Int) : List Int :=
  match window with
  | some (start :: rest) =>
      if time - start ≤ loginLockoutWindowSecs then start :: rest ++ [time] else [time]
  | some [] | none => [time]

theorem windows_cons (start : Int) (rest : List Int) : windows (start :: rest) =
    (start :: rest.takeWhile fun time => decide (time - start ≤ loginLockoutWindowSecs)) ::
      windows (rest.dropWhile fun time => decide (time - start ≤ loginLockoutWindowSecs)) := by
  rw [windows]

theorem windows_ne_nil {failures : List Int} (some : failures ≠ []) : windows failures ≠ [] := by
  cases failures with
  | nil => exact absurd rfl some
  | cons start rest => simp [windows_cons]

theorem currentWindow_cons (start : Int) (rest : List Int)
    (inTime : ∀ time ∈ rest, time - start ≤ loginLockoutWindowSecs) :
    currentWindow (start :: rest) = some (start :: rest) := by
  have all : ∀ time ∈ rest, decide (time - start ≤ loginLockoutWindowSecs) = true :=
    fun time member => decide_eq_true (inTime time member)
  rw [currentWindow, windows_cons, List.takeWhile_eq_self_iff.2 all,
    List.dropWhile_eq_nil_iff.2 all, windows, List.getLast?_singleton]

theorem dropWhile_append_of_exists {α : Type} {p : α → Bool} {first : List α}
    (last : List α) (fails : ∃ item ∈ first, p item = false) :
    (first ++ last).takeWhile p = first.takeWhile p ∧
      (first ++ last).dropWhile p = first.dropWhile p ++ last := by
  obtain ⟨item, member, isFalse⟩ := fails
  have some : first.dropWhile p ≠ [] := fun none =>
    absurd (List.dropWhile_eq_nil_iff.1 none item member) (by simp [isFalse])
  have short : (first.takeWhile p).length ≠ first.length := by
    intro same
    have split := congrArg List.length (first.takeWhile_append_dropWhile (p := p))
    rw [List.length_append, same] at split
    exact some (List.eq_nil_of_length_eq_zero (by omega))
  constructor
  · rw [List.takeWhile_append, if_neg short]
  · rw [List.dropWhile_append, if_neg (by simpa using some)]

theorem currentWindow_append (failures : List Int) (time : Int) :
    currentWindow (failures ++ [time]) = some (extend (currentWindow failures) time) := by
  induction failures using windows.induct with
  | case1 => simp [currentWindow, windows, extend]
  | case2 start rest inTime ih =>
      by_cases fits : ∀ later ∈ rest, later - start ≤ loginLockoutWindowSecs
      · have all : ∀ later ∈ rest, decide (later - start ≤ loginLockoutWindowSecs) = true :=
          fun later member => decide_eq_true (fits later member)
        rw [currentWindow_cons start rest fits, List.cons_append, extend]
        split
        · rename_i isInTime
          refine currentWindow_cons start _ fun later member => ?_
          rcases List.mem_append.1 member with old | new
          · exact fits later old
          · exact List.mem_singleton.1 new ▸ isInTime
        · rename_i late
          rw [currentWindow, windows_cons, List.takeWhile_append_of_pos all,
            List.dropWhile_append_of_pos all, List.takeWhile_cons_of_neg (by simpa using late),
            List.dropWhile_cons_of_neg (by simpa using late)]
          simp [windows]
      · -- the failure comes after a later window has started, to which the induction applies
        have fails : ∃ later ∈ rest, inTime later = false := by
          simpa [inTime] using fits
        obtain ⟨item, member, isFalse⟩ := fails
        have left : rest.dropWhile inTime ≠ [] := fun none =>
          absurd (List.dropWhile_eq_nil_iff.1 none item member) (by simp [isFalse])
        have split := dropWhile_append_of_exists [time] ⟨item, member, isFalse⟩
        have before : currentWindow (start :: rest) = currentWindow (rest.dropWhile inTime) := by
          rw [currentWindow, windows_cons, List.getLast?_cons_of_ne_nil (windows_ne_nil left)]
          rfl
        have now : currentWindow (start :: rest ++ [time]) =
            currentWindow (rest.dropWhile inTime ++ [time]) := by
          rw [List.cons_append, currentWindow, windows_cons, split.2,
            List.getLast?_cons_of_ne_nil (windows_ne_nil (by simp))]
          rfl
        rw [before, now, ih]

/-! What the map keeps of the rule. -/

/-- The entry of an address holds its current window; it may be missing once that is past. -/
inductive Holds (now : Int) : Option LoginAttempts → Option (List Int) → Prop
  | empty : Holds now none none
  | counted {start : Int} {rest : List Int} :
      Holds now (some ⟨(rest.length + 1) % 2 ^ 32, start⟩) (some (start :: rest))
  | evicted {start : Int} {rest : List Int} (late : loginLockoutWindowSecs < now - start) :
      Holds now none (some (start :: rest))

section Holds

variable {entry : Option LoginAttempts} {window : Option (List Int)} {now next : Int}

theorem Holds.later (holds : Holds now entry window) (notBefore : now ≤ next) :
    Holds next entry window := by
  cases holds with
  | empty => exact .empty
  | counted => exact .counted
  | evicted late => exact .evicted (by omega)

theorem Holds.failedLogin (holds : Holds now entry window) :
    Holds now (some (State.failedLogin entry now)) (some (extend window now)) := by
  cases holds with
  | empty => exact @Holds.counted now now []
  | @counted start rest =>
      simp only [State.failedLogin, extend]
      by_cases inTime : now - start ≤ loginLockoutWindowSecs
      · rw [if_pos inTime, if_neg (by omega)]
        have next := @Holds.counted now start (rest ++ [now])
        simpa [Nat.add_mod] using next
      · rw [if_neg inTime, if_pos (by omega)]
        exact @Holds.counted now now []
  | @evicted start rest late =>
      simp only [State.failedLogin, extend]
      rw [if_neg (by omega)]
      exact @Holds.counted now now []

theorem Holds.swept (holds : Holds now entry window) :
    Holds now (entry.filter fun entry => now - entry.windowStart ≤ loginLockoutWindowSecs) window := by
  cases holds with
  | empty => exact .empty
  | @counted start rest =>
      by_cases inTime : now - start ≤ loginLockoutWindowSecs
      · simpa [Option.filter, inTime] using Holds.counted
      · simpa [Option.filter, inTime] using Holds.evicted (by omega)
  | evicted late => exact .evicted late

end Holds

theorem attemptsAfter_append (history : History Ip) (event : Int × LoginEvent Ip) :
    attemptsAfter (history ++ [event]) = after (attemptsAfter history) event := by
  simp [attemptsAfter]

theorem failuresOf_append (ip : Ip) (history : History Ip) (event : Int × LoginEvent Ip) :
    failuresOf ip (history ++ [event]) = remember ip (failuresOf ip history) event := by
  simp [failuresOf]

theorem holds_attemptsAfter (ip : Ip) (history : History Ip) (now : Int)
    (sorted : history.Pairwise fun event later => event.1 ≤ later.1)
    (past : ∀ event ∈ history, event.1 ≤ now) :
    Holds now (attemptsAfter history ip) (currentWindow (failuresOf ip history)) := by
  induction history using List.reverseRecOn generalizing now with
  | nil =>
      have none : currentWindow (failuresOf ip []) = none := by
        rw [currentWindow, failuresOf, List.foldl_nil, windows, List.getLast?_nil]
      exact none ▸ .empty
  | append_singleton history event ih =>
      obtain ⟨sorted, -, last⟩ := List.pairwise_append.1 sorted
      have before := ih event.1 sorted fun earlier member => last earlier member event (by simp)
      suffices last : Holds event.1 (attemptsAfter (history ++ [event]) ip)
          (currentWindow (failuresOf ip (history ++ [event]))) from last.later (past event (by simp))
      obtain ⟨time, happened⟩ := event
      rw [attemptsAfter_append, failuresOf_append]
      cases happened with
      | failed other =>
          by_cases same : other = ip
          · subst same
            simp only [after, remember, recordFailedLogin, Function.update_self, if_true,
              currentWindow_append]
            exact before.failedLogin
          · simpa [after, remember, recordFailedLogin, same, Function.update_of_ne (Ne.symm same)]
              using before
      | succeeded other =>
          by_cases same : other = ip
          · subst same
            simp only [after, remember, clearLoginAttempts, Function.update_self, if_true,
              currentWindow, windows, List.getLast?_nil]
            exact .empty
          · simpa [after, remember, clearLoginAttempts, same, Function.update_of_ne (Ne.symm same)]
              using before
      | swept => exact before.swept

/-! What the check answers. -/

section Check

variable {attempts attempts' : Attempts Ip} {ip : Ip} {window : Option (List Int)} {now : Int}

def rejects (attempts : Attempts Ip) (ip : Ip) (now : Int) : Prop :=
  ∃ minutes, checkLoginLockout attempts ip now = .error (.tooManyLoginAttempts minutes)

omit [DecidableEq Ip] in
theorem Holds.rejects_iff (holds : Holds now (attempts ip) window)
    (few : ∀ failures, window = some failures → failures.length < 2 ^ 32) :
    rejects attempts ip now ↔ ∃ start rest, window = some (start :: rest) ∧
      loginMaxFailures ≤ rest.length + 1 ∧ now - start ≤ loginLockoutWindowSecs := by
  rw [rejects, checkLoginLockout]
  generalize attempts ip = entry at holds
  simp only [lockout]
  cases holds with
  | empty => simp
  | @counted start rest =>
      have small : rest.length + 1 < 2 ^ 32 := few _ rfl
      simp only [Nat.mod_eq_of_lt small]
      split
      · rename_i passes
        constructor
        · rintro ⟨_, eq⟩
          cases eq
        · rintro ⟨_, _, eq, many, inTime⟩
          cases eq
          omega
      · rename_i locked
        exact ⟨fun _ => ⟨start, rest, rfl, by omega, by omega⟩, fun _ => ⟨_, rfl⟩⟩
  | @evicted start rest late =>
      constructor
      · rintro ⟨_, eq⟩
        cases eq
      · rintro ⟨_, _, eq, _, inTime⟩
        cases eq
        omega

omit [DecidableEq Ip] in
theorem Holds.answer_eq (holds : Holds now (attempts ip) window)
    (holds' : Holds now (attempts' ip) window) :
    checkLoginLockout attempts ip now = checkLoginLockout attempts' ip now := by
  rw [checkLoginLockout, checkLoginLockout]
  generalize attempts ip = entry at holds
  generalize attempts' ip = entry' at holds'
  simp only [lockout]
  cases holds with
  | empty => cases holds' with | empty => rfl
  | counted =>
      cases holds' with
      | counted => rfl
      | evicted late => exact if_pos (.inl late)
  | evicted late =>
      cases holds' with
      | counted => exact (if_pos (.inl late)).symm
      | evicted _ => rfl

end Check

theorem failuresOf_filter (ip : Ip) (history : History Ip) :
    failuresOf ip (history.filter fun event => event.2.Concerns ip) = failuresOf ip history := by
  induction history using List.reverseRecOn with
  | nil => rfl
  | append_singleton history event ih =>
      rw [List.filter_append, failuresOf_append]
      obtain ⟨time, happened⟩ := event
      by_cases concerned : happened.Concerns ip = true
      · rw [List.filter_singleton, concerned, cond_true, failuresOf_append, ih]
      · have unmoved : remember ip (failuresOf ip history) (time, happened) = failuresOf ip history := by
          cases happened <;> simp_all [LoginEvent.Concerns, remember]
        simpa [concerned, unmoved] using ih

/-- The map answers by the rule, and neither sweeps nor other addresses change what it answers. -/
theorem lockout_follows_history (ip : Ip) (history : History Ip) (now : Int)
    (sorted : history.Pairwise fun event later => event.1 ≤ later.1)
    (past : ∀ event ∈ history, event.1 ≤ now)
    (few : ∀ window ∈ windows (failuresOf ip history), window.length < 2 ^ 32) :
    (rejects (attemptsAfter history) ip now ↔ Locked (failuresOf ip history) now) ∧
      checkLoginLockout (attemptsAfter history) ip now =
        checkLoginLockout (attemptsAfter (history.filter fun event => event.2.Concerns ip)) ip now := by
  have holds := holds_attemptsAfter ip history now sorted past
  have alone := holds_attemptsAfter ip (history.filter fun event => event.2.Concerns ip) now
    (sorted.filter _) fun event member => past event (List.mem_filter.1 member).1
  rw [failuresOf_filter] at alone
  exact ⟨holds.rejects_iff fun failures current => few failures (List.mem_of_getLast? current),
    holds.answer_eq alone⟩

/-- Ten failures of `a` and one of `b`, and a sweep just before the window of `a` ends. -/
def tenFailures : History String :=
  (List.range 10).map (fun time => ((time : Int), LoginEvent.failed "a")) ++
    [(10, .failed "b"), (900, .swept)]

theorem lockout_follows_history_swept :
    (rejects (attemptsAfter tenFailures) "a" 900 ↔ Locked (failuresOf "a" tenFailures) 900) ∧
      checkLoginLockout (attemptsAfter tenFailures) "a" 900 = checkLoginLockout
        (attemptsAfter (tenFailures.filter fun event => event.2.Concerns "a")) "a" 900 :=
  lockout_follows_history "a" tenFailures 900 (by decide) (by decide)
    (by simp [tenFailures, List.range_succ, failuresOf, remember, windows, loginLockoutWindowSecs])

example : checkLoginLockout (attemptsAfter tenFailures) "a" 900 = .error (.tooManyLoginAttempts 0) := by
  decide

end Berth.Auth.Lockout
