import Berth.Interleave.Machine
import Berth.Auth.Lockout

/-!
Logins that overlap. The check and the count are separate steps with the slow hash in between, so
how many passwords an address can try depends on how many logins are past the check before any of
them is counted.
-/

namespace Berth.Auth.Lockout.Guessing

open Interleave

/-- Where a login stands; the clock is read before the map is looked at or changed. -/
inductive Phase where
  | arrived
  | checking (now : Int)
  | admitted
  | refused
  | counting (now : Int)
  | verified
  | ended
  deriving DecidableEq

structure Login (Ip : Type) where
  ip : Ip
  phase : Phase
  deriving DecidableEq

/-- `sweep` is the time the sweeper has read, while it is at work. -/
structure State (Ip : Type) where
  clock : Int
  attempts : Attempts Ip
  logins : List (Login Ip)
  sweep : Option Int

/-- How a login goes on. Only the query for the user can fail or be given up by the client. -/
inductive Move where
  | goOn
  | verify (passwordMatches : Bool)
  | abandon
  deriving DecidableEq

inductive Event (Ip : Type) where
  | tick (seconds : Nat)
  | arrive (ip : Ip)
  | login (index : Nat) (move : Move)
  | beginSweep
  | endSweep
  deriving DecidableEq

variable {Ip : Type} [DecidableEq Ip]

def Login.moves (login : Login Ip) (clock : Int) (attempts : Attempts Ip) (move : Move) :
    Option (Attempts Ip × Phase) :=
  match login.phase, move with
  | .arrived, .goOn => some (attempts, .checking clock)
  | .checking now, .goOn =>
      match checkLoginLockout attempts login.ip now with
      | .ok () => some (attempts, .admitted)
      | .error _ => some (attempts, .ended)
  | .admitted, .verify true => some (attempts, .verified)
  | .admitted, .verify false => some (attempts, .refused)
  | .admitted, .abandon => some (attempts, .ended)
  | .refused, .goOn => some (attempts, .counting clock)
  | .counting now, .goOn => some (recordFailedLogin attempts login.ip now, .ended)
  | .verified, .goOn => some (clearLoginAttempts attempts login.ip, .ended)
  | _, _ => none

def step (state : State Ip) : Event Ip → Option (State Ip)
  | .tick seconds => some { state with clock := state.clock + seconds }
  | .arrive ip => some { state with logins := state.logins ++ [⟨ip, .arrived⟩] }
  | .login index move => do
      let login ← state.logins[index]?
      let (attempts, phase) ← login.moves state.clock state.attempts move
      some { state with attempts, logins := state.logins.set index { login with phase } }
  | .beginSweep => some { state with sweep := some state.clock }
  | .endSweep => do
      let now ← state.sweep
      some { state with attempts := sweepExpiredLoginAttempts state.attempts now, sweep := none }

def hub : Machine (State Ip) (Event Ip) where
  initial := fun state => state.attempts = (fun _ => none) ∧ state.logins = [] ∧ state.sweep = none
  step := step

/-! What the bound is about. -/

/-- A failure counted for this entry starts a window. -/
def startsWindow (entry : Option LoginAttempts) (now : Int) : Bool :=
  match entry with
  | none => true
  | some attempts => decide (now - attempts.windowStart > loginLockoutWindowSecs)

def marks (ip : Ip) (state : State Ip) : Event Ip → Bool
  | .login index .goOn =>
      match state.logins[index]? with
      | some ⟨other, .counting now⟩ => other = ip && startsWindow (state.attempts ip) now
      | some ⟨other, .verified⟩ => other = ip
      | _ => false
  | _ => false

def fails (ip : Ip) (state : State Ip) : Event Ip → Bool
  | .login index (.verify false) => (state.logins[index]?).any fun login => login.ip = ip
  | _ => false

/-- The password verifications of an address that failed since a window of it last started or its
count was cleared. -/
def failedSince (ip : Ip) : List (State Ip × Event Ip) → Nat
  | [] => 0
  | (state, event) :: older =>
      if marks ip state event then 0
      else if fails ip state event then failedSince ip older + 1
      else failedSince ip older

/-! The condition. -/

def Phase.pastCheck : Phase → Bool
  | .admitted | .refused | .counting _ | .verified => true
  | .arrived | .checking _ | .ended => false

def State.pastCheck (state : State Ip) (ip : Ip) : Nat :=
  state.logins.countP fun login => login.ip = ip && login.phase.pastCheck

/-- How many more failures the entry lets happen: what is left of a window, and one without. -/
def allowance (entry : Option LoginAttempts) (now : Int) : Nat :=
  match entry with
  | none => 1
  | some attempts =>
      if now - attempts.windowStart > loginLockoutWindowSecs then 1
      else loginMaxFailures - attempts.count

/-- A login passes the check only while the logins of its address that are past it leave it room. -/
def Uncrowded (state : State Ip) (event : Event Ip) : Prop :=
  ∀ index ip now, event = .login index .goOn → state.logins[index]? = some ⟨ip, .checking now⟩ →
    checkLoginLockout state.attempts ip now = .ok () →
      state.pastCheck ip < allowance (state.attempts ip) now

/-! Eleven logins that are all past the check before a password is looked at. -/

def fresh : State String := ⟨0, fun _ => none, [], none⟩

def overlapping : List (Event String) :=
  List.replicate 11 (.arrive "a") ++
    (List.range 11).flatMap (fun index => [.login index .goOn, .login index .goOn]) ++
    (List.range 11).map fun index => .login index (.verify false)

theorem eleven_failed : ¬ ∀ (ip : String) (history : List (State String × Event String))
    (state : State String), hub.Run (fun _ _ => True) history state →
      failedSince ip history ≤ loginMaxFailures := by
  intro bounded
  obtain ⟨history, state, run, many⟩ := Machine.exists_run_of_trace hub (fun _ _ => True)
    (fun _ _ => true) (fun reached => decide (11 ≤ failedSince "a" reached.1)) (fun _ _ _ => trivial)
    (show hub.initial fresh from ⟨rfl, rfl, rfl⟩) overlapping (by decide +kernel)
  have few := bounded "a" history state run
  have tooMany : 11 ≤ failedSince "a" history := by simpa using many
  simp only [loginMaxFailures] at few
  omega

/-! What an overlap that leaves room keeps. -/

def State.unverified (state : State Ip) (ip : Ip) : Nat :=
  state.logins.countP fun login => login.ip = ip && login.phase = .admitted

/-- A window that is full and over, with one login past the check. -/
structure Renewing (ip : Ip) (state : State Ip) (attempts : LoginAttempts) : Prop where
  full : attempts.count = loginMaxFailures
  single : state.pastCheck ip = 1
  late : loginLockoutWindowSecs < state.clock - attempts.windowStart
  counted : ∀ now, ⟨ip, .counting now⟩ ∈ state.logins →
    loginLockoutWindowSecs < now - attempts.windowStart

/-- The failures so far and those still to come stay within what has been counted or can be. -/
def Fits (ip : Ip) (state : State Ip) (failed : Nat) : Prop :=
  match state.attempts ip with
  | none => state.pastCheck ip ≤ loginMaxFailures ∧
      failed + state.unverified ip ≤ loginMaxFailures ∧
        (state.pastCheck ip = 0 → failed < loginMaxFailures)
  | some attempts => failed + state.unverified ip < attempts.count + state.pastCheck ip ∧
      (attempts.count + state.pastCheck ip ≤ loginMaxFailures ∨ Renewing ip state attempts)

structure Bounded (ip : Ip) (history : List (State Ip × Event Ip)) (state : State Ip) : Prop where
  read : ∀ now, ⟨ip, .checking now⟩ ∈ state.logins → now ≤ state.clock
  fits : Fits ip state (failedSince ip history)

section Step

variable {ip : Ip} {state next : State Ip} {login : Login Ip} {index : Nat} {move : Move}
variable {history : List (State Ip × Event Ip)} {attempts : Attempts Ip} {phase : Phase}

inductive Moved (ip : Ip) (clock : Int) (attempts : Attempts Ip) :
    Phase → Move → Attempts Ip → Phase → Prop
  | reads : Moved ip clock attempts .arrived .goOn attempts (.checking clock)
  | passes {now : Int} (passed : checkLoginLockout attempts ip now = .ok ()) :
      Moved ip clock attempts (.checking now) .goOn attempts .admitted
  | stops {now : Int} : Moved ip clock attempts (.checking now) .goOn attempts .ended
  | verifies : Moved ip clock attempts .admitted (.verify true) attempts .verified
  | refuses : Moved ip clock attempts .admitted (.verify false) attempts .refused
  | abandons : Moved ip clock attempts .admitted .abandon attempts .ended
  | readsAgain : Moved ip clock attempts .refused .goOn attempts (.counting clock)
  | counts {now : Int} :
      Moved ip clock attempts (.counting now) .goOn (recordFailedLogin attempts ip now) .ended
  | clears : Moved ip clock attempts .verified .goOn (clearLoginAttempts attempts ip) .ended

theorem Login.moved {clock : Int} {before : Attempts Ip}
    (moves : login.moves clock before move = some (attempts, phase)) :
    Moved login.ip clock before login.phase move attempts phase := by
  obtain ⟨ip, stands⟩ := login
  simp only [Login.moves] at moves
  split at moves
  case h_2 now =>
    split at moves <;> cases moves
    · rename_i passed
      exact .passes passed
    · exact .stops
  case h_9 => cases moves
  all_goals
    cases moves
    constructor

theorem step_login (stepped : step state (.login index move) = some next) :
    ∃ login attempts phase, state.logins[index]? = some login ∧
      Moved login.ip state.clock state.attempts login.phase move attempts phase ∧
        next = { state with attempts, logins := state.logins.set index { login with phase } } := by
  obtain ⟨login, found, rest⟩ := Option.bind_eq_some_iff.1 stepped
  obtain ⟨⟨attempts, phase⟩, moves, eq⟩ := Option.bind_eq_some_iff.1 rest
  cases eq
  exact ⟨login, attempts, phase, found, login.moved moves, rfl⟩

omit [DecidableEq Ip] in
theorem countP_set_add {logins : List (Login Ip)} (found : logins[index]? = some login)
    (new : Login Ip) (counted : Login Ip → Bool) :
    (logins.set index new).countP counted + (counted login).toNat =
      logins.countP counted + (counted new).toNat := by
  obtain ⟨bound, rfl⟩ := List.getElem?_eq_some_iff.1 found
  rw [List.countP_set bound]
  cases isCounted : counted logins[index] with
  | true =>
      have positive : 0 < logins.countP counted :=
        List.countP_pos_iff.2 ⟨_, List.getElem_mem bound, isCounted⟩
      cases counted new <;> simp <;> omega
  | false => cases counted new <;> simp

theorem unverified_le (ip : Ip) (state : State Ip) : state.unverified ip ≤ state.pastCheck ip := by
  refine List.countP_mono_left fun login _ counted => ?_
  simp only [Bool.and_eq_true, decide_eq_true_eq] at counted ⊢
  simp [counted.1, counted.2, Phase.pastCheck]

theorem not_counting_of_pastCheck (none : state.pastCheck ip = 0) (now : Int) :
    (⟨ip, .counting now⟩ : Login Ip) ∉ state.logins := by
  intro member
  have uncounted := List.countP_eq_zero.1 none _ member
  simp [Phase.pastCheck] at uncounted

/-- Nothing that leaves the entry and the logins past the check as they are can break the bound. -/
theorem Fits.of_same {failed failed' : Nat} (fits : Fits ip state failed)
    (entry : next.attempts ip = state.attempts ip) (past : next.pastCheck ip = state.pastCheck ip)
    (sum : failed' + next.unverified ip ≤ failed + state.unverified ip)
    (clock : state.clock ≤ next.clock)
    (counting : ∀ now, ⟨ip, .counting now⟩ ∈ next.logins →
      ⟨ip, .counting now⟩ ∈ state.logins ∨ state.clock ≤ now) : Fits ip next failed' := by
  have within := unverified_le ip state
  simp only [Fits, entry, past] at fits ⊢
  split at fits
  · obtain ⟨few, bounded, room⟩ := fits
    refine ⟨few, by omega, fun none => ?_⟩
    have := room none
    omega
  · rename_i attempts _
    obtain ⟨bounded, room⟩ := fits
    refine ⟨by omega, room.imp id fun renewing => ⟨renewing.full, past.trans renewing.single, ?_, ?_⟩⟩
    · have := renewing.late
      omega
    · intro now member
      rcases counting now member with old | new
      · exact renewing.counted now old
      · have := renewing.late
        omega

theorem Fits.pastCheck_le {failed : Nat} (fits : Fits ip state failed) :
    state.pastCheck ip ≤ loginMaxFailures := by
  simp only [Fits] at fits
  split at fits
  · exact fits.1
  · rcases fits.2 with room | renewing
    · omega
    · rw [renewing.single]
      decide

theorem Fits.failed_le {failed : Nat} (fits : Fits ip state failed) : failed ≤ loginMaxFailures := by
  simp only [Fits] at fits
  split at fits
  · omega
  · obtain ⟨bounded, room | renewing⟩ := fits
    · omega
    · have full := renewing.full
      have single := renewing.single
      omega

theorem Fits.evicted {failed : Nat} (fits : Fits ip state failed) (none : next.attempts ip = none)
    (logins : next.logins = state.logins) : Fits ip next failed := by
  have past : next.pastCheck ip = state.pastCheck ip := by rw [State.pastCheck, logins]; rfl
  have unverified : next.unverified ip = state.unverified ip := by rw [State.unverified, logins]; rfl
  have few := fits.pastCheck_le
  simp only [Fits, none, past, unverified] at fits ⊢
  split at fits
  · exact fits
  · obtain ⟨bounded, room | renewing⟩ := fits
    · exact ⟨few, by omega, by omega⟩
    · have full := renewing.full
      have single := renewing.single
      exact ⟨few, by omega, by omega⟩

/-- What a login that stood at `stands` leaves behind. -/
def State.moved (state : State Ip) (index : Nat) (ip : Ip) (attempts : Attempts Ip) (phase : Phase) :
    State Ip :=
  { state with attempts, logins := state.logins.set index ⟨ip, phase⟩ }

variable {stands : Phase} {failed : Nat}

theorem pastCheck_moved (attempts : Attempts Ip) (phase : Phase)
    (found : state.logins[index]? = some ⟨ip, stands⟩) :
    (state.moved index ip attempts phase).pastCheck ip + stands.pastCheck.toNat =
      state.pastCheck ip + phase.pastCheck.toNat := by
  have counted := countP_set_add found ⟨ip, phase⟩ fun login => login.ip = ip && login.phase.pastCheck
  simpa [State.pastCheck, State.moved] using counted

theorem unverified_moved (attempts : Attempts Ip) (phase : Phase)
    (found : state.logins[index]? = some ⟨ip, stands⟩) :
    (state.moved index ip attempts phase).unverified ip + (decide (stands = .admitted)).toNat =
      state.unverified ip + (decide (phase = .admitted)).toNat := by
  have counted := countP_set_add found ⟨ip, phase⟩ fun login => login.ip = ip && login.phase = .admitted
  simpa [State.unverified, State.moved] using counted

omit [DecidableEq Ip] in
theorem mem_moved {other : Login Ip} (member : other ∈ (state.moved index ip attempts phase).logins) :
    other ∈ state.logins ∨ other = ⟨ip, phase⟩ :=
  List.mem_or_eq_of_mem_set member

omit [DecidableEq Ip] in
theorem counting_moved (notCounting : ∀ now, phase = .counting now → state.clock ≤ now) (now : Int)
    (member : ⟨ip, .counting now⟩ ∈ (state.moved index ip attempts phase).logins) :
    ⟨ip, .counting now⟩ ∈ state.logins ∨ state.clock ≤ now := by
  rcases mem_moved member with old | new
  · exact .inl old
  · cases new
    exact .inr (notCounting now rfl)

theorem Fits.stays {failed' : Nat} (fits : Fits ip state failed)
    (found : state.logins[index]? = some ⟨ip, stands⟩)
    (samePast : phase.pastCheck = stands.pastCheck)
    (sum : failed' + (decide (phase = .admitted)).toNat ≤
      failed + (decide (stands = .admitted)).toNat)
    (notEarly : ∀ now, phase = .counting now → state.clock ≤ now) :
    Fits ip (state.moved index ip state.attempts phase) failed' := by
  have past := pastCheck_moved state.attempts phase found
  have unverified := unverified_moved state.attempts phase found
  rw [samePast] at past
  exact fits.of_same rfl (by omega) (by omega) (Int.le_refl _) (counting_moved notEarly)

theorem Fits.passes {now : Int} (fits : Fits ip state failed)
    (found : state.logins[index]? = some ⟨ip, .checking now⟩) (read : now ≤ state.clock)
    (room : state.pastCheck ip < allowance (state.attempts ip) now) :
    Fits ip (state.moved index ip state.attempts .admitted) failed := by
  have past := pastCheck_moved state.attempts .admitted found
  have unverified := unverified_moved state.attempts .admitted found
  have within := unverified_le ip state
  have entry : (state.moved index ip state.attempts .admitted).attempts ip = state.attempts ip := rfl
  simp only [Phase.pastCheck, Bool.toNat_false, Bool.toNat_true, Nat.add_zero] at past
  simp only [reduceCtorEq, decide_false, decide_true, Bool.toNat_false, Bool.toNat_true,
    Nat.add_zero] at unverified
  simp only [Fits, entry] at fits ⊢
  cases before : state.attempts ip with
  | none =>
      simp only [before, allowance] at fits room ⊢
      have := fits.2.2 (by omega)
      have : 0 < loginMaxFailures := by decide
      exact ⟨by omega, by omega, by omega⟩
  | some attempts =>
      simp only [before, allowance] at fits room ⊢
      refine ⟨by omega, ?_⟩
      split at room
      · rename_i late
        have none : state.pastCheck ip = 0 := by omega
        rcases fits.2 with small | renewing
        · by_cases full : attempts.count = loginMaxFailures
          · refine .inr ⟨full, by omega, ?_, ?_⟩
            · have clock : (state.moved index ip state.attempts .admitted).clock = state.clock := rfl
              omega
            · intro now member
              rcases mem_moved member with old | new
              · exact absurd old (not_counting_of_pastCheck none now)
              · cases new
          · exact .inl (by omega)
        · have := renewing.single
          omega
      · exact .inl (by omega)

theorem Fits.abandons (fits : Fits ip state failed)
    (found : state.logins[index]? = some ⟨ip, .admitted⟩) :
    Fits ip (state.moved index ip state.attempts .ended) failed := by
  have past := pastCheck_moved state.attempts .ended found
  have unverified := unverified_moved state.attempts .ended found
  have entry : (state.moved index ip state.attempts .ended).attempts ip = state.attempts ip := rfl
  simp only [Phase.pastCheck, Bool.toNat_false, Bool.toNat_true, Nat.add_zero] at past
  simp only [reduceCtorEq, decide_false, decide_true, Bool.toNat_false, Bool.toNat_true,
    Nat.add_zero] at unverified
  simp only [Fits, entry] at fits ⊢
  cases before : state.attempts ip with
  | none =>
      simp only [before] at fits ⊢
      obtain ⟨few, bounded, room⟩ := fits
      exact ⟨by omega, by omega, by omega⟩
  | some attempts =>
      simp only [before] at fits ⊢
      obtain ⟨bounded, small | renewing⟩ := fits
      · exact ⟨by omega, .inl (by omega)⟩
      · have full := renewing.full
        have single := renewing.single
        exact ⟨by omega, .inl (by omega)⟩

theorem Fits.clears (fits : Fits ip state failed)
    (found : state.logins[index]? = some ⟨ip, .verified⟩) :
    Fits ip (state.moved index ip (clearLoginAttempts state.attempts ip) .ended) 0 := by
  let next := state.moved index ip (clearLoginAttempts state.attempts ip) .ended
  have past : next.pastCheck ip + 1 = state.pastCheck ip := pastCheck_moved _ _ found
  have within := unverified_le ip next
  have few := fits.pastCheck_le
  have entry : next.attempts ip = none := Function.update_self ..
  show Fits ip next 0
  simp only [Fits, entry]
  exact ⟨by omega, by omega, fun _ => by decide⟩

/-- A failure that starts a window leaves nothing counted but itself. -/
theorem Fits.starts {now : Int} (fits : Fits ip state failed)
    (found : state.logins[index]? = some ⟨ip, .counting now⟩)
    (starts : startsWindow (state.attempts ip) now = true) :
    Fits ip (state.moved index ip (recordFailedLogin state.attempts ip now) .ended) 0 := by
  let next := state.moved index ip (recordFailedLogin state.attempts ip now) .ended
  have past : next.pastCheck ip + 1 = state.pastCheck ip := pastCheck_moved _ _ found
  have within := unverified_le ip next
  have few := fits.pastCheck_le
  have entry : next.attempts ip = some ⟨1, now⟩ := by
    refine (Function.update_self ..).trans ?_
    cases before : state.attempts ip with
    | none => rfl
    | some attempts =>
        simp only [before, startsWindow, decide_eq_true_eq] at starts
        simp only [State.failedLogin, if_pos starts]
  show Fits ip next 0
  simp only [Fits, entry]
  exact ⟨by omega, .inl (by omega)⟩

theorem Fits.counts {now : Int} (fits : Fits ip state failed)
    (found : state.logins[index]? = some ⟨ip, .counting now⟩)
    (goesOn : startsWindow (state.attempts ip) now = false) :
    Fits ip (state.moved index ip (recordFailedLogin state.attempts ip now) .ended) failed := by
  let next := state.moved index ip (recordFailedLogin state.attempts ip now) .ended
  have past : next.pastCheck ip + 1 = state.pastCheck ip := pastCheck_moved _ _ found
  have unverified : next.unverified ip = state.unverified ip := unverified_moved _ _ found
  show Fits ip next failed
  cases before : state.attempts ip with
  | none => simp [before, startsWindow] at goesOn
  | some attempts =>
      simp only [before, startsWindow, decide_eq_false_iff_not] at goesOn
      simp only [Fits, before] at fits
      obtain ⟨bounded, small | renewing⟩ := fits
      · have noWrap : (attempts.count + 1) % 2 ^ 32 = attempts.count + 1 := by
          have : loginMaxFailures < 2 ^ 32 := by decide
          exact Nat.mod_eq_of_lt (by omega)
        have entry : next.attempts ip = some ⟨attempts.count + 1, attempts.windowStart⟩ := by
          refine (Function.update_self ..).trans ?_
          simp only [before, State.failedLogin, if_neg goesOn, noWrap]
        simp only [Fits, entry]
        exact ⟨by omega, .inl (by omega)⟩
      · exact absurd (renewing.counted now (List.mem_of_getElem? found)) goesOn

/-! One step, and then a whole run. -/

theorem Fits.goesOn (fits : Fits ip state (failedSince ip history))
    (found : state.logins[index]? = some ⟨ip, stands⟩)
    (moved : Moved ip state.clock state.attempts stands move attempts phase)
    (read : ∀ now, stands = .checking now → now ≤ state.clock)
    (uncrowded : Uncrowded state (.login index move)) :
    Fits ip (state.moved index ip attempts phase)
      (failedSince ip ((state, .login index move) :: history)) := by
  cases moved with
  | @passes now passed =>
      have failed : failedSince ip ((state, .login index .goOn) :: history) = failedSince ip history := by
        simp [failedSince, marks, fails, found]
      exact failed ▸ fits.passes found (read now rfl) (uncrowded index ip now rfl found passed)
  | abandons => exact fits.abandons found
  | clears =>
      have failed : failedSince ip ((state, .login index .goOn) :: history) = 0 := by
        simp [failedSince, marks, found]
      exact failed ▸ fits.clears found
  | @counts now =>
      cases starts : startsWindow (state.attempts ip) now with
      | true =>
          have failed : failedSince ip ((state, .login index .goOn) :: history) = 0 := by
            simp [failedSince, marks, found, starts]
          exact failed ▸ fits.starts found starts
      | false =>
          have failed : failedSince ip ((state, .login index .goOn) :: history) =
              failedSince ip history := by
            simp [failedSince, marks, fails, found, starts]
          exact failed ▸ fits.counts found starts
  | reads | stops | verifies | refuses | readsAgain =>
      refine fits.stays found rfl ?_ ?_
      · simp [failedSince, marks, fails, found]
      · rintro now eq
        cases eq <;> exact Int.le_refl _

theorem Moved.attempts_eq {other : Ip} {clock : Int} {before : Attempts Ip}
    (moved : Moved other clock before stands move attempts phase) (different : ip ≠ other) :
    attempts ip = before ip := by
  cases moved with
  | counts | clears => exact Function.update_of_ne different ..
  | reads | passes _ | stops | verifies | refuses | abandons | readsAgain => rfl

/-- A login of another address. -/
theorem Fits.other {other : Ip} (fits : Fits ip state (failedSince ip history))
    (found : state.logins[index]? = some ⟨other, stands⟩)
    (moved : Moved other state.clock state.attempts stands move attempts phase)
    (different : other ≠ ip) :
    Fits ip (state.moved index other attempts phase)
      (failedSince ip ((state, .login index move) :: history)) := by
  have uncounted (counted : Login Ip → Bool) (notOther : ∀ phase, counted ⟨other, phase⟩ = false) :
      (state.moved index other attempts phase).logins.countP counted = state.logins.countP counted := by
    have same := countP_set_add found ⟨other, phase⟩ counted
    simp only [notOther, Bool.toNat_false, Nat.add_zero] at same
    exact same
  have failed : failedSince ip ((state, .login index move) :: history) = failedSince ip history := by
    cases moved <;> simp [failedSince, marks, fails, found, different]
  refine failed ▸ fits.of_same (moved.attempts_eq (Ne.symm different)) ?_ (Nat.le_of_eq ?_)
    (Int.le_refl _) ?_
  · exact uncounted _ fun phase => by simp [different]
  · exact congrArg _ (uncounted _ fun phase => by simp [different])
  · intro now member
    rcases mem_moved member with old | new
    · exact .inl old
    · cases new
      exact absurd rfl different

theorem Bounded.step {event : Event Ip} (bounded : Bounded ip history state)
    (stepped : step state event = some next) (uncrowded : Uncrowded state event) :
    Bounded ip ((state, event) :: history) next := by
  cases event with
  | tick seconds =>
      cases stepped
      refine ⟨fun now member => ?_, bounded.fits.of_same rfl rfl (Nat.le_refl _) ?_ ?_⟩
      · have := bounded.read now member
        show now ≤ state.clock + seconds
        omega
      · show state.clock ≤ state.clock + seconds
        omega
      · exact fun now member => .inl member
  | arrive other =>
      cases stepped
      have inactive : ∀ entry : Login Ip, entry ∈ state.logins ++ [⟨other, .arrived⟩] →
          entry.phase ≠ .arrived → entry ∈ state.logins := by
        intro entry member begun
        rcases List.mem_append.1 member with old | new
        · exact old
        · cases List.mem_singleton.1 new
          exact absurd rfl begun
      refine ⟨fun now member => bounded.read now (inactive _ member (by simp)),
        bounded.fits.of_same rfl ?_ ?_ (Int.le_refl _) fun now member =>
          .inl (inactive _ member (by simp))⟩
      · simp [State.pastCheck, Phase.pastCheck]
      · simp [State.unverified, failedSince, marks, fails]
  | beginSweep =>
      cases stepped
      exact ⟨bounded.read, bounded.fits.of_same rfl rfl (Nat.le_refl _) (Int.le_refl _)
        fun now member => .inl member⟩
  | endSweep =>
      obtain ⟨now, _, eq⟩ := Option.bind_eq_some_iff.1 stepped
      cases eq
      refine ⟨bounded.read, ?_⟩
      let attempts := sweepExpiredLoginAttempts state.attempts now
      cases gone : attempts ip with
      | none => exact bounded.fits.evicted gone rfl
      | some entry =>
          have kept : state.attempts ip = some entry := (Option.filter_eq_some_iff.1 gone).1
          exact bounded.fits.of_same (gone.trans kept.symm) rfl (Nat.le_refl _) (Int.le_refl _)
            fun now member => .inl member
  | login index move =>
      obtain ⟨⟨other, stands⟩, attempts, phase, found, moved, rfl⟩ := step_login stepped
      have member := List.mem_of_getElem? found
      refine ⟨fun now isChecking => ?_, ?_⟩
      · rcases mem_moved isChecking with old | new
        · exact bounded.read now old
        · cases new
          cases moved
          exact Int.le_refl _
      · by_cases same : other = ip
        · subst same
          exact bounded.fits.goesOn found moved
            (fun now eq => bounded.read now (eq ▸ member)) uncrowded
        · exact bounded.fits.other found moved same

end Step

theorem bounded_of_run {ip : Ip} {history : List (State Ip × Event Ip)} {state : State Ip}
    (run : hub.Run Uncrowded history state) : Bounded ip history state := by
  refine run.invariant (Bounded ip) ?_ fun history state event next bounded stepped uncrowded =>
    bounded.step stepped uncrowded
  rintro state ⟨entries, logins, -⟩
  refine ⟨fun now member => ?_, ?_⟩
  · simp [logins] at member
  · simp [Fits, entries, State.pastCheck, State.unverified, logins, failedSince]
    decide

/-- Where no login passes the check in a crowd, an address has at most `LOGIN_MAX_FAILURES` failed
guesses between one window start or clear and the next. -/
theorem guesses_bounded (ip : Ip) (history : List (State Ip × Event Ip)) (state : State Ip)
    (run : hub.Run Uncrowded history state) : failedSince ip history ≤ loginMaxFailures :=
  (bounded_of_run run).fits.failed_le

def leavesRoom (state : State Ip) : Event Ip → Bool
  | .login index .goOn =>
      match state.logins[index]? with
      | some ⟨ip, .checking now⟩ =>
          match checkLoginLockout state.attempts ip now with
          | .ok () => decide (state.pastCheck ip < allowance (state.attempts ip) now)
          | .error _ => true
      | _ => true
  | _ => true

theorem uncrowded_of_leavesRoom (state : State Ip) (event : Event Ip)
    (room : leavesRoom state event = true) : Uncrowded state event := by
  rintro index ip now rfl found passed
  simpa [leavesRoom, found, passed] using room

/-- One failure alone, nine together, and one more once the window is over: ten since it started. -/
def together : List (Event String) :=
  List.replicate 11 (.arrive "a") ++
    [.login 0 .goOn, .login 0 .goOn, .login 0 (.verify false), .login 0 .goOn, .login 0 .goOn] ++
    (List.range' 1 9).flatMap (fun index => [.login index .goOn, .login index .goOn]) ++
    (List.range' 1 9).flatMap
      (fun index => [.login index (.verify false), .login index .goOn, .login index .goOn]) ++
    [.tick 901, .login 10 .goOn, .login 10 .goOn, .login 10 (.verify false)]

theorem guesses_bounded_together : ∃ history state, hub.Run Uncrowded history state ∧
    10 ≤ failedSince "a" history ∧ failedSince "a" history ≤ loginMaxFailures := by
  obtain ⟨history, state, run, many⟩ := Machine.exists_run_of_trace hub Uncrowded leavesRoom
    (fun reached => decide (10 ≤ failedSince "a" reached.1)) uncrowded_of_leavesRoom
    (show hub.initial fresh from ⟨rfl, rfl, rfl⟩) together (by decide +kernel)
  exact ⟨history, state, run, by simpa using many, guesses_bounded "a" history state run⟩

/-- No login looks at the map while another one of its address is past the check. -/
def Alone (state : State Ip) (event : Event Ip) : Prop :=
  ∀ index ip now, event = .login index .goOn → state.logins[index]? = some ⟨ip, .checking now⟩ →
    state.pastCheck ip = 0

theorem Alone.uncrowded {state : State Ip} {event : Event Ip} (alone : Alone state event) :
    Uncrowded state event := by
  intro index ip now isMove found passed
  rw [alone index ip now isMove found]
  simp only [checkLoginLockout, lockout] at passed
  simp only [allowance]
  split
  · decide
  · split
    · decide
    · rename_i attempts isEntry late
      simp only [isEntry] at passed
      split at passed
      · omega
      · cases passed

theorem failedSince_le_of_alone {ip : Ip} {history : List (State Ip × Event Ip)} {state : State Ip}
    (run : hub.Run Alone history state) : failedSince ip history ≤ loginMaxFailures :=
  (bounded_of_run (run.mono fun _ _ => Alone.uncrowded)).fits.failed_le

end Berth.Auth.Lockout.Guessing
