import Berth.Interleave.Machine
import Berth.Session.Http

/-!
The agent's trust in the certificate of its hub, for an agent without a configured fingerprint: it
pins the certificate of its first connect in a file and from then on accepts no other.
-/

namespace Berth.HubTls

open Interleave

abbrev CertificateDer : Type := List UInt8

def hexByte (byte : UInt8) : List Char :=
  [Nat.digitChar (byte.toNat / 16), Nat.digitChar (byte.toNat % 16)]

def hexSha256 (sha256 : CertificateDer → List UInt8) (der : CertificateDer) : String :=
  String.ofList ((sha256 der).flatMap hexByte)

/-- `read` is what `read_to_string` answers for the pin file. -/
def expectedFingerprint (read : Except String String) : Option String :=
  read.toOption.map fun contents => String.ofList (trim contents.toList)

structure FingerprintVerifier where
  expected : Option String
  captured : Option String
  deriving DecidableEq

def FingerprintVerifier.new (expected : Option String) : FingerprintVerifier := ⟨expected, none⟩

def fingerprintMismatch (expected actual : String) : String :=
  "hub certificate fingerprint mismatch (expected " ++ expected ++ ", got " ++ actual ++ ")"

/-- The verifier after it has accepted the certificate. -/
def FingerprintVerifier.verifyServerCert (sha256 : CertificateDer → List UInt8)
    (verifier : FingerprintVerifier) (endEntity : CertificateDer) :
    Except String FingerprintVerifier :=
  let actual := hexSha256 sha256 endEntity
  match verifier.expected with
  | some expected =>
      if expected ≠ actual then .error (fingerprintMismatch expected actual)
      else .ok { verifier with captured := some actual }
  | none => .ok { verifier with captured := some actual }

/-- One `run_session`; it is `connected` once `connect` has returned and the pin is written. -/
structure Attempt where
  isFirstConnect : Bool
  verifier : FingerprintVerifier
  connected : Bool
  deriving DecidableEq

/-- What `std::fs::write` does: a failed write may have truncated the file and written the first
characters. -/
inductive Write where
  | done
  | failed (written : Option Nat)
  deriving DecidableEq

/-- `accepted` lists the certificates the verifiers have accepted, the newest first. -/
structure Trust where
  pinFile : Option String
  attempt : Option Attempt
  accepted : List CertificateDer
  deriving DecidableEq

/-- `dial` starts an attempt, and says how reading an existing pin file fails, if it does. A
handshake can happen as long as the channel of the attempt exists. -/
inductive Event where
  | dial (failure : Option String)
  | handshake (endEntity : CertificateDer)
  | connected (written : Write)
  | ends
  deriving DecidableEq

namespace Trust

variable (trust : Trust)

def readPin (failure : Option String) : Except String String :=
  match failure, trust.pinFile with
  | some message, _ => .error message
  | none, some contents => .ok contents
  | none, none => .error "No such file or directory (os error 2)"

def dial (failure : Option String) : Option Trust :=
  match trust.attempt with
  | some _ => none
  | none =>
      let pinnedFingerprint := expectedFingerprint (trust.readPin failure)
      some { trust with
        attempt := some ⟨pinnedFingerprint.isNone, .new pinnedFingerprint, false⟩ }

def handshake (sha256 : CertificateDer → List UInt8) (endEntity : CertificateDer) : Option Trust :=
  match trust.attempt with
  | none => none
  | some attempt =>
      match attempt.verifier.verifyServerCert sha256 endEntity with
      | .error _ => some trust
      | .ok verifier =>
          some { trust with
            attempt := some { attempt with verifier }
            accepted := endEntity :: trust.accepted }

def writePin (fingerprint : String) : Write → Trust
  | .done => { trust with pinFile := some fingerprint }
  | .failed none => trust
  | .failed (some written) =>
      { trust with pinFile := some (String.ofList (fingerprint.toList.take written)) }

/-- `connect` returns after a handshake; the first connect persists the fingerprint that is captured
by then, and ends with the error when that fails. -/
def connected (written : Write) : Option Trust :=
  match trust.attempt with
  | none => none
  | some attempt =>
      match attempt.verifier.captured with
      | none => none
      | some fingerprint =>
          if attempt.connected then none
          else if attempt.isFirstConnect then
            let after := trust.writePin fingerprint written
            if written = .done then
              some { after with attempt := some { attempt with connected := true } }
            else some { after with attempt := none }
          else some { trust with attempt := some { attempt with connected := true } }

def ends : Option Trust := trust.attempt.map fun _ => { trust with attempt := none }

def step (sha256 : CertificateDer → List UInt8) (trust : Trust) : Event → Option Trust
  | .dial failure => trust.dial failure
  | .handshake endEntity => trust.handshake sha256 endEntity
  | .connected written => trust.connected written
  | .ends => trust.ends

end Trust

/-- An agent starts with or without a pin from before. -/
abbrev machine (sha256 : CertificateDer → List UInt8) : Machine Trust Event where
  initial := fun trust => trust.attempt = none ∧ trust.accepted = []
  step := Trust.step sha256

variable {sha256 : CertificateDer → List UInt8} {trust next : Trust} {event : Event}
variable {der der' : CertificateDer} {fingerprint contents : String}

/-! Fingerprints. -/

theorem digitChar_not_whitespace {n : Nat} (small : n < 16) :
    isWhitespace (Nat.digitChar n) = false := by
  have each : ∀ digit : Fin 16, isWhitespace (Nat.digitChar digit) = false := by decide
  exact each ⟨n, small⟩

theorem dropWhile_of_none {p : Char → Bool} {text : List Char} (clear : ∀ c ∈ text, p c = false) :
    text.dropWhile p = text := by
  cases text with
  | nil => rfl
  | cons c rest => exact List.dropWhile_cons_of_neg (by simp [clear c])

/-- A fingerprint that is written and read again is the same. -/
theorem trim_hexSha256 (sha256 : CertificateDer → List UInt8) (der : CertificateDer) :
    String.ofList (trim (hexSha256 sha256 der).toList) = hexSha256 sha256 der := by
  have clear : ∀ c ∈ (sha256 der).flatMap hexByte, isWhitespace c = false := by
    intro c member
    obtain ⟨byte, _, isDigit⟩ := List.mem_flatMap.1 member
    have small := byte.toNat_lt
    simp only [hexByte, List.mem_cons, List.not_mem_nil, or_false] at isDigit
    rcases isDigit with rfl | rfl
    · exact digitChar_not_whitespace (by omega)
    · exact digitChar_not_whitespace (by omega)
  have backwards : ∀ c ∈ ((sha256 der).flatMap hexByte).reverse, isWhitespace c = false :=
    fun c member => clear c (List.mem_reverse.1 member)
  simp only [hexSha256, String.toList_ofList, trim, dropWhile_of_none clear,
    dropWhile_of_none backwards, List.reverse_reverse]

theorem verifyServerCert_ok {verifier verifier' : FingerprintVerifier} :
    verifier.verifyServerCert sha256 der = .ok verifier' ↔
      (∀ expected ∈ verifier.expected, expected = hexSha256 sha256 der) ∧
        verifier' = { verifier with captured := some (hexSha256 sha256 der) } := by
  simp only [FingerprintVerifier.verifyServerCert]
  split
  · rename_i expected isExpected
    by_cases same : expected = hexSha256 sha256 der
    · simp [isExpected, same, eq_comm]
    · simp [isExpected, same]
  · rename_i isExpected
    simp [isExpected, eq_comm]

/-! One certificate. -/

/-- An existing pin can be read. The channel of an attempt without a pin presents one certificate,
and once that is accepted the attempt goes on until the pin is written. -/
def Steady (sha256 : CertificateDer → List UInt8) (trust : Trust) : Event → Prop
  | .dial failure => trust.pinFile.isSome → failure = none
  | .handshake endEntity => ∀ attempt, trust.attempt = some attempt →
      attempt.isFirstConnect = true → ∀ fingerprint, attempt.verifier.captured = some fingerprint →
        hexSha256 sha256 endEntity = fingerprint
  | .connected written => ∀ attempt, trust.attempt = some attempt →
      attempt.isFirstConnect = true → written = .done
  | .ends => ∀ attempt, trust.attempt = some attempt → attempt.isFirstConnect = true →
      attempt.connected = false → attempt.verifier.captured = none

/-- The attempt without a pin. -/
structure FirstConnect (sha256 : CertificateDer → List UInt8) (trust : Trust) (attempt : Attempt) :
    Prop where
  expected : attempt.verifier.expected = none
  captured : ∀ fingerprint, attempt.verifier.captured = some fingerprint →
    (∃ der, fingerprint = hexSha256 sha256 der) ∧
      ∀ der ∈ trust.accepted, hexSha256 sha256 der = fingerprint
  fresh : attempt.verifier.captured = none → trust.accepted = []
  pinned : if attempt.connected then attempt.verifier.captured.isSome ∧
      trust.pinFile = attempt.verifier.captured else trust.pinFile = none

/-- Whatever has been accepted matches the pin, or is waiting to become it. -/
structure Pinned (sha256 : CertificateDer → List UInt8) (trust : Trust) : Prop where
  matching : ∀ contents, trust.pinFile = some contents → ∀ der ∈ trust.accepted,
    hexSha256 sha256 der = String.ofList (trim contents.toList)
  unpinned : trust.pinFile = none → trust.accepted = [] ∨ trust.attempt.isSome
  expecting : ∀ attempt, trust.attempt = some attempt → attempt.isFirstConnect = false →
    ∃ contents, trust.pinFile = some contents ∧
      attempt.verifier.expected = some (String.ofList (trim contents.toList))
  first : ∀ attempt, trust.attempt = some attempt → attempt.isFirstConnect = true →
    FirstConnect sha256 trust attempt

theorem Pinned.initial (isInitial : (machine sha256).initial trust) : Pinned sha256 trust := by
  obtain ⟨noAttempt, noneAccepted⟩ := isInitial
  refine ⟨?_, fun _ => .inl noneAccepted, ?_, ?_⟩
  · simp [noneAccepted]
  · simp [noAttempt]
  · simp [noAttempt]

theorem expectedFingerprint_readPin {failure : Option String}
    (steady : Steady sha256 trust (.dial failure)) :
    expectedFingerprint (trust.readPin failure) =
      trust.pinFile.map fun contents => String.ofList (trim contents.toList) := by
  cases isPin : trust.pinFile with
  | none => cases failure <;> simp [expectedFingerprint, Trust.readPin, isPin, Except.toOption]
  | some contents =>
      have read : failure = none := steady (by simp [isPin])
      simp [expectedFingerprint, Trust.readPin, isPin, read, Except.toOption]

theorem Pinned.dial {failure : Option String} (pinned : Pinned sha256 trust)
    (steady : Steady sha256 trust (.dial failure)) (stepped : trust.dial failure = some next) :
    Pinned sha256 next := by
  simp only [Trust.dial, expectedFingerprint_readPin steady] at stepped
  split at stepped
  · cases stepped
  · rename_i idle
    cases stepped
    refine ⟨pinned.matching, fun _ => .inr rfl, ?_, ?_⟩
    · intro attempt isAttempt notFirst
      cases isAttempt
      obtain ⟨contents, isPin⟩ := Option.isSome_iff_exists.1
        (by simpa using notFirst : trust.pinFile.isSome = true)
      exact ⟨contents, isPin, by simp [FingerprintVerifier.new, isPin]⟩
    · intro attempt isAttempt isFirst
      cases isAttempt
      have noPin : trust.pinFile = none := by simpa using isFirst
      have fresh : trust.accepted = [] := by
        rcases pinned.unpinned noPin with fresh | busy
        · exact fresh
        · simp [idle] at busy
      exact ⟨by simp [FingerprintVerifier.new, noPin], nofun, fun _ => fresh, noPin⟩

/-- What an attempt without a pin accepts is what it has accepted before. -/
theorem FirstConnect.handshake {attempt : Attempt} (first : FirstConnect sha256 trust attempt)
    (same : ∀ fingerprint, attempt.verifier.captured = some fingerprint →
      hexSha256 sha256 der = fingerprint) :
    ∀ other ∈ der :: trust.accepted, hexSha256 sha256 other = hexSha256 sha256 der := by
  intro other member
  rcases List.mem_cons.1 member with rfl | old
  · rfl
  · cases isCaptured : attempt.verifier.captured with
    | none =>
        rw [first.fresh isCaptured] at old
        cases old
    | some fingerprint =>
        exact ((first.captured fingerprint isCaptured).2 other old).trans
          (same fingerprint isCaptured).symm

theorem Pinned.handshake (pinned : Pinned sha256 trust)
    (steady : Steady sha256 trust (.handshake der)) (stepped : trust.handshake sha256 der = some next) :
    Pinned sha256 next := by
  simp only [Trust.handshake] at stepped
  split at stepped
  · cases stepped
  rename_i attempt isAttempt
  split at stepped
  · cases stepped
    exact pinned
  rename_i verifier accepts
  cases stepped
  obtain ⟨expects, rfl⟩ := verifyServerCert_ok.1 accepts
  cases isFirst : attempt.isFirstConnect with
  | false =>
      obtain ⟨contents, isPin, isExpected⟩ := pinned.expecting attempt isAttempt isFirst
      refine ⟨?_, fun _ => .inr rfl, ?_, ?_⟩
      · intro contents' isPin' other member
        cases isPin.symm.trans isPin'
        rcases List.mem_cons.1 member with rfl | old
        · exact (expects _ isExpected).symm
        · exact pinned.matching contents isPin other old
      · intro attempt' isAttempt' _
        cases isAttempt'
        exact ⟨contents, isPin, isExpected⟩
      · intro attempt' isAttempt' isFirst'
        cases isAttempt'
        cases isFirst'
  | true =>
      have first := pinned.first attempt isAttempt isFirst
      have same := steady attempt isAttempt isFirst
      have all := first.handshake same
      have isPinned := first.pinned
      refine ⟨?_, fun _ => .inr rfl, ?_, ?_⟩
      · intro contents isPin other member
        split at isPinned
        · obtain ⟨fingerprint, isCaptured⟩ := Option.isSome_iff_exists.1 isPinned.1
          have isContents : contents = hexSha256 sha256 der := by
            rw [same fingerprint isCaptured]
            exact Option.some.inj (isPin.symm.trans (isPinned.2.trans isCaptured))
          rw [all other member, isContents, trim_hexSha256]
        · cases isPin.symm.trans isPinned
      · intro attempt' isAttempt' notFirst
        cases isAttempt'
        cases notFirst
      · intro attempt' isAttempt' _
        cases isAttempt'
        refine ⟨first.expected, ?_, nofun, ?_⟩
        · intro fingerprint isCaptured
          cases isCaptured
          exact ⟨⟨der, rfl⟩, all⟩
        · dsimp only
          split at isPinned
          · rename_i isConnected
            obtain ⟨fingerprint, isCaptured⟩ := Option.isSome_iff_exists.1 isPinned.1
            rw [if_pos isConnected, same fingerprint isCaptured]
            exact ⟨rfl, isPinned.2.trans isCaptured⟩
          · rename_i notConnected
            rw [if_neg notConnected]
            exact isPinned

theorem Pinned.connected {written : Write} (pinned : Pinned sha256 trust)
    (steady : Steady sha256 trust (.connected written)) (stepped : trust.connected written = some next) :
    Pinned sha256 next := by
  simp only [Trust.connected] at stepped
  split at stepped
  · cases stepped
  rename_i attempt isAttempt
  split at stepped
  · cases stepped
  rename_i fingerprint isCaptured
  split at stepped
  · cases stepped
  rename_i notConnected
  split at stepped
  · rename_i isFirst
    have isDone := steady attempt isAttempt isFirst
    subst isDone
    have first := pinned.first attempt isAttempt isFirst
    obtain ⟨⟨der, rfl⟩, all⟩ := first.captured fingerprint isCaptured
    cases stepped
    refine ⟨?_, fun _ => .inr rfl, ?_, ?_⟩
    · intro contents isPin other member
      cases isPin
      exact (all other member).trans (trim_hexSha256 sha256 der).symm
    · intro attempt' isAttempt' notFirst
      cases isAttempt'
      rw [isFirst] at notFirst
      cases notFirst
    · intro attempt' isAttempt' _
      cases isAttempt'
      exact ⟨first.expected, first.captured, first.fresh, by simp [Trust.writePin, isCaptured]⟩
  · rename_i notFirst
    have notFirst : attempt.isFirstConnect = false := by simpa using notFirst
    cases stepped
    refine ⟨pinned.matching, fun _ => .inr rfl, ?_, ?_⟩
    · intro attempt' isAttempt' _
      cases isAttempt'
      exact pinned.expecting attempt isAttempt notFirst
    · intro attempt' isAttempt' isFirst
      cases isAttempt'
      rw [notFirst] at isFirst
      cases isFirst

theorem Pinned.ends (pinned : Pinned sha256 trust) (steady : Steady sha256 trust .ends)
    (stepped : trust.ends = some next) : Pinned sha256 next := by
  obtain ⟨attempt, isAttempt, rfl⟩ := Option.map_eq_some_iff.1 stepped
  refine ⟨pinned.matching, fun noPin => .inl ?_, nofun, nofun⟩
  cases isFirst : attempt.isFirstConnect with
  | false =>
      obtain ⟨contents, isPin, _⟩ := pinned.expecting attempt isAttempt isFirst
      cases noPin.symm.trans isPin
  | true =>
      have first := pinned.first attempt isAttempt isFirst
      have isPinned := first.pinned
      cases isConnected : attempt.connected with
      | false => exact first.fresh (steady attempt isAttempt isFirst isConnected)
      | true =>
          rw [isConnected, if_pos rfl] at isPinned
          rw [← isPinned.2, show trust.pinFile = none from noPin] at isPinned
          cases isPinned.1

theorem Pinned.moves (pinned : Pinned sha256 trust) (steady : Steady sha256 trust event)
    (stepped : trust.step sha256 event = some next) : Pinned sha256 next := by
  cases event with
  | dial failure => exact pinned.dial steady stepped
  | handshake endEntity => exact pinned.handshake steady stepped
  | connected written => exact pinned.connected steady stepped
  | ends => exact pinned.ends steady stepped

/-- Nothing writes over a pin. -/
theorem Pinned.pin_stays (pinned : Pinned sha256 trust)
    (stepped : trust.step sha256 event = some next) (isPin : trust.pinFile = some contents) :
    next.pinFile = some contents := by
  cases event with
  | dial failure =>
      simp only [Trust.step, Trust.dial] at stepped
      split at stepped <;> cases stepped
      exact isPin
  | handshake endEntity =>
      simp only [Trust.step, Trust.handshake] at stepped
      split at stepped
      · cases stepped
      · split at stepped <;> cases stepped <;> exact isPin
  | connected written =>
      simp only [Trust.step, Trust.connected] at stepped
      split at stepped
      · cases stepped
      rename_i attempt isAttempt
      split at stepped
      · cases stepped
      split at stepped
      · cases stepped
      rename_i notConnected
      split at stepped
      · rename_i isFirst
        have isPinned := (pinned.first attempt isAttempt isFirst).pinned
        rw [if_neg notConnected] at isPinned
        cases isPinned.symm.trans isPin
      · cases stepped
        exact isPin
  | ends =>
      obtain ⟨_, _, rfl⟩ := Option.map_eq_some_iff.1 stepped
      exact isPin

theorem Pinned.agree (pinned : Pinned sha256 trust) (member : der ∈ trust.accepted)
    (member' : der' ∈ trust.accepted) : hexSha256 sha256 der = hexSha256 sha256 der' := by
  cases isPin : trust.pinFile with
  | some contents =>
      exact (pinned.matching contents isPin der member).trans
        (pinned.matching contents isPin der' member').symm
  | none =>
      rcases pinned.unpinned isPin with empty | busy
      · rw [empty] at member
        cases member
      obtain ⟨attempt, isAttempt⟩ := Option.isSome_iff_exists.1 busy
      cases isFirst : attempt.isFirstConnect with
      | false =>
          obtain ⟨contents, isPin', _⟩ := pinned.expecting attempt isAttempt isFirst
          cases isPin.symm.trans isPin'
      | true =>
          have first := pinned.first attempt isAttempt isFirst
          cases isCaptured : attempt.verifier.captured with
          | none =>
              rw [first.fresh isCaptured] at member
              cases member
          | some fingerprint =>
              have all := (first.captured fingerprint isCaptured).2
              exact (all der member).trans (all der' member').symm

theorem pinned_of_steady (reachable : (machine sha256).ReachableBy (Steady sha256) trust) :
    Pinned sha256 trust :=
  reachable.invariant (Pinned sha256) (fun _ => Pinned.initial)
    fun _ _ _ pinned stepped steady => pinned.moves steady stepped

/-- Of a steady agent all accepted certificates have one fingerprint, and its pin stays. -/
theorem one_certificate_pinned (reachable : (machine sha256).ReachableBy (Steady sha256) trust) :
    (∀ der ∈ trust.accepted, ∀ der' ∈ trust.accepted,
      hexSha256 sha256 der = hexSha256 sha256 der') ∧
    ∀ event next contents, trust.step sha256 event = some next → trust.pinFile = some contents →
      next.pinFile = some contents := by
  have pinned := pinned_of_steady reachable
  exact ⟨fun _ member _ member' => pinned.agree member member',
    fun _ _ _ stepped isPin => pinned.pin_stays stepped isPin⟩

/-! A pin that cannot be read. -/

/-- The certificate of the hub, and that of somebody else. -/
def hubCertificate : CertificateDer := [0x30, 0x00]

def otherCertificate : CertificateDer := [0x30, 0x01, 0x00]

/-- The digests of the two. -/
def digests (der : CertificateDer) : List UInt8 :=
  if der = hubCertificate then
    [228, 246, 13, 10, 166, 215, 243, 211, 182, 166, 73, 75, 28, 134, 27, 153,
      246, 73, 198, 249, 236, 81, 171, 175, 32, 27, 32, 242, 151, 50, 124, 149]
  else
    [237, 200, 193, 239, 169, 179, 169, 220, 8, 185, 93, 208, 35, 100, 114, 190,
      33, 103, 196, 235, 73, 148, 252, 30, 221, 163, 62, 141, 238, 252, 26, 69]

def newAgent : Trust := ⟨none, none, []⟩

theorem initial_newAgent : (machine digests).initial newAgent := ⟨rfl, rfl⟩

def firstConnect : List Event :=
  [.dial none, .handshake hubCertificate, .connected .done, .ends]

/-- Enough for `Steady`. -/
def checkSteady (trust : Trust) (event : Event) : Bool :=
  match event, trust.attempt with
  | .dial failure, _ => failure.isNone
  | .handshake endEntity, some attempt =>
      attempt.verifier.captured.all fun fingerprint => hexSha256 digests endEntity = fingerprint
  | .connected written, _ => written = .done
  | .ends, some attempt => attempt.connected
  | _, none => true

theorem steady_of_check (checked : checkSteady trust event = true) : Steady digests trust event := by
  cases event with
  | dial failure => exact fun _ => Option.isNone_iff_eq_none.1 checked
  | handshake endEntity =>
      intro attempt isAttempt _ fingerprint isCaptured
      simp only [checkSteady, isAttempt, isCaptured, Option.all_some, decide_eq_true_eq] at checked
      exact checked
  | connected written => exact fun _ _ _ => of_decide_eq_true checked
  | ends =>
      intro attempt isAttempt _ notConnected
      simp only [checkSteady, isAttempt, notConnected] at checked
      cases checked

theorem one_certificate_pinned_reconnecting : ∃ trust : Trust,
    trust.accepted = [hubCertificate, hubCertificate] ∧
    (∀ der ∈ trust.accepted, ∀ der' ∈ trust.accepted,
      hexSha256 digests der = hexSha256 digests der') ∧
    ∀ event next contents, trust.step digests event = some next → trust.pinFile = some contents →
      next.pinFile = some contents := by
  obtain ⟨trust, reachable, isTrust⟩ := (machine digests).exists_of_play (Steady digests)
    checkSteady (fun trust => trust.accepted = [hubCertificate, hubCertificate])
    (fun _ _ => steady_of_check) initial_newAgent
    (firstConnect ++ [.dial none, .handshake otherCertificate, .handshake hubCertificate])
    (by decide +kernel)
  exact ⟨trust, of_decide_eq_true isTrust, one_certificate_pinned reachable⟩

/-- After a failure to read the pin, another certificate is accepted and pinned instead. -/
theorem pin_replaced : ∃ trust next : Trust, (machine digests).Reachable trust ∧
    trust.accepted = [otherCertificate, hubCertificate] ∧
    hexSha256 digests otherCertificate ≠ hexSha256 digests hubCertificate ∧
    trust.pinFile = some (hexSha256 digests hubCertificate) ∧
    trust.step digests (.connected .done) = some next ∧
    next.pinFile = some (hexSha256 digests otherCertificate) := by
  obtain ⟨trust, reachable, holds⟩ := (machine digests).exists_of_play (fun _ _ => True)
    (fun _ _ => true) (fun trust => trust.accepted = [otherCertificate, hubCertificate] &&
      (trust.pinFile = some (hexSha256 digests hubCertificate) &&
        (trust.step digests (.connected .done)).any fun next =>
          next.pinFile = some (hexSha256 digests otherCertificate)))
    (fun _ _ _ => trivial) initial_newAgent
    (firstConnect ++ [.dial (some "Input/output error (os error 5)"), .handshake otherCertificate])
    (by decide +kernel)
  rw [Bool.and_eq_true, Bool.and_eq_true, decide_eq_true_eq, decide_eq_true_eq,
    Option.any_eq_true] at holds
  obtain ⟨isAccepted, isPin, next, stepped, replaced⟩ := holds
  exact ⟨trust, next, reachable, isAccepted, by decide +kernel, isPin, stepped,
    of_decide_eq_true replaced⟩

end Berth.HubTls
