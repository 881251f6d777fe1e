import Berth.Auth.State

/-!
Roles, passwords, tokens and headers: everything the handlers compute without the database.
-/

namespace Berth.Auth

/-! Roles and the form of names and passwords. -/

inductive AccountRole where
  | admin
  | member
  deriving DecidableEq

def AccountRole.asStr : AccountRole → String
  | admin => "admin"
  | member => "member"

def AccountRole.fromStr (text : String) : AppResult AccountRole :=
  if text = "admin" then .ok .admin
  else if text = "member" then .ok .member
  else .error (.invalidRole text)

def userRole (user : User) : AppResult AccountRole := AccountRole.fromStr user.role

def minUsernameLen : Nat := 3

def minPasswordLen : Nat := 5

def validateUsername (username : String) : AppResult Unit :=
  if minUsernameLen ≤ username.utf8ByteSize ∧ username.toList.head?.any isAsciiLowercase ∧
      username.toList.all (fun c => isAsciiLowercase c || isAsciiDigit c || c = '_') then .ok ()
  else .error (.invalidUsername username)

def validatePassword (password : String) : AppResult Unit :=
  if minPasswordLen ≤ password.utf8ByteSize then .ok ()
  else .error (.invalidPassword "password must be at least 5 characters")

@[simp] theorem AccountRole.fromStr_asStr (role : AccountRole) :
    AccountRole.fromStr role.asStr = .ok role := by cases role <;> rfl

theorem AccountRole.asStr_of_fromStr {text : String} {role : AccountRole}
    (parsed : AccountRole.fromStr text = .ok role) : text = role.asStr := by
  simp only [AccountRole.fromStr] at parsed
  split at parsed
  · cases parsed; assumption
  · split at parsed
    · cases parsed; assumption
    · cases parsed

/-- Hashing with a salt and checking against a hash, as the `argon2` crate does it. -/
structure Argon2 where
  hash : (text salt : String) → Except String String
  verify : (text hashed : String) → Bool

/-- A hash is met by the text it was made from and by no other. -/
def Argon2.Exact (argon2 : Argon2) : Prop :=
  ∀ text salt hashed, argon2.hash text salt = .ok hashed →
    ∀ other, argon2.verify other hashed = true ↔ other = text

/-- Texts as their own hashes. -/
def Argon2.plain : Argon2 := ⟨fun text _ => .ok text, fun text hashed => text = hashed⟩

theorem Argon2.plain_exact : Argon2.plain.Exact := by
  intro text salt hashed isHash other
  cases isHash
  exact decide_eq_true_iff

/-- What the hub is started with. -/
structure Env where
  argon2 : Argon2
  apiTokenMaxExpiryDays : Int

/-! Cutting texts up. -/

/-- `text.split_once(mark)`. -/
def splitOnce (mark : Char) : List Char → Option (List Char × List Char)
  | [] => none
  | c :: rest =>
      if c = mark then some ([], rest)
      else (splitOnce mark rest).map fun parts => (c :: parts.1, parts.2)

def stripPrefix (lead text : String) : Option (List Char) := text.toList.dropPrefix? lead.toList

theorem splitOnce_eq_some {mark : Char} {text first rest : List Char} :
    splitOnce mark text = some (first, rest) ↔ text = first ++ mark :: rest ∧ mark ∉ first := by
  induction text generalizing first with
  | nil => simp [splitOnce]
  | cons c text ih =>
      by_cases isMark : c = mark
      · subst isMark
        simp only [splitOnce, if_true, Option.some.injEq, Prod.mk.injEq]
        constructor
        · rintro ⟨rfl, rfl⟩
          simp
        · rintro ⟨same, absent⟩
          cases first with
          | nil => exact ⟨rfl, (List.cons.inj same).2⟩
          | cons d first => exact absurd (List.cons.inj same).1 (by simp at absent; tauto)
      · simp only [splitOnce, if_neg isMark, Option.map_eq_some_iff, Prod.exists, Prod.mk.injEq]
        constructor
        · rintro ⟨front, back, split, rfl, rfl⟩
          obtain ⟨same, absent⟩ := ih.1 split
          exact ⟨by rw [same]; rfl, by simp [absent, Ne.symm isMark]⟩
        · rintro ⟨same, absent⟩
          cases first with
          | nil => exact absurd (List.cons.inj same).1 isMark
          | cons d first =>
              obtain ⟨rfl, tail⟩ := List.cons.inj same
              simp only [List.mem_cons, not_or] at absent
              exact ⟨first, rest, ih.2 ⟨tail, absent.2⟩, rfl, rfl⟩

theorem stripPrefix_eq_some {lead text : String} {rest : List Char} :
    stripPrefix lead text = some rest ↔ text.toList = lead.toList ++ rest := by
  rw [stripPrefix, List.dropPrefix?_eq_some_iff]
  constructor
  · rintro ⟨front, same, isLead⟩
    rw [same, eq_of_beq isLead]
  · intro same
    exact ⟨lead.toList, same, BEq.rfl⟩

/-! API tokens. -/

def tokenLead : String := "berth_"

/-- Signed 64-bit arithmetic, which wraps around. -/
def wrap64 (n : Int) : Int := n.bmod (2 ^ 64)

def validateExpiry (now expiresAt maxExpiryDays : Int) : AppResult Unit :=
  let maxExpiresAt := wrap64 (now + wrap64 (maxExpiryDays * 86400))
  if now < expiresAt ∧ expiresAt ≤ maxExpiresAt then .ok ()
  else .error (.invalidTokenExpiry expiresAt)

def parseBearerValue (value : String) : Option (String × String) :=
  match stripPrefix tokenLead value with
  | none => none
  | some rest =>
      (splitOnce '.' rest).map fun parts => (String.ofList parts.1, String.ofList parts.2)

def formatToken (tokenId secret : String) : String := tokenLead ++ tokenId ++ "." ++ secret

/-- A bearer value is read as the two parts it was put together from. -/
theorem parseBearerValue_eq_some {value tokenId secret : String} :
    parseBearerValue value = some (tokenId, secret) ↔
      value = formatToken tokenId secret ∧ '.' ∉ tokenId.toList := by
  have parts : ∀ rest, (splitOnce '.' rest).map
      (fun parts => (String.ofList parts.1, String.ofList parts.2)) = some (tokenId, secret) ↔
        rest = tokenId.toList ++ '.' :: secret.toList ∧ '.' ∉ tokenId.toList := by
    intro rest
    rw [Option.map_eq_some_iff]
    constructor
    · rintro ⟨⟨first, second⟩, split, eq⟩
      cases eq
      simpa using splitOnce_eq_some.1 split
    · rintro ⟨same, absent⟩
      exact ⟨(tokenId.toList, secret.toList), splitOnce_eq_some.2 ⟨same, absent⟩, by simp⟩
  have formatted : value = formatToken tokenId secret ↔
      value.toList = tokenLead.toList ++ (tokenId.toList ++ '.' :: secret.toList) := by
    rw [← String.toList_inj]
    simp [formatToken]
  rw [formatted, parseBearerValue]
  constructor
  · intro parsed
    split at parsed
    · cases parsed
    · rename_i rest stripped
      obtain ⟨same, absent⟩ := (parts rest).1 parsed
      exact ⟨same ▸ stripPrefix_eq_some.1 stripped, absent⟩
  · rintro ⟨same, absent⟩
    rw [stripPrefix_eq_some.2 same]
    exact (parts _).2 ⟨rfl, absent⟩

/-! Who a request says it comes from. -/

def sessionCookie : String := "berth_session"

def headerText (headers : HeaderMap) (name : String) : Option String :=
  (headers.get name).bind HeaderValue.toStr

def cookieValue (headers : HeaderMap) (name : String) : Option String :=
  (headerText headers "cookie").bind fun header =>
    (header.toList.splitOn ';').findSome? fun pair =>
      match splitOnce '=' (trim pair) with
      | some (key, value) => if key = name.toList then some (String.ofList value) else none
      | none => none

def bearerToken (headers : HeaderMap) : Option String :=
  (headerText headers "authorization").bind fun value =>
    (stripPrefix "Bearer " value).map String.ofList

def isSafeMethod (method : String) : Bool := method ∈ ["GET", "HEAD", "OPTIONS"]

def verifySameOrigin (method : String) (headers : HeaderMap) : AppResult Unit :=
  if isSafeMethod method then .ok ()
  else if (bearerToken headers).isSome then .ok ()
  else if (cookieValue headers sessionCookie).isNone then .ok ()
  else if headerText headers "sec-fetch-site" = some "same-origin" then .ok ()
  else .error (.forbidden "cross-origin request rejected")

end Berth.Auth
