import Berth.Auth.Accounts
import Berth.Session.Http

/-!
Which requests are for the control plane and which for an app, by the host that they name. The
Unicode tables of `str::to_lowercase` are a parameter, of which only the part for ASCII is fixed.
-/

namespace Berth

open Auth (splitOnce splitOnce_eq_some)

def isAscii (text : String) : Prop := ∀ c ∈ text.toList, c.toNat < 128

instance (text : String) : Decidable (isAscii text) :=
  decidable_of_iff (text.toList.all fun c => decide (c.toNat < 128)) (by simp [isAscii])

def lowerAscii (text : String) : String := String.ofList (text.toList.map Char.toLower)

/-- `str::to_lowercase`. -/
structure ToLowercase where
  apply : String → String
  ascii : ∀ text, isAscii text → apply text = lowerAscii text

inductive HostMatch where
  | controlPlane
  | app (label : String)
  | unrecognized
  deriving DecidableEq

/-- The host without a port. -/
def cutHost (host : String) : String :=
  match splitOnce ':' host.toList with
  | some (front, _) => String.ofList front
  | none => host

def stripSuffix (tail text : String) : Option String :=
  (text.toList.dropSuffix? tail.toList).map String.ofList

def classifyHost (toLowercase : ToLowercase) (host baseDomain : String) : HostMatch :=
  let host := toLowercase.apply (cutHost host)
  let baseDomain := toLowercase.apply baseDomain
  if host = baseDomain then .controlPlane
  else
    match stripSuffix ("." ++ baseDomain) host with
    | some label => if label ≠ "" then .app label else .unrecognized
    | none => .unrecognized

/-- The headers of a request, and the authority of its URI if there is one. -/
structure HostRequest where
  headers : HeaderMap
  authority : Option String

/-- `to_str` of a `Host` header that is not visible ASCII fails, and then the URI counts. -/
def resolveHost (request : HostRequest) : Option String :=
  ((request.headers.get "host").bind HeaderValue.toStr).or request.authority

/-- Where a request goes on: into the control plane's router, or to the storage lookup of an app. -/
inductive Dispatched where
  | notFound
  | controlPlane
  | lookup (appName : String)
  deriving DecidableEq

/-- `apps::serve`, up to the lookup. -/
def serve (appName : String) : Dispatched :=
  match validateSlug appName with
  | .ok _ => .lookup appName
  | .error _ => .notFound

def dispatchByHost (toLowercase : ToLowercase) (baseDomain : String) (request : HostRequest) :
    Dispatched :=
  match resolveHost request with
  | none => .notFound
  | some host =>
      match classifyHost toLowercase host baseDomain with
      | .controlPlane => .controlPlane
      | .app label => serve label
      | .unrecognized => .notFound

variable {toLowercase : ToLowercase} {text host base label slug : String} {c : Char}

theorem toNat_toLower (c : Char) :
    c.toLower.toNat = if 65 ≤ c.toNat ∧ c.toNat ≤ 90 then c.toNat + 32 else c.toNat := by
  unfold Char.toLower
  by_cases isUpper : c.val ≥ 'A'.val ∧ c.val ≤ 'Z'.val
  · rw [dif_pos isUpper]
    obtain ⟨lower, upper⟩ := isUpper
    have lower : 65 ≤ c.toNat := lower
    have upper : c.toNat ≤ 90 := upper
    have sum : (c.val + ('a'.val - 'A'.val)).toNat = c.val.toNat + 32 := by
      rw [UInt32.toNat_add]
      exact Nat.mod_eq_of_lt (show c.toNat + 32 < 2 ^ 32 by omega)
    rw [if_pos ⟨lower, upper⟩]
    exact sum
  · rw [dif_neg isUpper, if_neg]
    exact isUpper

theorem toLower_ascii : c.toLower.toNat < 128 ↔ c.toNat < 128 := by
  rw [toNat_toLower]
  split <;> omega

theorem toLower_eq_colon : c.toLower = ':' ↔ c = ':' := by
  rw [← Char.toNat_inj, ← Char.toNat_inj, toNat_toLower]
  have colon : ':'.toNat = 58 := rfl
  split <;> omega

theorem lowerAscii_append {other : String} :
    lowerAscii (text ++ other) = lowerAscii text ++ lowerAscii other := by
  simp [lowerAscii, String.ofList_append]

theorem isAscii_lowerAscii : isAscii (lowerAscii text) ↔ isAscii text := by
  simp [isAscii, lowerAscii, toLower_ascii]

theorem colon_lowerAscii : ':' ∈ (lowerAscii text).toList ↔ ':' ∈ text.toList := by
  simp [lowerAscii, toLower_eq_colon]

theorem cutHost_eq (absent : ':' ∉ host.toList) {port : String}
    (isPort : port = "" ∨ ∃ digits, port = ":" ++ digits) : cutHost (host ++ port) = host := by
  rcases isPort with rfl | ⟨digits, rfl⟩
  · have whole : splitOnce ':' host.toList = none := by
      rw [Option.eq_none_iff_forall_ne_some]
      rintro ⟨front, back⟩ split
      have same := (splitOnce_eq_some.1 split).1
      exact absent (by simp [same])
    simp [cutHost, whole]
  · have split : splitOnce ':' (host ++ (":" ++ digits)).toList = some (host.toList, digits.toList) :=
      splitOnce_eq_some.2 ⟨by simp, absent⟩
    rw [cutHost, split]
    exact String.ofList_toList

theorem stripSuffix_eq_some {tail : String} :
    stripSuffix tail text = some label ↔ text = label ++ tail := by
  rw [stripSuffix, Option.map_eq_some_iff]
  constructor
  · rintro ⟨front, dropped, rfl⟩
    obtain ⟨back, same, isTail⟩ := List.dropSuffix?_eq_some_iff.1 dropped
    rw [← String.toList_inj, same, eq_of_beq isTail]
    simp
  · rintro rfl
    exact ⟨label.toList, List.dropSuffix?_eq_some_iff.2 ⟨tail.toList, by simp, BEq.rfl⟩, by simp⟩

theorem classifyHost_controlPlane : classifyHost toLowercase host base = .controlPlane ↔
    toLowercase.apply (cutHost host) = toLowercase.apply base := by
  unfold classifyHost
  constructor
  · intro classified
    dsimp only at classified
    split at classified
    · assumption
    · split at classified
      · split at classified <;> cases classified
      · cases classified
  · exact fun same => if_pos same

theorem classifyHost_app : classifyHost toLowercase host base = .app label ↔
    label ≠ "" ∧ toLowercase.apply (cutHost host) = label ++ ("." ++ toLowercase.apply base) := by
  unfold classifyHost
  constructor
  · intro classified
    dsimp only at classified
    split at classified
    · cases classified
    · split at classified
      · rename_i stripped
        split at classified
        · rename_i nonempty
          cases classified
          exact ⟨nonempty, stripSuffix_eq_some.1 stripped⟩
        · cases classified
      · cases classified
  · rintro ⟨nonempty, same⟩
    have longer : toLowercase.apply (cutHost host) ≠ toLowercase.apply base := by
      intro isBase
      rw [same] at isBase
      have lengths := congrArg String.length isBase
      simp only [String.length_append] at lengths
      have dot : ".".length = 1 := rfl
      omega
    rw [if_neg longer, stripSuffix_eq_some.2 same]
    exact if_pos nonempty

theorem slug_bounds (valid : validateSlug slug = .ok ()) : slug ≠ "" ∧ ∀ c ∈ slug.toList,
    97 ≤ c.toNat ∧ c.toNat ≤ 122 ∨ 48 ≤ c.toNat ∧ c.toNat ≤ 57 ∨ c.toNat = 45 := by
  unfold validateSlug at valid
  dsimp only at valid
  split at valid
  · rename_i checks
    simp only [Bool.and_eq_true, List.all_eq_true] at checks
    obtain ⟨⟨⟨⟨nonempty, _⟩, _⟩, _⟩, chars⟩ := checks
    refine ⟨by rintro rfl; simp at nonempty, ?_⟩
    intro c member
    have char := chars c member
    simp only [isAsciiLowercase, isAsciiDigit, Bool.or_eq_true, Bool.and_eq_true,
      decide_eq_true_eq, beq_iff_eq] at char
    rcases char with (⟨lower, upper⟩ | ⟨lower, upper⟩) | rfl
    · exact .inl ⟨lower, upper⟩
    · exact .inr (.inl ⟨lower, upper⟩)
    · exact .inr (.inr rfl)
  · cases valid

theorem slug_chars (valid : validateSlug slug = .ok ()) :
    slug ≠ "" ∧ ∀ c ∈ slug.toList, c.toNat < 128 ∧ c.toLower = c ∧ c ≠ ':' := by
  obtain ⟨nonempty, bounds⟩ := slug_bounds valid
  refine ⟨nonempty, fun c member => ?_⟩
  have bounds := bounds c member
  refine ⟨by omega, ?_, ?_⟩
  · rw [← Char.toNat_inj, toNat_toLower, if_neg (by omega)]
  · rintro rfl
    have colon : ':'.toNat = 58 := rfl
    omega

theorem lowerAscii_slug (valid : validateSlug slug = .ok ()) : lowerAscii slug = slug := by
  have same : slug.toList.map Char.toLower = slug.toList.map id :=
    List.map_congr_left fun c member => ((slug_chars valid).2 c member).2.1
  rw [lowerAscii, same, List.map_id, String.ofList_toList]

/-- A host that is the app's name up to the case of its letters, with or without a port. -/
def NamesApp (base slug host : String) : Prop :=
  ∃ name port, host = name ++ port ∧ lowerAscii name = lowerAscii (slug ++ ("." ++ base)) ∧
    (port = "" ∨ ∃ digits, port = ":" ++ digits)

theorem classifyHost_of_names (ascii : isAscii base) (noColon : ':' ∉ base.toList)
    (valid : validateSlug slug = .ok ()) (names : NamesApp base slug host) :
    classifyHost toLowercase host base = .app slug := by
  obtain ⟨name, port, rfl, same, isPort⟩ := names
  obtain ⟨nonempty, chars⟩ := slug_chars valid
  have whole : isAscii (slug ++ ("." ++ base)) := by
    intro c member
    simp only [String.toList_append, List.mem_append] at member
    rcases member with member | member | member
    · exact (chars c member).1
    · have dot : c = '.' := by simpa using member
      rw [dot]
      decide
    · exact ascii c member
  have nameAscii : isAscii name := by
    rw [← isAscii_lowerAscii, same, isAscii_lowerAscii]
    exact whole
  have absent : ':' ∉ name.toList := by
    rw [← colon_lowerAscii, same, colon_lowerAscii]
    intro member
    simp only [String.toList_append, List.mem_append] at member
    rcases member with member | member | member
    · exact (chars ':' member).2.2 rfl
    · simp at member
    · exact noColon member
  rw [classifyHost_app, cutHost_eq absent isPort, toLowercase.ascii name nameAscii, same,
    toLowercase.ascii base ascii, lowerAscii_append, lowerAscii_append, lowerAscii_slug valid]
  exact ⟨nonempty, rfl⟩

theorem serve_eq_lookup {appName : String} : serve appName = .lookup label ↔
    appName = label ∧ validateSlug label = .ok () := by
  unfold serve
  constructor
  · intro served
    split at served
    · rename_i valid
      cases served
      exact ⟨rfl, valid⟩
    · cases served
  · rintro ⟨rfl, valid⟩
    rw [valid]

theorem dispatch_lookup {request : HostRequest} :
    dispatchByHost toLowercase base request = .lookup label ↔
      ∃ host, resolveHost request = some host ∧
        toLowercase.apply (cutHost host) = label ++ ("." ++ toLowercase.apply base) ∧
        validateSlug label = .ok () := by
  unfold dispatchByHost
  constructor
  · intro dispatched
    split at dispatched
    · cases dispatched
    · rename_i host resolved
      refine ⟨host, resolved, ?_⟩
      split at dispatched
      · cases dispatched
      · rename_i classified
        obtain ⟨rfl, valid⟩ := serve_eq_lookup.1 dispatched
        exact ⟨(classifyHost_app.1 classified).2, valid⟩
      · cases dispatched
  · rintro ⟨host, resolved, same, valid⟩
    rw [resolved]
    dsimp only
    rw [classifyHost_app.2 ⟨(slug_chars valid).1, same⟩]
    exact serve_eq_lookup.2 ⟨rfl, valid⟩

theorem dispatch_controlPlane {request : HostRequest} :
    dispatchByHost toLowercase base request = .controlPlane ↔
      ∃ host, resolveHost request = some host ∧
        toLowercase.apply (cutHost host) = toLowercase.apply base := by
  unfold dispatchByHost
  constructor
  · intro dispatched
    split at dispatched
    · cases dispatched
    · rename_i host resolved
      refine ⟨host, resolved, ?_⟩
      split at dispatched
      · rename_i classified
        exact classifyHost_controlPlane.1 classified
      · unfold serve at dispatched
        split at dispatched <;> cases dispatched
      · cases dispatched
  · rintro ⟨host, resolved, same⟩
    rw [resolved]
    dsimp only
    rw [classifyHost_controlPlane.2 same]

def isVisible (text : String) : Prop := ∀ c ∈ text.toList, 32 ≤ c.toNat ∧ c.toNat < 127

theorem exists_headerValue (visible : isVisible text) :
    ∃ value : HeaderValue, value.toStr = some text := by
  have char (c : Char) (member : c ∈ text.toList) :
      (UInt8.ofNat c.toNat).toNat = c.toNat ∧ isVisibleAscii (UInt8.ofNat c.toNat) = true := by
    obtain ⟨lower, upper⟩ := visible c member
    have small : (UInt8.ofNat c.toNat).toNat = c.toNat := by
      rw [UInt8.toNat_ofNat']
      exact Nat.mod_eq_of_lt (by omega)
    refine ⟨small, ?_⟩
    simp only [isVisibleAscii, decide_eq_true_eq, UInt8.le_iff_toNat_le, UInt8.lt_iff_toNat_lt, small]
    exact .inl ⟨lower, upper⟩
  refine ⟨⟨text.toList.map fun c => UInt8.ofNat c.toNat, ?_⟩, ?_⟩
  · intro byte member
    obtain ⟨c, inside, rfl⟩ := List.mem_map.1 member
    exact isHeaderByte_of_visible (char c inside).2
  · have all : (text.toList.map fun c => UInt8.ofNat c.toNat).all isVisibleAscii = true := by
      simpa using fun c member => (char c member).2
    have back : text.toList.map (fun c => Char.ofNat (UInt8.ofNat c.toNat).toNat) =
        text.toList.map id := by
      refine List.map_congr_left fun c member => ?_
      rw [(char c member).1, Char.ofNat_toNat]
      rfl
    simp only [HeaderValue.toStr]
    rw [if_pos all, List.map_map]
    rw [Function.comp_def, back, List.map_id, String.ofList_toList]

theorem visible_name (visible : isVisible base) (valid : validateSlug slug = .ok ()) :
    isVisible (slug ++ ("." ++ base)) := by
  intro c member
  simp only [String.toList_append, List.mem_append] at member
  rcases member with member | member | member
  · have bounds := (slug_bounds valid).2 c member
    omega
  · have dot : c = '.' := by simpa using member
    rw [dot]
    decide
  · exact visible c member

def hostHeader : HeaderName := ⟨"host", by decide⟩

/-- The hosts of the apps and the host of the control plane. -/
structure ExactRouting (toLowercase : ToLowercase) (base : String) : Prop where
  app : ∀ slug host, validateSlug slug = .ok () → NamesApp base slug host →
    classifyHost toLowercase host base = .app slug
  lookup : ∀ request label, dispatchByHost toLowercase base request = .lookup label ↔
    ∃ host, resolveHost request = some host ∧
      toLowercase.apply (cutHost host) = label ++ ("." ++ lowerAscii base) ∧
      validateSlug label = .ok ()
  controlPlane : ∀ request, dispatchByHost toLowercase base request = .controlPlane ↔
    ∃ host, resolveHost request = some host ∧
      toLowercase.apply (cutHost host) = lowerAscii base
  injective : ∀ slug other host, validateSlug slug = .ok () → validateSlug other = .ok () →
    NamesApp base slug host → NamesApp base other host → slug = other
  apart : ∀ slug host, validateSlug slug = .ok () → NamesApp base slug host →
    classifyHost toLowercase host base ≠ .controlPlane
  reached : ∀ slug host request, validateSlug slug = .ok () → NamesApp base slug host →
    resolveHost request = some host → dispatchByHost toLowercase base request = .lookup slug
  reachable : isVisible base → ∀ slug, validateSlug slug = .ok () →
    ∃ request, request.authority = none ∧ dispatchByHost toLowercase base request = .lookup slug

theorem host_routing (toLowercase : ToLowercase) (ascii : isAscii base)
    (noColon : ':' ∉ base.toList) : ExactRouting toLowercase base := by
  have app (slug host : String) (valid : validateSlug slug = .ok ())
      (names : NamesApp base slug host) : classifyHost toLowercase host base = .app slug :=
    classifyHost_of_names ascii noColon valid names
  have reached (slug host : String) (request : HostRequest) (valid : validateSlug slug = .ok ())
      (names : NamesApp base slug host) (resolved : resolveHost request = some host) :
      dispatchByHost toLowercase base request = .lookup slug :=
    dispatch_lookup.2 ⟨host, resolved, (classifyHost_app.1 (app slug host valid names)).2, valid⟩
  constructor
  · exact app
  · intro request label
    rw [dispatch_lookup, toLowercase.ascii base ascii]
  · intro request
    rw [dispatch_controlPlane, toLowercase.ascii base ascii]
  · intro slug other host valid validOther names namesOther
    have first := app slug host valid names
    rw [app other host validOther namesOther] at first
    exact (HostMatch.app.inj first).symm
  · intro slug host valid names
    rw [app slug host valid names]
    exact HostMatch.noConfusion
  · exact reached
  · intro visible slug valid
    obtain ⟨value, toStr⟩ := exists_headerValue (visible_name visible valid)
    refine ⟨⟨[(hostHeader, value)], none⟩, rfl, ?_⟩
    refine reached slug (slug ++ ("." ++ base)) _ valid ⟨_, "", by simp, rfl, .inl rfl⟩ ?_
    simp [resolveHost, HeaderMap.get, hostHeader, toStr]

/-- The lower case of ASCII alone. -/
def ToLowercase.asciiOnly : ToLowercase := ⟨lowerAscii, fun _ _ => rfl⟩

theorem host_routing_example : ExactRouting .asciiOnly "Example.com" ∧
    classifyHost .asciiOnly "BLOG.example.COM:3000" "Example.com" = .app "blog" := by
  have routing : ExactRouting .asciiOnly "Example.com" :=
    host_routing .asciiOnly (by decide +kernel) (by decide +kernel)
  refine ⟨routing, routing.app "blog" _ (by decide +kernel) ?_⟩
  exact ⟨"BLOG.example.COM", ":3000", by decide +kernel, by decide +kernel, .inr ⟨"3000", rfl⟩⟩

end Berth
