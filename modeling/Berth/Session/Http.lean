import Berth.Session.Messages

/-!
The heads of relayed requests and responses: header maps, what of them fits into a message, and
what is built from a message again.
-/

namespace Berth

/-! Header names and values, as the `http` crate takes them. -/

/-- The characters of a token. -/
def isTokenChar (c : Char) : Bool :=
  c.isAlphanum || "!#$%&'*+-.^_|~".toList.contains c || c.toNat = 96

def isHeaderNameChar (c : Char) : Bool := isTokenChar c && c.toLower = c

structure HeaderName where
  text : String
  valid : text ≠ "" ∧ text.toList.all isHeaderNameChar = true
  deriving DecidableEq

/-- `HeaderName::from_bytes`: names are kept in lower case. -/
def HeaderName.parse (text : String) : Option HeaderName :=
  let lower := String.ofList (text.toList.map Char.toLower)
  if valid : lower ≠ "" ∧ lower.toList.all isHeaderNameChar = true then
    some ⟨lower, valid⟩
  else none

def isHeaderByte (byte : UInt8) : Bool := 32 ≤ byte ∧ byte ≠ 127 ∨ byte = 9

def isVisibleAscii (byte : UInt8) : Bool := 32 ≤ byte ∧ byte < 127 ∨ byte = 9

structure HeaderValue where
  bytes : Bytes
  valid : ∀ byte ∈ bytes, isHeaderByte byte = true
  deriving DecidableEq

/-- `str::as_bytes`. -/
def utf8 (text : String) : Bytes := text.toList.flatMap String.utf8EncodeChar

/-- `HeaderValue::from_str`. -/
def HeaderValue.parse (text : String) : Option HeaderValue :=
  if valid : (utf8 text).all isHeaderByte then some ⟨utf8 text, List.all_eq_true.1 valid⟩
  else none

/-- `HeaderValue::to_str`. -/
def HeaderValue.toStr (value : HeaderValue) : Option String :=
  if value.bytes.all isVisibleAscii then
    some (String.ofList (value.bytes.map fun byte => Char.ofNat byte.toNat))
  else none

/-- One entry a value. The values of one name stand in their order, and between names the order
means nothing. -/
abbrev HeaderMap : Type := List (HeaderName × HeaderValue)

/-- The values of a name. -/
def HeaderMap.getAll (headers : HeaderMap) (name : HeaderName) : List HeaderValue :=
  (headers.filter fun entry => entry.1 = name).map Prod.snd

def HeaderMap.get (headers : HeaderMap) (name : String) : Option HeaderValue :=
  (headers.find? fun entry => entry.1.text = name).map Prod.snd

def toHttpHeader (entry : HeaderName × HeaderValue) : Option HttpHeader :=
  entry.2.toStr.map fun value => ⟨entry.1.text, value⟩

/-- The headers that are sent along: those whose value is visible ASCII. -/
def visibleHeaders (headers : HeaderMap) : List HttpHeader := headers.filterMap toHttpHeader

/-- `builder.header(name, value)`. -/
def fromHttpHeader (header : HttpHeader) : Option (HeaderName × HeaderValue) :=
  match HeaderName.parse header.name, HeaderValue.parse header.value with
  | some name, some value => some (name, value)
  | _, _ => none

/-- The builder with all these headers; `none` where it fails. -/
def buildHeaders : List HttpHeader → Option HeaderMap
  | [] => some []
  | header :: rest =>
      match fromHttpHeader header, buildHeaders rest with
      | some entry, some headers => some (entry :: headers)
      | _, _ => none

def visible (headers : HeaderMap) : HeaderMap :=
  headers.filter fun entry => entry.2.toStr.isSome

/-- `StatusCode::from_u16`, with `BAD_GATEWAY` where there is no such code. -/
def statusFrom (status : Nat) : Nat := if 100 ≤ status ∧ status < 1000 then status else 502

/-! Requests and responses. -/

/-- What the next poll of a body gives. -/
inductive BodyFrame where
  | data (bytes : Bytes)
  | trailers
  | failed
  deriving DecidableEq

/-- The head of a request. -/
structure RequestParts where
  method : String
  pathAndQuery : Option String
  headers : HeaderMap
  deriving DecidableEq

structure ResponseParts where
  status : Nat
  headers : HeaderMap
  deriving DecidableEq

def requestHeadPayload (parts : RequestParts) (containerName : String)
    (containerPort : Fin (2 ^ 16)) : RelayHttpRequestHead where
  method := parts.method
  path := parts.pathAndQuery.getD "/"
  headers := visibleHeaders parts.headers
  containerName := containerName
  containerPort := containerPort

def responseHeadPayload (parts : ResponseParts) : RelayHttpResponseHead where
  status := parts.status
  headers := visibleHeaders parts.headers

/-! What asks for another protocol. -/

def trim (text : List Char) : List Char :=
  ((text.dropWhile isWhitespace).reverse.dropWhile isWhitespace).reverse

def saysUpgrade (value : String) : Bool :=
  (value.toList.splitOn ',').any fun token => (trim token).map Char.toLower = "upgrade".toList

/-- `is_upgrade_request` of the hub: it looks at the first `Connection` header only. -/
def isUpgradeRequest (headers : HeaderMap) : Bool :=
  (headers.get "upgrade").isSome &&
    (headers.get "connection").any fun value => value.toStr.any saysUpgrade

/-- `is_upgrade_request` of the agent. -/
def isUpgradeHead (headers : List HttpHeader) : Bool :=
  (headers.any fun header => header.name.toList.map Char.toLower = "upgrade".toList) &&
    headers.any fun header =>
      header.name.toList.map Char.toLower = "connection".toList && saysUpgrade header.value

/-! What is visible comes back as it was. -/

theorem HeaderName.parse_text (name : HeaderName) : HeaderName.parse name.text = some name := by
  obtain ⟨text, nonempty, chars⟩ := name
  have lowered : ∀ c ∈ text.toList, c.toLower = c := by
    intro c member
    exact of_decide_eq_true (Bool.and_eq_true_iff.1 (List.all_eq_true.1 chars c member)).2
  have lower : text.toList.map Char.toLower = text.toList := by
    calc text.toList.map Char.toLower = text.toList.map id := List.map_congr_left lowered
      _ = text.toList := List.map_id _
  have same : String.ofList (text.toList.map Char.toLower) = text := by
    rw [lower, String.ofList_toList]
  simp only [HeaderName.parse, same]
  exact dif_pos ⟨nonempty, chars⟩

theorem utf8EncodeChar_visible {byte : UInt8} (isVisible : isVisibleAscii byte = true) :
    String.utf8EncodeChar (Char.ofNat byte.toNat) = [byte] := by
  have below : byte.toNat < 128 := by
    simp only [isVisibleAscii, decide_eq_true_eq, UInt8.lt_iff_toNat_lt] at isVisible
    rcases isVisible with ⟨_, below⟩ | rfl
    · exact Nat.lt_of_lt_of_le below (by decide)
    · decide
  have ascii : ∀ n < 128, String.utf8EncodeChar (Char.ofNat n) = [UInt8.ofNat n] := by decide
  rw [ascii _ below, UInt8.ofNat_toNat]

theorem isHeaderByte_of_visible {byte : UInt8} (isVisible : isVisibleAscii byte = true) :
    isHeaderByte byte = true := by
  simp only [isVisibleAscii, isHeaderByte, decide_eq_true_eq] at *
  refine isVisible.imp_left fun ⟨lower, below⟩ => ⟨lower, ?_⟩
  rintro rfl
  exact absurd below (by decide)

theorem utf8_visible {bytes : Bytes} (areVisible : bytes.all isVisibleAscii = true) :
    utf8 (String.ofList (bytes.map fun byte => Char.ofNat byte.toNat)) = bytes := by
  simp only [utf8, String.toList_ofList]
  induction bytes with
  | nil => rfl
  | cons byte rest ih =>
      obtain ⟨first, others⟩ := Bool.and_eq_true_iff.1 areVisible
      simp [utf8EncodeChar_visible first, ih others]

theorem HeaderValue.parse_toStr {value : HeaderValue} {text : String}
    (toStr : value.toStr = some text) : HeaderValue.parse text = some value := by
  obtain ⟨bytes, valid⟩ := value
  simp only [HeaderValue.toStr] at toStr
  split at toStr
  · rename_i areVisible
    cases toStr
    have same := utf8_visible areVisible
    simp only [HeaderValue.parse, same]
    exact dif_pos (List.all_eq_true.2 valid)
  · cases toStr

/-- What is sent along of a header map, and only that, is built from it again. -/
theorem buildHeaders_visible (headers : HeaderMap) :
    buildHeaders (visibleHeaders headers) = some (visible headers) := by
  induction headers with
  | nil => rfl
  | cons entry rest ih =>
      obtain ⟨name, value⟩ := entry
      simp only [visibleHeaders, visible, List.filterMap_cons, List.filter_cons, toHttpHeader]
      cases toStr : value.toStr with
      | none => exact ih
      | some text =>
          have built : fromHttpHeader ⟨name.text, text⟩ = some (name, value) := by
            simp only [fromHttpHeader, HeaderName.parse_text, HeaderValue.parse_toStr toStr]
          simp only [visibleHeaders, visible] at ih
          simp [buildHeaders, built, ih, toHttpHeader]

end Berth
