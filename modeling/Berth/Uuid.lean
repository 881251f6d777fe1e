import Mathlib.Algebra.Order.Ring.Int

/-!
UUIDs and their textual forms: `Uuid::to_string` writes the lower-case hyphenated form,
`Uuid::parse_str` reads the simple, hyphenated, braced and URN forms in either letter case.
-/

namespace Berth

instance neZeroDigits : NeZero 16 := ⟨by decide⟩

/-- The 128 bits of a UUID as 32 hexadecimal digits, the most significant first. -/
structure Uuid where
  digits : List (Fin 16)
  size : digits.length = 32
  deriving DecidableEq

namespace Uuid

def repeated (digit : Fin 16) : Uuid := ⟨List.replicate 32 digit, by simp⟩

instance : Inhabited Uuid := ⟨repeated 0⟩

instance : LT Uuid := ⟨fun left right => left.digits < right.digits⟩

instance (left right : Uuid) : Decidable (left < right) :=
  inferInstanceAs (Decidable (left.digits < right.digits))

section Order

variable {left middle right : Uuid}

theorem not_lt_self (id : Uuid) : ¬ id < id := List.lt_irrefl id.digits

theorem not_lt_trans (first : ¬ middle < left) (second : ¬ right < middle) : ¬ right < left :=
  List.le_trans (List.not_lt.1 first) (List.not_lt.1 second)

theorem not_lt_total (left right : Uuid) : ¬ right < left ∨ ¬ left < right :=
  List.le_total left.digits right.digits

theorem eq_of_not_lt (first : ¬ right < left) (second : ¬ left < right) : left = right := by
  have same : left.digits = right.digits :=
    List.le_antisymm (List.not_lt.1 first) (List.not_lt.1 second)
  cases left
  cases right
  simpa using same

theorem not_lt_of_lt (before : left < right) : ¬ right < left := List.lt_asymm before

end Order

def hexDigit (digit : Fin 16) : Char := "0123456789abcdef".toList.getD digit.val '0'

def parseDigit (c : Char) : Option (Fin 16) :=
  match c with
  | '0' => some 0 | '1' => some 1 | '2' => some 2 | '3' => some 3
  | '4' => some 4 | '5' => some 5 | '6' => some 6 | '7' => some 7
  | '8' => some 8 | '9' => some 9
  | 'a' | 'A' => some 10 | 'b' | 'B' => some 11 | 'c' | 'C' => some 12
  | 'd' | 'D' => some 13 | 'e' | 'E' => some 14 | 'f' | 'F' => some 15
  | _ => none

def upperDigit (digit : Fin 16) : Char := "0123456789ABCDEF".toList.getD digit.val '0'

theorem parseDigit_hexDigit : ∀ digit, parseDigit (hexDigit digit) = some digit := by decide

theorem parseDigit_upperDigit : ∀ digit, parseDigit (upperDigit digit) = some digit := by decide

/-- Where the hyphens go: after groups of these sizes. -/
def groups : List Nat := [8, 4, 4, 4]

def hyphenate : List Nat → List Char → List Char
  | [], chars => chars
  | count :: counts, chars => chars.take count ++ '-' :: hyphenate counts (chars.drop count)

def unhyphenate : List Nat → List Char → Option (List Char)
  | [], chars => some chars
  | count :: counts, chars =>
      match chars.drop count with
      | '-' :: rest => (unhyphenate counts rest).map (chars.take count ++ ·)
      | _ => none

theorem unhyphenate_hyphenate (counts : List Nat) : ∀ chars : List Char,
    counts.sum ≤ chars.length → unhyphenate counts (hyphenate counts chars) = some chars := by
  induction counts with
  | nil => intro chars _; rfl
  | cons count counts ih =>
      intro chars enough
      have bound : count + counts.sum ≤ chars.length := by simpa using enough
      have takeLength : (chars.take count).length = count := by simp; omega
      have rest := ih (chars.drop count) (by simp; omega)
      simp [hyphenate, unhyphenate, takeLength, rest]

theorem length_hyphenate (counts : List Nat) : ∀ chars : List Char,
    counts.sum ≤ chars.length →
      (hyphenate counts chars).length = chars.length + counts.length := by
  induction counts with
  | nil => intro chars _; rfl
  | cons count counts ih =>
      intro chars enough
      have bound : count + counts.sum ≤ chars.length := by simpa using enough
      have rest := ih (chars.drop count) (by simp; omega)
      simp only [hyphenate, List.length_append, List.length_take, List.length_cons, rest,
        List.length_drop]
      omega

theorem getLast?_hyphenate (counts : List Nat) : ∀ chars : List Char,
    counts.sum < chars.length → (hyphenate counts chars).getLast? = chars.getLast? := by
  induction counts with
  | nil => intro chars _; rfl
  | cons count counts ih =>
      intro chars enough
      have bound : count + counts.sum < chars.length := by simpa using enough
      have rest := ih (chars.drop count) (by simp; omega)
      have enoughLeft : ¬ chars.length ≤ count := by omega
      obtain ⟨last, isLast⟩ : ∃ last, chars.getLast? = some last :=
        Option.ne_none_iff_exists'.1 (by simp; rintro rfl; simp at enoughLeft)
      simp [hyphenate, List.getLast?_append, List.getLast?_cons, rest, List.getLast?_drop,
        enoughLeft, isLast]

/-- The hyphenated form, with each digit written by `write`. -/
def spell (write : Fin 16 → Char) (id : Uuid) : List Char :=
  hyphenate groups (id.digits.map write)

def toString (id : Uuid) : String := String.ofList (spell hexDigit id)

def toUpper (id : Uuid) : String := String.ofList (spell upperDigit id)

def parseSimple (chars : List Char) : Option Uuid :=
  match chars.mapM parseDigit with
  | some digits => if size : digits.length = 32 then some ⟨digits, size⟩ else none
  | none => none

def parseHyphenated (chars : List Char) : Option Uuid :=
  (unhyphenate groups chars).bind parseSimple

def parseChars (chars : List Char) : Option Uuid :=
  match chars.length with
  | 32 => parseSimple chars
  | 36 => parseHyphenated chars
  | 38 =>
      if chars.head? = some '{' ∧ chars.getLast? = some '}' then
        parseHyphenated (chars.drop 1).dropLast
      else none
  | 45 =>
      if "urn:uuid:".toList <+: chars then parseHyphenated (chars.drop 9) else none
  | _ => none

def parseStr (text : String) : Option Uuid := parseChars text.toList

section Spelling

variable {write : Fin 16 → Char} (writes : ∀ digit, parseDigit (write digit) = some digit)

include writes in
theorem mapM_parseDigit (digits : List (Fin 16)) :
    (digits.map write).mapM parseDigit = some digits := by
  induction digits with
  | nil => rfl
  | cons digit digits ih => simp [List.mapM_cons, writes, ih]

theorem length_spell (id : Uuid) : (spell write id).length = 36 := by
  rw [spell, length_hyphenate] <;> simp [groups, id.size]

include writes in
theorem parseHyphenated_spell (id : Uuid) : parseHyphenated (spell write id) = some id := by
  rw [parseHyphenated, spell, unhyphenate_hyphenate _ _ (by simp [groups, id.size]),
    Option.bind_some, parseSimple, mapM_parseDigit writes]
  simp [id.size]

include writes in
theorem parseStr_spell (id : Uuid) : parseStr (String.ofList (spell write id)) = some id := by
  simp only [parseStr, String.toList_ofList, parseChars, length_spell]
  exact parseHyphenated_spell writes id

end Spelling

/-- The canonical text of a UUID reads back as that UUID. -/
theorem parseStr_toString (id : Uuid) : parseStr id.toString = some id :=
  parseStr_spell parseDigit_hexDigit id

theorem parseStr_toUpper (id : Uuid) : parseStr id.toUpper = some id :=
  parseStr_spell parseDigit_upperDigit id

theorem toString_injective {left right : Uuid} (same : left.toString = right.toString) :
    left = right := by
  have parsed := parseStr_toString left
  rw [same, parseStr_toString] at parsed
  exact (Option.some.inj parsed).symm

theorem toString_inj {left right : Uuid} : left.toString = right.toString ↔ left = right :=
  ⟨toString_injective, congrArg toString⟩

/-- The text is the one `to_string` writes for the UUID it names. -/
def Canonical (text : String) : Prop := ∃ id, parseStr text = some id ∧ id.toString = text

theorem canonical_toString (id : Uuid) : Canonical id.toString :=
  ⟨id, parseStr_toString id, rfl⟩

/-- A text that is not canonical is the text of no UUID at all. -/
theorem canonical_iff {text : String} : Canonical text ↔ ∃ id : Uuid, id.toString = text := by
  constructor
  · rintro ⟨id, _, same⟩
    exact ⟨id, same⟩
  · rintro ⟨id, rfl⟩
    exact canonical_toString id

theorem Canonical.eq_toString {text : String} (canonical : Canonical text) {id : Uuid}
    (parsed : parseStr text = some id) : text = id.toString := by
  obtain ⟨other, parsedOther, same⟩ := canonical
  rw [parsed] at parsedOther
  cases parsedOther
  exact same.symm

instance (text : String) : Decidable (Canonical text) :=
  match parsed : parseStr text with
  | some id =>
      if same : id.toString = text then .isTrue ⟨id, parsed, same⟩
      else .isFalse fun canonical => same (canonical.eq_toString parsed).symm
  | none => .isFalse fun ⟨id, parsed', _⟩ => by rw [parsed] at parsed'; cases parsed'

example : parseStr "ABCDEF01-2345-6789-abcd-ef0123456789" =
    parseStr "abcdef01-2345-6789-abcd-ef0123456789" := by decide

example : parseStr "{abcdef01-2345-6789-abcd-ef0123456789}" =
    parseStr "abcdef0123456789abcdef0123456789" := by decide

end Uuid

end Berth
