import Mathlib.Data.List.Basic
import Mathlib.Tactic.IntervalCases

namespace WgMesh.Base64Text

/-!
# Padded base64

Encoding and lenient decoding of byte strings with the standard alphabet, as
Go's `base64.StdEncoding` does them.  The decoder skips carriage returns and
line feeds and does not look at the unused low bits of a padded quantum, so
one byte string has several accepted texts and one canonical text.

`decode_encode` says that the canonical text decodes to its bytes.
-/

/-- One byte. -/
abbrev Byte := Fin 256

/-- The character of a six-bit value. -/
def sextetChar (value : Nat) : Char :=
  if value < 26 then
    Char.ofNat (value + 65)
  else if value < 52 then
    Char.ofNat (value + 71)
  else if value < 62 then
    Char.ofNat (value - 4)
  else if value = 62 then
    '+'
  else
    '/'

/-- The six-bit value of an alphabet character. -/
def sextetValue? (char : Char) : Option Nat :=
  if 'A' ≤ char ∧ char ≤ 'Z' then
    some (char.toNat - 65)
  else if 'a' ≤ char ∧ char ≤ 'z' then
    some (char.toNat - 71)
  else if '0' ≤ char ∧ char ≤ '9' then
    some (char.toNat + 4)
  else if char = '+' then
    some 62
  else if char = '/' then
    some 63
  else
    none

/-- Canonical text of a byte string. -/
def encode : List Byte → List Char
  | [] => []
  | [first] =>
      [sextetChar (first.val / 4), sextetChar (first.val % 4 * 16),
        '=', '=']
  | [first, second] =>
      [sextetChar (first.val / 4),
        sextetChar (first.val % 4 * 16 + second.val / 16),
        sextetChar (second.val % 16 * 4), '=']
  | first :: second :: third :: rest =>
      sextetChar (first.val / 4) ::
        sextetChar (first.val % 4 * 16 + second.val / 16) ::
        sextetChar (second.val % 16 * 4 + third.val / 64) ::
        sextetChar (third.val % 64) :: encode rest

/-- The low eight bits of a number. -/
def byteOf (value : Nat) : Byte :=
  Fin.ofNat 256 value

/-- Decode text without line breaks, four characters at a time. -/
def decodeQuanta : List Char → Option (List Byte)
  | [] => some []
  | first :: second :: third :: fourth :: rest => do
      let a ← sextetValue? first
      let b ← sextetValue? second
      if fourth = '=' then
        -- Padding ends the text: anything after it is trailing garbage.
        if rest = [] then
          if third = '=' then
            some [byteOf (a * 4 + b / 16)]
          else do
            let c ← sextetValue? third
            some [byteOf (a * 4 + b / 16), byteOf (b * 16 + c / 4)]
        else
          none
      else do
        let c ← sextetValue? third
        let d ← sextetValue? fourth
        let bytes ← decodeQuanta rest
        some
          (byteOf (a * 4 + b / 16) :: byteOf (b * 16 + c / 4) ::
            byteOf (c * 64 + d) :: bytes)
  | _ => none

/-- `base64.StdEncoding.DecodeString`. -/
def decode (text : List Char) : Option (List Byte) :=
  decodeQuanta
    (text.filter (fun char => char != '\r' && char != '\n'))

theorem sextetValue?_sextetChar
    {value : Nat}
    (small : value < 64) :
    sextetValue? (sextetChar value) = some value := by
  interval_cases value <;> decide

theorem sextetChar_plain
    {value : Nat}
    (small : value < 64) :
    sextetChar value ≠ '=' ∧ sextetChar value ≠ '\r' ∧
      sextetChar value ≠ '\n' := by
  interval_cases value <;> decide

private theorem byteOf_eq
    {value : Nat}
    {byte : Byte}
    (same : value % 256 = byte.val) :
    byteOf value = byte := by
  apply Fin.ext
  simpa [byteOf, Fin.ofNat] using same

/-- Quanta of canonical text decode to the encoded bytes. -/
private theorem decodeQuanta_encode
    (bytes : List Byte) :
    decodeQuanta (encode bytes) = some bytes := by
  induction bytes using encode.induct with
  | case1 =>
      rfl
  | case2 first =>
      have firstSmall := first.isLt
      rw [encode, decodeQuanta,
        sextetValue?_sextetChar (by omega),
        sextetValue?_sextetChar (by omega)]
      have firstByte :
          byteOf (first.val / 4 * 4 + first.val % 4) = first :=
        byteOf_eq (by omega)
      simp [firstByte]
  | case3 first second =>
      have firstSmall := first.isLt
      have secondSmall := second.isLt
      rw [encode, decodeQuanta,
        sextetValue?_sextetChar (by omega),
        sextetValue?_sextetChar (by omega),
        sextetValue?_sextetChar (by omega)]
      have plain :
          sextetChar (second.val % 16 * 4) ≠ '=' :=
        (sextetChar_plain (by omega)).1
      have firstByte :
          byteOf
              (first.val / 4 * 4 +
                (first.val % 4 * 16 + second.val / 16) / 16) =
            first :=
        byteOf_eq (by omega)
      have secondByte :
          byteOf
              ((first.val % 4 * 16 + second.val / 16) * 16 +
                second.val % 16) =
            second :=
        byteOf_eq (by omega)
      simp [plain, firstByte, secondByte]
  | case4 first second third rest inductionHypothesis =>
      have firstSmall := first.isLt
      have secondSmall := second.isLt
      have thirdSmall := third.isLt
      rw [encode, decodeQuanta,
        sextetValue?_sextetChar (by omega),
        sextetValue?_sextetChar (by omega),
        sextetValue?_sextetChar (by omega),
        sextetValue?_sextetChar (by omega), inductionHypothesis]
      have plain : sextetChar (third.val % 64) ≠ '=' :=
        (sextetChar_plain (by omega)).1
      have firstByte :
          byteOf
              (first.val / 4 * 4 +
                (first.val % 4 * 16 + second.val / 16) / 16) =
            first :=
        byteOf_eq (by omega)
      have secondByte :
          byteOf
              ((first.val % 4 * 16 + second.val / 16) * 16 +
                (second.val % 16 * 4 + third.val / 64) / 4) =
            second :=
        byteOf_eq (by omega)
      have thirdByte :
          byteOf
              ((second.val % 16 * 4 + third.val / 64) * 64 +
                third.val % 64) =
            third :=
        byteOf_eq (by omega)
      simp [plain, firstByte, secondByte, thirdByte]

/-- Canonical text consists of alphabet characters and padding. -/
theorem mem_encode
    {bytes : List Byte}
    {char : Char}
    (member : char ∈ encode bytes) :
    char = '=' ∨ ∃ value, value < 64 ∧ char = sextetChar value := by
  have sextet :
      ∀ value, value < 64 → char = sextetChar value →
        char = '=' ∨ ∃ value, value < 64 ∧ char = sextetChar value :=
    fun value small same => Or.inr ⟨value, small, same⟩
  induction bytes using encode.induct with
  | case1 =>
      simp [encode] at member
  | case2 first =>
      simp only [encode, List.mem_cons, List.not_mem_nil,
        or_false] at member
      rcases member with same | same | same | same
      · exact sextet _ (by omega) same
      · exact sextet _ (by omega) same
      · exact Or.inl same
      · exact Or.inl same
  | case3 first second =>
      simp only [encode, List.mem_cons, List.not_mem_nil,
        or_false] at member
      rcases member with same | same | same | same
      · exact sextet _ (by omega) same
      · exact sextet _ (by omega) same
      · exact sextet _ (by omega) same
      · exact Or.inl same
  | case4 first second third rest inductionHypothesis =>
      simp only [encode, List.mem_cons] at member
      rcases member with same | same | same | same | inRest
      · exact sextet _ (by omega) same
      · exact sextet _ (by omega) same
      · exact sextet _ (by omega) same
      · exact sextet _ (by omega) same
      · exact inductionHypothesis inRest

/-- Canonical text decodes to the bytes it encodes. -/
theorem decode_encode
    (bytes : List Byte) :
    decode (encode bytes) = some bytes := by
  have unbroken :
      (encode bytes).filter
          (fun char => char != '\r' && char != '\n') =
        encode bytes := by
    apply List.filter_eq_self.mpr
    intro char member
    rcases mem_encode member with rfl | ⟨value, small, rfl⟩
    · decide
    · have plain := (sextetChar_plain small).2
      simp [plain.1, plain.2]
  rw [decode, unbroken, decodeQuanta_encode]

end WgMesh.Base64Text
