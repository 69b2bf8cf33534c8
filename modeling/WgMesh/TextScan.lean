import Mathlib.Data.List.Basic
import Mathlib.Data.List.TakeDrop
import Mathlib.Data.List.TakeWhile
import Mathlib.Tactic.IntervalCases

namespace WgMesh.TextScan

/-!
# Scanning and printing text

Small text functions with the behaviour of Go's `strings` package, and digit
sequences in any base up to sixteen.  Digit sequences are printed by
`Nat.toDigits`; reading them back returns the printed number.
-/

/-- The characters Go's `unicode.IsSpace` accepts. -/
def isSpace (char : Char) : Bool :=
  let code := char.toNat
  (9 ≤ code && code ≤ 13) || code == 32 || code == 0x85 ||
    code == 0xA0 || code == 0x1680 ||
    (0x2000 ≤ code && code ≤ 0x200A) ||
    code == 0x2028 || code == 0x2029 || code == 0x202F ||
    code == 0x205F || code == 0x3000

/-- `strings.TrimSpace`: drop leading and trailing white space. -/
def trimSpace (text : String) : String :=
  String.ofList
    ((text.toList.dropWhile isSpace).reverse.dropWhile isSpace).reverse

/--
Lower-case image of one character, as far as ASCII letters are concerned.

Besides the ASCII capitals, exactly the dotted capital I and the Kelvin sign
have an ASCII letter as lower-case image; every other character keeps a
non-ASCII image and is left as it is.
-/
def lowerRune (char : Char) : Char :=
  if 'A' ≤ char ∧ char ≤ 'Z' then
    Char.ofNat (char.toNat + 32)
  else if char.toNat = 0x130 then
    'i'
  else if char.toNat = 0x212A then
    'k'
  else
    char

/-- `strings.ToLower`, up to the non-ASCII images `lowerRune` leaves alone. -/
def toLower (text : String) : String :=
  String.ofList (text.toList.map lowerRune)

/-- `strings.CutPrefix`: the text after a leading marker, when it is there. -/
def cutPrefix (marker text : String) : Option String :=
  if marker.toList.isPrefixOf text.toList then
    some (String.ofList (text.toList.drop marker.toList.length))
  else
    none

/-- Decimal text of an integer, as `%d` prints it. -/
def decimal (number : Int) : String :=
  String.ofList
    (if number < 0 then
      '-' :: Nat.toDigits 10 number.natAbs
    else
      Nat.toDigits 10 number.natAbs)

/-- The first differing elements, or a missing one, decide the order. -/
def lexLess (less : α → α → Bool) [DecidableEq α] :
    List α → List α → Bool
  | [], [] => false
  | [], _ :: _ => true
  | _ :: _, [] => false
  | first :: firsts, second :: seconds =>
      if first = second then
        lexLess less firsts seconds
      else
        less first second

/-- Order of characters by code point. -/
def charLess (left right : Char) : Bool :=
  decide (left.toNat < right.toNat)

/-- Byte order of UTF-8 texts, which is the order of their code points. -/
def textLess (first second : String) : Bool :=
  lexLess charLess first.toList second.toList

/-- The value of one hexadecimal digit of either case. -/
def digitValue? (char : Char) : Option Nat :=
  if '0' ≤ char ∧ char ≤ '9' then
    some (char.toNat - 48)
  else if 'a' ≤ char ∧ char ≤ 'f' then
    some (char.toNat - 87)
  else if 'A' ≤ char ∧ char ≤ 'F' then
    some (char.toNat - 55)
  else
    none

/-- Continue reading a digit sequence from an accumulated value. -/
def readDigits? (base : Nat) : List Char → Nat → Option Nat
  | [], value => some value
  | char :: rest, value =>
      match digitValue? char with
      | none => none
      | some digit =>
          if digit < base then
            readDigits? base rest (base * value + digit)
          else
            none

/-- Read a nonempty digit sequence. -/
def readNumber? (base : Nat) (text : List Char) : Option Nat :=
  if text = [] then none else readDigits? base text 0

section Order

variable {α : Type} [DecidableEq α] {less : α → α → Bool}

/-- A common head does not affect the order. -/
theorem lexLess_append_left
    (leading first second : List α) :
    lexLess less (leading ++ first) (leading ++ second) =
      lexLess less first second := by
  induction leading with
  | nil =>
      rfl
  | cons element rest inductionHypothesis =>
      simp [lexLess, inductionHypothesis]

variable {first second : List α}

/-- An order of equally long heads decides the order of the whole lists. -/
theorem lexLess_append_right
    (sameLength : first.length = second.length)
    (ordered : lexLess less first second)
    (firstRest secondRest : List α) :
    lexLess less (first ++ firstRest) (second ++ secondRest) := by
  induction first generalizing second with
  | nil =>
      cases second with
      | nil =>
          simp [lexLess] at ordered
      | cons element rest =>
          simp at sameLength
  | cons element rest inductionHypothesis =>
      cases second with
      | nil =>
          simp at sameLength
      | cons other otherRest =>
          simp only [List.cons_append, lexLess] at ordered ⊢
          by_cases same : element = other
          · rw [if_pos same] at ordered ⊢
            exact inductionHypothesis (by simpa using sameLength) ordered
          · rw [if_neg same] at ordered ⊢
            exact ordered

/-- The lexicographic order inherits asymmetry from its elements. -/
theorem lexLess_asymm
    (asymmetric :
      ∀ left right, less left right → less right left = false)
    (ordered : lexLess less first second) :
    lexLess less second first = false := by
  induction first generalizing second with
  | nil =>
      cases second with
      | nil => simp [lexLess] at ordered
      | cons element rest => rfl
  | cons element rest inductionHypothesis =>
      cases second with
      | nil =>
          simp [lexLess] at ordered
      | cons other otherRest =>
          simp only [lexLess] at ordered ⊢
          by_cases same : element = other
          · rw [if_pos same] at ordered
            rw [if_pos same.symm]
            exact inductionHypothesis ordered
          · rw [if_neg same] at ordered
            rw [if_neg (Ne.symm same)]
            exact asymmetric _ _ ordered

/-- The lexicographic order inherits totality from its elements. -/
theorem eq_of_not_lexLess
    (total :
      ∀ left right, less left right = false →
        less right left = false → left = right)
    (notBefore : lexLess less first second = false)
    (notAfter : lexLess less second first = false) :
    first = second := by
  induction first generalizing second with
  | nil =>
      cases second with
      | nil => rfl
      | cons element rest => simp [lexLess] at notBefore
  | cons element rest inductionHypothesis =>
      cases second with
      | nil =>
          simp [lexLess] at notAfter
      | cons other otherRest =>
          simp only [lexLess] at notBefore notAfter
          by_cases same : element = other
          · rw [if_pos same] at notBefore
            rw [if_pos same.symm] at notAfter
            rw [same, inductionHypothesis notBefore notAfter]
          · rw [if_neg same] at notBefore
            rw [if_neg (Ne.symm same)] at notAfter
            exact (same (total _ _ notBefore notAfter)).elim

end Order

/-- Of two characters, at most one is before the other. -/
theorem charLess_asymm
    (left right : Char)
    (before : charLess left right) :
    charLess right left = false := by
  simp only [charLess, decide_eq_true_eq,
    decide_eq_false_iff_not] at before ⊢
  omega

/-- Of two different characters, one is before the other. -/
theorem charLess_total
    (left right : Char)
    (notBefore : charLess left right = false)
    (notAfter : charLess right left = false) :
    left = right := by
  simp only [charLess, decide_eq_false_iff_not] at notBefore notAfter
  exact Char.toNat_inj.mp (by omega)

/--
Beginnings of one length that are ordered like two numbers, and equal only if
these are, decide the order by them, whatever follows.
-/
theorem lexLess_append_iff
    {first second : List Char}
    {key other : Int}
    (sameLength : first.length = second.length)
    (forward : lexLess charLess first second = true → key ≤ other)
    (backward : lexLess charLess second first = true → other ≤ key)
    (equal : first = second → key = other)
    (differ : key ≠ other)
    (firstRest secondRest : List Char) :
    lexLess charLess (first ++ firstRest) (second ++ secondRest) = true ↔
      key < other := by
  cases before : lexLess charLess first second with
  | true =>
      have ordered := forward before
      exact iff_of_true (lexLess_append_right sameLength before _ _)
        (by omega)
  | false =>
      cases after : lexLess charLess second first with
      | true =>
          have ordered := backward after
          have whole :=
            lexLess_append_right sameLength.symm after secondRest firstRest
          rw [lexLess_asymm charLess_asymm whole]
          exact iff_of_false Bool.false_ne_true (by omega)
      | false =>
          exact (differ
            (equal (eq_of_not_lexLess charLess_total before after))).elim

/-- Of two texts, at most one is before the other. -/
theorem textLess_asymm
    {first second : String}
    (ordered : textLess first second) :
    textLess second first = false :=
  lexLess_asymm charLess_asymm ordered

/-- Of two different texts, one is before the other. -/
theorem eq_of_not_textLess
    {first second : String}
    (notBefore : textLess first second = false)
    (notAfter : textLess second first = false) :
    first = second :=
  String.toList_inj.mp (eq_of_not_lexLess charLess_total notBefore notAfter)

/-- Printing and reading one digit agree. -/
theorem digitValue?_digitChar
    {digit : Nat}
    (small : digit < 16) :
    digitValue? digit.digitChar = some digit := by
  interval_cases digit <;> decide

/-- Reading a concatenation continues from the value read first. -/
theorem readDigits?_append
    (base : Nat)
    (first second : List Char)
    (value : Nat) :
    readDigits? base (first ++ second) value =
      (readDigits? base first value).bind
        (readDigits? base second) := by
  induction first generalizing value with
  | nil =>
      rfl
  | cons char rest inductionHypothesis =>
      simp only [List.cons_append, readDigits?]
      cases digitValue? char with
      | none =>
          rfl
      | some digit =>
          by_cases small : digit < base
          · simp [small, inductionHypothesis]
          · simp [small]

variable {base number : Nat} {char : Char}

/-- A printed number is read back unchanged. -/
theorem readDigits?_toDigits
    (large : 1 < base)
    (small : base ≤ 16)
    (number : Nat) :
    readDigits? base (Nat.toDigits base number) 0 = some number := by
  induction number using Nat.strongRecOn with
  | ind number inductionHypothesis =>
      rw [Nat.toDigits_eq_if large]
      by_cases single : number < base
      · have digitSmall : number < 16 := by omega
        simp [single, readDigits?,
          digitValue?_digitChar digitSmall]
      · have quotientSmaller : number / base < number :=
          Nat.div_lt_self (by omega) large
        have remainderSmall : number % base < base :=
          Nat.mod_lt _ (by omega)
        have digitSmall : number % base < 16 := by omega
        simp only [single, ↓reduceIte]
        rw [readDigits?_append,
          inductionHypothesis _ quotientSmaller]
        simp [readDigits?, digitValue?_digitChar digitSmall,
          remainderSmall, Nat.div_add_mod]

/-- Printed numbers are nonempty, so they read back as numbers. -/
theorem readNumber?_toDigits
    (large : 1 < base)
    (small : base ≤ 16)
    (number : Nat) :
    readNumber? base (Nat.toDigits base number) = some number := by
  simp [readNumber?, Nat.toDigits_ne_nil,
    readDigits?_toDigits large small]

/-- Every printed character is a digit. -/
theorem digitValue?_isSome_of_mem_toDigits
    (large : 1 < base)
    (small : base ≤ 16)
    (member : char ∈ Nat.toDigits base number) :
    (digitValue? char).isSome := by
  induction number using Nat.strongRecOn with
  | ind number inductionHypothesis =>
      rw [Nat.toDigits_eq_if large] at member
      by_cases single : number < base
      · simp only [single, ↓reduceIte, List.mem_singleton] at member
        subst char
        rw [digitValue?_digitChar (by omega)]
        rfl
      · simp only [single, ↓reduceIte, List.mem_append,
          List.mem_singleton] at member
        rcases member with inQuotient | isLast
        · exact inductionHypothesis (number / base)
            (Nat.div_lt_self (by omega) large) inQuotient
        · subst char
          have remainderSmall : number % base < base :=
            Nat.mod_lt _ (by omega)
          rw [digitValue?_digitChar (by omega)]
          rfl

/-- A character that is no digit does not occur in a printed number. -/
theorem not_mem_toDigits
    (large : 1 < base)
    (small : base ≤ 16)
    (noDigit : digitValue? char = none) :
    char ∉ Nat.toDigits base number := by
  intro member
  have digit :=
    digitValue?_isSome_of_mem_toDigits large small member
  simp [noDigit] at digit

/-- A positive number is printed without a leading zero. -/
theorem head?_toDigits_ne_zero
    (large : 1 < base)
    (small : base ≤ 16)
    (positive : 0 < number) :
    (Nat.toDigits base number).head? ≠ some '0' := by
  induction number using Nat.strongRecOn with
  | ind number inductionHypothesis =>
      rw [Nat.toDigits_eq_if large]
      by_cases single : number < base
      · have digitSmall : number < 16 := by omega
        simp only [single, ↓reduceIte, List.head?_cons, ne_eq,
          Option.some.injEq]
        intro isZero
        have value := digitValue?_digitChar digitSmall
        rw [isZero] at value
        have zeroValue : digitValue? '0' = some 0 := by decide
        rw [zeroValue] at value
        have : 0 = number := Option.some.inj value
        omega
      · have quotientPositive : 0 < number / base :=
          Nat.div_pos (by omega) (by omega)
        have tail :=
          inductionHypothesis (number / base)
            (Nat.div_lt_self positive large) quotientPositive
        simp only [single, ↓reduceIte]
        rwa [List.head?_append_of_ne_nil _ Nat.toDigits_ne_nil]

/-- A text that neither begins nor ends with white space is left alone. -/
theorem trimSpace_of_ends
    {text : String}
    (first :
      ∀ char, text.toList.head? = some char → isSpace char = false)
    (last :
      ∀ char, text.toList.getLast? = some char → isSpace char = false) :
    trimSpace text = text := by
  have unchanged :
      ∀ chars : List Char,
        (∀ char, chars.head? = some char → isSpace char = false) →
          chars.dropWhile isSpace = chars := by
    intro chars plain
    cases chars with
    | nil => rfl
    | cons head rest =>
        rw [List.dropWhile_cons_of_neg]
        simp [plain head rfl]
  have reversed :
      ∀ char, text.toList.reverse.head? = some char →
        isSpace char = false := by
    intro char isLast
    exact last char (List.head?_reverse.symm.trans isLast)
  unfold trimSpace
  rw [unchanged _ first, unchanged _ reversed, List.reverse_reverse,
    String.ofList_toList]

/-- A text without white space is left alone. -/
theorem trimSpace_eq_self
    {text : String}
    (plain : ∀ char ∈ text.toList, isSpace char = false) :
    trimSpace text = text := by
  apply trimSpace_of_ends
  · intro char isFirst
    exact plain char (List.mem_of_mem_head? isFirst)
  · intro char isLast
    exact plain char (List.mem_of_getLast? isLast)

/-- A trimmed text does not end with white space. -/
theorem not_isSpace_of_trimmed
    {text : String}
    {char : Char}
    (last : (trimSpace text).toList.getLast? = some char) :
    isSpace char = false := by
  have first :=
    List.head?_dropWhile_not isSpace (text.toList.dropWhile isSpace).reverse
  rw [trimSpace, String.toList_ofList, List.getLast?_reverse] at last
  rw [last] at first
  exact first

/-- The digits lie between zero and the small letters. -/
theorem digit_bounds
    (digit : (digitValue? char).isSome = true) :
    48 ≤ char.toNat ∧ char.toNat ≤ 102 := by
  unfold digitValue? at digit
  split at digit
  · rename_i range
    have low : ('0' : Char).toNat ≤ char.toNat := range.1
    have high : char.toNat ≤ ('9' : Char).toNat := range.2
    exact ⟨low, Nat.le_trans high (by decide)⟩
  · split at digit
    · rename_i range
      have low : ('a' : Char).toNat ≤ char.toNat := range.1
      have high : char.toNat ≤ ('f' : Char).toNat := range.2
      exact ⟨Nat.le_trans (by decide) low, high⟩
    · split at digit
      · rename_i range
        have low : ('A' : Char).toNat ≤ char.toNat := range.1
        have high : char.toNat ≤ ('F' : Char).toNat := range.2
        exact ⟨Nat.le_trans (by decide) low, Nat.le_trans high (by decide)⟩
      · cases digit

/-- A printable ASCII character is no white space. -/
theorem not_isSpace_of_printable
    (low : 33 ≤ char.toNat)
    (high : char.toNat ≤ 126) :
    isSpace char = false := by
  simp [isSpace]
  omega

/-- A text is cut at the first occurrence of a character. -/
theorem span_ne_append
    {leading : List Char}
    (absent : char ∉ leading)
    (rest : List Char) :
    (leading ++ char :: rest).span (· != char) =
      (leading, char :: rest) := by
  have others : ∀ other ∈ leading, (other != char) = true := by
    intro other member
    have different : other ≠ char := fun same => absent (same ▸ member)
    simpa using different
  rw [List.span_eq_takeWhile_dropWhile,
    List.takeWhile_append_of_pos others,
    List.dropWhile_append_of_pos others]
  simp

/-- A character of joined fields is the separator or belongs to a field. -/
theorem mem_intercalate_singleton
    {separator : Char}
    {fields : List (List Char)}
    (member : char ∈ [separator].intercalate fields) :
    char = separator ∨ ∃ field ∈ fields, char ∈ field := by
  induction fields with
  | nil =>
      simp at member
  | cons field rest inductionHypothesis =>
      cases rest with
      | nil =>
          exact Or.inr ⟨field, by simp, by simpa using member⟩
      | cons next rest =>
          simp only [List.intercalate_cons_cons, List.mem_append,
            List.mem_singleton] at member
          rcases member with (inField | isSeparator) | inRest
          · exact Or.inr ⟨field, by simp, inField⟩
          · exact Or.inl isSeparator
          · rcases inductionHypothesis inRest with
              isSeparator | ⟨later, laterMember, charMember⟩
            · exact Or.inl isSeparator
            · exact Or.inr ⟨later, by simp [laterMember], charMember⟩

end WgMesh.TextScan
