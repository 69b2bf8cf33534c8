import WgMesh.TextScan

namespace WgMesh.JSONStrings

/-!
# JSON texts of string lists

How `encoding/json` writes and reads a list of strings.  Characters that would
end a string or that browsers treat specially are escaped; reading accepts any
escape.  What is written is read back.
-/

open TextScan

/-- Four hexadecimal digits. -/
def hex4 (code : Nat) : List Char :=
  [(code / 4096 % 16).digitChar, (code / 256 % 16).digitChar,
    (code / 16 % 16).digitChar, (code % 16).digitChar]

/-- The characters that are written as a number. -/
def isNumbered (char : Char) : Bool :=
  char.toNat < 32 || char == '<' || char == '>' || char == '&' ||
    char.toNat == 0x2028 || char.toNat == 0x2029

/-- The letter after a backslash that stands for a character. -/
def shortEscape? (char : Char) : Option Char :=
  if char = '"' ∨ char = '\\' then some char
  else if char.toNat = 8 then some 'b'
  else if char.toNat = 12 then some 'f'
  else if char = '\n' then some 'n'
  else if char = '\r' then some 'r'
  else if char = '\t' then some 't'
  else none

/-- One character inside a string. -/
def escape (char : Char) : List Char :=
  match shortEscape? char with
  | some letter => ['\\', letter]
  | none =>
      if isNumbered char then '\\' :: 'u' :: hex4 char.toNat else [char]

/-- A string in quotes. -/
def quote (text : String) : List Char :=
  '"' :: (text.toList.flatMap escape ++ ['"'])

/-- Strings in quotes, with commas between them. -/
def joinQuoted : List String → List Char
  | [] => []
  | [text] => quote text
  | text :: next :: rest => quote text ++ ',' :: joinQuoted (next :: rest)

/-- `json.Marshal` of a list of strings; the empty list stands for `nil`. -/
def marshal (texts : List String) : String :=
  match texts with
  | [] => "null"
  | _ :: _ => String.ofList ('[' :: (joinQuoted texts ++ [']']))

/-- The number of four hexadecimal digits. -/
def readHex4? (first second third fourth : Char) : Option Nat := do
  let first ← digitValue? first
  let second ← digitValue? second
  let third ← digitValue? third
  let fourth ← digitValue? fourth
  pure (((first * 16 + second) * 16 + third) * 16 + fourth)

/-- The character that a letter after a backslash stands for. -/
def unescape? (letter : Char) : Option Char :=
  if letter = '"' ∨ letter = '\\' ∨ letter = '/' then some letter
  else if letter = 'b' then some (Char.ofNat 8)
  else if letter = 'f' then some (Char.ofNat 12)
  else if letter = 'n' then some '\n'
  else if letter = 'r' then some '\r'
  else if letter = 't' then some '\t'
  else none

/-- A number that is half of a pair of numbers for one character. -/
def isSurrogate (code : Nat) : Bool :=
  0xD800 ≤ code && code < 0xE000

/-- `utf16.DecodeRune`: the character of a pair of numbers. -/
def paired? (high low : Nat) : Option Char :=
  if 0xD800 ≤ high ∧ high < 0xDC00 ∧ 0xDC00 ≤ low ∧ low < 0xE000 then
    some (Char.ofNat ((high - 0xD800) * 1024 + (low - 0xDC00) + 0x10000))
  else
    none

/-- The characters of a string up to its closing quote, and what follows. -/
def unquote? : List Char → Option (List Char × List Char)
  | [] => none
  | '"' :: rest => some ([], rest)
  | '\\' :: 'u' :: a :: b :: c :: d :: rest =>
      match readHex4? a b c d with
      | none => none
      | some code =>
          if isSurrogate code then
            -- Half of a pair alone is replaced, and the rest read as it is.
            match rest with
            | '\\' :: 'u' :: e :: f :: g :: h :: later =>
                match (readHex4? e f g h).bind (paired? code) with
                | some char =>
                    (unquote? later).map (fun read => (char :: read.1, read.2))
                | none =>
                    (unquote? ('\\' :: 'u' :: e :: f :: g :: h :: later)).map
                      (fun read => (Char.ofNat 0xFFFD :: read.1, read.2))
            | rest =>
                (unquote? rest).map
                  (fun read => (Char.ofNat 0xFFFD :: read.1, read.2))
          else
            (unquote? rest).map (fun read => (Char.ofNat code :: read.1, read.2))
  | '\\' :: letter :: rest =>
      match unescape? letter with
      | none => none
      | some char => (unquote? rest).map (fun read => (char :: read.1, read.2))
  | char :: rest =>
      if char.toNat < 32 ∨ char = '\\' then none
      else (unquote? rest).map (fun read => (char :: read.1, read.2))

/-- White space between tokens. -/
def isJSONSpace (char : Char) : Bool :=
  char == ' ' || char == '\t' || char == '\n' || char == '\r'

/-- Skip white space. -/
def skipSpace (text : List Char) : List Char :=
  text.dropWhile isJSONSpace

/-- One element of a list of strings, where `null` leaves it empty. -/
def element? (text : List Char) : Option (String × List Char) :=
  match skipSpace text with
  | '"' :: rest =>
      (unquote? rest).map (fun read => (String.ofList read.1, read.2))
  | 'n' :: 'u' :: 'l' :: 'l' :: rest => some ("", rest)
  | _ => none

/-- The elements of a list up to its closing bracket, at most so many. -/
def elements? : Nat → List Char → Option (List String × List Char)
  | 0, _ => none
  | fuel + 1, text =>
      match element? text with
      | none => none
      | some (first, rest) =>
          match skipSpace rest with
          | ',' :: later =>
              (elements? fuel later).map
                (fun read => (first :: read.1, read.2))
          | ']' :: later => some ([first], later)
          | _ => none

/-- `json.Unmarshal` into a list of strings; an error is `none`. -/
def unmarshal? (text : String) : Option (List String) :=
  let found :=
    match skipSpace text.toList with
    | 'n' :: 'u' :: 'l' :: 'l' :: rest => some ([], rest)
    | '[' :: rest =>
        match skipSpace rest with
        | ']' :: later => some ([], later)
        | _ => elements? rest.length rest
    | _ => none
  match found with
  | some (texts, rest) => if skipSpace rest = [] then some texts else none
  | none => none

/-- Four digits are read back. -/
theorem readHex4?_digits
    {code : Nat}
    (small : code < 65536) :
    readHex4? (code / 4096 % 16).digitChar (code / 256 % 16).digitChar
        (code / 16 % 16).digitChar (code % 16).digitChar =
      some code := by
  have digit : ∀ number : Nat, number % 16 < 16 := fun number =>
    Nat.mod_lt number (by decide)
  unfold readHex4?
  rw [digitValue?_digitChar (digit _), digitValue?_digitChar (digit _),
    digitValue?_digitChar (digit _), digitValue?_digitChar (digit _)]
  simp only [bind, Option.bind_some, pure, Option.some.injEq]
  omega

/-- A numbered character is below the pairs. -/
theorem code_of_isNumbered
    {char : Char}
    (numbered : isNumbered char = true) :
    char.toNat < 0xD800 := by
  simp only [isNumbered, Bool.or_eq_true, decide_eq_true_eq, beq_iff_eq]
    at numbered
  rcases numbered with ((((low | rfl) | rfl) | rfl) | code) | code
  · omega
  · decide
  · decide
  · decide
  · omega
  · omega

/-- A short escape is read back. -/
theorem unescape?_of_shortEscape?
    {char letter : Char}
    (short : shortEscape? char = some letter) :
    letter ≠ 'u' ∧ unescape? letter = some char := by
  have ofCode : ∀ {code : Nat}, char.toNat = code → char = Char.ofNat code := by
    rintro code rfl
    exact (Char.ofNat_toNat char).symm
  unfold shortEscape? at short
  split at short
  · rename_i isSelf
    cases short
    rcases isSelf with rfl | rfl
    · decide
    · decide
  · repeat' split at short
    all_goals cases short
    · rename_i isBackspace
      rw [ofCode isBackspace]
      decide
    · rename_i isFeed
      rw [ofCode isFeed]
      decide
    · rename_i isNewline
      rw [isNewline]
      decide
    · rename_i isReturn
      rw [isReturn]
      decide
    · rename_i isTab
      rw [isTab]
      decide

theorem plain_of_shortEscape?_none
    {char : Char}
    (none : shortEscape? char = none) :
    char ≠ '"' ∧ char ≠ '\\' := by
  refine ⟨?_, ?_⟩
  · rintro rfl
    exact absurd none (by decide)
  · rintro rfl
    exact absurd none (by decide)

theorem unquote?_letter
    {letter char : Char}
    (notNumber : letter ≠ 'u')
    (stands : unescape? letter = some char)
    (rest : List Char) :
    unquote? ('\\' :: letter :: rest) =
      (unquote? rest).map (fun read => (char :: read.1, read.2)) := by
  rw [unquote?]
  · rw [stands]
  · intro a b c d later isNumber
    exact fun _ => notNumber isNumber

/-- An escaped character is read back. -/
theorem unquote?_escape
    (char : Char)
    (rest : List Char) :
    unquote? (escape char ++ rest) =
      (unquote? rest).map (fun read => (char :: read.1, read.2)) := by
  unfold escape
  cases short : shortEscape? char with
  | some letter =>
      obtain ⟨notNumber, stands⟩ := unescape?_of_shortEscape? short
      exact unquote?_letter notNumber stands rest
  | none =>
      dsimp only
      obtain ⟨notQuote, notBackslash⟩ := plain_of_shortEscape?_none short
      split
      · rename_i numbered
        have low := code_of_isNumbered numbered
        have single : isSurrogate char.toNat = false := by
          simp [isSurrogate, low]
        simp only [hex4, List.cons_append, List.nil_append]
        rw [unquote?, readHex4?_digits (by omega)]
        dsimp only
        rw [single, if_neg Bool.false_ne_true, Char.ofNat_toNat]
      · rename_i plain
        have printable : ¬(char.toNat < 32 ∨ char = '\\') := by
          rintro (control | isBackslash)
          · exact plain (by simp [isNumbered, control])
          · exact notBackslash isBackslash
        rw [List.singleton_append, unquote?]
        · rw [if_neg printable]
        · exact notQuote
        · intro _ _ _ _ _ isBackslash
          exact absurd isBackslash notBackslash
        · intro _ _ isBackslash
          exact absurd isBackslash notBackslash

theorem unquote?_quoted
    (chars rest : List Char) :
    unquote? (chars.flatMap escape ++ '"' :: rest) = some (chars, rest) := by
  induction chars with
  | nil => rfl
  | cons char more inductionHypothesis =>
      rw [List.flatMap_cons, List.append_assoc, unquote?_escape,
        inductionHypothesis]
      rfl

/-- A quoted string is read back as an element. -/
theorem element?_quote
    (text : String)
    (rest : List Char) :
    element? (quote text ++ rest) = some (text, rest) := by
  have shape :
      skipSpace (quote text ++ rest) =
        '"' :: (text.toList.flatMap escape ++ '"' :: rest) := by
    unfold quote
    rw [List.cons_append, List.append_assoc]
    rfl
  unfold element?
  rw [shape]
  change
    (unquote? (text.toList.flatMap escape ++ '"' :: rest)).map
      (fun read => (String.ofList read.1, read.2)) = _
  rw [unquote?_quoted, Option.map_some, String.ofList_toList]

/-- Joined strings are read back up to the closing bracket. -/
theorem elements?_joinQuoted
    {texts : List String}
    (nonempty : texts ≠ [])
    {fuel : Nat}
    (enough : texts.length ≤ fuel)
    (rest : List Char) :
    elements? fuel (joinQuoted texts ++ ']' :: rest) = some (texts, rest) := by
  induction texts generalizing fuel with
  | nil => exact absurd rfl nonempty
  | cons text more inductionHypothesis =>
      cases fuel with
      | zero => exact absurd enough (by simp)
      | succ fuel =>
          rw [List.length_cons, Nat.add_le_add_iff_right] at enough
          cases more with
          | nil =>
              unfold elements? joinQuoted
              rw [element?_quote]
              rfl
          | cons next others =>
              have later :=
                inductionHypothesis (List.cons_ne_nil _ _) enough
              unfold elements? joinQuoted
              rw [List.append_assoc, element?_quote, List.cons_append]
              change
                (elements? fuel
                    (joinQuoted (next :: others) ++ ']' :: rest)).map _ = _
              rw [later]
              rfl

/-- Joined strings are not shorter than their number. -/
theorem length_le_joinQuoted
    (texts : List String) :
    texts.length ≤ (joinQuoted texts).length := by
  induction texts with
  | nil => exact Nat.le_refl _
  | cons text more inductionHypothesis =>
      cases more with
      | nil =>
          unfold joinQuoted quote
          simp
      | cons next others =>
          unfold joinQuoted quote
          simp only [List.length_cons, List.length_append] at *
          omega

/-- What is written is read back. -/
theorem unmarshal?_marshal
    (texts : List String) :
    unmarshal? (marshal texts) = some texts := by
  cases texts with
  | nil => decide
  | cons text more =>
      have opens :
          ∃ later, joinQuoted (text :: more) ++ [']'] = '"' :: later := by
        cases more with
        | nil => exact ⟨_, rfl⟩
        | cons next others => exact ⟨_, rfl⟩
      have enough :
          (text :: more).length ≤
            (joinQuoted (text :: more) ++ [']']).length := by
        rw [List.length_append]
        exact Nat.le_add_right_of_le (length_le_joinQuoted _)
      have read := elements?_joinQuoted (List.cons_ne_nil text more) enough []
      obtain ⟨later, shape⟩ := opens
      rw [shape] at read
      unfold unmarshal? marshal
      rw [String.toList_ofList, shape]
      change
        (match elements? ('"' :: later).length ('"' :: later) with
          | some (texts, rest) =>
              if skipSpace rest = [] then some texts else none
          | none => none) = _
      rw [read]
      rfl

end WgMesh.JSONStrings
