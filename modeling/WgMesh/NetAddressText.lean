import Mathlib.Data.List.TakeDrop
import Mathlib.Data.List.TakeWhile
import WgMesh.NetAddress

namespace WgMesh.NetAddress

/-!
# The text form of addresses and prefixes

`Addr.text` prints the canonical form of `netip.Addr.String`: dotted decimals
for IPv4, and for IPv6 hexadecimal groups whose longest run of at least two
zero groups is written `::`, with IPv4-mapped addresses in mixed notation.
`parseAddr` accepts every form `netip.ParseAddr` accepts.

The main result is that a zone-free address is read back from its text, so
canonical texts are equal exactly when the addresses are.
-/

open TextScan

/-- The four octets of an IPv4 value, most significant first. -/
def octetsOf (value : Nat) : List Nat :=
  [value / 2 ^ 24 % 256, value / 2 ^ 16 % 256,
    value / 2 ^ 8 % 256, value % 256]

/-- Dotted decimal text of an IPv4 value. -/
def text4 (value : Nat) : List Char :=
  ['.'].intercalate ((octetsOf value).map (Nat.toDigits 10))

/-- The eight 16-bit groups of an IPv6 value, most significant first. -/
def groupsOf (value : Nat) : List Nat :=
  [value / 2 ^ 112 % 65536, value / 2 ^ 96 % 65536,
    value / 2 ^ 80 % 65536, value / 2 ^ 64 % 65536,
    value / 2 ^ 48 % 65536, value / 2 ^ 32 % 65536,
    value / 2 ^ 16 % 65536, value % 65536]

/-- The value of a list of 16-bit groups, most significant first. -/
def ofGroups (groups : List Nat) : Nat :=
  groups.foldl (fun value group => value * 65536 + group) 0

/-- Hexadecimal groups separated by single colons. -/
def joinGroups (groups : List Nat) : List Char :=
  [':'].intercalate (groups.map (Nat.toDigits 16))

/-- The length of the run of zero groups starting at an index. -/
def zerosAt (groups : List Nat) (index : Nat) : Nat :=
  ((groups.drop index).takeWhile (· == 0)).length

/-- Keep the run found so far unless the one at an index is longer. -/
def longerRun
    (groups : List Nat)
    (best : Nat × Nat)
    (index : Nat) :
    Nat × Nat :=
  if 2 ≤ zerosAt groups index ∧ best.2 < zerosAt groups index then
    (index, zerosAt groups index)
  else
    best

/--
Start and length of the first longest run of at least two zero groups; the
length is zero when there is none.
-/
def zeroRun (groups : List Nat) : Nat × Nat :=
  (List.range groups.length).foldl (longerRun groups) (0, 0)

/-- Text of eight groups with the chosen zero run compressed. -/
def textGroups (groups : List Nat) : List Char :=
  if (zeroRun groups).2 = 0 then
    joinGroups groups
  else
    joinGroups (groups.take (zeroRun groups).1) ++
      ':' :: ':' ::
        joinGroups
          (groups.drop ((zeroRun groups).1 + (zeroRun groups).2))

/-- `Addr.String`. -/
def Addr.text (addr : Addr) : String :=
  match addr.family with
  | .v4 => String.ofList (text4 addr.value)
  | .v6 =>
      String.ofList
        ((if addr.is4In6 then
            ':' :: ':' :: 'f' :: 'f' :: 'f' :: 'f' :: ':' ::
              text4 (addr.value % 2 ^ 32)
          else
            textGroups (groupsOf addr.value)) ++
          if addr.zone = "" then [] else '%' :: addr.zone.toList)

/-- One decimal field: no leading zero and at most 255. -/
def readOctet? (field : List Char) : Option Nat :=
  if 1 < field.length ∧ field.head? = some '0' then
    none
  else
    (readNumber? 10 field).filter (· ≤ 255)

/-- Exactly four dot-separated decimal fields. -/
def read4? (text : List Char) : Option Nat :=
  match text.splitOn '.' with
  | [first, second, third, fourth] => do
      let a ← readOctet? first
      let b ← readOctet? second
      let c ← readOctet? third
      let d ← readOctet? fourth
      pure (a * 2 ^ 24 + b * 2 ^ 16 + c * 2 ^ 8 + d)
  | _ => none

/-- One hexadecimal group of one to four digits. -/
def readGroup? (field : List Char) : Option Nat :=
  if field.length ≤ 4 then readNumber? 16 field else none

/-- Colon-separated groups, the last of which may be an IPv4 address. -/
def readFields? : List (List Char) → Option (List Nat)
  | [] => some []
  | [last] =>
      if '.' ∈ last then
        (read4? last).map (fun value => [value / 65536, value % 65536])
      else
        (readGroup? last).map (fun group => [group])
  | field :: rest => do
      let group ← readGroup? field
      let groups ← readFields? rest
      pure (group :: groups)

/-- Split a text around its first `::`. -/
def cutEllipsis : List Char → Option (List Char × List Char)
  | [] => none
  | [_] => none
  | first :: second :: rest =>
      if first = ':' ∧ second = ':' then
        some ([], rest)
      else
        (cutEllipsis (second :: rest)).map
          (fun sides => (first :: sides.1, sides.2))

/-- The groups before `::`, where no IPv4 tail is allowed. -/
def readLeading? (text : List Char) : Option (List Nat) :=
  if text = [] then some [] else (text.splitOn ':').mapM readGroup?

/-- The groups after `::`. -/
def readTrailing? (text : List Char) : Option (List Nat) :=
  if text = [] then some [] else readFields? (text.splitOn ':')

/-- The value of an IPv6 address text without its zone. -/
def read6? (text : List Char) : Option Nat :=
  match cutEllipsis text with
  | none => do
      let groups ← readFields? (text.splitOn ':')
      if groups.length = 8 then some (ofGroups groups) else none
  | some (left, right) => do
      let leading ← readLeading? left
      let trailing ← readTrailing? right
      if leading.length + trailing.length ≤ 7 then
        some
          (ofGroups
            (leading ++
              List.replicate
                (8 - (leading.length + trailing.length)) 0 ++
              trailing))
      else
        none

/-- An address of a family when the value fits it. -/
def makeAddr? (family : Family) (value : Nat) (zone : String) :
    Option Addr :=
  if bounded : value < 2 ^ family.width then
    some { family, value, zone, bounded }
  else
    none

/-- An IPv6 text split at the first `%` into address and zone. -/
def parseZoned? (text : List Char) : Option Addr :=
  match text.span (· != '%') with
  | (address, []) =>
      (read6? address).bind (makeAddr? .v6 · "")
  | (address, _ :: zone) =>
      if zone = [] then
        none
      else
        (read6? address).bind
          (makeAddr? .v6 · (String.ofList zone))

/-- A character that decides how an address text is read. -/
def isFamilyMark (char : Char) : Bool :=
  char == '.' || char == ':' || char == '%'

/-- `netip.ParseAddr`: the first `.`, `:` or `%` decides the family. -/
def parseAddr (text : String) : Option Addr :=
  match text.toList.find? isFamilyMark with
  | none => none
  | some char =>
      if char = '.' then
        (read4? text.toList).bind (makeAddr? .v4 · "")
      else if char = ':' then
        parseZoned? text.toList
      else
        none

/-- `Prefix.String`. -/
def Prefix.text (network : Prefix) : String :=
  network.addr.text ++ "/" ++ String.ofList (Nat.toDigits 10 network.bits)

/-- The bit count after the slash: no sign and no leading zero. -/
def readBits? (text : List Char) : Option Nat :=
  if 1 < text.length ∧ text.head? = some '0' then
    none
  else
    readNumber? 10 text

/-- The prefix with a number of bits, if the address has no zone and they
fit. -/
def prefixOf? (addr : Addr) (count : Nat) : Option Prefix :=
  if fits : addr.zone = "" ∧ count ≤ addr.family.width then
    some { addr, bits := count, fits := fits.2 }
  else
    none

/-- `netip.ParsePrefix`. -/
def parsePrefix (text : String) : Option Prefix :=
  match text.toList.reverse.span (· != '/') with
  | (_, []) => none
  | (bits, _ :: address) => do
      let addr ← parseAddr (String.ofList address.reverse)
      let count ← readBits? bits.reverse
      prefixOf? addr count

theorem prefixOf?_self
    {network : Prefix}
    (zoneFree : network.addr.zone = "") :
    prefixOf? network.addr network.bits = some network := by
  simp [prefixOf?, zoneFree, network.fits]

variable {value : Nat} {groups : List Nat} {char : Char} {addr : Addr}

theorem lt_of_mem_groupsOf
    {group : Nat}
    (member : group ∈ groupsOf value) :
    group < 65536 := by
  simp only [groupsOf, List.mem_cons, List.not_mem_nil, or_false] at member
  omega

theorem ofGroups_groupsOf
    (bounded : value < 2 ^ 128) :
    ofGroups (groupsOf value) = value := by
  simp only [ofGroups, groupsOf, List.foldl_cons, List.foldl_nil]
  omega

/-- A printed octet is read back. -/
private theorem readOctet?_toDigits
    {octet : Nat}
    (small : octet < 256) :
    readOctet? (Nat.toDigits 10 octet) = some octet := by
  have noLeadingZero :
      ¬ (1 < (Nat.toDigits 10 octet).length ∧
        (Nat.toDigits 10 octet).head? = some '0') := by
    rintro ⟨long, leading⟩
    rcases Nat.eq_zero_or_pos octet with isZero | positive
    · subst octet
      simp at long
    · exact head?_toDigits_ne_zero (by decide) (by decide)
        positive leading
  have fits : octet ≤ 255 := by omega
  have numberRead :
      readNumber? 10 (Nat.toDigits 10 octet) = some octet :=
    readNumber?_toDigits (by decide) (by decide) octet
  simp [readOctet?, noLeadingZero, numberRead, Option.filter, fits]

/-- Dotted decimal text is read back. -/
theorem read4?_text4
    (bounded : value < 2 ^ 32) :
    read4? (text4 value) = some value := by
  have fields :
      (text4 value).splitOn '.' =
        (octetsOf value).map (Nat.toDigits 10) := by
    apply List.splitOn_intercalate
    · intro field member
      obtain ⟨octet, -, fieldShape⟩ := List.mem_map.mp member
      subst field
      exact not_mem_toDigits (by decide) (by decide) (by decide)
    · simp [octetsOf]
  unfold read4?
  rw [fields]
  simp only [octetsOf, List.map_cons, List.map_nil]
  rw [readOctet?_toDigits (Nat.mod_lt _ (by decide)),
    readOctet?_toDigits (Nat.mod_lt _ (by decide)),
    readOctet?_toDigits (Nat.mod_lt _ (by decide)),
    readOctet?_toDigits (Nat.mod_lt _ (by decide))]
  simp only [Option.bind_eq_bind, Option.bind_some, Option.pure_def,
    Option.some.injEq]
  omega

/-- A printed group is read back. -/
private theorem readGroup?_toDigits
    {group : Nat}
    (small : group < 65536) :
    readGroup? (Nat.toDigits 16 group) = some group := by
  have short : (Nat.toDigits 16 group).length ≤ 4 :=
    (Nat.length_toDigits_le_iff (by decide) (by decide)).mpr
      (by omega)
  have numberRead :
      readNumber? 16 (Nat.toDigits 16 group) = some group :=
    readNumber?_toDigits (by decide) (by decide) group
  simp [readGroup?, short, numberRead]

/-- Printed groups are read back field by field. -/
private theorem readFields?_map_toDigits
    (small : ∀ group ∈ groups, group < 65536) :
    readFields? (groups.map (Nat.toDigits 16)) = some groups := by
  induction groups with
  | nil =>
      rfl
  | cons group rest inductionHypothesis =>
      have groupRead :=
        readGroup?_toDigits (small group (by simp))
      cases rest with
      | nil =>
          have noDot : '.' ∉ Nat.toDigits 16 group :=
            not_mem_toDigits (by decide) (by decide) (by decide)
          simp [readFields?, noDot, groupRead]
      | cons next rest =>
          have restRead :=
            inductionHypothesis
              (fun later member => small later (by simp [member]))
          simp only [List.map_cons] at restRead ⊢
          simp [readFields?, groupRead, restRead]

/-- Printed groups are also read back where no IPv4 tail is allowed. -/
private theorem mapM_readGroup?_map_toDigits
    (small : ∀ group ∈ groups, group < 65536) :
    (groups.map (Nat.toDigits 16)).mapM readGroup? = some groups := by
  induction groups with
  | nil =>
      rfl
  | cons group rest inductionHypothesis =>
      have groupRead :=
        readGroup?_toDigits (small group (by simp))
      have restRead :=
        inductionHypothesis
          (fun later member => small later (by simp [member]))
      simp [List.mapM_cons, groupRead, restRead]

private theorem splitOn_joinGroups
    (nonempty : groups ≠ []) :
    (joinGroups groups).splitOn ':' =
      groups.map (Nat.toDigits 16) := by
  apply List.splitOn_intercalate
  · intro field member
    obtain ⟨group, -, fieldShape⟩ := List.mem_map.mp member
    subst field
    exact not_mem_toDigits (by decide) (by decide) (by decide)
  · simpa using nonempty

private theorem cutEllipsis_cons
    (noColon : char ≠ ':')
    (text : List Char) :
    cutEllipsis (char :: text) =
      (cutEllipsis text).map
        (fun sides => (char :: sides.1, sides.2)) := by
  cases text with
  | nil =>
      rfl
  | cons next rest =>
      simp [cutEllipsis, noColon]

/-- Colon-free leading text stays on the left side. -/
private theorem cutEllipsis_append
    {leading : List Char}
    (noColon : ':' ∉ leading)
    (text : List Char) :
    cutEllipsis (leading ++ text) =
      (cutEllipsis text).map
        (fun sides => (leading ++ sides.1, sides.2)) := by
  induction leading with
  | nil =>
      simp
  | cons char rest inductionHypothesis =>
      have charNe : char ≠ ':' := by
        intro same
        exact noColon (by simp [same])
      have restNo : ':' ∉ rest := by
        intro member
        exact noColon (by simp [member])
      rw [List.cons_append, cutEllipsis_cons charNe,
        inductionHypothesis restNo]
      cases cutEllipsis text <;> rfl

private theorem cutEllipsis_colon
    (noColon : char ≠ ':')
    (text : List Char) :
    cutEllipsis (':' :: char :: text) =
      (cutEllipsis (char :: text)).map
        (fun sides => (':' :: sides.1, sides.2)) := by
  simp [cutEllipsis, noColon]

/-- The text of joined groups starts with a digit. -/
private theorem joinGroups_cons_shape
    (group : Nat)
    (rest : List Nat) :
    ∃ char text,
      joinGroups (group :: rest) = char :: text ∧ char ≠ ':' := by
  obtain ⟨char, text, shape⟩ :=
    List.exists_cons_of_ne_nil
      (Nat.toDigits_ne_nil (n := group) (b := 16))
  have charNe : char ≠ ':' := by
    intro same
    have absent : ':' ∉ Nat.toDigits 16 group :=
      not_mem_toDigits (by decide) (by decide) (by decide)
    exact absent (by simp [shape, same])
  cases rest with
  | nil =>
      exact ⟨char, text, by simp [joinGroups, shape], charNe⟩
  | cons next rest =>
      refine ⟨char, text ++ ':' :: joinGroups (next :: rest),
        ?_, charNe⟩
      simp [joinGroups, shape]

/-- Joined groups contain no `::`, so a cut comes after all of them. -/
private theorem cutEllipsis_joinGroups_append
    (nonempty : groups ≠ [])
    (text : List Char) :
    cutEllipsis (joinGroups groups ++ text) =
      (cutEllipsis text).map
        (fun sides => (joinGroups groups ++ sides.1, sides.2)) := by
  induction groups with
  | nil =>
      exact (nonempty rfl).elim
  | cons group rest inductionHypothesis =>
      have noColon : ':' ∉ Nat.toDigits 16 group :=
        not_mem_toDigits (by decide) (by decide) (by decide)
      cases rest with
      | nil =>
          simpa [joinGroups] using cutEllipsis_append noColon text
      | cons next rest =>
          have joined :
              joinGroups (group :: next :: rest) =
                Nat.toDigits 16 group ++
                  ':' :: joinGroups (next :: rest) := by
            simp [joinGroups]
          obtain ⟨char, tail, shape, charNe⟩ :=
            joinGroups_cons_shape next rest
          have restCut := inductionHypothesis (by simp)
          rw [joined, List.append_assoc,
            cutEllipsis_append noColon, List.cons_append, shape,
            List.cons_append, cutEllipsis_colon charNe]
          rw [shape, List.cons_append] at restCut
          rw [restCut]
          cases cutEllipsis text with
          | none => rfl
          | some sides => simp

/-- Text without `::` of exactly eight groups is read back. -/
private theorem read6?_joinGroups
    (small : ∀ group ∈ groups, group < 65536)
    (eight : groups.length = 8) :
    read6? (joinGroups groups) = some (ofGroups groups) := by
  have nonempty : groups ≠ [] := by
    intro isNil
    simp [isNil] at eight
  have uncut : cutEllipsis (joinGroups groups) = none := by
    have cut := cutEllipsis_joinGroups_append nonempty []
    simpa [cutEllipsis] using cut
  unfold read6?
  rw [uncut, splitOn_joinGroups nonempty,
    readFields?_map_toDigits small]
  simp [eight]

/-- Text with a compressed run of zero groups is read back. -/
private theorem read6?_compressed
    {leading trailing : List Nat}
    {run : Nat}
    (leadingSmall : ∀ group ∈ leading, group < 65536)
    (trailingSmall : ∀ group ∈ trailing, group < 65536)
    (positive : 0 < run)
    (eight : leading.length + run + trailing.length = 8) :
    read6?
        (joinGroups leading ++ ':' :: ':' :: joinGroups trailing) =
      some
        (ofGroups (leading ++ List.replicate run 0 ++ trailing)) := by
  have cut :
      cutEllipsis
          (joinGroups leading ++
            ':' :: ':' :: joinGroups trailing) =
        some (joinGroups leading, joinGroups trailing) := by
    cases leading with
    | nil =>
        simp [joinGroups, cutEllipsis]
    | cons group rest =>
        rw [cutEllipsis_joinGroups_append (by simp)]
        simp [cutEllipsis]
  have leadingRead :
      readLeading? (joinGroups leading) = some leading := by
    cases leading with
    | nil =>
        rfl
    | cons group rest =>
        obtain ⟨char, tail, shape, -⟩ :=
          joinGroups_cons_shape group rest
        rw [readLeading?, if_neg (by simp [shape]),
          splitOn_joinGroups (by simp),
          mapM_readGroup?_map_toDigits leadingSmall]
  have trailingRead :
      readTrailing? (joinGroups trailing) = some trailing := by
    cases trailing with
    | nil =>
        rfl
    | cons group rest =>
        obtain ⟨char, tail, shape, -⟩ :=
          joinGroups_cons_shape group rest
        rw [readTrailing?, if_neg (by simp [shape]),
          splitOn_joinGroups (by simp),
          readFields?_map_toDigits trailingSmall]
  have room : leading.length + trailing.length ≤ 7 := by omega
  have runLength :
      8 - (leading.length + trailing.length) = run := by omega
  unfold read6?
  rw [cut]
  simp only [leadingRead, trailingRead, Option.bind_eq_bind,
    Option.bind_some, room, ↓reduceIte, runLength]

/-- Every run the search keeps is a run of the groups. -/
private theorem foldl_longerRun
    (groups indices : List Nat)
    (best : Nat × Nat)
    (holds : best.2 = 0 ∨ best.2 = zerosAt groups best.1) :
    (indices.foldl (longerRun groups) best).2 = 0 ∨
      (indices.foldl (longerRun groups) best).2 =
        zerosAt groups (indices.foldl (longerRun groups) best).1 := by
  induction indices generalizing best with
  | nil =>
      exact holds
  | cons index rest inductionHypothesis =>
      apply inductionHypothesis
      unfold longerRun
      split
      · exact Or.inr rfl
      · exact holds

private theorem zeroRun_spec
    (groups : List Nat) :
    (zeroRun groups).2 = 0 ∨
      (zeroRun groups).2 = zerosAt groups (zeroRun groups).1 :=
  foldl_longerRun groups _ (0, 0) (Or.inl rfl)

/-- Cutting a zero run out of a list and putting zeros back is lossless. -/
private theorem take_zeros_drop
    (groups : List Nat)
    (index : Nat) :
    groups.take index ++
        List.replicate (zerosAt groups index) 0 ++
        groups.drop (index + zerosAt groups index) =
      groups := by
  have zeros :
      (groups.drop index).takeWhile (· == 0) =
        List.replicate (zerosAt groups index) 0 := by
    apply List.eq_replicate_of_mem
    intro group member
    simpa using List.mem_takeWhile_imp member
  have split :=
    List.takeWhile_append_dropWhile
      (p := (· == 0)) (l := groups.drop index)
  have rest :
      groups.drop (index + zerosAt groups index) =
        (groups.drop index).dropWhile (· == 0) := by
    rw [← List.drop_drop]
    conv_lhs => rw [← split]
    rw [zerosAt, List.drop_left]
  rw [rest, ← zeros, List.append_assoc, split,
    List.take_append_drop]

/-- Group text is read back, compressed or not. -/
private theorem read6?_textGroups
    (small : ∀ group ∈ groups, group < 65536)
    (eight : groups.length = 8) :
    read6? (textGroups groups) = some (ofGroups groups) := by
  unfold textGroups
  by_cases noRun : (zeroRun groups).2 = 0
  · rw [if_pos noRun]
    exact read6?_joinGroups small eight
  · rw [if_neg noRun]
    have run := (zeroRun_spec groups).resolve_left noRun
    have whole := take_zeros_drop groups (zeroRun groups).1
    rw [← run] at whole
    have lengths := congrArg List.length whole
    simp only [List.length_append, List.length_replicate,
      eight] at lengths
    rw [read6?_compressed
      (fun group member => small group (List.mem_of_mem_take member))
      (fun group member => small group (List.mem_of_mem_drop member))
      (Nat.pos_of_ne_zero noRun) (by omega), whole]

/-- Joined numbers consist of digits and separators. -/
private theorem digit_of_mem_joined
    {base : Nat}
    {separator : Char}
    {numbers : List Nat}
    (large : 1 < base)
    (small : base ≤ 16)
    (member :
      char ∈ [separator].intercalate (numbers.map (Nat.toDigits base))) :
    char = separator ∨ (digitValue? char).isSome := by
  rcases mem_intercalate_singleton member with
    isSeparator | ⟨field, fieldMember, charMember⟩
  · exact Or.inl isSeparator
  · obtain ⟨number, -, fieldShape⟩ := List.mem_map.mp fieldMember
    subst field
    exact Or.inr
      (digitValue?_isSome_of_mem_toDigits large small charMember)

/-- IPv6 group text consists of digits and colons. -/
private theorem digit_of_mem_textGroups
    (member : char ∈ textGroups groups) :
    char = ':' ∨ (digitValue? char).isSome := by
  unfold textGroups at member
  split at member
  · exact digit_of_mem_joined (by decide) (by decide) member
  · simp only [List.mem_append, List.mem_cons] at member
    rcases member with inLeading | isColon | isColon | inTrailing
    · exact digit_of_mem_joined (by decide) (by decide) inLeading
    · exact Or.inl isColon
    · exact Or.inl isColon
    · exact digit_of_mem_joined (by decide) (by decide) inTrailing

private theorem colon_mem_textGroups
    (value : Nat) :
    ':' ∈ textGroups (groupsOf value) := by
  unfold textGroups
  split
  · simp [joinGroups, groupsOf]
  · simp

/-- A mark is not a digit. -/
private theorem digitValue?_of_isFamilyMark
    (mark : isFamilyMark char) :
    digitValue? char = none := by
  simp only [isFamilyMark, Bool.or_eq_true, beq_iff_eq] at mark
  rcases mark with (isDot | isColon) | isPercent
  · subst char
    decide
  · subst char
    decide
  · subst char
    decide

/-- In a text of digits and one kind of mark, that mark comes first. -/
private theorem find?_isFamilyMark
    {mark : Char}
    {text : List Char}
    (isMark : isFamilyMark mark)
    (present : mark ∈ text)
    (others :
      ∀ char, char ∈ text →
        char = mark ∨ (digitValue? char).isSome) :
    text.find? isFamilyMark = some mark := by
  have someFound : (text.find? isFamilyMark).isSome :=
    List.find?_isSome.mpr ⟨mark, present, isMark⟩
  obtain ⟨found, foundShape⟩ := Option.isSome_iff_exists.mp someFound
  rcases others found (List.mem_of_find?_eq_some foundShape) with
    same | digit
  · rw [foundShape, same]
  · have notDigit :=
      digitValue?_of_isFamilyMark (List.find?_some foundShape)
    simp [notDigit] at digit

/-- An IPv4-mapped text is read back. -/
private theorem read6?_mapped
    {low : Nat}
    (bounded : low < 2 ^ 32) :
    read6?
        (':' :: ':' :: 'f' :: 'f' :: 'f' :: 'f' :: ':' :: text4 low) =
      some (0xffff * 2 ^ 32 + low) := by
  have noColon : ':' ∉ text4 low := by
    intro member
    rcases digit_of_mem_joined (by decide) (by decide) member with
      same | digit
    · exact absurd same (by decide)
    · exact absurd digit (by decide)
  have dot : '.' ∈ text4 low := by
    simp [text4, octetsOf]
  have fields :
      ('f' :: 'f' :: 'f' :: 'f' :: ':' :: text4 low).splitOn ':' =
        [['f', 'f', 'f', 'f'], text4 low] := by
    have joined :
        'f' :: 'f' :: 'f' :: 'f' :: ':' :: text4 low =
          [':'].intercalate [['f', 'f', 'f', 'f'], text4 low] := by
      simp
    rw [joined]
    apply List.splitOn_intercalate
    · intro field member
      simp only [List.mem_cons, List.not_mem_nil, or_false] at member
      rcases member with isHex | isDotted
      · subst field
        decide
      · subst field
        exact noColon
    · simp
  have hexRead : readGroup? ['f', 'f', 'f', 'f'] = some 0xffff := by
    decide
  have trailingRead :
      readTrailing? ('f' :: 'f' :: 'f' :: 'f' :: ':' :: text4 low) =
        some [0xffff, low / 65536, low % 65536] := by
    rw [readTrailing?, if_neg (by simp), fields]
    simp [readFields?, hexRead, dot, read4?_text4 bounded]
  unfold read6?
  simp only [cutEllipsis, and_self, ↓reduceIte, readLeading?,
    trailingRead, Option.bind_eq_bind, Option.bind_some,
    List.length_nil, List.length_cons]
  simp only [ofGroups, List.replicate, List.nil_append,
    List.cons_append, List.foldl_cons, List.foldl_nil]
  simp only [Nat.reduceAdd, Nat.reduceLeDiff, ↓reduceIte,
    Option.some.injEq]
  omega

/-- A text without `%` has no zone. -/
private theorem parseZoned?_of_zoneFree
    {text : List Char}
    (noZone : '%' ∉ text) :
    parseZoned? text =
      (read6? text).bind (makeAddr? .v6 · "") := by
  have whole : text.span (· != '%') = (text, []) := by
    have all : ∀ char ∈ text, (char != '%') = true := by
      intro char member
      have different : char ≠ '%' := by
        intro same
        exact noZone (same ▸ member)
      simpa using different
    rw [List.span_eq_takeWhile_dropWhile,
      List.takeWhile_eq_self_iff.mpr all,
      List.dropWhile_eq_nil_iff.mpr all]
  unfold parseZoned?
  rw [whole]

private theorem makeAddr?_self
    (addr : Addr) :
    makeAddr? addr.family addr.value addr.zone = some addr := by
  simp [makeAddr?, addr.bounded]

/-- Reading the text of an IPv4 address. -/
private theorem parseAddr_text_v4
    (zoneFree : addr.zone = "")
    (family : addr.family = .v4) :
    parseAddr addr.text = some addr := by
  have bounded : addr.value < 2 ^ 32 := by
    simpa [family, Family.width] using addr.bounded
  have mark : (text4 addr.value).find? isFamilyMark = some '.' :=
    find?_isFamilyMark (by decide)
      (by simp [text4, octetsOf])
      (fun _ member => digit_of_mem_joined (by decide) (by decide) member)
  have made : makeAddr? .v4 addr.value "" = some addr := by
    simpa [family, zoneFree] using makeAddr?_self addr
  simp [parseAddr, Addr.text, family, mark, read4?_text4 bounded, made]

/-- Reading the text of an IPv6 address. -/
private theorem parseAddr_text_v6
    (zoneFree : addr.zone = "")
    (family : addr.family = .v6) :
    parseAddr addr.text = some addr := by
  have bounded : addr.value < 2 ^ 128 := by
    simpa [family, Family.width] using addr.bounded
  have made : makeAddr? .v6 addr.value "" = some addr := by
    simpa [family, zoneFree] using makeAddr?_self addr
  by_cases mapped : addr.is4In6
  · have high : addr.value / 2 ^ 32 = 0xffff := by
      simpa [Addr.is4In6, family] using mapped
    have whole : 0xffff * 2 ^ 32 + addr.value % 2 ^ 32 = addr.value := by
      omega
    have noZone :
        '%' ∉ ':' :: ':' :: 'f' :: 'f' :: 'f' :: 'f' :: ':' ::
          text4 (addr.value % 2 ^ 32) := by
      intro member
      simp only [List.mem_cons] at member
      rcases member with same | same | same | same | same | same |
        same | inText
      any_goals exact absurd same (by decide)
      rcases digit_of_mem_joined (by decide) (by decide) inText with
        same | digit
      · exact absurd same (by decide)
      · exact absurd digit (by decide)
    have zoned :
        parseZoned?
            (':' :: ':' :: 'f' :: 'f' :: 'f' :: 'f' :: ':' ::
              text4 (addr.value % 2 ^ 32)) =
          some addr := by
      rw [parseZoned?_of_zoneFree noZone,
        read6?_mapped (Nat.mod_lt _ (by decide)), whole,
        Option.bind_some, made]
    simpa [parseAddr, Addr.text, family, mapped, zoneFree,
      isFamilyMark] using zoned
  · have mark :
        (textGroups (groupsOf addr.value)).find? isFamilyMark =
          some ':' :=
      find?_isFamilyMark (by decide)
        (colon_mem_textGroups addr.value)
        (fun _ member => digit_of_mem_textGroups member)
    have noZone : '%' ∉ textGroups (groupsOf addr.value) := by
      intro member
      rcases digit_of_mem_textGroups member with same | digit
      · exact absurd same (by decide)
      · exact absurd digit (by decide)
    have read :
        read6? (textGroups (groupsOf addr.value)) = some addr.value := by
      rw [read6?_textGroups (fun _ member => lt_of_mem_groupsOf member)
        rfl, ofGroups_groupsOf bounded]
    simp [parseAddr, Addr.text, family, mapped, zoneFree, mark,
      parseZoned?_of_zoneFree noZone, read, made]

theorem parseAddr_text
    (zoneFree : addr.zone = "") :
    parseAddr addr.text = some addr := by
  cases family : addr.family with
  | v4 => exact parseAddr_text_v4 zoneFree family
  | v6 => exact parseAddr_text_v6 zoneFree family

/-- The text of a zone-free address consists of digits, dots and colons. -/
theorem Addr.digit_of_mem_text
    (zoneFree : addr.zone = "")
    (member : char ∈ addr.text.toList) :
    char = '.' ∨ char = ':' ∨ (digitValue? char).isSome := by
  cases family : addr.family with
  | v4 =>
      simp only [Addr.text, family, String.toList_ofList] at member
      rcases digit_of_mem_joined (by decide) (by decide) member with
        isDot | digit
      · exact Or.inl isDot
      · exact Or.inr (Or.inr digit)
  | v6 =>
      simp only [Addr.text, family, zoneFree, ↓reduceIte,
        List.append_nil, String.toList_ofList] at member
      split at member
      · simp only [List.mem_cons] at member
        rcases member with same | same | same | same | same | same |
          same | inText
        any_goals
          subst char
          decide
        rcases digit_of_mem_joined (by decide) (by decide) inText with
          isDot | digit
        · exact Or.inl isDot
        · exact Or.inr (Or.inr digit)
      · exact Or.inr (digit_of_mem_textGroups member)

theorem Addr.noPercent_text
    (zoneFree : addr.zone = "") :
    '%' ∉ addr.text.toList := by
  intro member
  rcases Addr.digit_of_mem_text zoneFree member with same | same | digit
  · exact absurd same (by decide)
  · exact absurd same (by decide)
  · exact absurd digit (by decide)

theorem Addr.toList_text_v6
    (family : addr.family = .v6) :
    addr.text.toList =
      ({ addr with zone := "" } : Addr).text.toList ++
        if addr.zone = "" then [] else '%' :: addr.zone.toList := by
  simp [Addr.text, family, Addr.is4In6]

theorem makeAddr?_some
    {family : Family}
    {zone : String}
    (made : makeAddr? family value zone = some addr) :
    addr.family = family ∧ addr.value = value ∧ addr.zone = zone := by
  unfold makeAddr? at made
  split at made
  · cases made
    exact ⟨rfl, rfl, rfl⟩
  · cases made

/-- How the text of a zone-free IPv6 address is read. -/
private theorem read_text_v6
    {addr : Addr}
    (zoneFree : addr.zone = "")
    (family : addr.family = .v6) :
    addr.text.toList.find? isFamilyMark = some ':' ∧
      (read6? addr.text.toList).bind (makeAddr? .v6 · "") = some addr := by
  have parsed := parseAddr_text zoneFree
  unfold parseAddr at parsed
  cases found : addr.text.toList.find? isFamilyMark with
  | none =>
      rw [found] at parsed
      cases parsed
  | some char =>
      rw [found] at parsed
      dsimp only at parsed
      split at parsed
      · obtain ⟨value, -, made⟩ := Option.bind_eq_some_iff.mp parsed
        rw [(makeAddr?_some made).1] at family
        cases family
      · split at parsed
        · rename_i isColon
          rw [parseZoned?_of_zoneFree (Addr.noPercent_text zoneFree)] at parsed
          exact ⟨congrArg some isColon, parsed⟩
        · cases parsed

/-- An IPv6 address is read back from its text, its zone included. -/
theorem parseAddr_text_zoned
    (family : addr.family = .v6) :
    parseAddr addr.text = some addr := by
  by_cases zoneFree : addr.zone = ""
  · exact parseAddr_text zoneFree
  · obtain ⟨mark, read⟩ :=
      @read_text_v6 { addr with zone := "" } rfl family
    have text := Addr.toList_text_v6 family
    rw [if_neg zoneFree] at text
    have zone : addr.zone.toList ≠ [] := fun empty =>
      zoneFree (String.toList_inj.mp empty)
    obtain ⟨value, isValue, made⟩ := Option.bind_eq_some_iff.mp read
    have sameValue : value = addr.value := (makeAddr?_some made).2.1.symm
    have zoned : makeAddr? .v6 value addr.zone = some addr := by
      rw [sameValue, ← family]
      exact makeAddr?_self addr
    unfold parseAddr
    rw [text, List.find?_append, mark]
    dsimp only [Option.some_or]
    rw [if_neg (by decide), if_pos rfl]
    unfold parseZoned?
    rw [span_ne_append (Addr.noPercent_text rfl)]
    dsimp only
    rw [if_neg zone, isValue, Option.bind_some, String.ofList_toList, zoned]

/-- A zone is read from the end of an IPv6 text. -/
theorem zone_of_parseAddr
    {text : String}
    (parsed : parseAddr text = some addr) :
    addr.zone = "" ∨
      addr.family = .v6 ∧
        ∃ leading, text.toList = leading ++ '%' :: addr.zone.toList := by
  unfold parseAddr at parsed
  split at parsed
  · cases parsed
  · split at parsed
    · obtain ⟨value, -, made⟩ := Option.bind_eq_some_iff.mp parsed
      exact Or.inl (makeAddr?_some made).2.2
    · split at parsed
      · unfold parseZoned? at parsed
        split at parsed
        · obtain ⟨value, -, made⟩ := Option.bind_eq_some_iff.mp parsed
          exact Or.inl (makeAddr?_some made).2.2
        · rename_i address mark zone cut
          split at parsed
          · cases parsed
          · obtain ⟨value, -, made⟩ := Option.bind_eq_some_iff.mp parsed
            obtain ⟨family, -, isZone⟩ := makeAddr?_some made
            rw [List.span_eq_takeWhile_dropWhile] at cut
            obtain ⟨isAddress, isRest⟩ := Prod.mk.inj cut
            have stopped :=
              List.head?_dropWhile_not (· != '%') text.toList
            rw [isRest] at stopped
            have isMark : mark = '%' := by simpa using stopped
            refine Or.inr ⟨family, address, ?_⟩
            rw [isZone, String.toList_ofList, ← isMark, ← isRest,
              ← isAddress, List.takeWhile_append_dropWhile]
      · cases parsed

theorem parseAddr_text_of_parsed
    {text : String}
    (parsed : parseAddr text = some addr) :
    parseAddr addr.text = some addr := by
  rcases zone_of_parseAddr parsed with zoneFree | ⟨family, -⟩
  · exact parseAddr_text zoneFree
  · exact parseAddr_text_zoned family

theorem Addr.not_isSpace_text
    {addr : Addr}
    (zoneFree : addr.zone = "")
    {char : Char}
    (member : char ∈ addr.text.toList) :
    isSpace char = false := by
  rcases Addr.digit_of_mem_text zoneFree member with rfl | rfl | digit
  · decide
  · decide
  · obtain ⟨low, high⟩ := digit_bounds digit
    exact not_isSpace_of_printable (by omega) (by omega)

/-- Only a zone can end an address text in white space, and no zone of a
trimmed text does. -/
theorem trimSpace_text_of_parsed
    {raw : String}
    (parsed : parseAddr (trimSpace raw) = some addr) :
    trimSpace addr.text = addr.text := by
  rcases zone_of_parseAddr parsed with zoneFree | ⟨family, leading, trimmed⟩
  · exact trimSpace_eq_self fun _ member =>
      Addr.not_isSpace_text zoneFree member
  · by_cases zoneFree : addr.zone = ""
    · exact trimSpace_eq_self fun _ member =>
        Addr.not_isSpace_text zoneFree member
    · have text := Addr.toList_text_v6 family
      rw [if_neg zoneFree] at text
      apply trimSpace_of_ends
      · intro char isFirst
        rw [text, List.head?_append] at isFirst
        rcases Option.or_eq_some_iff.mp isFirst with inside | ⟨-, isMark⟩
        · exact @Addr.not_isSpace_text { addr with zone := "" } rfl char
            (List.mem_of_mem_head? inside)
        · cases isMark
          decide
      · intro char isLast
        apply @not_isSpace_of_trimmed raw char
        rw [trimmed, List.getLast?_append_cons]
        rwa [text, List.getLast?_append_cons] at isLast

/-- A printed bit count is read back. -/
private theorem readBits?_toDigits
    (bits : Nat) :
    readBits? (Nat.toDigits 10 bits) = some bits := by
  have numberRead :
      readNumber? 10 (Nat.toDigits 10 bits) = some bits :=
    readNumber?_toDigits (by decide) (by decide) bits
  rcases Nat.eq_zero_or_pos bits with isZero | positive
  · subst bits
    decide
  · have leading :
        (Nat.toDigits 10 bits).head? ≠ some '0' :=
      head?_toDigits_ne_zero (by decide) (by decide) positive
    simp [readBits?, leading, numberRead]

/-- A zone-free prefix is read back from its text. -/
theorem parsePrefix_text
    {network : Prefix}
    (zoneFree : network.addr.zone = "") :
    parsePrefix network.text = some network := by
  have noSlash : '/' ∉ Nat.toDigits 10 network.bits :=
    not_mem_toDigits (by decide) (by decide) (by decide)
  -- Reversed, the bit count comes first and the last slash ends it.
  have reversed :
      network.text.toList.reverse =
        (Nat.toDigits 10 network.bits).reverse ++
          '/' :: network.addr.text.toList.reverse := by
    simp [Prefix.text]
  have cut :
      network.text.toList.reverse.span (· != '/') =
        ((Nat.toDigits 10 network.bits).reverse,
          '/' :: network.addr.text.toList.reverse) := by
    rw [reversed]
    exact span_ne_append
      (fun member => noSlash (List.mem_reverse.mp member)) _
  unfold parsePrefix
  rw [cut]
  simp [parseAddr_text zoneFree, readBits?_toDigits, prefixOf?_self zoneFree]

example : (parseAddr "10.100.0.2").map Addr.text = some "10.100.0.2" := by
  decide +kernel

example : (parseAddr "FD00:0:0::0:1").map Addr.text = some "fd00::1" := by
  decide +kernel

example : parseAddr "10.100.0.02" = none := by
  decide +kernel

end WgMesh.NetAddress
