import Mathlib.Algebra.Order.Field.Rat
import Mathlib.Tactic.Linarith
import Mathlib.Tactic.Ring
import WgMesh.StoreReports

namespace WgMesh.Store

/-!
# The retention of proxy events

Agents report the time of a proxy event as the proxy printed it, with any
number of fractional digits, and the store deletes old events by comparing
that text with a cutoff that has three.  Within the second of the cutoff the
order of the texts is not that of the instants if one fraction is a beginning
of the other, since a final `Z` is greater than any digit and greater than the
point; the sign of a numeric zone is less than both.  Texts that put something
else than `T` after the date are misread throughout the day of the cutoff.
-/

open CivilTime TextScan Transactions

/-- `PruneProxyEvents`. -/
def pruneProxyEvents (retention : Int) (now : Instant) : StoreM Nat :=
  modify "prune proxy events" fun tables =>
    (tables.proxyEvents.countP
        (fun row => textLess row.eventAt (format (now - retention))),
      { tables with
        proxyEvents :=
          tables.proxyEvents.filter
            (fun row => !textLess row.eventAt (format (now - retention))) })

/-- Pruning succeeds and keeps the events whose text is not before the
cutoff. -/
theorem completes_pruneProxyEvents
    (retention : Int)
    (now : Instant)
    (db : DB) :
    ∃ removed after,
      Completes (pruneProxyEvents retention now) db (.ok removed) after ∧
        after.tables.proxyEvents =
          db.tables.proxyEvents.filter
            (fun row => !textLess row.eventAt (format (now - retention))) := by
  have legal :
      Schema
        { db.tables with
          proxyEvents :=
            db.tables.proxyEvents.filter
              (fun row =>
                !textLess row.eventAt (format (now - retention))) } :=
    { db.legal with
      proxyPeers := fun row member =>
        db.legal.proxyPeers row (List.mem_of_mem_filter member) }
  exact ⟨_, ⟨_, legal⟩, completes_exec (write_eq legal), rfl⟩

/-- The whole seconds of an instant since the start of year 0. -/
def secondOf (instant : Instant) : Int :=
  milliOf instant / 1000

/-- The date of a day. -/
def dateText (day : Int) : List Char :=
  yearText (yearOf day) ++
    '-' :: (padDigits 2 (monthOf day + 1) ++
      '-' :: padDigits 2 (dayOfMonth day + 1))

/-- Hour, minute and second of a time of day. -/
def clockText (milli : Nat) : List Char :=
  fieldsText [(2, ':'), (2, ':')] [milli / 3600000, milli / 60000 % 60] ++
    padDigits 2 (milli / 1000 % 60)

/-- Date and time of day up to the second. -/
def secondsText (instant : Instant) : List Char :=
  dateText (dayOf instant) ++ 'T' :: clockText (milliOfDay instant)

/-- The three digits of an instant after its second. -/
def milliDigits (instant : Instant) : List Nat :=
  [milliOfDay instant % 1000 / 100 % 10,
    milliOfDay instant % 1000 / 10 % 10, milliOfDay instant % 1000 % 10]

/-- The value of digits after the point. -/
def fraction : List Nat → ℚ
  | [] => 0
  | digit :: rest => (digit + fraction rest) / 10

/-- Digits behind the point, if there are any. -/
def fractionText (digits : List Nat) : List Char :=
  if digits = [] then [] else '.' :: digits.map Nat.digitChar

/-- What RFC 3339 lets stand between date and time. -/
inductive Separator where
  | upper
  | lower
  | blank

def Separator.char : Separator → Char
  | .upper => 'T'
  | .lower => 't'
  | .blank => ' '

/-- The spellings of UTC in RFC 3339. -/
inductive Zone where
  | upper
  | lower
  | plus
  | minus

def Zone.first : Zone → Char
  | .upper => 'Z'
  | .lower => 'z'
  | .plus => '+'
  | .minus => '-'

/-- The zone is a signed offset, which is less than any digit. -/
def Zone.signed : Zone → Bool
  | .upper | .lower => false
  | .plus | .minus => true

def Zone.text (zone : Zone) : List Char :=
  zone.first :: (if zone.signed then ['0', '0', ':', '0', '0'] else [])

/-- A timestamp of RFC 3339 in UTC: a second of a year with four digits, any
number of digits of its fraction, and the spelling. -/
structure Stamp where
  second : Int
  digits : List Nat
  separator : Separator := .upper
  zone : Zone := .upper
  inYears : FourDigitYear (second * 1000000000)
  decimal : ∀ digit ∈ digits, digit < 10

/-- The second of a timestamp as an instant. -/
def Stamp.instant (stamp : Stamp) : Instant :=
  stamp.second * 1000000000

/-- The text of a timestamp. -/
def Stamp.text (stamp : Stamp) : String :=
  String.ofList
    (dateText (dayOf stamp.instant) ++
      stamp.separator.char :: (clockText (milliOfDay stamp.instant) ++
        (fractionText stamp.digits ++ stamp.zone.text)))

/-- The seconds since the start of year 0 that a timestamp denotes. -/
def Stamp.seconds (stamp : Stamp) : ℚ :=
  stamp.second + fraction stamp.digits

/-- The seconds that the text of an instant denotes. -/
def formattedSeconds (instant : Instant) : ℚ :=
  milliOf instant / 1000

/-- One fraction is a beginning of the other: the shorter one of a cutoff that
goes on with another digit than zero (with zeros only, before a signed zone), or
the cutoff of a longer one. -/
def Misread (signed : Bool) (cutoff digits : List Nat) : Prop :=
  (digits <+: cutoff ∧
      (signed = true ↔
        ∀ digit ∈ cutoff.drop digits.length, digit = 0)) ∨
    cutoff <+: digits ∧ cutoff.length < digits.length

/-- A timestamp that is misread: in the second of the cutoff for its fraction,
on the day of the cutoff for a separator other than the cutoff's. -/
def Stamp.IsMisread (stamp : Stamp) (cutoff : Instant) : Prop :=
  match stamp.separator with
  | .upper =>
      stamp.second = secondOf cutoff ∧
        Misread stamp.zone.signed (milliDigits cutoff) stamp.digits
  | .lower =>
      dayOf stamp.instant = dayOf cutoff ∧
        stamp.seconds < formattedSeconds cutoff
  | .blank =>
      dayOf stamp.instant = dayOf cutoff ∧
        ¬ stamp.seconds < formattedSeconds cutoff

section Fractions

variable {digits others : List Nat}

/-- A fraction is at least zero and below one. -/
theorem fraction_bounds
    (decimal : ∀ digit ∈ digits, digit < 10) :
    0 ≤ fraction digits ∧ fraction digits < 1 := by
  induction digits with
  | nil => simp [fraction]
  | cons digit rest inductionHypothesis =>
      obtain ⟨lower, upper⟩ := inductionHypothesis fun other member =>
        decimal other (List.mem_cons_of_mem digit member)
      have bound : (digit : ℚ) ≤ 9 := by
        exact_mod_cast Nat.le_of_lt_succ (decimal digit List.mem_cons_self)
      have positive : (0 : ℚ) ≤ digit := Nat.cast_nonneg digit
      rw [fraction]
      constructor <;> linarith

/-- A fraction is above zero exactly if a digit is. -/
theorem fraction_pos_iff
    (decimal : ∀ digit ∈ digits, digit < 10) :
    0 < fraction digits ↔ ¬ ∀ digit ∈ digits, digit = 0 := by
  induction digits with
  | nil => simp [fraction]
  | cons digit rest inductionHypothesis =>
      have later := fun other member =>
        decimal other (List.mem_cons_of_mem digit member)
      have bounds := fraction_bounds later
      rw [fraction, List.forall_mem_cons]
      cases digit with
      | zero =>
          rw [eq_self_iff_true, true_and, ← inductionHypothesis later,
            Nat.cast_zero, zero_add]
          constructor <;> intro positive <;> linarith
      | succ number =>
          have positive : (0 : ℚ) ≤ number := Nat.cast_nonneg number
          rw [Nat.cast_succ]
          refine iff_of_true ?_ (fun zero => Nat.succ_ne_zero number zero.1)
          linarith

theorem charLess_digitChar
    {left right : Nat}
    (leftDigit : left < 10)
    (rightDigit : right < 10) :
    charLess left.digitChar right.digitChar = decide (left < right) ∧
      (left.digitChar = right.digitChar → left = right) ∧
      charLess left.digitChar 'Z' = true ∧ left.digitChar ≠ 'Z' := by
  interval_cases left <;> interval_cases right <;> decide

theorem Zone.charLess_first
    (zone : Zone)
    {digit : Nat}
    (small : digit < 10) :
    charLess zone.first digit.digitChar = zone.signed ∧
      zone.first ≠ digit.digitChar ∧
      charLess zone.first '.' = zone.signed ∧ zone.first ≠ '.' := by
  cases zone <;> interval_cases digit <;> decide

/-- The order of the texts of two fractions is that of their values, unless one
is misread. -/
theorem lexLess_digits_iff
    (zone : Zone)
    (decimal : ∀ digit ∈ digits, digit < 10)
    (otherDecimal : ∀ digit ∈ others, digit < 10) :
    (lexLess charLess (digits.map Nat.digitChar ++ zone.text)
          (others.map Nat.digitChar ++ ['Z']) = true ↔
        fraction digits < fraction others) ↔
      ¬ Misread zone.signed others digits := by
  induction digits generalizing others with
  | nil =>
      cases others with
      | nil =>
          have order : lexLess charLess zone.text ['Z'] = zone.signed := by
            cases zone <;> decide
          simp [order, fraction, Misread]
      | cons other rest =>
          obtain ⟨order, differs, -⟩ :=
            zone.charLess_first (otherDecimal other List.mem_cons_self)
          rw [show fraction [] = 0 from rfl, fraction_pos_iff otherDecimal]
          simp only [List.map_nil, List.nil_append, List.map_cons,
            List.cons_append, Zone.text, lexLess, if_neg differs, order,
            Misread, List.length_nil, List.drop_zero, List.nil_prefix,
            true_and, List.prefix_nil, reduceCtorEq, false_and, or_false]
          tauto
  | cons digit rest inductionHypothesis =>
      have small := decimal digit List.mem_cons_self
      have later := fun other member =>
        decimal other (List.mem_cons_of_mem digit member)
      have bounds := fraction_bounds later
      cases others with
      | nil =>
          obtain ⟨-, -, before, differs⟩ := charLess_digitChar small small
          have positive := (fraction_bounds decimal).1
          simp only [List.map_nil, List.nil_append, List.map_cons,
            List.cons_append, lexLess, if_neg differs, before, Misread,
            show fraction [] = 0 from rfl]
          simp [positive]
      | cons other otherRest =>
          have otherSmall := otherDecimal other List.mem_cons_self
          have otherLater := fun third member =>
            otherDecimal third (List.mem_cons_of_mem other member)
          have otherBounds := fraction_bounds otherLater
          obtain ⟨order, same, -⟩ := charLess_digitChar small otherSmall
          simp only [List.map_cons, List.cons_append, lexLess, fraction]
          by_cases equal : digit = other
          · subst equal
            rw [if_pos rfl, div_lt_div_iff_of_pos_right (by norm_num),
              add_lt_add_iff_left,
              inductionHypothesis later otherLater]
            simp [Misread]
          · rw [if_neg fun chars => equal (same chars), order,
              decide_eq_true_iff]
            refine iff_of_true ?_ ?_
            · rw [div_lt_div_iff_of_pos_right (by norm_num)]
              constructor
              · intro less
                have step : (digit : ℚ) + 1 ≤ other := by exact_mod_cast less
                linarith
              · intro less
                by_contra notLess
                have step : (other : ℚ) + 1 ≤ digit := by
                  exact_mod_cast
                    Nat.lt_of_le_of_ne (Nat.le_of_not_lt notLess)
                      (Ne.symm equal)
                linarith
            · simp [Misread, equal, Ne.symm equal]

end Fractions

section Seconds

variable {first second : Instant}

theorem toList_format
    (instant : Instant) :
    (format instant).toList =
      secondsText instant ++
        ('.' :: ((milliDigits instant).map Nat.digitChar ++ ['Z'])) := by
  rw [format, String.toList_ofList]
  simp [secondsText, dateText, clockText, milliDigits, fieldsText, layout,
    fieldsOf, clockFields, padDigits, Nat.div_div_eq_div_mul]

/-- The second of an instant, as an instant, has the same text up to there. -/
theorem secondsText_secondOf
    (instant : Instant) :
    secondsText (secondOf instant * 1000000000) = secondsText instant ∧
      dayOf (secondOf instant * 1000000000) = dayOf instant ∧
      milliDigits (secondOf instant * 1000000000) = [0, 0, 0] := by
  have day : dayOf (secondOf instant * 1000000000) = dayOf instant := by
    simp only [dayOf, secondOf, milliOf, nanosPerMilli, millisPerDay]
    omega
  have clock :
      milliOfDay (secondOf instant * 1000000000) =
        milliOfDay instant / 1000 * 1000 := by
    simp only [milliOfDay, secondOf, milliOf, nanosPerMilli, millisPerDay]
    omega
  refine ⟨?_, day, ?_⟩
  · have hour :
        milliOfDay instant / 1000 * 1000 / 3600000 =
          milliOfDay instant / 3600000 := by
      omega
    have minute :
        milliOfDay instant / 1000 * 1000 / 60000 =
          milliOfDay instant / 60000 := by
      omega
    have whole :
        milliOfDay instant / 1000 * 1000 / 1000 =
          milliOfDay instant / 1000 := by
      omega
    rw [secondsText, secondsText, day, clock, clockText, clockText, hour,
      minute, whole]
  · have none : milliOfDay instant / 1000 * 1000 % 1000 = 0 := by omega
    rw [milliDigits, clock, none]

theorem length_dateText
    (inYears : FourDigitYear first) :
    (dateText (dayOf first)).length = 10 := by
  rw [dateText, yearText_of_fourDigitYear inYears]
  simp [length_padDigits]

theorem length_secondsText
    (inYears : FourDigitYear first) :
    (secondsText first).length = 19 := by
  simp [secondsText, length_dateText inYears, clockText, fieldsText,
    length_padDigits]

/-- Instants with the same text up to the second share the second. -/
theorem secondOf_eq_of_secondsText
    (firstYears : FourDigitYear first)
    (secondYears : FourDigitYear second)
    (same : secondsText first = secondsText second) :
    secondOf first = secondOf second := by
  obtain ⟨firstText, firstDay, firstDigits⟩ := secondsText_secondOf first
  obtain ⟨secondText, secondDay, secondDigits⟩ := secondsText_secondOf second
  have texts :
      format (secondOf first * 1000000000) =
        format (secondOf second * 1000000000) := by
    rw [← String.toList_inj, toList_format, toList_format, firstText,
      secondText, firstDigits, secondDigits, same]
  have parsed := congrArg parse texts
  rw [parse_format (show FourDigitYear _ by rwa [FourDigitYear, firstDay]),
    parse_format (show FourDigitYear _ by rwa [FourDigitYear, secondDay])]
    at parsed
  have equal := Option.some.inj parsed
  simp only [milliOf, nanosPerMilli] at equal
  omega

/-- An earlier text up to the second is not of a later second. -/
theorem secondOf_le_of_lexLess
    (firstYears : FourDigitYear first)
    (secondYears : FourDigitYear second)
    (ordered :
      lexLess charLess (secondsText first) (secondsText second) = true) :
    secondOf first ≤ secondOf second := by
  have texts : textLess (format first) (format second) := by
    rw [textLess, toList_format, toList_format]
    exact lexLess_append_right
      ((length_secondsText firstYears).trans
        (length_secondsText secondYears).symm) ordered _ _
  have less := lt_of_textLess_format firstYears secondYears texts
  simp only [secondOf, milliOf, nanosPerMilli]
  omega

/-- Texts of instants in different seconds are ordered like the seconds,
whatever follows. -/
theorem lexLess_secondsText_iff
    (firstYears : FourDigitYear first)
    (secondYears : FourDigitYear second)
    (differ : secondOf first ≠ secondOf second)
    (firstRest secondRest : List Char) :
    lexLess charLess (secondsText first ++ firstRest)
          (secondsText second ++ secondRest) = true ↔
      secondOf first < secondOf second :=
  lexLess_append_iff
    ((length_secondsText firstYears).trans
      (length_secondsText secondYears).symm)
    (secondOf_le_of_lexLess firstYears secondYears)
    (secondOf_le_of_lexLess secondYears firstYears)
    (secondOf_eq_of_secondsText firstYears secondYears) differ _ _

/-- An earlier date is not of a later day. -/
theorem dayOf_le_of_lexLess
    (firstYears : FourDigitYear first)
    (secondYears : FourDigitYear second)
    (ordered :
      lexLess charLess (dateText (dayOf first)) (dateText (dayOf second)) =
        true) :
    dayOf first ≤ dayOf second := by
  have seconds :=
    secondOf_le_of_lexLess firstYears secondYears
      (lexLess_append_right
        ((length_dateText firstYears).trans
          (length_dateText secondYears).symm) ordered _ _)
  simp only [secondOf, milliOf, dayOf, nanosPerMilli, millisPerDay] at *
  omega

/-- Days with the same date are one: they begin at the same second. -/
theorem dayOf_eq_of_dateText
    (firstYears : FourDigitYear first)
    (secondYears : FourDigitYear second)
    (same : dateText (dayOf first) = dateText (dayOf second)) :
    dayOf first = dayOf second := by
  have midnight :
      ∀ day : Int, dayOf (day * 86400000000000) = day ∧
        milliOfDay (day * 86400000000000) = 0 := by
    intro day
    simp only [dayOf, milliOfDay, milliOf, nanosPerMilli, millisPerDay]
    omega
  have years :
      ∀ {instant : Instant}, FourDigitYear instant →
        FourDigitYear (dayOf instant * 86400000000000) := by
    intro instant inYears
    rwa [FourDigitYear, (midnight (dayOf instant)).1]
  have seconds :=
    secondOf_eq_of_secondsText (years firstYears) (years secondYears)
      (by simp only [secondsText, midnight, same])
  simp only [secondOf, milliOf, nanosPerMilli] at seconds
  omega

theorem lexLess_dateText_iff
    (firstYears : FourDigitYear first)
    (secondYears : FourDigitYear second)
    (differ : dayOf first ≠ dayOf second)
    (firstRest secondRest : List Char) :
    lexLess charLess (dateText (dayOf first) ++ firstRest)
          (dateText (dayOf second) ++ secondRest) = true ↔
      dayOf first < dayOf second :=
  lexLess_append_iff
    ((length_dateText firstYears).trans (length_dateText secondYears).symm)
    (dayOf_le_of_lexLess firstYears secondYears)
    (dayOf_le_of_lexLess secondYears firstYears)
    (dayOf_eq_of_dateText firstYears secondYears) differ _ _

/-- What the text of an instant denotes: its second and its fraction. -/
theorem formattedSeconds_eq
    (instant : Instant) :
    formattedSeconds instant =
      secondOf instant + fraction (milliDigits instant) := by
  have digits :
      milliOf instant =
        1000 * secondOf instant +
          (100 * (milliOfDay instant % 1000 / 100 % 10) +
            10 * (milliOfDay instant % 1000 / 10 % 10) +
            milliOfDay instant % 1000 % 10 : Nat) := by
    simp only [secondOf, milliOfDay, millisPerDay]
    omega
  rw [formattedSeconds, digits]
  simp only [milliDigits, fraction]
  generalize milliOfDay instant % 1000 / 100 % 10 = hundreds
  generalize milliOfDay instant % 1000 / 10 % 10 = tens
  generalize milliOfDay instant % 1000 % 10 = ones
  push_cast
  ring

end Seconds

section Pruning

variable {stamp : Stamp} {cutoff : Instant}

theorem milliDigits_decimal
    (instant : Instant) :
    ∀ digit ∈ milliDigits instant, digit < 10 := by
  intro digit member
  simp only [milliDigits, List.mem_cons, List.not_mem_nil, or_false] at member
  omega

/-- The order of a timestamp and a cutoff of the same second. -/
theorem lexLess_fractionText :
    lexLess charLess (fractionText stamp.digits ++ stamp.zone.text)
        ('.' :: ((milliDigits cutoff).map Nat.digitChar ++ ['Z'])) =
      lexLess charLess (stamp.digits.map Nat.digitChar ++ stamp.zone.text)
        ((milliDigits cutoff).map Nat.digitChar ++ ['Z']) := by
  unfold fractionText
  cases digits : stamp.digits with
  | nil =>
      -- without a fraction the text ends where the cutoff has its point
      obtain ⟨order, differs, point, noPoint⟩ :=
        stamp.zone.charLess_first
          (milliDigits_decimal cutoff _ List.mem_cons_self)
      simp only [milliDigits, List.map_cons, List.cons_append,
        List.nil_append, if_true, List.map_nil, Zone.text, lexLess,
        if_neg differs, if_neg noPoint, order, point]
  | cons digit rest =>
      rw [if_neg (List.cons_ne_nil digit rest)]
      simp [lexLess]

/-- Seconds that differ decide the order of the instants. -/
theorem Stamp.seconds_lt_iff
    (differ : stamp.second ≠ secondOf cutoff) :
    stamp.seconds < formattedSeconds cutoff ↔
      stamp.second < secondOf cutoff := by
  rw [formattedSeconds_eq, Stamp.seconds]
  obtain ⟨lower, upper⟩ := fraction_bounds stamp.decimal
  obtain ⟨cutLower, cutUpper⟩ :=
    fraction_bounds (milliDigits_decimal cutoff)
  constructor
  · intro less
    by_contra notLess
    have step : (secondOf cutoff : ℚ) + 1 ≤ stamp.second := by
      have later : secondOf cutoff < stamp.second := by omega
      exact_mod_cast later
    linarith
  · intro less
    have step : (stamp.second : ℚ) + 1 ≤ secondOf cutoff := by
      exact_mod_cast less
    linarith

/-- The order with the cutoff's separator, which the fraction may spoil. -/
theorem lexLess_secondsText_fraction_iff
    (clock : FourDigitYear cutoff) :
    (lexLess charLess
          (secondsText stamp.instant ++
            (fractionText stamp.digits ++ stamp.zone.text))
          (format cutoff).toList = true ↔
        stamp.seconds < formattedSeconds cutoff) ↔
      ¬ (stamp.second = secondOf cutoff ∧
        Misread stamp.zone.signed (milliDigits cutoff) stamp.digits) := by
  have whole : secondOf stamp.instant = stamp.second := by
    simp only [secondOf, milliOf, nanosPerMilli, Stamp.instant]
    omega
  rw [toList_format]
  by_cases sameSecond : stamp.second = secondOf cutoff
  · rw [formattedSeconds_eq, Stamp.seconds, Stamp.instant, sameSecond,
      (secondsText_secondOf cutoff).1, lexLess_append_left,
      lexLess_fractionText, add_lt_add_iff_left,
      lexLess_digits_iff stamp.zone stamp.decimal
        (milliDigits_decimal cutoff), and_iff_right rfl]
  · have years : FourDigitYear stamp.instant := stamp.inYears
    refine iff_of_true ?_ fun misread => sameSecond misread.1
    rw [lexLess_secondsText_iff years clock (by rwa [whole]), whole,
      Stamp.seconds_lt_iff sameSecond]

/-- The order with another separator, which decides it on the same day. -/
theorem lexLess_dateText_separator_iff
    (clock : FourDigitYear cutoff)
    (rest : List Char)
    (other : stamp.separator.char ≠ 'T') :
    (lexLess charLess
          (dateText (dayOf stamp.instant) ++ stamp.separator.char :: rest)
          (format cutoff).toList = true ↔
        stamp.seconds < formattedSeconds cutoff) ↔
      ¬ (dayOf stamp.instant = dayOf cutoff ∧
        ¬ (charLess stamp.separator.char 'T' = true ↔
          stamp.seconds < formattedSeconds cutoff)) := by
  rw [toList_format, secondsText, List.append_assoc]
  by_cases sameDay : dayOf stamp.instant = dayOf cutoff
  · rw [sameDay, lexLess_append_left, List.cons_append, lexLess,
      if_neg other, and_iff_right rfl, not_not]
  · refine iff_of_true ?_ fun misread => sameDay misread.1
    have days : stamp.second / 86400 = dayOf stamp.instant ∧
        secondOf cutoff / 86400 = dayOf cutoff := by
      simp only [dayOf, secondOf, milliOf, nanosPerMilli, millisPerDay,
        Stamp.instant]
      omega
    have years : FourDigitYear stamp.instant := stamp.inYears
    rw [lexLess_dateText_iff years clock sameDay,
      Stamp.seconds_lt_iff (by omega)]
    omega

/-- The text of a timestamp is before that of a cutoff exactly if its instant
is, unless it is misread. -/
theorem textLess_format_iff
    (clock : FourDigitYear cutoff) :
    (textLess stamp.text (format cutoff) = true ↔
        stamp.seconds < formattedSeconds cutoff) ↔
      ¬ stamp.IsMisread cutoff := by
  rw [textLess, Stamp.text, String.toList_ofList, Stamp.IsMisread]
  have other :=
    @lexLess_dateText_separator_iff stamp cutoff clock
      (clockText (milliOfDay stamp.instant) ++
        (fractionText stamp.digits ++ stamp.zone.text))
  cases separator : stamp.separator with
  | upper =>
      have order := @lexLess_secondsText_fraction_iff stamp cutoff clock
      rwa [secondsText, List.append_assoc] at order
  | lower =>
      rw [separator] at other
      simpa [Separator.char, show charLess 't' 'T' = false by decide]
        using other (by decide)
  | blank =>
      rw [separator] at other
      simpa [Separator.char, show charLess ' ' 'T' = true by decide]
        using other (by decide)

/-- An instant as the store prints it: three digits, which are never misread. -/
theorem exists_stamp_of_format
    {instant : Instant}
    (inYears : FourDigitYear instant) :
    ∃ stamp : Stamp, stamp.text = format instant ∧
      stamp.seconds = formattedSeconds instant ∧
      ∀ cutoff, ¬ stamp.IsMisread cutoff := by
  obtain ⟨text, day, -⟩ := secondsText_secondOf instant
  refine ⟨⟨secondOf instant, milliDigits instant, .upper, .upper,
    by rwa [FourDigitYear, day], milliDigits_decimal instant⟩, ?_, ?_, ?_⟩
  · rw [← String.toList_inj, toList_format, ← text, Stamp.text,
      String.toList_ofList, secondsText, List.append_assoc]
    rfl
  · exact (formattedSeconds_eq instant).symm
  · rintro cutoff ⟨-, ⟨-, signed⟩ | ⟨-, longer⟩⟩
    · cases signed.mpr nofun
    · exact Nat.lt_irrefl _ longer

end Pruning

/--
Pruning succeeds, and it deletes exactly the events that are earlier than the
cutoff as printed, if and only if no timestamp is misread.
-/
theorem prune_is_chronological_iff
    (db : DB)
    (retention : Int)
    (now : Instant)
    (clock : FourDigitYear (now - retention))
    (stampOf : ProxyEventRow → Stamp)
    (stamped :
      ∀ row, row ∈ db.tables.proxyEvents →
        row.eventAt = (stampOf row).text) :
    ∃ removed after,
      Completes (pruneProxyEvents retention now) db (.ok removed) after ∧
        after.tables.proxyEvents.Sublist db.tables.proxyEvents ∧
        ((∀ row, row ∈ db.tables.proxyEvents →
            (row ∉ after.tables.proxyEvents ↔
              (stampOf row).seconds < formattedSeconds (now - retention))) ↔
          ∀ row, row ∈ db.tables.proxyEvents →
            ¬ (stampOf row).IsMisread (now - retention)) := by
  obtain ⟨removed, after, completes, kept⟩ :=
    completes_pruneProxyEvents retention now db
  refine ⟨removed, after, completes, ?_, ?_⟩
  · rw [kept]
    exact List.filter_sublist
  · refine forall₂_congr fun row member => ?_
    have deleted :
        row ∉ after.tables.proxyEvents ↔
          textLess (stampOf row).text (format (now - retention)) = true := by
      rw [kept, List.mem_filter, ← stamped row member]
      simp [member]
    rw [deleted]
    exact textLess_format_iff clock

/-- An event whose time was reported with a text. -/
def reportedAt (id : Int) (text : String) : ProxyEventRow where
  id := id
  peerID := none
  eventAt := text
  method := some "GET"
  host := none
  path := none
  status := 200
  durationMS := 1
  reqBytes := 0
  respBytes := 0
  clientIP := none
  service := none

/-- Two events: one on the second, one with four digits. -/
def twoEvents : Tables where
  proxyEvents :=
    [reportedAt 1 "2026-01-01T00:00:00Z",
      reportedAt 2 "2026-01-01T00:00:00.5001Z"]

theorem schema_twoEvents :
    Schema twoEvents := by
  decide

/-- The two events in a database. -/
def twoEventsDB : DB where
  tables := twoEvents
  legal := schema_twoEvents

/-- The start of the year 2026. -/
def newYear : Int := 63934444800

theorem fourDigitYear_newYear :
    FourDigitYear (newYear * 1000000000) := by
  decide +kernel

/-- Timestamps in the first second of the year 2026. -/
def newYearStamp (digits : List Nat)
    (decimal : ∀ digit ∈ digits, digit < 10) : Stamp where
  second := newYear
  digits := digits
  inYears := fourDigitYear_newYear
  decimal := decimal

/-- With the cutoff half a second after the new year, the earlier event is
kept and the later one deleted. -/
theorem prune_misreads :
    ((pruneProxyEvents 0 (newYear * 1000000000 + 500000000)
            ⟨twoEventsDB, []⟩).2.data.tables.proxyEvents.map (·.eventAt) =
          [(newYearStamp [] (by decide)).text]) ∧
      (newYearStamp [5, 0, 0, 1] (by decide)).text =
        "2026-01-01T00:00:00.5001Z" ∧
      (newYearStamp [] (by decide)).seconds <
        formattedSeconds (newYear * 1000000000 + 500000000) ∧
      formattedSeconds (newYear * 1000000000 + 500000000) <
        (newYearStamp [5, 0, 0, 1] (by decide)).seconds := by
  decide +kernel

/-- The event on the second, pruned at a cutoff on a second. -/
theorem prune_is_chronological_second :
    ∃ removed after,
      Completes (pruneProxyEvents 0 (newYear * 1000000000))
          ⟨{ proxyEvents := [reportedAt 1 "2026-01-01T00:00:00Z"] },
            by decide⟩ (.ok removed) after ∧
        reportedAt 1 "2026-01-01T00:00:00Z" ∈ after.tables.proxyEvents := by
  obtain ⟨removed, after, completes, -, chronological⟩ :=
    prune_is_chronological_iff
      ⟨{ proxyEvents := [reportedAt 1 "2026-01-01T00:00:00Z"] }, by decide⟩ 0
      (newYear * 1000000000) (by decide +kernel)
      (fun _ => newYearStamp [] (by decide)) (by
        intro row member
        cases List.mem_singleton.mp member
        decide +kernel)
  have unread : ¬ (newYearStamp [] (by decide)).IsMisread
      (newYear * 1000000000 - 0) := by
    have zero : milliDigits (newYear * 1000000000 - 0) = [0, 0, 0] := by
      decide +kernel
    rintro ⟨-, ⟨-, signed⟩ | ⟨-, longer⟩⟩
    · rw [zero] at signed
      exact Bool.false_ne_true (signed.mpr (by simp [newYearStamp]))
    · cases longer
  refine ⟨removed, after, completes, ?_⟩
  by_contra gone
  have early := (chronological.mpr (fun _ _ => unread) _
    List.mem_cons_self).mp gone
  revert early
  decide +kernel

end WgMesh.Store
