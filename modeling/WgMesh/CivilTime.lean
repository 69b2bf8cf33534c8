import Mathlib.Data.List.Basic
import Mathlib.Data.Nat.Find
import WgMesh.TextScan

namespace WgMesh.CivilTime

/-!
# Instants and their sortable text

Instants count nanoseconds from the start of year 0 of the proleptic Gregorian
calendar, in UTC.  `format` writes them in the layout
`2006-01-02T15:04:05.000Z`, cutting off below the millisecond.

Within years 0 to 9999 all fields have a fixed width, so comparing two texts
character by character agrees with comparing the instants: by
`lt_of_textLess_format`, an earlier text belongs to an earlier instant.
-/

open TextScan

/-- Nanoseconds since 0000-01-01T00:00:00Z. -/
abbrev Instant := Int

/-- Nanoseconds in one millisecond. -/
def nanosPerMilli : Int := 1000000

/-- Milliseconds in one day. -/
def millisPerDay : Int := 86400000

/-- Days in one full cycle of 400 years. -/
def daysPerEra : Int := 146097

/-- Days of a cycle before its year with the given number. -/
def daysBeforeYear (year : Nat) : Nat :=
  365 * year + (year + 3) / 4 + (year + 399) / 400 - (year + 99) / 100

/-- Leap years of the Gregorian calendar. -/
def isLeap (year : Nat) : Bool :=
  year % 4 == 0 && (year % 100 != 0 || year % 400 == 0)

/-- Days of a year before its month, counting months from zero. -/
def daysBeforeMonth (leap : Bool) (month : Nat) : Nat :=
  [0, 31, 59, 90, 120, 151, 181, 212, 243, 273, 304, 334].getD month 365 +
    if leap && 2 ≤ month then 1 else 0

/-- Whole milliseconds since the start of year 0. -/
def milliOf (instant : Instant) : Int :=
  instant / nanosPerMilli

/-- Whole days since the start of year 0. -/
def dayOf (instant : Instant) : Int :=
  milliOf instant / millisPerDay

/-- Milliseconds since midnight. -/
def milliOfDay (instant : Instant) : Nat :=
  (milliOf instant % millisPerDay).toNat

/-- The 400-year cycle of a day. -/
def eraOf (day : Int) : Int :=
  day / daysPerEra

/-- The day's position within its cycle. -/
def dayOfEra (day : Int) : Nat :=
  (day % daysPerEra).toNat

/-- The year's position within the cycle. -/
def yearOfEra (day : Int) : Nat :=
  Nat.findGreatest
    (fun year => daysBeforeYear year ≤ dayOfEra day)
    (dayOfEra day / 365)

/-- The calendar year of a day. -/
def yearOf (day : Int) : Int :=
  400 * eraOf day + yearOfEra day

/-- The day's position within its year. -/
def dayOfYear (day : Int) : Nat :=
  dayOfEra day - daysBeforeYear (yearOfEra day)

/-- The month of a day, counting from zero. -/
def monthOf (day : Int) : Nat :=
  Nat.findGreatest
    (fun month =>
      daysBeforeMonth (isLeap (yearOfEra day)) month ≤ dayOfYear day)
    11

/-- The day's position within its month. -/
def dayOfMonth (day : Int) : Nat :=
  dayOfYear day -
    daysBeforeMonth (isLeap (yearOfEra day)) (monthOf day)

/-- The lowest decimal digits of a number, padded with zeros. -/
def padDigits : Nat → Nat → List Char
  | 0, _ => []
  | width + 1, number =>
      padDigits width (number / 10) ++ [(number % 10).digitChar]

/-- Four digits, more when the year needs them, and a sign if negative. -/
def yearText (year : Int) : List Char :=
  if year < 0 then
    '-' :: wideText year.natAbs
  else
    wideText year.natAbs
where
  /-- At least four digits. -/
  wideText (number : Nat) : List Char :=
    if number < 10000 then padDigits 4 number else Nat.toDigits 10 number

/-- Widths and following separators of the fields after the year. -/
def layout : List (Nat × Char) :=
  [(2, '-'), (2, 'T'), (2, ':'), (2, ':'), (2, '.'), (3, 'Z')]

/-- Fixed-width fields, each followed by its separator. -/
def fieldsText (widths : List (Nat × Char)) (fields : List Nat) :
    List Char :=
  (List.zipWith
    (fun column field => padDigits column.1 field ++ [column.2])
    widths fields).flatten

/-- Hour, minute, second and millisecond of the day. -/
def clockFields (instant : Instant) : List Nat :=
  [milliOfDay instant / 3600000,
    milliOfDay instant / 60000 % 60,
    milliOfDay instant / 1000 % 60,
    milliOfDay instant % 1000]

/-- The fields after the year. -/
def fieldsOf (instant : Instant) : List Nat :=
  (monthOf (dayOf instant) + 1) :: (dayOfMonth (dayOf instant) + 1) ::
    clockFields instant

/-- `Time.UTC().Format("2006-01-02T15:04:05.000Z")`. -/
def format (instant : Instant) : String :=
  String.ofList
    (yearText (yearOf (dayOf instant)) ++
      '-' :: fieldsText layout (fieldsOf instant))

/-- The instant falls into the years 0 to 9999. -/
def FourDigitYear (instant : Instant) : Prop :=
  0 ≤ yearOf (dayOf instant) ∧ yearOf (dayOf instant) ≤ 9999

instance (instant : Instant) : Decidable (FourDigitYear instant) :=
  inferInstanceAs (Decidable (_ ∧ _))

/-- A digit sequence of fixed width that must lie in a range. -/
def readField? (low high : Nat) (text : List Char) : Option Nat :=
  (readNumber? 10 text).filter
    (fun value => decide (low ≤ value) && decide (value ≤ high))

/-- `time.Parse` for texts in the layout `2006-01-02T15:04:05.000Z`. -/
def parse (text : String) : Option Instant :=
  match text.toList with
  | [y1, y2, y3, y4, '-', o1, o2, '-', d1, d2, 'T', h1, h2, ':',
      m1, m2, ':', s1, s2, '.', f1, f2, f3, 'Z'] => do
      let year ← readField? 0 9999 [y1, y2, y3, y4]
      let month ← readField? 1 12 [o1, o2]
      let leap := isLeap year
      let day ← readField? 1
        (daysBeforeMonth leap month - daysBeforeMonth leap (month - 1))
        [d1, d2]
      let hour ← readField? 0 23 [h1, h2]
      let minute ← readField? 0 59 [m1, m2]
      let second ← readField? 0 59 [s1, s2]
      let milli ← readField? 0 999 [f1, f2, f3]
      let days : Nat :=
        146097 * (year / 400) + daysBeforeYear (year % 400) +
          daysBeforeMonth leap (month - 1) + (day - 1)
      let millis : Nat :=
        86400000 * days + 3600000 * hour + 60000 * minute +
          1000 * second + milli
      pure (nanosPerMilli * (millis : Int))
  | _ => none

theorem length_padDigits
    (width number : Nat) :
    (padDigits width number).length = width := by
  induction width generalizing number with
  | zero =>
      rfl
  | succ width inductionHypothesis =>
      simp [padDigits, inductionHypothesis]

private theorem digitChar_less
    {small large : Nat}
    (less : small < large)
    (bounded : large < 10) :
    charLess small.digitChar large.digitChar := by
  interval_cases large <;> interval_cases small <;> decide

variable {width : Nat} {first second : Int}

/-- Within a width, padded numbers are ordered like the numbers. -/
private theorem lexLess_padDigits
    {small large : Nat}
    (less : small < large)
    (fits : large < 10 ^ width) :
    lexLess charLess (padDigits width small) (padDigits width large) := by
  induction width generalizing small large with
  | zero =>
      simp at fits
      omega
  | succ width inductionHypothesis =>
      simp only [padDigits]
      have fitsRest : large / 10 < 10 ^ width := by
        rw [Nat.pow_succ] at fits
        omega
      by_cases restLess : small / 10 < large / 10
      · exact lexLess_append_right (by simp [length_padDigits])
          (inductionHypothesis restLess fitsRest) _ _
      · have restSame : small / 10 = large / 10 := by omega
        have digitLess :
            charLess (small % 10).digitChar (large % 10).digitChar :=
          digitChar_less (by omega) (by omega)
        have digitNe :
            (small % 10).digitChar ≠ (large % 10).digitChar := by
          intro same
          simp [charLess, same] at digitLess
        rw [restSame, lexLess_append_left]
        simpa [lexLess, digitNe] using digitLess

/-- Order of numbers as a test. -/
private def natLess (left right : Nat) : Bool :=
  decide (left < right)

/--
A text of fixed-width fields is earlier only if its list of numbers is.

The first differing field decides both orders; the ones before it print alike.
-/
private theorem lexLess_of_fieldsText
    {widths : List (Nat × Char)}
    {first second : List Nat}
    (firstFits :
      List.Forall₂ (fun column field => field < 10 ^ column.1)
        widths first)
    (secondFits :
      List.Forall₂ (fun column field => field < 10 ^ column.1)
        widths second)
    (ordered :
      lexLess charLess (fieldsText widths first)
        (fieldsText widths second)) :
    lexLess natLess first second := by
  induction widths generalizing first second with
  | nil =>
      cases firstFits
      cases secondFits
      simp [fieldsText, lexLess] at ordered
  | cons column rest inductionHypothesis =>
      cases firstFits with
      | cons lowFits lowsFit =>
          cases secondFits with
          | cons highFits highsFit =>
              rename_i low lows high highs
              have shape :
                  ∀ field fields,
                    fieldsText (column :: rest) (field :: fields) =
                      padDigits column.1 field ++
                        column.2 :: fieldsText rest fields := by
                intro field fields
                simp [fieldsText]
              rw [shape, shape] at ordered
              rcases Nat.lt_trichotomy low high with less | same | more
              · simp [lexLess, natLess, less, Nat.ne_of_lt less]
              · subst high
                rw [lexLess_append_left] at ordered
                simp only [lexLess, ↓reduceIte] at ordered ⊢
                exact inductionHypothesis lowsFit highsFit ordered
              · have reversed :=
                  lexLess_append_right (by simp [length_padDigits])
                    (lexLess_padDigits more lowFits)
                    (column.2 :: fieldsText rest highs)
                    (column.2 :: fieldsText rest lows)
                have contrary := lexLess_asymm charLess_asymm reversed
                rw [contrary] at ordered
                exact (Bool.false_ne_true ordered).elim

private theorem daysBeforeYear_yearOfEra_le
    (day : Int) :
    daysBeforeYear (yearOfEra day) ≤ dayOfEra day :=
  Nat.findGreatest_spec
    (P := fun year => daysBeforeYear year ≤ dayOfEra day)
    (Nat.zero_le _) (by simp [daysBeforeYear])

/-- A cycle has 400 years. -/
private theorem yearOfEra_lt
    (day : Int) :
    yearOfEra day < 400 := by
  have started := daysBeforeYear_yearOfEra_le day
  have inside : dayOfEra day < 146097 := by
    simp only [dayOfEra, daysPerEra]
    omega
  by_contra late
  have tooMany : 146097 ≤ daysBeforeYear (yearOfEra day) := by
    simp only [daysBeforeYear]
    omega
  omega

/-- A year ends before the next one starts. -/
private theorem dayOfEra_lt_next
    (day : Int) :
    dayOfEra day < daysBeforeYear (yearOfEra day + 1) := by
  by_cases searched : yearOfEra day + 1 ≤ dayOfEra day / 365
  · exact Nat.lt_of_not_le
      (Nat.findGreatest_is_greatest
        (P := fun year => daysBeforeYear year ≤ dayOfEra day)
        (Nat.lt_succ_self _) searched)
  · have enough :
        365 * (yearOfEra day + 1) ≤
          daysBeforeYear (yearOfEra day + 1) := by
      simp only [daysBeforeYear]
      omega
    omega

private theorem dayOfYear_lt
    (day : Int) :
    dayOfYear day < 366 := by
  have ended := dayOfEra_lt_next day
  have started := daysBeforeYear_yearOfEra_le day
  simp only [dayOfYear]
  simp only [daysBeforeYear] at ended started ⊢
  omega

private theorem daysBeforeMonth_monthOf_le
    (day : Int) :
    daysBeforeMonth (isLeap (yearOfEra day)) (monthOf day) ≤
      dayOfYear day :=
  Nat.findGreatest_spec
    (P := fun month =>
      daysBeforeMonth (isLeap (yearOfEra day)) month ≤ dayOfYear day)
    (Nat.zero_le _) (by simp [daysBeforeMonth])

private theorem monthOf_le
    (day : Int) :
    monthOf day ≤ 11 :=
  Nat.findGreatest_le 11

private theorem daysBeforeMonth_succ_le
    {leap : Bool}
    {month : Nat}
    (inYear : month < 12) :
    daysBeforeMonth leap (month + 1) ≤ daysBeforeMonth leap month + 31 := by
  cases leap <;> interval_cases month <;> decide

/-- A day's position in its month takes two digits. -/
private theorem dayOfMonth_lt
    (day : Int) :
    dayOfMonth day < 32 := by
  have yearEnd := dayOfYear_lt day
  have monthBound := monthOf_le day
  have monthEnd :
      monthOf day < 11 →
        dayOfYear day <
          daysBeforeMonth (isLeap (yearOfEra day)) (monthOf day + 1) := by
    intro notLast
    exact Nat.lt_of_not_le
      (Nat.findGreatest_is_greatest
        (P := fun month =>
          daysBeforeMonth (isLeap (yearOfEra day)) month ≤
            dayOfYear day)
        (Nat.lt_succ_self _) notLast)
  have monthLength :
      daysBeforeMonth (isLeap (yearOfEra day)) (monthOf day + 1) ≤
        daysBeforeMonth (isLeap (yearOfEra day)) (monthOf day) + 31 :=
    daysBeforeMonth_succ_le (by omega)
  simp only [dayOfMonth]
  by_cases notLast : monthOf day < 11
  · have ended := monthEnd notLast
    omega
  · have last : monthOf day = 11 := by omega
    have lastStart :
        334 ≤ daysBeforeMonth (isLeap (yearOfEra day)) 11 := by
      simp [daysBeforeMonth]
    rw [last]
    omega

/-- Later days have later years. -/
private theorem yearOf_le_yearOf
    (ordered : first ≤ second) :
    yearOf first ≤ yearOf second := by
  have firstBound := yearOfEra_lt first
  have eras : eraOf first ≤ eraOf second := by
    simp only [eraOf, daysPerEra]
    omega
  by_cases sameEra : eraOf first = eraOf second
  · have days : dayOfEra first ≤ dayOfEra second := by
      simp only [eraOf, dayOfEra, daysPerEra] at sameEra ⊢
      omega
    have years : yearOfEra first ≤ yearOfEra second :=
      Nat.findGreatest_mono
        (fun year started => started.trans days)
        (Nat.div_le_div_right days)
    simp only [yearOf]
    omega
  · simp only [yearOf]
    omega

private theorem eraOf_eq_of_yearOf_eq
    (sameYear : yearOf first = yearOf second) :
    eraOf first = eraOf second ∧ yearOfEra first = yearOfEra second := by
  have firstBound := yearOfEra_lt first
  have secondBound := yearOfEra_lt second
  simp only [yearOf] at sameYear
  omega

/-- Within one year, later days have later months or days of the month. -/
private theorem date_le_date
    (ordered : first ≤ second)
    (sameYear : yearOf first = yearOf second) :
    monthOf first < monthOf second ∨
      monthOf first = monthOf second ∧
        dayOfMonth first ≤ dayOfMonth second := by
  obtain ⟨sameEra, sameYearOfEra⟩ := eraOf_eq_of_yearOf_eq sameYear
  have days : dayOfYear first ≤ dayOfYear second := by
    have eraDays : dayOfEra first ≤ dayOfEra second := by
      simp only [eraOf, dayOfEra, daysPerEra] at sameEra ⊢
      omega
    simp only [dayOfYear, sameYearOfEra]
    omega
  have months : monthOf first ≤ monthOf second := by
    apply Nat.findGreatest_mono _ (Nat.le_refl _)
    intro month started
    rw [← sameYearOfEra]
    exact started.trans days
  rcases Nat.lt_or_eq_of_le months with less | same
  · exact Or.inl less
  · refine Or.inr ⟨same, ?_⟩
    simp only [dayOfMonth, sameYearOfEra, same]
    omega

/-- A date determines its day. -/
private theorem day_eq_of_date_eq
    (sameYear : yearOf first = yearOf second)
    (sameMonth : monthOf first = monthOf second)
    (sameDay : dayOfMonth first = dayOfMonth second) :
    first = second := by
  obtain ⟨sameEra, sameYearOfEra⟩ := eraOf_eq_of_yearOf_eq sameYear
  have firstMonth := daysBeforeMonth_monthOf_le first
  have secondMonth := daysBeforeMonth_monthOf_le second
  have firstStart := daysBeforeYear_yearOfEra_le first
  have secondStart := daysBeforeYear_yearOfEra_le second
  have days : dayOfYear first = dayOfYear second := by
    simp only [dayOfMonth, sameMonth, sameYearOfEra] at sameDay firstMonth
    omega
  have eraDays : dayOfEra first = dayOfEra second := by
    simp only [dayOfYear, sameYearOfEra] at days firstStart
    omega
  simp only [eraOf, dayOfEra, daysPerEra] at sameEra eraDays
  omega

/-- Within one day, earlier clock fields belong to an earlier instant. -/
private theorem lt_of_clockFields
    (sameDay : dayOf first = dayOf second)
    (ordered : lexLess natLess (clockFields first) (clockFields second)) :
    first < second := by
  have millis : milliOfDay first < milliOfDay second := by
    by_contra notLess
    simp only [clockFields, lexLess, natLess] at ordered
    split at ordered
    · split at ordered
      · split at ordered
        · split at ordered
          · exact Bool.false_ne_true ordered
          · simp only [decide_eq_true_eq] at ordered
            omega
        · simp only [decide_eq_true_eq] at ordered
          omega
      · simp only [decide_eq_true_eq] at ordered
        omega
    · simp only [decide_eq_true_eq] at ordered
      omega
  simp only [dayOf, milliOfDay, milliOf, millisPerDay,
    nanosPerMilli] at sameDay millis
  omega

/-- Every field after the year fits its width. -/
private theorem fieldsOf_fits
    (instant : Instant) :
    List.Forall₂ (fun column field => field < 10 ^ column.1)
      layout (fieldsOf instant) := by
  have month := monthOf_le (dayOf instant)
  have day := dayOfMonth_lt (dayOf instant)
  have millis : milliOfDay instant < 86400000 := by
    simp only [milliOfDay, millisPerDay]
    omega
  simp only [layout, fieldsOf, clockFields, List.forall₂_cons,
    List.Forall₂.nil, and_true]
  omega

private theorem dayOf_le_dayOf
    (ordered : first ≤ second) :
    dayOf first ≤ dayOf second := by
  simp only [dayOf, milliOf, millisPerDay, nanosPerMilli]
  omega

/-- Within one year, earlier fields belong to an earlier instant. -/
private theorem lt_of_fieldsOf
    (sameYear : yearOf (dayOf first) = yearOf (dayOf second))
    (ordered : lexLess natLess (fieldsOf first) (fieldsOf second)) :
    first < second := by
  by_contra notLess
  have days : dayOf second ≤ dayOf first := dayOf_le_dayOf (by omega)
  have dates := date_le_date days sameYear.symm
  simp only [fieldsOf, lexLess, natLess] at ordered
  split at ordered
  · rename_i sameMonth
    split at ordered
    · rename_i sameDayOfMonth
      have sameDay : dayOf first = dayOf second :=
        day_eq_of_date_eq sameYear (by omega) (by omega)
      exact notLess (lt_of_clockFields sameDay ordered)
    · simp only [decide_eq_true_eq] at ordered
      omega
  · simp only [decide_eq_true_eq] at ordered
    omega

theorem yearText_of_fourDigitYear
    {instant : Int}
    (inRange : FourDigitYear instant) :
    yearText (yearOf (dayOf instant)) =
      padDigits 4 (yearOf (dayOf instant)).natAbs := by
  have lower := inRange.1
  have upper := inRange.2
  rw [yearText, if_neg (by omega), yearText.wideText, if_pos (by omega)]

/-- Within the years 0 to 9999, an earlier text is an earlier instant. -/
theorem lt_of_textLess_format
    (firstYear : FourDigitYear first)
    (secondYear : FourDigitYear second)
    (ordered : textLess (format first) (format second)) :
    first < second := by
  have firstLower := firstYear.1
  have firstUpper := firstYear.2
  have textOrder :
      lexLess charLess
        (padDigits 4 (yearOf (dayOf first)).natAbs ++
          '-' :: fieldsText layout (fieldsOf first))
        (padDigits 4 (yearOf (dayOf second)).natAbs ++
          '-' :: fieldsText layout (fieldsOf second)) := by
    rw [← yearText_of_fourDigitYear firstYear,
      ← yearText_of_fourDigitYear secondYear]
    simpa [textLess, format] using ordered
  by_contra notLess
  have years : yearOf (dayOf second) ≤ yearOf (dayOf first) :=
    yearOf_le_yearOf (dayOf_le_dayOf (by omega))
  have secondLower := secondYear.1
  by_cases sameYear : yearOf (dayOf first) = yearOf (dayOf second)
  · rw [sameYear, lexLess_append_left] at textOrder
    simp only [lexLess, ↓reduceIte] at textOrder
    exact notLess
      (lt_of_fieldsOf sameYear
        (lexLess_of_fieldsText (fieldsOf_fits first)
          (fieldsOf_fits second) textOrder))
  · have yearsReversed :
        lexLess charLess
          (padDigits 4 (yearOf (dayOf second)).natAbs)
          (padDigits 4 (yearOf (dayOf first)).natAbs) :=
      lexLess_padDigits (by omega) (by omega)
    have reversed :=
      lexLess_append_right (by simp [length_padDigits]) yearsReversed
        ('-' :: fieldsText layout (fieldsOf second))
        ('-' :: fieldsText layout (fieldsOf first))
    have contrary := lexLess_asymm charLess_asymm reversed
    rw [contrary] at textOrder
    exact Bool.false_ne_true textOrder

/-- A padded number is read back. -/
private theorem readDigits?_padDigits
    {number : Nat}
    (fits : number < 10 ^ width) :
    readDigits? 10 (padDigits width number) 0 = some number := by
  induction width generalizing number with
  | zero =>
      simp at fits
      simp [padDigits, readDigits?, fits]
  | succ width inductionHypothesis =>
      have fitsRest : number / 10 < 10 ^ width := by
        rw [Nat.pow_succ] at fits
        omega
      have digitSmall : number % 10 < 10 := Nat.mod_lt _ (by decide)
      rw [padDigits, readDigits?_append, inductionHypothesis fitsRest]
      simp [readDigits?, digitValue?_digitChar (by omega : number % 10 < 16),
        digitSmall, Nat.div_add_mod]

/-- A padded field within its range is read back. -/
private theorem readField?_padDigits
    {low high number : Nat}
    (fits : number < 10 ^ width)
    (wide : 0 < width)
    (least : low ≤ number)
    (most : number ≤ high) :
    readField? low high (padDigits width number) = some number := by
  have filled : padDigits width number ≠ [] := by
    intro empty
    have length := length_padDigits width number
    rw [empty] at length
    simp at length
    omega
  simp [readField?, readNumber?, filled, readDigits?_padDigits fits, least,
    most]

/-- The length of a year. -/
private theorem daysBeforeYear_succ
    (year : Nat) :
    daysBeforeYear (year + 1) =
      daysBeforeYear year + daysBeforeMonth (isLeap year) 12 := by
  have fourth :
      (year + 1 + 3) / 4 = (year + 3) / 4 + if year % 4 = 0 then 1 else 0 := by
    split <;> omega
  have hundredth :
      (year + 1 + 99) / 100 =
        (year + 99) / 100 + if year % 100 = 0 then 1 else 0 := by
    split <;> omega
  have whole :
      (year + 1 + 399) / 400 =
        (year + 399) / 400 + if year % 400 = 0 then 1 else 0 := by
    split <;> omega
  have enough : (year + 99) / 100 ≤ 365 * year + (year + 3) / 4 := by omega
  have nested4 : year % 100 = 0 → year % 4 = 0 := by omega
  have nested100 : year % 400 = 0 → year % 100 = 0 := by omega
  have length :
      daysBeforeMonth (isLeap year) 12 =
        365 + if isLeap year then 1 else 0 := by
    cases isLeap year <;> rfl
  rw [length]
  simp only [daysBeforeYear, fourth, hundredth, whole]
  by_cases by4 : year % 4 = 0
  · by_cases by100 : year % 100 = 0
    · by_cases by400 : year % 400 = 0
      · simp [isLeap, by4, by100, by400]
        omega
      · simp [isLeap, by4, by100, by400]
        omega
    · simp [isLeap, by4, by100, mt nested100 by100]
      omega
  · have not100 := mt nested4 by4
    simp [isLeap, by4, not100, mt nested100 not100]
    omega

/-- A month ends before the next one starts. -/
private theorem dayOfYear_lt_next
    (day : Int) :
    dayOfYear day <
      daysBeforeMonth (isLeap (yearOfEra day)) (monthOf day + 1) := by
  have bound := monthOf_le day
  by_cases notLast : monthOf day < 11
  · exact Nat.lt_of_not_le
      (Nat.findGreatest_is_greatest
        (P := fun month =>
          daysBeforeMonth (isLeap (yearOfEra day)) month ≤
            dayOfYear day)
        (Nat.lt_succ_self _) notLast)
  · have last : monthOf day = 11 := by omega
    have ended := dayOfEra_lt_next day
    have started := daysBeforeYear_yearOfEra_le day
    rw [daysBeforeYear_succ] at ended
    rw [last, dayOfYear]
    change _ < daysBeforeMonth _ 12
    omega

private theorem isLeap_add
    (era year : Nat) :
    isLeap (400 * era + year) = isLeap year := by
  have fourth : (400 * era + year) % 4 = year % 4 := by omega
  have hundredth : (400 * era + year) % 100 = year % 100 := by omega
  have whole : (400 * era + year) % 400 = year % 400 := by omega
  simp only [isLeap, fourth, hundredth, whole]

/-- A day is the sum of the days before its year, its month and itself. -/
private theorem day_eq_sum
    {day : Int}
    (started : 0 ≤ yearOf day) :
    ((146097 * ((yearOf day).natAbs / 400) +
          daysBeforeYear ((yearOf day).natAbs % 400) +
          daysBeforeMonth (isLeap (yearOf day).natAbs) (monthOf day) +
          dayOfMonth day : Nat) : Int) =
      day := by
  have bound := yearOfEra_lt day
  have inYear := daysBeforeMonth_monthOf_le day
  have inEra := daysBeforeYear_yearOfEra_le day
  have era : 0 ≤ eraOf day := by
    simp only [yearOf] at started
    omega
  have shape :
      (yearOf day).natAbs = 400 * (eraOf day).natAbs + yearOfEra day := by
    simp only [yearOf]
    omega
  have quotient : (yearOf day).natAbs / 400 = (eraOf day).natAbs := by omega
  have remainder : (yearOf day).natAbs % 400 = yearOfEra day := by omega
  have leap : isLeap (yearOf day).natAbs = isLeap (yearOfEra day) := by
    rw [shape, isLeap_add]
  rw [quotient, remainder, leap]
  have position :
      daysBeforeYear (yearOfEra day) +
          daysBeforeMonth (isLeap (yearOfEra day)) (monthOf day) +
          dayOfMonth day = dayOfEra day := by
    simp only [dayOfMonth, dayOfYear] at inYear ⊢
    omega
  simp only [dayOfEra, eraOf, daysPerEra] at position era ⊢
  omega

private theorem clock_sum
    (millis : Nat) :
    3600000 * (millis / 3600000) + 60000 * (millis / 60000 % 60) +
        1000 * (millis / 1000 % 60) + millis % 1000 = millis := by
  omega

/-- A text of fields within their ranges is read field by field. -/
private theorem parse_fields
    {text : String}
    {year month day hour minute second milli : Nat}
    (shape :
      text.toList =
        padDigits 4 year ++
          '-' :: fieldsText layout
            [month + 1, day + 1, hour, minute, second, milli])
    (years : year ≤ 9999)
    (months : month < 12)
    (days :
      day + 1 ≤
        daysBeforeMonth (isLeap year) (month + 1) -
          daysBeforeMonth (isLeap year) month)
    (hours : hour ≤ 23)
    (minutes : minute ≤ 59)
    (seconds : second ≤ 59)
    (millis : milli ≤ 999) :
    parse text =
      some (nanosPerMilli *
        ((86400000 *
            (146097 * (year / 400) + daysBeforeYear (year % 400) +
              daysBeforeMonth (isLeap year) month + day) +
          3600000 * hour + 60000 * minute + 1000 * second + milli : Nat) :
            Int)) := by
  have short : day + 1 ≤ 31 := by
    have length := @daysBeforeMonth_succ_le (isLeap year) _ months
    omega
  have readYear : readField? 0 9999 (padDigits 4 year) = some year :=
    readField?_padDigits (by omega) (by decide) (by omega) years
  have readMonth :
      readField? 1 12 (padDigits 2 (month + 1)) = some (month + 1) :=
    readField?_padDigits (by omega) (by decide) (by omega) (by omega)
  have readDay :
      readField? 1
          (daysBeforeMonth (isLeap year) (month + 1) -
            daysBeforeMonth (isLeap year) month)
          (padDigits 2 (day + 1)) = some (day + 1) :=
    readField?_padDigits (by omega) (by decide) (by omega) days
  have readHour : readField? 0 23 (padDigits 2 hour) = some hour :=
    readField?_padDigits (by omega) (by decide) (by omega) hours
  have readMinute : readField? 0 59 (padDigits 2 minute) = some minute :=
    readField?_padDigits (by omega) (by decide) (by omega) minutes
  have readSecond : readField? 0 59 (padDigits 2 second) = some second :=
    readField?_padDigits (by omega) (by decide) (by omega) seconds
  have readMilli : readField? 0 999 (padDigits 3 milli) = some milli :=
    readField?_padDigits (by omega) (by decide) (by omega) millis
  simp only [padDigits, List.nil_append, List.cons_append]
    at readYear readMonth readDay readHour readMinute readSecond readMilli
  unfold parse
  rw [shape]
  simp only [fieldsText, layout, padDigits, List.zipWith_cons_cons,
    List.zipWith_nil_left, List.flatten_cons, List.flatten_nil,
    List.nil_append, List.cons_append, List.append_nil]
  simp only [readYear, readMonth, readDay, readHour, readMinute, readSecond,
    readMilli, Option.bind_eq_bind, Option.bind_some, Nat.add_sub_cancel]
  rfl

/--
Within the years 0 to 9999, a printed instant is read back up to what printing
cuts off below the millisecond.
-/
theorem parse_format
    {instant : Instant}
    (inRange : FourDigitYear instant) :
    parse (format instant) = some (nanosPerMilli * milliOf instant) := by
  have lower := inRange.1
  have upper := inRange.2
  have monthBound := monthOf_le (dayOf instant)
  have millisBound : milliOfDay instant < 86400000 := by
    simp only [milliOfDay, millisPerDay]
    omega
  have shape :
      (format instant).toList =
        padDigits 4 (yearOf (dayOf instant)).natAbs ++
          '-' :: fieldsText layout (fieldsOf instant) := by
    rw [format, yearText_of_fourDigitYear inRange, String.toList_ofList]
  have leap :
      isLeap (yearOf (dayOf instant)).natAbs =
        isLeap (yearOfEra (dayOf instant)) := by
    have bound := yearOfEra_lt (dayOf instant)
    have parts :
        (yearOf (dayOf instant)).natAbs =
          400 * (eraOf (dayOf instant)).natAbs +
            yearOfEra (dayOf instant) := by
      simp only [yearOf] at lower ⊢
      omega
    rw [parts, isLeap_add]
  have dayFits :
      dayOfMonth (dayOf instant) + 1 ≤
        daysBeforeMonth (isLeap (yearOf (dayOf instant)).natAbs)
            (monthOf (dayOf instant) + 1) -
          daysBeforeMonth (isLeap (yearOf (dayOf instant)).natAbs)
            (monthOf (dayOf instant)) := by
    have started := daysBeforeMonth_monthOf_le (dayOf instant)
    have ended := dayOfYear_lt_next (dayOf instant)
    rw [leap]
    simp only [dayOfMonth]
    omega
  rw [parse_fields shape (by omega) (by omega) dayFits (by omega) (by omega)
    (by omega) (by omega)]
  have day := day_eq_sum lower
  have clock := clock_sum (milliOfDay instant)
  have whole :
      millisPerDay * dayOf instant + milliOfDay instant =
        milliOf instant := by
    simp only [dayOf, milliOfDay, millisPerDay]
    omega
  simp only [millisPerDay] at whole
  congr 2
  omega

end WgMesh.CivilTime
