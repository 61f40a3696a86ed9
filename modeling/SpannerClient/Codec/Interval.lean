import Mathlib.Tactic.Ring
import SpannerClient.Codec.Numbers

/-!
# Intervals and their ISO 8601 text

`Interval.toISO8601` prints the months as years and months, the days, and the
nanoseconds as hours, minutes and seconds with a fraction; parts that are zero
are left out.  `Interval.fromISO8601` reads such a text by a regular expression
whose parts are all optional.

Months and days are JavaScript numbers and nanoseconds a bigint.  On safe
integers the rounded quotient of `Math.trunc` has the integral part of the exact
one, so the division below is that of the integers.  `Big` reads the digits that
are printed of a number (`bigOf`), which are those of the number up to the safe
integers.

`exec` matches the regular expression, and `Matches` says what a text that it
matches looks like (`exec_eq_some_iff`).  The main result is
`fromISO8601_toISO8601`, for every interval whose parts are representable.
-/

namespace SpannerClient
namespace Codec

open Machine

@[ext]
structure Interval where
  months : Int
  days : Int
  nanoseconds : Int
deriving DecidableEq, Repr

namespace Interval

def MONTHS_PER_YEAR : Int := 12

def SECONDS_PER_HOUR : Int := 3600

def SECONDS_PER_MINUTE : Int := 60

def NANOSECONDS_PER_SECOND : Nat := 1000000000

def ZERO : Interval := ⟨0, 0, 0⟩

/-- The years and months of `toISO8601`. -/
def monthsText
    (months : Int) : List Char :=
  let years_part := months.tdiv MONTHS_PER_YEAR
  let months_part := months - years_part * MONTHS_PER_YEAR
  printUnit 'Y' years_part ++ printUnit 'M' months_part

/-- The seconds of `toISO8601`. -/
def secondsText
    (nanoseconds : Int) : List Char :=
  let seconds_part := nanoseconds.natAbs / NANOSECONDS_PER_SECOND
  let rest := nanoseconds.natAbs % NANOSECONDS_PER_SECOND
  if seconds_part ≠ 0 ∨ rest ≠ 0 then
    printSigned (decide (nanoseconds < 0)) seconds_part ++
      ((if rest ≠ 0 then '.' :: trimZeros (printPlaces 9 rest) else []) ++
        ['S'])
  else
    []

def NANOSECONDS_PER_HOUR : Int := NANOSECONDS_PER_SECOND * SECONDS_PER_HOUR

def NANOSECONDS_PER_MINUTE : Int :=
  NANOSECONDS_PER_SECOND * SECONDS_PER_MINUTE

/-- `hours_part` of `toISO8601`. -/
def hoursPart
    (nanoseconds : Int) : Int :=
  nanoseconds.tdiv NANOSECONDS_PER_HOUR

def afterHours
    (nanoseconds : Int) : Int :=
  nanoseconds - hoursPart nanoseconds * NANOSECONDS_PER_HOUR

/-- `minutes_part` of `toISO8601`. -/
def minutesPart
    (nanoseconds : Int) : Int :=
  (afterHours nanoseconds).tdiv NANOSECONDS_PER_MINUTE

def afterMinutes
    (nanoseconds : Int) : Int :=
  afterHours nanoseconds - minutesPart nanoseconds * NANOSECONDS_PER_MINUTE

/-- The hours, minutes and seconds of `toISO8601`. -/
def timeText
    (nanoseconds : Int) : List Char :=
  printUnit 'H' (hoursPart nanoseconds) ++
    (printUnit 'M' (minutesPart nanoseconds) ++
      secondsText (afterMinutes nanoseconds))

def toISO8601
    (i : Interval) : String :=
  if i = ZERO then
    "P0Y"
  else
    String.ofList
      ('P' ::
        (monthsText i.months ++
          (printUnit 'D' i.days ++
            (if i.nanoseconds ≠ 0 then 'T' :: timeText i.nanoseconds
             else []))))

/-- What the groups of `ISO8601_PATTERN` denote, the seconds in nanoseconds. -/
structure Groups where
  years : Int
  months : Int
  days : Int
  hours : Int := 0
  minutes : Int := 0
  seconds : Int := 0
deriving DecidableEq

/-- `[.,]\d{1,9}`. -/
def readFraction : List Char → Option (Nat × List Char)
  | c :: cs =>
      if c = '.' ∨ c = ',' then
        let (ds, rest) := cs.span Char.isDigit
        if 1 ≤ ds.length ∧ ds.length ≤ 9 then
          some (readPlaces 9 ds, rest)
        else
          none
      else
        none
  | [] => none

/-- `((\d+)([.,]\d{1,9})?)|([.,]\d{1,9})`. -/
def readSecondsNumber
    (cs : List Char) : Option (Nat × List Char) :=
  match readNat cs with
  | some (n, rest) =>
      match readFraction rest with
      | some (fraction, rest) =>
          some (n * NANOSECONDS_PER_SECOND + fraction, rest)
      | none => some (n * NANOSECONDS_PER_SECOND, rest)
  | none => readFraction cs

/-- `(-?(((\d+)([.,]\d{1,9})?)|([.,]\d{1,9}))S)?`; absent, it is zero. -/
def readSeconds
    (cs : List Char) : Int × List Char :=
  let negative := cs.head? == some '-'
  match readSecondsNumber (if negative then cs.tail else cs) with
  | some (n, 'S' :: rest) => (signed negative n, rest)
  | _ => (0, cs)

/-- `(?=-?[.,]?\d)`. -/
def startsTime
    (cs : List Char) : Bool :=
  let cs := if cs.head? = some '-' then cs.tail else cs
  let cs :=
    if cs.head? = some '.' ∨ cs.head? = some ',' then cs.tail else cs
  cs.head?.any Char.isDigit

/-- `(T(?=-?[.,]?\d)...)?$` of `ISO8601_PATTERN`, after the groups of the date. -/
def execTime
    (date : Groups) : List Char → Option Groups
  | [] => some date
  | 'T' :: time =>
      let hours := readUnit 'H' time
      let minutes := readUnit 'M' hours.2
      let seconds := readSeconds minutes.2
      if startsTime time ∧ seconds.2 = [] then
        some
          { date with
            hours := hours.1
            minutes := minutes.1
            seconds := seconds.1 }
      else
        none
  | _ => none

/-- `ISO8601_PATTERN.exec`.  Every part ends in a letter of its own, so that no
part has to be given back. -/
def exec : List Char → Option Groups
  | 'P' :: date =>
      if date = [] then
        none
      else
        let years := readUnit 'Y' date
        let months := readUnit 'M' years.2
        let days := readUnit 'D' months.2
        execTime
          { years := years.1
            months := months.1
            days := days.1 }
          days.2
  | _ => none

/-- `fromISO8601`; `none` if it throws.  `Big` adds and multiplies exactly, and
prints a number from 1e21 on with an exponent, which `BigInt` does not read.  The
hours and minutes come into it through a bigint, the years and months as they are
printed. -/
def fromISO8601
    (isoString : String) : Option Interval := do
  let matcher ← exec isoString.toList
  let years ← parseInt matcher.years
  let months ← parseInt matcher.months
  let days ← parseInt matcher.days
  let hours ← parseInt matcher.hours
  let minutes ← parseInt matcher.minutes
  let totalMonths := bigOf years * MONTHS_PER_YEAR + bigOf months
  let totalNanoseconds :=
    matcher.seconds +
      (hours * SECONDS_PER_HOUR + minutes * SECONDS_PER_MINUTE) *
        NANOSECONDS_PER_SECOND
  if totalMonths.natAbs ≤ MAX_SAFE_INTEGER ∧
      totalNanoseconds.natAbs < 10 ^ 21 then
    some
      { months := totalMonths
        days := days
        nanoseconds := totalNanoseconds }
  else
    none

/-- Safe integers, and a bigint that is printed without an exponent. -/
structure Representable
    (i : Interval) : Prop where
  months : i.months.natAbs ≤ MAX_SAFE_INTEGER
  days : i.days.natAbs ≤ MAX_SAFE_INTEGER
  nanoseconds : i.nanoseconds.natAbs < 10 ^ 21

/-! ## The pattern -/

/-- A text that `[.,]\d{1,9}` matches, and the nanoseconds it denotes. -/
inductive FractionText : List Char → Nat → Prop where
  | mk (c : Char) (ds : List Char)
      (hc : c = '.' ∨ c = ',')
      (hds : Digits ds)
      (hlength : ds.length ≤ 9) :
      FractionText (c :: ds) (readPlaces 9 ds)

/-- A text that `((\d+)([.,]\d{1,9})?)|([.,]\d{1,9})` matches. -/
inductive SecondsNumber : List Char → Nat → Prop where
  | whole (ds : List Char)
      (hds : Digits ds) :
      SecondsNumber ds (Nat.ofDigitChars 10 ds 0 * NANOSECONDS_PER_SECOND)
  | both (ds text : List Char) (fraction : Nat)
      (hds : Digits ds)
      (htext : FractionText text fraction) :
      SecondsNumber (ds ++ text)
        (Nat.ofDigitChars 10 ds 0 * NANOSECONDS_PER_SECOND + fraction)
  | fraction (text : List Char) (fraction : Nat)
      (htext : FractionText text fraction) :
      SecondsNumber text fraction

/-- A text that the part of the seconds matches, and the nanoseconds it
denotes. -/
inductive SecondsText : List Char → Int → Prop where
  | absent : SecondsText [] 0
  | number (negative : Bool) (text : List Char) (n : Nat)
      (htext : SecondsNumber text n) :
      SecondsText (signText negative ++ (text ++ ['S'])) (signed negative n)

/-- `ISO8601_PATTERN` matches the text with these groups. -/
inductive Matches : List Char → Groups → Prop where
  | date {tyears tmonths tdays : List Char} {years months days : Int}
      (hyears : UnitText 'Y' tyears years)
      (hmonths : UnitText 'M' tmonths months)
      (hdays : UnitText 'D' tdays days)
      (hne : tyears ++ (tmonths ++ tdays) ≠ []) :
      Matches ('P' :: (tyears ++ (tmonths ++ tdays)))
        { years := years
          months := months
          days := days }
  | time {tyears tmonths tdays thours tminutes tseconds : List Char}
      {years months days hours minutes seconds : Int}
      (hyears : UnitText 'Y' tyears years)
      (hmonths : UnitText 'M' tmonths months)
      (hdays : UnitText 'D' tdays days)
      (hstart : startsTime (thours ++ (tminutes ++ tseconds)) = true)
      (hhours : UnitText 'H' thours hours)
      (hminutes : UnitText 'M' tminutes minutes)
      (hseconds : SecondsText tseconds seconds) :
      Matches
        ('P' ::
          (tyears ++ (tmonths ++ (tdays ++
            'T' :: (thours ++ (tminutes ++ tseconds))))))
        { years := years
          months := months
          days := days
          hours := hours
          minutes := minutes
          seconds := seconds }

/-- A fraction is read. -/
theorem readFraction_text
    {text rest : List Char} {fraction : Nat}
    (h : FractionText text fraction)
    (hrest : NoDigit rest) :
    readFraction (text ++ rest) = some (fraction, rest) := by
  obtain ⟨c, ds, hc, hds, hlength⟩ := h
  have hone := List.length_pos_iff.mpr hds.ne_nil
  simp only [List.cons_append, readFraction, hc, if_true,
    span_digits hds.isDigit hrest]
  rw [if_pos ⟨hone, hlength⟩]

theorem readFraction_spec
    {cs rest : List Char} {fraction : Nat}
    (h : readFraction cs = some (fraction, rest)) :
    ∃ text, cs = text ++ rest ∧ FractionText text fraction := by
  cases cs with
  | nil => cases h
  | cons c cs =>
      rw [readFraction] at h
      split at h
      · rename_i hc
        simp only [List.span_eq_takeWhile_dropWhile] at h
        have hsplit :=
          List.takeWhile_append_dropWhile (p := Char.isDigit) (l := cs)
        split at h
        · rename_i hlength
          obtain ⟨rfl, rfl⟩ := Prod.mk.inj (Option.some.inj h)
          refine ⟨c :: cs.takeWhile Char.isDigit, ?_, ?_⟩
          · rw [List.cons_append, hsplit]
          · exact
              .mk c _ hc
                ⟨List.length_pos_iff.mp hlength.1,
                  List.all_eq_true.mp List.all_takeWhile⟩
                hlength.2
        · cases h
      · cases h

theorem noDigit_fractionText
    {text : List Char} {fraction : Nat}
    (h : FractionText text fraction) (rest : List Char) :
    NoDigit (text ++ rest) := by
  obtain ⟨c, ds, hc, -, -⟩ := h
  rcases hc with rfl | rfl
  · exact noDigit_cons (by decide) _
  · exact noDigit_cons (by decide) _

/-- The number of the seconds is read up to their letter. -/
theorem readSecondsNumber_text
    {text : List Char} {n : Nat}
    (h : SecondsNumber text n) (rest : List Char) :
    readSecondsNumber (text ++ 'S' :: rest) = some (n, 'S' :: rest) := by
  have hend : NoDigit ('S' :: rest) := noDigit_cons (by decide) rest
  rw [readSecondsNumber]
  cases h with
  | whole ds hds =>
      rw [readNat_digits hds hend]
      rfl
  | both ds text fraction hds htext =>
      rw [List.append_assoc,
        readNat_digits hds (noDigit_fractionText htext _)]
      simp only [readFraction_text htext hend]
  | fraction text fraction htext =>
      rw [readNat_of_noDigit (noDigit_fractionText htext _)]
      exact readFraction_text htext hend

theorem readSecondsNumber_spec
    {cs rest : List Char} {n : Nat}
    (h : readSecondsNumber cs = some (n, rest)) :
    ∃ text, cs = text ++ rest ∧ SecondsNumber text n := by
  rw [readSecondsNumber] at h
  split at h
  · rename_i m rest' hnat
    obtain ⟨ds, rfl, hds, rfl⟩ := readNat_spec hnat
    split at h
    · rename_i fraction rest'' hfraction
      obtain ⟨rfl, rfl⟩ := Prod.mk.inj (Option.some.inj h)
      obtain ⟨text, rfl, htext⟩ := readFraction_spec hfraction
      exact ⟨ds ++ text, by simp, .both ds text fraction hds htext⟩
    · obtain ⟨rfl, rfl⟩ := Prod.mk.inj (Option.some.inj h)
      exact ⟨ds, rfl, .whole ds hds⟩
  · obtain ⟨text, rfl, htext⟩ := readFraction_spec h
    exact ⟨text, rfl, .fraction text n htext⟩

/-- The number of the seconds has no sign of its own. -/
theorem SecondsNumber.head_ne_minus
    {text : List Char} {n : Nat}
    (h : SecondsNumber text n) (rest : List Char) :
    (text ++ rest).head? ≠ some '-' := by
  have hdigits :
      ∀ {ds rest : List Char}, Digits ds → (ds ++ rest).head? ≠ some '-' := by
    intro ds rest hds
    obtain ⟨c, cs, heq, hc⟩ := hds.append_head rest
    rw [heq]
    rintro hminus
    obtain rfl := Option.some.inj hminus
    cases hc
  have hfraction :
      ∀ {text rest : List Char} {n : Nat}, FractionText text n →
        (text ++ rest).head? ≠ some '-' := by
    rintro _ rest _ ⟨c, ds, hc, -, -⟩
    rcases hc with rfl | rfl <;> simp
  cases h with
  | whole ds hds => exact hdigits hds
  | both ds text fraction hds htext =>
      rw [List.append_assoc]
      exact hdigits hds
  | fraction text fraction htext => exact hfraction htext

/-- The seconds are read. -/
theorem readSeconds_text
    {text : List Char} {n : Int}
    (h : SecondsText text n) :
    readSeconds text = (n, []) := by
  cases h with
  | absent => rfl
  | number negative text n htext =>
      have hread := readSecondsNumber_text htext []
      rw [readSeconds]
      cases negative with
      | true => simp [hread]
      | false =>
          have hhead : ((text ++ ['S']).head? == some '-') = false := by
            simpa using htext.head_ne_minus ['S']
          rw [signText_false, List.nil_append, hhead]
          simp [hread]

theorem readSeconds_spec
    (cs : List Char) :
    ∃ text, cs = text ++ (readSeconds cs).2 ∧
      SecondsText text (readSeconds cs).1 := by
  unfold readSeconds
  dsimp only
  split
  · rename_i n rest hread
    obtain ⟨text, heq, htext⟩ := readSecondsNumber_spec hread
    refine ⟨_, ?_, .number (cs.head? == some '-') text n htext⟩
    cases hnegative : cs.head? == some '-' with
    | true =>
        rw [hnegative, if_pos rfl] at heq
        obtain ⟨tail, rfl⟩ :=
          List.head?_eq_some_iff.mp (beq_iff_eq.mp hnegative)
        rw [List.tail_cons] at heq
        simp [heq]
    | false =>
        rw [hnegative, if_neg (by decide)] at heq
        simp [heq]
  · exact ⟨[], rfl, .absent⟩

/-- The seconds do not begin with hours or minutes. -/
theorem noUnit_secondsText
    {unit : Char} {text : List Char} {n : Int}
    (hpoint : '.' ≠ unit)
    (hcomma : ',' ≠ unit)
    (hseconds : 'S' ≠ unit)
    (h : SecondsText text n) :
    NoUnit unit text := by
  cases h with
  | absent => exact noUnit_nil unit
  | number negative text n htext =>
      cases htext with
      | whole ds hds =>
          exact noUnit_signText (by decide) hseconds negative hds []
      | both ds text fraction hds htext =>
          obtain ⟨c, ds', hc, -, -⟩ := htext
          rw [List.append_assoc, List.cons_append]
          rcases hc with rfl | rfl
          · exact noUnit_signText (by decide) hpoint negative hds _
          · exact noUnit_signText (by decide) hcomma negative hds _
      | fraction text fraction htext =>
          rw [NoUnit, readUnit, readInt_signText_of_noDigit negative
            (noDigit_fractionText htext _)
            ((SecondsNumber.fraction _ _ htext).head_ne_minus _)]

/-- `exec` gives the groups with which the pattern matches. -/
theorem exec_of_matches
    {cs : List Char} {groups : Groups}
    (h : Matches cs groups) :
    exec cs = some groups := by
  cases h with
  | @date tyears tmonths tdays years months days hyears hmonths hdays hne =>
      have hdaysRead :=
        readUnit_unitText (by decide) hdays (noUnit_nil 'D')
      have hmonthsRead :=
        readUnit_unitText (by decide) hmonths
          (noUnit_unitText (by decide) (by decide) hdays (noUnit_nil 'M'))
      have hyearsRead :=
        readUnit_unitText (by decide) hyears
          (noUnit_unitText (by decide) (by decide) hmonths
            (noUnit_unitText (by decide) (by decide) hdays (noUnit_nil 'Y')))
      rw [List.append_nil] at hdaysRead hmonthsRead hyearsRead
      simp only [exec, hne, if_false, hyearsRead, hmonthsRead, hdaysRead]
      rfl
  | @time tyears tmonths tdays thours tminutes tseconds years months days
      hours minutes seconds hyears hmonths hdays hstart hhours hminutes
      hseconds =>
      have htime : ∀ unit, NoUnit unit
          ('T' :: (thours ++ (tminutes ++ tseconds))) :=
        fun unit => noUnit_cons (by decide) (by decide) unit _
      have hdaysRead := readUnit_unitText (by decide) hdays (htime 'D')
      have hmonthsRead :=
        readUnit_unitText (by decide) hmonths
          (noUnit_unitText (by decide) (by decide) hdays (htime 'M'))
      have hyearsRead :=
        readUnit_unitText (by decide) hyears
          (noUnit_unitText (by decide) (by decide) hmonths
            (noUnit_unitText (by decide) (by decide) hdays (htime 'Y')))
      have hminutesRead :=
        readUnit_unitText (by decide) hminutes
          (noUnit_secondsText (by decide) (by decide) (by decide) hseconds)
      have hhoursRead :=
        readUnit_unitText (by decide) hhours
          (noUnit_unitText (by decide) (by decide) hminutes
            (noUnit_secondsText (by decide) (by decide) (by decide)
              hseconds))
      have hne :
          tyears ++ (tmonths ++ (tdays ++
            'T' :: (thours ++ (tminutes ++ tseconds)))) ≠ [] := by
        simp
      simp only [exec, hne, if_false, hyearsRead, hmonthsRead, hdaysRead,
        execTime, hhoursRead, hminutesRead, readSeconds_text hseconds, hstart,
        and_self, if_true]

/-- The time is read after the groups of the date. -/
theorem matches_of_execTime
    {tyears tmonths tdays rest : List Char} {years months days : Int}
    {groups : Groups}
    (hyears : UnitText 'Y' tyears years)
    (hmonths : UnitText 'M' tmonths months)
    (hdays : UnitText 'D' tdays days)
    (hne : tyears ++ (tmonths ++ (tdays ++ rest)) ≠ [])
    (h :
      execTime
        { years := years
          months := months
          days := days }
        rest = some groups) :
    Matches ('P' :: (tyears ++ (tmonths ++ (tdays ++ rest)))) groups := by
  unfold execTime at h
  split at h
  · rw [List.append_nil] at hne ⊢
    obtain rfl := Option.some.inj h
    exact .date hyears hmonths hdays hne
  · rename_i time
    obtain ⟨thours, hhoursEq, hhours⟩ := readUnit_spec 'H' time
    obtain ⟨tminutes, hminutesEq, hminutes⟩ :=
      readUnit_spec 'M' (readUnit 'H' time).2
    obtain ⟨tseconds, hsecondsEq, hseconds⟩ :=
      readSeconds_spec (readUnit 'M' (readUnit 'H' time).2).2
    dsimp only at h
    split at h
    · rename_i hread
      obtain ⟨hstart, hend⟩ := hread
      rw [hend, List.append_nil] at hsecondsEq
      rw [hsecondsEq] at hminutesEq
      rw [hminutesEq] at hhoursEq
      obtain rfl := Option.some.inj h
      rw [hhoursEq] at hstart
      have hmatches :=
        Matches.time hyears hmonths hdays hstart hhours hminutes hseconds
      rw [← hhoursEq] at hmatches
      exact hmatches
    · cases h
  · cases h

theorem matches_of_exec
    {cs : List Char} {groups : Groups}
    (h : exec cs = some groups) :
    Matches cs groups := by
  unfold exec at h
  split at h
  · rename_i date
    split at h
    · cases h
    · rename_i hne
      obtain ⟨tyears, hyearsEq, hyears⟩ := readUnit_spec 'Y' date
      obtain ⟨tmonths, hmonthsEq, hmonths⟩ :=
        readUnit_spec 'M' (readUnit 'Y' date).2
      obtain ⟨tdays, hdaysEq, hdays⟩ :=
        readUnit_spec 'D' (readUnit 'M' (readUnit 'Y' date).2).2
      have heq := hyearsEq
      rw [hmonthsEq, hdaysEq] at heq
      have hmatches :=
        matches_of_execTime hyears hmonths hdays (heq ▸ hne) h
      rw [← heq] at hmatches
      exact hmatches
  · cases h

theorem exec_eq_some_iff
    {cs : List Char} {groups : Groups} :
    exec cs = some groups ↔ Matches cs groups :=
  ⟨matches_of_exec, exec_of_matches⟩

/-! ## The round trip -/

/-- Something is printed for a time that is not zero, and it starts as the
lookahead asks. -/
theorem startsTime_printSigned
    (negative : Bool) (n : Nat) (text : List Char) :
    startsTime (printSigned negative n ++ text) = true := by
  obtain ⟨c, cs, heq, hc⟩ := (digits_toDigits n).append_head text
  have hne : ∀ d : Char, d.isDigit = false → c ≠ d := by
    rintro d hd rfl
    rw [hc] at hd
    cases hd
  have hminus := hne '-' (by decide)
  have hpoint := hne '.' (by decide)
  have hcomma := hne ',' (by decide)
  rw [startsTime, printSigned]
  cases negative <;> simp [heq, hminus, hpoint, hcomma, hc]

theorem startsTime_printUnit
    {n : Int}
    (hn : n ≠ 0)
    (unit : Char) (text : List Char) :
    startsTime (printUnit unit n ++ text) = true := by
  rw [printUnit, printInt]
  rw [if_neg hn, List.append_assoc]
  exact startsTime_printSigned _ _ _

theorem startsTime_secondsText
    {n : Int}
    (hn : n ≠ 0) :
    startsTime (secondsText n) = true := by
  unfold secondsText
  dsimp only
  split
  · exact startsTime_printSigned _ _ _
  · rename_i hzero
    have hsplit := Nat.div_add_mod' n.natAbs NANOSECONDS_PER_SECOND
    push Not at hzero
    rw [hzero.1, hzero.2] at hsplit
    omega

theorem startsTime_timeText
    {n : Int}
    (hn : n ≠ 0) :
    startsTime (timeText n) = true := by
  rw [timeText]
  by_cases hhours : hoursPart n = 0
  · by_cases hminutes : minutesPart n = 0
    · have hafter : afterMinutes n = n := by
        simp [afterMinutes, afterHours, hhours, hminutes]
      rw [hhours, hminutes, hafter]
      exact startsTime_secondsText hn
    · rw [hhours]
      exact startsTime_printUnit hminutes 'M' _
  · exact startsTime_printUnit hhours 'H' _

/-- The hours, minutes and remaining nanoseconds add up. -/
theorem time_sum
    (n : Int) :
    afterMinutes n +
        (hoursPart n * SECONDS_PER_HOUR +
          minutesPart n * SECONDS_PER_MINUTE) * NANOSECONDS_PER_SECOND =
      n := by
  rw [afterMinutes, afterHours, NANOSECONDS_PER_HOUR, NANOSECONDS_PER_MINUTE]
  ring

theorem months_sum
    (n : Int) :
    n.tdiv MONTHS_PER_YEAR * MONTHS_PER_YEAR +
      (n - n.tdiv MONTHS_PER_YEAR * MONTHS_PER_YEAR) = n := by
  ring

/-- A quotient of a number is not larger, and a remainder is smaller than what it
is divided by. -/
theorem natAbs_tdiv_le
    (n d : Int) :
    (n.tdiv d).natAbs ≤ n.natAbs := by
  rw [Int.natAbs_tdiv]
  exact Nat.div_le_self _ _

theorem natAbs_sub_tdiv
    (n d : Int) :
    (n - n.tdiv d * d).natAbs = n.natAbs % d.natAbs := by
  rw [show n - n.tdiv d * d = n.tmod d by rw [Int.tmod_def]; ring,
    Int.natAbs_tmod]

/-- The seconds that have been printed match their part of the pattern. -/
theorem fractionText_printed
    {rest : Nat}
    (hrest : rest < NANOSECONDS_PER_SECOND)
    (hpos : rest ≠ 0) :
    FractionText ('.' :: trimZeros (printPlaces 9 rest)) rest := by
  obtain ⟨hne, hlength, hdigits, hvalue⟩ :=
    readPlaces_trimZeros (by decide : 0 < 9) hrest (Nat.pos_of_ne_zero hpos)
  have htext :=
    FractionText.mk '.' _ (Or.inl rfl) ⟨hne, hdigits⟩ hlength
  rw [hvalue] at htext
  exact htext

theorem secondsNumber_printed
    (n : Nat) :
    SecondsNumber
      (Nat.toDigits 10 (n / NANOSECONDS_PER_SECOND) ++
        (if n % NANOSECONDS_PER_SECOND ≠ 0 then
          '.' :: trimZeros (printPlaces 9 (n % NANOSECONDS_PER_SECOND))
        else [])) n := by
  have hmod : n % NANOSECONDS_PER_SECOND < NANOSECONDS_PER_SECOND :=
    Nat.mod_lt _ (by decide)
  have hsplit := Nat.div_add_mod' n NANOSECONDS_PER_SECOND
  have hdigits := digits_toDigits (n / NANOSECONDS_PER_SECOND)
  by_cases hzero : n % NANOSECONDS_PER_SECOND = 0
  · have hwhole := SecondsNumber.whole _ hdigits
    rw [Nat.ofDigitChars_ten_toDigits] at hwhole
    rw [hzero, Nat.add_zero] at hsplit
    rw [hsplit] at hwhole
    simpa [hzero] using hwhole
  · have hboth :=
      SecondsNumber.both _ _ _ hdigits (fractionText_printed hmod hzero)
    rw [Nat.ofDigitChars_ten_toDigits, hsplit] at hboth
    simpa [hzero] using hboth

theorem secondsText_printed
    (n : Int) :
    SecondsText (secondsText n) n := by
  unfold secondsText
  dsimp only
  split
  · have htext :=
      SecondsText.number (decide (n < 0)) _ _ (secondsNumber_printed n.natAbs)
    rw [signed_natAbs] at htext
    simpa [printSigned] using htext
  · rename_i hzero
    have hn : n = 0 := by
      have hsplit := Nat.div_add_mod' n.natAbs NANOSECONDS_PER_SECOND
      push Not at hzero
      rw [hzero.1, hzero.2] at hsplit
      omega
    rw [hn]
    exact .absent

/-- The text of an interval that is not zero matches the pattern. -/
theorem matches_toISO8601
    {i : Interval}
    (hi : i ≠ ZERO) :
    Matches i.toISO8601.toList
      { years := i.months.tdiv MONTHS_PER_YEAR
        months :=
          i.months - i.months.tdiv MONTHS_PER_YEAR * MONTHS_PER_YEAR
        days := i.days
        hours := hoursPart i.nanoseconds
        minutes := minutesPart i.nanoseconds
        seconds := afterMinutes i.nanoseconds } := by
  have hyears := unitText_printUnit 'Y' (i.months.tdiv MONTHS_PER_YEAR)
  have hmonths :=
    unitText_printUnit 'M'
      (i.months - i.months.tdiv MONTHS_PER_YEAR * MONTHS_PER_YEAR)
  have hdays := unitText_printUnit 'D' i.days
  unfold toISO8601 monthsText
  rw [if_neg hi, String.toList_ofList]
  dsimp only
  rw [List.append_assoc]
  split
  · rename_i hn
    have hstart := startsTime_timeText hn
    exact
      .time hyears hmonths hdays hstart (unitText_printUnit 'H' _)
        (unitText_printUnit 'M' _) (secondsText_printed _)
  · rename_i hzero
    have hn : i.nanoseconds = 0 := by simpa using hzero
    rw [List.append_nil, hn]
    refine .date hyears hmonths hdays ?_
    intro hnil
    simp only [List.append_eq_nil_iff, printUnit_eq_nil] at hnil
    obtain ⟨hyears, hmonths, hdays⟩ := hnil
    rw [hyears, Int.zero_mul, Int.sub_zero] at hmonths
    exact hi (Interval.ext hmonths hdays hn)

/-- The years and months are safe integers. -/
theorem monthsParts_safe
    {n : Int}
    (hn : n.natAbs ≤ MAX_SAFE_INTEGER) :
    (n.tdiv MONTHS_PER_YEAR).natAbs ≤ MAX_SAFE_INTEGER ∧
      (n - n.tdiv MONTHS_PER_YEAR * MONTHS_PER_YEAR).natAbs ≤
        MAX_SAFE_INTEGER := by
  constructor
  · exact (natAbs_tdiv_le _ _).trans hn
  · rw [natAbs_sub_tdiv]
    exact (Nat.mod_le _ _).trans hn

/-- The hours and minutes are safe integers. -/
theorem parseInt_time
    {n : Int}
    (hn : n.natAbs < 10 ^ 21) :
    parseInt (hoursPart n) = some (hoursPart n) ∧
      parseInt (minutesPart n) = some (minutesPart n) := by
  have hhour : NANOSECONDS_PER_HOUR.natAbs = 3600000000000 := by decide
  have hminute : NANOSECONDS_PER_MINUTE.natAbs = 60000000000 := by decide
  have hsafe : MAX_SAFE_INTEGER = 9007199254740991 := rfl
  constructor
  · refine parseInt_of_safe ?_
    rw [hoursPart, Int.natAbs_tdiv, hhour]
    change n.natAbs / 3600000000000 ≤ MAX_SAFE_INTEGER
    omega
  · refine parseInt_of_safe ?_
    rw [minutesPart, Int.natAbs_tdiv, hminute, afterHours, hoursPart,
      natAbs_sub_tdiv, hhour]
    change n.natAbs % 3600000000000 / 60000000000 ≤ MAX_SAFE_INTEGER
    omega

/-- An interval is what its text is read as. -/
theorem fromISO8601_toISO8601
    {i : Interval}
    (h : Representable i) :
    fromISO8601 i.toISO8601 = some i := by
  by_cases hi : i = ZERO
  · subst hi
    decide
  · obtain ⟨hyears, hmonths⟩ := monthsParts_safe h.months
    obtain ⟨hhours, hminutes⟩ := parseInt_time h.nanoseconds
    rw [fromISO8601]
    simp only [exec_of_matches (matches_toISO8601 hi),
      parseInt_of_safe hyears, parseInt_of_safe hmonths,
      parseInt_of_safe h.days, hhours, hminutes, bigOf_of_safe hyears,
      bigOf_of_safe hmonths, Option.bind_eq_bind, Option.bind_some,
      months_sum, time_sum]
    rw [if_pos ⟨h.months, h.nanoseconds⟩]

end Interval

end Codec
end SpannerClient
