import SpannerClient.Codec.Interval

/-!
# What is made of the text of an interval

Years, months, days, hours and minutes of any length go through `parseInt`, which
rounds them to doubles, and only the total of the months is checked afterwards.
Hours and minutes go on as bigints, with the exact value of the double; years and
months are given to `Big` as numbers, and `Big` reads a number as it is printed,
with as few digits as possible (`bigOf`).  The total of the nanoseconds is exact,
but `Big` prints it with an exponent from 1e21 on, and `BigInt` does not read
that.

The model is `fromISO8601Result`, which keeps what is thrown.  `Groups` are the
parts that the pattern has found, `Groups.rounded` the parts the sums are made
of.  `Groups.Clean` says when rounding does no harm, and `exactOrClean_iff` that
this is exactly when parsing is exact or fails with a `GoogleError`.

The last section reads the text that `toISO8601` prints (`equals_of_toISO8601`).
-/

namespace SpannerClient
namespace Codec
namespace Interval

open Machine

/-! ## The model -/

/-- What `fromISO8601` throws. -/
inductive ISO8601Error where
  | googleError (message : String)
  /-- `Big` of an infinity. -/
  | bigError
  /-- `BigInt` of an infinity. -/
  | rangeError
  /-- `BigInt` of a text with an exponent. -/
  | syntaxError
deriving DecidableEq, Repr

def invalidStringMessage
    (isoString : String) : String :=
  "Invalid ISO8601 duration string: " ++ isoString

def totalMonthsMessage : String :=
  "Total months is outside of the range of safe integer"

/-- The message of the constructor, for an infinity of days. -/
def invalidDaysMessage
    (days : Int) : String :=
  "Invalid days: " ++ (if days < 0 then "-Infinity" else "Infinity") ++
    ", days should be an integral value"

/-- The value, or the error in its place. -/
def orThrow {α : Type}
    (err : ISO8601Error) : Option α → Except ISO8601Error α
  | none => .error err
  | some a => .ok a

/-- `fromISO8601` after the total of the months has been checked. -/
def withMonths
    (matcher : Groups) (totalMonths : Int) : Except ISO8601Error Interval := do
  let hours ← orThrow .rangeError (parseInt matcher.hours)
  let minutes ← orThrow .rangeError (parseInt matcher.minutes)
  let totalNanoseconds :=
    matcher.seconds +
      (hours * SECONDS_PER_HOUR + minutes * SECONDS_PER_MINUTE) *
        NANOSECONDS_PER_SECOND
  if 10 ^ 21 ≤ totalNanoseconds.natAbs then
    .error .syntaxError
  else
    let days ←
      orThrow (.googleError (invalidDaysMessage matcher.days))
        (parseInt matcher.days)
    .ok
      { months := totalMonths
        days := days
        nanoseconds := totalNanoseconds }

/-- `fromISO8601` after the match. -/
def intervalOf
    (matcher : Groups) : Except ISO8601Error Interval := do
  let years ← orThrow .bigError (parseInt matcher.years)
  let months ← orThrow .bigError (parseInt matcher.months)
  let totalMonths := bigOf years * MONTHS_PER_YEAR + bigOf months
  if MAX_SAFE_INTEGER < totalMonths.natAbs then
    .error (.googleError totalMonthsMessage)
  else
    withMonths matcher totalMonths

/-- `fromISO8601`, with what it throws. -/
def fromISO8601Result
    (isoString : String) : Except ISO8601Error Interval := do
  let matcher ←
    orThrow (.googleError (invalidStringMessage isoString))
      (exec isoString.toList)
  intervalOf matcher

/-! ## Rounding -/

/-- The double next to an integer, if it is finite. -/
def double
    (n : Int) : Int :=
  signed (decide (n < 0)) (roundNat n.natAbs)

def FiniteDouble
    (n : Int) : Prop :=
  (roundNat n.natAbs).log2 < 1024

instance (n : Int) : Decidable (FiniteDouble n) :=
  inferInstanceAs (Decidable ((roundNat n.natAbs).log2 < 1024))

theorem parseInt_eq
    (n : Int) :
    parseInt n = if FiniteDouble n then some (double n) else none := by
  rfl

theorem finite_of_safe
    {n : Int}
    (hn : n.natAbs ≤ MAX_SAFE_INTEGER) :
    FiniteDouble n := by
  by_contra hinfinite
  have hparse := parseInt_of_safe hn
  rw [parseInt_eq, if_neg hinfinite] at hparse
  cases hparse

theorem double_of_safe
    {n : Int}
    (hn : n.natAbs ≤ MAX_SAFE_INTEGER) :
    double n = n := by
  have hparse := parseInt_of_safe hn
  rw [parseInt_eq, if_pos (finite_of_safe hn)] at hparse
  exact Option.some.inj hparse

/-- An integer is above the safe ones if its double is. -/
theorem lt_double_iff
    (n : Int) :
    (MAX_SAFE_INTEGER : Int) < double n ↔ (MAX_SAFE_INTEGER : Int) < n := by
  by_cases hsafe : n.natAbs ≤ MAX_SAFE_INTEGER
  · rw [double_of_safe hsafe]
  · have hround := lt_roundNat (Nat.not_le.mp hsafe)
    rw [double, signed]
    split
    · rename_i hneg
      rw [decide_eq_true_eq] at hneg
      omega
    · rename_i hneg
      rw [decide_eq_true_eq] at hneg
      omega

namespace Groups

def totalMonths
    (groups : Groups) : Int :=
  groups.years * MONTHS_PER_YEAR + groups.months

def totalNanoseconds
    (groups : Groups) : Int :=
  groups.seconds +
    (groups.hours * SECONDS_PER_HOUR + groups.minutes * SECONDS_PER_MINUTE) *
      NANOSECONDS_PER_SECOND

/-- The interval that the groups denote. -/
def interval
    (groups : Groups) : Interval where
  months := groups.totalMonths
  days := groups.days
  nanoseconds := groups.totalNanoseconds

/-- The total of the months and the days are safe integers. -/
def Safe
    (groups : Groups) : Prop :=
  groups.totalMonths.natAbs ≤ MAX_SAFE_INTEGER ∧
    groups.days.natAbs ≤ MAX_SAFE_INTEGER

/-- All but the seconds are rounded to doubles, the years and months are read as
these are printed. -/
def rounded
    (groups : Groups) : Groups where
  years := bigOf (double groups.years)
  months := bigOf (double groups.months)
  days := double groups.days
  hours := double groups.hours
  minutes := double groups.minutes
  seconds := groups.seconds

/-- The time is finite, and printed without an exponent. -/
structure Printable
    (groups : Groups) : Prop where
  hours : FiniteDouble groups.hours
  minutes : FiniteDouble groups.minutes
  nanoseconds : groups.rounded.totalNanoseconds.natAbs < 10 ^ 21

/-- Rounding does not change the totals, and the time is printable. -/
structure Kept
    (groups : Groups) : Prop where
  months : groups.rounded.totalMonths = groups.totalMonths
  nanoseconds : groups.rounded.totalNanoseconds = groups.totalNanoseconds
  printable : groups.Printable

/-- The total of the rounded months is not safe, or the days are infinite. -/
def Refused
    (groups : Groups) : Prop :=
  MAX_SAFE_INTEGER < groups.rounded.totalMonths.natAbs ∨
    groups.Printable ∧ ¬ FiniteDouble groups.days

/-- The groups are kept if they are safe and refused if they are not. -/
structure Clean
    (groups : Groups) : Prop where
  years : FiniteDouble groups.years
  months : FiniteDouble groups.months
  kept : groups.Safe → groups.Kept
  refused : ¬ groups.Safe → groups.Refused

end Groups

/-! ## What the groups come to -/

theorem orThrow_parseInt
    (err : ISO8601Error) (n : Int) :
    orThrow err (parseInt n) =
      if FiniteDouble n then .ok (double n) else .error err := by
  rw [parseInt_eq]
  split <;> rfl

theorem withMonths_of_not_printable
    {groups : Groups}
    (h : ¬ groups.Printable) (totalMonths : Int) :
    withMonths groups totalMonths = .error .rangeError ∨
      withMonths groups totalMonths = .error .syntaxError := by
  rw [withMonths, orThrow_parseInt, orThrow_parseInt]
  by_cases hhours : FiniteDouble groups.hours
  · by_cases hminutes : FiniteDouble groups.minutes
    · have hlarge : 10 ^ 21 ≤ groups.rounded.totalNanoseconds.natAbs := by
        by_contra hlt
        exact h ⟨hhours, hminutes, Nat.not_le.mp hlt⟩
      rw [if_pos hhours, if_pos hminutes]
      exact Or.inr (if_pos hlarge)
    · rw [if_pos hhours, if_neg hminutes]
      exact Or.inl rfl
  · rw [if_neg hhours]
    exact Or.inl rfl

theorem withMonths_of_printable
    {groups : Groups}
    (h : groups.Printable) (totalMonths : Int) :
    withMonths groups totalMonths =
      if FiniteDouble groups.days then
        .ok
          { months := totalMonths
            days := double groups.days
            nanoseconds := groups.rounded.totalNanoseconds }
      else
        .error (.googleError (invalidDaysMessage groups.days)) := by
  have hsmall := Nat.not_le.mpr h.nanoseconds
  rw [withMonths, orThrow_parseInt, orThrow_parseInt, orThrow_parseInt,
    if_pos h.hours, if_pos h.minutes]
  refine (if_neg hsmall).trans ?_
  split <;> rfl

theorem intervalOf_eq
    (groups : Groups) :
    intervalOf groups =
      if FiniteDouble groups.years ∧ FiniteDouble groups.months then
        if MAX_SAFE_INTEGER < groups.rounded.totalMonths.natAbs then
          .error (.googleError totalMonthsMessage)
        else
          withMonths groups groups.rounded.totalMonths
      else
        .error .bigError := by
  rw [intervalOf, orThrow_parseInt, orThrow_parseInt]
  by_cases hyears : FiniteDouble groups.years
  · by_cases hmonths : FiniteDouble groups.months
    · rw [if_pos hyears, if_pos hmonths, if_pos ⟨hyears, hmonths⟩]
      rfl
    · have hnot :
          ¬ (FiniteDouble groups.years ∧ FiniteDouble groups.months) :=
        fun h => hmonths h.2
      rw [if_pos hyears, if_neg hmonths, if_neg hnot]
      rfl
  · have hnot :
        ¬ (FiniteDouble groups.years ∧ FiniteDouble groups.months) :=
      fun h => hyears h.1
    rw [if_neg hyears, if_neg hnot]
    rfl

/-- Safe groups become their interval exactly if rounding keeps them. -/
theorem intervalOf_safe_iff
    {groups : Groups}
    (h : groups.Safe) :
    intervalOf groups = .ok groups.interval ↔
      FiniteDouble groups.years ∧ FiniteDouble groups.months ∧
        groups.Kept := by
  rw [intervalOf_eq]
  constructor
  · intro hok
    split at hok
    · rename_i hfinite
      split at hok
      · cases hok
      · by_cases hprintable : groups.Printable
        · rw [withMonths_of_printable hprintable,
            if_pos (finite_of_safe h.2)] at hok
          have heq := Except.ok.inj hok
          exact
            ⟨hfinite.1, hfinite.2, congrArg Interval.months heq,
              congrArg Interval.nanoseconds heq, hprintable⟩
        · rcases withMonths_of_not_printable hprintable
            groups.rounded.totalMonths with herr | herr
          · rw [herr] at hok
            cases hok
          · rw [herr] at hok
            cases hok
    · cases hok
  · rintro ⟨hyears, hmonths, hkept⟩
    have hrange :
        ¬ MAX_SAFE_INTEGER < groups.rounded.totalMonths.natAbs := by
      rw [hkept.months]
      exact Nat.not_lt.mpr h.1
    rw [if_pos ⟨hyears, hmonths⟩, if_neg hrange,
      withMonths_of_printable hkept.printable, if_pos (finite_of_safe h.2),
      hkept.months, hkept.nanoseconds, double_of_safe h.2]
    rfl

/-- Groups are refused with a `GoogleError` exactly if the rounded ones are. -/
theorem intervalOf_googleError_iff
    (groups : Groups) :
    (∃ message, intervalOf groups = .error (.googleError message)) ↔
      FiniteDouble groups.years ∧ FiniteDouble groups.months ∧
        groups.Refused := by
  rw [intervalOf_eq]
  constructor
  · rintro ⟨message, herr⟩
    split at herr
    · rename_i hfinite
      refine ⟨hfinite.1, hfinite.2, ?_⟩
      split at herr
      · rename_i hrange
        exact Or.inl hrange
      · by_cases hprintable : groups.Printable
        · rw [withMonths_of_printable hprintable] at herr
          split at herr
          · cases herr
          · rename_i hdays
            exact Or.inr ⟨hprintable, hdays⟩
        · rcases withMonths_of_not_printable hprintable
            groups.rounded.totalMonths with hother | hother
          · rw [hother] at herr
            cases herr
          · rw [hother] at herr
            cases herr
    · cases herr
  · rintro ⟨hyears, hmonths, hrefused⟩
    rw [if_pos ⟨hyears, hmonths⟩]
    by_cases hrange :
        MAX_SAFE_INTEGER < groups.rounded.totalMonths.natAbs
    · exact ⟨_, if_pos hrange⟩
    · obtain ⟨hprintable, hdays⟩ := hrefused.resolve_left hrange
      rw [if_neg hrange, withMonths_of_printable hprintable, if_neg hdays]
      exact ⟨_, rfl⟩

theorem fromISO8601Result_of_matches
    {isoString : String} {groups : Groups}
    (h : Matches isoString.toList groups) :
    fromISO8601Result isoString = intervalOf groups := by
  rw [fromISO8601Result, exec_of_matches h]
  rfl

theorem fromISO8601Result_of_not_matches
    {isoString : String}
    (h : ∀ groups, ¬ Matches isoString.toList groups) :
    fromISO8601Result isoString =
      .error (.googleError (invalidStringMessage isoString)) := by
  have hexec : exec isoString.toList = none := by
    cases hgroups : exec isoString.toList with
    | none => rfl
    | some groups => exact absurd (exec_eq_some_iff.mp hgroups) (h groups)
  rw [fromISO8601Result, hexec]
  rfl

/-- `fromISO8601` gives nothing where this throws. -/
theorem fromISO8601_eq_toOption
    (isoString : String) :
    fromISO8601 isoString = (fromISO8601Result isoString).toOption := by
  rw [fromISO8601, fromISO8601Result]
  cases exec isoString.toList with
  | none => rfl
  | some groups =>
      change _ = (intervalOf groups).toOption
      have hmonthsSum :
          bigOf (double groups.years) * MONTHS_PER_YEAR +
              bigOf (double groups.months) =
            groups.rounded.totalMonths := rfl
      have htimeSum :
          groups.seconds +
              (double groups.hours * SECONDS_PER_HOUR +
                double groups.minutes * SECONDS_PER_MINUTE) *
                NANOSECONDS_PER_SECOND =
            groups.rounded.totalNanoseconds := rfl
      rw [intervalOf_eq]
      simp only [Option.bind_eq_bind, Option.bind_some, parseInt_eq]
      by_cases hfinite : FiniteDouble groups.years ∧ FiniteDouble groups.months
      · rw [if_pos hfinite, if_pos hfinite.1, if_pos hfinite.2]
        simp only [Option.bind_some, hmonthsSum]
        by_cases hrange :
            MAX_SAFE_INTEGER < groups.rounded.totalMonths.natAbs
        · simp [hrange, Nat.not_le.mpr hrange, Except.toOption]
        · rw [if_neg hrange]
          simp only [Nat.not_lt.mp hrange, true_and]
          by_cases hprintable : groups.Printable
          · rw [withMonths_of_printable hprintable, if_pos hprintable.hours,
              if_pos hprintable.minutes]
            simp only [Option.bind_some, htimeSum, hprintable.nanoseconds,
              if_true]
            split <;> rfl
          · have hnone :
                (withMonths groups groups.rounded.totalMonths).toOption =
                  none := by
              rcases withMonths_of_not_printable hprintable
                groups.rounded.totalMonths with herr | herr
              · rw [herr]
                rfl
              · rw [herr]
                rfl
            rw [hnone]
            by_cases hhours : FiniteDouble groups.hours
            · by_cases hminutes : FiniteDouble groups.minutes
              · have hlarge :
                    10 ^ 21 ≤ groups.rounded.totalNanoseconds.natAbs := by
                  by_contra hlt
                  exact hprintable ⟨hhours, hminutes, Nat.not_le.mp hlt⟩
                simpa [hhours, hminutes, htimeSum] using fun _ => hlarge
              · simp [hminutes]
            · simp [hhours]
      · rw [if_neg hfinite]
        by_cases hyears : FiniteDouble groups.years
        · have hmonths : ¬ FiniteDouble groups.months :=
            fun hm => hfinite ⟨hyears, hm⟩
          simp [hmonths, Except.toOption]
        · simp [hyears, Except.toOption]

/-! ## Exact or clean -/

/-- The text becomes the interval it denotes, exactly, if it matches the pattern
with a total of months and with days that are safe integers; otherwise a
`GoogleError` is thrown. -/
structure ExactOrClean
    (isoString : String) : Prop where
  exact :
    ∀ groups, Matches isoString.toList groups → groups.Safe →
      fromISO8601Result isoString = .ok groups.interval
  clean :
    (∀ groups, Matches isoString.toList groups → ¬ groups.Safe) →
      ∃ message,
        fromISO8601Result isoString = .error (.googleError message)

/--
Parsing is exact or fails cleanly exactly if rounding to doubles keeps the groups
that are safe, where the time can be printed, and refuses those that are not.
-/
theorem exactOrClean_iff
    (isoString : String) :
    ExactOrClean isoString ↔
      ∀ groups, Matches isoString.toList groups → groups.Clean := by
  constructor
  · intro h groups hmatches
    have hunique :
        ∀ groups', Matches isoString.toList groups' → groups' = groups := by
      intro groups' hmatches'
      have hexec := exec_eq_some_iff.mpr hmatches'
      rw [exec_eq_some_iff.mpr hmatches] at hexec
      exact (Option.some.inj hexec).symm
    by_cases hsafe : groups.Safe
    · have hexact := h.exact groups hmatches hsafe
      rw [fromISO8601Result_of_matches hmatches,
        intervalOf_safe_iff hsafe] at hexact
      exact
        ⟨hexact.1, hexact.2.1, fun _ => hexact.2.2,
          fun hnot => absurd hsafe hnot⟩
    · have hclean :=
        h.clean fun groups' hmatches' => hunique groups' hmatches' ▸ hsafe
      rw [fromISO8601Result_of_matches hmatches,
        intervalOf_googleError_iff] at hclean
      exact
        ⟨hclean.1, hclean.2.1, fun hyes => absurd hyes hsafe,
          fun _ => hclean.2.2⟩
  · intro h
    refine ⟨?_, ?_⟩
    · intro groups hmatches hsafe
      have hclean := h groups hmatches
      rw [fromISO8601Result_of_matches hmatches, intervalOf_safe_iff hsafe]
      exact ⟨hclean.years, hclean.months, hclean.kept hsafe⟩
    · intro hbeyond
      by_cases hmatches : ∃ groups, Matches isoString.toList groups
      · obtain ⟨groups, hmatches⟩ := hmatches
        have hclean := h groups hmatches
        rw [fromISO8601Result_of_matches hmatches,
          intervalOf_googleError_iff]
        exact
          ⟨hclean.years, hclean.months,
            hclean.refused (hbeyond groups hmatches)⟩
      · rw [not_exists] at hmatches
        exact ⟨_, fromISO8601Result_of_not_matches hmatches⟩

/-- The days are a double, but none that is a safe integer. -/
theorem manyDays_not_exactOrClean :
    ¬ ExactOrClean "P9007199254740993D" := by
  intro h
  have hexec :
      exec "P9007199254740993D".toList =
        some
          { years := 0
            months := 0
            days := 9007199254740993 } := by
    decide
  have hbeyond :
      ∀ groups, Matches "P9007199254740993D".toList groups →
        ¬ groups.Safe := by
    intro groups hmatches hsafe
    have hgroups := exec_of_matches hmatches
    rw [hexec] at hgroups
    obtain rfl := Option.some.inj hgroups
    exact absurd hsafe.2 (by decide)
  obtain ⟨message, herr⟩ := h.clean hbeyond
  have hok :
      fromISO8601Result "P9007199254740993D" =
        .ok ⟨0, 9007199254740992, 0⟩ := by
    decide
  rw [hok] at herr
  cases herr

/-! ## The text of an interval -/

/-- `equals`, with an interval. -/
def equals
    (i other : Interval) : Bool :=
  decide (i.months = other.months) && decide (i.days = other.days) &&
    decide (i.nanoseconds = other.nanoseconds)

theorem equals_refl
    (i : Interval) :
    i.equals i = true := by
  simp [equals]

/-- What `toISO8601` prints, `fromISO8601` reads as an interval that equals the
one that has been printed. -/
theorem equals_of_toISO8601
    (i : Interval)
    (h : Representable i) :
    ∃ read, fromISO8601Result i.toISO8601 = .ok read ∧
      read.equals i = true := by
  have hread := fromISO8601_toISO8601 h
  rw [fromISO8601_eq_toOption] at hread
  refine ⟨i, ?_, equals_refl i⟩
  cases hresult : fromISO8601Result i.toISO8601 with
  | error err =>
      rw [hresult] at hread
      cases hread
  | ok read =>
      rw [hresult] at hread
      rw [← Option.some.inj hread]

/-- Months and days that are not of one sign with the nanoseconds. -/
theorem equals_of_toISO8601_mixedSigns :
    ∃ read,
      fromISO8601Result (toISO8601 ⟨-14, 3, -43866789000000⟩) = .ok read ∧
        read.equals ⟨-14, 3, -43866789000000⟩ = true :=
  equals_of_toISO8601 ⟨-14, 3, -43866789000000⟩
    ⟨by decide, by decide, by decide⟩

end Interval

end Codec
end SpannerClient
