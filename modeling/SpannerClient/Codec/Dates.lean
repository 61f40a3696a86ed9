import SpannerClient.Codec.RoundTrip

/-!
# Dates

A DATE comes as `YYYY-MM-DD`, which JavaScript reads as a time in Zulu time.  To
have it read as local time `SpannerDate` writes it as `MM-DD-YYYY`, a text that is
not of the standard and in which the engine takes a small year for one of the
last centuries.

The engine is a parameter (`DateEngine`).  What is relied on of it is that it reads
a local date as the calendar date it denotes, but for years below 100
(`LegacyDates`); `legacyEngine`, with a calendar of its own, is one that does.

The main result is `roundTrips_iff`: encoding a date that has been decoded gives its
text back exactly if its year is at least 100.
-/

namespace SpannerClient
namespace Codec

open Machine

variable {ν : Type}

/-! ## The model -/

/-- The `Date` of the engine, as far as `SpannerDate` uses it. -/
structure DateEngine (ν : Type) where
  Date : Type
  /-- `new Date().toDateString()`. -/
  toDateString : String
  /-- `new Date(...dateFields)`. -/
  newDate : List (Raw ν) → Date
  /-- The getters are `none` for `NaN`. -/
  getFullYear : Date → Option Int
  getMonth : Date → Option Int
  getDate : Date → Option Int

/-- A run of as many digits as one of the lengths, and `-`: what comes after. -/
def digitsDash
    (lengths : List Nat) (cs : List Char) : Option (List Char) :=
  match cs.span Char.isDigit with
  | (ds, '-' :: rest) => if ds.length ∈ lengths then some rest else none
  | _ => none

/-- `/^\d{4}-\d{1,2}-\d{1,2}/.test(yearOrDateString)`. -/
def isDateString
    (cs : List Char) : Bool :=
  match (digitsDash [4] cs).bind (digitsDash [1, 2]) with
  | some (d :: _) => d.isDigit
  | _ => false

/-- `` `${month}-${date}-${year}` `` of the parts between `-` and `T`. -/
def localDateString
    (cs : List Char) : List Char :=
  let parts := cs.splitOnP fun c => c = '-' || c = 'T'
  let part := fun index : Nat => parts[index]?.getD "undefined".toList
  part 1 ++ '-' :: (part 2 ++ '-' :: part 0)

/-- `new SpannerDate(...dateFields)`. -/
def newSpannerDate
    (E : DateEngine ν) (dateFields : List (Raw ν)) : E.Date :=
  let dateFields : List (Raw ν) :=
    match dateFields.headD .undefined with
    | .null => .string E.toDateString :: dateFields.tail
    | .undefined => .string E.toDateString :: dateFields.tail
    | .string s =>
        if isDateString s.toList then
          [.string (String.ofList (localDateString s.toList))]
        else
          dateFields
    | _ => dateFields
  E.newDate (dateFields.take 3)

/-- `n.toString()` of a number or `NaN`. -/
def numberText : Option Int → List Char
  | none => "NaN".toList
  | some n => printInt n

/-- `text.padStart(length, '0')`. -/
def padStart
    (length : Nat) (text : List Char) : List Char :=
  text.leftpad length '0'

/-- `SpannerDate.toJSON`. -/
def dateToJSON
    (E : DateEngine ν) (d : E.Date) : String :=
  let year := numberText (E.getFullYear d)
  let month := numberText ((E.getMonth d).map (· + 1))
  let date := numberText (E.getDate d)
  String.ofList
    (padStart 4 year ++ '-' :: (padStart 2 month ++ '-' :: padStart 2 date))

/-- The leaves with the dates of the engine. -/
def Leaves.withDates
    (L : Leaves) (E : DateEngine L.Number) : Leaves :=
  { L with
    SpannerDate := E.Date
    spannerDateToJSON := dateToJSON E
    newSpannerDate := fun value => Codec.newSpannerDate E [value] }

/-! ## The calendar -/

def isLeapYear
    (year : Nat) : Bool :=
  year % 4 = 0 && (year % 100 ≠ 0 || year % 400 = 0)

def daysInMonth
    (year month : Nat) : Nat :=
  if month = 2 then
    if isLeapYear year then 29 else 28
  else if month ∈ [4, 6, 9, 11] then
    30
  else
    31

/-- A date of the calendar from 0001-01-01 to 9999-12-31. -/
structure CalendarDate where
  year : Nat
  month : Nat
  date : Nat
  year_pos : 1 ≤ year
  year_le : year ≤ 9999
  month_pos : 1 ≤ month
  month_le : month ≤ 12
  date_pos : 1 ≤ date
  date_le : date ≤ daysInMonth year month

/-- `YYYY-MM-DD`. -/
def CalendarDate.text
    (d : CalendarDate) : String :=
  String.ofList
    (printPlaces 4 d.year ++
      '-' :: (printPlaces 2 d.month ++ '-' :: printPlaces 2 d.date))

/-- The year that is read from a year in `M-D-Y`. -/
def legacyYear
    (year : Nat) : Nat :=
  if year < 50 then 2000 + year
  else if year < 100 then 1900 + year
  else year

/-- A small year has the leap days of the one that is read for it. -/
theorem isLeapYear_legacyYear
    {year : Nat}
    (hyear : 1 ≤ year) :
    isLeapYear (legacyYear year) = isLeapYear year := by
  rw [legacyYear]
  split
  · rw [isLeapYear, isLeapYear, Bool.eq_iff_iff]
    simp only [Bool.and_eq_true, Bool.or_eq_true, decide_eq_true_eq]
    omega
  · split
    · rw [isLeapYear, isLeapYear, Bool.eq_iff_iff]
      simp only [Bool.and_eq_true, Bool.or_eq_true, decide_eq_true_eq]
      omega
    · rfl

/-- The date with the year that is read from `M-D-Y`. -/
def CalendarDate.legacy
    (d : CalendarDate) : CalendarDate :=
  { d with
    year := legacyYear d.year
    year_pos := by
      have hyear := d.year_pos
      rw [legacyYear]
      split_ifs <;> omega
    year_le := by
      have hyear := d.year_le
      rw [legacyYear]
      split_ifs <;> omega
    date_le := by
      have hdate := d.date_le
      rwa [daysInMonth, isLeapYear_legacyYear d.year_pos] }

/-- The date is one of the calendar. -/
structure Denotes
    (E : DateEngine ν) (date : E.Date) (d : CalendarDate) : Prop where
  year : E.getFullYear date = some (d.year : Int)
  month : E.getMonth date = some ((d.month : Int) - 1)
  date : E.getDate date = some (d.date : Int)

/-- The local time in which `M-D-Y` is read is the one that the getters answer in,
and a small year, whatever the zeros before it, is one of the last centuries. -/
def LegacyDates
    (E : DateEngine ν) : Prop :=
  ∀ (d : CalendarDate) (places : Nat),
    Denotes E
      (E.newDate
        [.string
          (String.ofList
            (printPlaces 2 d.month ++
              '-' :: (printPlaces 2 d.date ++
                '-' :: printPlaces places d.year)))])
      d.legacy

/-! ## Reading -/

theorem noSeparator_printPlaces
    {places n : Nat} :
    ∀ c ∈ printPlaces places n,
      (decide (c = '-') || decide (c = 'T')) = false := by
  intro c hc
  have hdigit := printPlaces_digits c hc
  rw [Bool.or_eq_false_iff, decide_eq_false_iff_not, decide_eq_false_iff_not]
  constructor <;>
    · rintro rfl
      cases hdigit

theorem digitsDash_printPlaces
    {lengths : List Nat} {places n : Nat}
    (hlength : (printPlaces places n).length ∈ lengths)
    (rest : List Char) :
    digitsDash lengths (printPlaces places n ++ '-' :: rest) = some rest := by
  have hspan :
      (printPlaces places n ++ '-' :: rest).span Char.isDigit =
        (printPlaces places n, '-' :: rest) :=
    span_digits printPlaces_digits (noDigit_cons rfl rest)
  rw [digitsDash, hspan]
  exact if_pos hlength

theorem CalendarDate.year_length
    (d : CalendarDate) :
    (printPlaces 4 d.year).length = 4 :=
  printPlaces_length (by decide)
    (lt_of_le_of_lt d.year_le (by decide))

theorem CalendarDate.month_length
    (d : CalendarDate) :
    (printPlaces 2 d.month).length = 2 :=
  printPlaces_length (by decide) (lt_of_le_of_lt d.month_le (by decide))

theorem CalendarDate.date_length
    (d : CalendarDate) :
    (printPlaces 2 d.date).length = 2 := by
  refine printPlaces_length (by decide) (lt_of_le_of_lt d.date_le ?_)
  rw [daysInMonth]
  split_ifs <;> decide

theorem isDateString_text
    (d : CalendarDate) :
    isDateString d.text.toList = true := by
  have hyear : (printPlaces 4 d.year).length ∈ [4] := by
    rw [d.year_length]
    decide
  have hmonth : (printPlaces 2 d.month).length ∈ [1, 2] := by
    rw [d.month_length]
    decide
  rw [isDateString, CalendarDate.text, String.toList_ofList,
    digitsDash_printPlaces hyear, Option.bind_some,
    digitsDash_printPlaces hmonth]
  have hdigits : ∀ c ∈ printPlaces 2 d.date, c.isDigit = true :=
    printPlaces_digits
  have hlength := d.date_length
  cases hdate : printPlaces 2 d.date with
  | nil => simp [hdate] at hlength
  | cons c cs => exact hdigits c (by simp [hdate])

theorem localDateString_text
    (d : CalendarDate) :
    localDateString d.text.toList =
      printPlaces 2 d.month ++
        '-' :: (printPlaces 2 d.date ++ '-' :: printPlaces 4 d.year) := by
  have hparts :
      (d.text.toList.splitOnP fun c => c = '-' || c = 'T') =
        [printPlaces 4 d.year, printPlaces 2 d.month,
          printPlaces 2 d.date] := by
    rw [CalendarDate.text, String.toList_ofList,
      List.splitOnP_append_cons_of_forall_mem noSeparator_printPlaces '-' rfl,
      List.splitOnP_append_cons_of_forall_mem noSeparator_printPlaces '-' rfl,
      List.splitOnP_eq_singleton noSeparator_printPlaces]
  rw [localDateString, hparts]
  rfl

/-- The text of a date is read as the date with the year of a near century. -/
theorem newSpannerDate_text
    {E : DateEngine ν}
    (hE : LegacyDates E)
    (d : CalendarDate) :
    Denotes E (newSpannerDate E [.string d.text]) d.legacy := by
  have hnew :
      newSpannerDate E [.string d.text] =
        E.newDate
          [.string
            (String.ofList
              (printPlaces 2 d.month ++
                '-' :: (printPlaces 2 d.date ++
                  '-' :: printPlaces 4 d.year)))] := by
    simp only [newSpannerDate, List.headD_cons, isDateString_text d, if_true,
      localDateString_text d]
    rfl
  rw [hnew]
  exact hE d 4

/-! ## Printing -/

theorem padStart_printInt
    (length n : Nat) :
    padStart length (printInt n) = printPlaces length n := by
  have hnonneg : ¬ ((n : Int) < 0) := by omega
  rw [printInt, printSigned, decide_eq_false hnonneg, signText_false,
    List.nil_append, Int.natAbs_natCast]
  rfl

/-- A date of the calendar is printed as its text. -/
theorem dateToJSON_of_denotes
    {E : DateEngine ν} {date : E.Date} {d : CalendarDate}
    (h : Denotes E date d) :
    dateToJSON E date = d.text := by
  simp only [dateToJSON, h.year, h.month, h.date, Option.map_some, numberText,
    sub_add_cancel, padStart_printInt, CalendarDate.text]

/-- Texts of the same date but for the year have the same year. -/
theorem text_legacy_eq_iff
    (d : CalendarDate) :
    d.legacy.text = d.text ↔ 100 ≤ d.year := by
  have hyears : d.legacy.text = d.text ↔ legacyYear d.year = d.year := by
    constructor
    · intro h
      have hlists := String.ofList_injective h
      have hprinted := List.append_inj_left hlists (by
        rw [d.legacy.year_length, d.year_length])
      have hnumbers := congrArg (fun cs => Nat.ofDigitChars 10 cs 0) hprinted
      simp only [ofDigitChars_printPlaces] at hnumbers
      exact hnumbers
    · intro h
      rw [CalendarDate.text, CalendarDate.text]
      simp only [CalendarDate.legacy, h]
  rw [hyears, legacyYear]
  split_ifs <;> omega

/-! ## The round trip -/

/-- The text comes back from the date, and from decoding and encoding. -/
structure RoundTrips
    (L : Leaves) (E : DateEngine L.Number) (text : String) : Prop where
  toJSON : dateToJSON E (newSpannerDate E [.string text]) = text
  encode :
    ∀ (columnMetadata : Option (ColumnMetadata L.Number))
        (annotationCode : TypeAnnotationCode) (protoTypeFqn : String),
      (decode (L := L.withDates E) columnMetadata
          (.scalar .DATE annotationCode protoTypeFqn) (.string text)).bind
          Codec.encode =
        some (.stringValue text)

theorem encode_decode_date
    (L : Leaves) (E : DateEngine L.Number) (text : String)
    (columnMetadata : Option (ColumnMetadata L.Number))
    (annotationCode : TypeAnnotationCode) (protoTypeFqn : String) :
    (decode (L := L.withDates E) columnMetadata
        (.scalar .DATE annotationCode protoTypeFqn) (.string text)).bind
        Codec.encode =
      some
        (.stringValue (dateToJSON E (newSpannerDate E [.string text]))) := by
  simp only [decode, decodeScalar, Option.bind_some]
  rfl

/-- A date comes back exactly if its year has more than two digits. -/
theorem roundTrips_iff
    (L : Leaves) (E : DateEngine L.Number)
    (hE : LegacyDates E)
    (d : CalendarDate) :
    RoundTrips L E d.text ↔ 100 ≤ d.year := by
  have hprinted :
      dateToJSON E (newSpannerDate E [.string d.text]) = d.legacy.text :=
    dateToJSON_of_denotes (newSpannerDate_text hE d)
  rw [← text_legacy_eq_iff d]
  constructor
  · intro h
    rw [← hprinted]
    exact h.toJSON
  · intro h
    rw [h] at hprinted
    refine ⟨hprinted, fun columnMetadata annotationCode protoTypeFqn => ?_⟩
    rw [encode_decode_date, hprinted]

/-! ## An engine -/

/-- A month, a date and a year that is taken for one of a near century. -/
def readLegacyDate
    (cs : List Char) : Option (Nat × Nat × Nat) :=
  match readNat cs with
  | some (month, '-' :: cs) =>
      match readNat cs with
      | some (date, '-' :: cs) =>
          (readNat cs).map fun year => (legacyYear year.1, month, date)
      | _ => none
  | _ => none

/-- An engine that takes nothing but `M-D-Y`. -/
def legacyEngine : DateEngine ν where
  Date := Option (Nat × Nat × Nat)
  toDateString := ""
  newDate := fun
    | [.string s] => readLegacyDate s.toList
    | _ => none
  getFullYear := fun d => d.map fun d => (d.1 : Int)
  getMonth := fun d => d.map fun d => (d.2.1 : Int) - 1
  getDate := fun d => d.map fun d => (d.2.2 : Int)

theorem legacyEngine_legacyDates :
    LegacyDates (legacyEngine : DateEngine ν) := by
  intro d places
  have hdash (cs : List Char) : NoDigit ('-' :: cs) := noDigit_cons rfl cs
  have hyear :
      readNat (printPlaces places d.year ++ []) = some (d.year, []) :=
    readNat_printPlaces noDigit_nil
  rw [List.append_nil] at hyear
  have hread :
      readLegacyDate
          (printPlaces 2 d.month ++
            '-' :: (printPlaces 2 d.date ++
              '-' :: printPlaces places d.year)) =
        some (legacyYear d.year, d.month, d.date) := by
    simp only [readLegacyDate, readNat_printPlaces (hdash _), hyear,
      Option.map_some]
  refine ⟨?_, ?_, ?_⟩ <;>
    simp only [legacyEngine, String.toList_ofList, hread, Option.map_some,
      CalendarDate.legacy]

/-- A leap day. -/
def leapDay : CalendarDate :=
  ⟨2024, 2, 29, by decide, by decide, by decide, by decide, by decide,
    by decide⟩

/-- The first date of the calendar. -/
def firstDay : CalendarDate :=
  ⟨1, 1, 1, by decide, by decide, by decide, by decide, by decide, by decide⟩

theorem roundTrips_iff_leapDay :
    LegacyDates (legacyEngine : DateEngine textLeaves.Number) ∧
      (RoundTrips textLeaves legacyEngine leapDay.text ↔
        100 ≤ leapDay.year) :=
  ⟨legacyEngine_legacyDates,
    roundTrips_iff textLeaves legacyEngine legacyEngine_legacyDates leapDay⟩

/-- The first date comes back as one of this century. -/
theorem firstDay_not_roundTrips :
    firstDay.text = "0001-01-01" ∧
      LegacyDates (legacyEngine : DateEngine textLeaves.Number) ∧
      ¬ RoundTrips textLeaves legacyEngine firstDay.text := by
  refine ⟨by decide, legacyEngine_legacyDates, fun h => ?_⟩
  have hprinted :
      dateToJSON legacyEngine
          (newSpannerDate (legacyEngine : DateEngine textLeaves.Number)
            [.string firstDay.text]) =
        "2001-01-01" := by
    decide
  have hback := h.toJSON
  rw [hprinted] at hback
  exact absurd hback (by decide)

end Codec
end SpannerClient
