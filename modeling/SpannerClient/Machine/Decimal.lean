import Mathlib.Algebra.Group.Nat.Defs
import Mathlib.Data.List.TakeDrop

/-!
# Decimal numerals

Numbers as a program prints and reads them: digits, a sign, a letter after the
number that says what it counts, and a fraction of a fixed number of places.
Reading takes the longest run of digits at the beginning of a text and leaves
the rest, so what has been printed is read again whenever no digit follows.

* `readNat_digits` and `readInt_printInt` are the round trips for a natural number
  and for one with a sign, `readUnit_unitText` for a number with a unit, and
  `readPlaces_trimZeros` for a fraction without its last zeros.
* `readNat_spec`, `readInt_spec` and `readUnit_spec` say what a text that can be
  read looks like.
* Numbers that are joined by a character which is no digit can be told apart
  (`intercalate_injective`).
-/

namespace SpannerClient
namespace Machine

/-- The text does not begin with a digit. -/
def NoDigit
    (rest : List Char) : Prop :=
  ∀ c, rest.head? = some c → c.isDigit = false

/-- A run of digits is taken whole. -/
theorem span_digits
    {ds rest : List Char}
    (hdigits : ∀ c ∈ ds, c.isDigit = true)
    (hrest : NoDigit rest) :
    (ds ++ rest).span Char.isDigit = (ds, rest) := by
  rw [List.span_eq_takeWhile_dropWhile,
    List.takeWhile_append_of_pos hdigits,
    List.dropWhile_append_of_pos hdigits]
  cases rest with
  | nil => simp
  | cons c rest =>
      have hc := hrest c rfl
      simp [hc]

/-- A natural number at the beginning of a text. -/
def readNat
    (cs : List Char) : Option (Nat × List Char) :=
  match cs.span Char.isDigit with
  | ([], _) => none
  | (d :: ds, rest) => some (Nat.ofDigitChars 10 (d :: ds) 0, rest)

/-- `\d+`. -/
structure Digits
    (ds : List Char) : Prop where
  ne_nil : ds ≠ []
  isDigit : ∀ c ∈ ds, c.isDigit = true

theorem digits_toDigits
    (n : Nat) :
    Digits (Nat.toDigits 10 n) where
  ne_nil := Nat.toDigits_ne_nil
  isDigit _ hc := Nat.isDigit_of_mem_toDigits (by decide) (by decide) hc

theorem readNat_digits
    {ds rest : List Char}
    (hds : Digits ds)
    (hrest : NoDigit rest) :
    readNat (ds ++ rest) = some (Nat.ofDigitChars 10 ds 0, rest) := by
  rw [readNat]
  rw [span_digits hds.isDigit hrest]
  cases ds with
  | nil => exact absurd rfl hds.ne_nil
  | cons d ds => rfl

/-- What is read is a run of digits at the beginning. -/
theorem readNat_spec
    {cs rest : List Char} {n : Nat}
    (h : readNat cs = some (n, rest)) :
    ∃ ds, cs = ds ++ rest ∧ Digits ds ∧ n = Nat.ofDigitChars 10 ds 0 := by
  rw [readNat, List.span_eq_takeWhile_dropWhile] at h
  have hsplit := List.takeWhile_append_dropWhile (p := Char.isDigit) (l := cs)
  have hdigits : ∀ c ∈ cs.takeWhile Char.isDigit, c.isDigit = true :=
    List.all_eq_true.mp List.all_takeWhile
  cases hds : cs.takeWhile Char.isDigit with
  | nil =>
      rw [hds] at h
      cases h
  | cons d ds =>
      rw [hds] at h hdigits hsplit
      simp only [Option.some.injEq, Prod.mk.injEq] at h
      obtain ⟨rfl, rfl⟩ := h
      exact ⟨d :: ds, hsplit.symm, ⟨by simp, hdigits⟩, rfl⟩

theorem readNat_of_noDigit
    {cs : List Char}
    (h : NoDigit cs) :
    readNat cs = none := by
  have hspan : ([] ++ cs).span Char.isDigit = ([], cs) :=
    span_digits (by simp) h
  rw [readNat]
  rw [← List.nil_append cs, hspan]

/-- `-?`. -/
def signText
    (negative : Bool) : List Char :=
  if negative then ['-'] else []

@[simp] theorem signText_true :
    signText true = ['-'] := by
  rfl

@[simp] theorem signText_false :
    signText false = [] := by
  rfl

/-- A sign, perhaps, and a number. -/
def printSigned
    (negative : Bool) (n : Nat) : List Char :=
  signText negative ++ Nat.toDigits 10 n

/-- An integer, printed. -/
def printInt
    (n : Int) : List Char :=
  printSigned (decide (n < 0)) n.natAbs

/-- The integer with the sign and the absolute value. -/
def signed
    (negative : Bool) (n : Nat) : Int :=
  if negative then -(n : Int) else n

/-- An integer at the beginning of a text: `-?\d+`. -/
def readInt : List Char → Option (Int × List Char)
  | '-' :: cs => (readNat cs).map fun r => (signed true r.1, r.2)
  | cs => (readNat cs).map fun r => (signed false r.1, r.2)

theorem readInt_of_ne_minus
    {c : Char} {cs : List Char}
    (hc : c ≠ '-') :
    readInt (c :: cs) =
      (readNat (c :: cs)).map fun r => (signed false r.1, r.2) := by
  unfold readInt
  split
  · rename_i heq
    exact absurd (List.cons.inj heq).1 hc
  · rfl

/-- Digits begin with a digit. -/
theorem Digits.append_head
    {ds : List Char}
    (hds : Digits ds) (rest : List Char) :
    ∃ c cs, ds ++ rest = c :: cs ∧ c.isDigit = true := by
  cases ds with
  | nil => exact absurd rfl hds.ne_nil
  | cons c cs =>
      exact ⟨c, cs ++ rest, rfl, hds.isDigit c List.mem_cons_self⟩

/-- Digits are read with the sign before them. -/
theorem readInt_signText
    (negative : Bool)
    {ds rest : List Char}
    (hds : Digits ds)
    (hrest : NoDigit rest) :
    readInt (signText negative ++ (ds ++ rest)) =
      some (signed negative (Nat.ofDigitChars 10 ds 0), rest) := by
  cases negative with
  | true =>
      rw [signText_true, List.singleton_append, readInt,
        readNat_digits hds hrest]
      rfl
  | false =>
      obtain ⟨c, cs, heq, hc⟩ := hds.append_head rest
      have hminus : c ≠ '-' := by
        rintro rfl
        exact absurd hc (by decide)
      rw [signText_false, List.nil_append, heq, readInt_of_ne_minus
        hminus, ← heq, readNat_digits hds hrest]
      rfl

/-- What is read is digits at the beginning, after a sign perhaps. -/
theorem readInt_spec
    {cs rest : List Char} {n : Int}
    (h : readInt cs = some (n, rest)) :
    ∃ negative ds, cs = signText negative ++ (ds ++ rest) ∧ Digits ds ∧
      n = signed negative (Nat.ofDigitChars 10 ds 0) := by
  unfold readInt at h
  split at h
  · obtain ⟨⟨m, rest'⟩, hread, heq⟩ := Option.map_eq_some_iff.mp h
    obtain ⟨rfl, rfl⟩ := Prod.mk.inj heq
    obtain ⟨ds, rfl, hds, rfl⟩ := readNat_spec hread
    exact ⟨true, ds, rfl, hds, rfl⟩
  · obtain ⟨⟨m, rest'⟩, hread, heq⟩ := Option.map_eq_some_iff.mp h
    obtain ⟨rfl, rfl⟩ := Prod.mk.inj heq
    obtain ⟨ds, rfl, hds, rfl⟩ := readNat_spec hread
    exact ⟨false, ds, rfl, hds, rfl⟩

/-- Without digits after the sign there is no number. -/
theorem readInt_signText_of_noDigit
    (negative : Bool)
    {rest : List Char}
    (hrest : NoDigit rest)
    (hminus : rest.head? ≠ some '-') :
    readInt (signText negative ++ rest) = none := by
  cases negative with
  | true =>
      rw [signText_true, List.singleton_append, readInt,
        readNat_of_noDigit hrest]
      rfl
  | false =>
      rw [signText_false, List.nil_append]
      cases rest with
      | nil => rfl
      | cons c cs =>
          have hc : c ≠ '-' := by
            rintro rfl
            exact hminus rfl
          rw [readInt_of_ne_minus hc, readNat_of_noDigit hrest]
          rfl

/-- A number that has been printed with its sign is read. -/
theorem readInt_printSigned
    (negative : Bool) (n : Nat)
    {rest : List Char}
    (hrest : NoDigit rest) :
    readInt (printSigned negative n ++ rest) =
      some (signed negative n, rest) := by
  rw [printSigned, List.append_assoc,
    readInt_signText negative (digits_toDigits n) hrest,
    Nat.ofDigitChars_ten_toDigits]

theorem signed_natAbs
    (n : Int) :
    signed (decide (n < 0)) n.natAbs = n := by
  rw [signed]
  split
  · rename_i hneg
    simp only [decide_eq_true_eq] at hneg
    omega
  · rename_i hneg
    simp only [decide_eq_true_eq] at hneg
    omega

/-- An integer that has been printed is read. -/
theorem readInt_printInt
    (n : Int)
    {rest : List Char}
    (hrest : NoDigit rest) :
    readInt (printInt n ++ rest) = some (n, rest) := by
  rw [printInt, readInt_printSigned _ _ hrest, signed_natAbs]

/-! ## Numbers with a unit -/

/-- A number followed by the letter that names its unit; nothing for zero. -/
def printUnit
    (unit : Char) (n : Int) : List Char :=
  if n = 0 then [] else printInt n ++ [unit]

theorem printUnit_eq_nil
    {unit : Char} {n : Int} :
    printUnit unit n = [] ↔ n = 0 := by
  rw [printUnit]
  split
  · simp [*]
  · simp [*]

/-- An optional number with the unit at the beginning of a text: `(-?\d+U)?`.
Absent, it is zero. -/
def readUnit
    (unit : Char) (cs : List Char) : Int × List Char :=
  match readInt cs with
  | some (n, c :: rest) => if c = unit then (n, rest) else (0, cs)
  | _ => (0, cs)

/-- The text does not begin with a number of the unit. -/
def NoUnit
    (unit : Char) (cs : List Char) : Prop :=
  readUnit unit cs = (0, cs)

theorem noDigit_cons
    {c : Char}
    (hc : c.isDigit = false)
    (cs : List Char) :
    NoDigit (c :: cs) := by
  intro d hd
  obtain rfl := Option.some.inj hd
  exact hc

theorem noDigit_nil :
    NoDigit [] := by
  intro c hc
  cases hc

theorem noUnit_nil
    (unit : Char) :
    NoUnit unit [] := by
  rfl

/-- A text that begins with neither a digit nor a sign has no number. -/
theorem noUnit_cons
    {c : Char}
    (hdigit : c.isDigit = false)
    (hminus : c ≠ '-')
    (unit : Char) (cs : List Char) :
    NoUnit unit (c :: cs) := by
  rw [NoUnit, readUnit]
  rw [readInt_of_ne_minus hminus, readNat_of_noDigit (noDigit_cons hdigit cs)]
  rfl

/-- A text that `(-?\d+U)?` matches, and the number it denotes. -/
inductive UnitText
    (unit : Char) : List Char → Int → Prop where
  | absent : UnitText unit [] 0
  | number (negative : Bool) (ds : List Char)
      (hds : Digits ds) :
      UnitText unit (signText negative ++ (ds ++ [unit]))
        (signed negative (Nat.ofDigitChars 10 ds 0))

/-- What is read is a number of the unit at the beginning, or nothing. -/
theorem readUnit_spec
    (unit : Char) (cs : List Char) :
    ∃ text, cs = text ++ (readUnit unit cs).2 ∧
      UnitText unit text (readUnit unit cs).1 := by
  unfold readUnit
  split
  · rename_i n c rest hread
    split
    · rename_i hc
      subst hc
      obtain ⟨negative, ds, rfl, hds, rfl⟩ := readInt_spec hread
      exact ⟨_, by simp, .number negative ds hds⟩
    · exact ⟨[], rfl, .absent⟩
  · exact ⟨[], rfl, .absent⟩

/-- A number of the unit is read. -/
theorem readUnit_unitText
    {unit : Char} {text rest : List Char} {n : Int}
    (hunit : unit.isDigit = false)
    (h : UnitText unit text n)
    (hrest : NoUnit unit rest) :
    readUnit unit (text ++ rest) = (n, rest) := by
  cases h with
  | absent => exact hrest
  | number negative ds hds =>
      rw [readUnit]
      rw [List.append_assoc, List.append_assoc, List.singleton_append,
        readInt_signText negative hds (noDigit_cons hunit rest)]
      simp

/-- A number before another unit is none of this one. -/
theorem noUnit_signText
    {unit other : Char} {ds : List Char}
    (hother : other.isDigit = false)
    (hne : other ≠ unit)
    (negative : Bool)
    (hds : Digits ds)
    (rest : List Char) :
    NoUnit unit (signText negative ++ (ds ++ other :: rest)) := by
  rw [NoUnit, readUnit]
  rw [readInt_signText negative hds (noDigit_cons hother rest)]
  simp [hne]

theorem noUnit_unitText
    {unit other : Char} {text rest : List Char} {n : Int}
    (hother : other.isDigit = false)
    (hne : other ≠ unit)
    (h : UnitText other text n)
    (hrest : NoUnit unit rest) :
    NoUnit unit (text ++ rest) := by
  cases h with
  | absent => exact hrest
  | number negative ds hds =>
      rw [List.append_assoc, List.append_assoc, List.singleton_append]
      exact noUnit_signText hother hne negative hds rest

/-- What has been printed is a number of the unit. -/
theorem unitText_printUnit
    (unit : Char) (n : Int) :
    UnitText unit (printUnit unit n) n := by
  rw [printUnit]
  split
  · rename_i hzero
    rw [hzero]
    exact .absent
  · have htext :=
      @UnitText.number unit (decide (n < 0)) (Nat.toDigits 10 n.natAbs)
        (digits_toDigits n.natAbs)
    rw [Nat.ofDigitChars_ten_toDigits, signed_natAbs] at htext
    rw [printInt, printSigned, List.append_assoc]
    exact htext

/-! ## Fractions -/

/-- The places of a fraction, with zeros in front. -/
def printPlaces
    (places n : Nat) : List Char :=
  List.replicate (places - (Nat.toDigits 10 n).length) '0' ++
    Nat.toDigits 10 n

/-- The number that the first places of a fraction denote. -/
def readPlaces
    (places : Nat) (ds : List Char) : Nat :=
  Nat.ofDigitChars 10 ds 0 * 10 ^ (places - ds.length)

/-- Drop groups of three zeros from the beginning. -/
def dropZeros : List Char → List Char
  | '0' :: '0' :: '0' :: cs => dropZeros cs
  | cs => cs

/-- Drop groups of three zeros from the end. -/
def trimZeros
    (cs : List Char) : List Char :=
  (dropZeros cs.reverse).reverse

theorem dropZeros_spec
    (cs : List Char) :
    ∃ k, cs = List.replicate (3 * k) '0' ++ dropZeros cs := by
  induction cs using dropZeros.induct with
  | case1 cs ih =>
      obtain ⟨k, hk⟩ := ih
      refine ⟨k + 1, ?_⟩
      rw [dropZeros]
      exact congrArg (fun ds => '0' :: '0' :: '0' :: ds) hk
  | case2 cs hcs =>
      refine ⟨0, ?_⟩
      rw [dropZeros]
      · rfl
      · exact hcs

theorem trimZeros_spec
    (cs : List Char) :
    ∃ k, cs = trimZeros cs ++ List.replicate (3 * k) '0' := by
  obtain ⟨k, hk⟩ := dropZeros_spec cs.reverse
  refine ⟨k, ?_⟩
  have hreverse := congrArg List.reverse hk
  rw [List.reverse_reverse, List.reverse_append, List.reverse_replicate]
    at hreverse
  exact hreverse

theorem printPlaces_digits
    {places n : Nat} :
    ∀ c ∈ printPlaces places n, c.isDigit = true := by
  intro c hc
  rcases List.mem_append.mp hc with hc | hc
  · rw [List.eq_of_mem_replicate hc]
    decide
  · exact Nat.isDigit_of_mem_toDigits (by decide) (by decide) hc

theorem printPlaces_length
    {places n : Nat}
    (hpos : 0 < places)
    (hn : n < 10 ^ places) :
    (printPlaces places n).length = places := by
  have hlength :=
    (Nat.length_toDigits_le_iff (by decide : 1 < 10) hpos).mpr hn
  rw [printPlaces]
  rw [List.length_append, List.length_replicate]
  omega

theorem ofDigitChars_printPlaces
    (places n : Nat) :
    Nat.ofDigitChars 10 (printPlaces places n) 0 = n := by
  rw [printPlaces]
  rw [Nat.ofDigitChars_append, Nat.ofDigitChars_replicate_zero, Nat.mul_zero,
    Nat.ofDigitChars_ten_toDigits]

theorem digits_printPlaces
    (places n : Nat) :
    Digits (printPlaces places n) where
  ne_nil := List.append_ne_nil_of_right_ne_nil _ Nat.toDigits_ne_nil
  isDigit := printPlaces_digits

/-- A number is read with the zeros in front. -/
theorem readNat_printPlaces
    {places n : Nat} {rest : List Char}
    (hrest : NoDigit rest) :
    readNat (printPlaces places n ++ rest) = some (n, rest) := by
  rw [readNat_digits (digits_printPlaces places n) hrest,
    ofDigitChars_printPlaces]

/-- A fraction that is not zero leaves digits when it is trimmed, and they denote
it. -/
theorem readPlaces_trimZeros
    {places n : Nat}
    (hplaces : 0 < places)
    (hn : n < 10 ^ places)
    (hpos : 0 < n) :
    trimZeros (printPlaces places n) ≠ [] ∧
      (trimZeros (printPlaces places n)).length ≤ places ∧
      (∀ c ∈ trimZeros (printPlaces places n), c.isDigit = true) ∧
      readPlaces places (trimZeros (printPlaces places n)) = n := by
  obtain ⟨k, hk⟩ := trimZeros_spec (printPlaces places n)
  have hlength := congrArg List.length hk
  rw [printPlaces_length hplaces hn, List.length_append,
    List.length_replicate] at hlength
  have hvalue :
      Nat.ofDigitChars 10 (trimZeros (printPlaces places n)) 0 *
        10 ^ (3 * k) = n := by
    conv_rhs => rw [← ofDigitChars_printPlaces places n, hk]
    rw [Nat.ofDigitChars_append, Nat.ofDigitChars_replicate_zero,
      Nat.mul_comm]
  refine ⟨?_, by omega, ?_, ?_⟩
  · intro hnil
    rw [hnil] at hvalue
    simp at hvalue
    omega
  · intro c hc
    have hmem : c ∈ printPlaces places n := by
      rw [hk]
      exact List.mem_append_left _ hc
    exact printPlaces_digits c hmem
  · rw [readPlaces]
    rw [show places - (trimZeros (printPlaces places n)).length = 3 * k by
      omega]
    exact hvalue

/-! ## Joined texts -/

/-- Parts without the separator are told apart after they have been joined. -/
theorem intercalate_injective
    {α : Type*} [BEq α] [LawfulBEq α]
    {x : α} {parts parts' : List (List α)}
    (hparts : ∀ part ∈ parts, x ∉ part)
    (hparts' : ∀ part ∈ parts', x ∉ part)
    (hne : parts ≠ []) (hne' : parts' ≠ [])
    (h : [x].intercalate parts = [x].intercalate parts') :
    parts = parts' := by
  rw [← List.splitOn_intercalate x hparts hne, h,
    List.splitOn_intercalate x hparts' hne']

/-- No part contains the separator. -/
theorem not_mem_of_mem_splitOn
    {α : Type*} [BEq α] [LawfulBEq α]
    {x : α} {cs part : List α}
    (h : part ∈ cs.splitOn x) :
    x ∉ part := by
  induction cs generalizing part with
  | nil =>
      obtain rfl : part = [] := by simpa using h
      simp
  | cons c cs ih =>
      rw [List.splitOn_cons_eq_if_modifyHead] at h
      split at h
      · rcases List.mem_cons.mp h with rfl | h
        · simp
        · exact ih h
      · rename_i hne
        cases hsplit : cs.splitOn x with
        | nil => exact absurd hsplit (List.splitOn_ne_nil x cs)
        | cons first parts =>
            rw [hsplit] at h ih
            rcases List.mem_cons.mp h with rfl | h
            · have hfirst := ih List.mem_cons_self
              simp only [List.mem_cons, not_or]
              exact ⟨fun heq => hne (by simp [heq]), hfirst⟩
            · exact ih (List.mem_cons_of_mem _ h)

/-- A separator that is no digit is not in a number. -/
theorem not_mem_toDigits
    {x : Char}
    (hx : x.isDigit = false)
    (n : Nat) :
    x ∉ Nat.toDigits 10 n := by
  intro hmem
  have hdigit := Nat.isDigit_of_mem_toDigits (by decide) (by decide) hmem
  rw [hx] at hdigit
  cases hdigit

theorem toDigits_injective
    {m n : Nat}
    (h : Nat.toDigits 10 m = Nat.toDigits 10 n) :
    m = n := by
  rw [← Nat.ofDigitChars_ten_toDigits (n := m), h,
    Nat.ofDigitChars_ten_toDigits]

end Machine
end SpannerClient
