import SpannerClient.Codec.JsonConversion
import SpannerClient.Machine.Objects

/-!
# Enums by name and by number

`new ProtoEnum` takes the number of a constant, the text of the number or the name
of the constant.  A text of digits is kept; anything else is looked up in the enum
object.  That object has the numbers by their names, and its prototype the names
by their numbers, so the name of a constant is replaced by a number, zero is not
found, and a negative number is replaced by a name.

How JavaScript prints a number is a parameter (`EnumNumbers`).

* `construct_name`, `construct_text` and `construct_number` are the values that the
  three ways make of a constant.
* All of them have its name as their JSON exactly for the positive numbers
  (`sameJSON_iff`).
* They are never the same value (`not_sameEnum`), which is the main result.
-/

namespace SpannerClient
namespace Codec

open Machine
open SpannerClient.Codec.Interval (MAX_SAFE_INTEGER)

/-! ## The model -/

/-- What enum numbers have to do with the leaves. -/
structure EnumNumbers
    (L : Leaves) where
  ofInt : Int → L.Number
  numberToString_ofInt :
    ∀ n : Int, n.natAbs ≤ MAX_SAFE_INTEGER →
      L.numberToString (ofInt n) = intText n
  truthy_ofInt : ∀ n : Int, L.truthy (ofInt n) = decide (n ≠ 0)

/-- `[A-Za-z_][A-Za-z0-9_]*`, but not the name that no property can be given. -/
def isConstantName
    (name : String) : Bool :=
  match name.toList with
  | [] => false
  | c :: cs =>
      (c.isAlpha || c == '_') && cs.all (fun c => c.isAlphanum || c == '_') &&
        name != "__proto__"

/-- An enum object of protobufjs: the numbers by the names of the constants. -/
structure EnumObject where
  constants : PlainObject Int
  names : ∀ constant ∈ constants.entries, isConstantName constant.1 = true
  numbers : (constants.entries.map Prod.snd).Nodup
  safe :
    ∀ constant ∈ constants.entries, constant.2.natAbs ≤ MAX_SAFE_INTEGER

variable {L : Leaves}

/-- `Object.getPrototypeOf(enumObject)[key]`: a name by its number, or what all
objects have. -/
def EnumObject.getPrototype
    (e : EnumObject) (key : String) : Option (Raw L.Number) :=
  match e.constants.entries.find? fun c => intText c.2 == key with
  | some constant => some (.string constant.1)
  | none =>
      if inheritedNames.contains key then some (.object []) else none

/-- `enumObject[key]`. -/
def EnumObject.getProperty
    (N : EnumNumbers L) (e : EnumObject) (key : String) :
    Option (Raw L.Number) :=
  match e.constants.get key with
  | some n => some (.number (N.ofInt n))
  | none => e.getPrototype key

/-- `new ProtoEnum({value, fullName, enumObject}).value`; `none` if it throws. -/
def EnumObject.construct
    (N : EnumNumbers L) (e : EnumObject) (value : Raw L.Number) :
    Option (Raw L.Number) :=
  newProtoEnum (some (e.getProperty N)) value

/-- `toJSON`, of an enum with an enum object; `none` is `undefined`. -/
def EnumObject.toJSON
    (e : EnumObject) (value : Raw L.Number) : Option (Raw L.Number) :=
  (value.toString L.numberToString).bind e.getPrototype

/-! ## The three ways -/

/-- None of the three ways to construct the constant throws; they give the same
value, encoded the same, and it is printed as the name. -/
structure SameEnum
    (N : EnumNumbers L) (e : EnumObject) (fullName name : String) (n : Int)
    (byName byNumber byText : Raw L.Number) : Prop where
  ofName : e.construct N (.string name) = some byName
  ofNumber : e.construct N (.number (N.ofInt n)) = some byNumber
  ofText : e.construct N (.string (intText n)) = some byText
  value : byName = byNumber ∧ byNumber = byText
  encoded :
    encode (.protoEnum byName fullName : Value L) =
        encode (.protoEnum byNumber fullName) ∧
      encode (.protoEnum byNumber fullName : Value L) =
        encode (.protoEnum byText fullName)
  json :
    e.toJSON byName = some (.string name) ∧
      e.toJSON byNumber = some (.string name) ∧
      e.toJSON byText = some (.string name)

theorem not_isDigit_of_isAlpha
    {c : Char}
    (h : c.isAlpha = true) :
    c.isDigit = false := by
  have hcases :
      (decide (c.val ≥ 'A'.val ∧ c.val ≤ 'Z'.val) ||
          decide (c.val ≥ 'a'.val) && decide (c.val ≤ 'z'.val)) =
        true :=
    h
  have hupper : 'A'.val.toNat = 65 := rfl
  have hlower : 'a'.val.toNat = 97 := rfl
  have hnine : '9'.toNat = 57 := rfl
  simp only [Bool.or_eq_true, Bool.and_eq_true, decide_eq_true_eq,
    UInt32.le_iff_toNat_le, ge_iff_le] at hcases
  rw [Bool.eq_false_iff]
  intro hdigit
  have hle := (Char.isDigit_iff_toNat.mp hdigit).2
  have hvalue : c.toNat = c.val.toNat := rfl
  omega

theorem isDigits_constantName
    {name : String}
    (h : isConstantName name = true) :
    isDigits name = false := by
  rw [isConstantName] at h
  rw [isDigits]
  split at h
  · cases h
  · rename_i c cs hcs
    rw [hcs]
    simp only [Bool.and_eq_true, Bool.or_eq_true, beq_iff_eq] at h
    have hc : c.isDigit = false := by
      rcases h.1.1 with halpha | rfl
      · exact not_isDigit_of_isAlpha halpha
      · decide
    simp [hc]

/-- A text that is not negative is all digits. -/
theorem isDigits_intText
    (n : Int) :
    isDigits (intText n) = decide (0 ≤ n) := by
  have hdigits := digits_toDigits n.natAbs
  rw [isDigits, intText, String.toList_ofList, printInt, printSigned]
  by_cases hn : n < 0
  · simp [hn]
  · have hall : (Nat.toDigits 10 n.natAbs).all Char.isDigit = true :=
      List.all_eq_true.mpr hdigits.isDigit
    simp [hn, hall, hdigits.ne_nil, not_lt.mp hn]

/-- The text of a number is not the name of a constant. -/
theorem isConstantName_intText
    (n : Int) :
    isConstantName (intText n) = false := by
  by_contra h
  rw [Bool.not_eq_false] at h
  by_cases hn : 0 ≤ n
  · have hdigits := isDigits_constantName h
    rw [isDigits_intText, decide_eq_true hn] at hdigits
    cases hdigits
  · rw [isConstantName, intText, String.toList_ofList, printInt,
      decide_eq_true (not_le.mp hn), printSigned, signText_true] at h
    simp at h

/-! ## Looking up a constant -/

section Constants

variable (N : EnumNumbers L)
variable {e : EnumObject} {name : String} {n : Int}

theorem constantName_of_get
    (h : e.constants.get name = some n) :
    isConstantName name = true :=
  e.names (name, n) ((e.constants.mem_entries_iff name n).mpr h)

theorem safe_of_get
    (h : e.constants.get name = some n) :
    n.natAbs ≤ MAX_SAFE_INTEGER :=
  e.safe (name, n) ((e.constants.mem_entries_iff name n).mpr h)

/-- The text of the number of a constant finds its name. -/
theorem getPrototype_intText
    (h : e.constants.get name = some n) :
    e.getPrototype (L := L) (intText n) = some (.string name) := by
  have hmem := (e.constants.mem_entries_iff name n).mpr h
  rw [EnumObject.getPrototype]
  cases hfind : e.constants.entries.find? fun c => intText c.2 == intText n with
  | none =>
      have hnone := List.find?_eq_none.mp hfind (name, n) hmem
      simp at hnone
  | some constant =>
      have htext := List.find?_some hfind
      have hnumber : constant.2 = n := intText_injective (beq_iff_eq.mp htext)
      have hconstant := List.mem_of_find?_eq_some hfind
      have heq : constant = (name, n) :=
        List.inj_on_of_nodup_map e.numbers hconstant hmem hnumber
      rw [heq]

/-- A name finds no other name. -/
theorem getPrototype_name
    (h : isConstantName name = true) (other : String) :
    e.getPrototype (L := L) name ≠ some (.string other) := by
  rw [EnumObject.getPrototype]
  cases hfind : e.constants.entries.find? fun c => intText c.2 == name with
  | none =>
      dsimp only
      split
      · intro heq
        cases heq
      · intro heq
        cases heq
  | some constant =>
      have htext := List.find?_some hfind
      rw [← beq_iff_eq.mp htext, isConstantName_intText] at h
      cases h

/-- The text of a negative number finds the name as a property. -/
theorem getProperty_intText
    (h : e.constants.get name = some n) :
    e.getProperty N (intText n) = some (.string name) := by
  have hnone : e.constants.get (intText n) = none := by
    cases hget : e.constants.get (intText n) with
    | none => rfl
    | some m =>
        have hname := constantName_of_get hget
        rw [isConstantName_intText] at hname
        cases hname
  rw [EnumObject.getProperty, hnone]
  exact getPrototype_intText h

/-! ## Constructing a constant -/

/-- Zero is not found by its name. -/
theorem construct_name
    (h : e.constants.get name = some n) :
    e.construct N (.string name) =
      if n = 0 then none else some (.number (N.ofInt n)) := by
  have hname := isDigits_constantName (constantName_of_get h)
  have hproperty : e.getProperty N name = some (.number (N.ofInt n)) := by
    rw [EnumObject.getProperty, h]
  rw [EnumObject.construct, newProtoEnum]
  by_cases hzero : n = 0
  · simp [Raw.toString, Raw.isTruthy, hname, hproperty, hzero,
      N.truthy_ofInt]
  · simp [Raw.toString, Raw.isTruthy, hname, hproperty, hzero,
      N.truthy_ofInt]

/-- A number that is not negative is kept as a text; a negative one becomes the
name. -/
theorem construct_text
    (h : e.constants.get name = some n) :
    e.construct N (.string (intText n)) =
      some (.string (if 0 ≤ n then intText n else name)) := by
  have hne : name ≠ "" := by
    rintro rfl
    exact absurd (constantName_of_get h) (by decide)
  rw [EnumObject.construct, newProtoEnum]
  by_cases hn : 0 ≤ n
  · simp [Raw.toString, isDigits_intText, hn]
  · simp [Raw.toString, Raw.isTruthy, isDigits_intText, hn,
      getProperty_intText N h, hne]

theorem construct_number
    (h : e.constants.get name = some n) :
    e.construct N (.number (N.ofInt n)) =
      e.construct N (.string (intText n)) := by
  have htext := N.numberToString_ofInt n (safe_of_get h)
  rw [EnumObject.construct, EnumObject.construct, newProtoEnum, newProtoEnum,
    Raw.toString, Raw.toString, htext]

theorem toJSON_text
    (h : e.constants.get name = some n) :
    e.toJSON (.string (intText n) : Raw L.Number) = some (.string name) := by
  rw [EnumObject.toJSON, Raw.toString, Option.bind_some]
  exact getPrototype_intText h

theorem toJSON_number
    (h : e.constants.get name = some n) :
    e.toJSON (.number (N.ofInt n)) = some (.string name) := by
  rw [EnumObject.toJSON, Raw.toString,
    N.numberToString_ofInt n (safe_of_get h), Option.bind_some]
  exact getPrototype_intText h

/-- The three ways give the name back exactly for the positive numbers. -/
theorem sameJSON_iff
    (h : e.constants.get name = some n) :
    (∃ byName byNumber byText,
        e.construct N (.string name) = some byName ∧
          e.construct N (.number (N.ofInt n)) = some byNumber ∧
          e.construct N (.string (intText n)) = some byText ∧
          e.toJSON byName = some (.string name) ∧
          e.toJSON byNumber = some (.string name) ∧
          e.toJSON byText = some (.string name)) ↔
      0 < n := by
  rw [construct_number N h, construct_text N h, construct_name N h]
  constructor
  · rintro ⟨byName, byNumber, byText, hname, -, htext, -, -, hjson⟩
    by_contra hn
    have hneg : ¬ 0 ≤ n := by
      intro hle
      rw [if_pos (by omega)] at hname
      cases hname
    rw [if_neg hneg] at htext
    obtain rfl := Option.some.inj htext
    rw [EnumObject.toJSON, Raw.toString, Option.bind_some] at hjson
    exact getPrototype_name (constantName_of_get h) name hjson
  · intro hn
    refine
      ⟨_, _, _, if_neg (by omega), rfl, rfl, toJSON_number N h, ?_, ?_⟩
    · rw [if_pos (by omega)]
      exact toJSON_text h
    · rw [if_pos (by omega)]
      exact toJSON_text h

/-- What is constructed from a name is encoded as a number, what is constructed
from a number as a string. -/
theorem encode_name_ne_text
    (h : e.constants.get name = some n)
    (fullName : String)
    {byName byText : Raw L.Number}
    (hname : e.construct N (.string name) = some byName)
    (htext : e.construct N (.string (intText n)) = some byText) :
    encode (.protoEnum byName fullName : Value L) ≠
      encode (.protoEnum byText fullName) := by
  rw [construct_name N h] at hname
  rw [construct_text N h] at htext
  split at hname
  · cases hname
  · obtain rfl := Option.some.inj hname
    obtain rfl := Option.some.inj htext
    simp [encode, encodeValue, encodeValue_]

end Constants

/-- No constant is the same enum by its name and by its number. -/
theorem not_sameEnum
    (N : EnumNumbers L) (e : EnumObject) (fullName name : String) (n : Int)
    (h : e.constants.get name = some n) :
    ∀ byName byNumber byText,
      ¬ SameEnum N e fullName name n byName byNumber byText := by
  intro byName byNumber byText hsame
  exact
    encode_name_ne_text N h fullName hsame.ofName hsame.ofText
      (hsame.encoded.1.trans hsame.encoded.2)

theorem intText_eq_repr
    (n : Int) :
    intText n = n.repr := by
  cases n with
  | ofNat n =>
      rw [intText, printInt, decide_eq_false (by simp)]
      rfl
  | negSucc n =>
      rw [intText, printInt, decide_eq_true (Int.negSucc_lt_zero n),
        printSigned, signText_true, String.ofList_append]
      rfl

/-- The genres of music. -/
def genre : EnumObject where
  constants :=
    { entries := [("POP", 0), ("JAZZ", 1), ("FOLK", 2), ("ROCK", 3)]
      nodup := by decide }
  names := by decide
  numbers := by decide
  safe := by decide

def textEnumNumbers : EnumNumbers textLeaves where
  ofInt := fun n => n
  numberToString_ofInt := fun n _ => (intText_eq_repr n).symm
  truthy_ofInt := by
    intro n
    change (n != 0) = decide (n ≠ 0)
    by_cases hn : n = 0 <;> simp [hn]

theorem not_sameEnum_jazz :
    genre.constants.get "JAZZ" = some 1 ∧
      ∀ byName byNumber byText,
        ¬ SameEnum textEnumNumbers genre "examples.spanner.music.Genre" "JAZZ" 1
          byName byNumber byText :=
  ⟨rfl,
    not_sameEnum textEnumNumbers genre "examples.spanner.music.Genre" "JAZZ" 1
      rfl⟩

/-- By its name the genre is a number, by its number a string. -/
theorem rock_not_sameEnum :
    ¬ ∃ byName byNumber byText,
      SameEnum textEnumNumbers genre "examples.spanner.music.Genre" "ROCK" 3
        byName byNumber byText := by
  rintro ⟨byName, byNumber, byText, hsame⟩
  have hname :
      genre.construct textEnumNumbers (.string "ROCK") =
        some (.number (3 : Int)) := by
    rfl
  have htext :
      genre.construct textEnumNumbers (.string (intText 3)) =
        some (.string "3") := by
    rfl
  have heq := hsame.ofName.symm.trans hname
  have heq' := hsame.ofText.symm.trans htext
  have hvalue := hsame.value.1.trans hsame.value.2
  rw [Option.some.inj heq, Option.some.inj heq'] at hvalue
  cases hvalue

end Codec
end SpannerClient
