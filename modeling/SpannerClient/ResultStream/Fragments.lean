import SpannerClient.Machine.Containers
import SpannerClient.ResultStream.Merge

/-!
# Two fragments by the rules of the protocol

The rules for chunked values know no types (`combine`): two strings are
concatenated, and two lists are concatenated with the last element of the first
and the first element of the second combined in turn if both are strings or both
are lists.

`merge` goes by the type, and takes an element from each list at the seam
whether there is one or not.  It keeps to the rules as long as there is one
(`EmptySeam`), and as long as a list there meets a list or null (`UnevenSeam`).
A seam is bad if it is one or the other.

Values are typed (`WellTyped`), or are the beginning of a typed value as one
meets them between two sets (`PartTyped`).  Of a typed value

* the cuts of `Splits`, which `merge` undoes, are the fragments that combine to
  it with no bad seam (`splits_iff`);
* at an uneven seam `merge` throws, and at an empty one it makes another value,
  or throws (`merge_of_unevenSeam`, `merge_ne_of_emptySeam`);
* so `merge` makes of two fragments what the rules make of them if and only if no
  seam is bad (`merge_iff_not_badSeam`).
-/

namespace SpannerClient
namespace ResultStream

open Machine

mutual

/-- Two fragments combined; `none` for what is not chunked. -/
def combine : Value → Value → Option Value
  | .string s, .string t => some (.string (s ++ t))
  | .list xs, .list ys => some (.list (combineLists xs ys))
  | _, _ => none

def combineLists : List Value → List Value → List Value
  | [], ys => ys
  | [x], [] => [x]
  | [x], y :: ys =>
      match combine x y with
      | none => x :: y :: ys
      | some v => v :: ys
  | x :: x' :: xs, ys => x :: combineLists (x' :: xs) ys

end

/-- At a level that merging reaches, a list is empty, or a list meets a value
that is neither a list nor null. -/
inductive BadSeam : Value → Value → Prop where
  | emptyHead (ys : List Value) :
      BadSeam (.list []) (.list ys)
  | emptyTail (xs : List Value) :
      BadSeam (.list xs) (.list [])
  | uneven (xs zs : List Value) (y : Value) (ys : List Value)
      (hnotNull : y ≠ .null)
      (hnotList : ∀ values, y ≠ .list values) :
      BadSeam (.list (xs ++ [.list zs])) (.list (y :: ys))
  | inside (xs : List Value) (a b : Value) (ys : List Value)
      (hinner : BadSeam a b) :
      BadSeam (.list (xs ++ [a])) (.list (b :: ys))

/-- At a level that merging reaches, a list is empty. -/
inductive EmptySeam : Value → Value → Prop where
  | head (ys : List Value) :
      EmptySeam (.list []) (.list ys)
  | tail (xs : List Value) :
      EmptySeam (.list xs) (.list [])
  | inside (xs : List Value) (a b : Value) (ys : List Value)
      (hinner : EmptySeam a b) :
      EmptySeam (.list (xs ++ [a])) (.list (b :: ys))

/-- At a level that merging reaches, a list meets a value that is neither a list
nor null. -/
inductive UnevenSeam : Value → Value → Prop where
  | here (xs zs : List Value) (y : Value) (ys : List Value)
      (hnotNull : y ≠ .null)
      (hnotList : ∀ values, y ≠ .list values) :
      UnevenSeam (.list (xs ++ [.list zs])) (.list (y :: ys))
  | inside (xs : List Value) (a b : Value) (ys : List Value)
      (hinner : UnevenSeam a b) :
      UnevenSeam (.list (xs ++ [a])) (.list (b :: ys))

/-! ## The rules -/

theorem badSeam_iff
    (a b : Value) :
    BadSeam a b ↔ EmptySeam a b ∨ UnevenSeam a b := by
  constructor
  · intro h
    induction h with
    | emptyHead ys => exact Or.inl (.head ys)
    | emptyTail xs => exact Or.inl (.tail xs)
    | uneven xs zs y ys hnotNull hnotList =>
        exact Or.inr (.here xs zs y ys hnotNull hnotList)
    | inside xs a b ys _ ih =>
        exact ih.imp (.inside xs a b ys) (.inside xs a b ys)
  · rintro (h | h)
    · induction h with
      | head ys => exact .emptyHead ys
      | tail xs => exact .emptyTail xs
      | inside xs a b ys _ ih => exact .inside xs a b ys ih
    · induction h with
      | here xs zs y ys hnotNull hnotList =>
          exact .uneven xs zs y ys hnotNull hnotList
      | inside xs a b ys _ ih => exact .inside xs a b ys ih

/-- Induction over the elements of lists. -/
@[elab_as_elim]
theorem Value.list_induction
    {motive : Value → Prop}
    (leaf : ∀ v : Value, (∀ values, v ≠ .list values) → motive v)
    (list : ∀ values, (∀ v ∈ values, motive v) → motive (.list values)) :
    ∀ v, motive v
  | .list values =>
      list values fun v _ => Value.list_induction leaf list v
  | .undefined => leaf _ nofun
  | .null => leaf _ nofun
  | .bool _ => leaf _ nofun
  | .number _ => leaf _ nofun
  | .string _ => leaf _ nofun

@[simp] theorem combineLists_nil
    (xs : List Value) :
    combineLists xs [] = xs := by
  induction xs with
  | nil => simp [combineLists]
  | cons x xs ih =>
      cases xs with
      | nil => simp [combineLists]
      | cons x' xs => simp [combineLists, ih]

/-- Elements that are combined. -/
theorem combineLists_of_some
    {x y v : Value}
    (h : combine x y = some v)
    (xs ys : List Value) :
    combineLists (xs ++ [x]) (y :: ys) = xs ++ v :: ys := by
  induction xs with
  | nil => simp [combineLists, h]
  | cons z xs ih =>
      cases xs with
      | nil => simpa [combineLists] using ih
      | cons z' xs => simpa [combineLists] using ih

/-- Elements that are left side by side. -/
theorem combineLists_of_none
    {x y : Value}
    (h : combine x y = none)
    (xs ys : List Value) :
    combineLists (xs ++ [x]) (y :: ys) = xs ++ x :: y :: ys := by
  induction xs with
  | nil => simp [combineLists, h]
  | cons z xs ih =>
      cases xs with
      | nil => simpa [combineLists] using ih
      | cons z' xs => simpa [combineLists] using ih

/-- Where an element meets another one, the seam is empty if theirs is. -/
theorem emptySeam_lists_iff
    (xs : List Value) (a b : Value) (ys : List Value) :
    EmptySeam (.list (xs ++ [a])) (.list (b :: ys)) ↔ EmptySeam a b := by
  constructor
  · intro h
    generalize hhead : Value.list (xs ++ [a]) = head at h
    generalize htail : Value.list (b :: ys) = tail at h
    cases h with
    | head ys => simp at hhead
    | tail xs => cases htail
    | inside xs' a' b' ys' hinner =>
        obtain ⟨-, ha⟩ := List.append_inj' (Value.list.inj hhead) rfl
        obtain ⟨rfl, -⟩ := List.cons.inj (Value.list.inj htail)
        rw [(List.cons.inj ha).1]
        exact hinner
  · exact .inside xs a b ys

/-- It is uneven if theirs is, or if one of them is a list and the other neither a
list nor null. -/
theorem unevenSeam_lists_iff
    (xs : List Value) (a b : Value) (ys : List Value) :
    UnevenSeam (.list (xs ++ [a])) (.list (b :: ys)) ↔
      ((∃ zs, a = .list zs) ∧ b ≠ .null ∧ ∀ values, b ≠ .list values) ∨
        UnevenSeam a b := by
  constructor
  · intro h
    generalize hhead : Value.list (xs ++ [a]) = head at h
    generalize htail : Value.list (b :: ys) = tail at h
    cases h with
    | here xs' zs y ys' hnotNull hnotList =>
        obtain ⟨-, ha⟩ := List.append_inj' (Value.list.inj hhead) rfl
        obtain ⟨rfl, -⟩ := List.cons.inj (Value.list.inj htail)
        exact Or.inl ⟨⟨zs, (List.cons.inj ha).1⟩, hnotNull, hnotList⟩
    | inside xs' a' b' ys' hinner =>
        obtain ⟨-, ha⟩ := List.append_inj' (Value.list.inj hhead) rfl
        obtain ⟨rfl, -⟩ := List.cons.inj (Value.list.inj htail)
        rw [(List.cons.inj ha).1]
        exact Or.inr hinner
  · rintro (⟨⟨zs, rfl⟩, hnotNull, hnotList⟩ | hinner)
    · exact .here xs zs b ys hnotNull hnotList
    · exact .inside xs a b ys hinner

/-! ## Typed values -/

/-- The value is of the type; `len` relates the length of a STRUCT to the number
of its fields. -/
inductive Typed (len : Nat → Nat → Prop) : SpannerType → Value → Prop where
  | null (type : SpannerType) :
      Typed len type .null
  | bool (code : String) (b : Bool) :
      Typed len (.scalar code) (.bool b)
  | number (code : String) (n : Int) :
      Typed len (.scalar code) (.number n)
  | string (code : String) (s : String) :
      Typed len (.scalar code) (.string s)
  | array (type : SpannerType) (values : List Value)
      (hvalues : ∀ v ∈ values, Typed len type v) :
      Typed len (.array type) (.list values)
  | struct (fields : List SpannerType) (values : List Value)
      (hlength : len values.length fields.length)
      (hvalues :
        ∀ (i : Nat) type v, fields[i]? = some type →
          values[i]? = some v → Typed len type v) :
      Typed len (.struct fields) (.list values)

/-- The value is of the type. -/
abbrev WellTyped := Typed (fun n m => n = m)

/-- The value is the beginning of one of the type. -/
abbrev PartTyped := Typed (fun n m => n ≤ m)

theorem WellTyped.part
    {type : SpannerType} {v : Value}
    (h : WellTyped type v) :
    PartTyped type v := by
  induction h with
  | null type => exact .null type
  | bool code b => exact .bool code b
  | number code n => exact .number code n
  | string code s => exact .string code s
  | array type values _ ih => exact .array type values ih
  | struct fields values hlength _ ih =>
      exact .struct fields values (Nat.le_of_eq hlength) ih

/-- The type of the element with the index in a list of the type. -/
def ElementType
    (type : SpannerType) (i : Nat) (element : SpannerType) : Prop :=
  type = .array element ∨
    ∃ fields, type = .struct fields ∧ fields[i]? = some element

/-- An element of the beginning of a list has a type, and the list may also end
in the beginning of the element. -/
theorem elementType_of_partTyped
    {type : SpannerType} {xs ys : List Value} {v : Value}
    (h : PartTyped type (.list (xs ++ v :: ys))) :
    ∃ element, ElementType type xs.length element ∧
      PartTyped element v ∧
      ∀ a, PartTyped element a → PartTyped type (.list (xs ++ [a])) := by
  cases h with
  | array element values hvalues =>
      refine ⟨element, Or.inl rfl, hvalues v (by simp), ?_⟩
      intro a ha
      refine .array element _ ?_
      intro w hw
      rcases List.mem_append.mp hw with hw | hw
      · exact hvalues w (List.mem_append_left _ hw)
      · rw [List.mem_singleton.mp hw]
        exact ha
  | struct fields values hlength hvalues =>
      simp only [List.length_append, List.length_cons] at hlength
      have hlt : xs.length < fields.length := by omega
      refine
        ⟨fields[xs.length], Or.inr ⟨fields, rfl, by simp [hlt]⟩,
          hvalues xs.length _ v (by simp [hlt]) (by simp), ?_⟩
      intro a ha
      refine .struct fields _ (by simpa using Nat.succ_le_of_lt hlt) ?_
      intro i element w helement hw
      rcases getElem?_snoc_some hw with ⟨rfl, rfl⟩ | ⟨hi, hw⟩
      · rw [List.getElem?_eq_getElem hlt, Option.some.injEq] at helement
        rw [← helement]
        exact ha
      · refine hvalues i element w helement ?_
        rw [List.getElem?_append_left hi]
        exact hw

theorem Splits.between
    {type element : SpannerType} {xs : List Value}
    (htype : ElementType type xs.length element)
    {x y : Value}
    (hbeside : Beside element x y)
    (ys : List Value) :
    Splits type (.list (xs ++ x :: y :: ys))
      (.list (xs ++ [x])) (.list (y :: ys)) := by
  rcases htype with rfl | ⟨fields, rfl, hfield⟩
  · exact .arrayBetween element xs x y ys hbeside
  · exact .structBetween fields element xs x y ys hfield hbeside

theorem Splits.inside
    {type element : SpannerType} {xs : List Value}
    (htype : ElementType type xs.length element)
    {v a b : Value}
    (hsplits : Splits element v a b)
    (ys : List Value) :
    Splits type (.list (xs ++ v :: ys))
      (.list (xs ++ [a])) (.list (b :: ys)) := by
  rcases htype with rfl | ⟨fields, rfl, hfield⟩
  · exact .arrayInside element xs v a b ys hsplits
  · exact .structInside fields element xs v a b ys hfield hsplits

/-! ## Merging where the rules go -/

theorem ElementType.unique
    {type : SpannerType} {i : Nat} {element element' : SpannerType}
    (h : ElementType type i element)
    (h' : ElementType type i element') :
    element = element' := by
  rcases h with rfl | ⟨fields, rfl, hfield⟩
  · rcases h' with h' | ⟨fields, h', -⟩
    · exact SpannerType.array.inj h'
    · cases h'
  · rcases h' with h' | ⟨fields', h', hfield'⟩
    · cases h'
    · obtain rfl := SpannerType.struct.inj h'
      exact Option.some.inj (hfield.symm.trans hfield')

/-- Elements of a typed list that are not combined are left side by side, except
where a list meets what is neither a list nor null. -/
theorem beside_of_combine_none
    {type : SpannerType} {x y : Value}
    (hx : PartTyped type x)
    (hnone : combine x y = none)
    (heven :
      ∀ values, x = .list values → y = .null ∨ ∃ ys, y = .list ys) :
    Beside type x y := by
  have hlist : ∀ values, x = .list values → y = .null := by
    intro values hvalues
    rcases heven values hvalues with hnull | ⟨ys, rfl⟩
    · exact hnull
    · subst hvalues
      simp [combine] at hnone
  cases hx with
  | null type =>
      cases type with
      | scalar code => simp [Beside]
      | array type => exact Or.inl rfl
      | struct fields => exact Or.inl rfl
  | bool code b => simp [Beside]
  | number code n => simp [Beside]
  | string code s =>
      rintro s' t ⟨-, rfl⟩
      simp [combine] at hnone
  | array type values => exact Or.inr (hlist values rfl)
  | struct fields values => exact Or.inr (hlist values rfl)

/-- Where no seam is bad, fragments that the rules combine to a typed value are a
cut of it. -/
theorem splits_of_combine
    {a b v : Value}
    (h : combine a b = some v)
    (hseam : ¬ BadSeam a b)
    {type : SpannerType}
    (hv : PartTyped type v) :
    Splits type v a b := by
  induction a using Value.list_induction generalizing b v type with
  | leaf a hleaf =>
      cases a with
      | string s =>
          cases b with
          | string t =>
              obtain rfl := Option.some.inj h
              cases hv with
              | string code => exact .string code s t
          | _ => simp [combine] at h
      | list values => exact absurd rfl (hleaf values)
      | _ => simp [combine] at h
  | list xs ih =>
      cases b with
      | list ys =>
          obtain rfl | ⟨xs, x, rfl⟩ := xs.eq_nil_or_concat
          · exact absurd (.emptyHead ys) hseam
          · rw [List.concat_eq_append] at *
            cases ys with
            | nil => exact absurd (.emptyTail _) hseam
            | cons y ys =>
                cases hxy : combine x y with
                | none =>
                    rw [combine, combineLists_of_none hxy] at h
                    obtain rfl := Option.some.inj h
                    obtain ⟨element, htype, hx, -⟩ :=
                      elementType_of_partTyped hv
                    refine .between htype ?_ ys
                    refine beside_of_combine_none hx hxy ?_
                    rintro values rfl
                    cases y with
                    | null => exact Or.inl rfl
                    | list zs => exact Or.inr ⟨zs, rfl⟩
                    | _ =>
                        exact
                          absurd (.uneven xs values _ ys nofun nofun) hseam
                | some w =>
                    rw [combine, combineLists_of_some hxy] at h
                    obtain rfl := Option.some.inj h
                    obtain ⟨element, htype, hw, -⟩ :=
                      elementType_of_partTyped hv
                    have hinner : ¬ BadSeam x y := fun hbad =>
                      hseam (.inside xs x y ys hbad)
                    exact .inside htype (ih x (by simp) hxy hinner hw) ys
      | _ => simp [combine] at h

/-- Elements of a typed list that are left side by side are not combined. -/
theorem combine_none_of_beside
    {type : SpannerType} {x y : Value}
    (hx : PartTyped type x)
    (h : Beside type x y) :
    combine x y = none := by
  cases hx with
  | null type => simp [combine]
  | bool code b => simp [combine]
  | number code n => simp [combine]
  | string code s =>
      cases y with
      | string t => exact absurd ⟨rfl, rfl⟩ (h s t)
      | _ => simp [combine]
  | array type values =>
      rcases h with h | rfl
      · cases h
      · simp [combine]
  | struct fields values =>
      rcases h with h | rfl
      · cases h
      · simp [combine]

/-- The two fragments of a cut are combined to the value. -/
theorem combine_of_splits
    {type : SpannerType} {v a b : Value}
    (h : Splits type v a b)
    (hv : PartTyped type v) :
    combine a b = some v := by
  have hbetween :
      ∀ {type : SpannerType} {xs : List Value} {x y : Value}
        {ys : List Value},
        PartTyped type (.list (xs ++ x :: y :: ys)) →
        (∀ element, ElementType type xs.length element →
          Beside element x y) →
        combine (.list (xs ++ [x])) (.list (y :: ys)) =
          some (.list (xs ++ x :: y :: ys)) := by
    intro type xs x y ys hv hbeside
    obtain ⟨element, htype, hx, -⟩ := elementType_of_partTyped hv
    have hnone := combine_none_of_beside hx (hbeside element htype)
    rw [combine, combineLists_of_none hnone]
  induction h with
  | string code s t => rw [combine]
  | arrayBetween type xs x y ys hbeside =>
      refine hbetween hv fun element htype => ?_
      exact htype.unique (Or.inl rfl) ▸ hbeside
  | structBetween fields type xs x y ys htype hbeside =>
      refine hbetween hv fun element htype' => ?_
      exact htype'.unique (Or.inr ⟨fields, rfl, htype⟩) ▸ hbeside
  | arrayInside type xs v a b ys _ ih =>
      obtain ⟨element, htype, helement, -⟩ := elementType_of_partTyped hv
      obtain rfl := htype.unique (Or.inl rfl)
      rw [combine, combineLists_of_some (ih helement)]
  | structInside fields type xs v a b ys htype _ ih =>
      obtain ⟨element, htype', helement, -⟩ := elementType_of_partTyped hv
      obtain rfl := htype'.unique (Or.inr ⟨fields, rfl, htype⟩)
      rw [combine, combineLists_of_some (ih helement)]

/-- The first of two fragments is the beginning of what they make. -/
theorem partTyped_of_combine
    {a b v : Value}
    (h : combine a b = some v)
    {type : SpannerType}
    (hv : PartTyped type v) :
    PartTyped type a := by
  induction a using Value.list_induction generalizing b v type with
  | leaf a hleaf =>
      cases a with
      | string s =>
          cases b with
          | string t =>
              obtain rfl := Option.some.inj h
              cases hv with
              | string code => exact .string code s
          | _ => simp [combine] at h
      | list values => exact absurd rfl (hleaf values)
      | _ => simp [combine] at h
  | list xs ih =>
      cases b with
      | list ys =>
          obtain rfl | ⟨xs, x, rfl⟩ := xs.eq_nil_or_concat
          · obtain rfl := Option.some.inj h
            cases hv with
            | array element => exact .array element [] (by simp)
            | struct fields => exact .struct fields [] (by simp) (by simp)
          · rw [List.concat_eq_append] at *
            cases ys with
            | nil =>
                rw [combine, combineLists_nil] at h
                obtain rfl := Option.some.inj h
                exact hv
            | cons y ys =>
                cases hxy : combine x y with
                | none =>
                    rw [combine, combineLists_of_none hxy] at h
                    obtain rfl := Option.some.inj h
                    obtain ⟨element, -, hx, hpart⟩ :=
                      elementType_of_partTyped hv
                    exact hpart x hx
                | some w =>
                    rw [combine, combineLists_of_some hxy] at h
                    obtain rfl := Option.some.inj h
                    obtain ⟨element, -, hw, hpart⟩ :=
                      elementType_of_partTyped hv
                    exact hpart x (ih x (by simp) hxy hw)
      | _ => simp [combine] at h

/-! ## Merging where it does not -/

theorem mergeField_some
    {fields : List SpannerType} {i : Nat} {x y : Value} {merged : List Value}
    (h : mergeField fields i x y = some merged) :
    ∃ type, fields[i]? = some type ∧ merge type x y = some merged := by
  induction fields generalizing i with
  | nil => simp [mergeField] at h
  | cons type fields ih =>
      cases i with
      | zero => exact ⟨type, rfl, by simpa [mergeField] using h⟩
      | succ i => exact ih (by simpa [mergeField] using h)

/-- How two lists become one value. -/
theorem merge_lists_some
    {type : SpannerType} {xs ys : List Value} {v : Value}
    (h : merge type (.list xs) (.list ys) = some [v]) :
    ∃ element merged, ElementType type (xs.length - 1) element ∧
      merge element (pop xs) (shift ys) = some merged ∧
      v = splice xs merged ys := by
  cases type with
  | scalar code => simp [merge, mergeScalars] at h
  | array element =>
      simp [merge, Value.isNull] at h
      obtain ⟨merged, hmerged, hv⟩ := h
      exact ⟨element, merged, Or.inl rfl, hmerged, hv.symm⟩
  | struct fields =>
      cases xs with
      | nil => simp [merge, Value.isNull] at h
      | cons x xs =>
          simp [merge, Value.isNull] at h
          obtain ⟨merged, hmerged, hv⟩ := h
          obtain ⟨element, hfield, hmerged⟩ := mergeField_some hmerged
          exact
            ⟨element, merged, Or.inr ⟨fields, rfl, hfield⟩, hmerged, hv.symm⟩

/-- What is not there is put in as `undefined`. -/
theorem merge_undefined_left
    {type : SpannerType} {y : Value} {merged : List Value}
    (h : merge type .undefined y = some merged) :
    merged = [.undefined, y] := by
  cases type <;> cases y <;> simp_all [merge, mergeScalars, Value.isNull]

theorem merge_undefined_right
    {type : SpannerType} {x : Value} {merged : List Value}
    (h : merge type x .undefined = some merged) :
    merged = [x, .undefined] := by
  cases type with
  | struct fields =>
      cases x with
      | list values =>
          cases values <;> simp [merge, Value.isNull] at h
      | _ => simp_all [merge, Value.isNull]
  | _ => cases x <;> simp_all [merge, mergeScalars, Value.isNull]

/-- Lists are merged by the type of the elements at the seam. -/
theorem merge_lists
    {type element : SpannerType} {xs : List Value}
    (htype : ElementType type xs.length element)
    (x y : Value) (ys : List Value) :
    merge type (.list (xs ++ [x])) (.list (y :: ys)) =
      (merge element x y).map fun merged => [.list (xs ++ merged ++ ys)] := by
  rcases htype with rfl | ⟨fields, rfl, hfield⟩
  · exact merge_array element xs x y ys
  · exact merge_struct hfield x y ys

/-- A list is not merged with what is neither a list nor null. -/
theorem merge_uneven
    {type : SpannerType} {zs : List Value} {y : Value}
    (htype : PartTyped type (.list zs))
    (hnotNull : y ≠ .null)
    (hnotList : ∀ values, y ≠ .list values) :
    merge type (.list zs) y = none := by
  cases htype with
  | array element values =>
      cases y with
      | null => exact absurd rfl hnotNull
      | list values => exact absurd rfl (hnotList values)
      | _ => simp [merge, Value.isNull]
  | struct fields values =>
      cases y with
      | null => exact absurd rfl hnotNull
      | list values => exact absurd rfl (hnotList values)
      | _ => cases zs <;> simp [merge, Value.isNull]

/-- At an uneven seam `merge` throws. -/
theorem merge_of_unevenSeam
    {a b v : Value}
    (h : UnevenSeam a b)
    (hcombine : combine a b = some v)
    {type : SpannerType}
    (hv : PartTyped type v) :
    merge type a b = none := by
  induction h generalizing v type with
  | here xs zs y ys hnotNull hnotList =>
      have hnone : combine (.list zs) y = none := by
        cases y with
        | list values => exact absurd rfl (hnotList values)
        | _ => simp [combine]
      rw [combine, combineLists_of_none hnone] at hcombine
      obtain rfl := Option.some.inj hcombine
      obtain ⟨element, htype, helement, -⟩ := elementType_of_partTyped hv
      rw [merge_lists htype, merge_uneven helement hnotNull hnotList]
      rfl
  | inside xs a b ys hinner ih =>
      obtain ⟨w, hw⟩ : ∃ w, combine a b = some w := by
        cases hinner <;> exact ⟨_, by rw [combine]⟩
      rw [combine, combineLists_of_some hw] at hcombine
      obtain rfl := Option.some.inj hcombine
      obtain ⟨element, htype, helement, -⟩ := elementType_of_partTyped hv
      rw [merge_lists htype, ih hw helement]
      rfl

/-- An empty seam leads to another value, or to an exception. -/
theorem merge_ne_of_emptySeam
    {a b v : Value}
    (h : EmptySeam a b)
    (hcombine : combine a b = some v)
    {type : SpannerType}
    (hv : PartTyped type v) :
    merge type a b ≠ some [v] := by
  induction h generalizing v type with
  | head ys =>
      intro hmerge
      obtain ⟨element, merged, -, hmerged, hvalue⟩ := merge_lists_some hmerge
      -- the result is longer than the two lists
      obtain rfl := merge_undefined_left (y := shift ys) hmerged
      have hys : v = .list ys := by
        simpa [combine, combineLists] using hcombine.symm
      have hlists := Value.list.inj (hys.symm.trans hvalue)
      have hlength := congrArg List.length hlists
      simp at hlength
      omega
  | tail xs =>
      intro hmerge
      obtain ⟨element, merged, -, hmerged, hvalue⟩ := merge_lists_some hmerge
      obtain rfl := merge_undefined_right (x := pop xs) hmerged
      have hxs : v = .list xs := by
        simpa [combine] using hcombine.symm
      have hlists := Value.list.inj (hxs.symm.trans hvalue)
      have hlength := congrArg List.length hlists
      simp at hlength
      omega
  | inside xs a b ys hinner ih =>
      intro hmerge
      obtain ⟨w, hw⟩ : ∃ w, combine a b = some w := by
        cases hinner <;> exact ⟨_, by rw [combine]⟩
      rw [combine, combineLists_of_some hw] at hcombine
      obtain rfl := Option.some.inj hcombine
      obtain ⟨element, htype, helement, -⟩ := elementType_of_partTyped hv
      rw [merge_lists htype, Option.map_eq_some_iff] at hmerge
      obtain ⟨merged, hmerged, hvalue⟩ := hmerge
      rw [List.cons.injEq, Value.list.injEq, List.append_assoc,
        List.append_cancel_left_eq] at hvalue
      have hone : merged = [w] := by
        have hlists : merged ++ ys = [w] ++ ys := hvalue.1
        exact List.append_cancel_right hlists
      exact ih hw helement (hone ▸ hmerged)

/-- The cuts of a typed value are the fragments that combine to it with no bad
seam. -/
theorem splits_iff
    {type : SpannerType} {v : Value}
    (hv : PartTyped type v)
    (a b : Value) :
    Splits type v a b ↔ combine a b = some v ∧ ¬ BadSeam a b := by
  constructor
  · intro h
    have hcombine := combine_of_splits h hv
    refine ⟨hcombine, ?_⟩
    rw [badSeam_iff]
    rintro (hempty | huneven)
    · exact merge_ne_of_emptySeam hempty hcombine hv (merge_splits h)
    · have hnone := merge_of_unevenSeam huneven hcombine hv
      rw [merge_splits h] at hnone
      cases hnone
  · rintro ⟨hcombine, hseam⟩
    exact splits_of_combine hcombine hseam hv

/--
Two fragments that the rules combine to a value of the type, or to the beginning
of one, are merged to that value exactly if no seam is bad.
-/
theorem merge_iff_not_badSeam
    (type : SpannerType) (a b v : Value)
    (hcombine : combine a b = some v)
    (hv : PartTyped type v) :
    merge type a b = some [v] ↔ ¬ BadSeam a b := by
  constructor
  · intro hmerge
    rw [badSeam_iff]
    rintro (hempty | huneven)
    · exact merge_ne_of_emptySeam hempty hcombine hv hmerge
    · rw [merge_of_unevenSeam huneven hcombine hv] at hmerge
      cases hmerge
  · intro hseam
    exact merge_splits ((splits_iff hv a b).mpr ⟨hcombine, hseam⟩)

/-- A name and a list of lines, cut inside a line. -/
def addressType : SpannerType :=
  .struct [.scalar "STRING", .array (.scalar "STRING")]

def addressHead : Value :=
  .list [.string "Ada", .list [.string "12 Main", .string "Spring"]]

def addressTail : Value :=
  .list [.list [.string "field"]]

def address : Value :=
  .list [.string "Ada", .list [.string "12 Main", .string "Springfield"]]

theorem address_typed :
    WellTyped addressType address := by
  refine .struct _ _ rfl ?_
  intro i type v htype hv
  match i with
  | 0 =>
      obtain rfl := Option.some.inj htype
      obtain rfl := Option.some.inj hv
      exact .string _ _
  | 1 =>
      obtain rfl := Option.some.inj htype
      obtain rfl := Option.some.inj hv
      refine .array _ _ ?_
      intro line hline
      obtain rfl | rfl :
          line = .string "12 Main" ∨ line = .string "Springfield" := by
        simpa using hline
      · exact .string _ _
      · exact .string _ _
  | i + 2 => simp at htype

theorem merge_iff_not_badSeam_address :
    merge addressType addressHead addressTail = some [address] ↔
      ¬ BadSeam addressHead addressTail :=
  merge_iff_not_badSeam addressType addressHead addressTail address
    (by simp [combine, combineLists, addressHead, addressTail, address])
    address_typed.part

/-- The list is continued by an empty one, and ends in `undefined`. -/
theorem emptyTail_not_combined :
    ¬ ∀ (type : SpannerType) (a b v : Value),
      combine a b = some v → WellTyped type v →
        merge type a b = some [v] := by
  intro h
  have hmerge :=
    h (.array (.scalar "STRING")) (.list [.string "a"]) (.list [])
      (.list [.string "a"]) (by simp [combine])
      (.array _ _ fun v hv => by
        obtain rfl := List.mem_singleton.mp hv
        exact .string _ _)
  simp [merge, mergeScalars, Value.isNull, pop, shift, splice] at hmerge

end ResultStream
end SpannerClient
