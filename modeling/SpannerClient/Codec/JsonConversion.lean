import SpannerClient.Codec.IntervalParsing
import SpannerClient.Codec.RoundTrip
import SpannerClient.Machine.Containers

/-!
# The JSON of a row

`row.toJSON` goes through the columns, structs and arrays of a row and turns each
wrapped number into a JavaScript number, which is a double.  `valueOf` of an
integer throws where the double is above the safe integers; there is no check
below them.

The model follows the conversion with its options, down to the message of the error
and the field names in it.  `Reaches` lists the wrapped numbers that it comes to,
and `Exact` what is demanded of the result, by the same recursion; where every
integer reached is exact so is the result (`exact_of_integers`), and an error is
that of one of them (`reaches_of_error`).

The main result is `unaltered_iff`: the integers of a row are unaltered exactly if
numbers are wrapped, or one of them is above the safe integers, or those below are
doubles.
-/

namespace SpannerClient
namespace Codec

open Machine
open SpannerClient.Codec.Interval (MAX_SAFE_INTEGER double lt_double_iff)

/-! ## The model -/

/-- `JSONOptions`, with the defaults. -/
structure JSONOptions where
  wrapNumbers : Bool := false
  wrapStructs : Bool := false
  includeNameless : Bool := false
deriving DecidableEq, Repr

/-- The text of an integer. -/
def intText
    (n : Int) : String :=
  String.ofList (printInt n)

/-- What the conversion calls. -/
structure Conversion
    (L : Leaves) where
  /-- `Number(value)`. -/
  toNumber : Raw L.Number → L.Number
  /-- `num > Number.MAX_SAFE_INTEGER`. -/
  aboveSafe : L.Number → Bool
  /-- The integer that a number is. -/
  integer : L.Number → Option Int
  /-- The text of a 64-bit integer gives the double next to it. -/
  integer_toNumber :
    ∀ n : Int, n.natAbs ≤ 2 ^ 63 →
      integer (toNumber (.string (intText n))) = some (double n)
  aboveSafe_iff :
    ∀ x n, integer x = some n →
      (aboveSafe x = true ↔ (MAX_SAFE_INTEGER : Int) < n)
  /-- `toJSON` of a `ProtoMessage`. -/
  messageToJSON : L.Buffer → String → L.Json
  /-- `toJSON` of a `ProtoEnum`. -/
  enumToJSON : Raw L.Number → String → L.Json

/-- The two classes of integers. -/
inductive IntegerClass where
  | int
  | pgOid
deriving DecidableEq, Repr

/-- As the class is called in messages. -/
def IntegerClass.label : IntegerClass → String
  | .int => "Integer"
  | .pgOid => "PG.OID"

/-- What the conversion throws; each column adds to the message. -/
inductive JsonError where
  | outOfBounds (kind : IntegerClass) (text : String)
  | column (fieldName : String) (err : JsonError)
deriving DecidableEq, Repr

/-- The message of the `GoogleError`. -/
def JsonError.message : JsonError → String
  | .outOfBounds kind text => kind.label ++ " " ++ text ++ " is out of bounds."
  | .column fieldName err =>
      " ".intercalate
        ["Serializing column \"" ++ fieldName ++ "\" encountered an error: " ++
            err.message,
          "Call row.toJSON(\x7b wrapNumbers: true \x7d) to receive a custom type."]

/-- The integer that the error is about. -/
def JsonError.cause : JsonError → IntegerClass × String
  | .outOfBounds kind text => (kind, text)
  | .column _ err => err.cause

/-- What a value becomes. -/
inductive Converted
    (L : Leaves) where
  /-- The value itself. -/
  | value (v : Value L)
  | number (x : L.Number)
  | json (j : L.Json)
  | array (values : List (Converted L))
  /-- A `Struct`, by its fields. -/
  | struct (fields : List (String × Converted L))
  /-- An object, by the assignments to its properties, in their order. -/
  | object (assigned : List (String × Converted L))

variable {L : Leaves}

/-- `valueOf` of an integer. -/
def integerValueOf
    (C : Conversion L) (kind : IntegerClass) (text : String) :
    Except JsonError L.Number :=
  let num := C.toNumber (.string text)
  if C.aboveSafe num then .error (.outOfBounds kind text) else .ok num

/-- `name ? name : _index`. -/
def fieldNameOf
    (name : String) (index : Nat) : String :=
  if name = "" then "_" ++ index.repr else name

/-- The column is not skipped. -/
def JSONOptions.includes
    (options : JSONOptions) (name : String) : Bool :=
  options.includeNameless || name != ""

mutual

/-- `convertValueToJson`. -/
def convertValueToJson
    (C : Conversion L) (options : JSONOptions) :
    Value L → Except JsonError (Converted L)
  | .float32 value =>
      .ok
        (if options.wrapNumbers then .value (.float32 value)
        else .number (C.toNumber value))
  | .float value =>
      .ok
        (if options.wrapNumbers then .value (.float value)
        else .number (C.toNumber value))
  | .int text =>
      if options.wrapNumbers then .ok (.value (.int text))
      else (integerValueOf C .int text).map .number
  | .pgOid text =>
      if options.wrapNumbers then .ok (.value (.pgOid text))
      else (integerValueOf C .pgOid text).map .number
  | .struct fields =>
      if options.wrapStructs then (mapFields C options fields).map .struct
      else (convertFields C options 0 fields).map .object
  | .array values => (convertValues C options values).map .array
  | .protoMessage value fullName => .ok (.json (C.messageToJSON value fullName))
  | .protoEnum value fullName => .ok (.json (C.enumToJSON value fullName))
  | .null => .ok (.value .null)
  | .undefined => .ok (.value .undefined)
  | .boolean b => .ok (.value (.boolean b))
  | .number x => .ok (.value (.number x))
  | .string s => .ok (.value (.string s))
  | .numeric value => .ok (.value (.numeric value))
  | .pgNumeric value => .ok (.value (.pgNumeric value))
  | .buffer b => .ok (.value (.buffer b))
  | .preciseDate d => .ok (.value (.preciseDate d))
  | .spannerDate d => .ok (.value (.spannerDate d))
  | .json j => .ok (.value (.json j))
  | .pgJsonb value => .ok (.value (.pgJsonb value))
  | .interval i => .ok (.value (.interval i))

/-- The loop of `convertFieldsToJson`, from an index on. -/
def convertFields
    (C : Conversion L) (options : JSONOptions) :
    Nat → List (String × Value L) →
      Except JsonError (List (String × Converted L))
  | _, [] => .ok []
  | index, (name, value) :: fields =>
      if options.includes name then
        match convertValueToJson C options value with
        | .error err => .error (.column (fieldNameOf name index) err)
        | .ok json =>
            (convertFields C options (index + 1) fields).map fun rest =>
              (fieldNameOf name index, json) :: rest
      else
        convertFields C options index fields

/-- The fields of a struct that is kept. -/
def mapFields
    (C : Conversion L) (options : JSONOptions) :
    List (String × Value L) → Except JsonError (List (String × Converted L))
  | [] => .ok []
  | (name, value) :: fields =>
      match convertValueToJson C options value with
      | .error err => .error err
      | .ok json =>
          (mapFields C options fields).map fun rest => (name, json) :: rest

/-- The elements of an array. -/
def convertValues
    (C : Conversion L) (options : JSONOptions) :
    List (Value L) → Except JsonError (List (Converted L))
  | [] => .ok []
  | value :: values =>
      match convertValueToJson C options value with
      | .error err => .error err
      | .ok json =>
          (convertValues C options values).map fun rest => json :: rest

end

/-- `convertFieldsToJson`. -/
def convertFieldsToJson
    (C : Conversion L) (fields : List (String × Value L))
    (options : JSONOptions) : Except JsonError (Converted L) :=
  (convertFields C options 0 fields).map .object

/-! ## What is reached, and what it becomes -/

/-- An integer as a value. -/
def IntegerClass.value : IntegerClass → String → Value L
  | .int, text => .int text
  | .pgOid, text => .pgOid text

theorem IntegerClass.value_injective
    {kind kind' : IntegerClass} {text text' : String}
    (h : (kind.value text : Value L) = kind'.value text') :
    kind = kind' ∧ text = text' := by
  cases kind <;> cases kind' <;> simp [IntegerClass.value] at h <;>
    exact ⟨rfl, h⟩

/-- The value is no integer, and nothing is in it. -/
def Value.isOther : Value L → Bool
  | .int _ => false
  | .pgOid _ => false
  | .struct _ => false
  | .array _ => false
  | _ => true

/-- The columns that are not skipped. -/
def JSONOptions.included
    (options : JSONOptions) (fields : List (String × Value L)) :
    List (String × Value L) :=
  fields.filter fun field => options.includes field.1

/-- Converting the first value converts the second. -/
inductive Reaches
    (options : JSONOptions) : Value L → Value L → Prop where
  | here (v : Value L) : Reaches options v v
  | element {values : List (Value L)} {v leaf : Value L}
      (hv : v ∈ values)
      (h : Reaches options v leaf) :
      Reaches options (.array values) leaf
  | kept {fields : List (String × Value L)} {field : String × Value L}
      {leaf : Value L}
      (hwrap : options.wrapStructs = true)
      (hfield : field ∈ fields)
      (h : Reaches options field.2 leaf) :
      Reaches options (.struct fields) leaf
  | included {fields : List (String × Value L)} {field : String × Value L}
      {leaf : Value L}
      (hwrap : options.wrapStructs = false)
      (hfield : field ∈ options.included fields)
      (h : Reaches options field.2 leaf) :
      Reaches options (.struct fields) leaf

/-- Every integer is kept in its wrapper, if that is asked for, or is the number
that it has become. -/
inductive Exact
    (C : Conversion L) (options : JSONOptions) :
    Value L → Converted L → Prop where
  | wrapped (kind : IntegerClass) (text : String)
      (hwrap : options.wrapNumbers = true) :
      Exact C options (kind.value text) (.value (kind.value text))
  | number (kind : IntegerClass) (n : Int) (x : L.Number)
      (hwrap : options.wrapNumbers = false)
      (hx : C.integer x = some n) :
      Exact C options (kind.value (intText n)) (.number x)
  | other (v : Value L) (json : Converted L)
      (hv : v.isOther = true) :
      Exact C options v json
  | array {values : List (Value L)} {jsons : List (Converted L)}
      (h : List.Forall₂ (Exact C options) values jsons) :
      Exact C options (.array values) (.array jsons)
  | kept {fields : List (String × Value L)}
      {jsons : List (String × Converted L)}
      (hwrap : options.wrapStructs = true)
      (hnames : fields.map Prod.fst = jsons.map Prod.fst)
      (h :
        List.Forall₂ (fun field json => Exact C options field.2 json.2)
          fields jsons) :
      Exact C options (.struct fields) (.struct jsons)
  | included {fields : List (String × Value L)}
      {jsons : List (String × Converted L)}
      (hwrap : options.wrapStructs = false)
      (h :
        List.Forall₂ (fun field json => Exact C options field.2 json.2)
          (options.included fields) jsons) :
      Exact C options (.struct fields) (.object jsons)

/-- What is proved for the elements of arrays and the fields of structs, and for
the values in which nothing is. -/
@[elab_as_elim]
theorem Value.nested_induction
    {motive : Value L → Prop}
    (integer : ∀ kind text, motive (IntegerClass.value kind text))
    (other : ∀ v : Value L, v.isOther = true → motive v)
    (array : ∀ values, (∀ v ∈ values, motive v) → motive (.array values))
    (struct :
      ∀ fields, (∀ field ∈ fields, motive field.2) → motive (.struct fields)) :
    ∀ v, motive v
  | .array values =>
      array values fun v _ =>
        Value.nested_induction integer other array struct v
  | .struct fields =>
      struct fields fun field hfield =>
        have : sizeOf field.2 < 1 + sizeOf fields := by
          have hsize := List.sizeOf_lt_of_mem hfield
          obtain ⟨name, v⟩ := field
          simp only [Prod.mk.sizeOf_spec] at hsize ⊢
          omega
        Value.nested_induction integer other array struct field.2
  | .int text => integer .int text
  | .pgOid text => integer .pgOid text
  | .null => other _ rfl
  | .undefined => other _ rfl
  | .boolean _ => other _ rfl
  | .number _ => other _ rfl
  | .string _ => other _ rfl
  | .float32 _ => other _ rfl
  | .float _ => other _ rfl
  | .numeric _ => other _ rfl
  | .pgNumeric _ => other _ rfl
  | .buffer _ => other _ rfl
  | .preciseDate _ => other _ rfl
  | .spannerDate _ => other _ rfl
  | .json _ => other _ rfl
  | .pgJsonb _ => other _ rfl
  | .interval _ => other _ rfl
  | .protoMessage _ _ => other _ rfl
  | .protoEnum _ _ => other _ rfl

/-! ## One value -/

section Values

variable (C : Conversion L) (options : JSONOptions)

theorem convertValueToJson_integer
    (kind : IntegerClass) (text : String) :
    convertValueToJson C options (kind.value text) =
      if options.wrapNumbers then .ok (.value (kind.value text))
      else (integerValueOf C kind text).map .number := by
  cases kind <;> simp [IntegerClass.value, convertValueToJson]

/-- Nothing is thrown for a value that has no integers. -/
theorem convertValueToJson_other
    {v : Value L}
    (hv : v.isOther = true) :
    ∃ json, convertValueToJson C options v = .ok json := by
  cases v <;> simp [Value.isOther] at hv <;> simp [convertValueToJson]

/-- One column of `convertFieldsToJson`. -/
def convertColumn
    (column : (String × Value L) × Nat) :
    Except JsonError (String × Converted L) :=
  match convertValueToJson C options column.1.2 with
  | .error err => .error (.column (fieldNameOf column.1.1 column.2) err)
  | .ok json => .ok (fieldNameOf column.1.1 column.2, json)

theorem convertValues_eq
    (values : List (Value L)) :
    convertValues C options values =
      values.mapM (convertValueToJson C options) := by
  induction values with
  | nil => rw [convertValues, List.mapM_nil]; rfl
  | cons v values ih =>
      rw [convertValues, List.mapM_cons, ih]
      cases convertValueToJson C options v with
      | error err => rfl
      | ok json => cases values.mapM (convertValueToJson C options) <;> rfl

theorem mapFields_eq
    (fields : List (String × Value L)) :
    mapFields C options fields =
      fields.mapM fun field =>
        (convertValueToJson C options field.2).map fun json =>
          (field.1, json) := by
  induction fields with
  | nil => rw [mapFields, List.mapM_nil]; rfl
  | cons field fields ih =>
      rw [mapFields, List.mapM_cons, ih]
      cases convertValueToJson C options field.2 with
      | error err => rfl
      | ok json =>
          generalize
            (fields.mapM fun field =>
              (convertValueToJson C options field.2).map fun json =>
                (field.1, json)) = rest
          cases rest <;> rfl

/-- The columns that are not skipped are numbered, and converted one by one. -/
theorem convertFields_eq
    (index : Nat) (fields : List (String × Value L)) :
    convertFields C options index fields =
      ((options.included fields).zipIdx index).mapM
        (convertColumn C options) := by
  induction fields generalizing index with
  | nil =>
      rw [convertFields]
      rfl
  | cons field fields ih =>
      rw [convertFields, JSONOptions.included, List.filter_cons]
      split
      · rw [List.zipIdx_cons, List.mapM_cons, ih, convertColumn]
        cases convertValueToJson C options field.2 with
        | error err => rfl
        | ok json =>
            rw [JSONOptions.included]
            generalize
              (List.mapM (convertColumn C options)
                ((fields.filter fun field =>
                  options.includes field.1).zipIdx (index + 1))) = rest
            cases rest <;> rfl
      · exact ih index

variable {C options}

/-- Fields that are not skipped become what their values become. -/
theorem convertFields_ok
    {index : Nat} {fields : List (String × Value L)}
    {jsons : List (String × Converted L)}
    (h : convertFields C options index fields = .ok jsons) :
    List.Forall₂
      (fun field json => convertValueToJson C options field.2 = .ok json.2)
      (options.included fields) jsons := by
  rw [convertFields_eq] at h
  rw [← List.zipIdx_map_fst index (options.included fields),
    List.forall₂_map_left_iff]
  refine (forall₂_of_mapM_ok h).imp ?_
  intro column json hcolumn
  rw [convertColumn] at hcolumn
  split at hcolumn
  · cases hcolumn
  · rename_i json' hjson
    cases hcolumn
    exact hjson

/-- What is thrown for a column is about an integer in it. -/
theorem convertFields_error
    {index : Nat} {fields : List (String × Value L)} {err : JsonError}
    (h : convertFields C options index fields = .error err) :
    ∃ field ∈ options.included fields, ∃ inner,
      convertValueToJson C options field.2 = .error inner ∧
        err.cause = inner.cause := by
  rw [convertFields_eq] at h
  obtain ⟨column, hcolumn, herr⟩ := exists_of_mapM_error h
  rw [convertColumn] at herr
  split at herr
  · rename_i inner hinner
    cases herr
    have hfield : column.1 ∈ options.included fields := by
      rw [← List.zipIdx_map_fst index (options.included fields)]
      exact List.mem_map_of_mem hcolumn
    exact ⟨column.1, hfield, inner, hinner, rfl⟩
  · cases herr

theorem mapFields_ok
    {fields : List (String × Value L)}
    {jsons : List (String × Converted L)}
    (h : mapFields C options fields = .ok jsons) :
    List.Forall₂
      (fun field json =>
        field.1 = json.1 ∧ convertValueToJson C options field.2 = .ok json.2)
      fields jsons := by
  rw [mapFields_eq] at h
  refine (forall₂_of_mapM_ok h).imp ?_
  intro field json hfield
  cases hjson : convertValueToJson C options field.2 with
  | error err =>
      rw [hjson] at hfield
      cases hfield
  | ok json' =>
      rw [hjson] at hfield
      cases hfield
      exact ⟨rfl, rfl⟩

theorem mapFields_error
    {fields : List (String × Value L)} {err : JsonError}
    (h : mapFields C options fields = .error err) :
    ∃ field ∈ fields, convertValueToJson C options field.2 = .error err := by
  rw [mapFields_eq] at h
  obtain ⟨field, hfield, herr⟩ := exists_of_mapM_error h
  refine ⟨field, hfield, ?_⟩
  cases hjson : convertValueToJson C options field.2 with
  | error err' =>
      rw [hjson] at herr
      cases herr
      rfl
  | ok json =>
      rw [hjson] at herr
      cases herr

theorem convertValues_ok
    {values : List (Value L)} {jsons : List (Converted L)}
    (h : convertValues C options values = .ok jsons) :
    List.Forall₂ (fun v json => convertValueToJson C options v = .ok json)
      values jsons :=
  forall₂_of_mapM_ok (convertValues_eq C options values ▸ h)

theorem convertValues_error
    {values : List (Value L)} {err : JsonError}
    (h : convertValues C options values = .error err) :
    ∃ v ∈ values, convertValueToJson C options v = .error err :=
  exists_of_mapM_error (convertValues_eq C options values ▸ h)

/-! ## Arrays and structs -/

theorem exact_array
    {values : List (Value L)} {json : Converted L}
    (h : Exact C options (.array values) json) :
    ∃ jsons, json = .array jsons ∧
      List.Forall₂ (Exact C options) values jsons := by
  generalize hv : Value.array values = v at h
  cases h with
  | wrapped kind => cases kind <;> cases hv
  | number kind => cases kind <;> cases hv
  | other v json hother =>
      subst hv
      cases hother
  | array h =>
      cases hv
      exact ⟨_, rfl, h⟩
  | kept => cases hv
  | included => cases hv

theorem exact_struct
    {fields : List (String × Value L)} {json : Converted L}
    (h : Exact C options (.struct fields) json) :
    (∃ jsons, options.wrapStructs = true ∧ json = .struct jsons ∧
        List.Forall₂ (fun field json => Exact C options field.2 json.2)
          fields jsons) ∨
      ∃ jsons, options.wrapStructs = false ∧ json = .object jsons ∧
        List.Forall₂ (fun field json => Exact C options field.2 json.2)
          (options.included fields) jsons := by
  generalize hv : Value.struct fields = v at h
  cases h with
  | wrapped kind => cases kind <;> cases hv
  | number kind => cases kind <;> cases hv
  | other v json hother =>
      subst hv
      cases hother
  | array => cases hv
  | kept hwrap _ h =>
      cases hv
      exact Or.inl ⟨_, hwrap, rfl, h⟩
  | included hwrap h =>
      cases hv
      exact Or.inr ⟨_, hwrap, rfl, h⟩

/-- The conversion of an array converts its elements. -/
theorem convertValueToJson_array
    {values : List (Value L)} {json : Converted L}
    (h : convertValueToJson C options (.array values) = .ok json) :
    ∃ jsons, json = .array jsons ∧
      List.Forall₂ (fun v json => convertValueToJson C options v = .ok json)
        values jsons := by
  rw [convertValueToJson] at h
  cases hvalues : convertValues C options values with
  | error err =>
      rw [hvalues] at h
      cases h
  | ok jsons =>
      rw [hvalues] at h
      cases h
      exact ⟨jsons, rfl, convertValues_ok hvalues⟩

theorem convertValueToJson_struct
    {fields : List (String × Value L)} {json : Converted L}
    (h : convertValueToJson C options (.struct fields) = .ok json) :
    (∃ jsons, options.wrapStructs = true ∧ json = .struct jsons ∧
        List.Forall₂
          (fun field json =>
            field.1 = json.1 ∧
              convertValueToJson C options field.2 = .ok json.2)
          fields jsons) ∨
      ∃ jsons, options.wrapStructs = false ∧ json = .object jsons ∧
        List.Forall₂
          (fun field json =>
            convertValueToJson C options field.2 = .ok json.2)
          (options.included fields) jsons := by
  rw [convertValueToJson] at h
  split at h
  · rename_i hwrap
    cases hfields : mapFields C options fields with
    | error err =>
        rw [hfields] at h
        cases h
    | ok jsons =>
        rw [hfields] at h
        cases h
        exact Or.inl ⟨jsons, hwrap, rfl, mapFields_ok hfields⟩
  · rename_i hwrap
    cases hfields : convertFields C options 0 fields with
    | error err =>
        rw [hfields] at h
        cases h
    | ok jsons =>
        rw [hfields] at h
        cases h
        exact
          Or.inr
            ⟨jsons, Bool.eq_false_iff.mpr hwrap, rfl,
              convertFields_ok hfields⟩

/-- What is reached has been converted, and exactly if all has. -/
theorem ok_of_reaches
    {v leaf : Value L} {json : Converted L}
    (h : Reaches options v leaf)
    (hok : convertValueToJson C options v = .ok json) :
    ∃ json', convertValueToJson C options leaf = .ok json' ∧
      (Exact C options v json → Exact C options leaf json') := by
  induction h generalizing json with
  | here v => exact ⟨json, hok, id⟩
  | element hv _ ih =>
      obtain ⟨jsons, rfl, hjsons⟩ := convertValueToJson_array hok
      obtain ⟨json, hzip⟩ := exists_zip_of_mem hjsons.length_eq hv
      obtain ⟨json', hleaf, hexact⟩ := ih (List.forall₂_zip hjsons hzip)
      refine ⟨json', hleaf, fun h => hexact ?_⟩
      obtain ⟨jsons', heq, hall⟩ := exact_array h
      cases heq
      exact List.forall₂_zip hall hzip
  | kept hwrap hfield _ ih =>
      rcases convertValueToJson_struct hok with
        ⟨jsons, -, rfl, hjsons⟩ | ⟨jsons, hnot, -, -⟩
      · obtain ⟨json, hzip⟩ := exists_zip_of_mem hjsons.length_eq hfield
        obtain ⟨json', hleaf, hexact⟩ := ih (List.forall₂_zip hjsons hzip).2
        refine ⟨json', hleaf, fun h => hexact ?_⟩
        rcases exact_struct h with
          ⟨jsons', -, heq, hall⟩ | ⟨jsons', -, heq, -⟩
        · cases heq
          exact List.forall₂_zip hall hzip
        · cases heq
      · rw [hwrap] at hnot
        cases hnot
  | included hwrap hfield _ ih =>
      rcases convertValueToJson_struct hok with
        ⟨jsons, hnot, -, -⟩ | ⟨jsons, -, rfl, hjsons⟩
      · rw [hwrap] at hnot
        cases hnot
      · obtain ⟨json, hzip⟩ := exists_zip_of_mem hjsons.length_eq hfield
        obtain ⟨json', hleaf, hexact⟩ := ih (List.forall₂_zip hjsons hzip)
        refine ⟨json', hleaf, fun h => hexact ?_⟩
        rcases exact_struct h with
          ⟨jsons', -, heq, -⟩ | ⟨jsons', -, heq, hall⟩
        · cases heq
        · cases heq
          exact List.forall₂_zip hall hzip

/-- All is converted exactly if the integers are that are reached. -/
theorem exact_of_integers
    {v : Value L} {json : Converted L}
    (hok : convertValueToJson C options v = .ok json)
    (hintegers :
      ∀ kind text json', Reaches options v (IntegerClass.value kind text) →
        convertValueToJson C options (IntegerClass.value kind text) =
            .ok json' →
          Exact C options (IntegerClass.value kind text) json') :
    Exact C options v json := by
  induction v using Value.nested_induction generalizing json with
  | integer kind text => exact hintegers kind text json (.here _) hok
  | other v hv => exact .other v json hv
  | array values ih =>
      obtain ⟨jsons, rfl, hjsons⟩ := convertValueToJson_array hok
      refine .array (List.forall₂_iff_zip.mpr ⟨hjsons.length_eq, ?_⟩)
      intro v json hzip
      have hv := (List.of_mem_zip hzip).1
      exact
        ih v hv (List.forall₂_zip hjsons hzip) fun kind text json' h =>
          hintegers kind text json' (.element hv h)
  | struct fields ih =>
      rcases convertValueToJson_struct hok with
        ⟨jsons, hwrap, rfl, hjsons⟩ | ⟨jsons, hwrap, rfl, hjsons⟩
      · refine .kept hwrap ?_ ?_
        · exact
            List.forall₂_eq_eq_eq ▸
              List.forall₂_map_left_iff.mpr
                (List.forall₂_map_right_iff.mpr (hjsons.imp fun _ _ h => h.1))
        · refine List.forall₂_iff_zip.mpr ⟨hjsons.length_eq, ?_⟩
          intro field json hzip
          have hfield := (List.of_mem_zip hzip).1
          exact
            ih field hfield (List.forall₂_zip hjsons hzip).2
              fun kind text json' h =>
                hintegers kind text json' (.kept hwrap hfield h)
      · refine .included hwrap (List.forall₂_iff_zip.mpr ⟨hjsons.length_eq, ?_⟩)
        intro field json hzip
        have hfield := (List.of_mem_zip hzip).1
        exact
          ih field (List.mem_of_mem_filter hfield)
            (List.forall₂_zip hjsons hzip) fun kind text json' h =>
              hintegers kind text json' (.included hwrap hfield h)

/-- The integer that an error is about is reached, and above the safe ones. -/
theorem reaches_of_error
    {v : Value L} {err : JsonError}
    (h : convertValueToJson C options v = .error err) :
    options.wrapNumbers = false ∧
      Reaches options v (err.cause.1.value err.cause.2) ∧
      C.aboveSafe (C.toNumber (.string err.cause.2)) = true := by
  induction v using Value.nested_induction generalizing err with
  | integer kind text =>
      rw [convertValueToJson_integer] at h
      split at h
      · cases h
      · rename_i hwrap
        unfold integerValueOf at h
        dsimp only at h
        split at h
        · rename_i habove
          cases h
          exact ⟨Bool.eq_false_iff.mpr hwrap, .here _, habove⟩
        · cases h
  | other v hv =>
      obtain ⟨json, hok⟩ := convertValueToJson_other C options hv
      rw [hok] at h
      cases h
  | array values ih =>
      rw [convertValueToJson] at h
      cases hvalues : convertValues C options values with
      | error err' =>
          rw [hvalues] at h
          cases h
          obtain ⟨v, hv, herr⟩ := convertValues_error hvalues
          obtain ⟨hwrap, hreach, habove⟩ := ih v hv herr
          exact ⟨hwrap, .element hv hreach, habove⟩
      | ok jsons =>
          rw [hvalues] at h
          cases h
  | struct fields ih =>
      rw [convertValueToJson] at h
      split at h
      · rename_i hwrap
        cases hfields : mapFields C options fields with
        | error err' =>
            rw [hfields] at h
            cases h
            obtain ⟨field, hfield, herr⟩ := mapFields_error hfields
            obtain ⟨hnumbers, hreach, habove⟩ := ih field hfield herr
            exact ⟨hnumbers, .kept hwrap hfield hreach, habove⟩
        | ok jsons =>
            rw [hfields] at h
            cases h
      · rename_i hwrap
        cases hfields : convertFields C options 0 fields with
        | error err' =>
            rw [hfields] at h
            cases h
            obtain ⟨field, hfield, inner, herr, hcause⟩ :=
              convertFields_error hfields
            obtain ⟨hnumbers, hreach, habove⟩ :=
              ih field (List.mem_of_mem_filter hfield) herr
            rw [hcause]
            exact
              ⟨hnumbers,
                .included (Bool.eq_false_iff.mpr hwrap) hfield hreach,
                habove⟩
        | ok jsons =>
            rw [hfields] at h
            cases h

end Values

/-! ## Rows -/

theorem intText_injective
    {m n : Int}
    (h : intText m = intText n) :
    m = n := by
  have hread := readInt_printInt m noDigit_nil
  rw [String.ofList_inj.mp h, readInt_printInt n noDigit_nil] at hread
  exact (Prod.mk.inj (Option.some.inj hread)).1.symm

section Rows

variable (C : Conversion L) (options : JSONOptions)
variable (row : List (String × Value L))

/-- The conversion of a row reaches the integer. -/
def ReachesInteger
    (kind : IntegerClass) (text : String) : Prop :=
  ∃ field ∈ options.included row, Reaches options field.2 (kind.value text)

/-- The integers of a row, as far as they are reached, have 64 bits. -/
def Int64s : Prop :=
  ∀ kind text, ReachesInteger options row kind text →
    ∃ n : Int, text = intText n ∧ -2 ^ 63 ≤ n ∧ n < 2 ^ 63

/-- The integers of the row become numbers that are equal, or are kept, or the
out-of-bounds error is thrown for one of them. -/
structure Unaltered : Prop where
  converted :
    ∀ json, convertFieldsToJson C row options = .ok json →
      ∃ assigned, json = .object assigned ∧
        List.Forall₂ (fun field json => Exact C options field.2 json.2)
          (options.included row) assigned
  thrown :
    ∀ err, convertFieldsToJson C row options = .error err →
      ReachesInteger options row err.cause.1 err.cause.2 ∧
        ∃ n : Int, err.cause.2 = intText n ∧ (MAX_SAFE_INTEGER : Int) < n

/-- Some integer that is reached is above the safe ones. -/
def SomeAbove : Prop :=
  ∃ kind, ∃ n : Int, ReachesInteger options row kind (intText n) ∧
    (MAX_SAFE_INTEGER : Int) < n

/-- What is reached below the safe integers is a double. -/
def DoublesBelow : Prop :=
  ∀ kind, ∀ n : Int, ReachesInteger options row kind (intText n) →
    n < -(MAX_SAFE_INTEGER : Int) → double n = n

variable {C options row}

theorem natAbs_le_of_int64s
    (hrow : Int64s options row)
    {kind : IntegerClass} {n : Int}
    (h : ReachesInteger options row kind (intText n)) :
    n.natAbs ≤ 2 ^ 63 := by
  obtain ⟨m, htext, hlow, hhigh⟩ := hrow kind (intText n) h
  obtain rfl := intText_injective htext
  omega

theorem aboveSafe_iff_of_int64s
    (hrow : Int64s options row)
    {kind : IntegerClass} {n : Int}
    (h : ReachesInteger options row kind (intText n)) :
    C.aboveSafe (C.toNumber (.string (intText n))) = true ↔
      (MAX_SAFE_INTEGER : Int) < n :=
  (C.aboveSafe_iff _ _
    (C.integer_toNumber n (natAbs_le_of_int64s hrow h))).trans
    (lt_double_iff n)

/-- An integer that has been converted is not above the safe ones, and has become
the double next to it. -/
theorem number_of_ok
    (hwrap : options.wrapNumbers = false)
    (hrow : Int64s options row)
    {kind : IntegerClass} {n : Int} {json : Converted L}
    (h : ReachesInteger options row kind (intText n))
    (hok :
      convertValueToJson C options (kind.value (intText n)) = .ok json) :
    n ≤ (MAX_SAFE_INTEGER : Int) ∧
      ∃ x, json = .number x ∧ C.integer x = some (double n) := by
  rw [convertValueToJson_integer, hwrap, if_neg Bool.false_ne_true] at hok
  unfold integerValueOf at hok
  dsimp only at hok
  split at hok
  · cases hok
  · rename_i hnot
    cases hok
    rw [aboveSafe_iff_of_int64s hrow h] at hnot
    exact
      ⟨not_lt.mp hnot, _, rfl,
        C.integer_toNumber n (natAbs_le_of_int64s hrow h)⟩

/-- A number is exact if it is the integer itself. -/
theorem exact_number
    {kind : IntegerClass} {n : Int} {x : L.Number}
    (h : Exact C options (kind.value (intText n)) (.number x)) :
    C.integer x = some n := by
  generalize hv : (kind.value (intText n) : Value L) = v at h
  cases h with
  | number kind' m x hwrap hx =>
      rw [intText_injective (IntegerClass.value_injective hv).2]
      exact hx
  | other v json hother =>
      subst hv
      cases kind <;> cases hother

/-- What a row throws is about an integer that is reached. -/
theorem thrown_of_error
    (hrow : Int64s options row)
    {err : JsonError}
    (h : convertFields C options 0 row = .error err) :
    options.wrapNumbers = false ∧
      ReachesInteger options row err.cause.1 err.cause.2 ∧
      ∃ n : Int, err.cause.2 = intText n ∧ (MAX_SAFE_INTEGER : Int) < n := by
  obtain ⟨field, hfield, inner, hinner, hcause⟩ := convertFields_error h
  obtain ⟨hwrap, hreach, habove⟩ := reaches_of_error hinner
  rw [← hcause] at hreach habove
  have hreaches : ReachesInteger options row err.cause.1 err.cause.2 :=
    ⟨field, hfield, hreach⟩
  obtain ⟨n, htext, -, -⟩ := hrow _ _ hreaches
  refine ⟨hwrap, hreaches, n, htext, ?_⟩
  rw [htext] at hreaches habove
  exact (aboveSafe_iff_of_int64s hrow hreaches).mp habove

/-- What is reached in a row that has been converted has been converted. -/
theorem ok_of_row
    {assigned : List (String × Converted L)}
    (h : convertFields C options 0 row = .ok assigned)
    {kind : IntegerClass} {text : String}
    (hreach : ReachesInteger options row kind text) :
    ∃ json', convertValueToJson C options (kind.value text) = .ok json' ∧
      (List.Forall₂ (fun field json => Exact C options field.2 json.2)
          (options.included row) assigned →
        Exact C options (kind.value text) json') := by
  obtain ⟨field, hfield, hreaches⟩ := hreach
  have hall := convertFields_ok h
  obtain ⟨json, hzip⟩ := exists_zip_of_mem hall.length_eq hfield
  obtain ⟨json', hok, hexact⟩ :=
    ok_of_reaches hreaches (List.forall₂_zip hall hzip)
  exact ⟨json', hok, fun h => hexact (List.forall₂_zip h hzip)⟩

/-- A row that has been converted is exact if its integers are. -/
theorem exact_row
    {assigned : List (String × Converted L)}
    (h : convertFields C options 0 row = .ok assigned)
    (hintegers :
      ∀ kind text json', ReachesInteger options row kind text →
        convertValueToJson C options (kind.value text) = .ok json' →
          Exact C options (kind.value text) json') :
    List.Forall₂ (fun field json => Exact C options field.2 json.2)
      (options.included row) assigned := by
  have hall := convertFields_ok h
  refine List.forall₂_iff_zip.mpr ⟨hall.length_eq, ?_⟩
  intro field json hzip
  have hfield := (List.of_mem_zip hzip).1
  exact
    exact_of_integers (List.forall₂_zip hall hzip)
      fun kind text json' hreach =>
        hintegers kind text json' ⟨field, hfield, hreach⟩

/--
The integers of a row are unaltered exactly if numbers are wrapped, or one of them
is above the safe integers, or those below are doubles.
-/
theorem unaltered_iff
    (C : Conversion L) (options : JSONOptions)
    (row : List (String × Value L))
    (hrow : Int64s options row) :
    Unaltered C options row ↔
      options.wrapNumbers = true ∨ SomeAbove options row ∨
        DoublesBelow options row := by
  constructor
  · intro h
    by_cases hwrap : options.wrapNumbers = true
    · exact Or.inl hwrap
    · have hnumbers := Bool.eq_false_iff.mpr hwrap
      cases hconv : convertFields C options 0 row with
      | error err =>
          obtain ⟨-, hreach, n, htext, habove⟩ := thrown_of_error hrow hconv
          rw [htext] at hreach
          exact Or.inr (Or.inl ⟨_, n, hreach, habove⟩)
      | ok assigned =>
          have hjson :
              convertFieldsToJson C row options = .ok (.object assigned) := by
            rw [convertFieldsToJson, hconv]
            rfl
          obtain ⟨assigned', heq, hexact⟩ := h.converted _ hjson
          cases heq
          refine Or.inr (Or.inr ?_)
          intro kind n hreach _
          obtain ⟨json', hok, hleaf⟩ := ok_of_row hconv hreach
          obtain ⟨-, x, rfl, hx⟩ := number_of_ok hnumbers hrow hreach hok
          have hn := exact_number (hleaf hexact)
          rw [hx] at hn
          exact Option.some.inj hn
  · intro h
    constructor
    · intro json hjson
      cases hconv : convertFields C options 0 row with
      | error err =>
          rw [convertFieldsToJson, hconv] at hjson
          cases hjson
      | ok assigned =>
          rw [convertFieldsToJson, hconv] at hjson
          cases hjson
          refine ⟨assigned, rfl, exact_row hconv ?_⟩
          intro kind text json' hreach hok
          by_cases hwrap : options.wrapNumbers = true
          · rw [convertValueToJson_integer, if_pos hwrap] at hok
            cases hok
            exact .wrapped kind text hwrap
          · have hnumbers := Bool.eq_false_iff.mpr hwrap
            obtain ⟨n, rfl, -, -⟩ := hrow kind text hreach
            obtain ⟨hle, x, rfl, hx⟩ := number_of_ok hnumbers hrow hreach hok
            have hdouble : double n = n := by
              rcases h with hyes | ⟨kind', m, hreach', habove⟩ | hbelow
              · exact absurd hyes hwrap
              · obtain ⟨json'', hok', -⟩ := ok_of_row hconv hreach'
                have hnot := (number_of_ok hnumbers hrow hreach' hok').1
                exact absurd habove (not_lt.mpr hnot)
              · by_cases hlow : n < -(MAX_SAFE_INTEGER : Int)
                · exact hbelow kind n hreach hlow
                · exact Interval.double_of_safe (by omega)
            rw [hdouble] at hx
            exact .number kind n x hnumbers hx
    · intro err herr
      cases hconv : convertFields C options 0 row with
      | error err' =>
          rw [convertFieldsToJson, hconv] at herr
          cases herr
          exact (thrown_of_error hrow hconv).2
      | ok assigned =>
          rw [convertFieldsToJson, hconv] at herr
          cases herr

end Rows

/-- `Number` of the text of an integer. -/
def readDouble : Raw Int → Int
  | .string s => ((readInt s.toList).map fun r => double r.1).getD 0
  | _ => 0

/-- The numbers of `textLeaves` are integers, and only their texts are read. -/
def textConversion : Conversion textLeaves where
  toNumber := readDouble
  aboveSafe := fun x : Int => decide ((MAX_SAFE_INTEGER : Int) < x)
  integer := some
  integer_toNumber := by
    intro n _
    have hread := readInt_printInt n noDigit_nil
    rw [List.append_nil] at hread
    change some (((readInt (String.ofList (printInt n)).toList).map
      fun r => double r.1).getD 0) = some (double n)
    rw [String.toList_ofList, hread]
    rfl
  aboveSafe_iff := by
    intro (x : Int) n hx
    cases hx
    exact decide_eq_true_iff
  messageToJSON := fun value _ => value
  enumToJSON := fun _ fullName => fullName

/-- A number and a list with a number and a null. -/
def singerRow : List (String × Value textLeaves) :=
  [("SingerId", .int "42"), ("Numbers", .array [.pgOid "7", .null])]

theorem texts_of_singerRow
    {options : JSONOptions} {kind : IntegerClass} {text : String}
    (h : ReachesInteger options singerRow kind text) :
    text = intText 42 ∨ text = intText 7 := by
  obtain ⟨field, hfield, hreach⟩ := h
  have hmem := List.mem_of_mem_filter hfield
  rw [singerRow] at hmem
  generalize hleaf : (kind.value text : Value textLeaves) = leaf at hreach
  simp only [List.mem_cons, List.not_mem_nil, or_false] at hmem
  rcases hmem with rfl | rfl
  · cases hreach with
    | here =>
        cases kind <;> simp [IntegerClass.value] at hleaf
        exact Or.inl hleaf
  · cases hreach with
    | here => cases kind <;> simp [IntegerClass.value] at hleaf
    | element hv h =>
        simp only [List.mem_cons, List.not_mem_nil, or_false] at hv
        rcases hv with rfl | rfl
        · cases h with
          | here =>
              cases kind <;> simp [IntegerClass.value] at hleaf
              exact Or.inr hleaf
        · cases h with
          | here => cases kind <;> simp [IntegerClass.value] at hleaf

theorem singerRow_unaltered :
    Unaltered textConversion {} singerRow := by
  refine (unaltered_iff textConversion {} singerRow ?_).mpr ?_
  · intro kind text h
    rcases texts_of_singerRow h with htext | htext
    · exact ⟨42, htext, by decide, by decide⟩
    · exact ⟨7, htext, by decide, by decide⟩
  · refine Or.inr (Or.inr ?_)
    intro kind n h hlow
    rcases texts_of_singerRow h with htext | htext
    · obtain rfl := intText_injective htext
      exact absurd hlow (by decide)
    · obtain rfl := intText_injective htext
      exact absurd hlow (by decide)

/-- Below the safe integers nothing is thrown, and another number comes out. -/
theorem negativeRow_altered :
    ¬ Unaltered textConversion {} [("n", .int "-9007199254740993")] := by
  intro h
  have hconverted :
      convertFieldsToJson textConversion [("n", .int "-9007199254740993")] {} =
        .ok (.object [("n", .number (-9007199254740992 : Int))]) := by
    rfl
  obtain ⟨assigned, heq, hall⟩ := h.converted _ hconverted
  cases heq
  cases hall with
  | cons hexact _ =>
      have hvalue :
          Exact textConversion {}
            (IntegerClass.int.value (intText (-9007199254740993)))
            (.number (-9007199254740992 : Int)) :=
        hexact
      have hinteger := exact_number hvalue
      cases hinteger

end Codec
end SpannerClient
