import SpannerClient.Codec.RoundTrip
import SpannerClient.Machine.Containers

/-!
# The type of a parameter

A parameter sent without a type gets one in two steps.  `getType` gives the
class of the value a friendly name, and `createTypeObject` looks the name up in
the table of the codes and in the chain of the annotations.  The two share
nothing but the names.

A `PGJsonb` is given a name that neither the table nor the chain has.

`IsOfType` says which types a value has, through arrays and structs.  The main
result is `createTypeObject_getType_iff`, by induction on the value: the type that is
inferred for a value is one it has exactly if the value does not hold a `PGJsonb`
where the inference looks.
-/

namespace SpannerClient
namespace Codec

/-- `Type`: a friendly name and what some of the names need. -/
inductive FriendlyType where
  | mk (type : String) (fields : List (String × FriendlyType))
      (child : Option FriendlyType) (fullName : Option String)

/-- The friendly name alone. -/
def FriendlyType.named
    (type : String) : FriendlyType :=
  .mk type [] none none

/-- A code of the table: of a scalar, of an array or of a struct. -/
inductive FriendlyCode where
  | ofScalar (code : TypeCode)
  | ARRAY
  | STRUCT
deriving DecidableEq, Repr

/-- `TypeCode`: the friendly names and their codes. -/
def friendlyCodes : List (String × FriendlyCode) :=
  [("unspecified", .ofScalar .TYPE_CODE_UNSPECIFIED),
    ("bool", .ofScalar .BOOL),
    ("int64", .ofScalar .INT64),
    ("pgOid", .ofScalar .INT64),
    ("uuid", .ofScalar .UUID),
    ("float32", .ofScalar .FLOAT32),
    ("float64", .ofScalar .FLOAT64),
    ("numeric", .ofScalar .NUMERIC),
    ("pgNumeric", .ofScalar .NUMERIC),
    ("timestamp", .ofScalar .TIMESTAMP),
    ("date", .ofScalar .DATE),
    ("string", .ofScalar .STRING),
    ("bytes", .ofScalar .BYTES),
    ("json", .ofScalar .JSON),
    ("jsonb", .ofScalar .JSON),
    ("interval", .ofScalar .INTERVAL),
    ("proto", .ofScalar .PROTO),
    ("enum", .ofScalar .ENUM),
    ("array", .ARRAY),
    ("struct", .STRUCT)]

/-- `TypeCode[config.type] || TypeCode.unspecified`. -/
def friendlyCode
    (type : String) : FriendlyCode :=
  (friendlyCodes.lookup type).getD (.ofScalar .TYPE_CODE_UNSPECIFIED)

/-- The annotation that `createTypeObject` gives a friendly name. -/
def annotationCodeOf
    (type : String) : TypeAnnotationCode :=
  if type = "pgNumeric" then .PG_NUMERIC
  else if type = "jsonb" then .PG_JSONB
  else if type = "pgOid" then .PG_OID
  else .TYPE_ANNOTATION_CODE_UNSPECIFIED

/-- The type of what has no type. -/
def unspecifiedType : SpannerType :=
  .scalar .TYPE_CODE_UNSPECIFIED .TYPE_ANNOTATION_CODE_UNSPECIFIED ""

mutual

/-- `createTypeObject`. -/
def createTypeObject : FriendlyType → SpannerType
  | .mk type fields child fullName =>
      match friendlyCode type with
      | .ofScalar code =>
          .scalar code (annotationCodeOf type)
            (if code = .PROTO ∨ code = .ENUM then fullName.getD "" else "")
      | .ARRAY => .array (createChildTypeObject child)
      | .STRUCT => .struct (createFieldTypeObjects fields)

def createChildTypeObject : Option FriendlyType → SpannerType
  | none => unspecifiedType
  | some child => createTypeObject child

def createFieldTypeObjects :
    List (String × FriendlyType) → List (String × SpannerType)
  | [] => []
  | (name, field) :: fields =>
      (name, createTypeObject field) :: createFieldTypeObjects fields

end

/-- What `getType` asks of the environment. -/
structure Inference
    (L : Leaves) where
  /-- `isInfinite(value) || isNaN(value)`. -/
  isSpecialNumber : L.Number → Bool
  /-- `process.env['SPANNER_ENABLE_UUID_AS_UNTYPED'] === 'true'`. -/
  uuidAsUntyped : Bool
  /-- `uuid.validate`. -/
  validate : String → Bool

variable {L : Leaves}

mutual

/-- `getType`. -/
def getType
    (I : Inference L) : Value L → FriendlyType
  | .float32 _ => .named "float32"
  | .number x =>
      if L.isDecimal x || I.isSpecialNumber x then .named "float64"
      else .named "int64"
  | .float _ => .named "float64"
  | .int _ => .named "int64"
  | .numeric _ => .named "numeric"
  | .pgNumeric _ => .named "pgNumeric"
  | .pgJsonb _ => .named "pgJsonb"
  | .pgOid _ => .named "pgOid"
  | .interval _ => .named "interval"
  | .protoMessage _ fullName => .mk "proto" [] none (some fullName)
  | .protoEnum _ fullName => .mk "enum" [] none (some fullName)
  | .boolean _ => .named "bool"
  | .string s =>
      if I.uuidAsUntyped && I.validate s then .named "unspecified"
      else .named "string"
  | .buffer _ => .named "bytes"
  | .spannerDate _ => .named "date"
  | .preciseDate _ => .named "timestamp"
  | .struct fields => .mk "struct" (getFieldTypes I fields) none none
  | .array values => .mk "array" [] (some (getChildType I values)) none
  | .json _ => .named "json"
  | .null => .named "unspecified"
  | .undefined => .named "unspecified"

def getFieldTypes
    (I : Inference L) :
    List (String × Value L) → List (String × FriendlyType)
  | [] => []
  | (name, value) :: fields => (name, getType I value) :: getFieldTypes I fields

/-- The type of the first element that is not null, or else of the last one. -/
def getChildType
    (I : Inference L) : List (Value L) → FriendlyType
  | [] => .named "unspecified"
  | .null :: values => getChildType I values
  | value :: _ => getType I value

end

/-! ## The types of values -/

/-- The type of a code without an annotation. -/
def SpannerType.ofCode
    (code : TypeCode) : SpannerType :=
  .scalar code .TYPE_ANNOTATION_CODE_UNSPECIFIED ""

/--
The value is of the Spanner type.  The elements of an array that are not null
are all of one type, and there is one of them.
-/
inductive IsOfType
    (I : Inference L) : Value L → SpannerType → Prop where
  | float32 (value : Raw L.Number) :
      IsOfType I (.float32 value) (.ofCode .FLOAT32)
  | float (value : Raw L.Number) :
      IsOfType I (.float value) (.ofCode .FLOAT64)
  | integer (x : L.Number)
      (hdecimal : L.isDecimal x = false)
      (hspecial : I.isSpecialNumber x = false) :
      IsOfType I (.number x) (.ofCode .INT64)
  | int (value : String) :
      IsOfType I (.int value) (.ofCode .INT64)
  | numeric (value : Raw L.Number) :
      IsOfType I (.numeric value) (.ofCode .NUMERIC)
  | pgNumeric (value : String) :
      IsOfType I (.pgNumeric value) (.scalar .NUMERIC .PG_NUMERIC "")
  | pgJsonb (value : L.Json) :
      IsOfType I (.pgJsonb value) (.scalar .JSON .PG_JSONB "")
  | pgOid (value : String) :
      IsOfType I (.pgOid value) (.scalar .INT64 .PG_OID "")
  | interval (i : Interval) :
      IsOfType I (.interval i) (.ofCode .INTERVAL)
  | proto (value : L.Buffer) (fullName : String) :
      IsOfType I (.protoMessage value fullName)
        (.scalar .PROTO .TYPE_ANNOTATION_CODE_UNSPECIFIED fullName)
  | enum (value : Raw L.Number) (fullName : String) :
      IsOfType I (.protoEnum value fullName)
        (.scalar .ENUM .TYPE_ANNOTATION_CODE_UNSPECIFIED fullName)
  | bool (b : Bool) :
      IsOfType I (.boolean b) (.ofCode .BOOL)
  | string (s : String) :
      IsOfType I (.string s) (.ofCode .STRING)
  | bytes (b : L.Buffer) :
      IsOfType I (.buffer b) (.ofCode .BYTES)
  | date (d : L.SpannerDate) :
      IsOfType I (.spannerDate d) (.ofCode .DATE)
  | timestamp (d : L.PreciseDate) :
      IsOfType I (.preciseDate d) (.ofCode .TIMESTAMP)
  | json (j : L.Json) :
      IsOfType I (.json j) (.ofCode .JSON)
  | struct (fields : List (String × SpannerType))
      (values : List (String × Value L))
      (hnames : values.map Prod.fst = fields.map Prod.fst)
      (hvalues :
        ∀ (i : Nat) field value, fields[i]? = some field →
          values[i]? = some value → IsOfType I value.2 field.2) :
      IsOfType I (.struct values) (.struct fields)
  | array (type : SpannerType) (values : List (Value L))
      (hvalues : ∀ v ∈ values, v ≠ .null → IsOfType I v type)
      (hvalue : ∃ v ∈ values, v ≠ .null) :
      IsOfType I (.array values) (.array type)

mutual

/-- A `PGJsonb` is somewhere in the value. -/
def Value.holdsPGJsonb : Value L → Bool
  | .pgJsonb _ => true
  | .struct fields => fieldsHoldPGJsonb fields
  | .array values => valuesHoldPGJsonb values
  | _ => false

def fieldsHoldPGJsonb : List (String × Value L) → Bool
  | [] => false
  | (_, value) :: fields => value.holdsPGJsonb || fieldsHoldPGJsonb fields

def valuesHoldPGJsonb : List (Value L) → Bool
  | [] => false
  | value :: values => value.holdsPGJsonb || valuesHoldPGJsonb values

end

mutual

/-- The type of PostgreSQL's JSONB is somewhere in the type. -/
def SpannerType.hasJsonb : SpannerType → Bool
  | .scalar _ annotationCode _ => annotationCode = .PG_JSONB
  | .array type => type.hasJsonb
  | .struct fields => fieldsHaveJsonb fields

def fieldsHaveJsonb : List (String × SpannerType) → Bool
  | [] => false
  | (_, type) :: fields => type.hasJsonb || fieldsHaveJsonb fields

end

mutual

/-- What inference makes of the type: JSONB is lost, and nothing else. -/
def SpannerType.inferred : SpannerType → SpannerType
  | .scalar code annotationCode fqn =>
      if annotationCode = .PG_JSONB then unspecifiedType
      else .scalar code annotationCode fqn
  | .array type => .array type.inferred
  | .struct fields => .struct (inferredFields fields)

def inferredFields :
    List (String × SpannerType) → List (String × SpannerType)
  | [] => []
  | (name, type) :: fields => (name, type.inferred) :: inferredFields fields

end

mutual

/-- Inference finds the types without JSONB. -/
theorem inferred_eq_iff :
    (type : SpannerType) → (type.inferred = type ↔ type.hasJsonb = false)
  | .scalar code annotationCode fqn => by
      cases annotationCode <;>
        simp [SpannerType.inferred, SpannerType.hasJsonb, unspecifiedType]
  | .array type => by
      simp [SpannerType.inferred, SpannerType.hasJsonb, inferred_eq_iff type]
  | .struct fields => by
      simp [SpannerType.inferred, SpannerType.hasJsonb,
        inferredFields_eq_iff fields]

theorem inferredFields_eq_iff :
    (fields : List (String × SpannerType)) →
      (inferredFields fields = fields ↔ fieldsHaveJsonb fields = false)
  | [] => by
      simp [inferredFields, fieldsHaveJsonb]
  | (name, type) :: fields => by
      simp [inferredFields, fieldsHaveJsonb, inferred_eq_iff type,
        inferredFields_eq_iff fields]

end

/-! ## Inference -/

@[simp] theorem createFieldTypeObjects_eq
    (fields : List (String × FriendlyType)) :
    createFieldTypeObjects fields =
      fields.map fun field => (field.1, createTypeObject field.2) := by
  induction fields with
  | nil => simp [createFieldTypeObjects]
  | cons field fields ih => simp [createFieldTypeObjects, ih]

@[simp] theorem getFieldTypes_eq
    (I : Inference L) (fields : List (String × Value L)) :
    getFieldTypes I fields =
      fields.map fun field => (field.1, getType I field.2) := by
  induction fields with
  | nil => simp [getFieldTypes]
  | cons field fields ih => simp [getFieldTypes, ih]

@[simp] theorem inferredFields_eq
    (fields : List (String × SpannerType)) :
    inferredFields fields =
      fields.map fun field => (field.1, field.2.inferred) := by
  induction fields with
  | nil => simp [inferredFields]
  | cons field fields ih => simp [inferredFields, ih]

@[simp] theorem fieldsHaveJsonb_eq
    (fields : List (String × SpannerType)) :
    fieldsHaveJsonb fields =
      (fields.map fun field => field.2.hasJsonb).any id := by
  induction fields with
  | nil => simp [fieldsHaveJsonb]
  | cons field fields ih => simp [fieldsHaveJsonb, ih]

@[simp] theorem fieldsHoldPGJsonb_eq
    (fields : List (String × Value L)) :
    fieldsHoldPGJsonb fields =
      (fields.map fun field => field.2.holdsPGJsonb).any id := by
  induction fields with
  | nil => simp [fieldsHoldPGJsonb]
  | cons field fields ih => simp [fieldsHoldPGJsonb, ih]

@[simp] theorem valuesHoldPGJsonb_eq
    (values : List (Value L)) :
    valuesHoldPGJsonb values = values.any Value.holdsPGJsonb := by
  induction values with
  | nil => simp [valuesHoldPGJsonb]
  | cons value values ih => simp [valuesHoldPGJsonb, ih]

/-- The type of an array is taken from an element that is not null. -/
theorem getChildType_of_ne_null
    (I : Inference L)
    {values : List (Value L)}
    (h : ∃ v ∈ values, v ≠ .null) :
    ∃ v ∈ values, v ≠ .null ∧ getChildType I values = getType I v := by
  induction values with
  | nil =>
      obtain ⟨v, hv, -⟩ := h
      cases hv
  | cons value values ih =>
      by_cases hvalue : value = .null
      · -- a null is passed over
        subst hvalue
        obtain ⟨w, hw, hnotNull⟩ := h
        have hrest : w ∈ values := by
          rcases List.mem_cons.mp hw with rfl | hw
          · exact absurd rfl hnotNull
          · exact hw
        obtain ⟨v, hv, hne, htype⟩ := ih ⟨w, hrest, hnotNull⟩
        refine ⟨v, List.mem_cons_of_mem _ hv, hne, ?_⟩
        rw [getChildType]
        exact htype
      · exact
          ⟨value, List.mem_cons_self, hvalue, by
            rw [getChildType]
            exact hvalue⟩

/-- A struct and its type, field by field. -/
theorem map_fields_eq
    {γ : Type} {fields : List (String × SpannerType)}
    {values : List (String × Value L)}
    {f : String × Value L → γ} {g : String × SpannerType → γ}
    (hnames : values.map Prod.fst = fields.map Prod.fst)
    (h :
      ∀ (i : Nat) field value, fields[i]? = some field →
        values[i]? = some value → value.1 = field.1 → f value = g field) :
    values.map f = fields.map g := by
  have hlength : values.length = fields.length := by
    simpa using congrArg List.length hnames
  refine Machine.map_eq_map_of_getElem? hlength ?_
  intro i value field hvalue hfield
  refine h i field value hfield hvalue ?_
  have hname := congrArg (fun names => names[i]?) hnames
  simpa [hvalue, hfield] using hname

/-- What inference makes of a value, whatever is in it. -/
theorem createTypeObject_getType
    {I : Inference L}
    (henv : I.uuidAsUntyped = false)
    {v : Value L} {type : SpannerType}
    (h : IsOfType I v type) :
    createTypeObject (getType I v) = type.inferred := by
  induction h with
  | struct fields values hnames _ ih =>
      have hfields :
          values.map
              (fun value =>
                (value.1, createTypeObject (getType I value.2))) =
            fields.map fun field => (field.1, field.2.inferred) := by
        refine map_fields_eq hnames ?_
        intro i field value hfield hvalue hname
        rw [hname, ih i field value hfield hvalue]
      simpa [getType, createTypeObject, friendlyCode, friendlyCodes,
        List.lookup_cons, SpannerType.inferred, Function.comp_def]
        using hfields
  | array type values _ hvalue ih =>
      obtain ⟨v, hv, hne, htype⟩ := getChildType_of_ne_null I hvalue
      simp [getType, createTypeObject, createChildTypeObject, friendlyCode,
        friendlyCodes, List.lookup_cons, SpannerType.inferred, htype,
        ih v hv hne]
  | integer x hdecimal hspecial =>
      simp [getType, hdecimal, hspecial, FriendlyType.named,
        createTypeObject, friendlyCode, friendlyCodes, List.lookup_cons,
        annotationCodeOf, SpannerType.ofCode, SpannerType.inferred]
  | _ =>
      simp [getType, henv, FriendlyType.named, createTypeObject,
        friendlyCode, friendlyCodes, List.lookup_cons, annotationCodeOf,
        unspecifiedType, SpannerType.ofCode, SpannerType.inferred]

/-- A value holds a `PGJsonb` if its type has JSONB. -/
theorem holdsPGJsonb_eq
    {I : Inference L}
    {v : Value L} {type : SpannerType}
    (h : IsOfType I v type) :
    v.holdsPGJsonb = type.hasJsonb := by
  induction h with
  | struct fields values hnames _ ih =>
      have hfields :
          values.map (fun value => value.2.holdsPGJsonb) =
            fields.map fun field => field.2.hasJsonb :=
        map_fields_eq hnames fun i field value hfield hvalue _ =>
          ih i field value hfield hvalue
      rw [Value.holdsPGJsonb, SpannerType.hasJsonb, fieldsHoldPGJsonb_eq,
        fieldsHaveJsonb_eq, hfields]
  | array type values _ hvalue ih =>
      obtain ⟨w, hw, hne⟩ := hvalue
      rw [Value.holdsPGJsonb, SpannerType.hasJsonb, valuesHoldPGJsonb_eq,
        Bool.eq_iff_iff, List.any_eq_true]
      constructor
      · rintro ⟨v, hv, hholds⟩
        have hnotNull : v ≠ .null := by
          rintro rfl
          cases hholds
        rwa [ih v hv hnotNull] at hholds
      · intro hjsonb
        exact ⟨w, hw, (ih w hw hne).trans hjsonb⟩
  | _ => rfl

/--
The type that is sent with a value is the type of the value exactly if no
`PGJsonb` is in the value.
-/
theorem createTypeObject_getType_iff
    (I : Inference L)
    (henv : I.uuidAsUntyped = false)
    (v : Value L) (type : SpannerType)
    (h : IsOfType I v type) :
    createTypeObject (getType I v) = type ↔ v.holdsPGJsonb = false := by
  rw [createTypeObject_getType henv h, inferred_eq_iff, holdsPGJsonb_eq h]

/-- No number of `textLeaves` is special, and the flag is not set. -/
def textInference : Inference textLeaves where
  isSpecialNumber := fun _ => false
  uuidAsUntyped := false
  validate := fun _ => false

/-- A struct with an integer and an array. -/
def visit : Value textLeaves :=
  .struct
    [("Id", .number (7 : Int)), ("Tags", .array [.null, .string "new"])]

def visits : Value textLeaves :=
  .array [.null, visit]

def visitsType : SpannerType :=
  .array
    (.struct
      [("Id", .ofCode .INT64), ("Tags", .array (.ofCode .STRING))])

theorem visits_isOfType :
    IsOfType textInference visits visitsType := by
  refine .array _ _ ?_ ⟨_, List.mem_cons_of_mem _ List.mem_cons_self, nofun⟩
  intro v hv hne
  obtain rfl | rfl : v = .null ∨ v = visit := by simpa using hv
  · exact absurd rfl hne
  · refine .struct _ _ rfl ?_
    intro i field value hfield hvalue
    match i with
    | 0 =>
        obtain rfl := Option.some.inj hfield
        obtain rfl := Option.some.inj hvalue
        exact .integer _ rfl rfl
    | 1 =>
        obtain rfl := Option.some.inj hfield
        obtain rfl := Option.some.inj hvalue
        refine .array _ _ ?_
          ⟨_, List.mem_cons_of_mem _ List.mem_cons_self, nofun⟩
        intro v hv hne
        obtain rfl | rfl : v = .null ∨ v = .string "new" := by simpa using hv
        · exact absurd rfl hne
        · exact .string _
    | i + 2 => simp at hfield

theorem createTypeObject_getType_iff_visits :
    createTypeObject (getType textInference visits) = visitsType ↔
      visits.holdsPGJsonb = false :=
  createTypeObject_getType_iff textInference rfl visits visitsType
    visits_isOfType

/-- A `PGJsonb` is of the type JSONB, and is sent with no type. -/
theorem pgJsonb_not_inferred :
    ¬ ∀ (v : Value textLeaves) (type : SpannerType),
      IsOfType textInference v type →
        createTypeObject (getType textInference v) = type := by
  intro h
  have hjsonb := h _ _ (.pgJsonb "\x7b\x7d")
  simp [getType, FriendlyType.named, createTypeObject, friendlyCode,
    friendlyCodes, List.lookup_cons] at hjsonb

end Codec
end SpannerClient
