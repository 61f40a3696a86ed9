import SpannerClient.Codec.Basic

/-!
# The round trip of the codec

A value of a type is encoded by its class and decoded by the type, so the two
have to agree for every class and every type.  `HasType` says which values have a
type, for ARRAY and STRUCT through their elements and fields, and
`Leaves.Inverse` what is relied on of the functions that print and read numbers,
buffers, dates and JSON values.

* The way through protobuf changes nothing as long as no `undefined` is in the
  value (`decodeValue_encodeValue`), as in what is encoded of a typed value
  (`plain_of_hasType`).
* By induction on the typing, the type reads what the class has written
  (`decode_of_hasType`).

The main result is `decode_encode`: encoding and then decoding a typed value gives
the value back.
-/

namespace SpannerClient
namespace Codec

open Machine

variable {L : Leaves}

/-- What prints the leaves and what reads them are inverse. -/
structure Leaves.Inverse
    (L : Leaves) : Prop where
  base64 : ∀ b, L.bufferFrom (.string (L.toBase64 b)) = some b
  json : ∀ j, L.parse (.string (L.stringify j)) = some j
  preciseDate : ∀ d, L.newPreciseDate (.string (L.preciseDateToJSON d)) = d

/-- The client represents a value of the type so. -/
inductive HasType : SpannerType → Value L → Prop where
  | null (type : SpannerType) :
      HasType type .null
  | bool (annotationCode : TypeAnnotationCode) (fqn : String) (b : Bool) :
      HasType (.scalar .BOOL annotationCode fqn) (.boolean b)
  | int64 (annotationCode : TypeAnnotationCode) (fqn : String) (value : String)
      (hcode : annotationCode ≠ .PG_OID) :
      HasType (.scalar .INT64 annotationCode fqn) (.int value)
  | pgOid (fqn : String) (value : String) :
      HasType (.scalar .INT64 .PG_OID fqn) (.pgOid value)
  | float64 (annotationCode : TypeAnnotationCode) (fqn : String) (x : L.Number) :
      HasType (.scalar .FLOAT64 annotationCode fqn) (.float (.number x))
  | float32 (annotationCode : TypeAnnotationCode) (fqn : String) (x : L.Number) :
      HasType (.scalar .FLOAT32 annotationCode fqn) (.float32 (.number x))
  | numeric (annotationCode : TypeAnnotationCode) (fqn : String) (value : String)
      (hcode : annotationCode ≠ .PG_NUMERIC) :
      HasType (.scalar .NUMERIC annotationCode fqn) (.numeric (.string value))
  | pgNumeric (fqn : String) (value : String) :
      HasType (.scalar .NUMERIC .PG_NUMERIC fqn) (.pgNumeric value)
  | timestamp (annotationCode : TypeAnnotationCode) (fqn : String)
      (d : L.PreciseDate) :
      HasType (.scalar .TIMESTAMP annotationCode fqn) (.preciseDate d)
  | string (annotationCode : TypeAnnotationCode) (fqn : String) (s : String) :
      HasType (.scalar .STRING annotationCode fqn) (.string s)
  | uuid (annotationCode : TypeAnnotationCode) (fqn : String) (s : String) :
      HasType (.scalar .UUID annotationCode fqn) (.string s)
  | bytes (annotationCode : TypeAnnotationCode) (fqn : String) (b : L.Buffer) :
      HasType (.scalar .BYTES annotationCode fqn) (.buffer b)
  | json (annotationCode : TypeAnnotationCode) (fqn : String) (j : L.Json)
      (hcode : annotationCode ≠ .PG_JSONB) :
      HasType (.scalar .JSON annotationCode fqn) (.json j)
  | pgJsonb (fqn : String) (value : L.Json) :
      HasType (.scalar .JSON .PG_JSONB fqn) (.pgJsonb value)
  | interval (annotationCode : TypeAnnotationCode) (fqn : String) (i : Interval)
      (hi : i.Representable) :
      HasType (.scalar .INTERVAL annotationCode fqn) (.interval i)
  | proto (annotationCode : TypeAnnotationCode) (fqn : String) (b : L.Buffer) :
      HasType (.scalar .PROTO annotationCode fqn) (.protoMessage b fqn)
  /-- A `ProtoEnum` built from a number that is not negative. -/
  | enum (annotationCode : TypeAnnotationCode) (fqn : String) (n : Nat) :
      HasType (.scalar .ENUM annotationCode fqn)
        (.protoEnum (.string n.repr) fqn)
  | array (type : SpannerType) (values : List (Value L))
      (hvalues : ∀ v ∈ values, HasType type v) :
      HasType (.array type) (.array values)
  | struct (fields : List (String × SpannerType))
      (values : List (String × Value L))
      (hnames : values.map Prod.fst = fields.map Prod.fst)
      (hvalues :
        ∀ (i : Nat) field value, fields[i]? = some field →
          values[i]? = some value → HasType field.2 value.2) :
      HasType (.struct fields) (.struct values)

@[simp] theorem encodeValues_eq
    (values : List (Value L)) :
    encodeValues values = values.map encodeValue := by
  induction values with
  | nil => simp [encodeValues]
  | cons value values ih => simp [encodeValues, ih]

@[simp] theorem encodeFields_eq
    (fields : List (String × Value L)) :
    encodeFields fields = fields.map fun field => encodeValue field.2 := by
  induction fields with
  | nil => simp [encodeFields]
  | cons field fields ih => simp [encodeFields, ih]

/-! ## Through protobuf -/

section Service

variable {ν : Type}

/-- The value and its elements are defined, and no objects. -/
inductive Plain : Raw ν → Prop where
  | null : Plain .null
  | boolean (b : Bool) : Plain (.boolean b)
  | number (x : ν) : Plain (.number x)
  | string (s : String) : Plain (.string s)
  | list (values : List (Raw ν)) (hvalues : ∀ v ∈ values, Plain v) :
      Plain (.list values)

/-- The list is encoded and decoded element by element. -/
theorem encodeList_of_elements
    {values : List (Raw ν)}
    (h :
      ∀ v ∈ values, ∃ w, encodeValue_ v = some w ∧ decodeValue_ w = v) :
    ∃ ws, encodeList values = some ws ∧ decodeList ws = values := by
  induction values with
  | nil => exact ⟨[], by simp [encodeList], by simp [decodeList]⟩
  | cons v values ih =>
      obtain ⟨w, hw, hv⟩ := h v List.mem_cons_self
      obtain ⟨ws, hws, hvs⟩ :=
        ih fun u hu => h u (List.mem_cons_of_mem _ hu)
      exact
        ⟨w :: ws, by simp [encodeList, hw, hws],
          by simp [decodeList, hv, hvs]⟩

/-- A plain value goes through protobuf unchanged. -/
theorem decodeValue_encodeValue
    {r : Raw ν}
    (h : Plain r) :
    ∃ w, encodeValue_ r = some w ∧ decodeValue_ w = r := by
  induction h with
  | null => exact ⟨.nullValue, by simp [encodeValue_], by simp [decodeValue_]⟩
  | boolean b =>
      exact ⟨.boolValue b, by simp [encodeValue_], by simp [decodeValue_]⟩
  | number x =>
      exact ⟨.numberValue x, by simp [encodeValue_], by simp [decodeValue_]⟩
  | string s =>
      exact ⟨.stringValue s, by simp [encodeValue_], by simp [decodeValue_]⟩
  | list values _ ih =>
      obtain ⟨ws, hws, hvs⟩ := encodeList_of_elements ih
      exact
        ⟨.listValue ws, by simp [encodeValue_, hws],
          by simp [decodeValue_, hvs]⟩

end Service

/-- What a typed value is encoded to is plain. -/
theorem plain_of_hasType
    {type : SpannerType} {v : Value L}
    (h : HasType type v) :
    Plain (encodeValue v) := by
  induction h with
  | null type =>
      rw [encodeValue]
      exact .null
  | bool annotationCode fqn b =>
      rw [encodeValue]
      exact .boolean b
  | float64 annotationCode fqn x =>
      rw [encodeValue]
      exact .number x
  | float32 annotationCode fqn x =>
      rw [encodeValue]
      exact .number x
  | array type values _ ih =>
      rw [encodeValue, encodeValues_eq]
      refine .list _ ?_
      intro r hr
      obtain ⟨v, hv, rfl⟩ := List.mem_map.mp hr
      exact ih v hv
  | struct fields values hnames _ ih =>
      rw [encodeValue, encodeFields_eq]
      refine .list _ ?_
      intro r hr
      obtain ⟨value, hvalue, rfl⟩ := List.mem_map.mp hr
      obtain ⟨i, hi⟩ := List.getElem?_of_mem hvalue
      have hlength := congrArg List.length hnames
      simp only [List.length_map] at hlength
      have hlt := (List.getElem?_eq_some_iff.mp hi).1
      have hi' : i < fields.length := by omega
      exact ih i fields[i] value (List.getElem?_eq_getElem hi') hi
  | _ =>
      rw [encodeValue]
      exact .string _

/-! ## By the type -/

/-- The digits of a number are digits. -/
theorem isDigits_repr
    (n : Nat) :
    isDigits n.repr = true := by
  have hne : (Nat.toDigits 10 n) ≠ [] := by
    intro h
    have := Nat.length_toDigits_pos (b := 10) (n := n)
    simp [h] at this
  have hall : ∀ c ∈ Nat.toDigits 10 n, c.isDigit = true := by
    intro c hc
    exact Nat.isDigit_of_mem_toDigits (by omega) (by omega) hc
  rw [isDigits, Nat.toList_repr, Bool.and_eq_true]
  constructor
  · simp [hne]
  · exact List.all_eq_true.mpr hall

/-- An array is decoded element by element. -/
theorem mapM_decode_of_elements
    {columnMetadata : Option (ColumnMetadata L.Number)}
    {type : SpannerType} {values : List (Value L)}
    (h :
      ∀ v ∈ values, decode columnMetadata type (encodeValue v) = some v) :
    (values.map encodeValue).mapM (decode columnMetadata type) =
      some values := by
  induction values with
  | nil => simp
  | cons v values ih =>
      have hv := h v List.mem_cons_self
      have hvs := ih fun u hu => h u (List.mem_cons_of_mem _ hu)
      simp [hv, hvs]

/-- A struct is decoded field by field, each from the place of its number. -/
theorem decodeFields_of_members
    {columnMetadata : Option (ColumnMetadata L.Number)}
    {fields : List (String × SpannerType)} {values : List (String × Value L)}
    {decoded : List (Raw L.Number)} {index : Nat}
    (hnames : values.map Prod.fst = fields.map Prod.fst)
    (hdecoded :
      ∀ (i : Nat) value, values[i]? = some value →
        decoded[index + i]? = some (encodeValue value.2))
    (hvalues :
      ∀ (i : Nat) field value, fields[i]? = some field →
        values[i]? = some value →
          decode columnMetadata field.2 (encodeValue value.2) =
            some value.2) :
    decodeFields columnMetadata fields index (.list decoded) =
      some values := by
  induction fields generalizing values index with
  | nil =>
      obtain rfl : values = [] := by simpa using hnames
      rw [decodeFields]
  | cons field fields ih =>
      obtain ⟨name, type⟩ := field
      cases values with
      | nil => simp at hnames
      | cons value values =>
          obtain ⟨name', v⟩ := value
          obtain ⟨rfl, hrest⟩ : name' = name ∧
              values.map Prod.fst = fields.map Prod.fst := by
            simpa using hnames
          have hhead : decoded[index]? = some (encodeValue v) := by
            simpa using hdecoded 0 (name', v) rfl
          have hv : decode columnMetadata type (encodeValue v) = some v :=
            hvalues 0 (name', type) (name', v) rfl rfl
          have htail :
              decodeFields columnMetadata fields (index + 1)
                  (.list decoded) =
                some values := by
            refine ih hrest ?_ ?_
            · intro i value hi
              have hnext := hdecoded (i + 1) value (by simpa using hi)
              rwa [← Nat.add_assoc, Nat.add_right_comm] at hnext
            · intro i field value hfield hi
              exact
                hvalues (i + 1) field value (by simpa using hfield)
                  (by simpa using hi)
          simp [decodeFields, Raw.member, Raw.at, hhead, hv, htail]

/-- What a typed value is encoded to is decoded to the value. -/
theorem decode_of_hasType
    (hL : L.Inverse)
    (columnMetadata : Option (ColumnMetadata L.Number))
    {type : SpannerType} {v : Value L}
    (h : HasType type v) :
    decode columnMetadata type (encodeValue v) = some v := by
  induction h with
  | null type => simp [encodeValue, decode]
  | array type values _ ih =>
      simp [encodeValue, decode, mapM_decode_of_elements ih]
  | struct fields values hnames _ ih =>
      have hdecoded :
          ∀ (i : Nat) value, values[i]? = some value →
            (values.map fun value => encodeValue value.2)[0 + i]? =
              some (encodeValue value.2) := by
        intro i value hi
        simp [hi]
      simp [encodeValue, decode, decodeFields_of_members hnames hdecoded ih]
  | bytes annotationCode fqn b =>
      simp [encodeValue, decode, decodeScalar, hL.base64]
  | proto annotationCode fqn b =>
      simp [encodeValue, decode, decodeScalar, hL.base64]
  | timestamp annotationCode fqn d =>
      simp [encodeValue, decode, decodeScalar, hL.preciseDate]
  | json annotationCode fqn j hcode =>
      simp [encodeValue, decode, decodeScalar, hL.json, hcode]
  | pgJsonb fqn value =>
      simp [encodeValue, decode, decodeScalar, newPGJsonb, hL.json]
  | interval annotationCode fqn i hi =>
      simp [encodeValue, decode, decodeScalar, Raw.toString,
        Interval.fromISO8601_toISO8601 hi]
  | enum annotationCode fqn n =>
      simp [encodeValue, decode, decodeScalar, newProtoEnum, Raw.toString,
        isDigits_repr]
  | bool annotationCode fqn b =>
      simp [encodeValue, decode, decodeScalar, Value.ofRaw]
  | string annotationCode fqn s =>
      simp [encodeValue, decode, decodeScalar, Value.ofRaw]
  | uuid annotationCode fqn s =>
      simp [encodeValue, decode, decodeScalar, Value.ofRaw]
  | int64 annotationCode fqn value hcode =>
      simp [encodeValue, decode, decodeScalar, Raw.toString, hcode]
  | pgOid fqn value =>
      simp [encodeValue, decode, decodeScalar, Raw.toString]
  | float64 annotationCode fqn x => simp [encodeValue, decode, decodeScalar]
  | float32 annotationCode fqn x => simp [encodeValue, decode, decodeScalar]
  | numeric annotationCode fqn value hcode =>
      simp [encodeValue, decode, decodeScalar, hcode]
  | pgNumeric fqn value =>
      simp [encodeValue, decode, decodeScalar, Raw.toString]

/--
A value of a type comes back from the service as it was sent: encoding does not
fail, and what was encoded, decoded by the type, is the value.
-/
theorem decode_encode
    (hL : L.Inverse)
    (columnMetadata : Option (ColumnMetadata L.Number))
    (type : SpannerType)
    (v : Value L)
    (h : HasType type v) :
    ∃ w, encode v = some w ∧
      decode columnMetadata type (decodeValue_ w) = some v := by
  obtain ⟨w, hw, hdecoded⟩ := decodeValue_encodeValue (plain_of_hasType h)
  refine ⟨w, hw, ?_⟩
  rw [hdecoded]
  exact decode_of_hasType hL columnMetadata h

/-- Leaves that are their own texts. -/
def textLeaves : Leaves where
  Number := Int
  Buffer := String
  PreciseDate := String
  SpannerDate := String
  Json := String
  isDecimal := fun _ => false
  truthy := fun x => x != 0
  numberToString := fun x => x.repr
  toBase64 := id
  bufferFrom := fun
    | .string s => some s
    | _ => none
  preciseDateToJSON := id
  newPreciseDate := fun
    | .string s => s
    | _ => ""
  spannerDateToJSON := id
  newSpannerDate := fun
    | .string s => s
    | _ => ""
  stringify := id
  parse := fun
    | .string s => some s
    | _ => none
  jsonOf := fun _ => ""

/-- An order: its number, its lead time and what it holds. -/
def orderType : SpannerType :=
  .struct
    [("OrderId", .scalar .INT64 .TYPE_ANNOTATION_CODE_UNSPECIFIED ""),
      ("LeadTime", .scalar .INTERVAL .TYPE_ANNOTATION_CODE_UNSPECIFIED ""),
      ("Notes",
        .array (.scalar .JSON .TYPE_ANNOTATION_CODE_UNSPECIFIED ""))]

def order : Value textLeaves :=
  .struct
    [("OrderId", .int "17"),
      ("LeadTime", .interval ⟨-14, 3, 90000000001⟩),
      ("Notes", .array [.json "{}", .null])]

theorem orders_hasType :
    HasType (.array orderType) (.array [order, .null]) := by
  refine .array _ _ ?_
  intro v hv
  obtain rfl | rfl : v = order ∨ v = .null := by simpa using hv
  · refine .struct _ _ rfl ?_
    intro i field value hfield hvalue
    match i with
    | 0 =>
        obtain rfl := Option.some.inj hfield
        obtain rfl := Option.some.inj hvalue
        exact .int64 _ _ _ (by decide)
    | 1 =>
        obtain rfl := Option.some.inj hfield
        obtain rfl := Option.some.inj hvalue
        exact .interval _ _ _ ⟨by decide, by decide, by decide⟩
    | 2 =>
        obtain rfl := Option.some.inj hfield
        obtain rfl := Option.some.inj hvalue
        refine .array _ _ ?_
        intro v hv
        obtain rfl | rfl : v = .json "{}" ∨ v = .null := by simpa using hv
        · exact .json _ _ _ (by decide)
        · exact .null _
    | i + 3 => simp at hfield
  · exact .null _

theorem decode_encode_orders :
    ∃ w, encode (.array [order, .null]) = some w ∧
      decode none (.array orderType) (decodeValue_ w) =
        some (.array [order, .null]) :=
  decode_encode ⟨fun _ => rfl, fun _ => rfl, fun _ => rfl⟩ none _ _
    orders_hasType

end Codec
end SpannerClient
