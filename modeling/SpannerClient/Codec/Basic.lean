import SpannerClient.Codec.Interval

/-!
# The codec

`codec.encode` turns a value of the client into a protobuf `Value`, choosing by
the class of the value; `codec.decode` turns what comes back into a value of the
client, choosing by the code of the type.  Between the two the value is of plain
JavaScript (`Raw`): `encodeValue` and `GrpcService.decodeValue_` both end there.

`Value` has a constructor for each class that `encode` knows, `SpannerType` the codes
and annotations of a type.  A decoding that would throw is `none`.

Numbers, buffers, dates and JSON values are not looked into: they come with the
functions that print and read them (`Leaves`).
-/

namespace SpannerClient
namespace Codec

inductive TypeCode where
  | TYPE_CODE_UNSPECIFIED | BOOL | INT64 | FLOAT64 | FLOAT32 | TIMESTAMP | DATE
  | STRING | BYTES | NUMERIC | JSON | PROTO | ENUM | INTERVAL | UUID
deriving DecidableEq, Repr

inductive TypeAnnotationCode where
  | TYPE_ANNOTATION_CODE_UNSPECIFIED | PG_NUMERIC | PG_JSONB | PG_OID
deriving DecidableEq, Repr

/-- `google.spanner.v1.Type`. -/
inductive SpannerType where
  | scalar (code : TypeCode) (annotationCode : TypeAnnotationCode)
      (protoTypeFqn : String)
  | array (arrayElementType : SpannerType)
  | struct (fields : List (String × SpannerType))

/-- A value of plain JavaScript. -/
inductive Raw (ν : Type) where
  | undefined
  | null
  | boolean (b : Bool)
  | number (x : ν)
  | string (s : String)
  | list (values : List (Raw ν))
  | object (fields : List (String × Raw ν))

/-- `google.protobuf.Value`. -/
inductive ProtoValue (ν : Type) where
  | nullValue
  | numberValue (x : ν)
  | stringValue (s : String)
  | boolValue (b : Bool)
  | structValue (fields : List (String × ProtoValue ν))
  | listValue (values : List (ProtoValue ν))

/-- The values that are not looked into, and what prints and reads them. -/
structure Leaves where
  Number : Type
  Buffer : Type
  PreciseDate : Type
  SpannerDate : Type
  Json : Type
  isDecimal : Number → Bool
  truthy : Number → Bool
  numberToString : Number → String
  /-- `buffer.toString('base64')`. -/
  toBase64 : Buffer → String
  /-- `Buffer.from(value, 'base64')`; `none` if it throws. -/
  bufferFrom : Raw Number → Option Buffer
  preciseDateToJSON : PreciseDate → String
  /-- `new PreciseDate(value)`. -/
  newPreciseDate : Raw Number → PreciseDate
  spannerDateToJSON : SpannerDate → String
  /-- `new SpannerDate(value)`. -/
  newSpannerDate : Raw Number → SpannerDate
  /-- `JSON.stringify`. -/
  stringify : Json → String
  /-- `JSON.parse`; `none` if it throws. -/
  parse : Raw Number → Option Json
  /-- A value of plain JavaScript, taken as it is. -/
  jsonOf : Raw Number → Json

/-- A value of the client. -/
inductive Value (L : Leaves) where
  | null
  | undefined
  | boolean (b : Bool)
  | number (x : L.Number)
  | string (s : String)
  | float32 (value : Raw L.Number)
  | float (value : Raw L.Number)
  | int (value : String)
  | pgOid (value : String)
  | numeric (value : Raw L.Number)
  | pgNumeric (value : String)
  | buffer (b : L.Buffer)
  | preciseDate (d : L.PreciseDate)
  | spannerDate (d : L.SpannerDate)
  /-- A plain object, or what `JSON.parse` returns. -/
  | json (j : L.Json)
  | pgJsonb (value : L.Json)
  | interval (i : Interval)
  | protoMessage (value : L.Buffer) (fullName : String)
  | protoEnum (value : Raw L.Number) (fullName : String)
  | struct (fields : List (String × Value L))
  | array (values : List (Value L))

variable {L : Leaves}

/-! ## Encoding -/

mutual

/-- `encodeValue`. -/
def encodeValue : Value L → Raw L.Number
  | .null => .null
  | .undefined => .undefined
  | .boolean b => .boolean b
  | .number x =>
      if L.isDecimal x then .number x else .string (L.numberToString x)
  | .string s => .string s
  | .float32 value => value
  | .float value => value
  | .int value => .string value
  | .pgOid value => .string value
  | .numeric value => value
  | .pgNumeric value => .string value
  | .buffer b => .string (L.toBase64 b)
  | .preciseDate d => .string (L.preciseDateToJSON d)
  | .spannerDate d => .string (L.spannerDateToJSON d)
  | .json j => .string (L.stringify j)
  | .pgJsonb value => .string (L.stringify value)
  | .interval i => .string i.toISO8601
  | .protoMessage value _ => .string (L.toBase64 value)
  | .protoEnum value _ => value
  | .struct fields => .list (encodeFields fields)
  | .array values => .list (encodeValues values)

def encodeFields : List (String × Value L) → List (Raw L.Number)
  | [] => []
  | (_, value) :: fields => encodeValue value :: encodeFields fields

def encodeValues : List (Value L) → List (Raw L.Number)
  | [] => []
  | value :: values => encodeValue value :: encodeValues values

end

section Service

variable {ν : Type}

mutual

/-- `ObjectToStructConverter.encodeValue_`; `none` if it throws. -/
def encodeValue_ : Raw ν → Option (ProtoValue ν)
  | .undefined => none
  | .null => some .nullValue
  | .number x => some (.numberValue x)
  | .string s => some (.stringValue s)
  | .boolean b => some (.boolValue b)
  | .object fields => (convert fields).map .structValue
  | .list values => (encodeList values).map .listValue

/-- `ObjectToStructConverter.convert`. -/
def convert : List (String × Raw ν) → Option (List (String × ProtoValue ν))
  | [] => some []
  | (_, .undefined) :: fields => convert fields
  | (prop, value) :: fields =>
      (encodeValue_ value).bind fun value =>
        (convert fields).map fun fields => (prop, value) :: fields

def encodeList : List (Raw ν) → Option (List (ProtoValue ν))
  | [] => some []
  | value :: values =>
      (encodeValue_ value).bind fun value =>
        (encodeList values).map fun values => value :: values

end

mutual

/-- `GrpcService.decodeValue_`. -/
def decodeValue_ : ProtoValue ν → Raw ν
  | .structValue fields => .object (structToObj_ fields)
  | .nullValue => .null
  | .listValue values => .list (decodeList values)
  | .numberValue x => .number x
  | .stringValue s => .string s
  | .boolValue b => .boolean b

/-- `GrpcService.structToObj_`. -/
def structToObj_ : List (String × ProtoValue ν) → List (String × Raw ν)
  | [] => []
  | (prop, value) :: fields =>
      (prop, decodeValue_ value) :: structToObj_ fields

def decodeList : List (ProtoValue ν) → List (Raw ν)
  | [] => []
  | value :: values => decodeValue_ value :: decodeList values

end

end Service

/-- `codec.encode`. -/
def encode
    (value : Value L) : Option (ProtoValue L.Number) :=
  encodeValue_ (encodeValue value)

/-! ## Decoding -/

section Plain

variable {ν : Type}

mutual

/-- `value.toString()`; `none` if it throws. -/
def Raw.toString
    (numberToString : ν → String) : Raw ν → Option String
  | .undefined => none
  | .null => none
  | .boolean b => some (if b then "true" else "false")
  | .number x => some (numberToString x)
  | .string s => some s
  | .list values => some (",".intercalate (Raw.join numberToString values))
  | .object _ => some "[object Object]"

/-- The elements of an array as its `toString` writes them. -/
def Raw.join
    (numberToString : ν → String) : List (Raw ν) → List String
  | [] => []
  | value :: values =>
      (value.toString numberToString).getD "" ::
        Raw.join numberToString values

end

/-- The value is truthy. -/
def Raw.isTruthy
    (truthy : ν → Bool) : Raw ν → Bool
  | .undefined => false
  | .null => false
  | .boolean b => b
  | .number x => truthy x
  | .string s => s != ""
  | .list _ => true
  | .object _ => true

/-- `decoded[index]`. -/
def Raw.at
    (index : Nat) : Raw ν → Raw ν
  | .list values => values[index]?.getD .undefined
  | .string s => (s.toList[index]?.elim .undefined) fun c => .string c.toString
  | .object fields => (fields.lookup (ToString.toString index)).getD .undefined
  | _ => .undefined

/-- `decoded[name]` of what is not an array. -/
def Raw.get
    (name : String) : Raw ν → Raw ν
  | .object fields => (fields.lookup name).getD .undefined
  | _ => .undefined

/-- `(!Array.isArray(decoded) && decoded[name!]) || decoded[index]`. -/
def Raw.member
    (truthy : ν → Bool) (name : String) (index : Nat) (value : Raw ν) : Raw ν :=
  match value with
  | .list _ => value.at index
  | _ =>
      if (value.get name).isTruthy truthy then value.get name
      else value.at index

end Plain

mutual

/-- A value of plain JavaScript is a value of the client. -/
def Value.ofRaw : Raw L.Number → Value L
  | .undefined => .undefined
  | .null => .null
  | .boolean b => .boolean b
  | .number x => .number x
  | .string s => .string s
  | .list values => .array (Value.ofRaws values)
  | .object fields => .json (L.jsonOf (.object fields))

def Value.ofRaws : List (Raw L.Number) → List (Value L)
  | [] => []
  | value :: values => Value.ofRaw value :: Value.ofRaws values

end

/-- `new PGJsonb(value)`. -/
def newPGJsonb
    (value : Raw L.Number) : Option L.Json :=
  match value with
  | .string _ => L.parse value
  | _ => some (L.jsonOf value)

/-- The metadata of a column, by the names of its properties. -/
abbrev ColumnMetadata (ν : Type) := String → Option (Raw ν)

/-- `/^\d+$/.test(text)`. -/
def isDigits
    (text : String) : Bool :=
  !text.toList.isEmpty && text.toList.all Char.isDigit

/-- The value of `new ProtoEnum({value, fullName, enumObject})`. -/
def newProtoEnum
    (enumObject : Option (ColumnMetadata L.Number))
    (value : Raw L.Number) : Option (Raw L.Number) :=
  (value.toString L.numberToString).bind fun text =>
    if isDigits text then
      some (.string text)
    else
      (enumObject.bind fun lookup => lookup text).filter
        (Raw.isTruthy L.truthy)

/-- `decode` for a value that is not null and a type that is no list type. -/
def decodeScalar
    (columnMetadata : Option (ColumnMetadata L.Number))
    (annotationCode : TypeAnnotationCode) (protoTypeFqn : String)
    (value : Raw L.Number) : TypeCode → Option (Value L)
  | .BYTES => (L.bufferFrom value).map .buffer
  | .PROTO =>
      (L.bufferFrom value).map fun buffer =>
        .protoMessage buffer protoTypeFqn
  | .ENUM =>
      (newProtoEnum columnMetadata value).map fun value =>
        .protoEnum value protoTypeFqn
  | .FLOAT32 => some (.float32 value)
  | .FLOAT64 => some (.float value)
  | .INT64 =>
      if annotationCode = .PG_OID then
        (value.toString L.numberToString).map .pgOid
      else
        (value.toString L.numberToString).map .int
  | .NUMERIC =>
      if annotationCode = .PG_NUMERIC then
        (value.toString L.numberToString).map .pgNumeric
      else
        some (.numeric value)
  | .TIMESTAMP => some (.preciseDate (L.newPreciseDate value))
  | .DATE => some (.spannerDate (L.newSpannerDate value))
  | .JSON =>
      if annotationCode = .PG_JSONB then
        (newPGJsonb value).map .pgJsonb
      else
        (L.parse value).map .json
  | .INTERVAL =>
      ((value.toString L.numberToString).bind Interval.fromISO8601).map
        .interval
  | .TYPE_CODE_UNSPECIFIED => some (.ofRaw value)
  | .BOOL => some (.ofRaw value)
  | .STRING => some (.ofRaw value)
  | .UUID => some (.ofRaw value)

mutual

/-- `decode`; `none` if it throws. -/
def decode
    (columnMetadata : Option (ColumnMetadata L.Number)) :
    SpannerType → Raw L.Number → Option (Value L)
  | _, .null => some .null
  | .scalar code annotationCode protoTypeFqn, value =>
      decodeScalar columnMetadata annotationCode protoTypeFqn value code
  | .array arrayElementType, .list values =>
      (values.mapM (decode columnMetadata arrayElementType)).map .array
  | .array _, _ => none
  | .struct fields, value =>
      (decodeFields columnMetadata fields 0 value).map .struct

def decodeFields
    (columnMetadata : Option (ColumnMetadata L.Number)) :
    List (String × SpannerType) → Nat → Raw L.Number →
      Option (List (String × Value L))
  | [], _, _ => some []
  | (name, type) :: fields, index, decoded =>
      (decode columnMetadata type (decoded.member L.truthy name index)).bind
        fun value =>
          (decodeFields columnMetadata fields (index + 1) decoded).map
            fun rest => (name, value) :: rest

end

end Codec
end SpannerClient
