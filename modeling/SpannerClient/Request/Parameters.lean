import Mathlib.Data.List.TakeWhile
import SpannerClient.Codec.TypeInference
import SpannerClient.Machine.Objects

/-!
# The parameters of a query

`encodeParams` encodes the parameters of a request and gives a type to those that
have none.  It is called again for a request it has prepared, and tells such a
request by the property `fields` that the map of its parameters has.

The maps are plain objects: a parameter may have the name of a property that all
objects inherit, or the name `fields`.  The map of the types may have entries
that are not truthy.  Those that belong to a parameter are replaced by the type
of its value; the others count as unspecified, but where the flag asks for the
`child` of a type, null and undefined throw.

There are two loops, one over the parameters (`encodeEach`) and one over the
types (`sendEach`).  Either ends where it throws and keeps what it has written;
`encodeEach_types`, `encodeEach_fields` and `sendEach_eq` say what that is, as a
loop of assignments that cannot fail.

`Encodable` is what a request has to meet, and `params_faithful_iff_encodable`
says that it is then prepared faithfully, and in no other case.
-/

namespace SpannerClient
namespace Request

open Codec
open Machine
open PlainObject

variable {L : Leaves}

/-- The value is truthy. -/
def truthy : Value L → Bool
  | .null => false
  | .undefined => false
  | .boolean b => b
  | .number x => L.truthy x
  | .string s => s != ""
  | _ => true

/-- `fields` of the `Struct` that is sent: the encoded parameters, or what the
request had under the name. -/
inductive StructFields
    (L : Leaves) where
  | encoded (fields : PlainObject (ProtoValue L.Number))
  | given (value : Value L)

/-- `request.params`: a map of the parameters, or a `Struct`. -/
inductive Params
    (L : Leaves) where
  | plain (params : PlainObject (Value L))
  | struct (fields : StructFields L)

/-- What a map of types has under a name. -/
inductive TypeEntry where
  /-- `null` or `undefined`. -/
  | nullish
  /-- `''`, which is not truthy either. -/
  | emptyString
  | type (friendlyType : FriendlyType)

/-- The type of an entry that is truthy. -/
def TypeEntry.friendlyType : TypeEntry → Option FriendlyType
  | .type friendlyType => some friendlyType
  | _ => none

def TypeEntry.truthy
    (entry : TypeEntry) : Bool :=
  entry.friendlyType.isSome

def TypeEntry.isNullish : TypeEntry → Bool
  | .nullish => true
  | _ => false

/-- The types by the names of the parameters. -/
abbrev TypeMap := PlainObject TypeEntry

/-- What `encodeParams` reads of a request. -/
structure ExecuteSqlRequest (L : Leaves) where
  params : Option (Params L) := none
  types : Option TypeMap := none
  paramTypes : Option (PlainObject SpannerType) := none

/-- What `encodeParams` leaves behind: the two maps, and `params` if it has not
thrown. -/
structure Encoded (L : Leaves) where
  typeMap : TypeMap
  paramTypes : PlainObject SpannerType
  params : Option (StructFields L)

/-- `if (!typeMap[param]) typeMap[param] = codec.getType(value)`. -/
def inferType
    (I : Inference L) (typeMap : TypeMap) (param : String × Value L) :
    TypeMap :=
  if typeMap.truthyAt TypeEntry.truthy param.1 then typeMap
  else typeMap.assign param.1 (.type (getType I param.2))

/-- The loop over the parameters; it ends where a value cannot be encoded. -/
def encodeEach
    (I : Inference L) :
    List (String × Value L) → TypeMap → PlainObject (ProtoValue L.Number) →
      TypeMap × Option (PlainObject (ProtoValue L.Number))
  | [], typeMap, fields => (typeMap, some fields)
  | param :: params, typeMap, fields =>
      match Codec.encode param.2 with
      | none => (inferType I typeMap param, none)
      | some value =>
          encodeEach I params (inferType I typeMap param)
            (fields.assign param.1 value)

/-- `request.params.fields` of a map of parameters, if it is truthy. -/
def givenFields
    (params : PlainObject (Value L)) : Option (Value L) :=
  (params.get "fields").filter truthy

/-- The first part of `encodeParams`. -/
def encodeGiven
    (I : Inference L) (typeMap : TypeMap) :
    Option (Params L) → TypeMap × Option (StructFields L)
  | none => (typeMap, some (.encoded .empty))
  | some (.struct fields) => (typeMap, some fields)
  | some (.plain params) =>
      match givenFields params with
      | some value => (typeMap, some (.given value))
      | none =>
          ((encodeEach I params.entries typeMap .empty).1,
            (encodeEach I params.entries typeMap .empty).2.map .encoded)

def isUnspecified : SpannerType → Bool
  | .scalar .TYPE_CODE_UNSPECIFIED _ _ => true
  | _ => false

/-- The type is sent although the flag is set. -/
def isSpecified
    (type : Option FriendlyType) : Bool :=
  match type with
  | some (.mk _ _ (some _) _) =>
      match createChildTypeObject type with
      | .array element => !isUnspecified element
      | _ => false
  | _ => !isUnspecified (createChildTypeObject type)

/-- What is sent for a type of the map. -/
def sentType
    (I : Inference L) (type : TypeEntry) : Option SpannerType :=
  if I.uuidAsUntyped && !isSpecified type.friendlyType then none
  else some (createChildTypeObject type.friendlyType)

/-- `type.child` throws. -/
def noChild
    (I : Inference L) (type : TypeEntry) : Bool :=
  I.uuidAsUntyped && type.isNullish

/-- The loop over the types, and whether it has come to its end. -/
def sendEach
    (I : Inference L) :
    List (String × TypeEntry) → PlainObject SpannerType →
      PlainObject SpannerType × Bool
  | [], paramTypes => (paramTypes, true)
  | entry :: entries, paramTypes =>
      if noChild I entry.2 then
        (paramTypes, false)
      else
        match sentType I entry.2 with
        | none => sendEach I entries paramTypes
        | some type => sendEach I entries (paramTypes.assign entry.1 type)

/-- `Snapshot.encodeParams`. -/
def encodeParams
    (I : Inference L) (request : ExecuteSqlRequest L) : Encoded L :=
  let typeMap := request.types.getD .empty
  let paramTypes := request.paramTypes.getD .empty
  match encodeGiven I typeMap request.params with
  | (typeMap, none) =>
      { typeMap := typeMap
        paramTypes := paramTypes
        params := none }
  | (typeMap, some params) =>
      let sent := sendEach I typeMap.entries paramTypes
      { typeMap := typeMap
        paramTypes := sent.1
        params := bif sent.2 then some params else none }

/-- `sanitizeRequest` of `runStream`: the request it leaves, if it does not
throw. -/
def sanitizeRequest
    (I : Inference L) (query : ExecuteSqlRequest L) :
    Option (ExecuteSqlRequest L) :=
  (encodeParams I query).params.map fun fields =>
    { query with
      types := none
      params := some (.struct fields)
      paramTypes := some (encodeParams I query).paramTypes }

/-- `createQueryPartitions`: the request of each partition, if it does not
throw. -/
def createQueryPartitions
    (I : Inference L) (request : ExecuteSqlRequest L) :
    Option (ExecuteSqlRequest L) :=
  (encodeParams I request).params.map fun fields =>
    { params := some (.struct fields)
      paramTypes := some (encodeParams I request).paramTypes
      types := none }

/-! ## The loops -/

/-- What inference adds for a parameter. -/
def inferred
    (I : Inference L) (types : TypeMap) (param : String) (value : Value L) :
    Option TypeEntry :=
  if types.truthyAt TypeEntry.truthy param then none
  else some (.type (getType I value))

theorem inferType_eq
    (I : Inference L) (types : TypeMap) (param : String × Value L) :
    inferType I types param = assignOne (inferred I types) types param := by
  rw [inferType, assignOne, inferred]
  split <;> rfl

/-- Inference for one parameter does not change what it adds for another. -/
theorem inferred_inferType
    (I : Inference L) (types : TypeMap) {head param : String × Value L}
    (h : param.1 ≠ head.1) :
    inferred I (inferType I types head) param.1 param.2 =
      inferred I types param.1 param.2 := by
  have hget : (inferType I types head).get param.1 = types.get param.1 := by
    rw [inferType_eq]
    exact get_assignOne_of_ne types h
  rw [inferred, inferred, truthyAt, truthyAt, hget]

/-- The parameters up to the first that cannot be encoded. -/
def reached : List (String × Value L) → List (String × Value L)
  | [] => []
  | param :: params =>
      match Codec.encode param.2 with
      | none => [param]
      | some _ => param :: reached params

theorem reached_sublist
    (params : List (String × Value L)) :
    (reached params).Sublist params := by
  induction params with
  | nil => exact List.Sublist.slnil
  | cons param params ih =>
      rw [reached]
      split
      · exact (List.nil_sublist params).cons_cons param
      · exact ih.cons_cons param

/-- The types that the loop has added. -/
theorem encodeEach_types
    (I : Inference L) {params : List (String × Value L)}
    (hnodup : (params.map Prod.fst).Nodup)
    (types : TypeMap) (fields : PlainObject (ProtoValue L.Number)) :
    (encodeEach I params types fields).1 =
      assignAll (inferred I types) (reached params) types := by
  induction params generalizing types fields with
  | nil => rfl
  | cons param params ih =>
      rw [List.map_cons, List.nodup_cons] at hnodup
      rw [encodeEach, reached]
      cases Codec.encode param.2 with
      | none =>
          rw [inferType_eq]
          rfl
      | some value =>
          have hrest :
              ∀ p ∈ reached params,
                inferred I (inferType I types param) p.1 p.2 =
                  inferred I types p.1 p.2 := by
            intro p hp
            refine inferred_inferType I types ?_
            intro heq
            have hmem := (reached_sublist params).subset hp
            exact hnodup.1 (heq ▸ List.mem_map_of_mem hmem)
          calc
            (encodeEach I params (inferType I types param)
                (fields.assign param.1 value)).1
                = assignAll (inferred I (inferType I types param))
                    (reached params) (inferType I types param) :=
              ih hnodup.2 _ _
            _ = assignAll (inferred I types) (reached params)
                  (inferType I types param) :=
              assignAll_congr hrest _
            _ = assignAll (inferred I types) (param :: reached params)
                  types := by
              rw [inferType_eq]
              rfl

/-- The fields that the loop makes, if it encodes every value. -/
theorem encodeEach_fields
    (I : Inference L) {params : List (String × Value L)}
    (h : ∀ param ∈ params, (Codec.encode param.2).isSome)
    (types : TypeMap) (fields : PlainObject (ProtoValue L.Number)) :
    (encodeEach I params types fields).2 =
      some (assignAll (fun _ value => Codec.encode value) params fields) := by
  induction params generalizing types fields with
  | nil => rfl
  | cons param params ih =>
      obtain ⟨value, hvalue⟩ :=
        Option.isSome_iff_exists.mp (h param List.mem_cons_self)
      have hrest := fun p hp => h p (List.mem_cons_of_mem param hp)
      rw [encodeEach, hvalue, assignAll, List.foldl_cons, assignOne, hvalue]
      exact ih hrest _ _

theorem encodable_of_fields
    {I : Inference L} {params : List (String × Value L)}
    {types : TypeMap} {fields : PlainObject (ProtoValue L.Number)}
    (h : (encodeEach I params types fields).2.isSome) :
    ∀ param ∈ params, (Codec.encode param.2).isSome := by
  induction params generalizing types fields with
  | nil => exact nofun
  | cons param params ih =>
      rw [encodeEach] at h
      cases hvalue : Codec.encode param.2 with
      | none => simp [hvalue] at h
      | some value =>
          rw [hvalue] at h
          rw [List.forall_mem_cons]
          exact ⟨by simp [hvalue], ih h⟩

theorem reached_of_encodable
    {params : List (String × Value L)}
    (h : ∀ param ∈ params, (Codec.encode param.2).isSome) :
    reached params = params := by
  induction params with
  | nil => rfl
  | cons param params ih =>
      obtain ⟨value, hvalue⟩ :=
        Option.isSome_iff_exists.mp (h param List.mem_cons_self)
      rw [reached, hvalue]
      exact congrArg _ (ih fun p hp => h p (List.mem_cons_of_mem _ hp))

/-- What the loop over the types makes of the entries up to the first that
throws. -/
theorem sendEach_eq
    (I : Inference L) (entries : List (String × TypeEntry))
    (paramTypes : PlainObject SpannerType) :
    sendEach I entries paramTypes =
      (assignAll (fun _ type => sentType I type)
          (entries.takeWhile fun entry => !noChild I entry.2) paramTypes,
        entries.all fun entry => !noChild I entry.2) := by
  induction entries generalizing paramTypes with
  | nil => rfl
  | cons entry entries ih =>
      rw [sendEach]
      cases hchild : noChild I entry.2 with
      | true => simp [hchild, assignAll]
      | false =>
          have htake :
              (entry :: entries).takeWhile (fun e => !noChild I e.2) =
                entry :: entries.takeWhile fun e => !noChild I e.2 := by
            rw [List.takeWhile_cons_of_pos]
            simp [hchild]
          rw [htake, List.all_cons, hchild]
          cases hsent : sentType I entry.2 with
          | none =>
              have hone :
                  assignOne (fun _ type => sentType I type) paramTypes entry =
                    paramTypes := by
                rw [assignOne, hsent]
              simp [ih, assignAll, hone]
          | some type =>
              have hone :
                  assignOne (fun _ type => sentType I type) paramTypes entry =
                    paramTypes.assign entry.1 type := by
                rw [assignOne, hsent]
              simp [ih, assignAll, hone]

/-- A loop over the types that comes to its end. -/
theorem sendEach_of_children
    {I : Inference L} {entries : List (String × TypeEntry)}
    (h : ∀ entry ∈ entries, noChild I entry.2 = false)
    (paramTypes : PlainObject SpannerType) :
    sendEach I entries paramTypes =
      (assignAll (fun _ type => sentType I type) entries paramTypes,
        true) := by
  have hall : ∀ entry ∈ entries, (!noChild I entry.2) = true := by
    intro entry hentry
    rw [h entry hentry, Bool.not_false]
  rw [sendEach_eq, List.all_eq_true.mpr hall]
  congr 2
  exact List.takeWhile_eq_self_iff.mpr hall

/-! ## What is to be sent -/

/-- The type that counts for a parameter: the one supplied, or else the one that
is inferred. -/
def friendlyTypeOf
    (I : Inference L) (types : TypeMap) (param : String) (value : Value L) :
    FriendlyType :=
  ((types.get param).bind TypeEntry.friendlyType).getD (getType I value)

/-- The parameters are encoded and have their types. -/
structure Faithful
    (I : Inference L) (params : PlainObject (Value L)) (types : TypeMap)
    (fields : PlainObject (ProtoValue L.Number))
    (paramTypes : PlainObject SpannerType) : Prop where
  fields : ∀ param, fields.get param = (params.get param).bind Codec.encode
  paramTypes :
    ∀ param value, params.get param = some value →
      paramTypes.get param =
        some (createTypeObject (friendlyTypeOf I types param value))

/-- The loops add the type of the parameter: it is not taken for one of the
inherited properties, and it is sent. -/
def AddsType
    (I : Inference L) (types : TypeMap) (param : String) (value : Value L) :
    Prop :=
  (types.get param ≠ none ∨ param ∉ inheritedNames) ∧
    (I.uuidAsUntyped = true →
      isSpecified (some (friendlyTypeOf I types param value)) = true)

/-- Every value can be encoded, no parameter is named `__proto__`, none with a
truthy value is named `fields`, the types are added or there already, and the flag
finds no type null or undefined that belongs to no parameter. -/
structure Encodable
    (I : Inference L) (params : PlainObject (Value L)) (types : TypeMap)
    (paramTypes : PlainObject SpannerType) : Prop where
  values :
    ∀ param value, params.get param = some value →
      (Codec.encode value).isSome
  proto : params.get "__proto__" = none
  fields :
    ∀ value, params.get "fields" = some value → truthy value = false
  children :
    ∀ name type, types.get name = some type → noChild I type = true →
      params.get name ≠ none
  types :
    ∀ param value, params.get param = some value →
      AddsType I types param value ∨
        paramTypes.get param =
          some (createTypeObject (friendlyTypeOf I types param value))

/-! ## The types of the parameters -/

section Types

variable {I : Inference L} {params : PlainObject (Value L)} {types : TypeMap}
variable {param : String} {value : Value L}

theorem inferred_of_truthyAt
    (h : types.truthyAt TypeEntry.truthy param = true) :
    inferred I types param value = none :=
  if_pos h

theorem inferred_of_not_truthyAt
    (h : ¬ types.truthyAt TypeEntry.truthy param = true) :
    inferred I types param value = some (.type (getType I value)) :=
  if_neg h

/-- After inference the map has the type that counts. -/
theorem get_inferred
    (hvalue : params.get param = some value)
    (hown : types.get param ≠ none ∨ param ∉ inheritedNames) :
    (assignAll (inferred I types) params.entries types).get param =
      some (.type (friendlyTypeOf I types param value)) := by
  by_cases htruthy : types.truthyAt TypeEntry.truthy param = true
  · -- the type is supplied
    rw [get_assignAll_of_none hvalue (inferred_of_truthyAt htruthy)]
    cases htype : types.get param with
    | none =>
        have hinherited : param ∈ inheritedNames := by
          simpa [truthyAt, htype] using htruthy
        exact absurd hinherited (hown.resolve_left fun h => h htype)
    | some type =>
        cases type with
        | type type => simp [friendlyTypeOf, htype, TypeEntry.friendlyType]
        | _ =>
            simp [truthyAt, htype, TypeEntry.truthy,
              TypeEntry.friendlyType] at htruthy
  · have hlost : ¬ types.lost param := fun h =>
      htruthy (truthyAt_of_lost h TypeEntry.truthy)
    have hbind : (types.get param).bind TypeEntry.friendlyType = none := by
      cases htype : types.get param with
      | none => rfl
      | some type =>
          simpa [truthyAt, htype, TypeEntry.truthy] using htruthy
    rw [get_assignAll_of_some hvalue (inferred_of_not_truthyAt htruthy) hlost,
      friendlyTypeOf, hbind, Option.getD_none]

/-- A name that is taken for an inherited property gets no type. -/
theorem get_inferred_inherited
    (hvalue : params.get param = some value)
    (hnone : types.get param = none)
    (hinherited : param ∈ inheritedNames) :
    (assignAll (inferred I types) params.entries types).get param = none := by
  have htruthy : types.truthyAt TypeEntry.truthy param = true := by
    simp [truthyAt, hnone, hinherited]
  rw [get_assignAll_of_none hvalue (inferred_of_truthyAt htruthy), hnone]

/-- A type of the map is sent, or what was there stays. -/
theorem get_sent
    {typeMap : TypeMap} {type : TypeEntry}
    (htype : typeMap.get param = some type)
    (hproto : param ≠ "__proto__")
    (paramTypes : PlainObject SpannerType) :
    (assignAll (fun _ type => sentType I type) typeMap.entries
        paramTypes).get param =
      (sentType I type).or (paramTypes.get param) := by
  cases hsent : sentType I type with
  | none => exact get_assignAll_of_none htype hsent
  | some y =>
      exact get_assignAll_of_some htype hsent fun hlost => hproto hlost.1

theorem sentType_of_specified
    {type : FriendlyType}
    (h : I.uuidAsUntyped = true → isSpecified (some type) = true) :
    sentType I (.type type) = some (createTypeObject type) := by
  rw [sentType, if_neg]
  · rfl
  · simpa [TypeEntry.friendlyType] using h

theorem sentType_of_not_specified
    {type : FriendlyType}
    (h : ¬ (I.uuidAsUntyped = true → isSpecified (some type) = true)) :
    sentType I (.type type) = none := by
  rw [sentType, if_pos]
  simpa [TypeEntry.friendlyType] using h

theorem noChild_of_type
    (I : Inference L) (type : FriendlyType) :
    noChild I (.type type) = false :=
  Bool.and_false _

/-- No type of the map that has been inferred lacks its `child`. -/
def HasChildren
    (I : Inference L) (params : PlainObject (Value L)) (types : TypeMap) :
    Prop :=
  ∀ entry ∈ (assignAll (inferred I types) params.entries types).entries,
    noChild I entry.2 = false

/-- Inference replaces what belongs to a parameter and nothing else. -/
theorem hasChildren_iff :
    HasChildren I params types ↔
      ∀ name type, types.get name = some type → noChild I type = true →
        params.get name ≠ none := by
  constructor
  · intro h name type htype hchild hnone
    have hget :
        (assignAll (inferred I types) params.entries types).get name =
          some type :=
      (get_assignAll_of_get_none hnone).trans htype
    have hhas := h (name, type) ((mem_entries_iff _ _ _).mpr hget)
    rw [hchild] at hhas
    cases hhas
  · rintro h ⟨name, type⟩ hentry
    have hget := (mem_entries_iff _ _ _).mp hentry
    cases hvalue : params.get name with
    | none =>
        rw [get_assignAll_of_get_none hvalue] at hget
        by_contra hchild
        exact h name type hget (by simpa using hchild) hvalue
    | some value =>
        by_cases hown : types.get name ≠ none ∨ name ∉ inheritedNames
        · rw [get_inferred hvalue hown] at hget
          obtain rfl := Option.some.inj hget
          exact noChild_of_type I _
        · rw [not_or, not_not, not_not] at hown
          rw [get_inferred_inherited hvalue hown.1 hown.2] at hget
          cases hget

/-- The types after both loops. -/
def typesAfter
    (I : Inference L) (params : PlainObject (Value L)) (types : TypeMap)
    (paramTypes : PlainObject SpannerType) : PlainObject SpannerType :=
  assignAll (fun _ type => sentType I type)
    (assignAll (inferred I types) params.entries types).entries paramTypes

theorem get_typesAfter_of_adds
    (hvalue : params.get param = some value)
    (hproto : param ≠ "__proto__")
    (hadds : AddsType I types param value)
    (paramTypes : PlainObject SpannerType) :
    (typesAfter I params types paramTypes).get param =
      some (createTypeObject (friendlyTypeOf I types param value)) := by
  rw [typesAfter, get_sent (get_inferred hvalue hadds.1) hproto,
    sentType_of_specified hadds.2, Option.some_or]

theorem get_typesAfter_of_not_adds
    (hvalue : params.get param = some value)
    (hproto : param ≠ "__proto__")
    (hadds : ¬ AddsType I types param value)
    (paramTypes : PlainObject SpannerType) :
    (typesAfter I params types paramTypes).get param =
      paramTypes.get param := by
  by_cases hown : types.get param ≠ none ∨ param ∉ inheritedNames
  · have hnot :
        ¬ (I.uuidAsUntyped = true →
          isSpecified (some (friendlyTypeOf I types param value)) = true) :=
      fun h => hadds ⟨hown, h⟩
    rw [typesAfter, get_sent (get_inferred hvalue hown) hproto,
      sentType_of_not_specified hnot, Option.none_or]
  · rw [not_or, not_not, not_not] at hown
    exact
      get_assignAll_of_get_none
        (get_inferred_inherited hvalue hown.1 hown.2)

end Types

/-! ## Faithful encodings -/

section Requests

variable (I : Inference L) (params : PlainObject (Value L))
variable (types : Option TypeMap)
variable (paramTypes : Option (PlainObject SpannerType))

/-- A request with a map of parameters. -/
def plainRequest : ExecuteSqlRequest L where
  params := some (.plain params)
  types := types
  paramTypes := paramTypes

/-- What is made of a map of parameters that is taken for one. -/
theorem encodeParams_of_encodable
    (hfields : givenFields params = none)
    (hvalues : ∀ param ∈ params.entries, (Codec.encode param.2).isSome)
    (hchildren : HasChildren I params (types.getD .empty)) :
    (encodeParams I (plainRequest params types paramTypes)).params =
        some
          (.encoded
            (assignAll (fun _ value => Codec.encode value) params.entries
              .empty)) ∧
      (encodeParams I (plainRequest params types paramTypes)).paramTypes =
        typesAfter I params (types.getD .empty) (paramTypes.getD .empty) := by
  have hgiven :
      encodeGiven I (types.getD .empty) (some (.plain params)) =
        (assignAll (inferred I (types.getD .empty)) params.entries
            (types.getD .empty),
          some
            (.encoded
              (assignAll (fun _ value => Codec.encode value) params.entries
                .empty))) := by
    rw [encodeGiven, hfields]
    simp only [encodeEach_types I params.nodup,
      encodeEach_fields I hvalues, reached_of_encodable hvalues,
      Option.map_some]
  simp [encodeParams, plainRequest, hgiven, typesAfter,
    sendEach_of_children hchildren]

theorem givenFields_eq_none_iff :
    givenFields params = none ↔
      ∀ value, params.get "fields" = some value → truthy value = false := by
  rw [givenFields, Option.filter_eq_none_iff]
  simp

/-- A map is encoded only if it is taken for one, every value can be encoded, and
no type throws. -/
theorem encodable_of_encoded
    {fields : PlainObject (ProtoValue L.Number)}
    (h :
      (encodeParams I (plainRequest params types paramTypes)).params =
        some (.encoded fields)) :
    givenFields params = none ∧
      (∀ param ∈ params.entries, (Codec.encode param.2).isSome) ∧
      HasChildren I params (types.getD .empty) := by
  simp only [encodeParams, plainRequest, encodeGiven] at h
  cases hfields : givenFields params with
  | some value =>
      -- what is taken for encoded parameters is not encoded
      simp only [hfields] at h
      cases hdone :
          (sendEach I (types.getD .empty).entries
            (paramTypes.getD .empty)).2 with
      | false => simp [hdone] at h
      | true => simp [hdone] at h
  | none =>
      simp only [hfields] at h
      cases hencoded :
          (encodeEach I params.entries (types.getD .empty) .empty).2 with
      | none => simp [hencoded] at h
      | some encoded =>
          have hvalues :=
            encodable_of_fields
              (Option.isSome_iff_exists.mpr ⟨encoded, hencoded⟩)
          have hdone :
              (sendEach I
                (encodeEach I params.entries (types.getD .empty)
                  .empty).1.entries (paramTypes.getD .empty)).2 = true := by
            by_contra hnot
            rw [Bool.not_eq_true] at hnot
            simp [hencoded, hnot] at h
          rw [encodeEach_types I params.nodup, reached_of_encodable hvalues,
            sendEach_eq, List.all_eq_true] at hdone
          refine ⟨rfl, hvalues, ?_⟩
          intro entry hentry
          simpa using hdone entry hentry

theorem ne_proto
    {param : String} {value : Value L}
    (hproto : params.get "__proto__" = none)
    (hvalue : params.get param = some value) :
    param ≠ "__proto__" := by
  rintro rfl
  rw [hproto] at hvalue
  cases hvalue

/-- The fields are the encoded parameters, if none of them is `__proto__`. -/
theorem get_fields
    (hproto : params.get "__proto__" = none)
    (param : String) :
    (assignAll (fun _ value => Codec.encode value) params.entries
        .empty).get param =
      (params.get param).bind Codec.encode := by
  cases hvalue : params.get param with
  | none => exact get_assignAll_of_get_none hvalue
  | some value =>
      rw [Option.bind_some]
      cases hencode : Codec.encode value with
      | none => exact get_assignAll_of_none hvalue hencode
      | some x =>
          refine get_assignAll_of_some hvalue hencode ?_
          intro hlost
          exact ne_proto params hproto hvalue hlost.1

theorem get_fields_proto
    {value : Value L}
    (hvalue : params.get "__proto__" = some value) :
    (assignAll (fun _ value => Codec.encode value) params.entries
        .empty).get "__proto__" = none := by
  cases hencode : Codec.encode value with
  | none => exact get_assignAll_of_none hvalue hencode
  | some x =>
      exact get_assignAll_of_lost hvalue hencode ⟨rfl, get_empty _⟩

end Requests

/-- A request that has been prepared is left as it is. -/
theorem sanitizeRequest_again
    {I : Inference L} {query prepared : ExecuteSqlRequest L}
    (h : sanitizeRequest I query = some prepared) :
    sanitizeRequest I prepared = some prepared := by
  obtain ⟨fields, -, rfl⟩ := Option.map_eq_some_iff.mp h
  rfl

/--
A request with a map of parameters is prepared faithfully, for a query and for its
partitions, and stays so when it is prepared again, exactly if the map is
encodable.
-/
theorem params_faithful_iff_encodable
    (I : Inference L) (params : PlainObject (Value L))
    (types : Option TypeMap)
    (paramTypes : Option (PlainObject SpannerType)) :
    (∃ fields prepared,
      sanitizeRequest I (plainRequest params types paramTypes) =
          some prepared ∧
        createQueryPartitions I (plainRequest params types paramTypes) =
          some prepared ∧
        prepared.params = some (.struct (.encoded fields)) ∧
        Faithful I params (types.getD .empty) fields
          (prepared.paramTypes.getD .empty) ∧
        sanitizeRequest I prepared = some prepared) ↔
      Encodable I params (types.getD .empty) (paramTypes.getD .empty) := by
  constructor
  · rintro ⟨fields, prepared, hprepared, -, hparams, hfaithful, -⟩
    obtain ⟨given, hgiven, rfl⟩ := Option.map_eq_some_iff.mp hprepared
    obtain rfl := Params.struct.inj (Option.some.inj hparams)
    obtain ⟨hfields, hvalues, hchildren⟩ :=
      encodable_of_encoded I params types paramTypes hgiven
    obtain ⟨hencoded, htypes⟩ :=
      encodeParams_of_encodable I params types paramTypes hfields hvalues
        hchildren
    rw [hencoded] at hgiven
    obtain rfl := StructFields.encoded.inj (Option.some.inj hgiven)
    rw [Option.getD_some, htypes] at hfaithful
    have hproto : params.get "__proto__" = none := by
      by_contra hsome
      obtain ⟨value, hvalue⟩ := Option.ne_none_iff_exists'.mp hsome
      have hget := hfaithful.fields "__proto__"
      rw [get_fields_proto params hvalue, hvalue, Option.bind_some] at hget
      have hencode :=
        hvalues _ ((mem_entries_iff params _ _).mpr hvalue)
      rw [← hget] at hencode
      cases hencode
    refine
      ⟨?_, hproto, (givenFields_eq_none_iff params).mp hfields,
        hasChildren_iff.mp hchildren, ?_⟩
    · intro param value hvalue
      exact hvalues _ ((mem_entries_iff params param value).mpr hvalue)
    · intro param value hvalue
      have hne := ne_proto params hproto hvalue
      by_cases hadds : AddsType I (types.getD .empty) param value
      · exact Or.inl hadds
      · have hget := hfaithful.paramTypes param value hvalue
        rw [get_typesAfter_of_not_adds hvalue hne hadds] at hget
        exact Or.inr hget
  · intro h
    have hvalues :
        ∀ param ∈ params.entries, (Codec.encode param.2).isSome := by
      intro param hparam
      exact
        h.values param.1 param.2 ((mem_entries_iff params _ _).mp hparam)
    obtain ⟨hencoded, htypes⟩ :=
      encodeParams_of_encodable I params types paramTypes
        ((givenFields_eq_none_iff params).mpr h.fields) hvalues
        (hasChildren_iff.mpr h.children)
    have hprepared :
        sanitizeRequest I (plainRequest params types paramTypes) = some _ :=
      Option.map_eq_some_iff.mpr ⟨_, hencoded, rfl⟩
    refine
      ⟨_, _, hprepared, Option.map_eq_some_iff.mpr ⟨_, hencoded, rfl⟩, rfl,
        ?_, sanitizeRequest_again hprepared⟩
    rw [Option.getD_some, htypes]
    constructor
    · exact get_fields params h.proto
    · intro param value hvalue
      have hne := ne_proto params h.proto hvalue
      by_cases hadds : AddsType I (types.getD .empty) param value
      · exact get_typesAfter_of_adds hvalue hne hadds _
      · rw [get_typesAfter_of_not_adds hvalue hne hadds]
        exact (h.types param value hvalue).resolve_left hadds

/-- One parameter, which has the name `fields`. -/
def fieldsParams : PlainObject (Value textLeaves) where
  entries := [("fields", .string "id")]
  nodup := by simp

/-- Its value is taken for the encoded parameters. -/
theorem fieldsParams_not_faithful :
    ¬ ∀ params : PlainObject (Value textLeaves),
      ∃ fields prepared,
        sanitizeRequest textInference (plainRequest params none none) =
            some prepared ∧
          prepared.params = some (.struct (.encoded fields)) ∧
          Faithful textInference params .empty fields
            (prepared.paramTypes.getD .empty) := by
  intro h
  obtain ⟨fields, prepared, hprepared, hparams, -⟩ := h fieldsParams
  obtain ⟨given, hgiven, rfl⟩ := Option.map_eq_some_iff.mp hprepared
  obtain rfl := Params.struct.inj (Option.some.inj hparams)
  have hfields := (encodable_of_encoded _ _ _ _ hgiven).1
  rw [givenFields_eq_none_iff] at hfields
  have hfalsy := hfields (.string "id") rfl
  simp [truthy] at hfalsy

end Request
end SpannerClient
