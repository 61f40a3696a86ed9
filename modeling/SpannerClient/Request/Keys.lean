import SpannerClient.Codec.RoundTrip
import SpannerClient.Machine.Base64
import SpannerClient.Machine.Containers

/-!
# Keys

A key is a list of parts, and one that has only one part may be given as that
part.  `toArray` has to tell the two apart: it takes null for no parts at all,
and anything that can be iterated over for the list of what it yields.

The model has the parts of a key with the types the client gives them, buffers and
typed arrays by the functions that iterate over them (`Bytes`), and the requests
that carry keys: `encodeKeySet` for a read, with its defaults, and
`buildDeleteMutation`.

`Key.whole` says that a key is not taken apart.  The main result is
`keys_encoded_iff_whole`: the keys of a request are encoded as they are meant
exactly if all of them are whole; a buffer is not.
-/

namespace SpannerClient
namespace Request

open Codec
open Machine

/-- What buffers and bytes have to do with the leaves. -/
structure Bytes
    (L : Leaves) where
  /-- What iterating over a buffer yields. -/
  bytes : L.Buffer → List UInt8
  ofByte : UInt8 → L.Number
  toBase64_eq : ∀ b, L.toBase64 b = base64 (bytes b)
  isDecimal_ofByte : ∀ byte, L.isDecimal (ofByte byte) = false
  numberToString_ofByte :
    ∀ byte, L.numberToString (ofByte byte) = byte.toNat.repr

/-- A part of a key. -/
inductive KeyScalar
    (L : Leaves) where
  | null
  | string (s : String)
  | number (x : L.Number)
  | boolean (b : Bool)
  | spannerDate (d : L.SpannerDate)
  | preciseDate (d : L.PreciseDate)
  | buffer (b : L.Buffer)
  | uint8Array (bytes : List UInt8)
  | int (value : String)
  | numeric (value : String)
  | pgNumeric (value : String)
  | pgOid (value : String)
  | float32 (x : L.Number)
  | float (x : L.Number)

inductive Key
    (L : Leaves) where
  | scalar (part : KeyScalar L)
  | composite (parts : List (KeyScalar L))

variable {L : Leaves}

/-- The part as a value of the client; `none` for what the codec does not know. -/
def KeyScalar.toValue : KeyScalar L → Option (Value L)
  | .null => some .null
  | .string s => some (.string s)
  | .number x => some (.number x)
  | .boolean b => some (.boolean b)
  | .spannerDate d => some (.spannerDate d)
  | .preciseDate d => some (.preciseDate d)
  | .buffer b => some (.buffer b)
  | .uint8Array _ => none
  | .int value => some (.int value)
  | .numeric value => some (.numeric (.string value))
  | .pgNumeric value => some (.pgNumeric value)
  | .pgOid value => some (.pgOid value)
  | .float32 x => some (.float32 (.number x))
  | .float x => some (.float (.number x))

/-- `codec.encode` of a part; it throws for a `Uint8Array`. -/
def KeyScalar.encode
    (part : KeyScalar L) : Option (ProtoValue L.Number) :=
  part.toValue.bind Codec.encode

/-- The parts that the key is given by. -/
def Key.parts : Key L → List (KeyScalar L)
  | .scalar part => [part]
  | .composite parts => parts

/-- `toArray`. -/
def toArray
    (B : Bytes L) : Key L → List (KeyScalar L)
  | .composite parts => parts
  | .scalar .null => []
  | .scalar (.buffer b) =>
      (B.bytes b).map fun byte => .number (B.ofByte byte)
  | .scalar (.uint8Array bytes) =>
      bytes.map fun byte => .number (B.ofByte byte)
  | .scalar part => [part]

/-- `codec.convertToListValue`. -/
def convertToListValue
    (B : Bytes L) (key : Key L) : Option (List (ProtoValue L.Number)) :=
  (toArray B key).mapM KeyScalar.encode

/-- A range: the keys of its bounds, by their names. -/
abbrev KeyRange (α : Type) := List (String × α)

/-- `google.spanner.v1.KeySet`. -/
structure KeySet (ν : Type) where
  keys : Option (List (List (ProtoValue ν))) := none
  ranges : Option (List (KeyRange (List (ProtoValue ν)))) := none
  all : Option Bool := none

/-- What `encodeKeySet` reads of a request. -/
structure ReadRequest (L : Leaves) where
  keySet : Option (KeySet L.Number) := none
  keys : Option (List (Key L)) := none
  ranges : Option (List (KeyRange (Key L))) := none

/-- The range with its bounds encoded. -/
def encodeRange
    (B : Bytes L) (range : KeyRange (Key L)) :
    Option (KeyRange (List (ProtoValue L.Number))) :=
  range.mapM fun bound =>
    (convertToListValue B bound.2).map fun values => (bound.1, values)

/-- `isEmpty(keySet)`. -/
def KeySet.isEmpty
    {ν : Type} (keySet : KeySet ν) : Bool :=
  keySet.keys.isNone && keySet.ranges.isNone && keySet.all.isNone

/-- `keySet.keys = …`, if the request has keys. -/
def KeySet.addKeys
    (B : Bytes L) (keySet : KeySet L.Number) :
    Option (List (Key L)) → Option (KeySet L.Number)
  | none => some keySet
  | some keys =>
      (keys.mapM (convertToListValue B)).map fun keys =>
        { keySet with keys := some keys }

/-- `keySet.ranges = …`, if the request has ranges. -/
def KeySet.addRanges
    (B : Bytes L) (keySet : KeySet L.Number) :
    Option (List (KeyRange (Key L))) → Option (KeySet L.Number)
  | none => some keySet
  | some ranges =>
      (ranges.mapM (encodeRange B)).map fun ranges =>
        { keySet with ranges := some ranges }

/-- An empty key set is the one of all keys. -/
def KeySet.orAll
    {ν : Type} (keySet : KeySet ν) : KeySet ν :=
  if keySet.isEmpty then { keySet with all := some true } else keySet

/-- `Snapshot.encodeKeySet`; `none` if it throws. -/
def encodeKeySet
    (B : Bytes L) (request : ReadRequest L) : Option (KeySet L.Number) :=
  ((request.keySet.getD {}).addKeys B request.keys).bind fun keySet =>
    (keySet.addRanges B request.ranges).map KeySet.orAll

/-- The operations of a mutation that writes rows. -/
inductive Operation where
  | insert
  | update
  | insertOrUpdate
  | replace
deriving DecidableEq, Repr

/-- `google.spanner.v1.Mutation`. -/
inductive Mutation (ν : Type) where
  | write (operation : Operation) (table : String) (columns : List String)
      (values : List (List (ProtoValue ν)))
  | delete (table : String) (keySet : KeySet ν)

/-- `buildDeleteMutation`. -/
def buildDeleteMutation
    (B : Bytes L) (table : String) (keys : List (Key L)) :
    Option (Mutation L.Number) :=
  (keys.mapM (convertToListValue B)).map fun keys =>
    .delete table { keys := some keys }

/-! ## What a key is to be encoded to -/

/-- One value for each part, in order, and each what the codec makes of it. -/
def Encodes
    (key : Key L) (values : List (ProtoValue L.Number)) : Prop :=
  List.Forall₂ (fun part value => part.encode = some value) key.parts values

/-- The bounds of the range have their names and their keys encoded. -/
def EncodesRange
    (range : KeyRange (Key L))
    (encoded : KeyRange (List (ProtoValue L.Number))) : Prop :=
  List.Forall₂
    (fun bound values => values.1 = bound.1 ∧ Encodes bound.2 values.2)
    range encoded

/-- The keys and the ranges of the request are what the key set has. -/
structure EncodedIn
    (request : ReadRequest L) (keySet : KeySet L.Number) : Prop where
  keys :
    ∀ keys, request.keys = some keys →
      ∃ lists, keySet.keys = some lists ∧ List.Forall₂ Encodes keys lists
  ranges :
    ∀ ranges, request.ranges = some ranges →
      ∃ encoded, keySet.ranges = some encoded ∧
        List.Forall₂ EncodesRange ranges encoded

def KeyScalar.isUint8Array : KeyScalar L → Bool
  | .uint8Array _ => true
  | _ => false

/-- No part is a `Uint8Array`, and a key that is given by its one part is neither
null nor a buffer. -/
def Key.whole : Key L → Bool
  | .scalar .null => false
  | .scalar (.buffer _) => false
  | .scalar part => !part.isUint8Array
  | .composite parts => parts.all fun part => !part.isUint8Array

/-- The keys of a request, those of the bounds among them. -/
def ReadRequest.allKeys
    (request : ReadRequest L) : List (Key L) :=
  request.keys.getD [] ++
    (request.ranges.getD []).flatMap fun range => range.map Prod.snd

/-! ## Keys that are taken apart -/

/-- Every part is encoded but a `Uint8Array`. -/
theorem encode_isSome_iff
    (part : KeyScalar L) :
    (∃ value, part.encode = some value) ↔ part.isUint8Array = false := by
  cases part with
  | number x =>
      cases hdecimal : L.isDecimal x <;>
        simp [KeyScalar.encode, KeyScalar.toValue, KeyScalar.isUint8Array,
          Codec.encode, encodeValue, encodeValue_, hdecimal]
  | _ =>
      simp [KeyScalar.encode, KeyScalar.toValue, KeyScalar.isUint8Array,
        Codec.encode, encodeValue, encodeValue_]

/-- A part that is not iterated over is the one part of the key. -/
theorem encodes_singleton_iff
    {B : Bytes L} {part : KeyScalar L}
    (harray : toArray B (.scalar part) = [part]) :
    (∃ values, convertToListValue B (.scalar part) = some values ∧
        Encodes (.scalar part) values) ↔
      part.isUint8Array = false := by
  rw [convertToListValue, harray]
  refine (exists_mapM_iff : _ ↔ ∀ p ∈ [part], _).trans ?_
  simp [encode_isSome_iff]

/-- The numbers of the bytes are never the text of the buffer. -/
theorem not_encodes_buffer
    (B : Bytes L) (b : L.Buffer) (values : List (ProtoValue L.Number))
    (h : convertToListValue B (.scalar (.buffer b)) = some values) :
    ¬ Encodes (.scalar (.buffer b)) values := by
  intro hencodes
  -- one value, so one byte
  obtain ⟨value, hvalue, rfl⟩ :
      ∃ value, (KeyScalar.buffer b).encode = some value ∧
        values = [value] := by
    cases hencodes with
    | cons hhead htail =>
        cases htail
        exact ⟨_, hhead, rfl⟩
  have hbase64 : value = .stringValue (base64 (B.bytes b)) := by
    simpa [KeyScalar.encode, KeyScalar.toValue, Codec.encode, encodeValue,
      encodeValue_, B.toBase64_eq] using hvalue.symm
  rw [convertToListValue, toArray] at h
  cases hbytes : B.bytes b with
  | nil => simp [hbytes] at h
  | cons byte bytes =>
      cases bytes with
      | nil =>
          have hnumber : value = .stringValue byte.toNat.repr := by
            simpa [hbytes, KeyScalar.encode, KeyScalar.toValue,
              Codec.encode, encodeValue, encodeValue_, B.isDecimal_ofByte,
              B.numberToString_ofByte] using h.symm
          rw [hbase64, hbytes] at hnumber
          exact
            base64_singleton_ne_repr byte _
              (ProtoValue.stringValue.inj hnumber)
      | cons byte' bytes =>
          simp [hbytes, Option.bind_eq_some_iff] at h

/-- The values are those of the parts exactly if the key is whole. -/
theorem encodes_iff
    (B : Bytes L) (key : Key L) :
    (∃ values, convertToListValue B key = some values ∧
        Encodes key values) ↔
      key.whole = true := by
  cases key with
  | composite parts =>
      refine (exists_mapM_iff : _ ↔ ∀ p ∈ parts, _).trans ?_
      simp [encode_isSome_iff, Key.whole]
  | scalar part =>
      cases part with
      | null =>
          simp [convertToListValue, toArray, Encodes, Key.parts, Key.whole]
      | buffer b =>
          have hnot :
              ¬ ∃ values,
                convertToListValue B (.scalar (.buffer b)) = some values ∧
                  Encodes (.scalar (.buffer b)) values := by
            rintro ⟨values, hvalues, hencodes⟩
            exact not_encodes_buffer B b values hvalues hencodes
          simpa [Key.whole] using hnot
      | uint8Array bytes =>
          have hnot :
              ∀ values, ¬ Encodes (.scalar (.uint8Array bytes) : Key L)
                values := by
            intro values hencodes
            cases hencodes with
            | cons hhead htail => cases hhead
          simp [hnot, Key.whole, KeyScalar.isUint8Array]
      | _ =>
          rw [encodes_singleton_iff (by rw [toArray] <;> nofun)]
          simp [Key.whole, KeyScalar.isUint8Array]

/-! ## The requests that carry keys -/

theorem encodesRange_iff
    (B : Bytes L) (range : KeyRange (Key L)) :
    (∃ encoded, encodeRange B range = some encoded ∧
        EncodesRange range encoded) ↔
      ∀ bound ∈ range, bound.2.whole = true := by
  refine exists_mapM_iff.trans (forall₂_congr ?_)
  intro bound _
  rw [← encodes_iff B bound.2]
  constructor
  · rintro ⟨encoded, hencoded, hname, hencodes⟩
    obtain ⟨values, hvalues, rfl⟩ := Option.map_eq_some_iff.mp hencoded
    exact ⟨values, hvalues, hencodes⟩
  · rintro ⟨values, hvalues, hencodes⟩
    exact ⟨(bound.1, values), by simp [hvalues], rfl, hencodes⟩

@[simp] theorem orAll_keys
    {ν : Type} (keySet : KeySet ν) :
    keySet.orAll.keys = keySet.keys := by
  rw [KeySet.orAll]
  split <;> rfl

@[simp] theorem orAll_ranges
    {ν : Type} (keySet : KeySet ν) :
    keySet.orAll.ranges = keySet.ranges := by
  rw [KeySet.orAll]
  split <;> rfl

/-- The two parts of a key set are made one after the other. -/
theorem encodeKeySet_some
    {B : Bytes L} {request : ReadRequest L} {keySet : KeySet L.Number}
    (h : encodeKeySet B request = some keySet) :
    (∀ keys, request.keys = some keys →
      keys.mapM (convertToListValue B) = keySet.keys) ∧
    ∀ ranges, request.ranges = some ranges →
      ranges.mapM (encodeRange B) = keySet.ranges := by
  rw [encodeKeySet, Option.bind_eq_some_iff] at h
  obtain ⟨withKeys, hkeys, h⟩ := h
  obtain ⟨withRanges, hranges, rfl⟩ := Option.map_eq_some_iff.mp h
  have hkept : withRanges.keys = withKeys.keys := by
    cases hr : request.ranges with
    | none =>
        rw [hr, KeySet.addRanges] at hranges
        rw [Option.some.inj hranges]
    | some ranges =>
        rw [hr, KeySet.addRanges] at hranges
        obtain ⟨encoded, -, rfl⟩ := Option.map_eq_some_iff.mp hranges
        rfl
  rw [orAll_keys, orAll_ranges, hkept]
  constructor
  · intro keys hk
    rw [hk, KeySet.addKeys] at hkeys
    obtain ⟨lists, hlists, rfl⟩ := Option.map_eq_some_iff.mp hkeys
    exact hlists
  · intro ranges hr
    rw [hr, KeySet.addRanges] at hranges
    obtain ⟨encoded, hencoded, rfl⟩ := Option.map_eq_some_iff.mp hranges
    exact hencoded

theorem addKeys_of_whole
    (B : Bytes L) (keySet : KeySet L.Number) {keys : Option (List (Key L))}
    (h : ∀ key ∈ keys.getD [], key.whole = true) :
    ∃ withKeys, keySet.addKeys B keys = some withKeys ∧
      ∀ given, keys = some given →
        ∃ lists, withKeys.keys = some lists ∧
          List.Forall₂ Encodes given lists := by
  cases keys with
  | none => exact ⟨keySet, rfl, nofun⟩
  | some given =>
      obtain ⟨lists, hlists, hencodes⟩ :=
        exists_mapM_iff.mpr fun key hkey =>
          (encodes_iff B key).mpr (h key hkey)
      refine ⟨{ keySet with keys := some lists }, ?_, ?_⟩
      · exact Option.map_eq_some_iff.mpr ⟨lists, hlists, rfl⟩
      · rintro given' ⟨⟩
        exact ⟨lists, rfl, hencodes⟩

theorem addRanges_of_whole
    (B : Bytes L) (keySet : KeySet L.Number)
    {ranges : Option (List (KeyRange (Key L)))}
    (h :
      ∀ range ∈ ranges.getD [], ∀ bound ∈ range, bound.2.whole = true) :
    ∃ withRanges, keySet.addRanges B ranges = some withRanges ∧
      withRanges.keys = keySet.keys ∧
      ∀ given, ranges = some given →
        ∃ encoded, withRanges.ranges = some encoded ∧
          List.Forall₂ EncodesRange given encoded := by
  cases ranges with
  | none => exact ⟨keySet, rfl, rfl, nofun⟩
  | some given =>
      obtain ⟨encoded, hencoded, hencodes⟩ :=
        exists_mapM_iff.mpr fun range hrange =>
          (encodesRange_iff B range).mpr (h range hrange)
      refine ⟨{ keySet with ranges := some encoded }, ?_, rfl, ?_⟩
      · exact Option.map_eq_some_iff.mpr ⟨encoded, hencoded, rfl⟩
      · rintro given' ⟨⟩
        exact ⟨encoded, rfl, hencodes⟩

/-- The bounds of the ranges are among the keys of the request. -/
theorem mem_allKeys_of_bound
    {request : ReadRequest L} {range : KeyRange (Key L)}
    (hrange : range ∈ request.ranges.getD [])
    {bound : String × Key L}
    (hbound : bound ∈ range) :
    bound.2 ∈ request.allKeys :=
  List.mem_append_right _
    (List.mem_flatMap.mpr ⟨range, hrange, List.mem_map_of_mem hbound⟩)

theorem encodeKeySet_of_whole
    (B : Bytes L) {request : ReadRequest L}
    (h : ∀ key ∈ request.allKeys, key.whole = true) :
    ∃ keySet, encodeKeySet B request = some keySet ∧
      EncodedIn request keySet := by
  obtain ⟨withKeys, haddKeys, hkeys⟩ :=
    addKeys_of_whole B (request.keySet.getD {})
      fun key hkey => h key (List.mem_append_left _ hkey)
  obtain ⟨withRanges, haddRanges, hkept, hranges⟩ :=
    addRanges_of_whole B withKeys
      fun range hrange bound hbound =>
        h bound.2 (mem_allKeys_of_bound hrange hbound)
  refine ⟨withRanges.orAll, ?_, ?_, ?_⟩
  · simp [encodeKeySet, haddKeys, haddRanges]
  · simpa [hkept] using hkeys
  · simpa using hranges

theorem whole_of_encodedIn
    {B : Bytes L} {request : ReadRequest L} {keySet : KeySet L.Number}
    (hkeySet : encodeKeySet B request = some keySet)
    (hencoded : EncodedIn request keySet) :
    ∀ key ∈ request.allKeys, key.whole = true := by
  obtain ⟨hkeys, hranges⟩ := encodeKeySet_some hkeySet
  intro key hkey
  rcases List.mem_append.mp hkey with hkey | hkey
  · cases hk : request.keys with
    | none => simp [hk] at hkey
    | some keys =>
        obtain ⟨lists, hlists, hencodes⟩ := hencoded.keys keys hk
        have hwhole :=
          exists_mapM_iff.mp ⟨lists, (hkeys keys hk).trans hlists, hencodes⟩
        rw [hk] at hkey
        exact (encodes_iff B key).mp (hwhole key hkey)
  · cases hr : request.ranges with
    | none => simp [hr] at hkey
    | some ranges =>
        obtain ⟨encoded, hlists, hencodes⟩ := hencoded.ranges ranges hr
        have hwhole :=
          exists_mapM_iff.mp
            ⟨encoded, (hranges ranges hr).trans hlists, hencodes⟩
        rw [hr] at hkey
        obtain ⟨range, hrange, hmem⟩ := List.mem_flatMap.mp hkey
        obtain ⟨bound, hbound, rfl⟩ := List.mem_map.mp hmem
        exact
          (encodesRange_iff B range).mp (hwhole range hrange) bound hbound

/--
The keys of a delete mutation and those of a read request are encoded part by part
exactly if each of them is whole.
-/
theorem keys_encoded_iff_whole
    (B : Bytes L) (table : String) (keys : List (Key L))
    (request : ReadRequest L) :
    ((∃ lists,
        buildDeleteMutation B table keys =
            some (.delete table { keys := some lists }) ∧
          List.Forall₂ Encodes keys lists) ↔
      ∀ key ∈ keys, key.whole = true) ∧
    ((∃ keySet, encodeKeySet B request = some keySet ∧
        EncodedIn request keySet) ↔
      ∀ key ∈ request.allKeys, key.whole = true) := by
  refine ⟨?_, ?_, ?_⟩
  · simp only [← encodes_iff B, ← exists_mapM_iff]
    simp [buildDeleteMutation]
  · rintro ⟨keySet, hkeySet, hencoded⟩
    exact whole_of_encodedIn hkeySet hencoded
  · exact encodeKeySet_of_whole B

/-- Leaves whose buffers are their bytes. -/
def byteLeaves : Leaves :=
  { textLeaves with
    Buffer := List UInt8
    toBase64 := base64
    bufferFrom := fun _ => none }

def byteBuffers : Bytes byteLeaves where
  bytes := fun b => b
  ofByte := fun byte => (byte.toNat : Int)
  toBase64_eq := fun _ => rfl
  isDecimal_ofByte := fun _ => rfl
  numberToString_ofByte := fun _ => rfl

/-- A singer by number and name, and albums from one title on. -/
def singerKeys : List (Key byteLeaves) :=
  [.composite [.int "1", .string "Ada"], .composite [.int "2", .null]]

def albumRequest : ReadRequest byteLeaves where
  ranges := some [[("startClosed", .scalar (.string "Home"))]]

theorem keys_encoded_iff_whole_singers :
    ((∃ lists,
        buildDeleteMutation byteBuffers "Singers" singerKeys =
            some (.delete "Singers" { keys := some lists }) ∧
          List.Forall₂ Encodes singerKeys lists) ↔
      ∀ key ∈ singerKeys, key.whole = true) ∧
    ((∃ keySet, encodeKeySet byteBuffers albumRequest = some keySet ∧
        EncodedIn albumRequest keySet) ↔
      ∀ key ∈ albumRequest.allKeys, key.whole = true) :=
  keys_encoded_iff_whole byteBuffers "Singers" singerKeys albumRequest

/-- A buffer of one byte is sent as the number of the byte. -/
theorem bufferKey_not_encoded :
    ¬ ∀ (table : String) (keys : List (Key byteLeaves)),
      ∃ lists,
        buildDeleteMutation byteBuffers table keys =
            some (.delete table { keys := some lists }) ∧
          List.Forall₂ Encodes keys lists := by
  intro h
  obtain ⟨lists, hlists, hencodes⟩ := h "Files" [.scalar (.buffer [72])]
  cases hencodes with
  | cons hhead htail =>
      cases htail
      refine not_encodes_buffer byteBuffers [72] _ ?_ hhead
      simpa [buildDeleteMutation, Option.bind_eq_some_iff] using hlists

end Request
end SpannerClient
