import SpannerClient.Request.Rows
import SpannerClient.ResultStream.Resume
import SpannerClient.ResultStream.Exact

/-!
# Rows written and read

A mutation carries the values of its rows encoded by their classes, and a read
brings them back in partial result sets, through a stream that may be resumed;
its rows are decoded by the types of the columns.  From one end to the other
nothing is changed.

The table between the two is not part of the client: what is read is assumed to
be what the mutation carries, for the columns that are asked for, in sets whose
cuts are even: no list is continued by or from an empty one, and none is cut
between an element that is a list and one that is neither a list nor null
(`Answers`).

The three parts meet here: the encoding of rows by `mutate`, the reassembly of
sets (`division_of_delivers`) and the decoding by types (`decodeRow_of_selects`).
`serves_of_answers` says that what the mutation carries is what the resuming
stream is told it is served, and `rows_written_are_read` follows the stream.
-/

namespace SpannerClient
namespace ResultStream

open Codec (Leaves ProtoValue Raw HasType Plain)
open Machine
open Request (Row RowOf mutate getUniqueKeys)

/-! ## Values -/

/-- Names for the numbers, which a result stream only passes on. -/
structure Numbering (ν : Type) where
  code : ν → Int
  number : Int → ν
  number_code : ∀ x, number (code x) = x

section Values

variable {ν : Type}

mutual

/-- A value of plain JavaScript as the stream has it; `none` for an object, which
is in no row. -/
def received
    (N : Numbering ν) : Raw ν → Option Value
  | .undefined => some .undefined
  | .null => some .null
  | .boolean b => some (.bool b)
  | .number x => some (.number (N.code x))
  | .string s => some (.string s)
  | .list values => (receivedList N values).map .list
  | .object _ => none

def receivedList
    (N : Numbering ν) : List (Raw ν) → Option (List Value)
  | [] => some []
  | value :: values =>
      (received N value).bind fun value =>
        (receivedList N values).map fun values => value :: values

end

mutual

/-- The value the codec is given. -/
def Value.raw
    (N : Numbering ν) : Value → Raw ν
  | .undefined => .undefined
  | .null => .null
  | .bool b => .boolean b
  | .number n => .number (N.number n)
  | .string s => .string s
  | .list values => .list (Value.raws N values)

def Value.raws
    (N : Numbering ν) : List Value → List (Raw ν)
  | [] => []
  | value :: values => value.raw N :: Value.raws N values

end

theorem receivedList_eq
    (N : Numbering ν) (values : List (Raw ν)) :
    receivedList N values = values.mapM (received N) := by
  induction values with
  | nil => simp [receivedList]
  | cons value values ih =>
      simp [receivedList, ih, List.mapM_cons, Option.map_eq_bind]

theorem Value.raws_eq
    (N : Numbering ν) (values : List Value) :
    Value.raws N values = values.map (Value.raw N) := by
  induction values with
  | nil => simp [Value.raws]
  | cons value values ih => simp [Value.raws, ih]

/-- A plain value is received, and the codec is given it back. -/
theorem received_of_plain
    (N : Numbering ν) {r : Raw ν}
    (h : Plain r) :
    ∃ v, received N r = some v ∧ v.raw N = r := by
  induction h with
  | null => exact ⟨.null, by rw [received], by rw [Value.raw]⟩
  | boolean b => exact ⟨.bool b, by rw [received], by rw [Value.raw]⟩
  | number x =>
      exact
        ⟨.number (N.code x), by rw [received],
          by rw [Value.raw, N.number_code]⟩
  | string s => exact ⟨.string s, by rw [received], by rw [Value.raw]⟩
  | list values _ ih =>
      obtain ⟨vs, hvs, hraws⟩ := exists_mapM_iff.mpr ih
      refine ⟨.list vs, ?_, ?_⟩
      · rw [received, receivedList_eq, hvs]
        rfl
      · rw [Value.raw, Value.raws_eq]
        have heq : List.Forall₂ (· = ·) (vs.map (Value.raw N)) values :=
          List.forall₂_map_left_iff.mpr hraws.flip
        rw [List.forall₂_eq_eq_eq] at heq
        rw [heq]

end Values

/-! ## Types -/

mutual

/-- A type of the codec, as far as the stream looks at it. -/
def columnType : Codec.SpannerType → SpannerType
  | .scalar code _ _ => .scalar (reprStr code)
  | .array arrayElementType => .array (columnType arrayElementType)
  | .struct fields => .struct (columnTypes fields)

def columnTypes : List (String × Codec.SpannerType) → List SpannerType
  | [] => []
  | (_, type) :: fields => columnType type :: columnTypes fields

end

theorem columnTypes_eq
    (fields : List (String × Codec.SpannerType)) :
    columnTypes fields = fields.map fun field => columnType field.2 := by
  induction fields with
  | nil => simp [columnTypes]
  | cons field fields ih => simp [columnTypes, ih]

variable {L : Leaves} {N : Numbering L.Number}

/-- What is received of a typed value is of the type. -/
theorem wellTyped_of_hasType
    {type : Codec.SpannerType} {value : Codec.Value L} {v : Value}
    (h : HasType type value)
    (hv : received N (Codec.encodeValue value) = some v) :
    WellTyped (columnType type) v := by
  induction h generalizing v with
  | null type =>
      rw [Codec.encodeValue, received] at hv
      obtain rfl := Option.some.inj hv
      exact .null _
  | bool annotationCode fqn b =>
      rw [Codec.encodeValue, received] at hv
      obtain rfl := Option.some.inj hv
      rw [columnType]
      exact .bool _ b
  | float64 annotationCode fqn x =>
      rw [Codec.encodeValue, received] at hv
      obtain rfl := Option.some.inj hv
      rw [columnType]
      exact .number _ _
  | float32 annotationCode fqn x =>
      rw [Codec.encodeValue, received] at hv
      obtain rfl := Option.some.inj hv
      rw [columnType]
      exact .number _ _
  | array type values _ ih =>
      rw [Codec.encodeValue, Codec.encodeValues_eq, received,
        receivedList_eq, Option.map_eq_some_iff] at hv
      obtain ⟨vs, hvs, rfl⟩ := hv
      rw [columnType]
      refine .array _ _ ?_
      intro v hmem
      have hall :=
        List.forall₂_map_left_iff.mp (forall₂_of_mapM_some hvs)
      obtain ⟨i, hi⟩ := List.getElem?_of_mem hmem
      obtain ⟨value, hvalue, hreceived⟩ := forall₂_getElem? (List.Forall₂.flip hall) hi
      exact ih value (List.mem_of_getElem? hvalue) hreceived
  | struct fields values hnames _ ih =>
      rw [Codec.encodeValue, Codec.encodeFields_eq, received,
        receivedList_eq, Option.map_eq_some_iff] at hv
      obtain ⟨vs, hvs, rfl⟩ := hv
      have hall :=
        List.forall₂_map_left_iff.mp (forall₂_of_mapM_some hvs)
      rw [columnType, columnTypes_eq]
      refine .struct _ _ ?_ ?_
      · have hlength := congrArg List.length hnames
        rw [List.length_map, List.length_map] at hlength
        rw [List.length_map, ← hlength, hall.length_eq]
      · intro i type v htype hv
        rw [List.getElem?_map, Option.map_eq_some_iff] at htype
        obtain ⟨field, hfield, rfl⟩ := htype
        obtain ⟨value, hvalue, hreceived⟩ := forall₂_getElem? (List.Forall₂.flip hall) hv
        exact ih i field value hfield hvalue hreceived
  | _ =>
      rw [Codec.encodeValue, received] at hv
      obtain rfl := Option.some.inj hv
      rw [columnType]
      exact .string _ _

/-! ## Rows -/

/-- A table: the types of its columns. -/
abbrev Schema := String → Codec.SpannerType

/-- The metadata of a result set with the columns. -/
def Schema.fields
    (schema : Schema) (wanted : List String) : List Field :=
  wanted.map fun column => ⟨column, columnType (schema column)⟩

/-- `_createRow`, the values decoded by the types of the columns; `none` if it
throws. -/
def decodeRow
    (N : Numbering L.Number)
    (columnsMetadata : String → Option (Codec.ColumnMetadata L.Number))
    (schema : Schema) (wanted : List String) (values : List Value) :
    Option (List (String × Codec.Value L)) :=
  (wanted.zip values).mapM fun field =>
    (Codec.decode (columnsMetadata field.1) (schema field.1)
        (field.2.raw N)).map fun value => (field.1, value)

/-- The rows of a stream that reads the columns. -/
def typedRows
    (N : Numbering L.Number)
    (columnsMetadata : String → Option (Codec.ColumnMetadata L.Number))
    (schema : Schema) (wanted : List String) :
    RowOptions Value (Option (List (String × Codec.Value L))) where
  decode v _ := v
  present row := decodeRow N columnsMetadata schema wanted (row.map Prod.snd)

/-- What the row has in the columns. -/
def project
    (wanted : List String) (row : Row L) :
    Option (List (String × Codec.Value L)) :=
  wanted.mapM fun column => (row.get column).map fun value => (column, value)

/-- The values of a row of a mutation in the columns that are asked for. -/
def Selects
    (N : Numbering L.Number) (wanted columns : List String)
    (stored : List (ProtoValue L.Number)) (values : List Value) : Prop :=
  List.Forall₂
    (fun column v =>
      ∃ p, (columns.zip stored).lookup column = some p ∧
        received N (Codec.decodeValue_ p) = some v)
    wanted values

/-- The sets carry the rows of a mutation in the columns that are asked for, in
even cuts. -/
structure Answers
    (N : Numbering L.Number) (schema : Schema) (wanted columns : List String)
    (stored : List (List (ProtoValue L.Number)))
    (server : List PartialResultSet) : Prop where
  delivers :
    ∃ rows, List.Forall₂ (Selects N wanted columns) stored rows ∧
      Delivers EvenCut none server rows.flatten
  noColumns : wanted = [] → stored = []
  metadata :
    ∃ chunk chunks, server = chunk :: chunks ∧
      chunk.metadata = some (schema.fields wanted)
  last :
    ∀ before chunk after, server = before ++ chunk :: after →
      chunk.last = true → after = []
  tokens :
    ∀ before chunk after, server = before ++ chunk :: after →
      chunk.hasResumeToken = true →
        ∀ c ∈ before, c.resumeToken ≠ chunk.resumeToken

/-- The values of the row are of the types of the columns. -/
def RowHasTypes
    (schema : Schema) (row : Row L) : Prop :=
  ∀ column value, row.get column = some value →
    HasType (schema column) value

theorem RowHasTypes.encodable
    {schema : Schema} {row : Row L}
    (h : RowHasTypes schema row) :
    Request.EncodableRow row := by
  intro column value hvalue
  obtain ⟨w, hw, -⟩ :=
    Codec.decodeValue_encodeValue
      (Codec.plain_of_hasType (h column value hvalue))
  rw [Codec.encode, hw]
  rfl

/-- What the mutation has for a column is the encoded value of the row. -/
theorem RowOf.lookup
    {columns : List String} {row : Row L}
    {stored : List (ProtoValue L.Number)} {column : String}
    {p : ProtoValue L.Number}
    (h : RowOf columns row stored)
    (hp : (columns.zip stored).lookup column = some p) :
    ∃ value, row.get column = some value ∧ Codec.encode value = some p := by
  induction h with
  | nil => cases hp
  | cons hhead _ ih =>
      rw [List.zip_cons_cons, PlainObject.lookup_entry] at hp
      split at hp
      · next heq =>
          obtain rfl := Option.some.inj hp
          exact heq ▸ hhead
      · exact ih hp

/-- What is selected of a typed row: the encoded value, as it is received. -/
theorem selects_values
    {schema : Schema} {wanted columns : List String} {row : Row L}
    {stored : List (ProtoValue L.Number)} {values : List Value}
    (htyped : RowHasTypes schema row)
    (hrow : RowOf columns row stored)
    (h : Selects N wanted columns stored values) :
    List.Forall₂
      (fun column v =>
        ∃ value, row.get column = some value ∧
          HasType (schema column) value ∧
          received N (Codec.encodeValue value) = some v)
      wanted values := by
  refine List.Forall₂.imp ?_ h
  rintro column v ⟨p, hp, hv⟩
  obtain ⟨value, hvalue, hencode⟩ := RowOf.lookup hrow hp
  have htype := htyped column value hvalue
  obtain ⟨w, hw, hdecoded⟩ :=
    Codec.decodeValue_encodeValue (Codec.plain_of_hasType htype)
  obtain rfl : w = p := by
    rw [Codec.encode, hw] at hencode
    exact Option.some.inj hencode
  exact ⟨value, hvalue, htype, hdecoded ▸ hv⟩

theorem rowTyped_of_selects
    {schema : Schema} {wanted columns : List String} {row : Row L}
    {stored : List (ProtoValue L.Number)} {values : List Value}
    (htyped : RowHasTypes schema row)
    (hrow : RowOf columns row stored)
    (h : Selects N wanted columns stored values) :
    RowTyped (schema.fields wanted) values := by
  rw [RowTyped, Schema.fields, List.forall₂_map_left_iff]
  refine List.Forall₂.imp ?_ (selects_values htyped hrow h)
  rintro column v ⟨value, -, htype, hv⟩
  exact wellTyped_of_hasType htype hv

/-- A row selected of a mutation is decoded to the row that was written. -/
theorem decodeRow_of_selects
    (hL : L.Inverse)
    (columnsMetadata : String → Option (Codec.ColumnMetadata L.Number))
    {schema : Schema} {wanted columns : List String} {row : Row L}
    {stored : List (ProtoValue L.Number)} {values : List Value}
    (htyped : RowHasTypes schema row)
    (hrow : RowOf columns row stored)
    (h : Selects N wanted columns stored values) :
    decodeRow N columnsMetadata schema wanted values = project wanted row := by
  have hvalues := selects_values htyped hrow h
  clear h
  rw [decodeRow, project]
  induction hvalues with
  | nil => rfl
  | @cons column v wanted values hhead _ ih =>
      obtain ⟨value, hvalue, htype, hv⟩ := hhead
      obtain ⟨v', hv', hraw⟩ :=
        received_of_plain N (Codec.plain_of_hasType htype)
      obtain rfl : v' = v := Option.some.inj (hv'.symm.trans hv)
      have hdecode :=
        Codec.decode_of_hasType hL (columnsMetadata column) htype
      rw [List.zip_cons_cons, List.mapM_cons, List.mapM_cons, ih, hraw,
        hdecode, hvalue]

theorem createRow_typedRows
    (columnsMetadata : String → Option (Codec.ColumnMetadata L.Number))
    {schema : Schema} {wanted : List String} {values : List Value}
    (hlength : wanted.length = values.length) :
    PartialResultStream.createRow (typedRows N columnsMetadata schema wanted)
        (schema.fields wanted) values =
      decodeRow N columnsMetadata schema wanted values := by
  have hnamed :
      List.zipWith (fun field value => (field.name, value))
          (schema.fields wanted) values =
        wanted.zip values := by
    rw [Schema.fields, List.zipWith_map_left, List.zip_eq_zipWith]
  have hsnd : (wanted.zip values).map Prod.snd = values :=
    List.map_snd_zip (Nat.le_of_eq hlength.symm)
  calc
    _ = decodeRow N columnsMetadata schema wanted
          ((List.zipWith (fun field value => (field.name, value))
            (schema.fields wanted) values).map Prod.snd) := rfl
    _ = decodeRow N columnsMetadata schema wanted values := by
          rw [hnamed, hsnd]

/-- Sets that carry rows of a mutation serve typed rows, which are decoded to the
rows that were written. -/
theorem serves_of_answers
    (hL : L.Inverse)
    (columnsMetadata : String → Option (Codec.ColumnMetadata L.Number))
    {schema : Schema} {rows : List (Row L)} {columns : List String}
    {stored : List (List (ProtoValue L.Number))}
    (htyped : ∀ row ∈ rows, RowHasTypes schema row)
    (hstored : List.Forall₂ (RowOf columns) rows stored)
    {wanted : List String} {server : List PartialResultSet}
    (h : Answers N schema wanted columns stored server) :
    ∃ served, Serves (schema.fields wanted) served server ∧
      served.map
          (PartialResultStream.createRow
            (typedRows N columnsMetadata schema wanted)
            (schema.fields wanted)) =
        rows.map (project wanted) := by
  obtain ⟨served, hselects, hdelivers⟩ := h.delivers
  have hrows :
      List.Forall₂
        (fun row values =>
          RowTyped (schema.fields wanted) values ∧
            decodeRow N columnsMetadata schema wanted values =
              project wanted row)
        rows served := by
    clear h hdelivers
    induction hstored generalizing served with
    | nil =>
        cases hselects
        exact .nil
    | @cons row values rows stored hrow _ ih =>
        cases hselects with
        | cons hhead htail =>
            rw [List.forall_mem_cons] at htyped
            exact
              .cons
                ⟨rowTyped_of_selects htyped.1 hrow hhead,
                  decodeRow_of_selects hL columnsMetadata htyped.1 hrow
                    hhead⟩
                (ih htyped.2 _ htail)
  have hserved :
      ∀ values ∈ served, RowTyped (schema.fields wanted) values := by
    intro values hvalues
    obtain ⟨i, hi⟩ := List.getElem?_of_mem hvalues
    obtain ⟨row, -, hrow⟩ := forall₂_getElem? (List.Forall₂.flip hrows) hi
    exact hrow.1
  have hdivision :=
    division_of_delivers hdelivers
      (ofColumns_flatten hserved (Nat.zero_mod _))
  refine ⟨served, ⟨?_, ?_, hdivision, h.metadata, h.last, h.tokens⟩, ?_⟩
  · intro values hvalues
    exact (hserved values hvalues).length_eq.symm
  · intro hfields
    have hnone := h.noColumns (List.map_eq_nil_iff.mp hfields)
    rw [hnone] at hselects
    exact List.forall₂_nil_left_iff.mp hselects
  · refine map_eq_map_of_getElem? hrows.length_eq.symm ?_
    intro k values row hvalues hrow
    obtain ⟨values', hvalues', htype, hdecode⟩ := forall₂_getElem? hrows hrow
    obtain rfl : values' = values :=
      Option.some.inj (hvalues'.symm.trans hvalues)
    have hlength := htype.length_eq
    rw [Schema.fields, List.length_map] at hlength
    rw [createRow_typedRows columnsMetadata hlength, hdecode]

/--
What is written is read.  Typed rows none of which lacks a column are queued as
one mutation; and when a read of any of the columns is answered by what the
mutation carries, cut into sets in any even way, then along every run of the
resuming stream whose restarts are clean the rows pushed are the first of the rows
written, and at a normal end all of them.
-/
theorem rows_written_are_read
    (hL : L.Inverse) (N : Numbering L.Number)
    (columnsMetadata : String → Option (Codec.ColumnMetadata L.Number))
    (schema : Schema)
    (operation : Request.Operation)
    (queuedMutations : List (Request.Mutation L.Number)) (table : String)
    (rows : List (Row L))
    (htyped : ∀ row ∈ rows, RowHasTypes schema row)
    (hcomplete : ¬Request.Incomplete rows) :
    ∃ columns stored,
      mutate operation queuedMutations table rows =
          (queuedMutations ++ [.write operation table columns stored],
            none) ∧
        ∀ (wanted : List String) (server : List PartialResultSet)
          (overflow : Nat → Nat) (es : List StreamEvent),
          Answers N schema wanted columns stored server →
          Meets
              (step (typedRows N columnsMetadata schema wanted) server
                overflow)
              (fun s e => e = .restart → s.RestartsCleanly) {} es →
            Always
              (step (typedRows N columnsMetadata schema wanted) server
                overflow)
              (fun s =>
                s.userStream.rows <+: rows.map (project wanted) ∧
                  (s.userStream.ended = true →
                    s.userStream.rows = rows.map (project wanted)))
              {} es := by
  obtain ⟨columns, stored, hmutate, hwrites⟩ :=
    Request.mutate_of_complete (fun row hrow => (htyped row hrow).encodable)
      hcomplete operation queuedMutations table
  refine ⟨columns, stored, hmutate, ?_⟩
  intro wanted server overflow es hserver hclean
  obtain ⟨served, hserves, hrows⟩ :=
    serves_of_answers hL columnsMetadata htyped hwrites.values hserver
  have hresumable :=
    always_of_meets
      (I := Pipeline.Resumable
        (typedRows N columnsMetadata schema wanted) (schema.fields wanted)
        served server)
      (fun _ _ _ h hG hstep => Pipeline.step_resumable hserves h hG hstep)
      (Pipeline.resumable_initial hserves) hclean
  intro before hbefore s hrun
  obtain ⟨hfirst, hended⟩ :=
    (hresumable before hbefore s hrun).rowsRight hserves
  rw [hrows] at hfirst hended
  exact ⟨hfirst, hended⟩

section Singers

def singerSchema : Schema
  | "SingerId" => .scalar .INT64 .TYPE_ANNOTATION_CODE_UNSPECIFIED ""
  | _ => .scalar .STRING .TYPE_ANNOTATION_CODE_UNSPECIFIED ""

/-- Both columns of the singers, in another order, the first name in two parts. -/
def singerSets : List PartialResultSet :=
  [{ metadata := some (singerSchema.fields ["SingerId", "Name"])
     values := [.string "1", .string "A"]
     chunkedValue := true },
    { values := [.string "da", .string "2"]
      resumeToken := some [1] },
    { values := [.string "Bea"] }]

/-- The request fails after the second set and is sent again. -/
def readSingers : List StreamEvent :=
  [.reading, .receive, .checkpoint, .receive, .checkpoint, .transform,
    .transform, .fail ⟨some .UNAVAILABLE, ""⟩, .retry false, .restart, .receive,
    .checkpoint, .sourceEnd, .flush, .checkpoint, .transform, .transform,
    .finish]

theorem singerRows_hasTypes :
    ∀ row ∈ Request.singerRows, RowHasTypes singerSchema row := by
  intro row hrow column value hvalue
  have hentry := (PlainObject.mem_entries_iff row column value).mpr hvalue
  simp only [Request.singerRows, List.mem_cons, List.not_mem_nil,
    or_false] at hrow
  rcases hrow with rfl | rfl <;>
    simp only [List.mem_cons, List.not_mem_nil, or_false,
      Prod.mk.injEq] at hentry <;>
    rcases hentry with ⟨rfl, rfl⟩ | ⟨rfl, rfl⟩
  · exact .int64 _ _ _ (by decide)
  · exact .string _ _ _
  · exact .string _ _ _
  · exact .int64 _ _ _ (by decide)

/-- Integers are their own names. -/
def integers : Numbering Codec.textLeaves.Number where
  code := id
  number := id
  number_code := fun _ => rfl

theorem answers_singerSets :
    Answers integers singerSchema ["SingerId", "Name"]
      ["Name", "SingerId"]
      [[.stringValue "Ada", .stringValue "1"],
        [.stringValue "Bea", .stringValue "2"]]
      singerSets where
  delivers := by
    refine
      ⟨[[.string "1", .string "Ada"], [.string "2", .string "Bea"]], ?_, ?_⟩
    · exact
        .cons
          (.cons ⟨_, rfl, rfl⟩ (.cons ⟨_, rfl, rfl⟩ .nil))
          (.cons
            (.cons ⟨_, rfl, rfl⟩ (.cons ⟨_, rfl, rfl⟩ .nil)) .nil)
    · have hname :
          combine (.string "A") (.string "da") = some (.string "Ada") := by
        rw [combine]
        rfl
      exact
        .cut none _ _ [.string "1"] _ _ (by simp) rfl (.whole _)
          (.whole _ _ _ [.string "Ada", .string "2"] _ (by simp) rfl
            (.part _ _ _ _ (evenCut_string "A" _) hname)
            (.whole _ _ [] [.string "Bea"] [] (by simp) rfl (.whole _)
              .done))
  noColumns := nofun
  metadata := ⟨_, _, rfl, rfl⟩
  last := by
    intro before chunk after heq hlast
    have hmem : chunk ∈ singerSets := by simp [heq]
    simp only [singerSets, List.mem_cons, List.not_mem_nil, or_false] at hmem
    rcases hmem with rfl | rfl | rfl <;> cases hlast
  tokens := by
    intro before chunk after heq htoken c hc
    rcases before with _ | ⟨_, _ | ⟨_, _ | ⟨_, before⟩⟩⟩
    · cases hc
    · cases heq
      obtain rfl := List.mem_singleton.mp hc
      simp
    · cases heq
      cases htoken
    · simp [singerSets] at heq

/-- The stream of the singers. -/
abbrev stepSingers :=
  step (typedRows integers (fun _ => none) singerSchema ["SingerId", "Name"])
    singerSets id

theorem rows_written_are_read_singers :
    Always stepSingers
        (fun s =>
          s.userStream.rows <+:
              Request.singerRows.map (project ["SingerId", "Name"]) ∧
            (s.userStream.ended = true →
              s.userStream.rows =
                Request.singerRows.map (project ["SingerId", "Name"])))
        {} readSingers ∧
      ∃ s,
        run stepSingers {} readSingers = some s ∧
          s.userStream.ended = true ∧
          s.userStream.rows =
            [some [("SingerId", .int "1"), ("Name", .string "Ada")],
              some [("SingerId", .int "2"), ("Name", .string "Bea")]] := by
  refine ⟨?_, _, rfl, rfl, rfl⟩
  have hcomplete : ¬Request.Incomplete Request.singerRows := by
    rw [Request.incomplete_iff]
    decide
  obtain ⟨columns, stored, hmutate, hread⟩ :=
    rows_written_are_read ⟨fun _ => rfl, fun _ => rfl, fun _ => rfl⟩ integers
      (fun _ => none) singerSchema .insert [] "Singers" Request.singerRows
      singerRows_hasTypes hcomplete
  have hqueued :
      mutate .insert [] "Singers" Request.singerRows =
        ([] ++
            [.write .insert "Singers" ["Name", "SingerId"]
              [[.stringValue "Ada", .stringValue "1"],
                [.stringValue "Bea", .stringValue "2"]]],
          none) := by
    rfl
  rw [hqueued] at hmutate
  obtain ⟨rfl, rfl⟩ := by simpa using hmutate
  refine hread _ _ id readSingers answers_singerSets ?_
  iterate 9 refine meets_of_step (fun heq => by cases heq) rfl ?_
  refine meets_of_step (fun _ => ⟨rfl, rfl, fun _ => rfl⟩) rfl ?_
  iterate 8 refine meets_of_step (fun heq => by cases heq) rfl ?_
  exact meets_nil _ _ _

end Singers

end ResultStream
end SpannerClient
