import SpannerClient.Machine.Objects
import SpannerClient.ObjectCache.Basic
import SpannerClient.Request.Keys

/-!
# Rows

A mutation has one list of columns and for each row a list of values in their
order.  `buildMutation` takes the columns from all rows, whose keys may come in
any order, and throws if a row lacks one of them.

The model has the columns as the code sorts them, by UTF-16 code units
(`getUniqueKeys`), the message of the error with the columns that are missing, and
`insert`, `update`, `upsert` and `replace` as the one `mutate` with their names.

* If no row is incomplete, each row is written with its values in the places of its
  columns (`encodeRows_of_complete`); otherwise nothing is queued
  (`mutate_of_incomplete`).
* The order of the keys in the rows does not matter (`mutate_congr`).

The main result, `rows_written_or_nothing`, puts these together.
-/

namespace SpannerClient
namespace Request

open Codec
open Machine
open ObjectCache (utf16)

/-! ## The order of strings -/

/-- The code units by which strings are compared. -/
def codeUnits
    (s : String) : List Nat :=
  s.toList.flatMap utf16

/-- The code units of a character begin with one that no other character begins
with, or that is followed by one that tells them apart. -/
theorem utf16_append_inj
    {c d : Char} {us vs : List Nat}
    (h : utf16 c ++ us = utf16 d ++ vs) :
    c = d ∧ us = vs := by
  have hc : c.toNat < 0xD800 ∨ 0xDFFF < c.toNat ∧ c.toNat < 0x110000 := c.valid
  have hd : d.toNat < 0xD800 ∨ 0xDFFF < d.toNat ∧ d.toNat < 0x110000 := d.valid
  rw [utf16, utf16] at h
  split at h <;> split at h
  · simp only [List.singleton_append, List.cons.injEq] at h
    exact ⟨Char.toNat_inj.mp h.1, h.2⟩
  · simp only [List.cons_append, List.nil_append, List.cons.injEq] at h
    omega
  · simp only [List.cons_append, List.nil_append, List.cons.injEq] at h
    omega
  · simp only [List.cons_append, List.nil_append, List.cons.injEq] at h
    obtain ⟨hhigh, hlow, hrest⟩ := h
    exact ⟨Char.toNat_inj.mp (by omega), hrest⟩

theorem utf16_ne_nil
    (c : Char) :
    utf16 c ≠ [] := by
  rw [utf16]
  split <;> simp

theorem codeUnits_injective
    {s t : String}
    (h : codeUnits s = codeUnits t) :
    s = t := by
  have hlists :
      ∀ cs ds : List Char, cs.flatMap utf16 = ds.flatMap utf16 → cs = ds := by
    intro cs
    induction cs with
    | nil =>
        intro ds hds
        cases ds with
        | nil => rfl
        | cons d ds => simp [utf16_ne_nil] at hds
    | cons c cs ih =>
        intro ds hds
        cases ds with
        | nil => simp [utf16_ne_nil] at hds
        | cons d ds =>
            obtain ⟨rfl, hrest⟩ := utf16_append_inj hds
            rw [ih ds hrest]
  exact String.toList_inj.mp (hlists _ _ h)

/-- The string comes first. -/
def Before
    (a b : String) : Prop :=
  codeUnits a < codeUnits b

instance : Std.Irrefl Before where
  irrefl _ := lt_irrefl _

instance : Std.Antisymm Before where
  antisymm _ _ h h' := absurd h' (lt_asymm h)

/-! ## The model -/

variable {L : Leaves}

/-- A row: the values by the names of the columns. -/
abbrev Row (L : Leaves) := PlainObject (Value L)

/-- `Array.from(new Set(allKeys)).sort()`. -/
def sortUnique
    (allKeys : List String) : List String :=
  (allKeys.foldl setAdd []).insertionSort fun a b =>
    codeUnits a ≤ codeUnits b

/-- `Transaction.getUniqueKeys`. -/
def getUniqueKeys
    (rows : List (Row L)) : List String :=
  sortUnique (rows.flatMap PlainObject.keys)

def missingColumns
    (columns : List String) (row : Row L) : List String :=
  columns.filter fun column => !row.keys.contains column

/-- `JSON.stringify` of a list of strings. -/
def stringifyStrings
    (strings : List String) : String :=
  String.ofList
    (Json.stringify (⟨Empty.elim, nofun⟩ : NumberPrinter Empty)
      (.array (strings.map .string)))

/-- The message of the `GoogleError`. -/
def missingMessage
    (index : Nat) (missing : List String) : String :=
  "\n\n".intercalate
    ["Row at index " ++ index.repr ++
        " does not contain the correct number of columns.",
      "Missing columns: " ++ stringifyStrings missing]

/-- What `buildMutation` throws. -/
inductive BuildError where
  | googleError (message : String)
  /-- What `codec.encode` throws. -/
  | encode
deriving DecidableEq, Repr

/-- The values of a row in the order of the columns. -/
def rowValues
    (columns : List String) (index : Nat) (row : Row L) :
    Except BuildError (List (ProtoValue L.Number)) :=
  if missingColumns columns row = [] then
    match columns.mapM fun column => (row.get column).bind Codec.encode with
    | none => .error .encode
    | some values => .ok values
  else
    .error (.googleError (missingMessage index (missingColumns columns row)))

/-- The rows from an index on. -/
def encodeRows
    (columns : List String) :
    Nat → List (Row L) →
      Except BuildError (List (List (ProtoValue L.Number)))
  | _, [] => .ok []
  | index, row :: rows =>
      match rowValues columns index row with
      | .error err => .error err
      | .ok values =>
          (encodeRows columns (index + 1) rows).map fun rest => values :: rest

/-- `buildMutation`. -/
def buildMutation
    (operation : Operation) (table : String) (rows : List (Row L)) :
    Except BuildError (Mutation L.Number) :=
  (encodeRows (getUniqueKeys rows) 0 rows).map fun values =>
    .write operation table (getUniqueKeys rows) values

/-- `queue.push(buildMutation(method, table, rows))`: the queue afterwards, and
what has been thrown. -/
def mutate
    (operation : Operation) (queuedMutations : List (Mutation L.Number))
    (table : String) (rows : List (Row L)) :
    List (Mutation L.Number) × Option BuildError :=
  match buildMutation operation table rows with
  | .error err => (queuedMutations, some err)
  | .ok mutation => (queuedMutations ++ [mutation], none)

section Methods

variable (queuedMutations : List (Mutation L.Number))
variable (table : String) (rows : List (Row L))

/-- `insert` of a transaction, a mutation set and a mutation group. -/
def insert := mutate .insert queuedMutations table rows

def update := mutate .update queuedMutations table rows

def upsert := mutate .insertOrUpdate queuedMutations table rows

def replace := mutate .replace queuedMutations table rows

end Methods

/-! ## Columns -/

theorem mem_sortUnique
    {allKeys : List String} {name : String} :
    name ∈ sortUnique allKeys ↔ name ∈ allKeys := by
  rw [sortUnique, List.mem_insertionSort, mem_foldl_setAdd]
  simp

/-- Sorted, and every name once. -/
theorem sortUnique_pairwise
    (allKeys : List String) :
    (sortUnique allKeys).Pairwise Before := by
  have htotal :
      Std.Total fun a b : String => codeUnits a ≤ codeUnits b :=
    ⟨fun a b => le_total (codeUnits a) (codeUnits b)⟩
  have htrans :
      IsTrans String fun a b : String => codeUnits a ≤ codeUnits b :=
    ⟨fun _ _ _ => le_trans⟩
  have hsorted :
      (sortUnique allKeys).Pairwise fun a b => codeUnits a ≤ codeUnits b :=
    List.pairwise_insertionSort _ _
  have hnodup : (sortUnique allKeys).Nodup :=
    (List.perm_insertionSort _ _).nodup_iff.mpr
      (nodup_foldl_setAdd allKeys List.nodup_nil)
  refine (hsorted.and hnodup).imp ?_
  rintro a b ⟨hle, hne⟩
  rcases lt_or_eq_of_le hle with hlt | heq
  · exact hlt
  · exact absurd (codeUnits_injective heq) hne

theorem mem_getUniqueKeys
    {rows : List (Row L)} {column : String} :
    column ∈ getUniqueKeys rows ↔ ∃ row ∈ rows, row.get column ≠ none := by
  rw [getUniqueKeys, mem_sortUnique, List.mem_flatMap]
  simp only [PlainObject.mem_keys_iff]

theorem missingColumns_eq_nil_iff
    {columns : List String} {row : Row L} :
    missingColumns columns row = [] ↔
      ∀ column ∈ columns, row.get column ≠ none := by
  simp [missingColumns, List.filter_eq_nil_iff, PlainObject.mem_keys_iff]

/-! ## Rows -/

/-- One value for each column, and each what the codec makes of the value that the
row has under its name. -/
def RowOf
    (columns : List String) (row : Row L)
    (values : List (ProtoValue L.Number)) : Prop :=
  List.Forall₂
    (fun column x =>
      ∃ value, row.get column = some value ∧ Codec.encode value = some x)
    columns values

/-- The codec takes every value of the row. -/
def EncodableRow
    (row : Row L) : Prop :=
  ∀ column value, row.get column = some value →
    (Codec.encode value).isSome

theorem rowValues_of_missing
    {columns : List String} {row : Row L}
    (h : missingColumns columns row ≠ []) (index : Nat) :
    rowValues columns index row =
      .error
        (.googleError (missingMessage index (missingColumns columns row))) :=
  if_neg h

theorem rowValues_of_complete
    {columns : List String} {row : Row L}
    (h : missingColumns columns row = [])
    (hvalues : EncodableRow row) (index : Nat) :
    ∃ values, rowValues columns index row = .ok values ∧
      RowOf columns row values := by
  have hcolumns :
      ∀ column ∈ columns, ∃ x,
        (row.get column).bind Codec.encode = some x ∧
          ∃ value, row.get column = some value ∧
            Codec.encode value = some x := by
    intro column hcolumn
    have hown := missingColumns_eq_nil_iff.mp h column hcolumn
    obtain ⟨value, hvalue⟩ := Option.ne_none_iff_exists'.mp hown
    obtain ⟨x, hx⟩ :=
      Option.isSome_iff_exists.mp (hvalues column value hvalue)
    exact ⟨x, by rw [hvalue, Option.bind_some, hx], value, hvalue, hx⟩
  obtain ⟨values, hmapM, hrow⟩ := exists_mapM_iff.mpr hcolumns
  refine ⟨values, ?_, hrow⟩
  rw [rowValues, if_pos h, hmapM]

/-- Complete rows are encoded one by one. -/
theorem encodeRows_of_complete
    {columns : List String} {rows : List (Row L)}
    (h : ∀ row ∈ rows, missingColumns columns row = [])
    (hvalues : ∀ row ∈ rows, EncodableRow row) (index : Nat) :
    ∃ lists, encodeRows columns index rows = .ok lists ∧
      List.Forall₂ (RowOf columns) rows lists := by
  induction rows generalizing index with
  | nil => exact ⟨[], rfl, List.Forall₂.nil⟩
  | cons row rows ih =>
      rw [List.forall_mem_cons] at h hvalues
      obtain ⟨values, hrow, hvaluesOf⟩ :=
        rowValues_of_complete h.1 hvalues.1 index
      obtain ⟨lists, hrows, hlists⟩ := ih h.2 hvalues.2 (index + 1)
      refine ⟨values :: lists, ?_, List.Forall₂.cons hvaluesOf hlists⟩
      rw [encodeRows, hrow]
      simp [hrows, Except.map]

/-- The error is about the first row that is not complete, and about what that
row lacks. -/
theorem encodeRows_of_missing
    {columns : List String} {rows : List (Row L)}
    (h : ∃ row ∈ rows, missingColumns columns row ≠ [])
    (hvalues : ∀ row ∈ rows, EncodableRow row) (index : Nat) :
    ∃ k row, rows[k]? = some row ∧
      (∀ row' ∈ rows.take k, missingColumns columns row' = []) ∧
      missingColumns columns row ≠ [] ∧
      encodeRows columns index rows =
        .error
          (.googleError
            (missingMessage (index + k) (missingColumns columns row))) := by
  induction rows generalizing index with
  | nil =>
      obtain ⟨row, hrow, -⟩ := h
      cases hrow
  | cons row rows ih =>
      rw [List.forall_mem_cons] at hvalues
      by_cases hmissing : missingColumns columns row = []
      · obtain ⟨other, hother, hne⟩ := h
        have hrest : other ∈ rows := by
          rcases List.mem_cons.mp hother with rfl | hother
          · exact absurd hmissing hne
          · exact hother
        obtain ⟨k, found, hfound, hbefore, hlacks, herror⟩ :=
          ih ⟨other, hrest, hne⟩ hvalues.2 (index + 1)
        obtain ⟨values, hrow, -⟩ :=
          rowValues_of_complete hmissing hvalues.1 index
        refine ⟨k + 1, found, hfound, ?_, hlacks, ?_⟩
        · rw [List.take_succ_cons, List.forall_mem_cons]
          exact ⟨hmissing, hbefore⟩
        · rw [encodeRows, hrow]
          simp [herror, Except.map, Nat.add_assoc, Nat.add_comm 1 k]
      · refine ⟨0, row, rfl, nofun, hmissing, ?_⟩
        rw [encodeRows, rowValues_of_missing hmissing]
        rfl

/-! ## The order of the keys -/

/-- The rows have the same values under the same names. -/
def SameRow
    (row row' : Row L) : Prop :=
  ∀ column, row.get column = row'.get column

theorem getUniqueKeys_congr
    {rows rows' : List (Row L)}
    (h : List.Forall₂ SameRow rows rows') :
    getUniqueKeys rows = getUniqueKeys rows' := by
  refine
    (sortUnique_pairwise _).eq_of_mem_iff (sortUnique_pairwise _) ?_
  intro column
  have hmem :
      column ∈ getUniqueKeys rows ↔ column ∈ getUniqueKeys rows' := by
    rw [mem_getUniqueKeys, mem_getUniqueKeys]
    induction h with
    | nil => simp
    | cons hrow _ ih =>
        simp only [List.exists_mem_cons_iff, ih, hrow column]
  exact hmem

theorem rowValues_congr
    {row row' : Row L}
    (h : SameRow row row')
    (columns : List String) (index : Nat) :
    rowValues columns index row = rowValues columns index row' := by
  have hmissing : missingColumns columns row = missingColumns columns row' := by
    refine List.filter_congr ?_
    intro column _
    have hkeys : column ∈ row.keys ↔ column ∈ row'.keys := by
      rw [PlainObject.mem_keys_iff, PlainObject.mem_keys_iff, h column]
    simp [hkeys]
  rw [rowValues, rowValues, hmissing]
  simp only [h _]

theorem encodeRows_congr
    {rows rows' : List (Row L)}
    (h : List.Forall₂ SameRow rows rows')
    (columns : List String) (index : Nat) :
    encodeRows columns index rows = encodeRows columns index rows' := by
  induction h generalizing index with
  | nil => rfl
  | cons hrow _ ih =>
      rw [encodeRows, encodeRows, rowValues_congr hrow, ih]

/-- The order of the keys in the rows does not matter. -/
theorem mutate_congr
    {rows rows' : List (Row L)}
    (h : List.Forall₂ SameRow rows rows')
    (operation : Operation) (queuedMutations : List (Mutation L.Number))
    (table : String) :
    mutate operation queuedMutations table rows' =
      mutate operation queuedMutations table rows := by
  rw [mutate, mutate, buildMutation, buildMutation, getUniqueKeys_congr h,
    encodeRows_congr h]

/-! ## Faithfully or not at all -/

/-- A row lacks a column that a row has. -/
def Incomplete
    (rows : List (Row L)) : Prop :=
  ∃ row ∈ rows, ∃ column,
    (∃ other ∈ rows, other.get column ≠ none) ∧ row.get column = none

theorem incomplete_iff
    (rows : List (Row L)) :
    Incomplete rows ↔
      ∃ row ∈ rows, missingColumns (getUniqueKeys rows) row ≠ [] := by
  simp only [Incomplete, ne_eq, missingColumns_eq_nil_iff,
    mem_getUniqueKeys, not_forall, not_not, exists_prop]

/-- The columns are sorted and are those of the rows, and the values are those of
the rows in their order. -/
structure Writes
    (rows : List (Row L)) (columns : List String)
    (values : List (List (ProtoValue L.Number))) : Prop where
  sorted : columns.Pairwise Before
  union : ∀ column, column ∈ columns ↔ ∃ row ∈ rows, row.get column ≠ none
  values : List.Forall₂ (RowOf columns) rows values

theorem mutate_of_complete
    {rows : List (Row L)}
    (hvalues : ∀ row ∈ rows, EncodableRow row)
    (h : ¬ Incomplete rows)
    (operation : Operation) (queuedMutations : List (Mutation L.Number))
    (table : String) :
    ∃ columns values,
      mutate operation queuedMutations table rows =
          (queuedMutations ++ [.write operation table columns values], none) ∧
        Writes rows columns values := by
  have hcomplete :
      ∀ row ∈ rows, missingColumns (getUniqueKeys rows) row = [] := by
    simpa [incomplete_iff] using h
  obtain ⟨lists, hrows, hlists⟩ := encodeRows_of_complete hcomplete hvalues 0
  refine
    ⟨getUniqueKeys rows, lists, ?_, sortUnique_pairwise _,
      fun column => mem_getUniqueKeys, hlists⟩
  rw [mutate, buildMutation, hrows]
  rfl

/-- The message is about the first row that lacks a column. -/
theorem mutate_of_incomplete
    {rows : List (Row L)}
    (hvalues : ∀ row ∈ rows, EncodableRow row)
    (h : Incomplete rows)
    (operation : Operation) (queuedMutations : List (Mutation L.Number))
    (table : String) :
    ∃ k row, rows[k]? = some row ∧
      (∀ row' ∈ rows.take k,
        missingColumns (getUniqueKeys rows) row' = []) ∧
      missingColumns (getUniqueKeys rows) row ≠ [] ∧
      mutate operation queuedMutations table rows =
        (queuedMutations,
          some
            (.googleError
              (missingMessage k
                (missingColumns (getUniqueKeys rows) row)))) := by
  obtain ⟨k, row, hrow, hbefore, hmissing, herror⟩ :=
    encodeRows_of_missing ((incomplete_iff rows).mp h) hvalues 0
  refine ⟨k, row, hrow, hbefore, hmissing, ?_⟩
  rw [mutate, buildMutation, herror, Nat.zero_add]
  rfl

/--
Rows whose values can be encoded are queued as one faithful mutation, or nothing
is: `insert`, `update`, `upsert` and `replace` throw exactly if a row lacks a
column that another has, and whatever the order of the keys.
-/
theorem rows_written_or_nothing
    (operation : Operation) (queuedMutations : List (Mutation L.Number))
    (table : String) (rows : List (Row L))
    (hvalues : ∀ row ∈ rows, EncodableRow row) :
    ((∃ err, (mutate operation queuedMutations table rows).2 = some err) ↔
        Incomplete rows) ∧
      (∀ err, (mutate operation queuedMutations table rows).2 = some err →
        (mutate operation queuedMutations table rows).1 = queuedMutations) ∧
      ((mutate operation queuedMutations table rows).2 = none →
        ∃ columns values,
          (mutate operation queuedMutations table rows).1 =
              queuedMutations ++ [.write operation table columns values] ∧
            Writes rows columns values) ∧
      ∀ rows', List.Forall₂ SameRow rows rows' →
        mutate operation queuedMutations table rows' =
          mutate operation queuedMutations table rows := by
  have hsame :
      ∀ rows', List.Forall₂ SameRow rows rows' →
        mutate operation queuedMutations table rows' =
          mutate operation queuedMutations table rows :=
    fun rows' h => mutate_congr h operation queuedMutations table
  by_cases h : Incomplete rows
  · obtain ⟨k, row, -, -, -, hmutate⟩ :=
      mutate_of_incomplete hvalues h operation queuedMutations table
    rw [hmutate] at hsame ⊢
    exact ⟨⟨fun _ => h, fun _ => ⟨_, rfl⟩⟩, fun _ _ => rfl, nofun, hsame⟩
  · obtain ⟨columns, values, hmutate, hwrites⟩ :=
      mutate_of_complete hvalues h operation queuedMutations table
    rw [hmutate] at hsame ⊢
    exact
      ⟨⟨nofun, fun hincomplete => absurd hincomplete h⟩, nofun,
        fun _ => ⟨columns, values, rfl, hwrites⟩, hsame⟩

/-- Two singers, their columns in different orders. -/
def singerRows : List (Row textLeaves) :=
  [{ entries := [("SingerId", .int "1"), ("Name", .string "Ada")]
     nodup := by simp },
    { entries := [("Name", .string "Bea"), ("SingerId", .int "2")]
      nodup := by simp }]

theorem singerRows_encodable :
    ∀ row ∈ singerRows, EncodableRow row := by
  have hall :
      ∀ row ∈ singerRows, ∀ entry ∈ row.entries,
        (Codec.encode entry.2).isSome := by
    decide
  intro row hrow column value hvalue
  exact
    hall row hrow (column, value)
      ((PlainObject.mem_entries_iff row column value).mpr hvalue)

theorem rows_written_or_nothing_singers :
    ((∃ err, (mutate .insert [] "Singers" singerRows).2 = some err) ↔
        Incomplete singerRows) ∧
      (∀ err, (mutate .insert [] "Singers" singerRows).2 = some err →
        (mutate .insert [] "Singers" singerRows).1 = []) ∧
      ((mutate .insert [] "Singers" singerRows).2 = none →
        ∃ columns values,
          (mutate .insert [] "Singers" singerRows).1 =
              [] ++ [.write .insert "Singers" columns values] ∧
            Writes singerRows columns values) ∧
      ∀ rows', List.Forall₂ SameRow singerRows rows' →
        mutate .insert [] "Singers" rows' =
          mutate .insert [] "Singers" singerRows :=
  rows_written_or_nothing .insert [] "Singers" singerRows
    singerRows_encodable

end Request
end SpannerClient
