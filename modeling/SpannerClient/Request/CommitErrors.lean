import SpannerClient.Machine.Matching
import SpannerClient.Request.Keys
import SpannerClient.ServiceError

/-!
# The errors of a commit

Spanner refuses a list value for a JSON column.  `decorateCommitError` reads the
column and the table from the message and looks for a mutation of the commit with
a list in that column; the hint it adds says how to write the value.

The message is matched by a regular expression (`execMismatch`).  A message made of
a column and a table is read as these (`execMismatch_mismatchText`), if the text has
no other way to be read.  `HintApplies` says when the hint is in place: one of the
mutations of the table has a list in the column.

The index of the column is tested for truth, so that the first column of a mutation
is passed over (`AfterFirst`).  The main result is `hintedExactly_iff`: the hint is
missing exactly if it applies to nothing but first columns.
-/

namespace SpannerClient
namespace Request

open Codec
open Machine

variable {ν μ : Type}

/-! ## The model -/

/-- The error of a commit, with the metadata of the call. -/
structure CommitError (μ : Type) extends ServiceError where
  details : Option String
  metadata : μ
  name : String
  stack : Option String

def columnText : List Char :=
  "Invalid value for column ".toList

def tableText : List Char :=
  " in table ".toList

def expectedText : List Char :=
  ": Expected JSON".toList

/-- `(?<table>.+): Expected JSON./` -/
def execTable
    (cs : List Char) : Option (List Char × List Char) :=
  dotPlus (fun cs => (literal expectedText cs).bind dot) cs

/-- `/Invalid value for column (?<column>.+) in table (?<table>.+): Expected JSON./`
from a character on: the column and the table. -/
def execMismatch
    (cs : List Char) : Option (List Char × List Char) := do
  let cs ← literal columnText cs
  let (column, table, _) ←
    dotPlus (fun cs => (literal tableText cs).bind execTable) cs
  return (column, table)

/-- `columns.indexOf(column)`. -/
def indexOf
    (columns : List String) (column : String) : Int :=
  match columns.idxOf? column with
  | none => -1
  | some index => index

/-- `row.values[index].listValue`. -/
def isListAt
    (row : List (ProtoValue ν)) (index : Int) : Bool :=
  match row[index.toNat]? with
  | some (.listValue _) => true
  | _ => false

/-- The row makes the loops return. -/
def rowMismatches
    (row : List (ProtoValue ν)) (index : Int) : Bool :=
  row.length ≠ 0 && decide (index < row.length) && isListAt row index

/-- A row of the mutation makes the loops return. -/
def Mutation.mismatches
    (table column : String) : Mutation ν → Bool
  | .write _ writeTable columns values =>
      let index := indexOf columns column
      writeTable = table && index ≠ 0 && decide (-1 < index) &&
        values.any fun row => rowMismatches row index
  | .delete _ _ => false

def additionalMessage : String :=
  "The value is an array. Convert the value to a JSON string containing an " ++
    "array instead in order to insert it into a JSON column. Example: " ++
    "`[\x7b\"key\": \"value 1\"\x7d, \x7b\"key\": \"value 2\"\x7d]` " ++
    "instead of [\x7bkey: \"value 1\"\x7d, \x7bkey: \"value 2\"\x7d]"

/-- The error with the hint. -/
def CommitError.hinted
    (err : CommitError μ) : CommitError μ where
  code := err.code
  details := some (err.details.getD "undefined" ++ " " ++ additionalMessage)
  message := err.message ++ " " ++ additionalMessage
  metadata := err.metadata
  name := err.name
  stack := err.stack

/-- `decoratePossibleJsonMismatchError`. -/
def decoratePossibleJsonMismatchError
    (err : CommitError μ) (mutations : List (Mutation ν)) :
    Option (CommitError μ) :=
  match search execMismatch err.message.toList with
  | none => none
  | some (column, table) =>
      if
        mutations.any fun mutation =>
          mutation.mismatches (String.ofList table) (String.ofList column)
      then
        some err.hinted
      else
        none

/-- `decorateCommitError`. -/
def decorateCommitError
    (err : Option (CommitError μ)) (mutations : List (Mutation ν)) :
    Option (CommitError μ) :=
  err.map fun err =>
    if err.code = some .FAILED_PRECONDITION then
      (decoratePossibleJsonMismatchError err mutations).getD err
    else
      err

/-! ## The message -/

/-- `Invalid value for column c in table t: Expected JSON.` -/
def mismatchText
    (column table : List Char) : List Char :=
  columnText ++ column ++ tableText ++ table ++ expectedText ++ ['.']

/-- The message is the text for the column and the table, possibly after a text
of its own such as the name of the status code. -/
structure Mismatch
    (message column table : String) : Prop where
  columnLine : LineText column.toList
  tableLine : LineText table.toList
  /-- The name of the table comes after the last `in table`. -/
  lastTable : ¬ tableText <:+: ' ' :: table.toList
  text :
    ∃ before, ¬ columnText <:+: before ∧
      message.toList = before ++ mismatchText column.toList table.toList

theorem eq_nil_of_append_eq
    {taken cs : List Char}
    (h : cs = taken ++ cs) :
    taken = [] := by
  have hlength := congrArg List.length h
  rw [List.length_append] at hlength
  exact List.length_eq_zero_iff.mp (by omega)

/-- The text after the table occurs once in itself. -/
theorem execTable_append
    {table : List Char}
    (h : LineText table) :
    execTable (table ++ (expectedText ++ ['.'])) = some (table, []) := by
  have hafter :
      (literal expectedText (expectedText ++ ['.'])).bind dot = some [] := by
    decide
  have hlast :
      ∀ rest ∈ (expectedText ++ ['.']).tails, rest ≠ expectedText ++ ['.'] →
        (literal expectedText rest).bind dot = none := by
    decide
  refine dotPlus_append h hafter ?_
  intro taken rest htaken hrest
  refine hlast rest ((List.mem_tails _ _).mpr ⟨taken, hrest.symm⟩) ?_
  intro heq
  rw [heq] at hrest
  exact htaken (eq_nil_of_append_eq hrest)

/-- A text that occurs in a name and what follows it occurs in the name, if it has
nothing of what follows. -/
theorem infix_of_append
    {text name rest : List Char} {c : Char}
    (hc : c ∉ text)
    (hrest : ¬ text <:+: c :: rest)
    (h : text <:+: name ++ c :: rest) :
    text <:+: name := by
  obtain ⟨before, after, h⟩ := h
  rw [List.append_assoc] at h
  rcases List.append_eq_append_iff.mp h with
    ⟨inner, hname, hafter⟩ | ⟨inner, hbefore, hinner⟩
  · rcases List.append_eq_append_iff.mp hafter with
      ⟨last, hinner, -⟩ | ⟨last, htext, hlast⟩
    · exact ⟨before, last, by rw [hname, hinner, List.append_assoc]⟩
    · cases last with
      | nil =>
          rw [List.append_nil] at htext
          exact ⟨before, [], by rw [hname, htext, List.append_nil]⟩
      | cons d last =>
          rw [List.cons_append, List.cons.injEq] at hlast
          exact absurd (by rw [htext, hlast.1]; simp) hc
  · exact absurd ⟨inner, after, by rw [hinner, List.append_assoc]⟩ hrest

/-- After the column, `in table` occurs only once. -/
theorem literal_tableText_of_append
    {table taken rest : List Char}
    (hlast : ¬ tableText <:+: ' ' :: table)
    (htaken : taken ≠ [])
    (h :
      tableText ++ (table ++ (expectedText ++ ['.'])) = taken ++ rest) :
    literal tableText rest = none := by
  refine literal_eq_none fun hliteral => ?_
  have hname :
      ¬ tableText <:+: ' ' :: (table ++ (expectedText ++ ['.'])) :=
    fun hinfix => hlast (infix_of_append (by decide) (by decide) hinfix)
  have hsplit :
      tableText ++ (table ++ (expectedText ++ ['.'])) =
        " in table".toList ++
          (' ' :: (table ++ (expectedText ++ ['.']))) :=
    rfl
  rw [hsplit] at h
  rcases List.append_eq_append_iff.mp h with
    ⟨inner, -, hrest⟩ | ⟨inner, htext, hrest⟩
  · rw [hrest] at hname
    exact hname (hliteral.isInfix.trans (List.suffix_append inner rest).isInfix)
  · have hoverlap :
        ∀ inner ∈ " in table".toList.tails, inner ≠ " in table".toList →
          inner <+: tableText → inner = [] := by
      decide
    have hinner : inner <:+ " in table".toList := ⟨taken, htext.symm⟩
    have hshort : inner.length ≤ tableText.length :=
      hinner.length_le.trans (by decide)
    have hstart : inner <+: tableText :=
      List.prefix_of_prefix_length_le ⟨_, hrest.symm⟩ hliteral hshort
    have hnil : inner = [] := by
      refine hoverlap inner ((List.mem_tails _ _).mpr hinner) ?_ hstart
      intro heq
      rw [heq] at htext
      exact htaken (eq_nil_of_append_eq htext)
    rw [hrest, hnil] at hliteral
    exact hname hliteral.isInfix

/-- From where the text begins, the names are read back. -/
theorem execMismatch_mismatchText
    {column table : List Char}
    (hcolumn : LineText column)
    (htable : LineText table)
    (hlast : ¬ tableText <:+: ' ' :: table) :
    execMismatch (mismatchText column table) = some (column, table) := by
  have hafter :
      (literal tableText
          (tableText ++ (table ++ (expectedText ++ ['.'])))).bind execTable =
        some (table, []) := by
    rw [literal_append, Option.bind_some, execTable_append htable]
  have hplus :
      dotPlus (fun cs => (literal tableText cs).bind execTable)
          (column ++ (tableText ++ (table ++ (expectedText ++ ['.'])))) =
        some (column, table, []) := by
    refine dotPlus_append hcolumn hafter fun taken rest htaken hrest => ?_
    rw [literal_tableText_of_append hlast htaken hrest, Option.bind_none]
  simp only [execMismatch, mismatchText, List.append_assoc, literal_append,
    Option.bind_eq_bind, Option.bind_some, hplus, Option.pure_def]

/-- No occurrence of the text begins before the one of the message. -/
theorem literal_columnText_of_before
    {skipped rest column table : List Char}
    (hbefore : ¬ columnText <:+: skipped ++ rest)
    (hrest : rest ≠ []) :
    literal columnText (rest ++ mismatchText column table) = none := by
  refine literal_eq_none fun hliteral => ?_
  have hinside : ¬ columnText <+: rest :=
    fun hinside =>
      hbefore
        (hinside.isInfix.trans (List.suffix_append skipped rest).isInfix)
  have hcross : rest <+: columnText :=
    (List.prefix_or_prefix_of_prefix hliteral
      (List.prefix_append _ _)).resolve_left hinside
  obtain ⟨start, hstart⟩ := hcross
  have hoverlap :
      ∀ start ∈ columnText.tails, start <+: columnText →
        start = [] ∨ start = columnText := by
    decide
  have hsuffix : start <:+ columnText := ⟨rest, hstart⟩
  have htext : columnText <+: mismatchText column table := by
    simp only [mismatchText, List.append_assoc, List.prefix_append]
  have hbegins : start <+: mismatchText column table := by
    rw [← hstart, List.prefix_append_right_inj] at hliteral
    exact hliteral
  have hboth : start <+: columnText :=
    List.prefix_of_prefix_length_le hbegins htext hsuffix.length_le
  rcases hoverlap start ((List.mem_tails _ _).mpr hsuffix) hboth with
    hnil | hall
  · rw [hnil, List.append_nil] at hstart
    exact hinside (hstart ▸ List.prefix_rfl)
  · rw [hall] at hstart
    exact hrest (eq_nil_of_append_eq hstart.symm)

/-- The text is found, whatever comes before it. -/
theorem search_execMismatch
    {message column table : String}
    (h : Mismatch message column table) :
    search execMismatch message.toList =
      some (column.toList, table.toList) := by
  obtain ⟨before, hbefore, htext⟩ := h.text
  rw [htext, search_append]
  · exact
      search_of_some
        (execMismatch_mismatchText h.columnLine h.tableLine h.lastTable)
  · intro skipped rest hrest heq
    rw [heq] at hbefore
    rw [execMismatch, literal_columnText_of_before hbefore hrest]
    rfl

/-! ## The hint -/

def Mutation.columns : Mutation ν → List String
  | .write _ _ columns _ => columns
  | .delete _ _ => []

/-- The mutation writes to the table, and a row of it has a list in this place. -/
def Mutation.HasListAt
    (table : String) (index : Nat) : Mutation ν → Prop
  | .write _ writeTable _ values =>
      writeTable = table ∧
        ∃ row ∈ values, ∃ list, row[index]? = some (.listValue list)
  | .delete _ _ => False

/-- A mutation on the table has a list in the column. -/
def HintApplies
    (column table : String) (mutations : List (Mutation ν)) : Prop :=
  ∃ mutation ∈ mutations, ∃ index : Nat,
    mutation.columns[index]? = some column ∧ mutation.HasListAt table index

/-- A mutation on the table has a list in the column, and that is not its first
column. -/
def AfterFirst
    (column table : String) (mutations : List (Mutation ν)) : Prop :=
  ∃ mutation ∈ mutations, ∃ index : Nat,
    0 < index ∧ mutation.columns.idxOf? column = some index ∧
      mutation.HasListAt table index

theorem AfterFirst.applies
    {column table : String} {mutations : List (Mutation ν)}
    (h : AfterFirst column table mutations) :
    HintApplies column table mutations := by
  obtain ⟨mutation, hmutation, index, -, hindex, hlist⟩ := h
  refine ⟨mutation, hmutation, index, ?_, hlist⟩
  obtain ⟨hlt, heq, -⟩ := List.idxOf?_eq_some_iff.mp hindex
  rw [List.getElem?_eq_getElem hlt, heq]

theorem rowMismatches_iff
    {row : List (ProtoValue ν)} {index : Nat} :
    rowMismatches row index = true ↔
      ∃ list, row[index]? = some (.listValue list) := by
  have hlist :
      isListAt row index = true ↔
        ∃ list, row[index]? = some (.listValue list) := by
    rw [isListAt, Int.toNat_natCast]
    split
    · rename_i list heq
      simp [heq]
    · rename_i hnone
      simpa using fun list heq => hnone list heq
  rw [rowMismatches, Bool.and_eq_true, hlist, and_iff_right_iff_imp]
  rintro ⟨list, heq⟩
  obtain ⟨hlt, -⟩ := List.getElem?_eq_some_iff.mp heq
  simp only [Bool.and_eq_true, decide_eq_true_eq]
  omega

/-- The loops return at a column in any place but the first, of which `indexOf` is
falsy. -/
theorem mismatches_iff
    {table column : String} {mutation : Mutation ν} :
    mutation.mismatches table column = true ↔
      ∃ index : Nat, 0 < index ∧
        mutation.columns.idxOf? column = some index ∧
          mutation.HasListAt table index := by
  cases mutation with
  | delete table keySet => simp [Mutation.mismatches, Mutation.HasListAt]
  | write operation writeTable columns values =>
      cases hindex : columns.idxOf? column with
      | none =>
          simp [Mutation.mismatches, Mutation.columns, indexOf, hindex]
      | some index =>
          simp only [Mutation.mismatches, Mutation.columns, Mutation.HasListAt,
            indexOf, hindex, Bool.and_eq_true, decide_eq_true_eq,
            List.any_eq_true, rowMismatches_iff, Option.some.injEq]
          constructor
          · rintro ⟨⟨⟨htable, hne⟩, -⟩, row, hrow⟩
            exact ⟨index, by omega, rfl, htable, row, hrow⟩
          · rintro ⟨index, hpos, rfl, htable, row, hrow⟩
            exact ⟨⟨⟨htable, by omega⟩, by omega⟩, row, hrow⟩

theorem hinted_ne
    (err : CommitError μ) :
    err.hinted ≠ err := by
  intro h
  have hlength := congrArg (fun err => err.message.length) h
  simp only [CommitError.hinted, String.length_append] at hlength
  have hblank : " ".length = 1 := rfl
  omega

/-- What becomes of an error whose message names a column and a table. -/
theorem decorateCommitError_of_mismatch
    {err : CommitError μ} {column table : String}
    (h : Mismatch err.message column table)
    (mutations : List (Mutation ν)) :
    (err.code = some .FAILED_PRECONDITION ∧
        AfterFirst column table mutations ∧
        decorateCommitError (some err) mutations = some err.hinted) ∨
      (¬ (err.code = some .FAILED_PRECONDITION ∧
          AfterFirst column table mutations) ∧
        decorateCommitError (some err) mutations = some err) := by
  have hany :
      (mutations.any fun mutation => mutation.mismatches table column) = true ↔
        AfterFirst column table mutations := by
    simp only [List.any_eq_true, mismatches_iff, AfterFirst]
  by_cases hcode : err.code = some .FAILED_PRECONDITION
  · have hdecorate :
        decorateCommitError (some err) mutations =
          some
            ((if
                mutations.any fun mutation =>
                  mutation.mismatches table column
              then some err.hinted
              else none).getD err) := by
      rw [decorateCommitError, Option.map_some, if_pos hcode,
        decoratePossibleJsonMismatchError, search_execMismatch h]
      simp only [String.ofList_toList]
    by_cases hafter : AfterFirst column table mutations
    · refine .inl ⟨hcode, hafter, ?_⟩
      rw [hdecorate, if_pos (hany.mpr hafter), Option.getD_some]
    · refine .inr ⟨fun hboth => hafter hboth.2, ?_⟩
      rw [hdecorate, if_neg (mt hany.mp hafter), Option.getD_none]
  · refine .inr ⟨fun hboth => hcode hboth.1, ?_⟩
    rw [decorateCommitError, Option.map_some, if_neg hcode]

/-- The hint is added exactly when it applies. -/
structure HintedExactly
    (err : CommitError μ) (column table : String)
    (mutations : List (Mutation ν)) : Prop where
  added :
    err.code = some .FAILED_PRECONDITION →
      HintApplies column table mutations →
        decorateCommitError (some err) mutations = some err.hinted
  unchanged :
    ¬ (err.code = some .FAILED_PRECONDITION ∧
        HintApplies column table mutations) →
      decorateCommitError (some err) mutations = some err

/-- The hint is missing exactly if it applies to nothing but first columns. -/
theorem hintedExactly_iff
    (err : CommitError μ) (column table : String)
    (mutations : List (Mutation ν))
    (h : Mismatch err.message column table) :
    HintedExactly err column table mutations ↔
      (err.code = some .FAILED_PRECONDITION →
        HintApplies column table mutations →
          AfterFirst column table mutations) := by
  constructor
  · intro hexact hcode happlies
    have hadded := hexact.added hcode happlies
    rcases decorateCommitError_of_mismatch h mutations with
      ⟨-, hafter, -⟩ | ⟨-, hunchanged⟩
    · exact hafter
    · rw [hadded] at hunchanged
      exact absurd (Option.some.inj hunchanged) (hinted_ne err)
  · intro hcondition
    rcases decorateCommitError_of_mismatch h mutations with
      ⟨hcode, hafter, hadded⟩ | ⟨hnone, hunchanged⟩
    · exact ⟨fun _ _ => hadded, fun hnot => absurd ⟨hcode, hafter.applies⟩ hnot⟩
    · exact
        ⟨fun hcode happlies =>
            absurd ⟨hcode, hcondition hcode happlies⟩ hnone,
          fun _ => hunchanged⟩

def tracksError : CommitError Unit where
  code := some .FAILED_PRECONDITION
  message :=
    "9 FAILED_PRECONDITION: " ++
      "Invalid value for column Tracks in table Albums: Expected JSON."
  details := none
  metadata := ()
  name := "Error"
  stack := none

theorem tracksError_mismatch :
    Mismatch tracksError.message "Tracks" "Albums" where
  columnLine := ⟨by decide, by simp [lineTerminators]⟩
  tableLine := ⟨by decide, by simp [lineTerminators]⟩
  lastTable := by decide
  text := ⟨"9 FAILED_PRECONDITION: ".toList, by decide, by decide⟩

/-- Its columns are sorted, and the list is in the second. -/
def tracksSecond : Mutation Nat :=
  .write .insert "Albums" ["AlbumId", "Tracks"]
    [[.stringValue "1", .listValue [.stringValue "So What"]]]

/-- The list is in the first column. -/
def tracksFirst : Mutation Nat :=
  .write .insert "Albums" ["Tracks", "Year"]
    [[.listValue [.stringValue "So What"], .stringValue "1959"]]

theorem hintedExactly_iff_tracksSecond :
    Mismatch tracksError.message "Tracks" "Albums" ∧
      HintApplies "Tracks" "Albums" [tracksSecond] ∧
      (HintedExactly tracksError "Tracks" "Albums" [tracksSecond] ↔
        (tracksError.code = some .FAILED_PRECONDITION →
          HintApplies "Tracks" "Albums" [tracksSecond] →
            AfterFirst "Tracks" "Albums" [tracksSecond])) :=
  ⟨tracksError_mismatch,
    ⟨_, List.mem_singleton_self _, 1, rfl, rfl, _, List.mem_singleton_self _,
      _, rfl⟩,
    hintedExactly_iff tracksError "Tracks" "Albums" [tracksSecond]
      tracksError_mismatch⟩

theorem tracksFirst_not_hintedExactly :
    Mismatch tracksError.message "Tracks" "Albums" ∧
      ¬ HintedExactly tracksError "Tracks" "Albums" [tracksFirst] := by
  refine ⟨tracksError_mismatch, fun hexact => ?_⟩
  have happlies : HintApplies "Tracks" "Albums" [tracksFirst] :=
    ⟨_, List.mem_singleton_self _, 0, rfl, rfl, _, List.mem_singleton_self _,
      _, rfl⟩
  have hadded := hexact.added rfl happlies
  rcases decorateCommitError_of_mismatch tracksError_mismatch [tracksFirst] with
    ⟨-, hafter, -⟩ | ⟨-, hunchanged⟩
  · obtain ⟨mutation, hmutation, index, hpos, hindex, -⟩ := hafter
    rw [List.mem_singleton.mp hmutation] at hindex
    have hzero : tracksFirst.columns.idxOf? "Tracks" = some 0 := by decide
    rw [hzero, Option.some.injEq] at hindex
    omega
  · rw [hadded] at hunchanged
    exact hinted_ne _ (Option.some.inj hunchanged)

end Request
end SpannerClient
