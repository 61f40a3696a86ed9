import SpannerClient.ResultStream.Basic

/-!
# Reassembly of rows

`Division` says how the values of a result may be divided into partial result
sets.  A stream that has read the first sets of a division has pushed the rows
that are complete and keeps the rest (`Reads`), whatever the reader answers.

`Takes` is one set of a division: the values it completes and the fragment it
leaves.  `transform_takes` follows the stream through such a set, first the
merging of the pending value (`mergePending_joins`), then the keeping of the last
one (`keepPending_keeps`), then the rows (`addValues_reads`); `transform_reads`
does so for the first set of a division and leaves a division.

The values of a whole number of rows come out as these rows (`Reads.rows_eq`).
-/

namespace SpannerClient
namespace ResultStream

/-- The values of a set, the first of them put together with the fragment that is
pending when `k` values are complete. -/
inductive Joins (fields : List Field) (k : Nat) :
    Option Value → List Value → List Value → Prop where
  | whole (values : List Value) :
      Joins fields k none values values
  | part (field : Field) (p v w : Value) (values : List Value)
      (hfield : fields[k % fields.length]? = some field)
      (hsplits : Splits field.type v p w) :
      Joins fields k (some p) (w :: values) (v :: values)

/-- The sets deliver the values, when `k` values are complete and a fragment is
pending or not. -/
inductive Division (fields : List Field) :
    Nat → Option Value → List PartialResultSet → List Value → Prop where
  | done (k : Nat) :
      Division fields k none [] []
  /-- A set without values, with a resume token perhaps. -/
  | empty (k : Nat) (pend : Option Value) (chunk : PartialResultSet)
      (chunks : List PartialResultSet) (values : List Value)
      (hvalues : chunk.values = [])
      (hrest : Division fields k pend chunks values) :
      Division fields k pend (chunk :: chunks) values
  /-- The last value of the set is complete. -/
  | whole (k : Nat) (pend : Option Value) (chunk : PartialResultSet)
      (chunks : List PartialResultSet) (joined values : List Value)
      (hfields : fields ≠ [])
      (hvalues : chunk.values ≠ [])
      (hchunked : chunk.chunkedValue = false)
      (hjoins : Joins fields k pend chunk.values joined)
      (hrest : Division fields (k + joined.length) none chunks values) :
      Division fields k pend (chunk :: chunks) (joined ++ values)
  /-- The last value of the set is continued. -/
  | cut (k : Nat) (pend : Option Value) (chunk : PartialResultSet)
      (chunks : List PartialResultSet) (joined : List Value) (p : Value)
      (values : List Value)
      (hfields : fields ≠ [])
      (hvalues : chunk.values ≠ [])
      (hchunked : chunk.chunkedValue = true)
      (hjoins : Joins fields k pend chunk.values (joined ++ [p]))
      (hrest : Division fields (k + joined.length) (some p) chunks values) :
      Division fields k pend (chunk :: chunks) (joined ++ values)

/-- The set completes the values and leaves the fragment, or none, when `k` values
are complete and a fragment is pending or not. -/
inductive Takes (fields : List Field) (k : Nat) (pend : Option Value)
    (chunk : PartialResultSet) : List Value → Option Value → Prop where
  | empty
      (hvalues : chunk.values = []) :
      Takes fields k pend chunk [] pend
  | values (joined : List Value) (keep : Option Value)
      (hfields : fields ≠ [])
      (hvalues : chunk.values ≠ [])
      (hchunked : chunk.chunkedValue = keep.isSome)
      (hjoins :
        Joins fields k pend chunk.values (joined ++ keep.toList)) :
      Takes fields k pend chunk joined keep

/-- A division begins with what its first set takes. -/
theorem Division.takes
    {fields : List Field} {k : Nat} {pend : Option Value}
    {chunk : PartialResultSet} {chunks : List PartialResultSet}
    {values : List Value}
    (h : Division fields k pend (chunk :: chunks) values) :
    ∃ joined rest pend',
      values = joined ++ rest ∧
      Takes fields k pend chunk joined pend' ∧
      Division fields (k + joined.length) pend' chunks rest := by
  cases h with
  | empty k pend chunk chunks values hvalues hrest =>
      exact ⟨[], values, pend, rfl, .empty hvalues, hrest⟩
  | whole k pend chunk chunks joined values hfields hvalues hchunked hjoins
      hrest =>
      exact
        ⟨joined, values, none, rfl,
          .values joined none hfields hvalues hchunked (by simpa using hjoins),
          hrest⟩
  | cut k pend chunk chunks joined p values hfields hvalues hchunked hjoins
      hrest =>
      exact
        ⟨joined, values, some p, rfl,
          .values joined (some p) hfields hvalues hchunked hjoins, hrest⟩

variable {δ ρ : Type} {options : RowOptions δ ρ} {fields : List Field}

/-- The stream has pushed the rows and keeps the values after them. -/
structure Reads
    (options : RowOptions δ ρ) (fields : List Field)
    (s : PartialResultStream ρ) (rows : List (List Value))
    (read : List Value) : Prop where
  read : read = rows.flatten ++ s.values
  columns : ∀ row ∈ rows, row.length = fields.length
  short : fields ≠ [] → s.values.length < fields.length
  none : fields = [] → rows = []
  pushed :
    s.rows = rows.map (PartialResultStream.createRow options fields)

theorem flatten_length
    {n : Nat} {rows : List (List Value)}
    (h : ∀ row ∈ rows, row.length = n) :
    rows.flatten.length = rows.length * n := by
  rw [List.length_flatten, List.map_congr_left h]
  simp

/-- The column of the next value. -/
theorem Reads.column
    {s : PartialResultStream ρ} {rows : List (List Value)}
    {read : List Value}
    (h : Reads options fields s rows read)
    (hfields : fields ≠ []) :
    read.length % fields.length = s.values.length := by
  rw [h.read, List.length_append, flatten_length h.columns,
    Nat.mul_add_mod_self_right, Nat.mod_eq_of_lt (h.short hfields)]

/-- What has been read shows in the rows pushed and the values kept. -/
theorem Reads.congr
    {s t : PartialResultStream ρ} {rows : List (List Value)}
    {read : List Value}
    (h : Reads options fields s rows read)
    (hvalues : t.values = s.values)
    (hrows : t.rows = s.rows) :
    Reads options fields t rows read where
  read := by rw [hvalues]; exact h.read
  columns := h.columns
  short := by rw [hvalues]; exact h.short
  none := h.none
  pushed := hrows.trans h.pushed

/-- Complete rows followed by part of one are a prefix of the rows. -/
theorem rows_initial
    {n : Nat} (hpos : 0 < n)
    {done rows : List (List Value)} {values rest : List Value}
    (hdone : ∀ row ∈ done, row.length = n)
    (hrows : ∀ row ∈ rows, row.length = n)
    (h : done.flatten ++ values ++ rest = rows.flatten) :
    done <+: rows := by
  induction done generalizing rows with
  | nil =>
      exact List.nil_prefix
  | cons row done ih =>
      cases rows with
      | nil =>
          have hrow := hdone row List.mem_cons_self
          simp only [List.flatten_nil, List.append_eq_nil_iff,
            List.flatten_cons] at h
          rw [h.1.1.1] at hrow
          simp at hrow
          omega
      | cons row' rows =>
          have hlength :
              row.length = row'.length :=
            (hdone row List.mem_cons_self).trans
              (hrows row' List.mem_cons_self).symm
          simp only [List.flatten_cons, List.append_assoc] at h
          obtain ⟨rfl, htail⟩ := List.append_inj h hlength
          refine List.cons_prefix_cons.mpr ⟨rfl, ?_⟩
          refine
            ih (fun r hr => hdone r (List.mem_cons_of_mem _ hr))
              (fun r hr => hrows r (List.mem_cons_of_mem _ hr)) ?_
          simpa using htail

/-- When the values of whole rows have been read, these rows have been pushed. -/
theorem Reads.rows_eq
    {s : PartialResultStream ρ} {done rows : List (List Value)}
    (h : Reads options fields s done rows.flatten)
    (hcolumns : ∀ row ∈ rows, row.length = fields.length)
    (hnone : fields = [] → rows = []) :
    s.rows = rows.map (PartialResultStream.createRow options fields) := by
  rw [h.pushed]
  by_cases hfields : fields = []
  · rw [hnone hfields, h.none hfields]
  · have hpos : 0 < fields.length := List.length_pos_iff.mpr hfields
    have heq : done.flatten ++ s.values ++ [] = rows.flatten := by
      rw [List.append_nil, ← h.read]
    obtain ⟨more, rfl⟩ := rows_initial hpos h.columns hcolumns heq
    rw [List.append_nil, List.flatten_append,
      List.append_cancel_left_eq] at heq
    cases more with
    | nil => simp
    | cons row more =>
        -- A whole row does not fit into the values that are kept.
        have hshort := h.short hfields
        have hrow := hcolumns row (by simp)
        rw [heq] at hshort
        simp only [List.flatten_cons, List.length_append] at hshort
        omega

namespace PartialResultStream

/-- What a loop over values leaves as it is. -/
structure Frame
    (s t : PartialResultStream ρ) : Prop where
  fields : t.fields = s.fields
  pendingValue : t.pendingValue = s.pendingValue
  ended : t.ended = s.ended
  thrown : t.thrown = s.thrown

theorem Frame.refl
    (s : PartialResultStream ρ) :
    Frame s s :=
  ⟨rfl, rfl, rfl, rfl⟩

theorem Frame.trans
    {s t u : PartialResultStream ρ}
    (h : Frame s t) (h' : Frame t u) :
    Frame s u :=
  ⟨h'.fields.trans h.fields, h'.pendingValue.trans h.pendingValue,
    h'.ended.trans h.ended, h'.thrown.trans h.thrown⟩

theorem addValue_reads
    {s : PartialResultStream ρ} {rows : List (List Value)}
    {read : List Value}
    (h : Reads options fields s rows read)
    (hfields : fields ≠ [])
    (value : Value) :
    Frame s (addValue options fields s value).1 ∧
      ∃ rows',
        Reads options fields (addValue options fields s value).1 rows'
          (read ++ [value]) := by
  have hshort := h.short hfields
  have hread : read ++ [value] = rows.flatten ++ (s.values ++ [value]) := by
    rw [h.read, List.append_assoc]
  unfold addValue
  dsimp only
  split
  · rename_i hlength
    refine ⟨⟨rfl, rfl, rfl, rfl⟩, rows, ?_⟩
    refine
      { read := hread
        columns := h.columns
        short := fun _ => ?_
        none := h.none
        pushed := h.pushed }
    simp only [List.length_append, List.length_singleton] at hlength ⊢
    omega
  · rename_i hlength
    have hrow : (s.values ++ [value]).length = fields.length := by
      simpa using hlength
    refine ⟨⟨rfl, rfl, rfl, rfl⟩, rows ++ [s.values ++ [value]], ?_⟩
    refine
      { read := by simp [hread, push]
        columns := ?_
        short := fun _ => List.length_pos_iff.mpr hfields
        none := fun hnil => absurd hnil hfields
        pushed := ?_ }
    · intro row hrow'
      rcases List.mem_append.mp hrow' with hmem | hmem
      · exact h.columns row hmem
      · rw [List.mem_singleton.mp hmem, hrow]
    · have hpushed := h.pushed
      rw [PartialResultStream.rows] at hpushed ⊢
      simp [push, List.reduceOption_append, hpushed]

theorem addValues_reads
    (hfields : fields ≠ [])
    (values : List Value) {s : PartialResultStream ρ} (res : Bool)
    {rows : List (List Value)} {read : List Value}
    (h : Reads options fields s rows read) :
    Frame s (addValues options fields s res values).1 ∧
      ∃ rows',
        Reads options fields (addValues options fields s res values).1
          rows' (read ++ values) := by
  induction values generalizing s res rows read with
  | nil =>
      exact ⟨Frame.refl s, rows, by simpa [addValues] using h⟩
  | cons value values ih =>
      obtain ⟨hframe, rows', hvalue⟩ := addValue_reads h hfields value
      obtain ⟨hframe', rows'', hvalues⟩ :=
        ih ((addValue options fields s value).2 && res) hvalue
      refine ⟨hframe.trans hframe', rows'', ?_⟩
      simpa [addValues, List.append_assoc] using hvalues

/-- The stream `t` has read on from `s`, and keeps the fragment, if there is one. -/
structure ReadsOn
    (options : RowOptions δ ρ) (fields : List Field)
    (s t : PartialResultStream ρ) (rows : List (List Value))
    (read : List Value) (pend : Option Value) : Prop where
  reads : Reads options fields t rows read
  pending : t.pending = pend.filter Value.truthy
  fields : t.fields = s.fields
  ended : t.ended = s.ended
  thrown : t.thrown = s.thrown

theorem ReadsOn.trans
    {s t u : PartialResultStream ρ} {rows rows' : List (List Value)}
    {read read' : List Value} {pend pend' : Option Value}
    (h : ReadsOn options fields s t rows read pend)
    (h' : ReadsOn options fields t u rows' read' pend') :
    ReadsOn options fields s u rows' read' pend' where
  reads := h'.reads
  pending := h'.pending
  fields := h'.fields.trans h.fields
  ended := h'.ended.trans h.ended
  thrown := h'.thrown.trans h.thrown

/-- The pending value is put together with the first value of the set. -/
theorem mergePending_joins
    {s : PartialResultStream ρ} {rows : List (List Value)}
    {read : List Value} {pend : Option Value} {values joined : List Value}
    (h : Reads options fields s rows read)
    (hfields : fields ≠ [])
    (hpending : s.pending = pend.filter Value.truthy)
    (hjoins : Joins fields read.length pend values joined) :
    ∃ t,
      mergePending fields s values = some (t, joined) ∧
      ReadsOn options fields s t rows read none := by
  cases hjoins with
  | whole =>
      have hnone : s.pending = none := hpending
      refine ⟨s, ?_, h, hnone, rfl, rfl, rfl⟩
      rw [mergePending, hnone]
  | part field p v w values hfield hsplits =>
      cases htruthy : p.truthy with
      | false =>
          have hnone : s.pending = none := by
            rw [hpending]
            simp [htruthy]
          rw [eq_of_splits_of_not_truthy hsplits htruthy]
          refine ⟨s, ?_, h, hnone, rfl, rfl, rfl⟩
          rw [mergePending, hnone]
      | true =>
          have hsome : s.pending = some p := by
            rw [hpending]
            simp [htruthy]
          rw [h.column hfields] at hfield
          have hlt := Nat.mod_eq_of_lt (h.short hfields)
          have hmerge : merge field.type p w = some [v] :=
            merge_splits hsplits
          rw [mergePending]
          rw [hsome]
          dsimp only
          rw [hlt, hfield]
          simp only [shift_cons, hmerge, Option.map_some,
            List.singleton_append, List.tail_cons]
          exact ⟨_, rfl, h.congr rfl rfl, rfl, rfl, rfl, rfl⟩

/-- The last value of a chunked set is kept. -/
theorem keepPending_keeps
    {s : PartialResultStream ρ} {rows : List (List Value)}
    {read : List Value} {chunk : PartialResultSet} {keep : Option Value}
    (h : Reads options fields s rows read)
    (hnone : s.pending = none)
    (hchunked : chunk.chunkedValue = keep.isSome)
    (joined : List Value) :
    ∃ t,
      keepPending s chunk (joined ++ keep.toList) = (t, joined) ∧
      ReadsOn options fields s t rows read keep := by
  rw [keepPending]
  cases keep with
  | none =>
      simp only [Option.isSome_none] at hchunked
      simp only [hchunked, Bool.false_eq_true, if_false,
        Option.toList_none, List.append_nil]
      split
      · exact ⟨_, rfl, h.congr rfl rfl, hnone, rfl, rfl, rfl⟩
      · exact ⟨s, rfl, h, hnone, rfl, rfl, rfl⟩
  | some p =>
      simp only [Option.isSome_some] at hchunked
      simp only [hchunked, if_true, Option.toList_some,
        List.dropLast_concat, pop_snoc]
      exact ⟨_, rfl, h.congr rfl rfl, rfl, rfl, rfl, rfl⟩

/-- A set with values is added; those before `keep` are complete then. -/
theorem addChunk_reads
    {s : PartialResultStream ρ} {rows : List (List Value)}
    {read : List Value} {pend : Option Value}
    {chunk : PartialResultSet} {joined : List Value}
    (keep : Option Value)
    (h : Reads options fields s rows read)
    (hsome : s.fields = some fields)
    (hfields : fields ≠ [])
    (hpending : s.pending = pend.filter Value.truthy)
    (hjoins :
      Joins fields read.length pend chunk.values (joined ++ keep.toList))
    (hchunked : chunk.chunkedValue = keep.isSome) :
    ∃ t res rows',
      addChunk options s chunk = some (t, res) ∧
      ReadsOn options fields s t rows' (read ++ joined) keep := by
  obtain ⟨t, hmerge, ht⟩ := mergePending_joins h hfields hpending hjoins
  obtain ⟨u, hkeep, hu⟩ :=
    keepPending_keeps ht.reads ht.pending hchunked joined
  have hon := ht.trans hu
  obtain ⟨hframe, rows', hreads⟩ :=
    addValues_reads hfields joined true hon.reads
  have hadd :
      addChunk options s chunk =
        some (addValues options fields u true joined) := by
    rw [addChunk]
    simp [hmerge, hkeep, hon.fields, hsome]
  refine ⟨_, _, rows', hadd, hreads, ?_, ?_, ?_, ?_⟩
  · rw [← hon.pending]
    unfold PartialResultStream.pending
    rw [hframe.pendingValue]
  · exact hframe.fields.trans hon.fields
  · exact hframe.ended.trans hon.ended
  · exact hframe.thrown.trans hon.thrown

/-- A set that has been added is read. -/
theorem transform_of_added
    {s t : PartialResultStream ρ} {rows : List (List Value)}
    {read : List Value} {pend : Option Value} {chunk : PartialResultSet}
    {res : Bool}
    (hmetadata : s.fields.or chunk.metadata = some fields)
    (hadded :
      (if chunk.values.isEmpty then
          some ({ s with fields := some fields }, true)
        else addChunk options { s with fields := some fields } chunk) =
        some (t, res))
    (h :
      ReadsOn options fields { s with fields := some fields } t rows read
        pend) :
    Reads options fields (s.transform options chunk) rows read ∧
      (s.transform options chunk).pending = pend.filter Value.truthy ∧
      (s.transform options chunk).fields = some fields ∧
      (s.transform options chunk).thrown = s.thrown ∧
      (s.transform options chunk).ended = (s.ended || chunk.last) := by
  rw [transform]
  dsimp only
  rw [hmetadata, hadded]
  dsimp only
  split
  · rename_i hlast
    exact
      ⟨h.reads.congr rfl rfl, h.pending, h.fields, h.thrown,
        by simp [hlast]⟩
  · rename_i hlast
    exact
      ⟨h.reads.congr rfl rfl, h.pending, h.fields, h.thrown,
        by simp [hlast, h.ended]⟩

/-- One set is read. -/
theorem transform_takes
    {s : PartialResultStream ρ} {rows : List (List Value)}
    {read joined : List Value} {pend pend' : Option Value}
    {chunk : PartialResultSet}
    (h : Reads options fields s rows read)
    (hmetadata : s.fields.or chunk.metadata = some fields)
    (hpending : s.pending = pend.filter Value.truthy)
    (htakes : Takes fields read.length pend chunk joined pend') :
    ∃ rows',
      Reads options fields (s.transform options chunk) rows'
        (read ++ joined) ∧
      (s.transform options chunk).pending = pend'.filter Value.truthy ∧
      (s.transform options chunk).fields = some fields ∧
      (s.transform options chunk).thrown = s.thrown ∧
      (s.transform options chunk).ended = (s.ended || chunk.last) := by
  have hreads :
      Reads options fields { s with fields := some fields } rows read :=
    h.congr rfl rfl
  cases htakes with
  | empty hvalues =>
      refine ⟨rows, ?_⟩
      rw [List.append_nil]
      exact
        transform_of_added hmetadata (by rw [hvalues]; rfl)
          ⟨hreads, hpending, rfl, rfl, rfl⟩
  | values joined keep hfields hvalues hchunked hjoins =>
      obtain ⟨t, res, rows', hadd, ht⟩ :=
        addChunk_reads pend' hreads rfl hfields hpending hjoins hchunked
      exact
        ⟨rows',
          transform_of_added hmetadata
            (by rw [List.isEmpty_eq_false_iff.mpr hvalues]; exact hadd) ht⟩

/-- One set of a division is read. -/
theorem transform_reads
    {s : PartialResultStream ρ} {rows : List (List Value)}
    {read : List Value} {pend : Option Value} {chunk : PartialResultSet}
    {chunks : List PartialResultSet} {values : List Value}
    (h : Reads options fields s rows read)
    (hmetadata : s.fields.or chunk.metadata = some fields)
    (hpending : s.pending = pend.filter Value.truthy)
    (hdivision :
      Division fields read.length pend (chunk :: chunks) values) :
    ∃ rows' joined rest pend',
      values = joined ++ rest ∧
      Division fields (read ++ joined).length pend' chunks rest ∧
      Reads options fields (s.transform options chunk) rows'
        (read ++ joined) ∧
      (s.transform options chunk).pending = pend'.filter Value.truthy ∧
      (s.transform options chunk).fields = some fields ∧
      (s.transform options chunk).thrown = s.thrown ∧
      (s.transform options chunk).ended = (s.ended || chunk.last) := by
  obtain ⟨joined, rest, pend', hvalues, htakes, hrest⟩ := hdivision.takes
  obtain ⟨rows', htransform⟩ := transform_takes h hmetadata hpending htakes
  rw [← List.length_append] at hrest
  exact ⟨rows', joined, rest, pend', hvalues, hrest, htransform⟩

end PartialResultStream

end ResultStream
end SpannerClient
