import SpannerClient.ResultStream.Fragments
import SpannerClient.ResultStream.Reassembly

/-!
# Exact reassembly

The rules of the protocol for chunked values know no types: `Delivers` says, by
`combine`, what a sequence of sets carries.  A cut is legal (`LegalCut`) if no
list in it has an empty part, and even (`EvenCut`) if moreover no list in it
meets a value that is neither a list nor null, as the last list field of a STRUCT
may meet the field after it.

For rows that are typed, every sequence with even cuts is one of those the stream
reassembles (`division_of_delivers`): the types tell the stream what the protocol
tells by the values.  The partial values met on the way are typed but for the
length of the lists.  At a cut that is legal and not even the stream throws
(`transform_of_unevenSeam`).

The main result is `rows_iff_evenCut`: of the sequences with legal cuts, those
with even ones are reassembled exactly, and no other.
-/

namespace SpannerClient
namespace ResultStream

open Machine

/-! ## The protocol -/

/-- No list that is cut has an empty part. -/
def LegalCut
    (p w : Value) : Prop :=
  ¬ EmptySeam p w

/-- No list that is cut has an empty part, and none meets a value that is neither
a list nor null. -/
def EvenCut
    (p w : Value) : Prop :=
  ¬ BadSeam p w

theorem evenCut_iff
    (p w : Value) :
    EvenCut p w ↔ LegalCut p w ∧ ¬ UnevenSeam p w := by
  rw [EvenCut, badSeam_iff, not_or]
  rfl

theorem legalCut_of_not_list
    {p w : Value}
    (h : ∀ values, w ≠ .list values) :
    LegalCut p w := by
  intro hseam
  cases hseam with
  | head ys => exact h ys rfl
  | tail xs => exact h [] rfl
  | inside xs a b ys => exact h (b :: ys) rfl

/-- Texts may be cut anywhere. -/
theorem evenCut_string
    (t : String) (w : Value) :
    EvenCut (.string t) w := by
  intro h
  cases h

/-- Lists are cut evenly where two lists that are cut evenly meet. -/
theorem EvenCut.inside
    {as bs : List Value}
    (h : EvenCut (.list as) (.list bs))
    (xs ys : List Value) :
    EvenCut (.list (xs ++ [.list as])) (.list (.list bs :: ys)) := by
  rw [evenCut_iff] at h ⊢
  refine ⟨(emptySeam_lists_iff _ _ _ _).not.mpr h.1, ?_⟩
  rw [unevenSeam_lists_iff]
  rintro (⟨-, -, hnotList⟩ | hinner)
  · exact hnotList bs rfl
  · exact h.2 hinner

/-- So are they where a text meets something. -/
theorem evenCut_between
    (xs : List Value) (t : String) (w : Value) (ys : List Value) :
    EvenCut (.list (xs ++ [.string t])) (.list (w :: ys)) := by
  have htext := (evenCut_iff _ _).mp (evenCut_string t w)
  rw [evenCut_iff]
  refine ⟨(emptySeam_lists_iff _ _ _ _).not.mpr htext.1, ?_⟩
  rw [unevenSeam_lists_iff]
  rintro (⟨⟨zs, hlist⟩, -⟩ | hinner)
  · cases hlist
  · exact htext.2 hinner

/-- The values of a set, the first of them combined with what is pending. -/
inductive Continues (Cut : Value → Value → Prop) :
    Option Value → List Value → List Value → Prop where
  | whole (values : List Value) :
      Continues Cut none values values
  | part (p w v : Value) (values : List Value)
      (hcut : Cut p w)
      (hcombine : combine p w = some v) :
      Continues Cut (some p) (w :: values) (v :: values)

/-- The sets carry the values, after what is pending. -/
inductive Delivers (Cut : Value → Value → Prop) :
    Option Value → List PartialResultSet → List Value → Prop where
  | done :
      Delivers Cut none [] []
  | empty (pend : Option Value) (chunk : PartialResultSet)
      (chunks : List PartialResultSet) (values : List Value)
      (hvalues : chunk.values = [])
      (hrest : Delivers Cut pend chunks values) :
      Delivers Cut pend (chunk :: chunks) values
  | whole (pend : Option Value) (chunk : PartialResultSet)
      (chunks : List PartialResultSet) (joined values : List Value)
      (hvalues : chunk.values ≠ [])
      (hchunked : chunk.chunkedValue = false)
      (hjoins : Continues Cut pend chunk.values joined)
      (hrest : Delivers Cut none chunks values) :
      Delivers Cut pend (chunk :: chunks) (joined ++ values)
  | cut (pend : Option Value) (chunk : PartialResultSet)
      (chunks : List PartialResultSet) (joined : List Value) (p : Value)
      (values : List Value)
      (hvalues : chunk.values ≠ [])
      (hchunked : chunk.chunkedValue = true)
      (hjoins : Continues Cut pend chunk.values (joined ++ [p]))
      (hrest : Delivers Cut (some p) chunks values) :
      Delivers Cut pend (chunk :: chunks) (joined ++ values)

theorem Continues.mono
    {Cut Cut' : Value → Value → Prop} {pend : Option Value}
    {values joined : List Value}
    (h : Continues Cut pend values joined)
    (hcut : ∀ p w, Cut p w → Cut' p w) :
    Continues Cut' pend values joined := by
  cases h with
  | whole => exact .whole values
  | part p w v values h hcombine =>
      exact .part p w v values (hcut p w h) hcombine

theorem Delivers.mono
    {Cut Cut' : Value → Value → Prop} {pend : Option Value}
    {chunks : List PartialResultSet} {values : List Value}
    (h : Delivers Cut pend chunks values)
    (hcut : ∀ p w, Cut p w → Cut' p w) :
    Delivers Cut' pend chunks values := by
  induction h with
  | done => exact .done
  | empty pend chunk chunks values hvalues _ ih =>
      exact .empty pend chunk chunks values hvalues ih
  | whole pend chunk chunks joined values hvalues hchunked hjoins _ ih =>
      exact
        .whole pend chunk chunks joined values hvalues hchunked
          (hjoins.mono hcut) ih
  | cut pend chunk chunks joined p values hvalues hchunked hjoins _ ih =>
      exact
        .cut pend chunk chunks joined p values hvalues hchunked
          (hjoins.mono hcut) ih

/-! ## From the protocol to the types -/

/-- The value is the beginning of one of the column. -/
def OfColumn
    (fields : List Field) (k : Nat) (v : Value) : Prop :=
  ∃ field, fields[k % fields.length]? = some field ∧
    PartTyped field.type v

/-- The values, from the one with the number `k` on, are of their columns. -/
def OfColumns
    (fields : List Field) (k : Nat) (values : List Value) : Prop :=
  ∀ (i : Nat) v, values[i]? = some v → OfColumn fields (k + i) v

theorem OfColumn.fields_ne_nil
    {fields : List Field} {k : Nat} {v : Value}
    (h : OfColumn fields k v) :
    fields ≠ [] := by
  obtain ⟨field, hfield, -⟩ := h
  rintro rfl
  cases hfield

theorem OfColumns.append_right
    {fields : List Field} {k : Nat} {xs ys : List Value}
    (h : OfColumns fields k (xs ++ ys)) :
    OfColumns fields (k + xs.length) ys := by
  intro i v hi
  have hv := h (xs.length + i) v (by
    rw [List.getElem?_append_right (by omega), Nat.add_sub_cancel_left]
    exact hi)
  rwa [← Nat.add_assoc] at hv

/-- The first of the values is of the column `k`. -/
theorem OfColumns.head
    {fields : List Field} {k : Nat} {v : Value} {values : List Value}
    (h : OfColumns fields k values)
    (hhead : values.head? = some v) :
    OfColumn fields k v :=
  h 0 v (by rw [← List.head?_eq_getElem?]; exact hhead)

/-- What continues a pending value is of its column, so that is too. -/
theorem Continues.pending_ofColumn
    {fields : List Field} {k : Nat} {Cut : Value → Value → Prop}
    {pend : Option Value} {values joined : List Value}
    (h : Continues Cut pend values joined)
    (hhead : ∀ v, joined.head? = some v → OfColumn fields k v) :
    ∀ p, pend = some p → OfColumn fields k p := by
  cases h with
  | whole =>
      intro p hp
      cases hp
  | part p w v values hcut hcombine =>
      obtain ⟨field, hfield, hv⟩ := hhead v rfl
      intro q hq
      obtain rfl := Option.some.inj hq
      exact ⟨field, hfield, partTyped_of_combine hcombine hv⟩

/-- At an even cut the value is cut as the types have it. -/
theorem joins_of_continues
    {fields : List Field} {k : Nat} {pend : Option Value}
    {values joined : List Value}
    (h : Continues EvenCut pend values joined)
    (hhead : ∀ v, joined.head? = some v → OfColumn fields k v) :
    Joins fields k pend values joined := by
  cases h with
  | whole => exact .whole values
  | part p w v values hcut hcombine =>
      obtain ⟨field, hfield, hv⟩ := hhead v rfl
      exact
        .part field p v w values hfield
          ((splits_iff hv p w).mpr ⟨hcombine, hcut⟩)

/-- A set with values leaves some. -/
theorem Continues.ne_nil
    {Cut : Value → Value → Prop} {pend : Option Value}
    {values joined : List Value}
    (h : Continues Cut pend values joined)
    (hne : values ≠ []) :
    ∃ v, joined.head? = some v := by
  cases h with
  | whole =>
      cases values with
      | nil => exact absurd rfl hne
      | cons v values => exact ⟨v, rfl⟩
  | part p w v values => exact ⟨v, rfl⟩

/-- The first of the complete values is of the column `k`. -/
theorem OfColumns.head_append
    {fields : List Field} {k : Nat} {joined values : List Value}
    (h : OfColumns fields k (joined ++ values)) :
    ∀ v, joined.head? = some v → OfColumn fields k v := by
  intro v hv
  exact h.head (by simp [List.head?_append, hv])

/-- The first value is complete, or it is pending still. -/
theorem OfColumns.head_snoc
    {fields : List Field} {k : Nat} {joined values : List Value} {p : Value}
    (h : OfColumns fields k (joined ++ values))
    (hp : OfColumn fields (k + joined.length) p) :
    ∀ v, (joined ++ [p]).head? = some v → OfColumn fields k v := by
  intro v hv
  cases joined with
  | nil =>
      obtain rfl : p = v := by simpa using hv
      simpa using hp
  | cons w joined => exact h.head (by simpa using hv)

/-- What is pending is the beginning of a value of its column. -/
theorem Delivers.pending_ofColumn
    {fields : List Field} {Cut : Value → Value → Prop} {pend : Option Value}
    {chunks : List PartialResultSet} {values : List Value}
    (h : Delivers Cut pend chunks values)
    {k : Nat}
    (hvalues : OfColumns fields k values) :
    ∀ p, pend = some p → OfColumn fields k p := by
  induction h generalizing k with
  | done =>
      intro p hp
      cases hp
  | empty pend chunk chunks values hempty _ ih => exact ih hvalues
  | whole pend chunk chunks joined values hne hchunked hcontinues _ ih =>
      exact hcontinues.pending_ofColumn hvalues.head_append
  | cut pend chunk chunks joined p values hne hchunked hcontinues _ ih =>
      exact
        hcontinues.pending_ofColumn
          (hvalues.head_snoc (ih hvalues.append_right p rfl))

/-- The types of the columns tell what the protocol tells by the values. -/
theorem division_of_delivers
    {fields : List Field} {pend : Option Value}
    {chunks : List PartialResultSet} {values : List Value}
    (h : Delivers EvenCut pend chunks values)
    {k : Nat}
    (hvalues : OfColumns fields k values) :
    Division fields k pend chunks values := by
  induction h generalizing k with
  | done => exact .done k
  | empty pend chunk chunks values hempty _ ih =>
      exact .empty k pend chunk chunks values hempty (ih hvalues)
  | whole pend chunk chunks joined values hne hchunked hcontinues _ ih =>
      have hhead := hvalues.head_append
      obtain ⟨v, hv⟩ := hcontinues.ne_nil hne
      exact
        .whole k pend chunk chunks joined values (hhead v hv).fields_ne_nil
          hne hchunked (joins_of_continues hcontinues hhead)
          (ih hvalues.append_right)
  | cut pend chunk chunks joined p values hne hchunked hcontinues hrest ih =>
      have hp := hrest.pending_ofColumn hvalues.append_right p rfl
      have hhead := hvalues.head_snoc hp
      obtain ⟨v, hv⟩ := hcontinues.ne_nil hne
      exact
        .cut k pend chunk chunks joined p values (hhead v hv).fields_ne_nil
          hne hchunked (joins_of_continues hcontinues hhead)
          (ih hvalues.append_right)

/-- The values of a row are of the types of the fields. -/
def RowTyped
    (fields : List Field) (row : List Value) : Prop :=
  List.Forall₂ (fun field v => WellTyped field.type v) fields row

/-- In rows that are typed, every value is of its column. -/
theorem ofColumns_flatten
    {fields : List Field} {rows : List (List Value)}
    (hrows : ∀ row ∈ rows, RowTyped fields row)
    {k : Nat}
    (hk : k % fields.length = 0) :
    OfColumns fields k rows.flatten := by
  induction rows generalizing k with
  | nil =>
      intro i v hv
      simp at hv
  | cons row rows ih =>
      obtain ⟨hlength, htyped⟩ :=
        List.forall₂_iff_get.mp (hrows row List.mem_cons_self)
      intro i v hv
      rw [List.flatten_cons] at hv
      by_cases hi : i < row.length
      · rw [List.getElem?_append_left hi] at hv
        have hlt : i < fields.length := by omega
        obtain ⟨_, rfl⟩ := List.getElem?_eq_some_iff.mp hv
        refine ⟨fields[i], ?_, (htyped i hlt hi).part⟩
        rw [Nat.add_mod, hk, Nat.zero_add, Nat.mod_mod,
          Nat.mod_eq_of_lt hlt, List.getElem?_eq_getElem hlt]
      · rw [List.getElem?_append_right (by omega)] at hv
        have hnext : (k + row.length) % fields.length = 0 := by
          rw [← hlength, Nat.add_mod_right, hk]
        have htail :=
          ih (fun r hr => hrows r (List.mem_cons_of_mem _ hr)) hnext
            (i - row.length) v hv
        rwa [show k + row.length + (i - row.length) = k + i by omega]
          at htail

/-! ## The stream -/

/-- The sets carry the rows: these are typed, the values are delivered by the
rules of the protocol in legal cuts, the first set has the metadata, and only the
last may say that it is. -/
structure Carries
    (fields : List Field) (rows : List (List Value))
    (chunks : List PartialResultSet) : Prop where
  typed : ∀ row ∈ rows, RowTyped fields row
  noColumns : fields = [] → rows = []
  delivers : Delivers LegalCut none chunks rows.flatten
  metadata :
    ∃ chunk rest, chunks = chunk :: rest ∧ chunk.metadata = some fields
  last :
    ∀ before chunk after, chunks = before ++ chunk :: after →
      chunk.last = true → after = []

variable {δ ρ : Type} {options : RowOptions δ ρ} {fields : List Field}

namespace PartialResultStream

/-- Transform the sets, one after the other; refused where `next` has not been
called, or the stream has ended or failed. -/
def feed
    (options : RowOptions δ ρ) :
    PartialResultStream ρ → List PartialResultSet →
      Option (PartialResultStream ρ)
  | s, [] => some s
  | s, chunk :: chunks =>
      if s.waiting || s.ended || s.thrown then
        none
      else
        feed options (s.transform options chunk) chunks

/-- The reader has never pushed back, and will not. -/
structure Flowing
    (s : PartialResultStream ρ) : Prop where
  answers : s.answers = []
  waiting : s.waiting = false

theorem push_flowing
    {s : PartialResultStream ρ}
    (h : s.Flowing)
    (x : Option ρ) :
    (push s x).1.Flowing ∧ (push s x).2 = true := by
  simp [push, h.answers, h.waiting, Flowing.mk]

theorem addValue_flowing
    {s : PartialResultStream ρ}
    (h : s.Flowing)
    (value : Value) :
    (addValue options fields s value).1.Flowing ∧
      (addValue options fields s value).2 = true := by
  unfold addValue
  dsimp only
  split
  · exact ⟨⟨h.answers, h.waiting⟩, rfl⟩
  · have hrow : ({ s with values := [] } : PartialResultStream ρ).Flowing :=
      ⟨h.answers, h.waiting⟩
    exact push_flowing hrow _

theorem addValues_flowing
    (values : List Value)
    {s : PartialResultStream ρ}
    (h : s.Flowing) :
    (addValues options fields s true values).1.Flowing ∧
      (addValues options fields s true values).2 = true := by
  induction values generalizing s with
  | nil => exact ⟨h, rfl⟩
  | cons value values ih =>
      obtain ⟨hflowing, hok⟩ :
          (addValue options fields s value).1.Flowing ∧
            (addValue options fields s value).2 = true :=
        addValue_flowing h value
      have hcons :
          addValues options fields s true (value :: values) =
            addValues options fields (addValue options fields s value).1
              true values := by
        simp [addValues, hok]
      rw [hcons]
      exact ih hflowing

theorem mergePending_flowing
    {s t : PartialResultStream ρ} {values merged : List Value}
    (h : s.Flowing)
    (hmerge : mergePending fields s values = some (t, merged)) :
    t.Flowing := by
  unfold mergePending at hmerge
  split at hmerge
  · simp only [Option.some.injEq, Prod.mk.injEq] at hmerge
    exact hmerge.1 ▸ h
  · split at hmerge
    · cases hmerge
    · simp only [Option.map_eq_some_iff, Prod.mk.injEq] at hmerge
      obtain ⟨_, -, rfl, -⟩ := hmerge
      exact ⟨h.answers, h.waiting⟩

theorem keepPending_flowing
    {s : PartialResultStream ρ}
    (h : s.Flowing)
    (chunk : PartialResultSet) (values : List Value) :
    (keepPending s chunk values).1.Flowing := by
  rw [keepPending]
  split
  · exact ⟨h.answers, h.waiting⟩
  · split
    · exact ⟨h.answers, h.waiting⟩
    · exact h

theorem addChunk_flowing
    {s t : PartialResultStream ρ} {chunk : PartialResultSet} {res : Bool}
    (h : s.Flowing)
    (hadd : addChunk options s chunk = some (t, res)) :
    t.Flowing ∧ res = true := by
  unfold addChunk at hadd
  dsimp only at hadd
  cases hmerge : mergePending (s.fields.getD []) s chunk.values with
  | none => simp [hmerge] at hadd
  | some merged =>
      rw [hmerge] at hadd
      dsimp only at hadd
      split at hadd
      · cases hadd
      · have hkept :=
          keepPending_flowing (mergePending_flowing h hmerge) chunk merged.2
        have hadded := Option.some.inj hadd
        rw [show t = (t, res).1 from rfl, show res = (t, res).2 from rfl,
          ← hadded]
        exact addValues_flowing _ hkept

/-- With a reader that takes everything, `next` is called at once. -/
theorem transform_flowing
    {s : PartialResultStream ρ}
    (h : s.Flowing)
    (chunk : PartialResultSet) :
    (s.transform options chunk).Flowing := by
  have hfields :
      ({ s with fields := s.fields.or chunk.metadata } :
        PartialResultStream ρ).Flowing :=
    ⟨h.answers, h.waiting⟩
  have hadded :
      ∀ t res,
        (if chunk.values.isEmpty then
            some ({ s with fields := s.fields.or chunk.metadata }, true)
          else
            addChunk options
              { s with fields := s.fields.or chunk.metadata } chunk) =
          some (t, res) →
        t.Flowing ∧ res = true := by
    intro t res hsome
    split at hsome
    · simp only [Option.some.injEq, Prod.mk.injEq] at hsome
      exact ⟨hsome.1 ▸ hfields, hsome.2.symm⟩
    · exact addChunk_flowing hfields hsome
  rw [transform]
  dsimp only
  split
  · exact ⟨h.answers, h.waiting⟩
  · rename_i t res hsome
    obtain ⟨hflowing, rfl⟩ := hadded t res hsome
    split
    · exact ⟨hflowing.answers, hflowing.waiting⟩
    · exact ⟨hflowing.answers, rfl⟩

/-- All the sets are read, and with them all the values. -/
theorem feed_reads
    {chunks : List PartialResultSet}
    {s : PartialResultStream ρ} {rows : List (List Value)}
    {read values : List Value} {pend : Option Value}
    (hreads : Reads options fields s rows read)
    (hmetadata :
      ∀ chunk, chunks.head? = some chunk →
        s.fields.or chunk.metadata = some fields)
    (hpending : s.pending = pend.filter Value.truthy)
    (hdivision : Division fields read.length pend chunks values)
    (hlast :
      ∀ before chunk after, chunks = before ++ chunk :: after →
        chunk.last = true → after = [])
    (hflowing : s.Flowing)
    (hended : chunks ≠ [] → s.ended = false)
    (hthrown : s.thrown = false) :
    ∃ t rows',
      feed options s chunks = some t ∧
      Reads options fields t rows' (read ++ values) ∧
      t.pending = none ∧ t.thrown = false := by
  induction chunks generalizing s rows read values pend with
  | nil =>
      cases hdivision with
      | done =>
          exact ⟨s, rows, rfl, by simpa using hreads, hpending, hthrown⟩
  | cons chunk chunks ih =>
      obtain ⟨rows', joined, rest, pend', rfl, hdivision', hreads',
        hpending', hfields', hthrown', hended'⟩ :=
        transform_reads hreads (hmetadata chunk rfl) hpending hdivision
      have hopen := hended (by simp)
      rw [hopen, Bool.false_or] at hended'
      have hnext : chunks ≠ [] → (s.transform options chunk).ended = false := by
        intro hne
        rw [hended']
        by_contra hlastChunk
        exact hne (hlast [] chunk chunks rfl (by simpa using hlastChunk))
      obtain ⟨t, rows'', hfeed, hreads'', hnone, hok⟩ :=
        ih hreads' (fun c _ => by rw [hfields']; rfl) hpending' hdivision'
          (fun before c after heq =>
            hlast (chunk :: before) c after (by rw [heq]; rfl))
          (transform_flowing hflowing chunk) hnext
          (hthrown'.trans hthrown)
      refine ⟨t, rows'', ?_, ?_, hnone, hok⟩
      · rw [feed, hflowing.waiting, hopen, hthrown]
        exact hfeed
      · rw [← List.append_assoc]
        exact hreads''

/-! ## Uneven cuts -/

/-- A stream that has thrown takes no further set. -/
theorem thrown_of_feed
    {s t : PartialResultStream ρ} {chunks : List PartialResultSet}
    (hfeed : feed options s chunks = some t)
    (hthrown : s.thrown = true) :
    t.thrown = true := by
  cases chunks with
  | nil =>
      obtain rfl := Option.some.inj hfeed
      exact hthrown
  | cons chunk chunks => simp [feed, hthrown] at hfeed

theorem feed_cons_some
    {s t : PartialResultStream ρ} {chunk : PartialResultSet}
    {chunks : List PartialResultSet}
    (hfeed : feed options s (chunk :: chunks) = some t) :
    feed options (s.transform options chunk) chunks = some t := by
  rw [feed] at hfeed
  split at hfeed
  · cases hfeed
  · exact hfeed

/-- At an uneven seam the stream throws. -/
theorem transform_of_unevenSeam
    {s : PartialResultStream ρ} {rows : List (List Value)}
    {read values : List Value} {chunk : PartialResultSet} {p w v : Value}
    (h : Reads options fields s rows read)
    (hmetadata : s.fields.or chunk.metadata = some fields)
    (hpending : s.pending = (some p).filter Value.truthy)
    (hvalues : chunk.values = w :: values)
    (hseam : UnevenSeam p w)
    (hcombine : combine p w = some v)
    (hv : OfColumn fields read.length v) :
    (s.transform options chunk).thrown = true := by
  obtain ⟨field, hfield, htyped⟩ := hv
  have hsome : s.pending = some p := by
    rw [hpending]
    cases hseam <;> rfl
  have hfields : fields ≠ [] := OfColumn.fields_ne_nil ⟨field, hfield, htyped⟩
  rw [h.column hfields] at hfield
  have hmerge :
      mergePending fields { s with fields := some fields } chunk.values =
        none := by
    have hlt := Nat.mod_eq_of_lt (h.short hfields)
    have hpend :
        ({ s with fields := some fields } : PartialResultStream ρ).pending =
          some p :=
      hsome
    have hnone := merge_of_unevenSeam hseam hcombine htyped
    rw [mergePending, hpend]
    dsimp only
    rw [hlt, hfield]
    simp only [hvalues, shift_cons, hnone, Option.map_none]
  have hadd :
      addChunk options { s with fields := some fields } chunk = none := by
    rw [addChunk]
    simp only [Option.getD_some, hmerge]
  rw [transform]
  dsimp only
  rw [hmetadata, hadd, hvalues]
  rfl

/-- A stream that does not throw has found the cut even. -/
theorem evenCut_of_transform
    {s : PartialResultStream ρ} {rows : List (List Value)}
    {read joined : List Value} {pend : Option Value}
    {chunk : PartialResultSet}
    (h : Reads options fields s rows read)
    (hmetadata : s.fields.or chunk.metadata = some fields)
    (hpending : s.pending = pend.filter Value.truthy)
    (hcontinues : Continues LegalCut pend chunk.values joined)
    (hhead : ∀ v, joined.head? = some v → OfColumn fields read.length v)
    (hok : (s.transform options chunk).thrown = false) :
    Continues EvenCut pend chunk.values joined := by
  generalize hvalues : chunk.values = values at hcontinues
  cases hcontinues with
  | whole => exact .whole _
  | part p w v values hcut hcombine =>
      refine .part p w v values ?_ hcombine
      rw [EvenCut, badSeam_iff]
      rintro (hempty | huneven)
      · exact hcut hempty
      · rw [transform_of_unevenSeam h hmetadata hpending hvalues huneven
          hcombine (hhead v rfl)] at hok
        cases hok

/-- If the stream takes all the sets and does not throw, their cuts are even. -/
theorem evenCut_of_feed
    {s t : PartialResultStream ρ} {rows : List (List Value)}
    {read values : List Value} {pend : Option Value}
    {chunks : List PartialResultSet}
    (hdelivers : Delivers LegalCut pend chunks values)
    (hvalues : OfColumns fields read.length values)
    (hreads : Reads options fields s rows read)
    (hmetadata :
      ∀ chunk, chunks.head? = some chunk →
        s.fields.or chunk.metadata = some fields)
    (hpending : s.pending = pend.filter Value.truthy)
    (hfeed : feed options s chunks = some t)
    (hok : t.thrown = false) :
    Delivers EvenCut pend chunks values := by
  -- One set has been taken, and the rest has even cuts by the hypothesis.
  have hstep :
      ∀ {s : PartialResultStream ρ} {chunk : PartialResultSet}
        {chunks : List PartialResultSet},
        feed options s (chunk :: chunks) = some t →
          (s.transform options chunk).thrown = false := by
    intro s chunk chunks hfeed
    by_contra hthrown
    rw [Bool.not_eq_false] at hthrown
    rw [thrown_of_feed (feed_cons_some hfeed) hthrown] at hok
    cases hok
  induction hdelivers generalizing s rows read with
  | done => exact .done
  | empty pend chunk chunks values hempty _ ih =>
      obtain ⟨rows', hreads', hpending', hfields', -⟩ :=
        transform_takes hreads (hmetadata chunk rfl) hpending (.empty hempty)
      refine .empty pend chunk chunks values hempty ?_
      exact
        ih (by simpa using hvalues) hreads' (fun c _ => by rw [hfields']; rfl)
          hpending' (feed_cons_some hfeed)
  | whole pend chunk chunks joined values hne hchunked hcontinues _ ih =>
      have hhead := hvalues.head_append
      have heven :=
        evenCut_of_transform hreads (hmetadata chunk rfl) hpending hcontinues
          hhead (hstep hfeed)
      obtain ⟨v, hv⟩ := hcontinues.ne_nil hne
      obtain ⟨rows', hreads', hpending', hfields', -⟩ :=
        transform_takes hreads (hmetadata chunk rfl) hpending
          (.values joined none (hhead v hv).fields_ne_nil hne hchunked
            (by simpa using joins_of_continues heven hhead))
      refine
        .whole pend chunk chunks joined values hne hchunked heven ?_
      exact
        ih (by simpa using hvalues.append_right) hreads'
          (fun c _ => by rw [hfields']; rfl) hpending' (feed_cons_some hfeed)
  | cut pend chunk chunks joined p values hne hchunked hcontinues hrest ih =>
      have hhead :=
        hvalues.head_snoc (hrest.pending_ofColumn hvalues.append_right p rfl)
      have heven :=
        evenCut_of_transform hreads (hmetadata chunk rfl) hpending hcontinues
          hhead (hstep hfeed)
      obtain ⟨v, hv⟩ := hcontinues.ne_nil hne
      obtain ⟨rows', hreads', hpending', hfields', -⟩ :=
        transform_takes hreads (hmetadata chunk rfl) hpending
          (.values joined (some p) (hhead v hv).fields_ne_nil hne hchunked
            (joins_of_continues heven hhead))
      refine
        .cut pend chunk chunks joined p values hne hchunked heven ?_
      exact
        ih (by simpa using hvalues.append_right) hreads'
          (fun c _ => by rw [hfields']; rfl) hpending' (feed_cons_some hfeed)

theorem reads_new :
    Reads options fields ({} : PartialResultStream ρ) [] [] where
  read := rfl
  columns := by simp
  short := fun hne => List.length_pos_iff.mpr hne
  none := fun _ => rfl
  pushed := rfl

/--
Reassembly is exact for even cuts and no others: for rows of any types, however
their values are delivered in legal cuts, a stream that is fed the sets and never
held up takes them all and pushes the rows, in order, each with its values under
the names of the fields, and nothing is left pending, if and only if the cuts are
even.
-/
theorem rows_iff_evenCut
    (options : RowOptions δ ρ)
    {rows : List (List Value)} {chunks : List PartialResultSet}
    (h : Carries fields rows chunks) :
    (∃ t,
      feed options {} chunks = some t ∧
      t.rows = rows.map (createRow options fields) ∧
      t.pending = none ∧ t.thrown = false) ↔
      Delivers EvenCut none chunks rows.flatten := by
  have hcolumns : OfColumns fields 0 rows.flatten :=
    ofColumns_flatten h.typed (Nat.zero_mod _)
  obtain ⟨chunk, rest, rfl, hmetadata⟩ := h.metadata
  have hmeta :
      ∀ c, (chunk :: rest).head? = some c →
        ({} : PartialResultStream ρ).fields.or c.metadata = some fields := by
    intro c hc
    obtain rfl := Option.some.inj hc
    exact hmetadata
  constructor
  · rintro ⟨t, hfeed, -, -, hok⟩
    exact evenCut_of_feed h.delivers hcolumns reads_new hmeta rfl hfeed hok
  · intro heven
    obtain ⟨t, rows', hfeed, hreads', hnone, hok⟩ :=
      feed_reads reads_new hmeta rfl (division_of_delivers heven hcolumns)
        h.last ⟨rfl, rfl⟩ (fun _ => rfl) rfl
    refine ⟨t, hfeed, ?_, hnone, hok⟩
    refine Reads.rows_eq hreads' ?_ h.noColumns
    intro row hrow
    exact (h.typed row hrow).length_eq.symm

/-- Rows as lists of names and values. -/
def plainRows : RowOptions Value (List (String × Value)) where
  decode value _ := value
  present := id

/-- A string and an array of structs. -/
def orderFields : List Field :=
  [⟨"id", .scalar "STRING"⟩,
    ⟨"items", .array (.struct [.scalar "STRING"])⟩]

def orderRows : List (List Value) :=
  [[.string "1", .list [.list [.string "ab"]]],
    [.string "2", .list [.list [.string "c"]]]]

/-- The first array is cut inside its string, the second identifier at its end. -/
def orderSets : List PartialResultSet :=
  [{ metadata := some orderFields
     values := [.string "1", .list [.list [.string "a"]]]
     chunkedValue := true },
    { values := [.list [.list [.string "b"]], .string "2"]
      chunkedValue := true },
    { values := [.string "", .list [.list [.string "c"]]]
      last := true }]

theorem evenCuts_orderSets :
    Delivers EvenCut none orderSets orderRows.flatten := by
  have hitems :
      EvenCut (.list [.list [.string "a"]]) (.list [.list [.string "b"]]) :=
    (evenCut_between [] "a" (.string "b") []).inside [] []
  exact
    .cut none _ _ [.string "1"] _ _ (by simp) rfl (.whole _)
      (.cut _ _ _ [.list [.list [.string "ab"]]] _ _ (by simp) rfl
        (.part _ _ _ _ hitems (by simp [combine, combineLists]))
        (.whole _ _ [] _ [] (by simp) rfl
          (.part _ _ _ _ (evenCut_string "2" _) (by simp [combine])) .done))

theorem carries_orderSets :
    Carries orderFields orderRows orderSets where
  typed := by
    have hitems :
        ∀ s : String,
          WellTyped (.array (.struct [.scalar "STRING"]))
            (.list [.list [.string s]]) := by
      intro s
      refine .array _ _ ?_
      intro v hv
      obtain rfl := List.mem_singleton.mp hv
      refine .struct _ _ rfl ?_
      intro i type v htype hv
      cases i with
      | zero =>
          cases htype
          cases hv
          exact .string _ _
      | succ i => cases htype
    intro row hrow
    rcases List.mem_cons.mp hrow with rfl | hrow
    · exact .cons (.string _ _) (.cons (hitems _) .nil)
    · obtain rfl := List.mem_singleton.mp hrow
      exact .cons (.string _ _) (.cons (hitems _) .nil)
  noColumns := by
    intro hnil
    cases hnil
  delivers := by
    refine evenCuts_orderSets.mono fun p w heven => ?_
    exact ((evenCut_iff p w).mp heven).1
  metadata := ⟨_, _, rfl, rfl⟩
  last := by
    intro before chunk after heq hlast
    rcases before with _ | ⟨_, _ | ⟨_, _ | ⟨_, before⟩⟩⟩
    · cases heq
      cases hlast
    · cases heq
      cases hlast
    · cases heq
      rfl
    · simp [orderSets] at heq

theorem rows_iff_evenCut_orderSets :
    ∃ t,
      feed plainRows {} orderSets = some t ∧
      t.rows =
        [[("id", .string "1"), ("items", .list [.list [.string "ab"]])],
          [("id", .string "2"), ("items", .list [.list [.string "c"]])]] := by
  obtain ⟨t, hfeed, hrows, -⟩ :=
    (rows_iff_evenCut plainRows carries_orderSets).mpr evenCuts_orderSets
  exact ⟨t, hfeed, hrows⟩

/-- A list of structs, each with a list and a string. -/
def albumFields : List Field :=
  [⟨"albums",
    .array (.struct [.array (.scalar "STRING"), .scalar "STRING"])⟩]

def albumRows : List (List Value) :=
  [[.list [.list [.list [.string "x"], .string "s"]]]]

/-- The struct is cut between its two fields. -/
def albumSets : List PartialResultSet :=
  [{ metadata := some albumFields
     values := [.list [.list [.list [.string "x"]]]]
     chunkedValue := true },
    { values := [.list [.list [.string "s"]]]
      last := true }]

theorem carries_albumSets :
    Carries albumFields albumRows albumSets where
  typed := by
    have htexts :
        WellTyped (.array (.scalar "STRING")) (.list [.string "x"]) := by
      refine .array _ _ ?_
      intro v hv
      obtain rfl := List.mem_singleton.mp hv
      exact .string _ _
    have halbum :
        WellTyped (.struct [.array (.scalar "STRING"), .scalar "STRING"])
          (.list [.list [.string "x"], .string "s"]) := by
      refine .struct _ _ rfl ?_
      intro i type v htype hv
      match i with
      | 0 =>
          obtain rfl := Option.some.inj htype
          obtain rfl := Option.some.inj hv
          exact htexts
      | 1 =>
          obtain rfl := Option.some.inj htype
          obtain rfl := Option.some.inj hv
          exact .string _ _
      | i + 2 => simp at htype
    intro row hrow
    obtain rfl := List.mem_singleton.mp hrow
    refine .cons (.array _ _ ?_) .nil
    intro v hv
    obtain rfl := List.mem_singleton.mp hv
    exact halbum
  noColumns := by
    intro hnil
    cases hnil
  delivers := by
    have hfields : LegalCut (.list [.string "x"]) (.string "s") :=
      legalCut_of_not_list fun values heq => by cases heq
    have hstruct :
        LegalCut (.list [.list [.string "x"]]) (.list [.string "s"]) :=
      (emptySeam_lists_iff [] _ _ []).not.mpr hfields
    have hlist :
        LegalCut (.list [.list [.list [.string "x"]]])
          (.list [.list [.string "s"]]) :=
      (emptySeam_lists_iff [] _ _ []).not.mpr hstruct
    have hcombine :
        combine (.list [.list [.list [.string "x"]]])
            (.list [.list [.string "s"]]) =
          some (.list [.list [.list [.string "x"], .string "s"]]) := by
      simp [combine, combineLists]
    refine
      .cut none _ _ [] _ [.list [.list [.list [.string "x"], .string "s"]]]
        ?_ rfl (.whole _) ?_
    · simp
    · refine
        .whole _ _ [] [.list [.list [.list [.string "x"], .string "s"]]] []
          ?_ rfl (.part _ _ _ _ hlist hcombine) .done
      simp
  metadata := ⟨_, _, rfl, rfl⟩
  last := by
    intro before chunk after heq hlast
    rcases before with _ | ⟨_, _ | ⟨_, before⟩⟩
    · cases heq
      cases hlast
    · cases heq
      rfl
    · simp [albumSets] at heq

/-- The stream takes the second field for the rest of the first, and throws. -/
theorem albumSets_throw :
    ¬ ∀ (fields : List Field) (rows : List (List Value))
        (chunks : List PartialResultSet),
      Carries fields rows chunks →
        ∃ t,
          feed plainRows {} chunks = some t ∧
          t.rows = rows.map (createRow plainRows fields) := by
  intro h
  obtain ⟨t, hfeed, hrows⟩ := h _ _ _ carries_albumSets
  have hnone :
      (feed plainRows {} albumSets).map PartialResultStream.rows =
        some [] := by
    rfl
  rw [hfeed, Option.map_some, hrows] at hnone
  cases hnone

end PartialResultStream

end ResultStream
end SpannerClient
