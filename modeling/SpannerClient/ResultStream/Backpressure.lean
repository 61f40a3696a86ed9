import SpannerClient.Machine.Run
import SpannerClient.ResultStream.Exact

/-!
# Backpressure

When `push` of a row answers that no more may be pushed, the stream does not call
`next` but pushes `undefined` from time to time, until that is answered
otherwise.  This module has the stream with what it does, and what a set does
apart from the reader: the rows are the same for every reader.

`Flow` is the stream with its outputs, the rows and the other values enqueued and
the events `paused` and `resumed`, and `flowStep` takes a set or a try to resume.
`unhindered` is the stream of a reader that never pushes back.

* What the stream keeps for the next set does not depend on the reader
  (`transform_withoutReader`).
* A set is added whole, or it throws (`transform_cases`).
-/

namespace SpannerClient
namespace ResultStream

open Machine

variable {δ ρ : Type}

/-- What the stream does that can be seen from outside. -/
inductive Output (ρ : Type) where
  /-- `_transform` is called. -/
  | taken
  /-- `push`, with its result. -/
  | pushed (x : Option ρ) (more : Bool)
  | paused
  | resumed
  | next

namespace Output

/-- What is enqueued on the readable side: everything that is pushed. -/
def enqueued : Output ρ → Option (Option ρ)
  | .pushed x _ => some x
  | _ => none

def isNext : Output ρ → Bool
  | .next => true
  | _ => false

end Output

/-- The stream, the sets it has taken, and what it has done. -/
structure Flow (ρ : Type) where
  stream : PartialResultStream ρ := {}
  taken : List PartialResultSet := []
  log : List (Output ρ) := []

section Outputs

open PartialResultStream

variable (options : RowOptions δ ρ) (fields : List Field)

/-- The outputs of the loop over the complete values. -/
def addValuesOutputs :
    PartialResultStream ρ → Bool → List Value → List (Output ρ)
  | _, _, [] => []
  | s, res, value :: values =>
      let added := addValue options fields s value
      let res := added.2 && res
      (added.1.pushed.drop s.pushed.length).map (.pushed · added.2) ++
        (if res then [] else [.paused]) ++
        addValuesOutputs added.1 res values

/-- The outputs of `_addChunk`. -/
def addChunkOutputs
    (s : PartialResultStream ρ) (chunk : PartialResultSet) :
    List (Output ρ) :=
  let fields := s.fields.getD []
  match mergePending fields s chunk.values with
  | none => []
  | some (s, values) =>
      let (s, values) := keepPending s chunk values
      if s.fields.isNone && !values.isEmpty then
        []
      else
        addValuesOutputs options fields s true values

/-- The outputs of `_transform`. -/
def transformOutputs
    (s : PartialResultStream ρ) (chunk : PartialResultSet) :
    List (Output ρ) :=
  let added :=
    if chunk.values.isEmpty then
      []
    else
      addChunkOutputs options { s with fields := s.fields.or chunk.metadata }
        chunk
  let t := s.transform options chunk
  .taken :: added ++
    if t.thrown || chunk.last || t.waiting then [] else [.next]

/-- The outputs of `_tryResume`. -/
def tryResumeOutputs
    (s : PartialResultStream ρ) : List (Output ρ) :=
  let more := s.answers.headD true
  .pushed none more :: if more then [.resumed, .next] else []

end Outputs

inductive FlowEvent where
  /-- Node has a set for the stream. -/
  | chunk (chunk : PartialResultSet)
  /-- The timer of a pause fires. -/
  | timer

/-- A set is taken if `next` has been called for the one before; the timer fires
if it has been set. -/
def flowStep
    (options : RowOptions δ ρ) (f : Flow ρ) : FlowEvent → Option (Flow ρ)
  | .chunk chunk =>
      if f.stream.waiting || f.stream.ended || f.stream.thrown then
        none
      else
        some
          { stream := f.stream.transform options chunk
            taken := f.taken ++ [chunk]
            log := f.log ++ transformOutputs options f.stream chunk }
  | .timer =>
      if f.stream.waiting && !f.stream.gaveUp then
        some
          { f with
            stream := f.stream.tryResume options
            log := f.log ++ tryResumeOutputs f.stream }
      else
        none

/-! ## The reader that never pushes back -/

/-- The stream of a reader that never pushes back, after the sets. -/
def unhindered
    (options : RowOptions δ ρ) (chunks : List PartialResultSet) :
    PartialResultStream ρ :=
  chunks.foldl (PartialResultStream.transform options) {}

namespace PartialResultStream

variable {options : RowOptions δ ρ} {fields : List Field}

/-- The stream without what comes from the reader. -/
def withoutReader
    (s : PartialResultStream ρ) : PartialResultStream ρ :=
  { s with
    pushed := s.rows.map some
    answers := []
    waiting := false
    numPushFailed := 0
    gaveUp := false
    destroyed := false }

@[simp] theorem rows_withoutReader
    (s : PartialResultStream ρ) :
    s.withoutReader.rows = s.rows := by
  rw [withoutReader, PartialResultStream.rows, List.reduceOption]
  rw [List.filterMap_map]
  exact List.filterMap_some

theorem addValue_withoutReader
    (s : PartialResultStream ρ) (value : Value) :
    addValue options fields s.withoutReader value =
      ((addValue options fields s value).1.withoutReader, true) := by
  have hvalues : s.withoutReader.values = s.values := rfl
  unfold addValue
  dsimp only
  rw [hvalues]
  split
  · rfl
  · simp [push, withoutReader, rows, List.reduceOption_append]

theorem addValues_withoutReader
    (values : List Value) (s : PartialResultStream ρ) (res : Bool) :
    addValues options fields s.withoutReader true values =
      ((addValues options fields s res values).1.withoutReader, true) := by
  induction values generalizing s res with
  | nil =>
      rfl
  | cons value values ih =>
      rw [addValues, addValue_withoutReader]
      exact ih _ _

theorem mergePending_withoutReader
    (s : PartialResultStream ρ) (values : List Value) :
    mergePending fields s.withoutReader values =
      (mergePending fields s values).map fun merged =>
        (merged.1.withoutReader, merged.2) := by
  have hpending : s.withoutReader.pending = s.pending := rfl
  have hvalues : s.withoutReader.values = s.values := rfl
  unfold mergePending
  rw [hpending, hvalues]
  cases s.pending with
  | none =>
      rfl
  | some head =>
      dsimp only
      cases fields[s.values.length % fields.length]? with
      | none =>
          rfl
      | some field =>
          dsimp only
          cases merge field.type head (shift values) <;> rfl

theorem keepPending_withoutReader
    (s : PartialResultStream ρ) (chunk : PartialResultSet)
    (values : List Value) :
    keepPending s.withoutReader chunk values =
      ((keepPending s chunk values).1.withoutReader,
        (keepPending s chunk values).2) := by
  unfold keepPending
  split
  · rfl
  · split <;> rfl

theorem addChunk_withoutReader
    (s : PartialResultStream ρ) (chunk : PartialResultSet) :
    addChunk options s.withoutReader chunk =
      (addChunk options s chunk).map fun added =>
        (added.1.withoutReader, true) := by
  have hfields : s.withoutReader.fields = s.fields := rfl
  unfold addChunk
  dsimp only
  rw [hfields, mergePending_withoutReader]
  cases mergePending (s.fields.getD []) s chunk.values with
  | none =>
      rfl
  | some merged =>
      obtain ⟨t, values⟩ := merged
      have hkept :
          (keepPending t chunk values).1.withoutReader.fields =
            (keepPending t chunk values).1.fields := rfl
      dsimp only [Option.map_some]
      rw [keepPending_withoutReader, hkept]
      split
      · rfl
      · rw [addValues_withoutReader _ _ true]
        rfl

/-- The reader has no part in what a set does to the rest of the stream. -/
theorem transform_withoutReader
    (s : PartialResultStream ρ) (chunk : PartialResultSet) :
    s.withoutReader.transform options chunk =
      (s.transform options chunk).withoutReader := by
  have hadded :
      (if chunk.values.isEmpty then
          some
            ({ s.withoutReader with
                fields := s.withoutReader.fields.or chunk.metadata },
              true)
        else
          addChunk options
            { s.withoutReader with
              fields := s.withoutReader.fields.or chunk.metadata }
            chunk) =
        (if chunk.values.isEmpty then
            some ({ s with fields := s.fields.or chunk.metadata }, true)
          else
            addChunk options { s with fields := s.fields.or chunk.metadata }
              chunk).map
          fun added => (added.1.withoutReader, true) := by
    split
    · rfl
    · exact
        addChunk_withoutReader
          { s with fields := s.fields.or chunk.metadata } chunk
  unfold transform
  dsimp only
  rw [hadded]
  generalize
    (if chunk.values.isEmpty then
        some ({ s with fields := s.fields.or chunk.metadata }, true)
      else
        addChunk options { s with fields := s.fields.or chunk.metadata }
          chunk) = added
  cases added with
  | none =>
      rfl
  | some added =>
      dsimp only [Option.map_some]
      split <;> rfl

theorem tryResume_withoutReader
    (options : RowOptions δ ρ)
    (s : PartialResultStream ρ) :
    (s.tryResume options).withoutReader = s.withoutReader := by
  rw [tryResume]
  dsimp only
  split <;>
    simp [push, withoutReader, rows, List.reduceOption_append]

/-! ## What a set leaves alone -/

/-- The part of the stream that the values of a set do not change. -/
def control
    (s : PartialResultStream ρ) : Bool × Bool × Bool × Nat × Bool × Bool :=
  (s.waiting, s.ended, s.thrown, s.numPushFailed, s.gaveUp, s.destroyed)

theorem addValue_control
    (options : RowOptions δ ρ) (fields : List Field)
    (s : PartialResultStream ρ) (value : Value) :
    (addValue options fields s value).1.control = s.control := by
  unfold addValue
  dsimp only
  split <;> rfl

theorem mergePending_control
    {s t : PartialResultStream ρ} {values merged : List Value}
    (hmerge : mergePending fields s values = some (t, merged)) :
    t.control = s.control ∧ t.pushed = s.pushed := by
  unfold mergePending at hmerge
  split at hmerge
  · obtain ⟨rfl, -⟩ := Prod.mk.inj (Option.some.inj hmerge)
    exact ⟨rfl, rfl⟩
  · split at hmerge
    · cases hmerge
    · obtain ⟨_, -, heq⟩ := Option.map_eq_some_iff.mp hmerge
      obtain ⟨rfl, -⟩ := Prod.mk.inj heq
      exact ⟨rfl, rfl⟩

theorem keepPending_control
    (s : PartialResultStream ρ) (chunk : PartialResultSet)
    (values : List Value) :
    (keepPending s chunk values).1.control = s.control ∧
      (keepPending s chunk values).1.pushed = s.pushed := by
  rw [keepPending]
  split
  · exact ⟨rfl, rfl⟩
  · split <;> exact ⟨rfl, rfl⟩

end PartialResultStream

/-! ## The outputs of a set -/

open PartialResultStream

variable {options : RowOptions δ ρ} {fields : List Field}

/-- What happens while the values of a set are added. -/
def Output.ofValue : Output ρ → Prop
  | .pushed _ _ => True
  | .paused => True
  | _ => False

/-- The outputs `outputs` lead from the stream `s` to `added`. -/
structure Adds
    (s : PartialResultStream ρ) (res : Bool)
    (added : PartialResultStream ρ × Bool) (outputs : List (Output ρ)) :
    Prop where
  control : added.1.control = s.control
  pushed : added.1.pushed = s.pushed ++ outputs.filterMap Output.enqueued
  rows : none ∉ outputs.filterMap Output.enqueued
  ofValue : ∀ o ∈ outputs, o.ofValue
  notPaused : added.2 = true → res = true ∧ .paused ∉ outputs

theorem addValue_pushed
    (options : RowOptions δ ρ) (fields : List Field)
    (s : PartialResultStream ρ) (value : Value) :
    ∃ xs, s.pushed ++ xs = (addValue options fields s value).1.pushed ∧
      none ∉ xs := by
  unfold addValue
  dsimp only
  split
  · exact ⟨[], List.append_nil _, List.not_mem_nil⟩
  · exact ⟨[some _], rfl, by simp⟩

theorem filterMap_pushed
    (xs : List (Option ρ)) (more : Bool) :
    (xs.map (Output.pushed · more)).filterMap Output.enqueued = xs := by
  rw [List.filterMap_map]
  exact List.filterMap_some

theorem addValues_adds
    (options : RowOptions δ ρ) (fields : List Field)
    (values : List Value) (s : PartialResultStream ρ) (res : Bool) :
    Adds s res (addValues options fields s res values)
      (addValuesOutputs options fields s res values) := by
  induction values generalizing s res with
  | nil =>
      refine ⟨rfl, ?_, List.not_mem_nil, ?_, ?_⟩
      · simp [addValues, addValuesOutputs]
      · intro o ho
        cases ho
      · intro hres
        exact ⟨hres, List.not_mem_nil⟩
  | cons value values ih =>
      rw [addValues, addValuesOutputs]
      dsimp only
      have hvalue := addValue_control options fields s value
      obtain ⟨xs, hxs, hsome⟩ := addValue_pushed options fields s value
      generalize addValue options fields s value = added at hvalue hxs ⊢
      obtain ⟨t, more⟩ := added
      have htail := ih t (more && res)
      have hdrop : t.pushed.drop s.pushed.length = xs := by
        rw [← hxs, List.drop_left]
      dsimp only at hdrop hvalue hxs ⊢
      rw [hdrop]
      refine ⟨htail.control.trans hvalue, ?_, ?_, ?_, ?_⟩
      · rw [htail.pushed, ← hxs, List.filterMap_append, List.filterMap_append,
          filterMap_pushed]
        cases more && res <;> simp [Output.enqueued]
      · rw [List.filterMap_append, List.filterMap_append, filterMap_pushed]
        have hpaused :
            none ∉
              (if more && res then [] else [Output.paused (ρ := ρ)]).filterMap
                Output.enqueued := by
          split <;> exact List.not_mem_nil
        simp only [List.mem_append, not_or]
        exact ⟨⟨hsome, hpaused⟩, htail.rows⟩
      · intro o ho
        rcases List.mem_append.mp ho with ho | ho
        · rcases List.mem_append.mp ho with ho | ho
          · obtain ⟨x, -, rfl⟩ := List.mem_map.mp ho
            trivial
          · split at ho
            · cases ho
            · obtain rfl := List.mem_singleton.mp ho
              trivial
        · exact htail.ofValue o ho
      · intro hres
        obtain ⟨hand, hnot⟩ := htail.notPaused hres
        refine ⟨(Bool.and_eq_true_iff.mp hand).2, ?_⟩
        rw [hand] at hnot ⊢
        simp [hnot]

/-- The set can be decoded: `_addChunk` does not throw. -/
def Decodes
    (options : RowOptions δ ρ) (s : PartialResultStream ρ)
    (chunk : PartialResultSet) : Prop :=
  chunk.values.isEmpty = true ∨
    (addChunk options { s with fields := s.fields.or chunk.metadata }
      chunk).isSome = true

theorem addChunk_adds
    {s t : PartialResultStream ρ} {chunk : PartialResultSet} {res : Bool}
    (hadd : addChunk options s chunk = some (t, res)) :
    Adds s true (t, res) (addChunkOutputs options s chunk) := by
  unfold addChunk at hadd
  rw [addChunkOutputs]
  dsimp only at hadd ⊢
  cases hmerge : mergePending (s.fields.getD []) s chunk.values with
  | none =>
      rw [hmerge] at hadd
      cases hadd
  | some merged =>
      obtain ⟨u, values⟩ := merged
      rw [hmerge] at hadd
      obtain ⟨hcontrol, hpushed⟩ := mergePending_control hmerge
      obtain ⟨hcontrol', hpushed'⟩ := keepPending_control u chunk values
      dsimp only at hadd ⊢
      split at hadd
      · cases hadd
      · rename_i hfields
        rw [if_neg hfields]
        have hadds :=
          addValues_adds options (s.fields.getD [])
            (keepPending u chunk values).2 (keepPending u chunk values).1 true
        rw [Option.some.inj hadd] at hadds
        refine ⟨?_, ?_, hadds.rows, hadds.ofValue, hadds.notPaused⟩
        · exact hadds.control.trans (hcontrol'.trans hcontrol)
        · rw [hadds.pushed, hpushed', hpushed]

theorem addChunkOutputs_of_none
    {s : PartialResultStream ρ} {chunk : PartialResultSet}
    (hadd : addChunk options s chunk = none) :
    addChunkOutputs options s chunk = [] := by
  unfold addChunk at hadd
  rw [addChunkOutputs]
  dsimp only at hadd ⊢
  cases hmerge : mergePending (s.fields.getD []) s chunk.values with
  | none =>
      rfl
  | some merged =>
      rw [hmerge] at hadd
      dsimp only at hadd ⊢
      split at hadd
      · rename_i hfields
        rw [if_pos hfields]
      · cases hadd

/-- A set throws, or it is added, with its outputs. -/
theorem transform_cases
    (options : RowOptions δ ρ)
    (s : PartialResultStream ρ) (chunk : PartialResultSet) :
    (¬Decodes options s chunk ∧
        s.transform options chunk =
          { s with
            fields := s.fields.or chunk.metadata
            thrown := true } ∧
        transformOutputs options s chunk = [.taken]) ∨
      (Decodes options s chunk ∧
        ∃ t res outputs,
          Adds s true (t, res) outputs ∧
            s.transform options chunk =
              (if chunk.last then { t with ended := true }
                else { t with waiting := !res }) ∧
            transformOutputs options s chunk =
              .taken :: outputs ++
                if t.thrown || chunk.last || !res then [] else [.next]) := by
  by_cases hempty : chunk.values.isEmpty
  · refine Or.inr ⟨Or.inl hempty, ?_⟩
    refine ⟨{ s with fields := s.fields.or chunk.metadata }, true, [], ?_⟩
    have htransform :
        s.transform options chunk =
          if chunk.last then
            { s with
              fields := s.fields.or chunk.metadata
              ended := true }
          else
            { s with
              fields := s.fields.or chunk.metadata
              waiting := false } := by
      rw [transform]
      simp only [hempty, if_true]
      split <;> rfl
    refine ⟨⟨rfl, by simp, List.not_mem_nil, ?_, ?_⟩, htransform, ?_⟩
    · intro o ho
      cases ho
    · intro _
      exact ⟨rfl, List.not_mem_nil⟩
    · rw [transformOutputs, htransform]
      simp only [hempty, if_true]
      cases chunk.last <;> simp
  · cases hadd :
        addChunk options { s with fields := s.fields.or chunk.metadata }
          chunk with
    | none =>
        refine Or.inl ⟨?_, ?_, ?_⟩
        · rintro (hempty' | hsome)
          · exact hempty hempty'
          · rw [hadd] at hsome
            cases hsome
        · rw [transform]
          simp only [hempty, hadd]
          rfl
        · rw [transformOutputs, transform]
          simp only [hempty, hadd, addChunkOutputs_of_none hadd]
          rfl
    | some added =>
        obtain ⟨t, res⟩ := added
        refine
          Or.inr
            ⟨Or.inr (by rw [hadd]; rfl), t, res,
              addChunkOutputs options
                { s with fields := s.fields.or chunk.metadata } chunk,
              ?_, ?_, ?_⟩
        · obtain ⟨hcontrol, hpushed, hrows, hvalue, hpaused⟩ :=
            addChunk_adds hadd
          exact ⟨hcontrol, hpushed, hrows, hvalue, hpaused⟩
        · rw [transform]
          simp only [hempty, hadd]
          rfl
        · rw [transformOutputs, transform]
          simp only [hempty, hadd]
          cases chunk.last <;> simp

end ResultStream
end SpannerClient
