import Mathlib.Data.List.ReduceOption
import SpannerClient.ResultStream.Merge

/-!
# The partial result stream

`PartialResultStream` turns the partial result sets of a query into rows.  It
keeps the values of the row it is at, the fragment of a value that is to be
continued, and a second reference to that fragment for the case that the query
is resumed.

`transform` is what it does with a set: the metadata of the first one give the
fields (`fields`), the pending fragment is merged with the first value, the last
value is kept if the set says so, and the values are added to rows, which are pushed
as soon as they are full.  What the reader answers to a push is part of the state.

How a value is decoded and a row made of it is a parameter (`RowOptions`).  A merge
that throws ends the stream (`thrown`).
-/

namespace SpannerClient
namespace ResultStream

/-- A resume token; an empty one counts as none. -/
abbrev ResumeToken := List UInt8

/-- A partial result set, its values decoded. -/
structure PartialResultSet where
  metadata : Option (List Field) := none
  values : List Value := []
  chunkedValue : Bool := false
  resumeToken : Option ResumeToken := none
  last : Bool := false

/-- `_hasResumeToken`. -/
def PartialResultSet.hasResumeToken
    (chunk : PartialResultSet) : Bool :=
  match chunk.resumeToken with
  | none => false
  | some token => !token.isEmpty

/-- The options of the stream, and the parts of it that are not looked into. -/
structure RowOptions (δ ρ : Type) where
  /-- `codec.decode`. -/
  decode : Value → SpannerType → δ
  /-- What is pushed for a row: the row, or what `toJSON` makes of it. -/
  present : List (String × δ) → ρ
  maxResumeRetries : Nat := 20

/-- The state of the stream. -/
structure PartialResultStream (ρ : Type) where
  fields : Option (List Field) := none
  values : List Value := []
  pendingValue : Option Value := none
  pendingValueForResume : Option Value := none
  /-- The two pending values are one object. -/
  shared : Bool := false
  /-- What has been pushed: rows, and `undefined` to probe the reader. -/
  pushed : List (Option ρ) := []
  /-- What `push` is going to return; true when the list is exhausted. -/
  answers : List Bool := []
  /-- `next` has not been called for the last chunk. -/
  waiting : Bool := false
  numPushFailed : Nat := 0
  /-- It will not try to resume again. -/
  gaveUp : Bool := false
  destroyed : Bool := false
  /-- `null` has been pushed. -/
  ended : Bool := false
  /-- An exception has been thrown. -/
  thrown : Bool := false

namespace PartialResultStream

variable {δ ρ : Type}

/-- The rows pushed. -/
def rows
    (s : PartialResultStream ρ) : List ρ :=
  s.pushed.reduceOption

/-- `push` of anything but `null`. -/
def push
    (s : PartialResultStream ρ) (x : Option ρ) :
    PartialResultStream ρ × Bool :=
  ({ s with
      pushed := s.pushed ++ [x]
      answers := s.answers.tail },
    s.answers.headD true)

/-- `_createRow`. -/
def createRow
    (options : RowOptions δ ρ) (fields : List Field) (values : List Value) :
    ρ :=
  options.present
    (List.zipWith
      (fun field value => (field.name, options.decode value field.type))
      fields values)

/-- `_addValue`. -/
def addValue
    (options : RowOptions δ ρ) (fields : List Field)
    (s : PartialResultStream ρ) (value : Value) :
    PartialResultStream ρ × Bool :=
  let values := s.values ++ [value]
  if values.length ≠ fields.length then
    ({ s with values := values }, true)
  else
    push { s with values := [] } (some (createRow options fields values))

/-- The loop over the complete values; `res` is its running conjunction. -/
def addValues
    (options : RowOptions δ ρ) (fields : List Field) :
    PartialResultStream ρ → Bool → List Value →
      PartialResultStream ρ × Bool
  | s, res, [] => (s, res)
  | s, res, value :: values =>
      let (s, ok) := addValue options fields s value
      addValues options fields s (ok && res) values

/-- The pending value, if it counts as one. -/
def pending
    (s : PartialResultStream ρ) : Option Value :=
  s.pendingValue.filter Value.truthy

/-- The first part of `_addChunk`: the pending value is merged with the first of
the values, which pops an element off the array it shares with the value kept
for a resumption.  `none` if it throws. -/
def mergePending
    (fields : List Field) (s : PartialResultStream ρ) (values : List Value) :
    Option (PartialResultStream ρ × List Value) :=
  match s.pending with
  | none => some (s, values)
  | some head =>
      match fields[s.values.length % fields.length]? with
      | none => none
      | some field =>
          (merge field.type head (shift values)).map fun merged =>
            ({ s with
                pendingValue := none
                pendingValueForResume :=
                  if s.shared &&
                      mergePops field.type head (shift values) then
                    s.pendingValueForResume.map Value.popped
                  else
                    s.pendingValueForResume
                shared := false },
              merged ++ values.tail)

/-- The second part of `_addChunk`: the last value of a chunked set is kept. -/
def keepPending
    (s : PartialResultStream ρ) (chunk : PartialResultSet)
    (values : List Value) : PartialResultStream ρ × List Value :=
  if chunk.chunkedValue then
    ({ s with
        pendingValue := some (pop values)
        pendingValueForResume :=
          if chunk.hasResumeToken then some (pop values)
          else s.pendingValueForResume
        shared := chunk.hasResumeToken },
      values.dropLast)
  else if chunk.hasResumeToken then
    ({ s with
        pendingValueForResume := none
        shared := false },
      values)
  else
    (s, values)

/-- `_addChunk`; `none` if it throws. -/
def addChunk
    (options : RowOptions δ ρ) (s : PartialResultStream ρ)
    (chunk : PartialResultSet) : Option (PartialResultStream ρ × Bool) :=
  let fields := s.fields.getD []
  match mergePending fields s chunk.values with
  | none => none
  | some (s, values) =>
      let (s, values) := keepPending s chunk values
      if s.fields.isNone && !values.isEmpty then
        none
      else
        some (addValues options fields s true values)

/-- `_transform`. -/
def transform
    (options : RowOptions δ ρ) (s : PartialResultStream ρ)
    (chunk : PartialResultSet) : PartialResultStream ρ :=
  let s := { s with fields := s.fields.or chunk.metadata }
  let added :=
    if chunk.values.isEmpty then some (s, true) else addChunk options s chunk
  match added with
  | none => { s with thrown := true }
  | some (s, res) =>
      if chunk.last then
        { s with ended := true }
      else
        { s with waiting := !res }

/-- `_tryResume`. -/
def tryResume
    (options : RowOptions δ ρ) (s : PartialResultStream ρ) :
    PartialResultStream ρ :=
  let (s, ok) := push s none
  if ok then
    { s with
      numPushFailed := 0
      waiting := false }
  else
    { s with
      numPushFailed := s.numPushFailed + 1
      gaveUp := decide (s.numPushFailed + 1 = options.maxResumeRetries)
      destroyed :=
        s.destroyed ||
          decide (s.numPushFailed + 1 = options.maxResumeRetries) }

/-- `_resetPendingValues`. -/
def resetPendingValues
    (s : PartialResultStream ρ) : PartialResultStream ρ :=
  if s.pendingValueForResume.any Value.truthy then
    { s with
      pendingValue := s.pendingValueForResume
      shared := true }
  else
    { s with pendingValue := none }

end PartialResultStream

end ResultStream
end SpannerClient
