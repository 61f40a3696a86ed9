import Mathlib.Logic.Function.Basic
import SpannerClient.Machine.Run

/-!
# Transaction tags in request options

A call may be given an object with request options, and the same object may be
given to several calls.  The tag of the transaction is assigned to the object
itself, which then belongs to the request; the request is copied when it is
prepared, some turns later.  So the model has the objects (`Heap`), the requests
that have not been prepared, with the objects they refer to, and the tags of those
sent.

`Heap.configureTagOptions` is the assignment of reads, queries and batches, which a
single-use transaction does not make, and `Heap.assignOptions` that of `commit`, which
assigns all options of the transaction.  `step` has the calls of any number of
transactions in any order, and the preparing of their requests.
-/

namespace SpannerClient
namespace RequestTags

open Machine

/-- The property `transactionTag` of an object: whether it is there, and its
value unless that is `undefined` or `null`. -/
abbrev TagProperty := Option (Option String)

/-- The tag that a request with the property carries; `''` is none. -/
def tagOf
    (property : TagProperty) : Option String :=
  property.join.filter fun tag => tag ≠ ""

/-- What is fixed of a `Transaction` or, if it is not for writing, of a
`Snapshot`. -/
structure Transaction where
  /-- `_options.readWrite` -/
  readWrite : Bool
  useInRunner : Bool := false
  /-- `this.requestOptions`, and its property. -/
  requestOptions : Option TagProperty := none

/-- `this.requestOptions?.transactionTag ?? undefined`, unless it is `''`. -/
def Transaction.transactionTag
    (t : Transaction) : Option String :=
  tagOf t.requestOptions.join

/-- An object with request options: of the callers, or one that was created
because a call was given none. -/
inductive Object where
  | callers (n : Nat)
  | created (n : Nat)
  deriving DecidableEq

/-- A request that has not been prepared. -/
structure Request where
  transaction : Nat
  singleUse : Bool
  requestOptions : Object

/-- A stream, by what its `makeRequest` works on. -/
inductive Stream where
  /-- `createReadStream` -/
  | read (reqOpts : Request)
  /-- `runStream`; `reqOpts` also has whether its selector has an id. -/
  | query (transaction : Nat) (requestOptions : Option Nat)
      (reqOpts : Option (Request × Bool))

/-- A request that has been sent, with the tag it carries. -/
structure Sent where
  transaction : Nat
  singleUse : Bool
  transactionTag : Option String
  deriving DecidableEq

/-- The objects. -/
structure Heap where
  objects : Object → TagProperty := fun _ => none
  created : Nat := 0
  /-- The assignments so far, with the transaction whose tag was assigned. -/
  taggings : List (Object × Nat) := []

structure Client where
  /-- The transactions that have an id. -/
  ids : List Nat := []
  heap : Heap := {}
  streams : List Stream := []
  pending : List Request := []
  sent : List Sent := []

/-! ## The options -/

/-- The object of the caller, or the default `{}`. -/
def Heap.argument
    (heap : Heap) : Option Nat → Heap × Object
  | some n => (heap, .callers n)
  | none => ({ heap with created := heap.created + 1 }, .created heap.created)

/-- `requestOptions.transactionTag = value` -/
def Heap.assign
    (heap : Heap) (i : Nat) (o : Object) (value : Option String) : Heap :=
  { heap with
    objects := Function.update heap.objects o (some value)
    taggings := heap.taggings ++ [(o, i)] }

section Calls

variable (transactions : Nat → Transaction)

/-- `configureTagOptions` -/
def Heap.configureTagOptions
    (heap : Heap) (i : Nat) (singleUse : Bool) (requestOptions : Option Nat) :
    Heap × Object :=
  let argument := heap.argument requestOptions
  match singleUse, (transactions i).transactionTag with
  | false, some tag => (argument.1.assign i argument.2 (some tag), argument.2)
  | _, _ => argument

/-- `Object.assign(requestOptions || {}, this.requestOptions)` -/
def Heap.assignOptions
    (heap : Heap) (i : Nat) (requestOptions : Option Nat) : Heap × Object :=
  let argument := heap.argument requestOptions
  match (transactions i).requestOptions.join with
  | some value => (argument.1.assign i argument.2 value, argument.2)
  | none => argument

/-! ## The calls -/

/-- Whether the selector of a read or a query is `singleUse`. -/
def Client.isSingleUse
    (c : Client) (i : Nat) : Bool :=
  !decide (i ∈ c.ids) && !(transactions i).readWrite

/-- `createReadStream`: the options are configured once, by the call. -/
def Client.createReadStream
    (c : Client) (i : Nat) (requestOptions : Option Nat) : Client :=
  let singleUse := c.isSingleUse transactions i
  let configured :=
    c.heap.configureTagOptions transactions i singleUse requestOptions
  { c with
    heap := configured.1
    streams := c.streams ++ [.read ⟨i, singleUse, configured.2⟩] }

/-- `runStream`: nothing is configured yet. -/
def Client.runStream
    (c : Client) (i : Nat) (requestOptions : Option Nat) : Client :=
  { c with streams := c.streams ++ [.query i requestOptions none] }

/-- A request is handed to the client. -/
def Client.enqueue
    (c : Client) (r : Request) : Client :=
  { c with pending := c.pending ++ [r] }

/-- `sanitizeRequest` of the stream `k`, and the request. -/
def Client.sanitizeRequest
    (c : Client) (k i : Nat) (requestOptions : Option Nat) : Client :=
  let singleUse := c.isSingleUse transactions i
  let configured :=
    c.heap.configureTagOptions transactions i singleUse requestOptions
  let reqOpts : Request := ⟨i, singleUse, configured.2⟩
  Client.enqueue
    { c with
      heap := configured.1
      streams :=
        c.streams.set k
          (.query i requestOptions (some (reqOpts, decide (i ∈ c.ids)))) }
    reqOpts

/-- `makeRequest` of the stream `k`, at every attempt. -/
def Client.makeRequest
    (c : Client) (k : Nat) : Stream → Client
  | .read reqOpts => c.enqueue reqOpts
  | .query i requestOptions none =>
      c.sanitizeRequest transactions k i requestOptions
  | .query i requestOptions (some (reqOpts, hasId)) =>
      if decide (i ∈ c.ids) && !hasId then
        c.sanitizeRequest transactions k i requestOptions
      else
        c.enqueue reqOpts

/-- `batchUpdate` -/
def Client.batchUpdate
    (c : Client) (i : Nat) (requestOptions : Option Nat) : Client :=
  let configured :=
    c.heap.configureTagOptions transactions i false requestOptions
  Client.enqueue { c with heap := configured.1 } ⟨i, false, configured.2⟩

/-- `commit`; within a runner it begins the transaction first if there is no id,
and is called again with the same options. -/
def Client.commit
    (c : Client) (i : Nat) (requestOptions : Option Nat) : Client :=
  if i ∈ c.ids ∨ !(transactions i).useInRunner then
    let assigned := c.heap.assignOptions transactions i requestOptions
    Client.enqueue { c with heap := assigned.1 } ⟨i, false, assigned.2⟩
  else
    c

/-- `prepareGapicRequest_`: the request is copied, its options with it. -/
def Client.prepareRequest
    (c : Client) (k : Nat) (r : Request) : Client :=
  { c with
    pending := c.pending.eraseIdx k
    sent :=
      c.sent ++
        [⟨r.transaction, r.singleUse,
          tagOf (c.heap.objects r.requestOptions)⟩] }

end Calls

/-! ## The events -/

inductive Event where
  /-- The transaction receives an id. -/
  | update (transaction : Nat)
  | createReadStream (transaction : Nat) (requestOptions : Option Nat)
  | runStream (transaction : Nat) (requestOptions : Option Nat)
  /-- An attempt of a stream, the first or a later one. -/
  | makeRequest (stream : Nat)
  | batchUpdate (transaction : Nat) (requestOptions : Option Nat)
  | commit (transaction : Nat) (requestOptions : Option Nat)
  /-- A request that is waiting is prepared and sent. -/
  | prepareRequest (request : Nat)

/-- A `Snapshot` has no `batchUpdate` and no `commit`. -/
def step
    (transactions : Nat → Transaction) (c : Client) : Event → Option Client
  | .update i => some { c with ids := i :: c.ids }
  | .createReadStream i requestOptions =>
      some (c.createReadStream transactions i requestOptions)
  | .runStream i requestOptions => some (c.runStream i requestOptions)
  | .makeRequest k => c.streams[k]?.map (c.makeRequest transactions k)
  | .batchUpdate i requestOptions =>
      if (transactions i).readWrite then
        some (c.batchUpdate transactions i requestOptions)
      else
        none
  | .commit i requestOptions =>
      if (transactions i).readWrite then
        some (c.commit transactions i requestOptions)
      else
        none
  | .prepareRequest k => c.pending[k]?.map (c.prepareRequest k)

end RequestTags
end SpannerClient
