import SpannerClient.Request.Keys
import SpannerClient.Request.Parameters
import SpannerClient.Transaction.Commit

/-!
# Partitions

A batch transaction has a query or a read partitioned by the server, and each of the
partitions can be executed by the transaction or by one that another process has
rebuilt from its identifier.  The server demands that the request of a partition
matches the one that has created it in all the fields that the two have in common.

The model has the transaction with its session and its id (`BatchTransaction`), its
identifier and what is rebuilt from it, the requests of `createQueryPartitions` and
`createReadPartitions`, and those of `execute`.  An id is a buffer or, in a
transaction that has been rebuilt, a text in base64; the text of an empty id counts
as none (`BytesField.truthy`), so that ids are assumed not to be empty (`Begun`).

Whoever has the transaction executes a partition with the request that has created
it (`execute_partition`).  The main result is `partitions_cover`: the partitions are
all accepted, and their rows are those of the query or read.
-/

namespace SpannerClient
namespace Batch

open Codec
open Machine
open Request
open Transaction (Timestamp)

/-! ## The model -/

/-- A field of bytes, as the client holds it. -/
inductive BytesField where
  | buffer (bytes : List UInt8)
  | text (s : String)
deriving DecidableEq

/-- The bytes that are sent: a text is taken for base64. -/
def BytesField.sent : BytesField → Option (List UInt8)
  | .buffer bytes => some bytes
  | .text s => unbase64 s

/-- A buffer is an object, also if it is empty. -/
def BytesField.truthy : BytesField → Bool
  | .buffer _ => true
  | .text s => s != ""

/-- `toString('base64')`, which leaves a text as it is. -/
def BytesField.toBase64 : BytesField → String
  | .buffer bytes => base64 bytes
  | .text s => s

structure Session where
  id : String
  formattedName_ : Option String
deriving DecidableEq

/-- `Session.formatName_`; a name without a slash is its own last part. -/
def formatName_
    (databaseName name : String) : String :=
  if name.contains '/' then name else databaseName ++ "/sessions/" ++ name

/-- `Database.session`. -/
def session
    (databaseName name : String) : Session where
  id := name
  formattedName_ :=
    if name = "" then none else some (formatName_ databaseName name)

/-- `BatchTransaction`. -/
structure BatchTransaction where
  session : Session
  id : Option BytesField := none
  readTimestampProto : Option Timestamp := none
  readTimestamp : Option Timestamp := none
deriving DecidableEq

/-- The session of an identifier: its name, or the object. -/
inductive SessionRef where
  | name (s : String)
  | object (session : Session)

structure TransactionIdentifier where
  session : SessionRef
  transaction : Option String := none
  timestamp : Option Timestamp := none

/-- `Database.batchTransaction`. -/
def batchTransaction
    (databaseName : String) (identifier : TransactionIdentifier) :
    BatchTransaction where
  session :=
    match identifier.session with
    | .name s => session databaseName s
    | .object session => session
  id := identifier.transaction.map .text
  readTimestamp := identifier.timestamp

/-- The properties of a query or read, or of one of their partitions, that the
modelled functions look at. -/
structure RequestObject (L : Leaves) where
  sql : Option String := none
  table : Option String := none
  index : Option String := none
  columns : List String := []
  query : ExecuteSqlRequest L := {}
  keys : ReadRequest L := {}
  session : Option String := none
  transaction : Option BytesField := none
  partitionToken : Option (List UInt8) := none

/-- What the server answers to a `PartitionQuery` or `PartitionRead` request. -/
structure PartitionResponse where
  partitions : List (List UInt8)
  transaction : Option (List UInt8 × Option Timestamp)

/-- A request as the server receives it. -/
structure Sent (L : Leaves) where
  session : Option String
  transaction : Option (List UInt8)
  sql : Option String
  table : Option String
  index : Option String
  columns : List String
  params : Option (Params L)
  paramTypes : Option (PlainObject SpannerType)
  keySet : Option (KeySet L.Number)
  partitionToken : Option (List UInt8)

/-- Send the request; `none` if a text is not base64. -/
def RequestObject.sent
    {L : Leaves} (request : RequestObject L) : Option (Sent L) :=
  (request.transaction.mapM BytesField.sent).map fun transaction =>
    { session := request.session
      transaction := transaction
      sql := request.sql
      table := request.table
      index := request.index
      columns := request.columns
      params := request.query.params
      paramTypes := request.query.paramTypes
      keySet := request.keys.keySet
      partitionToken := request.partitionToken }

namespace BatchTransaction

variable {L : Leaves}

/-- `identifier`; it throws before the transaction has been begun. -/
def identifier
    (t : BatchTransaction) : Option TransactionIdentifier :=
  t.id.map fun id =>
    { session := .name t.session.id
      transaction := some id.toBase64
      timestamp := t.readTimestampProto }

/-- The transaction of a response is taken over, by `begin` and by
`createPartitions_`. -/
def update
    (t : BatchTransaction) (id : List UInt8) (readTimestamp : Option Timestamp) :
    BatchTransaction :=
  { t with
    id := some (.buffer id)
    readTimestampProto := readTimestamp.or t.readTimestampProto
    readTimestamp := readTimestamp.or t.readTimestamp }

/-- `createPartitions_`: the request, which its partitions are made of. -/
def createPartitions_
    (t : BatchTransaction) (reqOpts : RequestObject L) : RequestObject L :=
  { reqOpts with
    session := t.session.formattedName_
    transaction := t.id }

/-- The callback of its request: the transaction afterwards, and the partitions. -/
def onPartitions
    (t : BatchTransaction) (query : RequestObject L) (resp : PartitionResponse) :
    BatchTransaction × List (RequestObject L) :=
  ( match resp.transaction with
    | none => t
    | some (id, readTimestamp) => t.update id readTimestamp,
    resp.partitions.map fun token =>
      { query with partitionToken := some token } )

/-- `createQueryPartitions`; `none` if it throws. -/
def createQueryPartitions
    (I : Inference L) (t : BatchTransaction) (request : RequestObject L) :
    Option (RequestObject L) :=
  (Request.createQueryPartitions I request.query).map fun query =>
    t.createPartitions_ { request with query := query }

/-- `createReadPartitions`; `none` if it throws. -/
def createReadPartitions
    (B : Bytes L) (t : BatchTransaction) (options : RequestObject L) :
    Option (RequestObject L) :=
  (encodeKeySet B options.keys).map fun keySet =>
    t.createPartitions_ { options with keys := { keySet := some keySet } }

/-- The id of the transaction selector of a query or read; without one the selector
is `singleUse`. -/
def selector
    (t : BatchTransaction) : Option BytesField :=
  t.id.filter BytesField.truthy

/-- `createReadStream`: its request. -/
def createReadStream
    (B : Bytes L) (t : BatchTransaction) (table : String)
    (request : RequestObject L) : Option (RequestObject L) :=
  (encodeKeySet B request.keys).map fun keySet =>
    { request with
      keys := { keySet := some keySet }
      session := t.session.formattedName_
      transaction := t.selector
      table := some table }

/-- `runStream`: its request. -/
def runStream
    (I : Inference L) (t : BatchTransaction) (query : RequestObject L) :
    Option (RequestObject L) :=
  (sanitizeRequest I query.query).map fun prepared =>
    { query with
      query := prepared
      session := t.session.formattedName_
      transaction := t.selector }

/-- `execute` and `executeStream`: the request of a partition. -/
def execute
    (I : Inference L) (B : Bytes L) (t : BatchTransaction)
    (partition : RequestObject L) : Option (RequestObject L) :=
  match partition.table with
  | some table => t.createReadStream B table partition
  | none => t.runStream I partition

end BatchTransaction

/-! ## The transaction in other hands -/

namespace BatchTransaction

variable {L : Leaves}
variable {I : Inference L} {B : Bytes L}
variable {databaseName name : String} {id : List UInt8}
variable {t w : BatchTransaction}

/-- The transaction, also after replies that repeat its id, and those that have been
rebuilt from its identifier, in whatever process and from hand to hand. -/
inductive HandedOver
    (databaseName : String) (t : BatchTransaction) (id : List UInt8) :
    BatchTransaction → Prop
  | self : HandedOver databaseName t id t
  | replied {w : BatchTransaction} (readTimestamp : Option Timestamp)
      (h : HandedOver databaseName t id w) :
      HandedOver databaseName t id (w.update id readTimestamp)
  | rebuilt {w : BatchTransaction} (identifier : TransactionIdentifier)
      (h : HandedOver databaseName t id w)
      (hidentifier : w.identifier = some identifier) :
      HandedOver databaseName t id (batchTransaction databaseName identifier)

/-- A transaction of a session of the database that has been begun. -/
structure Begun
    (databaseName name : String) (id : List UInt8) (w : BatchTransaction) :
    Prop where
  ne_nil : id ≠ []
  session : w.session = Batch.session databaseName name
  id : ∃ field, w.id = some field ∧ field.sent = some id

/-- An id that is not empty counts as one. -/
theorem truthy_of_sent
    {field : BytesField}
    (h : field.sent = some id)
    (hid : id ≠ []) :
    field.truthy = true := by
  cases field with
  | buffer bytes => rfl
  | text s =>
      have hs : s ≠ "" := by
        rintro rfl
        have hempty : (BytesField.text "").sent = some [] :=
          unbase64_base64 []
        exact hid (Option.some.inj (h.symm.trans hempty))
      simpa [BytesField.truthy] using hs

theorem Begun.selector
    (h : Begun databaseName name id w) :
    w.selector = w.id := by
  obtain ⟨field, hfield, hsent⟩ := h.id
  simp [BatchTransaction.selector, hfield, truthy_of_sent hsent h.ne_nil]

/-- The text of an id is sent as the same bytes. -/
theorem sent_toBase64
    {field : BytesField}
    (h : field.sent = some id) :
    (BytesField.text field.toBase64).sent = some id := by
  cases field with
  | buffer bytes =>
      obtain rfl := Option.some.inj h
      exact unbase64_base64 bytes
  | text s => exact h

/-- Whoever has the transaction names the same session and the same id. -/
theorem HandedOver.begun
    (h : HandedOver databaseName t id w)
    (ht : Begun databaseName name id t) :
    Begun databaseName name id w := by
  induction h with
  | self => exact ht
  | @replied w readTimestamp h ih =>
      exact ⟨ih.ne_nil, ih.session, .buffer id, rfl, rfl⟩
  | @rebuilt w identifier h hidentifier ih =>
      obtain ⟨field, hfield, hsent⟩ := ih.id
      obtain ⟨field', hfield', rfl⟩ := Option.map_eq_some_iff.mp hidentifier
      obtain rfl := Option.some.inj (hfield.symm.trans hfield')
      refine ⟨ih.ne_nil, ?_, _, rfl, sent_toBase64 hsent⟩
      exact congrArg (fun s => Batch.session databaseName s.id) ih.session

/-- A key set that has been encoded is encoded as it is. -/
theorem encodeKeySet_again
    {request : ReadRequest L} {keySet : KeySet L.Number}
    (h : encodeKeySet B request = some keySet) :
    encodeKeySet B { keySet := some keySet } = some keySet := by
  obtain ⟨added, -, hrest⟩ := Option.bind_eq_some_iff.mp h
  obtain ⟨ranged, -, rfl⟩ := Option.map_eq_some_iff.mp hrest
  have hfull : ranged.orAll.isEmpty = false := by
    rw [KeySet.orAll]
    split
    · simp [KeySet.isEmpty]
    · rename_i hnot
      simpa using hnot
  simp only [encodeKeySet, KeySet.addKeys, KeySet.addRanges, Option.getD_some,
    Option.bind_some, Option.map_some]
  rw [KeySet.orAll, if_neg (by simp [hfull])]

/-- A query that has been encoded is encoded as it is. -/
theorem sanitizeRequest_partition
    {request prepared : ExecuteSqlRequest L}
    (h : Request.createQueryPartitions I request = some prepared) :
    sanitizeRequest I prepared = some prepared := by
  obtain ⟨fields, -, rfl⟩ := Option.map_eq_some_iff.mp h
  rfl

/-- A request of the transaction is sent with its session and its id. -/
theorem sent_of_begun
    (hw : Begun databaseName name id w)
    {request : RequestObject L}
    (hsession : request.session = w.session.formattedName_)
    (htransaction : request.transaction = w.id) :
    request.sent =
      some
        { session := (Batch.session databaseName name).formattedName_
          transaction := some id
          sql := request.sql
          table := request.table
          index := request.index
          columns := request.columns
          params := request.query.params
          paramTypes := request.query.paramTypes
          keySet := request.keys.keySet
          partitionToken := request.partitionToken } := by
  obtain ⟨field, hfield, hsent⟩ := hw.id
  rw [RequestObject.sent, hsession, htransaction, hfield, hw.session]
  simp [hsent]

/-- The query or the read has been partitioned. -/
inductive Created
    (I : Inference L) (B : Bytes L) (t : BatchTransaction)
    (request query : RequestObject L) : Prop
  | query (htable : request.table = none)
      (h : t.createQueryPartitions I request = some query)
  | read (table : String) (htable : request.table = some table)
      (h : t.createReadPartitions B request = some query)

/-- Whoever has the transaction executes a partition with the request that has
created it, and the token of the partition. -/
theorem execute_partition
    {request query : RequestObject L}
    (ht : Begun databaseName name id t)
    (hw : Begun databaseName name id w)
    (hquery : Created I B t request query) :
    ∃ sent, query.sent = some sent ∧
      ∀ token,
        (w.execute I B { query with partitionToken := some token }).bind
            RequestObject.sent =
          some { sent with partitionToken := some token } := by
  cases hquery with
  | query htable h =>
      obtain ⟨prepared, hprepared, rfl⟩ := Option.map_eq_some_iff.mp h
      refine ⟨_, sent_of_begun ht rfl rfl, fun token => ?_⟩
      have hagain := sanitizeRequest_partition hprepared
      simp only [execute, createPartitions_, htable, runStream, hagain,
        Option.map_some, Option.bind_some]
      exact sent_of_begun hw rfl hw.selector
  | read table htable h =>
      obtain ⟨keySet, hkeySet, rfl⟩ := Option.map_eq_some_iff.mp h
      refine ⟨_, sent_of_begun ht rfl rfl, fun token => ?_⟩
      have hagain := encodeKeySet_again hkeySet
      simp only [execute, createPartitions_, htable, createReadStream, hagain,
        Option.map_some, Option.bind_some]
      exact sent_of_begun hw rfl hw.selector

/-- A server: what it makes of a statement and of the subsets that its tokens name.
It executes a partition if the request matches the one that has created it. -/
structure Server (L : Leaves) (ρ : Type) where
  rows : Sent L → List ρ
  tokens : Sent L → List (List UInt8)
  subset : Sent L → List UInt8 → List ρ
  complete :
    ∀ request,
      ((tokens request).flatMap (subset request)).Perm (rows request)
  execute : Sent L → Option (List ρ)
  accepts :
    ∀ request, ∀ token ∈ tokens request,
      execute { request with partitionToken := some token } =
        some (subset request token)

/-- The rows of a partition that is executed by one of those who have the
transaction. -/
def Server.rowsOf
    {ρ : Type}
    (server : Server L ρ) (I : Inference L) (B : Bytes L)
    (worker : List UInt8 → BatchTransaction) (partition : RequestObject L) :
    Option (List ρ) :=
  partition.partitionToken.bind fun token =>
    (((worker token).execute I B partition).bind RequestObject.sent).bind
      server.execute

/-- The partitions of a query or a read can be executed by anyone who has the
transaction or has rebuilt it from its identifier: all of them are accepted, and
their rows are those of the query or read. -/
theorem partitions_cover
    {ρ : Type} {server : Server L ρ}
    {request query : RequestObject L}
    {worker : List UInt8 → BatchTransaction}
    (ht : Begun databaseName name id t)
    (hquery : Created I B t request query)
    (hworker : ∀ token, HandedOver databaseName t id (worker token)) :
    ∃ sent, query.sent = some sent ∧
      ∀ resp : PartitionResponse, resp.partitions = server.tokens sent →
        ∃ results,
          (t.onPartitions query resp).2.mapM (server.rowsOf I B worker) =
              some results ∧
            results.flatten.Perm (server.rows sent) := by
  obtain ⟨sent, hsent, -⟩ := execute_partition ht ht hquery
  refine ⟨sent, hsent, fun resp hresp => ?_⟩
  have hrows :
      ∀ token ∈ server.tokens sent,
        ∃ rows,
          server.rowsOf I B worker
                { query with partitionToken := some token } =
              some rows ∧
            server.subset sent token = rows := by
    intro token htoken
    refine ⟨_, ?_, rfl⟩
    obtain ⟨sent', hsent', hexecute⟩ :=
      execute_partition ht ((hworker token).begun ht) hquery
    obtain rfl := Option.some.inj (hsent.symm.trans hsent')
    rw [Server.rowsOf, Option.bind_some, hexecute token, Option.bind_some]
    exact server.accepts sent token htoken
  obtain ⟨results, hresults, hsubsets⟩ := exists_mapM_iff.mpr hrows
  refine ⟨results, ?_, ?_⟩
  · rw [onPartitions, hresp, List.mapM_map]
    exact hresults
  · rw [← List.forall₂_map_left_iff, List.forall₂_eq_eq_eq] at hsubsets
    rw [← hsubsets, ← List.flatMap_def]
    exact server.complete sent

/-- A server that divides three albums into two parts. -/
def albumServer : Server byteLeaves Nat where
  rows := fun _ => [1, 2, 3]
  tokens := fun _ => [[1], [2]]
  subset := fun _ token => if token = [1] then [3] else [1, 2]
  complete := fun _ => by decide
  execute := fun sent =>
    sent.partitionToken.map fun token =>
      if token = [1] then [3] else [1, 2]
  accepts := fun _ _ _ => rfl

def byteInference : Inference byteLeaves where
  isSpecialNumber := fun _ => false
  uuidAsUntyped := false
  validate := fun _ => false

/-- The transaction that `createBatchTransaction` has begun. -/
def albumTransaction : BatchTransaction :=
  (batchTransaction "music"
    { session := .object (Batch.session "music" "music/sessions/s1") }).update
      [7, 200, 31] (some ⟨5, 0⟩)

/-- The read of the albums, from one title on. -/
def albumPartition : RequestObject byteLeaves :=
  albumTransaction.createPartitions_
    { table := some "Albums"
      columns := ["Title"]
      keys :=
        { keySet :=
            some
              { ranges := some [[("startClosed", [.stringValue "Home"])]] } } }

/-- The transaction that a worker has rebuilt. -/
def albumWorker : BatchTransaction :=
  batchTransaction "music"
    { session := .name "music/sessions/s1"
      transaction := some (base64 [7, 200, 31])
      timestamp := some ⟨5, 0⟩ }

theorem partitions_cover_albums :
    ∃ sent, albumPartition.sent = some sent ∧
      ∀ resp : PartitionResponse, resp.partitions = albumServer.tokens sent →
        ∃ results,
          (albumTransaction.onPartitions albumPartition resp).2.mapM
                (albumServer.rowsOf byteInference byteBuffers
                  fun _ => albumWorker) =
              some results ∧
            results.flatten.Perm (albumServer.rows sent) := by
  have hbegun :
      Begun "music" "music/sessions/s1" [7, 200, 31] albumTransaction :=
    ⟨by simp, rfl, _, rfl, rfl⟩
  have hcreated :
      Created byteInference byteBuffers albumTransaction
        { table := some "Albums", columns := ["Title"], keys := albumRequest }
        albumPartition :=
    .read "Albums" rfl rfl
  have hworker :
      HandedOver "music" albumTransaction [7, 200, 31] albumWorker :=
    .rebuilt _ .self rfl
  exact partitions_cover hbegun hcreated fun _ => hworker

end BatchTransaction

end Batch
end SpannerClient
