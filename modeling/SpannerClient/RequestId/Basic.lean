import SpannerClient.Machine.Decimal
import SpannerClient.Machine.Run

/-!
# Request ids

The header `x-goog-spanner-request-id` is put together from a number of the
process, the number of the client, that of the channel, the number of the request
and that of the attempt (`craftRequestId`).  Clients are counted in the process and
requests in their `Database` object, by counters of 32 bits (`AtomicCounter`).  A
call of the database itself takes the number of the client from `_clientId`; a call
through a session looks for `_nthClientId` and `_channelId` on the parent of the
session, which is the `Database` too.

What happens inside the gRPC client is not an attempt here: it sends the headers
it has been given.
-/

namespace SpannerClient
namespace RequestId

open Machine

/-- `AtomicCounter`, by the sum of its increments; its buffer has 32 bits. -/
structure AtomicCounter where
  added : Nat := 0
deriving DecidableEq

def AtomicCounter.value
    (c : AtomicCounter) : Nat :=
  c.added % 2 ^ 32

def AtomicCounter.increment
    (c : AtomicCounter) (n : Nat) : AtomicCounter :=
  ⟨c.added + if n = 0 then 1 else n⟩

/-- `x || 1`. -/
def orOne : Option Nat → Nat
  | none => 1
  | some n => if n = 0 then 1 else n

/-- The value of `attempt` after it has been incremented `n` times. -/
def attemptNumber
    (n : Nat) : Nat :=
  min n (2 ^ 53)

/-- `randIdForProcess`, from the random number. -/
def randIdForProcess
    (n : UInt32) : List Char :=
  (Nat.toDigits 16 n.toNat).leftpad 8 '0'

def REQUEST_HEADER_VERSION : Nat := 1

def craftRequestId
    (rand : List Char) (nthClientId channelId nthRequest attempt : Nat) :
    String :=
  String.ofList
    (['.'].intercalate
      [Nat.toDigits 10 REQUEST_HEADER_VERSION, rand,
        Nat.toDigits 10 nthClientId, Nat.toDigits 10 channelId,
        Nat.toDigits 10 nthRequest, Nat.toDigits 10 attempt])

/-- A `Database` object; `spanner` is the number of its client. -/
structure Database where
  spanner : Nat
  clientId : Nat
  nthRequest : AtomicCounter := {}
deriving DecidableEq

/-- The properties of a `Database` that hold numbers, by their names. -/
def Database.property
    (database : Database) : String → Option Nat
  | "_clientId" => some database.clientId
  | _ => none

/-- `_nextNthRequest`. -/
def Database.nextNthRequest
    (database : Database) : AtomicCounter × Database :=
  let nthRequest := database.nthRequest.increment 0
  (nthRequest, { database with nthRequest := nthRequest })

/-- `Database._metadataWithRequestId`. -/
def Database.metadataWithRequestId
    (rand : List Char) (database : Database)
    (nthRequest attempt : Nat) : String :=
  craftRequestId rand (orOne (some database.clientId)) 1 nthRequest attempt

/-- `_metadataWithRequestId` of a session of the database. -/
def metadataWithRequestId
    (rand : List Char) (database : Database)
    (nthRequest attempt : Nat) : String :=
  craftRequestId rand (orOne (database.property "_nthClientId"))
    (orOne (database.property "_channelId")) nthRequest attempt

/-- The number of the request in `injectRequestIDIntoHeaders`. -/
def injectedNthRequest
    (database : Database) (nthRequest : Option AtomicCounter) :
    AtomicCounter × Database :=
  match nthRequest with
  | none => database.nextNthRequest
  | some nthRequest =>
      if nthRequest.value = 0 then database.nextNthRequest
      else (nthRequest, database)

/-- A request header that has been sent, and what it stands for. -/
structure Sent where
  database : Nat
  request : Nat
  /-- How many attempts of the request have been made with this one. -/
  attempt : Nat
  /-- The header is of `Database._metadataWithRequestId`. -/
  ofDatabase : Bool
  spanner : Nat
  /-- The number of the request, before it is cut to 32 bits. -/
  nthRequest : AtomicCounter
  header : String
deriving DecidableEq

/-- A call that sends requests; a stream may send more than one. -/
structure Request where
  database : Nat
  nthRequest : AtomicCounter
  isStream : Bool
  attempt : Nat
deriving DecidableEq

structure Process where
  /-- The random number of the process. -/
  random : UInt32
  nthClientId : AtomicCounter := {}
  /-- The clients, by their `_nthClientId`. -/
  spanners : List Nat := []
  databases : List Database := []
  requests : List Request := []
  sent : List Sent := []

/-- The ways to a request id. -/
inductive Method where
  /-- `batchCreateSessions`, `createSession` and `getSessions`. -/
  | database
  /-- `delete` and `keepAlive` of a session, `batchUpdate` and `commit`. -/
  | session
  /-- `begin`. -/
  | begin
  /-- `createQueryPartitions` and `createReadPartitions`. -/
  | partition
  /-- `getMetadata` of a session. -/
  | getMetadata
  /-- `runStream` and `createReadStream`. -/
  | stream
deriving DecidableEq

namespace Process

def rand
    (p : Process) : List Char :=
  randIdForProcess p.random

/-- The constructor of `Spanner`. -/
def newSpanner
    (p : Process) : Process :=
  let nthClientId := p.nthClientId.increment 1
  { p with
    nthClientId := nthClientId
    spanners := p.spanners ++ [nthClientId.value] }

/-- The constructor of `Database`. -/
def newDatabase
    (p : Process) (spanner nthClientId : Nat) : Process :=
  { p with
    databases :=
      p.databases ++ [{ spanner := spanner, clientId := nthClientId }] }

/-- A call is made and, if it is no stream, its header sent. -/
def record
    (p : Process) (i : Nat) (database : Database) (request : Request)
    (sent : List Sent) : Process :=
  { p with
    databases := p.databases.set i database
    requests := p.requests ++ [request]
    sent := p.sent ++ sent }

/-- A header that is sent through a session. -/
def sessionHeader
    (p : Process) (i request attempt : Nat) (database : Database)
    (nthRequest : AtomicCounter) : Sent where
  database := i
  request := request
  attempt := attempt
  ofDatabase := false
  spanner := database.spanner
  nthRequest := nthRequest
  header :=
    metadataWithRequestId p.rand database nthRequest.value
      (attemptNumber attempt)

/-- A header that is sent by the database itself. -/
def databaseHeader
    (p : Process) (i request : Nat) (database : Database)
    (nthRequest : AtomicCounter) : Sent where
  database := i
  request := request
  attempt := 1
  ofDatabase := true
  spanner := database.spanner
  nthRequest := nthRequest
  header :=
    database.metadataWithRequestId p.rand nthRequest.value (attemptNumber 1)

/-- A call is made. -/
def call
    (p : Process) (i : Nat) (database : Database) : Method → Process
  | .database =>
      let (nthRequest, database) := database.nextNthRequest
      p.record i database ⟨i, nthRequest, false, 1⟩
        [p.databaseHeader i p.requests.length database nthRequest]
  | .session =>
      let (nthRequest, database) := database.nextNthRequest
      let (nthRequest, database) :=
        injectedNthRequest database (some nthRequest)
      p.record i database ⟨i, nthRequest, false, 1⟩
        [p.sessionHeader i p.requests.length 1 database nthRequest]
  | .begin =>
      let (nthRequest, database) := injectedNthRequest database none
      p.record i database ⟨i, nthRequest, false, 1⟩
        [p.sessionHeader i p.requests.length 1 database nthRequest]
  | .partition =>
      -- the first header is replaced in `createPartitions_`
      let (_, database) := injectedNthRequest database none
      let (nthRequest, database) := injectedNthRequest database none
      p.record i database ⟨i, nthRequest, false, 1⟩
        [p.sessionHeader i p.requests.length 1 database nthRequest]
  | .getMetadata =>
      -- a session has no property `session`
      let (nthRequest, database) := database.nextNthRequest
      p.record i database ⟨i, nthRequest, false, 1⟩ []
  | .stream =>
      let (nthRequest, database) := database.nextNthRequest
      p.record i database ⟨i, nthRequest, true, 0⟩ []

/-- `makeRequest` of a stream. -/
def makeRequest
    (p : Process) (k : Nat) (request : Request) (database : Database) :
    Process :=
  let attempt := request.attempt + 1
  let (nthRequest, database) :=
    injectedNthRequest database (some request.nthRequest)
  { p with
    databases := p.databases.set request.database database
    requests := p.requests.set k { request with attempt := attempt }
    sent :=
      p.sent ++ [p.sessionHeader request.database k attempt database nthRequest] }

end Process

inductive Event where
  | newSpanner
  | newDatabase (spanner : Nat)
  | call (database : Nat) (method : Method)
  /-- The stream sends its request, for the first time or again. -/
  | makeRequest (request : Nat)
deriving DecidableEq

/-- One event. -/
def step
    (p : Process) : Event → Option Process
  | .newSpanner => some p.newSpanner
  | .newDatabase spanner =>
      p.spanners[spanner]?.map fun nthClientId =>
        p.newDatabase spanner nthClientId
  | .call i method =>
      p.databases[i]?.map fun database => p.call i database method
  | .makeRequest k =>
      match p.requests[k]? with
      | none => none
      | some request =>
          if request.isStream then
            p.databases[request.database]?.map fun database =>
              p.makeRequest k request database
          else
            none

end RequestId
end SpannerClient
