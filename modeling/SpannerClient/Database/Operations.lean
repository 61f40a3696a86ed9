import Mathlib.Data.List.Basic
import SpannerClient.ServiceError

/-!
# Operations that use a session

Every operation of `Database` obtains a session from the session factory, makes
its requests on it, and has to give it back.  An operation is the record of its
callbacks: the one of `getSession`, the one of the `BeginTransaction` request if
it sends one, and the one of the rest (the end or the error of a stream, the
callback of a request, the outcome of a transaction runner).

An operation that calls itself again because its session was not found goes on
as the same call with another session.

The operations of the source are values of `Operation`, each under its name, and
`Method` lists them; `step` is the next event of a call.  A session that has been
obtained is kept with the transaction made on it (`Lease`): it is released at once
or when that transaction ends, and the multiplexed session not at all.
-/

namespace SpannerClient
namespace Database

/-- The flags of `SessionFactory`. -/
structure SessionFactory where
  isMultiplexed : Bool
  isMultiplexedPartitionOps : Bool
  isMultiplexedRW : Bool

namespace SessionFactory

/-- Whether `getSession` hands out the multiplexed session. -/
def getSession
    (factory : SessionFactory) : Bool :=
  factory.isMultiplexed

def getSessionForPartitionedOps
    (factory : SessionFactory) : Bool :=
  if factory.isMultiplexedPartitionOps then factory.getSession else false

def getSessionForReadWrite
    (factory : SessionFactory) : Bool :=
  if factory.isMultiplexedRW then factory.getSession else false

def isMultiplexedEnabled
    (factory : SessionFactory) : Bool :=
  factory.isMultiplexed

end SessionFactory

/-- A session that an operation has obtained, with the snapshot or transaction
that the operation has made on it. -/
structure Lease (σ : Type) where
  session : σ
  multiplexed : Bool
  /-- `_releaseOnEnd` listens for the event 'end' of the transaction. -/
  listening : Bool := false
  /-- `transaction.ended`. -/
  ended : Bool := false
  /-- The event 'end' has been scheduled. -/
  emitting : Bool := false
  /-- How often the pool has been given the session back. -/
  releases : Nat := 0
deriving DecidableEq

variable {σ : Type}

namespace Lease

/-- `sessionFactory_.release`. -/
def release
    (l : Lease σ) : Lease σ :=
  if l.multiplexed then l else { l with releases := l.releases + 1 }

/-- `_releaseOnEnd`. -/
def releaseOnEnd
    (l : Lease σ) : Lease σ :=
  { l with listening := true }

/-- `transaction.end()`. -/
def endTransaction
    (l : Lease σ) : Lease σ :=
  if l.ended then
    l
  else
    { l with
      ended := true
      emitting := true }

/-- The event 'end' is emitted; its listener is called once. -/
def emitEnd
    (l : Lease σ) : Lease σ :=
  if l.listening then
    { l.release with
      listening := false
      emitting := false }
  else
    { l with emitting := false }

end Lease

/-- Where a call is. -/
inductive Stage where
  /-- It waits for the callback of `getSession`. -/
  | gettingSession
  /-- Its `BeginTransaction` request is in flight. -/
  | beginning
  /-- Its stream, request or runner is running. -/
  | running
  /-- The caller has got the snapshot or transaction. -/
  | returned
  /-- The error has been reported. -/
  | failed (error : ServiceError)
  | ended
deriving DecidableEq

/-- A call of an operation; the sessions it has obtained, the last one first. -/
structure Call (σ : Type) where
  stage : Stage := .gettingSession
  dataReceived : Bool := false
  /-- The variable `session` of `makePooledStreamingRequest_` is set. -/
  holding : Bool := false
  leases : List (Lease σ) := []
deriving DecidableEq

namespace Call

/-- The call has obtained a session. -/
def obtain
    (c : Call σ) (stage : Stage) (l : Lease σ) : Call σ :=
  { c with
    stage := stage
    holding := true
    leases := l :: c.leases }

/-- The call goes on, its last session changed by `f`. -/
def next
    (c : Call σ) (stage : Stage) (f : Lease σ → Lease σ) : Call σ :=
  { c with
    stage := stage
    leases := c.leases.modifyHead f }

/-- The operation is called again. -/
def again
    (c : Call σ) (f : Lease σ → Lease σ) : Call σ :=
  { c.next .gettingSession f with dataReceived := false }

/-- The error of `getSession` is reported. -/
def fail
    (c : Call σ) (error : ServiceError) : Call σ :=
  { c with stage := .failed error }

/-- `releaseSession` of `makePooledStreamingRequest_`. -/
def releaseSession
    (c : Call σ) : Call σ :=
  if c.holding then
    { c.next c.stage Lease.release with holding := false }
  else
    c

end Call

/-- What is reported of the last request. -/
def settled : Option ServiceError → Stage
  | none => .ended
  | some error => .failed error

/-- The callbacks of an operation. -/
structure Operation (σ : Type) where
  /-- Its sessions are multiplexed. -/
  multiplexed : Bool
  onSession : Call σ → σ → Call σ
  onSessionError : Call σ → ServiceError → Call σ := Call.fail
  onBegin : Call σ → Option ServiceError → Call σ := fun c _ => c
  onSettled : Call σ → Option ServiceError → Call σ := fun c _ => c

def createBatchTransaction
    (factory : SessionFactory) : Operation σ where
  multiplexed := factory.getSession
  onSession c session :=
    c.obtain .beginning
      { session := session
        multiplexed := factory.getSession
        listening := true }
  onBegin c
    | some error => c.next (.failed error) id
    | none => c.next .returned id

def getSnapshot
    (factory : SessionFactory) : Operation σ where
  multiplexed := factory.getSession
  onSession c session :=
    c.obtain .beginning
      { session := session
        multiplexed := factory.getSession }
  onBegin c
    | some error =>
        if isSessionNotFoundError (some error) &&
            !factory.isMultiplexedEnabled then
          c.again Lease.release
        else
          c.next (.failed error) Lease.release
    | none => c.next .returned Lease.releaseOnEnd

def getTransaction
    (factory : SessionFactory) : Operation σ where
  multiplexed := factory.getSessionForReadWrite
  onSession c session :=
    c.obtain .returned
      { session := session
        multiplexed := factory.getSessionForReadWrite
        listening := true }

def makePooledRequest
    (factory : SessionFactory) : Operation σ where
  multiplexed := factory.getSessionForReadWrite
  onSession c session :=
    c.obtain .running
      { session := session
        multiplexed := factory.getSessionForReadWrite }
  onSettled c err := c.next (settled err) Lease.release

/-- The stream is called for on its first read. -/
def makePooledStreamingRequest
    (factory : SessionFactory) : Operation σ where
  multiplexed := factory.getSession
  onSession c session :=
    c.obtain .running
      { session := session
        multiplexed := factory.getSession }
  onSettled c err := { c.releaseSession with stage := settled err }

def runPartitionedUpdate
    (factory : SessionFactory) : Operation σ where
  multiplexed := factory.getSessionForPartitionedOps
  onSession c session :=
    c.obtain .beginning
      { session := session
        multiplexed := factory.getSessionForPartitionedOps }
  onBegin c
    | some error => c.next (.failed error) Lease.release
    | none => c.next .running id
  onSettled c
    | some error =>
        if error.code != some .ABORTED then
          c.next (.failed error) Lease.release
        else
          -- `_runPartitionedUpdate` is called again on the session.
          c.next .beginning id
    | none => c.next .ended Lease.release

def runStream
    (factory : SessionFactory) : Operation σ where
  multiplexed := factory.getSession
  onSession c session :=
    c.obtain .running
      { session := session
        multiplexed := factory.getSession
        listening := true }
  onSettled c
    | some error =>
        if !c.dataReceived && isSessionNotFoundError (some error) &&
            !factory.isMultiplexedEnabled then
          c.again Lease.endTransaction
        else
          c.next (.failed error) Lease.endTransaction
    | none => c.next .ended Lease.endTransaction

/-- `run` reads the stream of `runStream`. -/
def run
    (factory : SessionFactory) : Operation σ :=
  runStream factory

/-- The runner settles whatever its attempts have met with. -/
def runTransaction
    (factory : SessionFactory) : Operation σ where
  multiplexed := factory.getSessionForReadWrite
  onSession c session :=
    c.obtain .running
      { session := session
        multiplexed := factory.getSessionForReadWrite }
  onSessionError c error :=
    if isSessionNotFoundError (some error) then
      c.again id
    else
      c.fail error
  onSettled c
    | some error =>
        if isSessionNotFoundError (some error) then
          c.again Lease.release
        else
          c.next (.failed error) Lease.release
    | none => c.next .ended Lease.release

/-- The loop of `runTransactionAsync` does what `runTransaction` does by calling
itself. -/
def runTransactionAsync
    (factory : SessionFactory) : Operation σ :=
  runTransaction factory

/-- `commit` ends the transaction before it calls back. -/
def writeAtLeastOnce
    (factory : SessionFactory) : Operation σ where
  multiplexed := factory.getSession
  onSession c session :=
    c.obtain .running
      { session := session
        multiplexed := factory.getSession
        listening := true }
  onSessionError c error :=
    if isSessionNotFoundError (some error) &&
        !factory.isMultiplexedEnabled then
      c.again id
    else
      c.fail error
  onSettled c err := c.next (settled err) Lease.endTransaction

def batchWriteAtLeastOnce
    (factory : SessionFactory) : Operation σ where
  multiplexed := factory.getSessionForReadWrite
  onSession c session :=
    c.obtain .running
      { session := session
        multiplexed := factory.getSessionForReadWrite }
  onSettled c
    | some error =>
        if !c.dataReceived && isSessionNotFoundError (some error) then
          c.again id
        else
          c.next (.failed error) id
    | none => c.next .ended Lease.release

/-- The operations that obtain a session. -/
inductive Method where
  | createBatchTransaction
  | getSnapshot
  | getTransaction
  | makePooledRequest
  | makePooledStreamingRequest
  | run
  | runPartitionedUpdate
  | runStream
  | runTransaction
  | runTransactionAsync
  | writeAtLeastOnce
  | batchWriteAtLeastOnce
deriving DecidableEq

def Method.operation
    (factory : SessionFactory) : Method → Operation σ
  | .createBatchTransaction => Database.createBatchTransaction factory
  | .getSnapshot => Database.getSnapshot factory
  | .getTransaction => Database.getTransaction factory
  | .makePooledRequest => Database.makePooledRequest factory
  | .makePooledStreamingRequest =>
      Database.makePooledStreamingRequest factory
  | .run => Database.run factory
  | .runPartitionedUpdate => Database.runPartitionedUpdate factory
  | .runStream => Database.runStream factory
  | .runTransaction => Database.runTransaction factory
  | .runTransactionAsync => Database.runTransactionAsync factory
  | .writeAtLeastOnce => Database.writeAtLeastOnce factory
  | .batchWriteAtLeastOnce => Database.batchWriteAtLeastOnce factory

/-- What happens to a call. -/
inductive Event (σ : Type) where
  /-- The callback of `getSession`. -/
  | session (result : Except ServiceError σ)
  /-- The callback of the `BeginTransaction` request. -/
  | begin (err : Option ServiceError)
  /-- The first row or response of a stream. -/
  | data
  /-- The outcome of the stream, request or runner. -/
  | settled (err : Option ServiceError)
  /-- The caller ends the snapshot or transaction it has got. -/
  | endTransaction
  /-- The caller aborts the stream of `makePooledStreamingRequest_`. -/
  | abort
  /-- The scheduled event 'end' of a transaction is emitted. -/
  | emitEnd (i : Nat)
deriving DecidableEq

/-- One event of a call. -/
def step
    (factory : SessionFactory) (method : Method) (c : Call σ) :
    Event σ → Option (Call σ)
  | .session result =>
      if c.stage = .gettingSession then
        match result with
        | .ok session =>
            some ((method.operation factory).onSession c session)
        | .error error =>
            some ((method.operation factory).onSessionError c error)
      else
        none
  | .begin err =>
      if c.stage = .beginning then
        some ((method.operation factory).onBegin c err)
      else
        none
  | .data =>
      if c.stage = .running then
        some { c with dataReceived := true }
      else
        none
  | .settled err =>
      if c.stage = .running then
        some ((method.operation factory).onSettled c err)
      else
        none
  | .endTransaction =>
      if c.stage = .returned then
        some (c.next .returned Lease.endTransaction)
      else
        none
  | .abort =>
      if method = .makePooledStreamingRequest then
        some c.releaseSession
      else
        none
  | .emitEnd i =>
      match c.leases[i]? with
      | none => none
      | some l =>
          if l.emitting then
            some { c with leases := c.leases.set i l.emitEnd }
          else
            none

end Database
end SpannerClient
