import Mathlib.Data.List.Basic
import SpannerClient.ServiceError

/-!
# The transaction object

The state of a `Transaction` (or `Snapshot`) and what its methods do to it up to
their next suspension point.  A call of `runStream`, `createReadStream` or
`batchUpdate` is a `Statement` of the transaction, named by its position in
`statements`; the requests it sends are recorded in `requests`, in order.

A stream is created by the call and sends its first request when it is first
read.  Whether it sends it itself or waits for the transaction id is decided by
`wrapWithIdWaiter` at the call.

A request is recorded with its transaction selector (`Selector`), the sequence number
and the resume token.  `requestFn` sends or queues the request of a statement,
`update` and `releaseWaitingRequests` are what happens when an id becomes known, and
`onError` is the error handler of a stream, which may call `begin`.
-/

namespace SpannerClient

/-- Transaction ids are only compared and passed on. -/
abbrev TransactionId := Nat

abbrev ResumeToken := List UInt8

structure PrecommitToken where
  precommitToken : List UInt8
  seqNum : Int
deriving DecidableEq

/-- The member of `_options` that is set. -/
inductive TransactionMode where
  | readWrite
  | readOnly
  | partitionedDml
deriving DecidableEq

/-- The selector of a request; `previous` is
`multiplexedSessionPreviousTransactionId`. -/
inductive Selector where
  | id (id : TransactionId)
  | begin (previous : Option TransactionId)
  | singleUse
deriving DecidableEq

def Selector.isBegin : Selector → Bool
  | .begin _ => true
  | _ => false

/-- `transaction.id`. -/
def Selector.id? : Selector → Option TransactionId
  | .id t => some t
  | _ => none

/-- The call a statement comes from. -/
inductive StatementKind where
  | runStream
  | createReadStream
  | batchUpdate
deriving DecidableEq

/-- The part of a request that the transaction fills in; reads have no
`seqno`. -/
structure ReqOpts where
  transaction : Selector
  seqno : Option Nat
deriving DecidableEq

/-- Where the request stream of a statement is. -/
inductive StreamPhase where
  /-- The stream has not been read yet. -/
  | created
  /-- The stream of `requestFn` is running. -/
  | requested
  /-- The request waits for the transaction id. -/
  | queued
  /-- The request has failed and is about to be sent again. -/
  | retrying
  /-- The stream has ended or failed. -/
  | done
deriving DecidableEq

structure Statement where
  kind : StatementKind
  /-- `encodeParams` accepts the query. -/
  valid : Bool
  /-- `wrapWithIdWaiter` has returned the queueing function. -/
  wrapped : Bool
  reqOpts : Option ReqOpts
  phase : StreamPhase
deriving DecidableEq

def Statement.moveTo
    (s : Statement) (phase : StreamPhase) : Statement :=
  { s with phase := phase }

/-- The statement is a stream whose request is running. -/
def Statement.running
    (s : Statement) : Bool :=
  s.kind != .batchUpdate && s.phase == .requested && s.reqOpts.isSome

/-- A request, with the transaction id known when it was sent. -/
structure Request where
  call : Nat
  resumeToken : Option ResumeToken
  reqOpts : ReqOpts
  known : Option TransactionId
deriving DecidableEq

/-- The request carries an inline begin. -/
def Request.isBegin
    (r : Request) : Bool :=
  r.reqOpts.transaction.isBegin

structure Transaction where
  mode : TransactionMode
  isMuxEnabledForRW : Bool := false
  multiplexedSessionPreviousTransactionId : Option TransactionId := none
  useInRunner : Bool := false
  id : Option TransactionId := none
  seqno : Nat := 1
  waitingRequests : List (Nat × Option ResumeToken) := []
  inlineBeginStarted : Bool := false
  latestPreCommitToken : Option PrecommitToken := none
  statements : List Statement := []
  /-- The number of `BeginTransaction` requests in flight. -/
  begins : Nat := 0
  /-- Every `ExecuteStreamingSql`, `StreamingRead` and `ExecuteBatchDml` request
  sent. -/
  requests : List Request := []
  /-- Some request carrying an inline begin has failed. -/
  beginFailed : Bool := false
deriving DecidableEq

/-- `_updatePrecommitToken`. -/
def updatePrecommitToken
    (latest : Option PrecommitToken) (precommitToken : Option PrecommitToken) :
    Option PrecommitToken :=
  match latest, precommitToken with
  | none, precommitToken => precommitToken
  | some latest, some token =>
      if latest.seqNum < token.seqNum then some token else some latest
  | some latest, none => some latest

namespace Transaction

/-- The options of an inline begin, after `_setPreviousTransactionId`. -/
def beginSelector
    (p : Transaction) : Selector :=
  .begin
    (if p.mode == .readWrite && p.isMuxEnabledForRW then
      p.multiplexedSessionPreviousTransactionId
    else
      none)

/-- The selector of a query or a read. -/
def selector
    (p : Transaction) : Selector :=
  match p.id, p.mode with
  | some id, _ => .id id
  | none, .readWrite => p.beginSelector
  | none, _ => .singleUse

/-- The selector of a `batchUpdate`. -/
def batchSelector
    (p : Transaction) : Selector :=
  match p.id with
  | some id => .id id
  | none => p.beginSelector

/-- `_wrapWithIdWaiter`: whether the request function is wrapped. -/
def wrapWithIdWaiter
    (p : Transaction) : Bool × Transaction :=
  if p.id.isSome || p.mode != .readWrite then
    (false, p)
  else if !p.inlineBeginStarted then
    (false, { p with inlineBeginStarted := true })
  else
    (true, p)

/-- The call of `runStream`. -/
def runStream
    (p : Transaction) (valid : Bool) : Transaction :=
  let (wrapped, p) := p.wrapWithIdWaiter
  { p with
    statements :=
      p.statements ++ [⟨.runStream, valid, wrapped, none, .created⟩] }

/-- The call of `createReadStream`, which chooses the selector at once. -/
def createReadStream
    (p : Transaction) : Transaction :=
  let transaction := p.selector
  let (wrapped, p) := p.wrapWithIdWaiter
  { p with
    statements :=
      p.statements ++
        [⟨.createReadStream, true, wrapped, some ⟨transaction, none⟩,
          .created⟩] }

/-- Send a request of the statement. -/
def requestStream
    (p : Transaction) (i : Nat) (s : Statement)
    (reqOpts : ReqOpts) (resumeToken : Option ResumeToken) : Transaction :=
  { p with
    statements :=
      p.statements.set i
        { s with
          reqOpts := some reqOpts
          phase := .requested }
    requests := p.requests ++ [⟨i, resumeToken, reqOpts, p.id⟩] }

/-- The request has to be prepared (again) before it is sent. -/
def needsSanitize
    (p : Transaction) (s : Statement) : Bool :=
  match s.reqOpts with
  | none => true
  | some reqOpts => p.id.isSome && reqOpts.transaction.id?.isNone

/-- The `makeRequest` of `runStream` and of `createReadStream`. -/
def makeRequest
    (p : Transaction) (i : Nat) (resumeToken : Option ResumeToken) :
    Transaction :=
  match p.statements[i]? with
  | none => p
  | some s =>
      match s.kind, s.reqOpts with
      | .runStream, reqOpts =>
          if p.needsSanitize s then
            if s.valid then
              requestStream { p with seqno := p.seqno + 1 } i s
                ⟨p.selector, some p.seqno⟩ resumeToken
            else
              -- The stream returned is about to fail without a request.
              { p with
                statements := p.statements.set i (s.moveTo .requested) }
          else
            match reqOpts with
            | none => p
            | some reqOpts => requestStream p i s reqOpts resumeToken
      | .createReadStream, some reqOpts =>
          match p.id with
          | some id =>
              if reqOpts.transaction.isBegin then
                requestStream p i s ⟨.id id, none⟩ resumeToken
              else
                requestStream p i s reqOpts resumeToken
          | none => requestStream p i s reqOpts resumeToken
      | _, _ => p

/-- Call the statement's request function: `makeRequest` itself, or the wrapped
one, which queues the request whether or not the id has become known since. -/
def requestFn
    (p : Transaction) (i : Nat) (resumeToken : Option ResumeToken) :
    Transaction :=
  match p.statements[i]? with
  | none => p
  | some s =>
      if s.wrapped then
        { p with
          statements := p.statements.set i (s.moveTo .queued)
          waitingRequests := p.waitingRequests ++ [(i, resumeToken)] }
      else
        p.makeRequest i resumeToken

/-- `_releaseWaitingRequests`. -/
def releaseWaitingRequests
    (p : Transaction) : Transaction :=
  p.waitingRequests.foldl
    (fun p (i, resumeToken) => p.makeRequest i resumeToken)
    { p with waitingRequests := [] }

/-- `_update`. -/
def update
    (p : Transaction) (id : TransactionId) : Transaction :=
  releaseWaitingRequests { p with id := some id }

/-- `_update`, if the id is not known yet. -/
def updateOnce
    (p : Transaction) : Option TransactionId → Transaction
  | none => p
  | some id => if p.id.isNone then p.update id else p

/-- The `response` handler of the result streams. -/
def onResponse
    (p : Transaction)
    (transaction : Option TransactionId)
    (precommitToken : Option PrecommitToken) : Transaction :=
  updateOnce
    { p with
      latestPreCommitToken :=
        updatePrecommitToken p.latestPreCommitToken precommitToken }
    transaction

/-- The statement's request is, or would have been, the one that begins the
transaction. -/
def carriesBegin
    (p : Transaction) (s : Statement) : Bool :=
  match s.reqOpts with
  | none => p.id.isNone
  | some reqOpts => reqOpts.transaction.isBegin

/-- The request stream of a statement stops, with or without a failure. -/
def stop
    (p : Transaction) (i : Nat) (s : Statement)
    (phase : StreamPhase) (failed : Bool) : Transaction :=
  { p with
    statements := p.statements.set i (s.moveTo phase)
    beginFailed := p.beginFailed || (failed && p.carriesBegin s) }

/-- The request of `begin`. -/
def begin
    (p : Transaction) : Transaction :=
  { p with begins := p.begins + 1 }

/-- The `error` handler of the result streams. -/
def onError
    (p : Transaction) (error : ServiceError) : Transaction :=
  if p.id.isNone && p.useInRunner && error.code != some .ABORTED then
    p.begin
  else
    p

/-- The callback of `begin`. -/
def onBegin
    (p : Transaction) (id : TransactionId)
    (precommitToken : Option PrecommitToken) : Transaction :=
  update
    { p with
      latestPreCommitToken :=
        updatePrecommitToken p.latestPreCommitToken precommitToken }
    id

/-- The call of `batchUpdate`, which sends its request at once and does not wait
for the transaction id. -/
def batchUpdate
    (p : Transaction) (queries : Nat) (valid : Bool) : Transaction :=
  if queries = 0 || !valid then
    p
  else
    requestStream
      { p with
        seqno := p.seqno + 1
        statements :=
          p.statements ++ [⟨.batchUpdate, true, false, none, .created⟩] }
      p.statements.length ⟨.batchUpdate, true, false, none, .created⟩
      ⟨p.batchSelector, some p.seqno⟩ none

/-- The callback of `batchUpdate` on a response, with the transaction of each
result set. -/
def onBatchResponse
    (p : Transaction)
    (transactions : List (Option TransactionId))
    (precommitToken : Option PrecommitToken) : Transaction :=
  transactions.foldl updateOnce
    { p with
      latestPreCommitToken :=
        updatePrecommitToken p.latestPreCommitToken precommitToken }

end Transaction

end SpannerClient
