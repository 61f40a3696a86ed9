import Mathlib.Data.List.AList
import SpannerClient.Machine.Run
import SpannerClient.ServiceError

/-!
# Metrics tracers

The factory keeps the tracers of the operations that are running, by the request
id without its attempt number, and the time of the last look at each.  An
operation (a call of `Spanner.request` or `Spanner.requestStream`) creates its
tracer when it starts; each of its attempts looks the tracer up by the request
id of its headers; the completion of the operation clears it.

`createMetricsTracer`, `getCurrentTracer` and `clearCurrentTracer` are the functions
of the factory, with the regular expression that takes the attempt number off
(`extractOperationRequest`).  `step` has the events of any number of operations,
each recorded with the entry that it has made.
-/

namespace SpannerClient
namespace Metrics

/-- `\d+`. -/
def isDigits
    (cs : List Char) : Bool :=
  !cs.isEmpty && cs.all Char.isDigit

/-- `[a-z0-9]+`, in either case. -/
def isAlphanumeric
    (cs : List Char) : Bool :=
  !cs.isEmpty && cs.all Char.isAlphanum

/-- The first group of `/^(\d+\.[a-z0-9]+\.\d+\.\d+\.\d+)\.\d+$/i`. -/
def matchOperationRequest
    (requestId : List Char) : Option (List Char) :=
  match requestId.splitOn '.' with
  | [version, process, client, channel, request, attempt] =>
      if isDigits version && isAlphanumeric process && isDigits client &&
          isDigits channel && isDigits request && isDigits attempt then
        some (['.'].intercalate [version, process, client, channel, request])
      else
        none
  | _ => none

/-- `_extractOperationRequest`. -/
def extractOperationRequest
    (requestId : Option String) : String :=
  match requestId with
  | none => ""
  | some requestId =>
      if requestId = "" then
        ""
      else
        match matchOperationRequest requestId.toList with
        | none => ""
        | some request => String.ofList request

structure MetricAttemptTracer where
  startTime : Nat
  status : Status := .UNKNOWN
deriving DecidableEq

structure MetricOperationTracer where
  attemptCount : Nat := 0
  startTime : Nat
  currentAttempt : Option MetricAttemptTracer := none
deriving DecidableEq

structure MetricsTracer where
  currentOperation : Option MetricOperationTracer := none
  request : String
deriving DecidableEq

/-- The maps of `MetricsTracerFactory`; a tracer is given by its number. -/
structure MetricsTracerFactory where
  currentOperationTracers : AList fun _ : String => Nat := ∅
  currentOperationLastUpdatedMs : AList fun _ : String => Nat := ∅

/-- A call of `request` or `requestStream`. -/
structure Operation where
  /-- The request id of `config.headers`. -/
  requestId : Option String
  metricsTracer : Option Nat
  completed : Bool := false

/-- An attempt, with the tracer that the interceptor has found for it. -/
structure Attempt where
  operation : Nat
  metricsTracer : Option Nat

inductive ClientName where
  | spannerClient | databaseAdminClient | instanceAdminClient
deriving DecidableEq

end Metrics

open Metrics in
/-- The factory, and what has been created since. -/
structure Metrics where
  factory : MetricsTracerFactory := {}
  tracers : List MetricsTracer := []
  operations : List Operation := []
  attempts : List Attempt := []

namespace Metrics

/-- `createMetricsTracer`. -/
def createMetricsTracer
    (m : Metrics) (requestId : Option String) (now : Nat) : Nat × Metrics :=
  let operationRequest := extractOperationRequest requestId
  match m.factory.currentOperationTracers.lookup operationRequest with
  | some tracer => (tracer, m)
  | none =>
      let tracer := m.tracers.length
      (tracer,
        { m with
          tracers := m.tracers ++ [{ request := operationRequest }]
          factory :=
            { currentOperationTracers :=
                m.factory.currentOperationTracers.insert operationRequest
                  tracer
              currentOperationLastUpdatedMs :=
                m.factory.currentOperationLastUpdatedMs.insert
                  operationRequest now } })

/-- `getCurrentTracer`. -/
def getCurrentTracer
    (m : Metrics) (requestId : Option String) (now : Nat) :
    Option Nat × Metrics :=
  let operationRequest := extractOperationRequest requestId
  match m.factory.currentOperationTracers.lookup operationRequest with
  | none => (none, m)
  | some tracer =>
      (some tracer,
        { m with
          factory :=
            { m.factory with
              currentOperationLastUpdatedMs :=
                m.factory.currentOperationLastUpdatedMs.insert
                  operationRequest now } })

/-- `clearCurrentTracer`. -/
def clearCurrentTracer
    (m : Metrics) (requestId : String) : Metrics :=
  let operationRequest := extractOperationRequest (some requestId)
  match m.factory.currentOperationTracers.lookup operationRequest with
  | none => m
  | some _ =>
      { m with
        factory :=
          { currentOperationTracers :=
              m.factory.currentOperationTracers.erase operationRequest
            currentOperationLastUpdatedMs :=
              m.factory.currentOperationLastUpdatedMs.erase
                operationRequest } }

/-- `recordOperationStart`. -/
def MetricsTracer.recordOperationStart
    (tracer : MetricsTracer) (now : Nat) : MetricsTracer :=
  match tracer.currentOperation with
  | some _ => tracer
  | none => { tracer with currentOperation := some { startTime := now } }

/-- `recordAttemptStart`. -/
def MetricsTracer.recordAttemptStart
    (tracer : MetricsTracer) (now : Nat) : MetricsTracer :=
  { tracer with
    currentOperation :=
      tracer.currentOperation.map fun operation =>
        { operation with
          attemptCount := operation.attemptCount + 1
          currentAttempt := some { startTime := now } } }

/-- `recordAttemptCompletion`. -/
def MetricsTracer.recordAttemptCompletion
    (tracer : MetricsTracer) (status : Status) : MetricsTracer :=
  { tracer with
    currentOperation :=
      tracer.currentOperation.map fun operation =>
        { operation with
          currentAttempt :=
            operation.currentAttempt.map fun attempt =>
              { attempt with status := status } } }

/-- Do something to a tracer, if there is one. -/
def modifyTracer
    (m : Metrics) (tracer : Option Nat)
    (f : MetricsTracer → MetricsTracer) : Metrics :=
  match tracer with
  | none => m
  | some tracer => { m with tracers := m.tracers.modify tracer f }

/-- `recordOperationCompletion`. -/
def recordOperationCompletion
    (m : Metrics) (tracer : Option Nat) : Metrics :=
  match tracer.bind fun tracer => m.tracers[tracer]? with
  | none => m
  | some tracer =>
      if tracer.currentOperation.isSome then
        m.clearCurrentTracer tracer.request
      else
        m

/-- `config.client === 'SpannerClient' && this.projectId_`. -/
def isTraced
    (client : ClientName) (projectId_ : Option String) : Bool :=
  client == .spannerClient && projectId_.isSome

/-- The operation has been called. -/
def addOperation
    (m : Metrics) (requestId : Option String) (tracer : Option Nat) :
    Metrics :=
  { m with operations := m.operations ++ [⟨requestId, tracer, false⟩] }

/-- `request` and `requestStream`, up to the request. -/
def request
    (m : Metrics) (client : ClientName) (projectId_ : Option String)
    (requestId : Option String) (now : Nat) : Metrics :=
  if isTraced client projectId_ then
    let (tracer, m) := m.createMetricsTracer requestId now
    (m.modifyTracer (some tracer) fun t => t.recordOperationStart now)
      |>.addOperation requestId (some tracer)
  else
    m.addOperation requestId none

/-- `start` of `MetricInterceptor`. -/
def start
    (m : Metrics) (i : Nat) (operation : Operation) (now : Nat) : Metrics :=
  let (tracer, m) := m.getCurrentTracer operation.requestId now
  let m := m.modifyTracer tracer fun t => t.recordAttemptStart now
  { m with attempts := m.attempts ++ [⟨i, tracer⟩] }

/-- The operation is completed. -/
def complete
    (m : Metrics) (i : Nat) (operation : Operation) : Metrics :=
  { m.recordOperationCompletion operation.metricsTracer with
    operations := m.operations.set i { operation with completed := true } }

inductive Event where
  /-- A call of `request` or `requestStream`. -/
  | request (client : ClientName) (projectId_ : Option String)
      (requestId : Option String) (now : Nat)
  /-- An attempt of a running operation starts. -/
  | attempt (operation : Nat) (now : Nat)
  /-- An attempt ends. -/
  | status (attempt : Nat) (status : Status)
  /-- A running operation completes. -/
  | complete (operation : Nat)
deriving DecidableEq

/-- Do something with a running operation. -/
def atOperation
    (m : Metrics) (i : Nat) (f : Operation → Metrics) : Option Metrics :=
  match m.operations[i]? with
  | none => none
  | some operation => if operation.completed then none else some (f operation)

/-- One event. -/
def step
    (m : Metrics) : Event → Option Metrics
  | .request client projectId_ requestId now =>
      some (m.request client projectId_ requestId now)
  | .attempt i now => m.atOperation i fun operation => m.start i operation now
  | .status j status =>
      m.attempts[j]?.map fun attempt =>
        m.modifyTracer attempt.metricsTracer fun t =>
          t.recordAttemptCompletion status
  | .complete i => m.atOperation i fun operation => m.complete i operation

end Metrics
end SpannerClient
