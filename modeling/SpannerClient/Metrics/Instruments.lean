import SpannerClient.Machine.Matching
import SpannerClient.Metrics.Isolation

/-!
# The instruments

What the tracers record: the interceptor measures each attempt and the time it took
to reach Google, the completion measures the operation.  The factory keeps the
tracers of operations that have not been looked up for an hour no longer.

A measurement (`Measurement`) has the attributes of the client and of the instance
and database, which are cut out of the resource name, the status, and the
latencies, which are read from the headers of the response; an attempt without the
latency of the front end is counted as a connectivity error.

`PrivateMeters` is what all this is for: every operation has a tracer of its own,
and nothing is looked up or cleaned.
-/

namespace SpannerClient
namespace Metrics

open Machine

/-! ## The tracers -/

/-- `_clientAttributes`. -/
structure ClientAttributes where
  database : String
  method : String
  instance_id : String
deriving DecidableEq

/-- A call of `record` or `add` of an instrument. -/
inductive Measurement where
  | attemptLatency (ms : Int) (attributes : ClientAttributes) (status : Status)
  | attemptCount (attributes : ClientAttributes) (status : Status)
  | operationCount (attributes : ClientAttributes) (status : Status)
  | operationLatency (ms : Int) (attributes : ClientAttributes)
      (status : Status)
  | gfeLatency (ms : Nat) (attributes : ClientAttributes) (status : Status)
  | gfeConnectivityErrorCount (attributes : ClientAttributes)
      (status : Status)
  | afeLatency (ms : Nat) (attributes : ClientAttributes) (status : Status)
deriving DecidableEq

/-- `[^/]+`, and what is left. -/
def segment
    (cs : List Char) : Option (List Char × List Char) :=
  let taken := cs.takeWhile fun c => c ≠ '/'
  if taken = [] then none else some (taken, cs.drop taken.length)

/-- `/projects\/([^/]+)\/instances\/([^/]+)(?:\/databases\/([^/]+))?/` from a
character on. -/
def execInstance
    (cs : List Char) : Option (List Char × List Char × Option (List Char)) := do
  let cs ← literal "projects/".toList cs
  let (projectId, cs) ← segment cs
  let cs ← literal "/instances/".toList cs
  let (instanceId, cs) ← segment cs
  let databaseId :=
    ((literal "/databases/".toList cs).bind segment).map Prod.fst
  return (projectId, instanceId, databaseId)

structure InstanceAttributes where
  project : String
  instance_ : String
  database : String
deriving DecidableEq

def UNKNOWN_ATTRIBUTE : String := "unknown"

/-- `getInstanceAttributes`. -/
def getInstanceAttributes
    (formattedName : Option String) : InstanceAttributes :=
  match search execInstance (formattedName.getD "").toList with
  | none =>
      { project := UNKNOWN_ATTRIBUTE
        instance_ := UNKNOWN_ATTRIBUTE
        database := UNKNOWN_ATTRIBUTE }
  | some (projectId, instanceId, databaseId) =>
      { project := String.ofList projectId
        instance_ := String.ofList instanceId
        database :=
          match databaseId with
          | none => UNKNOWN_ATTRIBUTE
          | some databaseId => String.ofList databaseId }

/-- `[0-9]+` as a number. -/
def digits
    (cs : List Char) : Option Nat :=
  let taken := cs.takeWhile Char.isDigit
  if taken = [] then
    none
  else
    some (taken.foldl (fun n c => 10 * n + (c.toNat - '0'.toNat)) 0)

/-- `extractGfeLatency`. -/
def extractGfeLatency
    (header : Option String) : Option Nat :=
  header.bind fun header =>
    search (fun cs => (literal "gfet4t7; dur=".toList cs).bind digits)
      header.toList

/-- `extractAfeLatency`; the flag is `isAFEServerTimingEnabled()`. -/
def extractAfeLatency
    (afeEnabled : Bool) (header : Option String) : Option Nat :=
  if afeEnabled then
    header.bind fun header =>
      search (fun cs => (literal "afe; dur=".toList cs).bind digits)
        header.toList
  else
    none

/-- What a `MetricsTracer` has besides its operation. -/
structure TracerDetails where
  clientAttributes : ClientAttributes
  gfeLatency : Option Nat := none
  afeLatency : Option Nat := none
deriving DecidableEq

namespace TracerDetails

/-- The details of a tracer that `createMetricsTracer` has constructed. -/
def new
    (method : String) (formattedName : Option String) : TracerDetails :=
  let attributes := getInstanceAttributes formattedName
  { clientAttributes :=
      { database := attributes.database
        method := method
        instance_id := attributes.instance_ } }

/-- `onReceiveMetadata`. -/
def onReceiveMetadata
    (afeEnabled : Bool) (header : Option String)
    (d : TracerDetails) : TracerDetails :=
  { d with
    gfeLatency := extractGfeLatency header
    afeLatency := extractAfeLatency afeEnabled header }

/-- The latency counts as one: it is neither null nor zero. -/
def latency? : Option Nat → Option Nat
  | some (ms + 1) => some (ms + 1)
  | _ => none

/-- `recordGfeLatency` or `recordGfeConnectivityErrorCount`, and
`recordAfeLatency`. -/
def recordFrontEnds
    (afeEnabled : Bool) (status : Status)
    (d : TracerDetails) : List Measurement :=
  (match latency? d.gfeLatency with
    | some ms => [.gfeLatency ms d.clientAttributes status]
    | none => [.gfeConnectivityErrorCount d.clientAttributes status]) ++
  (match latency? d.afeLatency with
    | some ms =>
        if afeEnabled then
          [.afeLatency ms d.clientAttributes status]
        else
          []
    | none => [])

/-- The latencies that have been recorded are reset. -/
def resetLatencies
    (afeEnabled : Bool) (d : TracerDetails) : TracerDetails :=
  { d with
    gfeLatency :=
      if (latency? d.gfeLatency).isSome then none else d.gfeLatency
    afeLatency :=
      if afeEnabled && (latency? d.afeLatency).isSome then
        none
      else
        d.afeLatency }

end TracerDetails

/-- A tracer with everything it has. -/
structure FullTracer where
  tracer : MetricsTracer
  details : TracerDetails
deriving DecidableEq

namespace FullTracer

/-- What `recordAttemptCompletion` records. -/
def measureAttempt
    (t : FullTracer) (status : Status) (now : Nat) : List Measurement :=
  match t.tracer.currentOperation.bind fun o => o.currentAttempt with
  | none => []
  | some attempt =>
      [.attemptLatency (now - attempt.startTime) t.details.clientAttributes
          status,
        .attemptCount t.details.clientAttributes status]

/-- What `onReceiveStatus` records. -/
def measureStatus
    (afeEnabled : Bool) (t : FullTracer) (status : Status) (now : Nat) :
    List Measurement :=
  t.measureAttempt status now ++ t.details.recordFrontEnds afeEnabled status

/-- What `onReceiveStatus` leaves. -/
def onReceiveStatus
    (afeEnabled : Bool) (status : Status) (t : FullTracer) : FullTracer where
  tracer := t.tracer.recordAttemptCompletion status
  details := t.details.resetLatencies afeEnabled

/-- What `recordOperationCompletion` records. -/
def measureOperation
    (t : FullTracer) (now : Nat) : List Measurement :=
  match t.tracer.currentOperation with
  | none => []
  | some operation =>
      let status :=
        match operation.currentAttempt with
        | none => .UNKNOWN
        | some attempt => attempt.status
      [.operationCount t.details.clientAttributes status,
        .operationLatency (now - operation.startTime)
          t.details.clientAttributes status]

end FullTracer

/-! ## The factory and the interceptor -/

/-- `TRACER_CLEANUP_THRESHOLD_MS`. -/
def TRACER_CLEANUP_THRESHOLD_MS : Nat := 60 * 60 * 1000

/-- `TRACER_CLEANUP_INTERVAL_MS`. -/
def TRACER_CLEANUP_INTERVAL_MS : Nat := 30 * 60 * 1000

/-- One round of the loop of `_cleanMetricsTracers`. -/
def cleanEntry
    (now : Nat) (factory : MetricsTracerFactory)
    (entry : (_ : String) × Nat) : MetricsTracerFactory :=
  if entry.2 + TRACER_CLEANUP_THRESHOLD_MS ≤ now then
    { currentOperationTracers :=
        factory.currentOperationTracers.erase entry.1
      currentOperationLastUpdatedMs :=
        factory.currentOperationLastUpdatedMs.erase entry.1 }
  else
    factory

/-- `_cleanMetricsTracers`. -/
def cleanMetricsTracers
    (factory : MetricsTracerFactory) (now : Nat) : MetricsTracerFactory :=
  factory.currentOperationLastUpdatedMs.entries.foldl (cleanEntry now) factory

/-- The interval of the factory fires. -/
def clean
    (m : Metrics) (now : Nat) : Metrics :=
  { m with factory := cleanMetricsTracers m.factory now }

/-- The factory with the details of its tracers, and what they have recorded. -/
structure Meters where
  metrics : Metrics := {}
  details : List TracerDetails := []
  measurements : List Measurement := []

inductive MeterEvent where
  /-- A call of `request` or `requestStream`. -/
  | request (client : ClientName) (projectId_ : Option String)
      (requestId : Option String) (method : String)
      (formattedName : Option String) (now : Nat)
  /-- An attempt of a running operation starts. -/
  | attempt (operation : Nat) (now : Nat)
  /-- The metadata of an attempt arrive, with their `server-timing`. -/
  | metadata (attempt : Nat) (serverTiming : Option String)
  /-- An attempt ends. -/
  | status (attempt : Nat) (status : Status) (now : Nat)
  /-- A running operation completes. -/
  | complete (operation : Nat) (now : Nat)
  /-- The interval of the factory fires. -/
  | clean (now : Nat)
deriving DecidableEq

namespace Meters

/-- A tracer, by its number. -/
def fullTracer
    (m : Meters) (tracer : Option Nat) : Option FullTracer := do
  let k ← tracer
  let tracer ← m.metrics.tracers[k]?
  let details ← m.details[k]?
  return ⟨tracer, details⟩

/-- `createMetricsTracer` constructs a tracer. -/
def constructs
    (m : Meters) (client : ClientName) (projectId_ : Option String)
    (requestId : Option String) : Bool :=
  isTraced client projectId_ &&
    (m.metrics.tracerOf (extractOperationRequest requestId)).isNone

/-- Do something to the details of a tracer, if there is one. -/
def modifyDetails
    (m : Meters) (tracer : Option Nat)
    (f : TracerDetails → TracerDetails) : Meters :=
  match tracer with
  | none => m
  | some k => { m with details := m.details.modify k f }

/-- The tracer records something, if there is one. -/
def record
    (m : Meters) (tracer : Option FullTracer)
    (f : FullTracer → List Measurement) : Meters :=
  match tracer with
  | none => m
  | some t => { m with measurements := m.measurements ++ f t }

/-- One event. -/
def step
    (afeEnabled : Bool) (m : Meters) : MeterEvent → Option Meters
  | .request client projectId_ requestId method formattedName now =>
      some
        { m with
          metrics := m.metrics.request client projectId_ requestId now
          details :=
            if m.constructs client projectId_ requestId then
              m.details ++ [.new method formattedName]
            else
              m.details }
  | .attempt i now =>
      (Metrics.step m.metrics (.attempt i now)).map fun metrics =>
        { m with metrics := metrics }
  | .metadata j serverTiming =>
      m.metrics.attempts[j]?.map fun attempt =>
        m.modifyDetails attempt.metricsTracer
          (TracerDetails.onReceiveMetadata afeEnabled serverTiming)
  | .status j status now =>
      m.metrics.attempts[j]?.map fun attempt =>
        let m :=
          m.record (m.fullTracer attempt.metricsTracer) fun t =>
            t.measureStatus afeEnabled status now
        { m.modifyDetails attempt.metricsTracer
            (TracerDetails.resetLatencies afeEnabled) with
          metrics :=
            m.metrics.modifyTracer attempt.metricsTracer fun t =>
              t.recordAttemptCompletion status }
  | .complete i now =>
      match m.metrics.operations[i]? with
      | none => none
      | some operation =>
          if operation.completed then
            none
          else
            let m :=
              m.record (m.fullTracer operation.metricsTracer) fun t =>
                t.measureOperation now
            some { m with metrics := m.metrics.complete i operation }
  | .clean now =>
      some { m with metrics := m.metrics.clean now }

section Frame

variable (m : Meters)

/-- Recording something leaves the factory alone. -/
@[simp] theorem record_metrics
    (t : Option FullTracer) (f : FullTracer → List Measurement) :
    (m.record t f).metrics = m.metrics := by
  cases t <;> rfl

@[simp] theorem record_details
    (t : Option FullTracer) (f : FullTracer → List Measurement) :
    (m.record t f).details = m.details := by
  cases t <;> rfl

@[simp] theorem modifyDetails_metrics
    (tracer : Option Nat) (f : TracerDetails → TracerDetails) :
    (m.modifyDetails tracer f).metrics = m.metrics := by
  cases tracer <;> rfl

end Frame

end Meters

/-! ## A tracer for each operation -/

/-- An operation with its own tracer, if it is traced. -/
structure PrivateOperation where
  owned : Option FullTracer
  completed : Bool := false
deriving DecidableEq

/-- Operations that have their own tracers; an attempt belongs to an operation. -/
structure PrivateMeters where
  operations : List PrivateOperation := []
  attempts : List Nat := []
  measurements : List Measurement := []
deriving DecidableEq

namespace PrivateMeters

/-- The operation does something with its tracer, if it has one. -/
def atTracer
    (p : PrivateMeters) (i : Nat)
    (f : FullTracer → FullTracer)
    (g : FullTracer → List Measurement) : PrivateMeters :=
  { p with
    operations :=
      p.operations.modify i fun o => { o with owned := o.owned.map f }
    measurements :=
      p.measurements ++
        match p.operations[i]?.bind fun o => o.owned with
        | none => []
        | some t => g t }

/-- One event. -/
def step
    (afeEnabled : Bool) (p : PrivateMeters) :
    MeterEvent → Option PrivateMeters
  | .request client projectId_ requestId method formattedName now =>
      let owned : Option FullTracer :=
        if isTraced client projectId_ then
          some
            { tracer :=
                { currentOperation := some { startTime := now }
                  request := extractOperationRequest requestId }
              details := .new method formattedName }
        else
          none
      some { p with operations := p.operations ++ [{ owned := owned }] }
  | .attempt i now =>
      match p.operations[i]? with
      | none => none
      | some o =>
          if o.completed then
            none
          else
            some
              { p.atTracer i
                  (fun t => { t with tracer := t.tracer.recordAttemptStart now })
                  (fun _ => []) with
                attempts := p.attempts ++ [i] }
  | .metadata j serverTiming =>
      p.attempts[j]?.map fun i =>
        p.atTracer i
          (fun t =>
            { t with
              details := t.details.onReceiveMetadata afeEnabled serverTiming })
          (fun _ => [])
  | .status j status now =>
      p.attempts[j]?.map fun i =>
        p.atTracer i (FullTracer.onReceiveStatus afeEnabled status)
          (fun t => t.measureStatus afeEnabled status now)
  | .complete i now =>
      match p.operations[i]? with
      | none => none
      | some o =>
          if o.completed then
            none
          else
            let p := p.atTracer i id fun t => t.measureOperation now
            some
              { p with
                operations :=
                  p.operations.set i { o with completed := true } }
  | .clean _ => some p

end PrivateMeters

/-! ## Cleaning -/

/-- The entry of the request has not been updated for too long. -/
def Stale
    (m : Metrics) (now : Nat) (request : String) : Prop :=
  ∃ t, m.lastUpdated request = some t ∧
    t + TRACER_CLEANUP_THRESHOLD_MS ≤ now

/-- What a round of the loop does to an entry. -/
theorem lookup_cleanEntry
    (now : Nat) (factory : MetricsTracerFactory)
    (entry : (_ : String) × Nat) (request : String) :
    let cleaned := cleanEntry now factory entry
    let stale :=
      entry.1 = request ∧ entry.2 + TRACER_CLEANUP_THRESHOLD_MS ≤ now
    (stale →
        cleaned.currentOperationTracers.lookup request = none ∧
          cleaned.currentOperationLastUpdatedMs.lookup request = none) ∧
      (¬stale →
        cleaned.currentOperationTracers.lookup request =
            factory.currentOperationTracers.lookup request ∧
          cleaned.currentOperationLastUpdatedMs.lookup request =
            factory.currentOperationLastUpdatedMs.lookup request) := by
  dsimp only
  unfold cleanEntry
  split
  · rename_i hstale
    by_cases heq : entry.1 = request
    · subst heq
      refine ⟨fun _ => ?_, fun h => absurd ⟨rfl, hstale⟩ h⟩
      exact ⟨AList.lookup_erase _ _, AList.lookup_erase _ _⟩
    · refine ⟨fun h => absurd h.1 heq, fun _ => ?_⟩
      exact
        ⟨AList.lookup_erase_ne (Ne.symm heq),
          AList.lookup_erase_ne (Ne.symm heq)⟩
  · rename_i hfresh
    exact ⟨fun h => absurd h.2 hfresh, fun _ => ⟨rfl, rfl⟩⟩

/-- What the loop leaves of the entries it has come by. -/
theorem lookup_foldl_cleanEntry
    (now : Nat) (entries : List ((_ : String) × Nat))
    (factory : MetricsTracerFactory) (request : String) :
    let cleaned := entries.foldl (cleanEntry now) factory
    let stale :=
      ∃ e ∈ entries, e.1 = request ∧
        e.2 + TRACER_CLEANUP_THRESHOLD_MS ≤ now
    (stale →
        cleaned.currentOperationTracers.lookup request = none ∧
          cleaned.currentOperationLastUpdatedMs.lookup request = none) ∧
      (¬stale →
        cleaned.currentOperationTracers.lookup request =
            factory.currentOperationTracers.lookup request ∧
          cleaned.currentOperationLastUpdatedMs.lookup request =
            factory.currentOperationLastUpdatedMs.lookup request) := by
  dsimp only
  induction entries generalizing factory with
  | nil => simp
  | cons e entries ih =>
      obtain ⟨hgone, hkept⟩ := ih (cleanEntry now factory e)
      obtain ⟨hgoneHere, hkeptHere⟩ := lookup_cleanEntry now factory e request
      rw [List.foldl_cons]
      by_cases hrest :
          ∃ e ∈ entries, e.1 = request ∧
            e.2 + TRACER_CLEANUP_THRESHOLD_MS ≤ now
      · refine ⟨fun _ => hgone hrest, fun h => absurd ?_ h⟩
        obtain ⟨e', he', hstale⟩ := hrest
        exact ⟨e', List.mem_cons_of_mem e he', hstale⟩
      · obtain ⟨htracers, htimes⟩ := hkept hrest
        rw [htracers, htimes]
        refine ⟨?_, fun h => ?_⟩
        · rintro ⟨e', he', hstale⟩
          rcases List.mem_cons.mp he' with rfl | he'
          · exact hgoneHere hstale
          · exact absurd ⟨e', he', hstale⟩ hrest
        · exact hkeptHere fun hstale => h ⟨e, List.mem_cons_self, hstale⟩

/-- A cleaning removes the stale entries from both maps, and nothing else. -/
theorem lookup_clean
    (m : Metrics) (now : Nat) (request : String) :
    (Stale m now request →
        (m.clean now).tracerOf request = none ∧
          (m.clean now).lastUpdated request = none) ∧
      (¬Stale m now request →
        (m.clean now).tracerOf request = m.tracerOf request ∧
          (m.clean now).lastUpdated request = m.lastUpdated request) := by
  have hstale :
      Stale m now request ↔
        ∃ e ∈ m.factory.currentOperationLastUpdatedMs.entries,
          e.1 = request ∧ e.2 + TRACER_CLEANUP_THRESHOLD_MS ≤ now := by
    constructor
    · rintro ⟨t, ht, hold⟩
      exact ⟨⟨request, t⟩, AList.mem_lookup_iff.mp ht, rfl, hold⟩
    · rintro ⟨⟨key, t⟩, he, rfl, hold⟩
      exact ⟨t, AList.mem_lookup_iff.mpr he, hold⟩
  rw [hstale]
  exact lookup_foldl_cleanEntry now _ m.factory request

end Metrics
end SpannerClient
