import SpannerClient.Metrics.Instruments

/-!
# What the operations are charged with

The tracers are found by request ids.  As long as no operation is started with the
request id of another, running or over, none is without one, and no entry of a
running operation gets stale, the tracers are as good as if each operation had its
own: the factory refines `PrivateMeters`, and the measurements are the same.

The entries that completed operations leave behind do no harm, since nothing looks
them up.

`toPrivate` is the abstraction and `Owned` its invariant: the entry of a running
operation is its own.  Each event of the factory is one of the private tracers
(`step_refines`); the main result is `measured_privately`.
-/

namespace SpannerClient
namespace Metrics

open Machine

namespace Meters

/-- An operation with the tracer it has been given. -/
def privately
    (m : Meters) (op : Operation) : PrivateOperation where
  owned := m.fullTracer op.metricsTracer
  completed := op.completed

/-- The operations with their tracers. -/
def toPrivate
    (m : Meters) : PrivateMeters where
  operations := m.metrics.operations.map m.privately
  attempts := m.metrics.attempts.map fun attempt => attempt.operation
  measurements := m.measurements

/-- Every operation has a tracer of its own, and finds it while it runs. -/
structure Owned
    (m : Meters) : Prop where
  found :
    ∀ (i : Nat) op, m.metrics.operations[i]? = some op →
      op.completed = false →
        m.metrics.tracerOf op.request = op.metricsTracer
  entry :
    ∀ request, (m.metrics.tracerOf request).isSome = true →
      ∃ op ∈ m.metrics.operations, op.request = request
  named : ∀ op ∈ m.metrics.operations, op.request ≠ ""
  unshared :
    ∀ (i j : Nat) op op' tracer,
      m.metrics.operations[i]? = some op →
        m.metrics.operations[j]? = some op' →
          op.metricsTracer = some tracer → op'.metricsTracer = some tracer →
            i = j
  started :
    ∀ op ∈ m.metrics.operations, ∀ tracer, op.metricsTracer = some tracer →
      ∃ t, m.metrics.tracers[tracer]? = some t ∧ t.request = op.request
  charged :
    ∀ attempt ∈ m.metrics.attempts, ∃ op,
      m.metrics.operations[attempt.operation]? = some op ∧
        attempt.metricsTracer = op.metricsTracer
  detailed : m.details.length = m.metrics.tracers.length

/-- The operation that starts has a request of its own, and no cleaning hits the
entry of a running operation. -/
def Fresh
    (m : Meters) : MeterEvent → Prop
  | .request _ _ requestId _ _ _ =>
      extractOperationRequest requestId ≠ "" ∧
        ∀ op ∈ m.metrics.operations,
          op.request ≠ extractOperationRequest requestId
  | .clean now =>
      ∀ op ∈ m.metrics.operations, op.completed = false →
        ¬Stale m.metrics now op.request
  | _ => True

variable {m q : Meters} {i : Nat} {op : Operation}

/-! ## The tracer of an operation changes -/

/-- A change of the tracer with the number, in both lists. -/
def modify
    (m : Meters) (tracer : Option Nat)
    (f : MetricsTracer → MetricsTracer)
    (g : TracerDetails → TracerDetails) : Meters :=
  { m.modifyDetails tracer g with
    metrics := m.metrics.modifyTracer tracer f }

theorem fullTracer_modify
    (m : Meters) (tracer other : Option Nat)
    (f : MetricsTracer → MetricsTracer) (g : TracerDetails → TracerDetails) :
    (m.modify tracer f g).fullTracer other =
      if tracer = other then
        (m.fullTracer other).map fun t => ⟨f t.tracer, g t.details⟩
      else
        m.fullTracer other := by
  cases other with
  | none =>
      simp [fullTracer]
  | some k =>
      cases tracer with
      | none => simp [modify, modifyDetails, modifyTracer, fullTracer]
      | some l =>
          by_cases heq : l = k
          · subst heq
            cases htracer : m.metrics.tracers[l]? with
            | none =>
                simp [modify, modifyDetails, modifyTracer, fullTracer, htracer]
            | some t =>
                cases hdetails : m.details[l]? <;>
                  simp [modify, modifyDetails, modifyTracer, fullTracer,
                    htracer, hdetails]
          · simp [modify, modifyDetails, modifyTracer, fullTracer, heq,
              List.getElem?_modify]

/-- The change of the tracer of an operation is a change of its own tracer. -/
theorem map_privately_modify
    (h : Owned m)
    (hi : m.metrics.operations[i]? = some op)
    (f : MetricsTracer → MetricsTracer) (g : TracerDetails → TracerDetails) :
    m.metrics.operations.map (m.modify op.metricsTracer f g).privately =
      (m.metrics.operations.map m.privately).modify i fun o =>
        { o with
          owned := o.owned.map fun t => ⟨f t.tracer, g t.details⟩ } := by
  refine List.ext_getElem? fun j => ?_
  rw [List.getElem?_map, List.getElem?_modify, List.getElem?_map]
  cases hj : m.metrics.operations[j]? with
  | none => rfl
  | some op' =>
      by_cases hij : i = j
      · subst hij
        obtain rfl := Option.some.inj (hi.symm.trans hj)
        simp [privately, fullTracer_modify]
      · have hne :
            op.metricsTracer = op'.metricsTracer →
              m.fullTracer op'.metricsTracer = none := by
          intro hsame
          cases htracer : op'.metricsTracer with
          | none => rfl
          | some tracer =>
              exact
                absurd
                  (h.unshared i j op op' tracer hi hj (hsame.trans htracer)
                    htracer)
                  hij
        simp only [Option.map_some, hij, if_false, privately,
          fullTracer_modify]
        split
        · rename_i hsame
          rw [hne hsame]
          rfl
        · rfl

/-- What is owned does not depend on more of the tracers than their requests. -/
theorem Owned.of_same
    (h : Owned m)
    (hoperations : q.metrics.operations = m.metrics.operations)
    (htracerOf : ∀ request, q.metrics.tracerOf request = m.metrics.tracerOf request)
    (htracers :
      q.metrics.tracers.map MetricsTracer.request =
        m.metrics.tracers.map MetricsTracer.request)
    (hattempts :
      ∀ attempt ∈ q.metrics.attempts, ∃ op,
        m.metrics.operations[attempt.operation]? = some op ∧
          attempt.metricsTracer = op.metricsTracer)
    (hdetails : q.details.length = m.details.length) :
    Owned q where
  found := by
    rw [hoperations]
    intro i op hi hrunning
    rw [htracerOf]
    exact h.found i op hi hrunning
  entry := by
    rw [hoperations]
    intro request hsome
    rw [htracerOf] at hsome
    exact h.entry request hsome
  named := by
    rw [hoperations]
    exact h.named
  unshared := by
    rw [hoperations]
    exact h.unshared
  started := by
    rw [hoperations]
    intro op hop tracer htracer
    obtain ⟨t, ht, hrequest⟩ := h.started op hop tracer htracer
    have hsame := congrArg (fun requests => requests[tracer]?) htracers
    simp only [List.getElem?_map, ht, Option.map_some,
      Option.map_eq_some_iff] at hsame
    obtain ⟨t', ht', hrequest'⟩ := hsame
    exact ⟨t', ht', hrequest'.trans hrequest⟩
  charged := by
    rw [hoperations]
    exact hattempts
  detailed := by
    have hlength := congrArg List.length htracers
    rw [List.length_map, List.length_map] at hlength
    rw [hdetails, hlength]
    exact h.detailed

/-- A change that keeps the requests of the tracers keeps what is owned. -/
theorem Owned.modify
    (h : Owned m)
    (tracer : Option Nat)
    {f : MetricsTracer → MetricsTracer}
    (hf : ∀ t, (f t).request = t.request)
    (g : TracerDetails → TracerDetails) :
    Owned (m.modify tracer f g) := by
  obtain ⟨hfactory, hoperations, hattempts⟩ :=
    modifyTracer_frame m.metrics tracer f
  refine h.of_same hoperations ?_ ?_ ?_ ?_
  · intro request
    exact congrArg (fun factory : MetricsTracerFactory =>
      factory.currentOperationTracers.lookup request) hfactory
  · cases tracer with
    | none => rfl
    | some k =>
        change (m.metrics.tracers.modify k f).map _ = _
        refine List.ext_getElem? fun j => ?_
        rw [List.getElem?_map, List.getElem?_modify, List.getElem?_map]
        cases m.metrics.tracers[j]? with
        | none => rfl
        | some t =>
            by_cases hk : k = j
            · simp [hk, hf]
            · simp [hk]
  · intro attempt hattempt
    exact h.charged attempt (hattempts ▸ hattempt)
  · cases tracer with
    | none => rfl
    | some k => simp [Meters.modify, modifyDetails]

/-- What is measured does not matter for who owns what. -/
theorem Owned.record
    (h : Owned m)
    (t : Option FullTracer) (f : FullTracer → List Measurement) :
    Owned (m.record t f) := by
  cases t with
  | none => exact h
  | some t => exact h.of_same rfl (fun _ => rfl) rfl h.charged rfl

/-! ## The events -/

variable {afeEnabled : Bool}

/-- Something that is done to the tracer of an operation, is done to its own. -/
theorem toPrivate_modify
    (h : Owned m)
    (hi : m.metrics.operations[i]? = some op)
    (f : MetricsTracer → MetricsTracer) (g : TracerDetails → TracerDetails)
    (measure : FullTracer → List Measurement) :
    ((m.record (m.fullTracer op.metricsTracer) measure).modify
        op.metricsTracer f g).toPrivate =
      m.toPrivate.atTracer i (fun t => ⟨f t.tracer, g t.details⟩) measure := by
  have howned :
      (m.toPrivate.operations[i]?.bind fun o => o.owned) =
        m.fullTracer op.metricsTracer := by
    simp [toPrivate, hi, privately]
  have hoperations := map_privately_modify h hi f g
  rw [PrivateMeters.atTracer, howned]
  simp only [toPrivate, PrivateMeters.mk.injEq]
  obtain ⟨-, hframe, hattempts⟩ :=
    modifyTracer_frame m.metrics op.metricsTracer f
  cases htracer : m.fullTracer op.metricsTracer with
  | none =>
      refine ⟨?_, congrArg (List.map _) hattempts, ?_⟩
      · exact (congrArg (List.map _) hframe).trans hoperations
      · rw [List.append_nil]
        cases op.metricsTracer <;> rfl
  | some t =>
      refine ⟨?_, congrArg (List.map _) hattempts, ?_⟩
      · rw [← hoperations, ← hframe]
        cases op.metricsTracer <;> rfl
      · cases op.metricsTracer <;> rfl

/-- A change of a tracer that records nothing. -/
theorem toPrivate_modify_silent
    (h : Owned m)
    (hi : m.metrics.operations[i]? = some op)
    (f : MetricsTracer → MetricsTracer) (g : TracerDetails → TracerDetails) :
    (m.modify op.metricsTracer f g).toPrivate =
      m.toPrivate.atTracer i (fun t => ⟨f t.tracer, g t.details⟩)
        fun _ => [] := by
  have hrecord :
      m.record (m.fullTracer op.metricsTracer) (fun _ => []) = m := by
    cases m.fullTracer op.metricsTracer with
    | none => rfl
    | some t => simp [record]
  rw [← toPrivate_modify h hi f g, hrecord]

theorem modifyDetails_eq
    (m : Meters) (tracer : Option Nat) (g : TracerDetails → TracerDetails) :
    m.modifyDetails tracer g = m.modify tracer id g := by
  cases tracer with
  | none => rfl
  | some k => simp [modify, modifyDetails, modifyTracer, List.modify_id]

theorem modifyTracer_eq
    (m : Meters) (tracer : Option Nat) (f : MetricsTracer → MetricsTracer) :
    { m with metrics := m.metrics.modifyTracer tracer f } =
      m.modify tracer f id := by
  cases tracer with
  | none => rfl
  | some k => simp [modify, modifyDetails, List.modify_id]

/-- The tracer of an attempt is that of its operation. -/
theorem Owned.attempt
    (h : Owned m)
    {j : Nat} {attempt : Attempt}
    (hj : m.metrics.attempts[j]? = some attempt) :
    ∃ op,
      m.metrics.operations[attempt.operation]? = some op ∧
        attempt.metricsTracer = op.metricsTracer :=
  h.charged attempt (List.mem_of_getElem? hj)

/-- An operation starts whose request nobody has, with a new tracer or none. -/
theorem Owned.addOperation
    (h : Owned m)
    (op : Operation) (ts : List MetricsTracer)
    (hoperations : q.metrics.operations = m.metrics.operations ++ [op])
    (htracers : q.metrics.tracers = m.metrics.tracers ++ ts)
    (htracerOf :
      ∀ request,
        q.metrics.tracerOf request =
          if request = op.request then op.metricsTracer
          else m.metrics.tracerOf request)
    (hattempts : q.metrics.attempts = m.metrics.attempts)
    (hdetailed : q.details.length = q.metrics.tracers.length)
    (hnamed : op.request ≠ "")
    (hother : ∀ o ∈ m.metrics.operations, o.request ≠ op.request)
    (hnew :
      ∀ tracer, op.metricsTracer = some tracer →
        tracer = m.metrics.tracers.length ∧
          ∃ t, ts = [t] ∧ t.request = op.request) :
    Owned q where
  found := by
    intro i o hi hrunning
    rw [hoperations] at hi
    rw [htracerOf]
    rcases getElem?_snoc_some hi with ⟨-, rfl⟩ | ⟨-, hi⟩
    · exact if_pos rfl
    · rw [if_neg (hother o (List.mem_of_getElem? hi))]
      exact h.found i o hi hrunning
  entry := by
    intro request hsome
    rw [hoperations]
    rw [htracerOf] at hsome
    split at hsome
    · rename_i heq
      exact ⟨op, by simp, heq.symm⟩
    · obtain ⟨o, ho, hrequest⟩ := h.entry request hsome
      exact ⟨o, List.mem_append_left _ ho, hrequest⟩
  named := by
    intro o ho
    rw [hoperations, List.mem_append, List.mem_singleton] at ho
    rcases ho with ho | rfl
    · exact h.named o ho
    · exact hnamed
  unshared := by
    have hold :
        ∀ o ∈ m.metrics.operations, ∀ tracer, o.metricsTracer = some tracer →
          op.metricsTracer ≠ some tracer := by
      intro o ho tracer htracer heq
      obtain ⟨t, ht, -⟩ := h.started o ho tracer htracer
      have hlt := (List.getElem?_eq_some_iff.mp ht).1
      exact absurd (hnew tracer heq).1 (Nat.ne_of_lt hlt)
    intro i j o o' tracer hi hj htracer htracer'
    rw [hoperations] at hi hj
    rcases getElem?_snoc_some hi with ⟨hlast, rfl⟩ | ⟨-, hi'⟩
    · rcases getElem?_snoc_some hj with ⟨hlast', rfl⟩ | ⟨-, hj'⟩
      · exact hlast.trans hlast'.symm
      · exact
          absurd htracer
            (hold o' (List.mem_of_getElem? hj') tracer htracer')
    · rcases getElem?_snoc_some hj with ⟨-, rfl⟩ | ⟨-, hj'⟩
      · exact
          absurd htracer' (hold o (List.mem_of_getElem? hi') tracer htracer)
      · exact h.unshared i j o o' tracer hi' hj' htracer htracer'
  started := by
    intro o ho tracer htracer
    rw [htracers]
    rw [hoperations, List.mem_append, List.mem_singleton] at ho
    rcases ho with ho | rfl
    · obtain ⟨t, ht, hrequest⟩ := h.started o ho tracer htracer
      have hlt := (List.getElem?_eq_some_iff.mp ht).1
      exact ⟨t, by rw [List.getElem?_append_left hlt, ht], hrequest⟩
    · obtain ⟨rfl, t, rfl, hrequest⟩ := hnew tracer htracer
      exact ⟨t, List.getElem?_concat_length, hrequest⟩
  charged := by
    intro attempt hattempt
    rw [hattempts] at hattempt
    obtain ⟨o, ho, htracer⟩ := h.charged attempt hattempt
    exact ⟨o, by rw [hoperations, getElem?_snoc_of_some ho], htracer⟩
  detailed := hdetailed

/-- New tracers do not change those there are. -/
theorem fullTracer_append
    {ts : List MetricsTracer} {ds : List TracerDetails}
    (h : Owned m)
    (htracers : q.metrics.tracers = m.metrics.tracers ++ ts)
    (hdetails : q.details = m.details ++ ds)
    (hop : op ∈ m.metrics.operations) :
    q.fullTracer op.metricsTracer = m.fullTracer op.metricsTracer := by
  cases htracer : op.metricsTracer with
  | none => rfl
  | some k =>
      obtain ⟨t, ht, -⟩ := h.started op hop k htracer
      have hlt := (List.getElem?_eq_some_iff.mp ht).1
      have hlt' : k < m.details.length := h.detailed ▸ hlt
      simp [fullTracer, htracers, hdetails, List.getElem?_append_left hlt,
        List.getElem?_append_left hlt']

/-- An operation starts. -/
theorem step_request
    {client : ClientName} {projectId_ requestId : Option String}
    {method : String} {formattedName : Option String} {now : Nat}
    (h : Owned m)
    (hfresh :
      m.Fresh (.request client projectId_ requestId method formattedName now))
    (hstep :
      m.step afeEnabled
          (.request client projectId_ requestId method formattedName now) =
        some q) :
    Owned q ∧
      m.toPrivate.step afeEnabled
          (.request client projectId_ requestId method formattedName now) =
        some q.toPrivate := by
  obtain ⟨hnamed, hother⟩ := hfresh
  have hnone : m.metrics.tracerOf (extractOperationRequest requestId) = none := by
    rw [← Option.not_isSome_iff_eq_none]
    intro hsome
    obtain ⟨op, hop, hrequest⟩ := h.entry _ hsome
    exact hother op hop hrequest
  obtain rfl := Option.some.inj hstep
  have hold
      (metrics : Metrics) (ts : List MetricsTracer) (ds : List TracerDetails)
      (htracers : metrics.tracers = m.metrics.tracers ++ ts) :
      m.metrics.operations.map
          ({ m with
            metrics := metrics
            details := m.details ++ ds } : Meters).privately =
        m.metrics.operations.map m.privately := by
    refine List.map_congr_left fun op hop => ?_
    rw [privately, privately,
      fullTracer_append
        (q := { m with metrics := metrics, details := m.details ++ ds })
        h htracers rfl hop]
  cases htraced : isTraced client projectId_ with
  | false =>
      have hconstructs : m.constructs client projectId_ requestId = false := by
        simp [constructs, htraced]
      rw [request_untraced htraced]
      simp only [hconstructs, Bool.false_eq_true, if_false]
      constructor
      · refine
          h.addOperation ⟨requestId, none, false⟩ [] rfl
            (List.append_nil _).symm ?_ rfl h.detailed hnamed hother
            (fun _ => nofun)
        intro request
        split
        · rename_i heq
          subst heq
          exact hnone
        · rfl
      · have hsame :=
          hold (m.metrics.addOperation requestId none) [] []
            (List.append_nil _).symm
        rw [List.append_nil] at hsame
        simp only [PrivateMeters.step, htraced, Bool.false_eq_true, if_false,
          toPrivate, addOperation, List.map_append, List.map_cons,
          List.map_nil]
        rw [← hsame]
        rfl
  | true =>
      have hconstructs : m.constructs client projectId_ requestId = true := by
        simp [constructs, htraced, hnone]
      rw [request_of_none htraced hnone]
      simp only [hconstructs, if_true]
      constructor
      · refine
          h.addOperation ⟨requestId, some m.metrics.tracers.length, false⟩ _
            rfl rfl
            ?_ rfl (by simp [h.detailed]) hnamed hother ?_
        · intro request
          split
          · rename_i heq
            subst heq
            exact AList.lookup_insert _
          · rename_i hne
            exact AList.lookup_insert_ne hne
        · rintro tracer htracer
          obtain rfl := Option.some.inj htracer
          exact ⟨rfl, _, rfl, rfl⟩
      · have hsame :=
          hold (m.metrics.request client projectId_ requestId now) _
            [.new method formattedName]
            (congrArg Metrics.tracers (request_of_none htraced hnone now))
        rw [request_of_none htraced hnone] at hsame
        simp only [PrivateMeters.step, htraced, if_true, toPrivate,
          List.map_append, List.map_cons, List.map_nil]
        rw [← hsame]
        simp [privately, fullTracer, ← h.detailed]

/-- What `start` does, if the attempt finds the tracer of its operation. -/
theorem start_eq
    {m : Metrics} {op : Operation}
    (htracer : m.tracerOf op.request = op.metricsTracer)
    (i now : Nat) :
    (m.start i op now).operations = m.operations ∧
      (m.start i op now).tracers =
        (m.modifyTracer op.metricsTracer fun t =>
          t.recordAttemptStart now).tracers ∧
      (m.start i op now).attempts =
        m.attempts ++ [⟨i, op.metricsTracer⟩] ∧
      ∀ request, (m.start i op now).tracerOf request = m.tracerOf request := by
  obtain ⟨hoperations, htracers, hattempts, htracerOf, -⟩ :=
    getCurrentTracer_snd m op.requestId now
  have hfst := getCurrentTracer_fst m op.requestId now
  rw [start]
  generalize m.getCurrentTracer op.requestId now = looked at *
  obtain ⟨tracer, looked⟩ := looked
  obtain rfl : tracer = op.metricsTracer := hfst.trans htracer
  obtain ⟨hfactory, hframe, hframe'⟩ :=
    modifyTracer_frame looked op.metricsTracer fun t =>
      t.recordAttemptStart now
  refine ⟨hframe.trans hoperations, ?_, ?_, fun request => ?_⟩
  · dsimp only at htracers ⊢
    cases op.metricsTracer with
    | none => exact htracers
    | some k => exact congrArg (fun ts => List.modify ts k _) htracers
  · exact congrArg (fun xs => xs ++ _) (hframe'.trans hattempts)
  · rw [← htracerOf request]
    exact congrArg (fun factory : MetricsTracerFactory =>
      factory.currentOperationTracers.lookup request) hfactory

/-- An attempt starts. -/
theorem step_attempt
    {now : Nat}
    (h : Owned m)
    (hstep : m.step afeEnabled (.attempt i now) = some q) :
    Owned q ∧
      m.toPrivate.step afeEnabled (.attempt i now) = some q.toPrivate := by
  obtain ⟨metrics, hmetrics, rfl⟩ := Option.map_eq_some_iff.mp hstep
  obtain ⟨op, hi, hrunning, rfl⟩ := atOperation_some hmetrics
  obtain ⟨hoperations, htracers, hattempts, htracerOf⟩ :=
    start_eq (h.found i op hi hrunning) i now
  have hmodify :=
    modifyTracer_eq m op.metricsTracer fun t => t.recordAttemptStart now
  have howned :=
    h.modify op.metricsTracer (f := fun t => t.recordAttemptStart now)
      (fun _ => rfl) id
  have hprivate :=
    toPrivate_modify_silent h hi (fun t => t.recordAttemptStart now) id
  rw [← hmodify] at howned hprivate
  obtain ⟨hfactory, hframe, hframe'⟩ :=
    modifyTracer_frame m.metrics op.metricsTracer fun t =>
      t.recordAttemptStart now
  constructor
  · refine howned.of_same ?_ ?_ ?_ ?_ rfl
    · exact hoperations.trans hframe.symm
    · intro request
      refine (htracerOf request).trans ?_
      exact congrArg (fun factory : MetricsTracerFactory =>
        factory.currentOperationTracers.lookup request) hfactory.symm
    · exact congrArg (List.map _) htracers
    · dsimp only
      rw [hattempts, hframe]
      intro attempt hattempt
      rcases List.mem_append.mp hattempt with hattempt | hattempt
      · exact h.charged attempt hattempt
      · obtain rfl := List.mem_singleton.mp hattempt
        exact ⟨op, hi, rfl⟩
  · have hsame :
        ({ m with metrics := m.metrics.start i op now } : Meters).toPrivate =
          { ({ m with
                metrics :=
                  m.metrics.modifyTracer op.metricsTracer fun t =>
                    t.recordAttemptStart now } : Meters).toPrivate with
            attempts := m.toPrivate.attempts ++ [i] } := by
      have hprivately :
          ({ m with metrics := m.metrics.start i op now } : Meters).privately =
            ({ m with
                metrics :=
                  m.metrics.modifyTracer op.metricsTracer fun t =>
                    t.recordAttemptStart now } : Meters).privately := by
        funext o
        simp only [privately, fullTracer, htracers]
      simp only [toPrivate, hprivately, hoperations, hframe, hattempts,
        List.map_append, List.map_cons, List.map_nil]
    rw [hsame, hprivate]
    simp [PrivateMeters.step, toPrivate, hi, privately, hrunning]

/-- The metadata of an attempt arrive. -/
theorem step_metadata
    {j : Nat} {serverTiming : Option String}
    (h : Owned m)
    (hstep : m.step afeEnabled (.metadata j serverTiming) = some q) :
    Owned q ∧
      m.toPrivate.step afeEnabled (.metadata j serverTiming) =
        some q.toPrivate := by
  obtain ⟨attempt, hj, rfl⟩ := Option.map_eq_some_iff.mp hstep
  obtain ⟨op, hi, htracer⟩ := h.attempt hj
  rw [htracer, modifyDetails_eq]
  refine ⟨h.modify _ (fun _ => rfl) _, ?_⟩
  rw [toPrivate_modify_silent h hi]
  simp [PrivateMeters.step, toPrivate, hj]

/-- An attempt ends. -/
theorem step_status
    {j now : Nat} {status : Status}
    (h : Owned m)
    (hstep : m.step afeEnabled (.status j status now) = some q) :
    Owned q ∧
      m.toPrivate.step afeEnabled (.status j status now) =
        some q.toPrivate := by
  obtain ⟨attempt, hj, rfl⟩ := Option.map_eq_some_iff.mp hstep
  obtain ⟨op, hi, htracer⟩ := h.attempt hj
  have hprivate :=
    toPrivate_modify h hi (fun t => t.recordAttemptCompletion status)
      (TracerDetails.resetLatencies afeEnabled) fun t =>
        t.measureStatus afeEnabled status now
  have howned :=
    (h.record (m.fullTracer op.metricsTracer) fun t =>
      t.measureStatus afeEnabled status now).modify op.metricsTracer
        (f := fun t => t.recordAttemptCompletion status) (fun _ => rfl)
        (TracerDetails.resetLatencies afeEnabled)
  rw [htracer]
  change
    Owned (Meters.modify _ op.metricsTracer _ _) ∧
      _ = some (Meters.modify _ op.metricsTracer _ _).toPrivate
  rw [hprivate]
  refine ⟨howned, ?_⟩
  simp only [PrivateMeters.step, toPrivate, List.getElem?_map, hj,
    Option.map_some]
  rfl

/-- The request of an operation that completes finds nothing to clear. -/
theorem complete_eq
    (h : Owned m)
    (hi : m.metrics.operations[i]? = some op) :
    m.metrics.complete i op =
      { m.metrics with
        operations :=
          m.metrics.operations.set i { op with completed := true } } := by
  have hempty : m.metrics.tracerOf "" = none := by
    rw [← Option.not_isSome_iff_eq_none]
    intro hsome
    obtain ⟨o, ho, hrequest⟩ := h.entry "" hsome
    exact h.named o ho hrequest
  rcases Option.eq_none_or_eq_some op.metricsTracer with
    htracer | ⟨tracer, htracer⟩
  · exact complete_untraced htracer
  · obtain ⟨t, ht, hrequest⟩ :=
      h.started op (List.mem_of_getElem? hi) tracer htracer
    have hclear : m.metrics.clearCurrentTracer t.request = m.metrics := by
      refine clearCurrentTracer_of_none ?_
      rw [hrequest, Operation.request, extractOperationRequest_again]
      exact hempty
    simp only [complete, Metrics.recordOperationCompletion, htracer,
      Option.bind_some, ht, hclear, ite_self]

/-- A completed operation keeps its tracer. -/
theorem Owned.complete
    (h : Owned m)
    (hi : m.metrics.operations[i]? = some op)
    (hmetrics :
      q.metrics =
        { m.metrics with
          operations :=
            m.metrics.operations.set i { op with completed := true } })
    (hdetails : q.details = m.details) :
    Owned q := by
  have hset {j : Nat} {o : Operation}
      (hj :
        (m.metrics.operations.set i
          { op with completed := true })[j]? = some o) :
      ∃ o', m.metrics.operations[j]? = some o' ∧
        o.request = o'.request ∧ o.metricsTracer = o'.metricsTracer ∧
          (o.completed = false → o = o') := by
    obtain ⟨o', ho', hid, htracer, hsame⟩ := getElem?_complete hi hj
    exact
      ⟨o', ho', by rw [Operation.request, hid, Operation.request], htracer,
        fun hrunning => (hsame hrunning).2⟩
  have hback {j : Nat} {o' : Operation}
      (ho' : m.metrics.operations[j]? = some o') :
      ∃ o, (m.metrics.operations.set i
          { op with completed := true })[j]? = some o ∧
        o.request = o'.request ∧ o.metricsTracer = o'.metricsTracer := by
    by_cases hij : i = j
    · subst hij
      obtain rfl := Option.some.inj (hi.symm.trans ho')
      have hlt := (List.getElem?_eq_some_iff.mp hi).1
      exact ⟨_, List.getElem?_set_self hlt, rfl, rfl⟩
    · exact ⟨o', by rw [List.getElem?_set_ne hij, ho'], rfl, rfl⟩
  have hmem {o : Operation}
      (ho :
        o ∈ m.metrics.operations.set i { op with completed := true }) :
      ∃ o' ∈ m.metrics.operations,
        o.request = o'.request ∧ o.metricsTracer = o'.metricsTracer := by
    obtain ⟨j, hj⟩ := List.getElem?_of_mem ho
    obtain ⟨o', ho', hrequest, htracer, -⟩ := hset hj
    exact ⟨o', List.mem_of_getElem? ho', hrequest, htracer⟩
  constructor
  all_goals rw [hmetrics]
  · intro j o hj hrunning
    obtain ⟨o', ho', -, -, hsame⟩ := hset hj
    obtain rfl := hsame hrunning
    exact h.found j o ho' hrunning
  · intro request hsome
    obtain ⟨o', ho', hrequest⟩ := h.entry request hsome
    obtain ⟨j, hj⟩ := List.getElem?_of_mem ho'
    obtain ⟨o, ho, heq, -⟩ := hback hj
    exact ⟨o, List.mem_of_getElem? ho, heq.trans hrequest⟩
  · intro o ho
    obtain ⟨o', ho', hrequest, -⟩ := hmem ho
    rw [hrequest]
    exact h.named o' ho'
  · intro j k o o' tracer hj hk htracer htracer'
    obtain ⟨a, ha, -, hatracer, -⟩ := hset hj
    obtain ⟨b, hb, -, hbtracer, -⟩ := hset hk
    exact
      h.unshared j k a b tracer ha hb (hatracer ▸ htracer)
        (hbtracer ▸ htracer')
  · intro o ho tracer htracer
    obtain ⟨o', ho', hrequest, hsame⟩ := hmem ho
    rw [hrequest]
    exact h.started o' ho' tracer (hsame ▸ htracer)
  · intro attempt hattempt
    obtain ⟨o', ho', htracer⟩ := h.charged attempt hattempt
    obtain ⟨o, ho, -, heq⟩ := hback ho'
    exact ⟨o, ho, htracer.trans heq.symm⟩
  · rw [hdetails]
    exact h.detailed

/-- An operation completes. -/
theorem step_complete
    {now : Nat}
    (h : Owned m)
    (hstep : m.step afeEnabled (.complete i now) = some q) :
    Owned q ∧
      m.toPrivate.step afeEnabled (.complete i now) = some q.toPrivate := by
  simp only [step] at hstep
  split at hstep
  · cases hstep
  · rename_i op hi
    split at hstep
    · cases hstep
    · rename_i hrunning
      obtain rfl := Option.some.inj hstep
      rw [Bool.not_eq_true] at hrunning
      have hcomplete := complete_eq h hi
      have hdetails :=
        m.record_details (m.fullTracer op.metricsTracer) fun t =>
          t.measureOperation now
      rw [record_metrics]
      refine ⟨h.complete hi hcomplete hdetails, ?_⟩
      have hunchanged :
          (m.metrics.operations.map m.privately).modify i
              (fun o => { o with owned := o.owned.map id }) =
            m.metrics.operations.map m.privately := by
        rw [show
          (fun o : PrivateOperation => { o with owned := o.owned.map id }) = id
          from funext fun o => by rw [Option.map_id]; rfl]
        exact List.modify_id i _
      simp only [PrivateMeters.step, PrivateMeters.atTracer, toPrivate,
        List.getElem?_map, hi, Option.map_some, privately, hrunning,
        Bool.false_eq_true, if_false, Option.bind_some, hcomplete,
        Option.some.injEq, PrivateMeters.mk.injEq]
      refine ⟨?_, trivial, ?_⟩
      · rw [hunchanged, List.map_set, hdetails]
        rfl
      · cases m.fullTracer op.metricsTracer with
        | none => exact List.append_nil _
        | some t => rfl

/-- The factory is cleaned. -/
theorem step_clean
    {now : Nat}
    (h : Owned m)
    (hfresh : m.Fresh (.clean now))
    (hstep : m.step afeEnabled (.clean now) = some q) :
    Owned q ∧
      m.toPrivate.step afeEnabled (.clean now) = some q.toPrivate := by
  obtain rfl := Option.some.inj hstep
  refine ⟨?_, rfl⟩
  exact
    { h with
      found := fun i op hi hrunning => by
        have hkept :=
          (lookup_clean m.metrics now op.request).2
            (hfresh op (List.mem_of_getElem? hi) hrunning)
        exact hkept.1.trans (h.found i op hi hrunning)
      entry := fun request hsome => by
        refine h.entry request ?_
        by_cases hstale : Stale m.metrics now request
        · have hgone := ((lookup_clean m.metrics now request).1 hstale).1
          dsimp only at hsome
          rw [hgone] at hsome
          cases hsome
        · have hkept := ((lookup_clean m.metrics now request).2 hstale).1
          dsimp only at hsome
          rw [← hkept]
          exact hsome }

/-- One event of a run of operations with requests of their own. -/
theorem step_refines
    {e : MeterEvent}
    (h : Owned m)
    (hfresh : m.Fresh e)
    (hstep : m.step afeEnabled e = some q) :
    Owned q ∧ m.toPrivate.step afeEnabled e = some q.toPrivate := by
  cases e with
  | request client projectId_ requestId method formattedName now =>
      exact step_request h hfresh hstep
  | attempt i now => exact step_attempt h hstep
  | metadata j serverTiming => exact step_metadata h hstep
  | status j status now => exact step_status h hstep
  | complete i now => exact step_complete h hstep
  | clean now => exact step_clean h hfresh hstep

theorem owned_empty :
    Owned {} where
  found := fun _ _ => nofun
  entry := fun _ => nofun
  named := nofun
  unshared := fun _ _ _ _ _ => nofun
  started := nofun
  charged := nofun
  detailed := rfl

/-- A run of operations with requests of their own is one of operations with
tracers of their own. -/
theorem run_refines
    {es : List MeterEvent}
    (h : Owned m)
    (hmeets : Meets (step afeEnabled) Fresh m es)
    (hrun : run (step afeEnabled) m es = some q) :
    Owned q ∧
      run (PrivateMeters.step afeEnabled) m.toPrivate es =
        some q.toPrivate := by
  induction es generalizing m with
  | nil =>
      simp only [run_nil, Option.some.injEq] at hrun
      subst hrun
      exact ⟨h, rfl⟩
  | cons e es ih =>
      obtain ⟨t, ht, htail⟩ := run_cons_success hrun
      obtain ⟨howned, hprivate⟩ := step_refines h hmeets.1 ht
      obtain ⟨hq, hrest⟩ := ih howned (hmeets.2 t ht) htail
      refine ⟨hq, ?_⟩
      rw [run_cons, hprivate]
      exact hrest

/-- If no two operations have the same request, and none is without one, then what
the tracers measure is what they would measure if every operation had its own, as
long as the factory does not clean the entries of running operations. -/
theorem measured_privately
    (afeEnabled : Bool) (es : List MeterEvent) (m : Meters)
    (hmeets : Meets (step afeEnabled) Fresh {} es)
    (hrun : run (step afeEnabled) {} es = some m) :
    ∃ p, run (PrivateMeters.step afeEnabled) {} es = some p ∧
      p.measurements = m.measurements ∧
      p.operations = m.metrics.operations.map m.privately :=
  ⟨m.toPrivate, (run_refines owned_empty hmeets hrun).2, rfl, rfl⟩

/-- A query and a commit at the same time; the commit does not reach Google. -/
def queryAndCommit : List MeterEvent :=
  [.request .spannerClient (some "p") (some "1.0a.1.1.1.1") "executeSql"
      (some "projects/p/instances/i/databases/d/sessions/s") 10,
    .request .spannerClient (some "p") (some "1.0a.1.1.2.1") "commit"
      (some "projects/p/instances/i/databases/d/sessions/s") 11,
    .attempt 0 12, .attempt 1 13, .metadata 0 (some "gfet4t7; dur=7"),
    .status 1 .UNAVAILABLE 20, .complete 1 21, .status 0 .OK 22,
    .complete 0 23, .clean 4000000]

theorem measured_privately_queryAndCommit :
    ∃ m, run (step true) {} queryAndCommit = some m ∧
      m.measurements =
        [.attemptLatency 7 ⟨"d", "commit", "i"⟩ .UNAVAILABLE,
          .attemptCount ⟨"d", "commit", "i"⟩ .UNAVAILABLE,
          .gfeConnectivityErrorCount ⟨"d", "commit", "i"⟩ .UNAVAILABLE,
          .operationCount ⟨"d", "commit", "i"⟩ .UNAVAILABLE,
          .operationLatency 10 ⟨"d", "commit", "i"⟩ .UNAVAILABLE,
          .attemptLatency 10 ⟨"d", "executeSql", "i"⟩ .OK,
          .attemptCount ⟨"d", "executeSql", "i"⟩ .OK,
          .gfeLatency 7 ⟨"d", "executeSql", "i"⟩ .OK,
          .operationCount ⟨"d", "executeSql", "i"⟩ .OK,
          .operationLatency 13 ⟨"d", "executeSql", "i"⟩ .OK] ∧
      ∃ p, run (PrivateMeters.step true) {} queryAndCommit = some p ∧
        p.measurements = m.measurements ∧
        p.operations = m.metrics.operations.map m.privately := by
  refine ⟨_, rfl, by decide +kernel, ?_⟩
  refine measured_privately true queryAndCommit _ ?_ rfl
  refine ⟨⟨by decide +kernel, nofun⟩, fun m₁ h₁ => ?_⟩
  obtain rfl := Option.some.inj h₁
  refine ⟨⟨by decide +kernel, by decide +kernel⟩, fun m₂ h₂ => ?_⟩
  obtain rfl := Option.some.inj h₂
  refine ⟨trivial, fun m₃ h₃ => ⟨trivial, fun m₄ h₄ => ⟨trivial, fun m₅ h₅ => ?_⟩⟩⟩
  obtain rfl := Option.some.inj h₃
  obtain rfl := Option.some.inj h₄
  obtain rfl := Option.some.inj h₅
  refine ⟨trivial, fun m₆ h₆ => ⟨trivial, fun m₇ h₇ => ⟨trivial, fun m₈ h₈ => ?_⟩⟩⟩
  obtain rfl := Option.some.inj h₆
  obtain rfl := Option.some.inj h₇
  obtain rfl := Option.some.inj h₈
  refine ⟨trivial, fun m₉ h₉ => ⟨?_, fun _ _ => trivial⟩⟩
  have hcompleted : ∀ op ∈ m₉.metrics.operations, op.completed = true := by
    obtain rfl := Option.some.inj h₉
    decide +kernel
  intro op hop hrunning
  rw [hcompleted op hop] at hrunning
  cases hrunning

end Meters
end Metrics
end SpannerClient
