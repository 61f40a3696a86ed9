import SpannerClient.Machine.Containers
import SpannerClient.Metrics.Basic

/-!
# Isolation of the tracers

Every running operation should find its own tracer, and its completion should
remove the entry of that tracer (`Isolated`, `RemovesOwn`).  A tracer is cleared by
the request id it was given, but it is given the one that is already without its
attempt number: what is removed is the entry of the calls without a request id.

So the tracers are isolated exactly in the runs in which no traced operation with
a request id completes and no operation starts while another has its entry
(`Undisturbing`), which is the main result, `isolated_iff_undisturbing`.  The
invariant of these runs is `Tracked`, with one lemma for each function of the
factory; a step that is disturbing breaks the isolation at once (`step_disturbs`).
-/

namespace SpannerClient
namespace Metrics

open Machine

/-- The request id of an operation, without its attempt number. -/
def Operation.request
    (op : Operation) : String :=
  extractOperationRequest op.requestId

/-- The tracer in the map of the factory. -/
def tracerOf
    (m : Metrics) (request : String) : Option Nat :=
  m.factory.currentOperationTracers.lookup request

/-- The time in the map of the factory. -/
def lastUpdated
    (m : Metrics) (request : String) : Option Nat :=
  m.factory.currentOperationLastUpdatedMs.lookup request

/-- Every operation has its own tracer, which is kept as long as it runs. -/
structure Isolated
    (m : Metrics) : Prop where
  /-- A running operation finds its own tracer. -/
  found :
    ∀ (i : Nat) op now, m.operations[i]? = some op → op.completed = false →
      (m.getCurrentTracer op.requestId now).1 = op.metricsTracer
  unshared :
    ∀ (i j : Nat) op op' tracer,
      m.operations[i]? = some op → m.operations[j]? = some op' →
        op.metricsTracer = some tracer → op'.metricsTracer = some tracer →
          i = j
  /-- The attempts have found the tracers of their operations. -/
  charged :
    ∀ attempt ∈ m.attempts, ∃ op,
      m.operations[attempt.operation]? = some op ∧
      attempt.metricsTracer = op.metricsTracer
  emptied :
    (∀ op ∈ m.operations, op.completed = true) →
      m.factory.currentOperationTracers = ∅ ∧
      m.factory.currentOperationLastUpdatedMs = ∅

/-- The completion of an operation removes the entry of its tracer from both maps,
and nothing else. -/
structure RemovesOwn
    (m : Metrics) (e : Event) (m' : Metrics) : Prop where
  own :
    ∀ i op tracer request, e = .complete i → m.operations[i]? = some op →
      op.metricsTracer = some tracer → m.tracerOf request = some tracer →
        m'.tracerOf request = none ∧ m'.lastUpdated request = none
  others :
    ∀ i op request, e = .complete i → m.operations[i]? = some op →
      (∀ tracer, op.metricsTracer = some tracer →
        m.tracerOf request ≠ some tracer) →
        m'.tracerOf request = m.tracerOf request ∧
        m'.lastUpdated request = m.lastUpdated request

/-- The event disturbs no other operation: none that starts has the request of a
running one, unless neither is traced, and none that completes and is traced has
a request id. -/
def Undisturbing
    (m : Metrics) : Event → Prop
  | .request client projectId_ requestId _ =>
      ∀ op ∈ m.operations, op.completed = false →
        op.request = extractOperationRequest requestId →
          op.metricsTracer = none ∧ isTraced client projectId_ = false
  | .complete i =>
      ∀ op, m.operations[i]? = some op → op.metricsTracer.isSome = true →
        op.request = ""
  | _ => True

/-! ## The request without its attempt number -/

theorem not_mem_of_isDigits
    {cs : List Char}
    (h : isDigits cs = true) :
    '.' ∉ cs := by
  intro hmem
  obtain ⟨-, hall⟩ :
      cs.isEmpty = false ∧ ∀ c ∈ cs, c.isDigit = true := by
    simpa [isDigits] using h
  have hdot := hall '.' hmem
  revert hdot
  decide

theorem not_mem_of_isAlphanumeric
    {cs : List Char}
    (h : isAlphanumeric cs = true) :
    '.' ∉ cs := by
  intro hmem
  obtain ⟨-, hall⟩ :
      cs.isEmpty = false ∧ ∀ c ∈ cs, c.isAlphanum = true := by
    simpa [isAlphanumeric] using h
  have hdot := hall '.' hmem
  revert hdot
  decide

/-- What has been matched is not matched again: it has one part less. -/
theorem matchOperationRequest_again
    {requestId request : List Char}
    (h : matchOperationRequest requestId = some request) :
    matchOperationRequest request = none := by
  unfold matchOperationRequest at h
  split at h
  · rename_i version process client channel request attempt _
    split at h
    · rename_i hparts
      obtain rfl := Option.some.inj h
      simp only [Bool.and_eq_true] at hparts
      obtain ⟨⟨⟨⟨⟨hversion, hprocess⟩, hclient⟩, hchannel⟩, hrequest⟩, -⟩ :=
        hparts
      have hdots :
          ∀ cs ∈ [version, process, client, channel, request],
            '.' ∉ cs := by
        simp [not_mem_of_isDigits hversion,
          not_mem_of_isAlphanumeric hprocess, not_mem_of_isDigits hclient,
          not_mem_of_isDigits hchannel, not_mem_of_isDigits hrequest]
      rw [matchOperationRequest,
        List.splitOn_intercalate '.' hdots (by simp)]
    · cases h
  · cases h

/-- Extracting twice extracts nothing. -/
theorem extractOperationRequest_again
    (requestId : Option String) :
    extractOperationRequest (some (extractOperationRequest requestId)) =
      "" := by
  have hempty : extractOperationRequest (some "") = "" := by
    simp [extractOperationRequest]
  cases requestId with
  | none => exact hempty
  | some requestId =>
      by_cases hne : requestId = ""
      · rw [hne, hempty]
        exact hempty
      · cases hmatch : matchOperationRequest requestId.toList with
        | none => simp [extractOperationRequest, hne, hmatch]
        | some request =>
            have hagain := matchOperationRequest_again hmatch
            simp [extractOperationRequest, hne, hmatch, hagain]

/-! ## What the functions do to the maps -/

section Maps

variable {m : Metrics} {tracer : Nat}

theorem getCurrentTracer_of_none
    {requestId : Option String}
    (hnone : m.tracerOf (extractOperationRequest requestId) = none)
    (now : Nat) :
    m.getCurrentTracer requestId now = (none, m) := by
  rw [tracerOf] at hnone
  simp [getCurrentTracer, hnone]

theorem getCurrentTracer_of_some
    {requestId : Option String}
    (hsome : m.tracerOf (extractOperationRequest requestId) = some tracer)
    (now : Nat) :
    m.getCurrentTracer requestId now =
      (some tracer,
        { m with
          factory :=
            { m.factory with
              currentOperationLastUpdatedMs :=
                m.factory.currentOperationLastUpdatedMs.insert
                  (extractOperationRequest requestId) now } }) := by
  rw [tracerOf] at hsome
  simp [getCurrentTracer, hsome]

theorem clearCurrentTracer_of_none
    {requestId : String}
    (hnone : m.tracerOf (extractOperationRequest (some requestId)) = none) :
    m.clearCurrentTracer requestId = m := by
  rw [tracerOf] at hnone
  simp [clearCurrentTracer, hnone]

theorem clearCurrentTracer_of_some
    {requestId : String}
    (hsome :
      m.tracerOf (extractOperationRequest (some requestId)) = some tracer) :
    m.clearCurrentTracer requestId =
      { m with
        factory :=
          { currentOperationTracers :=
              m.factory.currentOperationTracers.erase
                (extractOperationRequest (some requestId))
            currentOperationLastUpdatedMs :=
              m.factory.currentOperationLastUpdatedMs.erase
                (extractOperationRequest (some requestId)) } } := by
  rw [tracerOf] at hsome
  simp [clearCurrentTracer, hsome]

end Maps

theorem getCurrentTracer_fst
    (m : Metrics) (requestId : Option String) (now : Nat) :
    (m.getCurrentTracer requestId now).1 =
      m.tracerOf (extractOperationRequest requestId) := by
  cases hlookup : m.tracerOf (extractOperationRequest requestId) with
  | none => rw [getCurrentTracer_of_none hlookup]
  | some tracer => rw [getCurrentTracer_of_some hlookup]

/-- Looking a tracer up changes nothing but the time of its entry. -/
theorem getCurrentTracer_snd
    (m : Metrics) (requestId : Option String) (now : Nat) :
    let m' := (m.getCurrentTracer requestId now).2
    m'.operations = m.operations ∧ m'.tracers = m.tracers ∧
      m'.attempts = m.attempts ∧
      (∀ request, m'.tracerOf request = m.tracerOf request) ∧
      ∀ request, m'.lastUpdated request = m.lastUpdated request ∨
        (m.tracerOf request).isSome = true ∧
          (m'.lastUpdated request).isSome = true := by
  cases hlookup : m.tracerOf (extractOperationRequest requestId) with
  | none =>
      rw [getCurrentTracer_of_none hlookup]
      exact ⟨rfl, rfl, rfl, fun _ => rfl, fun _ => Or.inl rfl⟩
  | some tracer =>
      rw [getCurrentTracer_of_some hlookup]
      refine ⟨rfl, rfl, rfl, fun _ => rfl, fun request => ?_⟩
      by_cases heq : request = extractOperationRequest requestId
      · subst heq
        exact Or.inr ⟨by rw [hlookup]; rfl, by simp [lastUpdated]⟩
      · exact Or.inl (AList.lookup_insert_ne heq)

/-- Clearing removes the entry of the request without its attempt number. -/
theorem tracerOf_clearCurrentTracer
    (m : Metrics) (requestId request : String) :
    (m.clearCurrentTracer requestId).tracerOf request =
      if request = extractOperationRequest (some requestId) then none
      else m.tracerOf request := by
  cases hlookup : m.tracerOf (extractOperationRequest (some requestId)) with
  | none =>
      rw [clearCurrentTracer_of_none hlookup]
      split
      · rename_i heq
        rw [heq, hlookup]
      · rfl
  | some tracer =>
      rw [clearCurrentTracer_of_some hlookup]
      split
      · rename_i heq
        rw [heq]
        exact AList.lookup_erase _ _
      · rename_i hne
        exact AList.lookup_erase_ne hne

theorem lastUpdated_clearCurrentTracer
    {m : Metrics}
    (hupdated :
      ∀ request,
        (m.lastUpdated request).isSome = (m.tracerOf request).isSome)
    (requestId request : String) :
    (m.clearCurrentTracer requestId).lastUpdated request =
      if request = extractOperationRequest (some requestId) then none
      else m.lastUpdated request := by
  cases hlookup : m.tracerOf (extractOperationRequest (some requestId)) with
  | none =>
      rw [clearCurrentTracer_of_none hlookup]
      split
      · rename_i heq
        have hsame := hupdated request
        rw [heq, hlookup] at hsame
        rw [heq]
        simpa using hsame
      · rfl
  | some tracer =>
      rw [clearCurrentTracer_of_some hlookup]
      split
      · rename_i heq
        rw [heq]
        exact AList.lookup_erase _ _
      · rename_i hne
        exact AList.lookup_erase_ne hne

@[simp] theorem clearCurrentTracer_frame
    (m : Metrics) (requestId : String) :
    (m.clearCurrentTracer requestId).operations = m.operations ∧
      (m.clearCurrentTracer requestId).tracers = m.tracers ∧
      (m.clearCurrentTracer requestId).attempts = m.attempts := by
  cases hlookup : m.tracerOf (extractOperationRequest (some requestId)) with
  | none =>
      rw [clearCurrentTracer_of_none hlookup]
      exact ⟨rfl, rfl, rfl⟩
  | some tracer =>
      rw [clearCurrentTracer_of_some hlookup]
      exact ⟨rfl, rfl, rfl⟩

/-- The change of a tracer keeps its request, and that it has been started. -/
def KeepsStarted
    (f : MetricsTracer → MetricsTracer) : Prop :=
  ∀ t, (f t).request = t.request ∧
    (t.currentOperation.isSome = true →
      (f t).currentOperation.isSome = true)

theorem modifyTracer_frame
    (m : Metrics) (tracer : Option Nat) (f : MetricsTracer → MetricsTracer) :
    (m.modifyTracer tracer f).factory = m.factory ∧
      (m.modifyTracer tracer f).operations = m.operations ∧
      (m.modifyTracer tracer f).attempts = m.attempts := by
  cases tracer <;> exact ⟨rfl, rfl, rfl⟩

theorem modifyTracer_tracers
    {m : Metrics} {tracer : Option Nat} {f : MetricsTracer → MetricsTracer}
    (hf : KeepsStarted f)
    {k : Nat} {t : MetricsTracer}
    (ht : m.tracers[k]? = some t) :
    ∃ t', (m.modifyTracer tracer f).tracers[k]? = some t' ∧
      t'.request = t.request ∧
      (t.currentOperation.isSome = true →
        t'.currentOperation.isSome = true) := by
  cases tracer with
  | none => exact ⟨t, ht, rfl, fun h => h⟩
  | some tracer =>
      simp only [modifyTracer, List.getElem?_modify, ht]
      by_cases heq : tracer = k
      · exact ⟨f t, by simp [heq], (hf t).1, (hf t).2⟩
      · exact ⟨t, by simp [heq], rfl, fun h => h⟩

theorem recordAttemptStart_keeps
    (now : Nat) :
    KeepsStarted fun t => t.recordAttemptStart now := by
  intro t
  simp [MetricsTracer.recordAttemptStart]

theorem recordAttemptCompletion_keeps
    (status : Status) :
    KeepsStarted fun t => t.recordAttemptCompletion status := by
  intro t
  simp [MetricsTracer.recordAttemptCompletion]

/-! ## The invariant of the undisturbed runs -/

/-- The map has an entry for every running operation with a tracer, and no
others. -/
structure Tracked
    (m : Metrics) : Prop where
  found :
    ∀ (i : Nat) op, m.operations[i]? = some op → op.completed = false →
      m.tracerOf op.request = op.metricsTracer
  entry :
    ∀ request tracer, m.tracerOf request = some tracer →
      ∃ (i : Nat) (op : Operation),
        m.operations[i]? = some op ∧ op.completed = false ∧
        op.metricsTracer = some tracer ∧ op.request = request
  unshared :
    ∀ (i j : Nat) op op' tracer,
      m.operations[i]? = some op → m.operations[j]? = some op' →
        op.metricsTracer = some tracer → op'.metricsTracer = some tracer →
          i = j
  started :
    ∀ (i : Nat) op tracer, m.operations[i]? = some op →
      op.metricsTracer = some tracer →
        ∃ t, m.tracers[tracer]? = some t ∧ t.request = op.request ∧
          t.currentOperation.isSome = true
  charged :
    ∀ attempt ∈ m.attempts, ∃ op,
      m.operations[attempt.operation]? = some op ∧
      attempt.metricsTracer = op.metricsTracer
  updated :
    ∀ request,
      (m.lastUpdated request).isSome = (m.tracerOf request).isSome

variable {m m' : Metrics}

theorem Tracked.isolated
    (h : Tracked m) :
    Isolated m where
  found := by
    intro i op now hi hrunning
    rw [getCurrentTracer_fst]
    exact h.found i op hi hrunning
  unshared := h.unshared
  charged := h.charged
  emptied := by
    intro hall
    have htracers : ∀ request, m.tracerOf request = none := by
      intro request
      cases hsome : m.tracerOf request with
      | none => rfl
      | some tracer =>
          obtain ⟨i, op, hi, hrunning, -⟩ := h.entry request tracer hsome
          rw [hall op (List.mem_of_getElem? hi)] at hrunning
          cases hrunning
    have htimes : ∀ request, m.lastUpdated request = none := by
      intro request
      have hsame := h.updated request
      rw [htracers request] at hsame
      simpa using hsame
    exact ⟨eq_empty_of_lookup htracers, eq_empty_of_lookup htimes⟩

/-- The invariant does not look at more of the tracers and of the times. -/
theorem Tracked.of_same
    (h : Tracked m)
    (hoperations : m'.operations = m.operations)
    (htracerOf : ∀ request, m'.tracerOf request = m.tracerOf request)
    (hupdated :
      ∀ request,
        (m'.lastUpdated request).isSome = (m.lastUpdated request).isSome)
    (htracers :
      ∀ (k : Nat) t, m.tracers[k]? = some t →
        ∃ t', m'.tracers[k]? = some t' ∧ t'.request = t.request ∧
          (t.currentOperation.isSome = true →
            t'.currentOperation.isSome = true))
    (hattempts :
      ∀ attempt ∈ m'.attempts, attempt ∈ m.attempts ∨
        ∃ op, m.operations[attempt.operation]? = some op ∧
          attempt.metricsTracer = op.metricsTracer) :
    Tracked m' where
  found := by
    intro i op hi hrunning
    rw [htracerOf]
    exact h.found i op (hoperations ▸ hi) hrunning
  entry := by
    intro request tracer hsome
    rw [htracerOf] at hsome
    rw [hoperations]
    exact h.entry request tracer hsome
  unshared := by
    rw [hoperations]
    exact h.unshared
  started := by
    intro i op tracer hi htracer
    obtain ⟨t, ht, hrequest, hstarted⟩ :=
      h.started i op tracer (hoperations ▸ hi) htracer
    obtain ⟨t', ht', hrequest', hstarted'⟩ := htracers tracer t ht
    exact ⟨t', ht', hrequest'.trans hrequest, hstarted' hstarted⟩
  charged := by
    intro attempt hattempt
    rw [hoperations]
    rcases hattempts attempt hattempt with hold | hnew
    · exact h.charged attempt hold
    · exact hnew
  updated := by
    intro request
    rw [hupdated, htracerOf]
    exact h.updated request

theorem Tracked.modifyTracer
    (h : Tracked m)
    (tracer : Option Nat)
    {f : MetricsTracer → MetricsTracer}
    (hf : KeepsStarted f) :
    Tracked (m.modifyTracer tracer f) := by
  obtain ⟨hfactory, hoperations, hattempts⟩ := modifyTracer_frame m tracer f
  refine h.of_same hoperations ?_ ?_ ?_ ?_
  · intro request
    rw [tracerOf, hfactory, tracerOf]
  · intro request
    rw [lastUpdated, hfactory, lastUpdated]
  · intro k t ht
    exact modifyTracer_tracers hf ht
  · intro attempt hattempt
    rw [hattempts] at hattempt
    exact Or.inl hattempt

theorem Tracked.getCurrentTracer
    (h : Tracked m)
    (requestId : Option String) (now : Nat) :
    Tracked (m.getCurrentTracer requestId now).2 := by
  obtain ⟨hoperations, htracers, hattempts, htracerOf, hlastUpdated⟩ :=
    getCurrentTracer_snd m requestId now
  refine h.of_same hoperations htracerOf ?_ ?_ ?_
  · intro request
    rcases hlastUpdated request with heq | ⟨hentry, hsome⟩
    · rw [heq]
    · rw [hsome, h.updated request, hentry]
  · intro k t ht
    exact ⟨t, htracers.symm ▸ ht, rfl, fun hstarted => hstarted⟩
  · intro attempt hattempt
    exact Or.inl (hattempts ▸ hattempt)

/-- An attempt with the tracer of its operation. -/
theorem Tracked.addAttempt
    (h : Tracked m)
    {i : Nat} {op : Operation}
    (hi : m.operations[i]? = some op) :
    Tracked { m with attempts := m.attempts ++ [⟨i, op.metricsTracer⟩] } := by
  refine
    h.of_same rfl (fun _ => rfl) (fun _ => rfl)
      (fun k t ht => ⟨t, ht, rfl, fun hstarted => hstarted⟩) ?_
  intro attempt hattempt
  rcases List.mem_append.mp hattempt with hold | hnew
  · exact Or.inl hold
  · obtain rfl := List.mem_singleton.mp hnew
    exact Or.inr ⟨op, hi, rfl⟩

/-- An attempt finds the tracer of its operation. -/
theorem Tracked.start
    (h : Tracked m)
    {i : Nat} {op : Operation}
    (hi : m.operations[i]? = some op)
    (hrunning : op.completed = false)
    (now : Nat) :
    Tracked (m.start i op now) := by
  have hfst := getCurrentTracer_fst m op.requestId now
  have hoperations := (getCurrentTracer_snd m op.requestId now).1
  have hlooked := h.getCurrentTracer op.requestId now
  rw [Metrics.start]
  generalize m.getCurrentTracer op.requestId now = found at *
  obtain ⟨tracer, q⟩ := found
  obtain rfl : tracer = op.metricsTracer :=
    hfst.trans (h.found i op hi hrunning)
  have hframe :=
    modifyTracer_frame q op.metricsTracer fun t => t.recordAttemptStart now
  refine
    (hlooked.modifyTracer op.metricsTracer
      (recordAttemptStart_keeps now)).addAttempt ?_
  rw [hframe.2.1]
  exact hoperations ▸ hi

/-! ## An operation starts -/

/-- A traced operation with a request that is not in the map gets a tracer of its
own. -/
theorem request_of_none
    {client : ClientName} {projectId_ : Option String}
    (htraced : isTraced client projectId_ = true)
    {requestId : Option String}
    (hnone : m.tracerOf (extractOperationRequest requestId) = none)
    (now : Nat) :
    m.request client projectId_ requestId now =
      { m with
        tracers :=
          m.tracers ++
            [{ currentOperation := some { startTime := now }
               request := extractOperationRequest requestId }]
        factory :=
          { currentOperationTracers :=
              m.factory.currentOperationTracers.insert
                (extractOperationRequest requestId) m.tracers.length
            currentOperationLastUpdatedMs :=
              m.factory.currentOperationLastUpdatedMs.insert
                (extractOperationRequest requestId) now }
        operations :=
          m.operations ++ [⟨requestId, some m.tracers.length, false⟩] } := by
  rw [tracerOf] at hnone
  simp [Metrics.request, htraced, createMetricsTracer, hnone, modifyTracer,
    addOperation, MetricsTracer.recordOperationStart, modify_length_snoc]

/-- A traced operation with a request that is in the map gets the tracer of
another. -/
theorem request_of_some
    {client : ClientName} {projectId_ : Option String}
    (htraced : isTraced client projectId_ = true)
    {requestId : Option String} {tracer : Nat}
    (hsome :
      m.tracerOf (extractOperationRequest requestId) = some tracer)
    (now : Nat) :
    (m.request client projectId_ requestId now).operations =
      m.operations ++ [⟨requestId, some tracer, false⟩] := by
  rw [tracerOf] at hsome
  simp [Metrics.request, htraced, createMetricsTracer, hsome, modifyTracer,
    addOperation]

theorem request_untraced
    {client : ClientName} {projectId_ : Option String}
    (htraced : isTraced client projectId_ = false)
    (requestId : Option String) (now : Nat) :
    m.request client projectId_ requestId now =
      m.addOperation requestId none := by
  simp [Metrics.request, htraced]

/-- An operation without a tracer starts, and its request is not in the map. -/
theorem Tracked.addOperation
    (h : Tracked m)
    {requestId : Option String}
    (hnone : m.tracerOf (extractOperationRequest requestId) = none) :
    Tracked (m.addOperation requestId none) where
  found := by
    intro i op hi hrunning
    rcases getElem?_snoc_some hi with ⟨-, rfl⟩ | ⟨-, hi⟩
    · exact hnone
    · exact h.found i op hi hrunning
  entry := by
    intro request tracer hsome
    obtain ⟨i, op, hi, hop⟩ := h.entry request tracer hsome
    exact ⟨i, op, getElem?_snoc_of_some hi _, hop⟩
  unshared := by
    intro i j op op' tracer hi hj htracer htracer'
    rcases getElem?_snoc_some hi with ⟨-, rfl⟩ | ⟨-, hi⟩
    · cases htracer
    · rcases getElem?_snoc_some hj with ⟨-, rfl⟩ | ⟨-, hj⟩
      · cases htracer'
      · exact h.unshared i j op op' tracer hi hj htracer htracer'
  started := by
    intro i op tracer hi htracer
    rcases getElem?_snoc_some hi with ⟨-, rfl⟩ | ⟨-, hi⟩
    · cases htracer
    · exact h.started i op tracer hi htracer
  charged := by
    intro attempt hattempt
    obtain ⟨op, hop, htracer⟩ := h.charged attempt hattempt
    exact ⟨op, getElem?_snoc_of_some hop _, htracer⟩
  updated := h.updated

/-- An operation with a tracer starts, and its request is not in the map. -/
theorem Tracked.request
    (h : Tracked m)
    {client : ClientName} {projectId_ : Option String}
    (htraced : isTraced client projectId_ = true)
    {requestId : Option String}
    (hother :
      ∀ op ∈ m.operations, op.completed = false →
        op.request ≠ extractOperationRequest requestId)
    (hnone : m.tracerOf (extractOperationRequest requestId) = none)
    (now : Nat) :
    Tracked (m.request client projectId_ requestId now) := by
  rw [request_of_none htraced hnone now]
  have hnew :
      ∀ (i : Nat) op, m.operations[i]? = some op →
        op.metricsTracer ≠ some m.tracers.length := by
    intro i op hi heq
    obtain ⟨t, ht, -⟩ := h.started i op _ hi heq
    have hlt := (List.getElem?_eq_some_iff.mp ht).1
    omega
  refine ⟨?_, ?_, ?_, ?_, ?_, ?_⟩
  · intro i op hi hrunning
    rcases getElem?_snoc_some hi with ⟨-, rfl⟩ | ⟨-, hi⟩
    · exact AList.lookup_insert _
    · have hne := hother op (List.mem_of_getElem? hi) hrunning
      exact (AList.lookup_insert_ne hne).trans (h.found i op hi hrunning)
  · intro request tracer hsome
    rcases lookup_insert_some hsome with ⟨rfl, rfl⟩ | ⟨-, hsome⟩
    · exact
        ⟨m.operations.length, _, List.getElem?_concat_length, rfl, rfl, rfl⟩
    · obtain ⟨i, op, hi, hop⟩ := h.entry request tracer hsome
      exact ⟨i, op, getElem?_snoc_of_some hi _, hop⟩
  · intro i j op op' tracer hi hj htracer htracer'
    rcases getElem?_snoc_some hi with ⟨rfl, rfl⟩ | ⟨-, hi⟩
    · rcases getElem?_snoc_some hj with ⟨rfl, -⟩ | ⟨-, hj⟩
      · rfl
      · exact absurd (htracer'.trans htracer.symm) (hnew j op' hj)
    · rcases getElem?_snoc_some hj with ⟨rfl, rfl⟩ | ⟨-, hj⟩
      · exact absurd (htracer.trans htracer'.symm) (hnew i op hi)
      · exact h.unshared i j op op' tracer hi hj htracer htracer'
  · intro i op tracer hi htracer
    rcases getElem?_snoc_some hi with ⟨-, rfl⟩ | ⟨-, hi⟩
    · obtain rfl := Option.some.inj htracer
      exact ⟨_, List.getElem?_concat_length, rfl, rfl⟩
    · obtain ⟨t, ht, hrest⟩ := h.started i op tracer hi htracer
      exact ⟨t, getElem?_snoc_of_some ht _, hrest⟩
  · intro attempt hattempt
    obtain ⟨op, hop, htracer⟩ := h.charged attempt hattempt
    exact ⟨op, getElem?_snoc_of_some hop _, htracer⟩
  · intro request
    rw [lastUpdated, tracerOf]
    dsimp only
    by_cases heq : request = extractOperationRequest requestId
    · subst heq
      rw [AList.lookup_insert, AList.lookup_insert]
      rfl
    · rw [AList.lookup_insert_ne heq, AList.lookup_insert_ne heq]
      exact h.updated request

/-! ## An operation completes -/

/-- Completing an operation with a tracer clears the entry of the empty request. -/
theorem Tracked.recordOperationCompletion
    (h : Tracked m)
    {i : Nat} {op : Operation} {tracer : Nat}
    (hi : m.operations[i]? = some op)
    (htracer : op.metricsTracer = some tracer) :
    m.recordOperationCompletion op.metricsTracer =
      m.clearCurrentTracer op.request := by
  obtain ⟨t, ht, hrequest, hstarted⟩ := h.started i op tracer hi htracer
  simp [Metrics.recordOperationCompletion, htracer, ht, hstarted, hrequest]

/-- The maps after the completion of an operation with a tracer. -/
theorem Tracked.complete_maps
    (h : Tracked m)
    {i : Nat} {op : Operation} {tracer : Nat}
    (hi : m.operations[i]? = some op)
    (htracer : op.metricsTracer = some tracer)
    (request : String) :
    (m.complete i op).tracerOf request =
        (if request = "" then none else m.tracerOf request) ∧
      (m.complete i op).lastUpdated request =
        (if request = "" then none else m.lastUpdated request) := by
  have hagain := extractOperationRequest_again op.requestId
  have hcomplete := h.recordOperationCompletion hi htracer
  constructor
  · have hcleared := tracerOf_clearCurrentTracer m op.request request
    rw [Operation.request, hagain] at hcleared
    rw [← hcleared]
    rw [complete, tracerOf]
    rw [hcomplete]
    rfl
  · have hcleared :=
      lastUpdated_clearCurrentTracer h.updated op.request request
    rw [Operation.request, hagain] at hcleared
    rw [← hcleared]
    rw [complete, lastUpdated]
    rw [hcomplete]
    rfl

theorem complete_untraced
    {i : Nat} {op : Operation}
    (hnone : op.metricsTracer = none) :
    m.complete i op =
      { m with
        operations := m.operations.set i { op with completed := true } } := by
  simp [Metrics.complete, Metrics.recordOperationCompletion, hnone]

/-- The rest of the state after a completion. -/
theorem complete_frame
    (m : Metrics) (i : Nat) (op : Operation) :
    (m.complete i op).operations =
        m.operations.set i { op with completed := true } ∧
      (m.complete i op).tracers = m.tracers ∧
      (m.complete i op).attempts = m.attempts := by
  refine ⟨rfl, ?_, ?_⟩
  all_goals
    rw [complete, Metrics.recordOperationCompletion]
    dsimp only
    split
    · rfl
    · split
      · simp
      · rfl

/-- A completed operation is one of the others, or the one that is completed. -/
theorem getElem?_complete
    {i j : Nat} {op op' : Operation}
    (hi : m.operations[i]? = some op)
    (hj : (m.operations.set i { op with completed := true })[j]? = some op') :
    ∃ q, m.operations[j]? = some q ∧ op'.requestId = q.requestId ∧
      op'.metricsTracer = q.metricsTracer ∧
      (op'.completed = false → j ≠ i ∧ op' = q) := by
  rcases getElem?_set_some hj with ⟨rfl, rfl⟩ | ⟨hne, hj⟩
  · exact ⟨op, hi, rfl, rfl, fun hrunning => by cases hrunning⟩
  · exact ⟨op', hj, rfl, rfl, fun _ => ⟨hne, rfl⟩⟩

/-- The invariant, as long as the maps keep what the running operations need. -/
theorem Tracked.complete
    (h : Tracked m)
    {i : Nat} {op : Operation}
    (hi : m.operations[i]? = some op)
    (hfound :
      ∀ (j : Nat) op', m.operations[j]? = some op' → j ≠ i →
        op'.completed = false →
          (m.complete i op).tracerOf op'.request = m.tracerOf op'.request)
    (hentry :
      ∀ request tracer, (m.complete i op).tracerOf request = some tracer →
        m.tracerOf request = some tracer ∧
        op.metricsTracer ≠ some tracer)
    (hupdated :
      ∀ request,
        ((m.complete i op).lastUpdated request).isSome =
          ((m.complete i op).tracerOf request).isSome) :
    Tracked (m.complete i op) := by
  obtain ⟨hoperations, htracers, hattempts⟩ := complete_frame m i op
  refine ⟨?_, ?_, ?_, ?_, ?_, hupdated⟩
  · intro j op' hj hrunning
    rw [hoperations] at hj
    obtain ⟨q, hq, -, -, hsame⟩ := getElem?_complete hi hj
    obtain ⟨hne, rfl⟩ := hsame hrunning
    rw [hfound j op' hq hne hrunning]
    exact h.found j op' hq hrunning
  · intro request tracer hsome
    obtain ⟨hsome, hother⟩ := hentry request tracer hsome
    obtain ⟨j, op', hj, hrunning, htracer, hrequest⟩ :=
      h.entry request tracer hsome
    have hne : i ≠ j := by
      rintro rfl
      obtain rfl := Option.some.inj (hi.symm.trans hj)
      exact hother htracer
    refine ⟨j, op', ?_, hrunning, htracer, hrequest⟩
    rw [hoperations, List.getElem?_set_ne hne]
    exact hj
  · intro j k op' op'' tracer hj hk htracer htracer'
    rw [hoperations] at hj hk
    obtain ⟨q, hq, -, hsame, -⟩ := getElem?_complete hi hj
    obtain ⟨q', hq', -, hsame', -⟩ := getElem?_complete hi hk
    exact
      h.unshared j k q q' tracer hq hq' (hsame ▸ htracer)
        (hsame' ▸ htracer')
  · intro j op' tracer hj htracer
    rw [hoperations] at hj
    obtain ⟨q, hq, hrequest, hsame, -⟩ := getElem?_complete hi hj
    obtain ⟨t, ht, hof, hstarted⟩ :=
      h.started j q tracer hq (hsame ▸ htracer)
    rw [htracers]
    exact
      ⟨t, ht, hof.trans (congrArg extractOperationRequest hrequest.symm),
        hstarted⟩
  · intro attempt hattempt
    rw [hattempts] at hattempt
    obtain ⟨q, hq, htracer⟩ := h.charged attempt hattempt
    rw [hoperations]
    by_cases heq : i = attempt.operation
    · subst heq
      obtain rfl := Option.some.inj (hi.symm.trans hq)
      have hlt := (List.getElem?_eq_some_iff.mp hi).1
      exact ⟨_, List.getElem?_set_self hlt, htracer⟩
    · exact ⟨q, by rw [List.getElem?_set_ne heq, hq], htracer⟩

/-- What the completion of the operation should remove, without the event. -/
theorem removesOwn_complete
    {i : Nat} {op : Operation}
    (hi : m.operations[i]? = some op)
    (hown :
      ∀ tracer request, op.metricsTracer = some tracer →
        m.tracerOf request = some tracer →
          m'.tracerOf request = none ∧ m'.lastUpdated request = none)
    (hothers :
      ∀ request,
        (∀ tracer, op.metricsTracer = some tracer →
          m.tracerOf request ≠ some tracer) →
          m'.tracerOf request = m.tracerOf request ∧
          m'.lastUpdated request = m.lastUpdated request) :
    RemovesOwn m (.complete i) m' where
  own := by
    intro j op' tracer request heq hj
    obtain rfl := Event.complete.inj heq
    obtain rfl := Option.some.inj (hi.symm.trans hj)
    exact hown tracer request
  others := by
    intro j op' request heq hj
    obtain rfl := Event.complete.inj heq
    obtain rfl := Option.some.inj (hi.symm.trans hj)
    exact hothers request

/-- Completing an operation without a tracer leaves the maps as they are. -/
theorem Tracked.complete_untraced
    (h : Tracked m)
    {i : Nat} {op : Operation}
    (hi : m.operations[i]? = some op)
    (hnone : op.metricsTracer = none) :
    Tracked (m.complete i op) ∧
      RemovesOwn m (.complete i) (m.complete i op) := by
  have hcomplete := Metrics.complete_untraced (m := m) (i := i) hnone
  have htracerOf :
      ∀ request,
        (m.complete i op).tracerOf request = m.tracerOf request := by
    rw [hcomplete]
    exact fun _ => rfl
  have hlastUpdated :
      ∀ request,
        (m.complete i op).lastUpdated request = m.lastUpdated request := by
    rw [hcomplete]
    exact fun _ => rfl
  constructor
  · refine h.complete hi (fun _ _ _ _ _ => htracerOf _) ?_ ?_
    · intro request tracer hsome
      rw [htracerOf] at hsome
      exact ⟨hsome, by simp [hnone]⟩
    · intro request
      rw [htracerOf, hlastUpdated]
      exact h.updated request
  · refine removesOwn_complete hi ?_ ?_
    · intro tracer request hown
      rw [hnone] at hown
      cases hown
    · intro request _
      exact ⟨htracerOf request, hlastUpdated request⟩

section WithoutId

variable
  {i : Nat} {op : Operation} {tracer : Nat}
  (hi : m.operations[i]? = some op)
  (htracer : op.metricsTracer = some tracer)
  (hrequest : op.request = "")

include hi htracer hrequest

/-- The only entry of the tracer of an operation without a request id is that of
the empty request. -/
theorem Tracked.eq_empty_of_entry
    (h : Tracked m)
    {request : String}
    (hentry : m.tracerOf request = some tracer) :
    request = "" := by
  obtain ⟨j, op', hj, -, htracer', hrequest'⟩ :=
    h.entry request tracer hentry
  obtain rfl := h.unshared j i op' op tracer hj hi htracer' htracer
  obtain rfl := Option.some.inj (hi.symm.trans hj)
  exact hrequest'.symm.trans hrequest

theorem Tracked.complete_withoutId
    (h : Tracked m)
    (hrunning : op.completed = false) :
    Tracked (m.complete i op) := by
  have hmaps := h.complete_maps hi htracer
  have hfound : m.tracerOf "" = some tracer := by
    rw [← hrequest, h.found i op hi hrunning, htracer]
  refine h.complete hi ?_ ?_ ?_
  · intro j op' hj hne hrunning'
    rw [(hmaps op'.request).1, if_neg]
    intro hempty'
    -- both would have the tracer of the empty request
    have hfound' := h.found j op' hj hrunning'
    rw [hempty', hfound] at hfound'
    exact hne (h.unshared j i op' op tracer hj hi hfound'.symm htracer)
  · intro request tracer' hsome
    rw [(hmaps request).1] at hsome
    split at hsome
    · cases hsome
    · rename_i hne
      refine ⟨hsome, ?_⟩
      intro heq
      obtain rfl := Option.some.inj (htracer.symm.trans heq)
      exact hne (h.eq_empty_of_entry hi htracer hrequest hsome)
  · intro request
    rw [(hmaps request).1, (hmaps request).2]
    split
    · rfl
    · exact h.updated request

theorem Tracked.removesOwn_withoutId
    (h : Tracked m)
    (hrunning : op.completed = false) :
    RemovesOwn m (.complete i) (m.complete i op) := by
  have hmaps := h.complete_maps hi htracer
  have hfound : m.tracerOf "" = some tracer := by
    rw [← hrequest, h.found i op hi hrunning, htracer]
  refine removesOwn_complete hi ?_ ?_
  · intro tracer' request hown hentry
    obtain rfl := Option.some.inj (htracer.symm.trans hown)
    have hempty := h.eq_empty_of_entry hi htracer hrequest hentry
    rw [(hmaps request).1, (hmaps request).2]
    exact ⟨if_pos hempty, if_pos hempty⟩
  · intro request hother
    have hne : request ≠ "" := by
      rintro rfl
      exact hother tracer htracer hfound
    rw [(hmaps request).1, (hmaps request).2, if_neg hne, if_neg hne]
    exact ⟨rfl, rfl⟩

end WithoutId

/-- Completing an operation whose request is empty, or that has no tracer. -/
theorem Tracked.complete_undisturbing
    (h : Tracked m)
    {i : Nat} {op : Operation}
    (hi : m.operations[i]? = some op)
    (hrunning : op.completed = false)
    (hempty : op.metricsTracer.isSome = true → op.request = "") :
    Tracked (m.complete i op) ∧
      RemovesOwn m (.complete i) (m.complete i op) := by
  cases htracer : op.metricsTracer with
  | none => exact h.complete_untraced hi htracer
  | some tracer =>
      have hrequest := hempty (by simp [htracer])
      exact
        ⟨h.complete_withoutId hi htracer hrequest hrunning,
          h.removesOwn_withoutId hi htracer hrequest hrunning⟩

/-! ## Runs -/

theorem atOperation_some
    {i : Nat} {f : Operation → Metrics}
    (h : m.atOperation i f = some m') :
    ∃ op, m.operations[i]? = some op ∧ op.completed = false ∧ f op = m' := by
  unfold atOperation at h
  split at h
  · cases h
  · rename_i op hi
    split at h
    · cases h
    · rename_i hrunning
      exact ⟨op, hi, by simpa using hrunning, Option.some.inj h⟩

/-- An event that is not a completion removes nothing of its own. -/
theorem removesOwn_of_ne
    {e : Event}
    (hne : ∀ i, e ≠ .complete i) :
    RemovesOwn m e m' where
  own := fun i _ _ _ heq => absurd heq (hne i)
  others := fun i _ _ heq => absurd heq (hne i)

/-- A request that no running operation has is not in the map. -/
theorem Tracked.none_of_other
    (h : Tracked m)
    {request : String}
    (hother :
      ∀ op ∈ m.operations, op.completed = false → op.request = request →
        op.metricsTracer = none) :
    m.tracerOf request = none := by
  cases hsome : m.tracerOf request with
  | none => rfl
  | some tracer =>
      obtain ⟨i, op, hi, hrunning, htracer, hrequest⟩ :=
        h.entry request tracer hsome
      have hnone := hother op (List.mem_of_getElem? hi) hrunning hrequest
      rw [htracer] at hnone
      cases hnone

/-- The undisturbing events keep the invariant and remove what they should. -/
theorem step_tracked
    {e : Event}
    (h : Tracked m)
    (hundisturbing : Undisturbing m e)
    (hstep : step m e = some m') :
    Tracked m' ∧ Isolated m' ∧ RemovesOwn m e m' := by
  have hquiet :
      Tracked m' → (∀ i, e ≠ .complete i) →
        Tracked m' ∧ Isolated m' ∧ RemovesOwn m e m' :=
    fun ht hne => ⟨ht, ht.isolated, removesOwn_of_ne hne⟩
  cases e with
  | request client projectId_ requestId now =>
      obtain rfl := Option.some.inj hstep
      refine hquiet ?_ (fun _ heq => by cases heq)
      have hnone :=
        h.none_of_other fun op hop hrunning hrequest =>
          (hundisturbing op hop hrunning hrequest).1
      cases htraced : isTraced client projectId_ with
      | true =>
          refine h.request htraced ?_ hnone now
          intro op hop hrunning hrequest
          have huntraced := (hundisturbing op hop hrunning hrequest).2
          rw [htraced] at huntraced
          cases huntraced
      | false =>
          rw [request_untraced htraced]
          exact h.addOperation hnone
  | attempt i now =>
      obtain ⟨op, hi, hrunning, rfl⟩ := atOperation_some hstep
      exact hquiet (h.start hi hrunning now) (fun _ heq => by cases heq)
  | status j status =>
      obtain ⟨attempt, -, rfl⟩ := Option.map_eq_some_iff.mp hstep
      have ht :=
        h.modifyTracer attempt.metricsTracer
          (recordAttemptCompletion_keeps status)
      exact hquiet ht (fun _ heq => by cases heq)
  | complete i =>
      obtain ⟨op, hi, hrunning, rfl⟩ := atOperation_some hstep
      obtain ⟨ht, hremoves⟩ :=
        h.complete_undisturbing hi hrunning (hundisturbing op hi)
      exact ⟨ht, ht.isolated, hremoves⟩

/-- An operation that starts with the request of a running one is not isolated
from it. -/
theorem request_disturbs
    (h : Tracked m)
    {client : ClientName} {projectId_ requestId : Option String} {now : Nat}
    (hdisturbing :
      ¬Undisturbing m (.request client projectId_ requestId now)) :
    ¬Isolated (m.request client projectId_ requestId now) := by
  intro hisolated
  simp only [Undisturbing, not_forall] at hdisturbing
  obtain ⟨op, hop, hrunning, hrequest, hnot⟩ := hdisturbing
  obtain ⟨i, hi⟩ := List.getElem?_of_mem hop
  have hlt := (List.getElem?_eq_some_iff.mp hi).1
  have hfound := h.found i op hi hrunning
  rw [hrequest] at hfound
  cases htraced : isTraced client projectId_ with
  | false =>
      -- the new operation finds the tracer of the other
      rw [request_untraced htraced] at hisolated
      have hnew :=
        hisolated.found m.operations.length _ now
          List.getElem?_concat_length rfl
      rw [getCurrentTracer_fst] at hnew
      exact hnot ⟨hfound.symm.trans hnew, htraced⟩
  | true =>
      cases htracer : op.metricsTracer with
      | none =>
          -- the other operation finds the new tracer
          rw [htracer] at hfound
          rw [request_of_none htraced hfound now] at hisolated
          have hother :=
            hisolated.found i op now (getElem?_snoc_of_some hi _) hrunning
          rw [getCurrentTracer_fst] at hother
          change AList.lookup op.request _ = _ at hother
          rw [hrequest, AList.lookup_insert, htracer] at hother
          cases hother
      | some tracer =>
          -- both have the tracer of the other
          rw [htracer] at hfound
          have hoperations := request_of_some htraced hfound now
          have hsame :=
            hisolated.unshared i m.operations.length op _ tracer
              (by rw [hoperations, getElem?_snoc_of_some hi])
              (by rw [hoperations, List.getElem?_concat_length]) htracer rfl
          omega

/-- An operation with a request id leaves its entry behind. -/
theorem complete_disturbs
    (h : Tracked m)
    {i : Nat} {op : Operation}
    (hi : m.operations[i]? = some op)
    (hrunning : op.completed = false)
    (hdisturbing : ¬Undisturbing m (.complete i)) :
    ¬RemovesOwn m (.complete i) (m.complete i op) := by
  intro hremoves
  simp only [Undisturbing, not_forall] at hdisturbing
  obtain ⟨op', hi', hsome, hne⟩ := hdisturbing
  obtain rfl := Option.some.inj (hi.symm.trans hi')
  obtain ⟨tracer, htracer⟩ := Option.isSome_iff_exists.mp hsome
  have hfound := (h.found i op hi hrunning).trans htracer
  have hremoved := (hremoves.own i op tracer _ rfl hi htracer hfound).1
  rw [(h.complete_maps hi htracer op.request).1, if_neg hne, hfound] at hremoved
  cases hremoved

/-- The other events disturb the operations. -/
theorem step_disturbs
    {e : Event}
    (h : Tracked m)
    (hdisturbing : ¬Undisturbing m e)
    (hstep : step m e = some m') :
    ¬(Isolated m' ∧ RemovesOwn m e m') := by
  cases e with
  | request client projectId_ requestId now =>
      obtain rfl := Option.some.inj hstep
      exact fun hboth => request_disturbs h hdisturbing hboth.1
  | attempt i now => exact absurd trivial hdisturbing
  | status j status => exact absurd trivial hdisturbing
  | complete i =>
      obtain ⟨op, hi, hrunning, rfl⟩ := atOperation_some hstep
      exact fun hboth =>
        complete_disturbs h hi hrunning hdisturbing hboth.2

theorem new_tracked :
    Tracked ({} : Metrics) where
  found := fun _ _ hi => by cases hi
  entry := fun _ _ hsome => by cases hsome
  unshared := fun _ _ _ _ _ hi => by cases hi
  started := fun _ _ _ hi => by cases hi
  charged := fun _ hattempt => by cases hattempt
  updated := fun _ => rfl

/-- The tracers are isolated exactly in the runs whose events disturb nothing. -/
theorem isolated_iff_undisturbing
    (es : List Event) (m : Metrics)
    (hrun : run step {} es = some m) :
    Throughout step (fun s e t => Isolated t ∧ RemovesOwn s e t) {} es ↔
      Meets step Undisturbing {} es := by
  refine
    throughout_iff_meets (I := fun _ => True) (J := Tracked)
      (fun _ _ _ _ _ => trivial) ?_ ?_ trivial new_tracked hrun
  · intro s e t _ h hundisturbing hstep
    obtain ⟨ht, hisolated, hremoves⟩ := step_tracked h hundisturbing hstep
    exact ⟨ht, hisolated, hremoves⟩
  · intro s e t _ h hdisturbing hstep
    exact step_disturbs h hdisturbing hstep

/-- A query with a request id, with one attempt. -/
def queryWithId : List Event :=
  [.request .spannerClient (some "my-project") (some "1.0a1b2c3d.1.1.1.1") 10,
    .attempt 0 20, .status 0 .OK, .complete 0]

/-- No two operations have the same request id. -/
def DistinctIds
    (m : Metrics) : Prop :=
  ∀ (i j : Nat) op op', m.operations[i]? = some op →
    m.operations[j]? = some op' → op.requestId.isSome = true →
      op.requestId = op'.requestId → i = j

/-- After its completion the tracer is still in the map. -/
theorem queryWithId_not_isolated :
    ¬∀ (es : List Event) (m : Metrics), run step {} es = some m →
        DistinctIds m → Isolated m := by
  intro h
  obtain ⟨m, hrun, hlength, hall, htracer⟩ :
      ∃ m, run step {} queryWithId = some m ∧
        m.operations.length = 1 ∧
        (∀ op ∈ m.operations, op.completed = true) ∧
        m.tracerOf "1.0a1b2c3d.1.1.1" = some 0 :=
    ⟨_, rfl, rfl, by decide, by decide⟩
  have hdistinct : DistinctIds m := by
    intro i j op op' hi hj _ _
    have hlt := (List.getElem?_eq_some_iff.mp hi).1
    have hlt' := (List.getElem?_eq_some_iff.mp hj).1
    omega
  have hempty := (h queryWithId m hrun hdistinct).emptied hall
  rw [tracerOf, hempty.1] at htracer
  cases htracer

/-- A call without a request id, next to one that is not traced. -/
theorem isolated_iff_undisturbing_withoutId :
    ∃ m : Metrics,
      run step {}
          [.request .spannerClient (some "my-project") none 10,
            .request .databaseAdminClient none (some "1.0a1b2c3d.1.1.1.1") 11,
            .attempt 1 12, .attempt 0 13, .complete 0] = some m ∧
        (Throughout step (fun s e t => Isolated t ∧ RemovesOwn s e t) {}
            [.request .spannerClient (some "my-project") none 10,
              .request .databaseAdminClient none (some "1.0a1b2c3d.1.1.1.1")
                11,
              .attempt 1 12, .attempt 0 13, .complete 0] ↔
          Meets step Undisturbing {}
            [.request .spannerClient (some "my-project") none 10,
              .request .databaseAdminClient none (some "1.0a1b2c3d.1.1.1.1")
                11,
              .attempt 1 12, .attempt 0 13, .complete 0]) :=
  ⟨_, rfl, isolated_iff_undisturbing _ _ rfl⟩

end Metrics
end SpannerClient
