import SpannerClient.Machine.History
import SpannerClient.Metrics.Instruments

/-!
# How long the tracers are kept

The completion of an operation with a request id leaves its entries in the maps of
the factory; only the cleaning removes them.  The interval of the factory fires
every half hour, and not more than `late` milliseconds too late, and removes what
has not been looked up for an hour.  So the maps have no other entries than those
of the operations that were started or tried within the last hour and a half.

`TimedMeters` is the factory with the clock of the interval.  The invariant `Kept`
says of each entry when it was last touched, and that the two maps have the same
keys (`Aligned`).  The main result is `tracers_bounded`.
-/

namespace SpannerClient
namespace Metrics

open Machine

/-- The meters, with the time of the last event and of the last cleaning. -/
structure TimedMeters where
  meters : Meters := {}
  clock : Nat
  cleaned : Nat

def MeterEvent.now? : MeterEvent → Option Nat
  | .request _ _ _ _ _ now => some now
  | .attempt _ now => some now
  | .metadata _ _ => none
  | .status _ _ now => some now
  | .complete _ now => some now
  | .clean now => some now

namespace TimedMeters

/-- The time of an event. -/
def timeOf
    (s : TimedMeters) (e : MeterEvent) : Nat :=
  e.now?.getD s.clock

/-- One event, not before the last one, and not after a cleaning that is due. -/
def step
    (afeEnabled : Bool) (late : Nat)
    (s : TimedMeters) (e : MeterEvent) : Option TimedMeters :=
  if s.clock ≤ s.timeOf e ∧
      s.timeOf e ≤ s.cleaned + TRACER_CLEANUP_INTERVAL_MS + late then
    (s.meters.step afeEnabled e).map fun meters =>
      { meters := meters
        clock := s.timeOf e
        cleaned :=
          match e with
          | .clean now => now
          | _ => s.cleaned }
  else
    none

end TimedMeters

namespace Meters

/-- The requests of the operations that the event starts or tries. -/
def touches
    (m : Meters) : MeterEvent → List (String × Nat)
  | .request client projectId_ requestId _ _ now =>
      if isTraced client projectId_ then
        [(extractOperationRequest requestId, now)]
      else
        []
  | .attempt i now =>
      match m.metrics.operations[i]? with
      | none => []
      | some op => [(op.request, now)]
  | _ => []

/-- The two maps have the same keys. -/
def Aligned
    (m : Metrics) : Prop :=
  ∀ request,
    (m.lastUpdated request).isSome = (m.tracerOf request).isSome

/-- The maps are those of another state. -/
theorem maps_congr
    {m m' : Metrics}
    (h : m'.factory = m.factory) :
    (Aligned m → Aligned m') ∧
      ∀ request t, m'.lastUpdated request = some t →
        m.lastUpdated request = some t := by
  unfold Aligned lastUpdated tracerOf
  rw [h]
  exact ⟨id, fun _ _ => id⟩

/-- A touched entry is in both maps. -/
theorem aligned_insert
    {m : Metrics} {request : String} {now : Nat}
    (h : Aligned m)
    (tracers : AList fun _ : String => Nat)
    (hhere : (tracers.lookup request).isSome = true)
    (hothers :
      ∀ other, other ≠ request →
        tracers.lookup other = m.tracerOf other) :
    Aligned
      { m with
        factory :=
          { currentOperationTracers := tracers
            currentOperationLastUpdatedMs :=
              m.factory.currentOperationLastUpdatedMs.insert request now } } := by
  intro other
  by_cases heq : other = request
  · subst heq
    simp [lastUpdated, tracerOf, hhere]
  · have htime :
        (m.factory.currentOperationLastUpdatedMs.insert request now).lookup
            other = m.lastUpdated other :=
      AList.lookup_insert_ne heq
    simp only [lastUpdated, tracerOf, htime, hothers other heq]
    exact h other

/-- The time of the entry that has been updated, and those of the others. -/
theorem lookup_insert_cases
    {m : Metrics} {request other : String} {now t : Nat}
    (h :
      (m.factory.currentOperationLastUpdatedMs.insert request now).lookup
        other = some t) :
    (other, t) = (request, now) ∨ m.lastUpdated other = some t := by
  by_cases heq : other = request
  · subst heq
    rw [AList.lookup_insert] at h
    exact Or.inl (by rw [Option.some.inj h])
  · rw [AList.lookup_insert_ne heq] at h
    exact Or.inr h

/-- An operation starts: it has an entry already, or one that is touched. -/
theorem request_maps
    {m : Metrics}
    (h : Aligned m)
    (client : ClientName) (projectId_ requestId : Option String) (now : Nat) :
    Aligned (m.request client projectId_ requestId now) ∧
      ∀ other t,
        (m.request client projectId_ requestId now).lastUpdated other = some t →
          m.lastUpdated other = some t ∨
            (isTraced client projectId_ = true ∧
              (other, t) = (extractOperationRequest requestId, now)) := by
  cases htraced : isTraced client projectId_ with
  | false =>
      rw [request_untraced htraced]
      exact ⟨h, fun _ _ ht => Or.inl ht⟩
  | true =>
      cases hsome : m.tracerOf (extractOperationRequest requestId) with
      | some tracer =>
          have hfactory :
              (m.request client projectId_ requestId now).factory =
                m.factory := by
            rw [tracerOf] at hsome
            simp [Metrics.request, htraced, createMetricsTracer, hsome,
              modifyTracer, addOperation]
          obtain ⟨haligned, htimes⟩ := maps_congr hfactory
          exact ⟨haligned h, fun other t ht => Or.inl (htimes other t ht)⟩
      | none =>
          rw [request_of_none htraced hsome]
          constructor
          · exact
              aligned_insert h _ (by simp)
                (fun _ hne => AList.lookup_insert_ne hne)
          · intro other t ht
            exact (lookup_insert_cases ht).symm.imp_right fun heq => ⟨rfl, heq⟩

/-- An attempt starts, and touches the entry of its operation if there is one. -/
theorem start_maps
    {m : Metrics}
    (h : Aligned m)
    (i : Nat) (op : Operation) (now : Nat) :
    Aligned (m.start i op now) ∧
      ∀ other t, (m.start i op now).lastUpdated other = some t →
        m.lastUpdated other = some t ∨ (other, t) = (op.request, now) := by
  have hfactory :
      (m.start i op now).factory =
        (m.getCurrentTracer op.requestId now).2.factory := by
    rw [start]
    exact (modifyTracer_frame _ _ _).1
  obtain ⟨haligned, htimes⟩ := maps_congr hfactory
  cases hsome : m.tracerOf op.request with
  | none =>
      rw [getCurrentTracer_of_none hsome] at haligned htimes
      exact ⟨haligned h, fun other t ht => Or.inl (htimes other t ht)⟩
  | some tracer =>
      rw [getCurrentTracer_of_some hsome] at haligned htimes
      have hhere :
          (m.factory.currentOperationTracers.lookup op.request).isSome =
            true := by
        rw [tracerOf] at hsome
        rw [hsome]
        rfl
      refine ⟨haligned (aligned_insert h _ hhere fun _ _ => rfl), ?_⟩
      intro other t ht
      exact (lookup_insert_cases (htimes other t ht)).symm

/-- An operation completes: entries may be removed. -/
theorem complete_maps
    {m : Metrics}
    (h : Aligned m)
    (i : Nat) (op : Operation) :
    Aligned (m.complete i op) ∧
      ∀ other t, (m.complete i op).lastUpdated other = some t →
        m.lastUpdated other = some t := by
  have hclear (requestId : String) :
      Aligned (m.clearCurrentTracer requestId) ∧
        ∀ other t, (m.clearCurrentTracer requestId).lastUpdated other = some t →
          m.lastUpdated other = some t := by
    refine ⟨fun other => ?_, fun other t ht => ?_⟩
    · rw [lastUpdated_clearCurrentTracer h, tracerOf_clearCurrentTracer]
      split
      · rfl
      · exact h other
    · rw [lastUpdated_clearCurrentTracer h] at ht
      split at ht
      · cases ht
      · exact ht
  have hcompletion :
      m.recordOperationCompletion op.metricsTracer = m ∨
        ∃ requestId,
          m.recordOperationCompletion op.metricsTracer =
            m.clearCurrentTracer requestId := by
    rw [Metrics.recordOperationCompletion]
    split
    · exact Or.inl rfl
    · split
      · exact Or.inr ⟨_, rfl⟩
      · exact Or.inl rfl
  have hfactory :
      (m.complete i op).factory =
        (m.recordOperationCompletion op.metricsTracer).factory :=
    rfl
  obtain ⟨haligned, htimes⟩ := maps_congr hfactory
  rcases hcompletion with heq | ⟨requestId, heq⟩
  · rw [heq] at haligned htimes
    exact ⟨haligned h, htimes⟩
  · rw [heq] at haligned htimes
    obtain ⟨haligned', htimes'⟩ := hclear requestId
    exact
      ⟨haligned haligned', fun other t ht => htimes' other t (htimes other t ht)⟩

/-- A cleaning keeps the entries that are not stale. -/
theorem clean_maps
    {m : Metrics}
    (h : Aligned m)
    (now : Nat) :
    Aligned (m.clean now) ∧
      ∀ other t, (m.clean now).lastUpdated other = some t →
        m.lastUpdated other = some t ∧
          now < t + TRACER_CLEANUP_THRESHOLD_MS := by
  refine ⟨fun other => ?_, fun other t ht => ?_⟩
  · obtain ⟨hgone, hkept⟩ := lookup_clean m now other
    by_cases hstale : Stale m now other
    · rw [(hgone hstale).1, (hgone hstale).2]
    · rw [(hkept hstale).1, (hkept hstale).2]
      exact h other
  · obtain ⟨hgone, hkept⟩ := lookup_clean m now other
    by_cases hstale : Stale m now other
    · rw [(hgone hstale).2] at ht
      cases ht
    · rw [(hkept hstale).2] at ht
      exact ⟨ht, Nat.lt_of_not_le fun hold => hstale ⟨t, ht, hold⟩⟩

/-- What an event does to the maps: the entries are those there were, or touched by
it, and after a cleaning none is stale. -/
theorem step_maps
    {m q : Meters} {afeEnabled : Bool} {e : MeterEvent}
    (h : Aligned m.metrics)
    (hstep : m.step afeEnabled e = some q) :
    Aligned q.metrics ∧
      ∀ other t, q.metrics.lastUpdated other = some t →
        (m.metrics.lastUpdated other = some t ∧
            ∀ now, e = .clean now → now < t + TRACER_CLEANUP_THRESHOLD_MS) ∨
          (other, t) ∈ m.touches e := by
  cases e with
  | request client projectId_ requestId method formattedName now =>
      obtain rfl := Option.some.inj hstep
      obtain ⟨haligned, htimes⟩ :=
        request_maps h client projectId_ requestId now
      refine ⟨haligned, fun other t ht => ?_⟩
      rcases htimes other t ht with hold | ⟨htraced, heq⟩
      · exact Or.inl ⟨hold, fun _ => nofun⟩
      · exact Or.inr (by simp [touches, htraced, heq])
  | attempt i now =>
      obtain ⟨metrics, hmetrics, rfl⟩ := Option.map_eq_some_iff.mp hstep
      obtain ⟨op, hi, -, rfl⟩ := atOperation_some hmetrics
      obtain ⟨haligned, htimes⟩ :=
        start_maps h i op now
      refine ⟨haligned, fun other t ht => ?_⟩
      rcases htimes other t ht with hold | heq
      · exact Or.inl ⟨hold, fun _ => nofun⟩
      · exact Or.inr (by simp [touches, hi, heq])
  | metadata j serverTiming =>
      obtain ⟨attempt, hj, rfl⟩ := Option.map_eq_some_iff.mp hstep
      rw [modifyDetails_metrics]
      exact ⟨h, fun other t ht => Or.inl ⟨ht, fun _ => nofun⟩⟩
  | status j status now =>
      obtain ⟨attempt, hj, rfl⟩ := Option.map_eq_some_iff.mp hstep
      obtain ⟨haligned, htimes⟩ :=
        maps_congr
          (modifyTracer_frame m.metrics attempt.metricsTracer fun t =>
            t.recordAttemptCompletion status).1
      dsimp only
      rw [record_metrics]
      exact
        ⟨haligned h, fun other t ht =>
          Or.inl ⟨htimes other t ht, fun _ => nofun⟩⟩
  | complete i now =>
      simp only [step] at hstep
      split at hstep
      · cases hstep
      · rename_i op hi
        split at hstep
        · cases hstep
        · obtain rfl := Option.some.inj hstep
          obtain ⟨haligned, htimes⟩ := complete_maps h i op
          rw [record_metrics]
          exact
            ⟨haligned, fun other t ht =>
              Or.inl ⟨htimes other t ht, fun _ => nofun⟩⟩
  | clean now =>
      obtain rfl := Option.some.inj hstep
      obtain ⟨haligned, htimes⟩ := clean_maps h now
      refine ⟨haligned, fun other t ht => ?_⟩
      obtain ⟨hold, hnow⟩ := htimes other t ht
      refine Or.inl ⟨hold, ?_⟩
      rintro now' heq
      obtain rfl := MeterEvent.clean.inj heq
      exact hnow

end Meters

namespace TimedMeters

/-- The entries of the maps are those of requests that have been touched, less than
an hour before the last cleaning or since. -/
structure Kept
    (late : Nat) (touched : List (String × Nat)) (s : TimedMeters) : Prop where
  aligned : Meters.Aligned s.meters.metrics
  touched :
    ∀ request t, s.meters.metrics.lastUpdated request = some t →
      (request, t) ∈ touched ∧
        s.cleaned < t + TRACER_CLEANUP_THRESHOLD_MS
  ordered : s.cleaned ≤ s.clock
  due : s.clock ≤ s.cleaned + TRACER_CLEANUP_INTERVAL_MS + late

/-- What is touched, is touched at the time of the event. -/
theorem time_of_touches
    {s : TimedMeters} {e : MeterEvent} {request : String} {t : Nat}
    (h : (request, t) ∈ s.meters.touches e) :
    t = s.timeOf e ∧ ∀ now, e ≠ .clean now := by
  cases e with
  | request client projectId_ requestId method formattedName now =>
      simp only [Meters.touches] at h
      split at h
      · obtain ⟨-, rfl⟩ := Prod.mk.inj (List.mem_singleton.mp h)
        exact ⟨rfl, fun _ => nofun⟩
      · cases h
  | attempt i now =>
      simp only [Meters.touches] at h
      split at h
      · cases h
      · obtain ⟨-, rfl⟩ := Prod.mk.inj (List.mem_singleton.mp h)
        exact ⟨rfl, fun _ => nofun⟩
  | _ => cases h

/-- One event. -/
theorem step_kept
    {afeEnabled : Bool} {late : Nat}
    (touched : List (String × Nat)) (s : TimedMeters) (e : MeterEvent)
    (q : TimedMeters)
    (h : Kept late touched s)
    (hstep : s.step afeEnabled late e = some q) :
    Kept late (touched ++ s.meters.touches e) q := by
  unfold step at hstep
  split at hstep
  · rename_i htime
    obtain ⟨meters, hmeters, rfl⟩ := Option.map_eq_some_iff.mp hstep
    obtain ⟨haligned, hmaps⟩ := Meters.step_maps h.aligned hmeters
    have hordered := h.ordered
    refine
      { aligned := haligned
        touched := ?_
        ordered := ?_
        due := ?_ }
    · intro request t ht
      rcases hmaps request t ht with ⟨hold, hclean⟩ | hnew
      · obtain ⟨hmem, hage⟩ := h.touched request t hold
        refine ⟨List.mem_append_left _ hmem, ?_⟩
        cases e with
        | clean now => exact hclean now rfl
        | _ => exact hage
      · obtain ⟨htouched, hother⟩ := time_of_touches hnew
        refine ⟨List.mem_append_right _ hnew, ?_⟩
        have hage : s.cleaned < t + TRACER_CLEANUP_THRESHOLD_MS := by
          have hpos : 0 < TRACER_CLEANUP_THRESHOLD_MS := by decide
          omega
        cases e with
        | clean now => exact absurd rfl (hother now)
        | _ => exact hage
    · cases e with
      | clean now => exact Nat.le_refl _
      | _ => exact hordered.trans htime.1
    · cases e with
      | clean now =>
          exact (Nat.le_add_right _ _).trans (Nat.le_add_right _ _)
      | _ => exact htime.2
  · cases hstep

/-- The two maps of the factory have the same keys, and each of them is the request
of an operation that has been started or tried within the last hour and a half (if
the interval is punctual): what completed operations leave behind is bounded. -/
theorem tracers_bounded
    (afeEnabled : Bool) (late start : Nat)
    (es : List MeterEvent) (s : TimedMeters)
    (hrun :
      run (step afeEnabled late) { clock := start, cleaned := start } es =
        some s) :
    Meters.Aligned s.meters.metrics ∧
      ∀ request t, s.meters.metrics.lastUpdated request = some t →
        (request, t) ∈
            history (step afeEnabled late) (fun s e => s.meters.touches e)
              { clock := start, cleaned := start } es ∧
          s.clock <
            t + TRACER_CLEANUP_THRESHOLD_MS + TRACER_CLEANUP_INTERVAL_MS +
              late := by
  have hkept :
      Kept late
        (history (step afeEnabled late) (fun s e => s.meters.touches e)
          { clock := start, cleaned := start } es) s := by
    refine history_invariant step_kept ?_ hrun
    exact
      { aligned := fun _ => rfl
        touched := fun _ _ => nofun
        ordered := Nat.le_refl _
        due := (Nat.le_add_right _ _).trans (Nat.le_add_right _ _) }
  refine ⟨hkept.aligned, fun request t ht => ?_⟩
  obtain ⟨hmem, hage⟩ := hkept.touched request t ht
  have hdue := hkept.due
  exact ⟨hmem, by omega⟩

/-- The operation has completed, and its entry is there until the cleaning after
the next. -/
theorem tracers_bounded_leftBehind :
    ∃ s,
      run (step true 0) { clock := 0, cleaned := 0 }
          [.request .spannerClient (some "p") (some "1.0a.1.1.1.1") "commit"
              none 10,
            .attempt 0 20, .status 0 .OK 30, .complete 0 40, .clean 1800000] =
        some s ∧
        s.meters.metrics.lastUpdated "1.0a.1.1.1" = some 20 ∧
        Meters.Aligned s.meters.metrics ∧
        ∀ request t, s.meters.metrics.lastUpdated request = some t →
          (request, t) ∈
              history (step true 0) (fun s e => s.meters.touches e)
                { clock := 0, cleaned := 0 }
                [.request .spannerClient (some "p") (some "1.0a.1.1.1.1")
                    "commit" none 10,
                  .attempt 0 20, .status 0 .OK 30, .complete 0 40,
                  .clean 1800000] ∧
            s.clock <
              t + TRACER_CLEANUP_THRESHOLD_MS + TRACER_CLEANUP_INTERVAL_MS +
                0 := by
  refine ⟨_, rfl, by decide +kernel, ?_⟩
  exact tracers_bounded true 0 0 _ _ rfl

end TimedMeters
end Metrics
end SpannerClient
