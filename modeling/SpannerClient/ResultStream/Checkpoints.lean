import SpannerClient.ResultStream.Resume

/-!
# Servers that make every set a checkpoint

If each set carries a resume token and ends with a complete value, nothing is ever
held back by the checkpoint stream and no fragment is ever pending (`Settled`).  The
rows can then go wrong in one way only: a restart while sets of the failed stream
are still before the checkpoint stream.

The lemmas follow the events of the pipeline, first what they do to the user's stream
and then to the whole.  The main result is `rowsRight_of_checkpoints`, which demands
less of the restarts than in general: that the requests stream is empty.
-/

namespace SpannerClient
namespace ResultStream

open Machine

/-- The set carries a token, and its last value is complete. -/
def PartialResultSet.IsCheckpoint
    (chunk : PartialResultSet) : Prop :=
  chunk.hasResumeToken = true ∧ chunk.chunkedValue = false

variable {δ ρ : Type} {options : RowOptions δ ρ}

namespace PartialResultStream

/-- No fragment is kept. -/
structure Whole
    (s : PartialResultStream ρ) : Prop where
  pendingValue : s.pendingValue = none
  pendingValueForResume : s.pendingValueForResume = none

theorem addValue_whole
    {fields : List Field} {s : PartialResultStream ρ}
    (h : s.Whole) (value : Value) :
    (addValue options fields s value).1.Whole := by
  unfold addValue
  dsimp only
  split
  · exact ⟨h.pendingValue, h.pendingValueForResume⟩
  · exact ⟨h.pendingValue, h.pendingValueForResume⟩

theorem addValues_whole
    {fields : List Field} (values : List Value)
    {s : PartialResultStream ρ} (res : Bool)
    (h : s.Whole) :
    (addValues options fields s res values).1.Whole := by
  induction values generalizing s res with
  | nil => exact h
  | cons value values ih => exact ih _ (addValue_whole h value)

theorem keepPending_whole
    {s : PartialResultStream ρ} {chunk : PartialResultSet}
    (h : s.Whole) (hchunked : chunk.chunkedValue = false)
    (values : List Value) :
    (keepPending s chunk values).1.Whole := by
  rw [keepPending, hchunked]
  simp only [Bool.false_eq_true, if_false]
  split
  · exact ⟨h.pendingValue, rfl⟩
  · exact h

theorem addChunk_whole
    {s t : PartialResultStream ρ} {chunk : PartialResultSet} {res : Bool}
    (h : s.Whole) (hchunked : chunk.chunkedValue = false)
    (hadd : addChunk options s chunk = some (t, res)) :
    t.Whole := by
  have hnone : s.pending = none := by
    rw [pending, h.pendingValue]
    rfl
  rw [addChunk, mergePending, hnone] at hadd
  dsimp only at hadd
  split at hadd
  · cases hadd
  · obtain rfl := congrArg Prod.fst (Option.some.inj hadd)
    exact addValues_whole _ _ (keepPending_whole h hchunked _)

/-- A set whose last value is complete leaves no fragment. -/
theorem transform_whole
    {s : PartialResultStream ρ} {chunk : PartialResultSet}
    (h : s.Whole) (hchunked : chunk.chunkedValue = false) :
    (s.transform options chunk).Whole := by
  have hfields :
      ({ s with fields := s.fields.or chunk.metadata } :
        PartialResultStream ρ).Whole :=
    ⟨h.pendingValue, h.pendingValueForResume⟩
  rw [transform]
  dsimp only
  split
  · exact ⟨h.pendingValue, h.pendingValueForResume⟩
  · next t res hadded =>
      have ht : t.Whole := by
        split at hadded
        · obtain rfl := congrArg Prod.fst (Option.some.inj hadded)
          exact hfields
        · exact addChunk_whole hfields hchunked hadded
      split
      · exact ⟨ht.pendingValue, ht.pendingValueForResume⟩
      · exact ⟨ht.pendingValue, ht.pendingValueForResume⟩

theorem tryResume_whole
    {s : PartialResultStream ρ}
    (h : s.Whole) :
    (s.tryResume options).Whole := by
  rw [tryResume]
  dsimp only
  split
  · exact ⟨h.pendingValue, h.pendingValueForResume⟩
  · exact ⟨h.pendingValue, h.pendingValueForResume⟩

theorem resetPendingValues_whole
    {s : PartialResultStream ρ}
    (h : s.Whole) :
    s.resetPendingValues.Whole := by
  rw [resetPendingValues, h.pendingValueForResume, Option.any_none,
    if_neg Bool.false_ne_true]
  exact ⟨rfl, rfl⟩

end PartialResultStream

namespace Pipeline

variable {server : List PartialResultSet} {s : Pipeline ρ}

/-- All sets on the way are checkpoints, none is held back, and none is forwarded
without a token but by an error. -/
structure Settled
    (s : Pipeline ρ) : Prop where
  requested :
    ∀ rest, s.source = .requested rest →
      ∀ chunk ∈ rest, chunk.IsCheckpoint
  requestsStream : ∀ chunk ∈ s.requestsStream, chunk.IsCheckpoint
  forwarded : ∀ chunk ∈ s.forwarded, chunk.IsCheckpoint
  queued : s.queued = []
  overran : s.overran = true → ∃ err, s.source = .destroyed err
  userStream : s.userStream.Whole

theorem Settled.not_overran
    (h : s.Settled)
    (hsource : ∀ err, s.source ≠ .destroyed err) :
    s.overran = false := by
  refine Bool.eq_false_iff.mpr fun htrue => ?_
  obtain ⟨err, herr⟩ := h.overran htrue
  exact hsource err herr

/-- The source goes on without sending. -/
theorem Settled.source
    (h : s.Settled)
    (hsource : ∀ err, s.source ≠ .destroyed err)
    {source : Source}
    (hnext : ∀ rest, source ≠ .requested rest) :
    ({ s with source := source } : Pipeline ρ).Settled :=
  { h with
    requested := fun rest hrest => absurd hrest (hnext rest)
    overran := fun htrue => by
      rw [h.not_overran hsource] at htrue
      cases htrue }

/-- The requests are answered by sets of the server. -/
theorem mem_requestFn
    {token : Option ResumeToken} {chunk : PartialResultSet}
    (h : chunk ∈ requestFn server token) :
    chunk ∈ server := by
  cases token with
  | none => exact h
  | some token =>
      rw [requestFn] at h
      split at h
      · exact h
      · exact (List.dropWhile_sublist _).mem (List.mem_of_mem_tail h)

theorem makeRequest_settled
    (hserver : ∀ chunk ∈ server, chunk.IsCheckpoint)
    (h : s.Settled) (hoverran : s.overran = false) :
    (s.makeRequest server).Settled where
  requested := by
    intro rest hrest chunk hchunk
    obtain rfl := Source.requested.inj hrest
    exact hserver chunk (mem_requestFn hchunk)
  requestsStream := h.requestsStream
  forwarded := h.forwarded
  queued := h.queued
  overran htrue := by
    rw [makeRequest] at htrue
    rw [hoverran] at htrue
    cases htrue
  userStream := by
    rw [makeRequest]
    dsimp only
    split
    · exact PartialResultStream.resetPendingValues_whole h.userStream
    · exact h.userStream

/-- A checkpoint is forwarded at once. -/
theorem checkpoint_settled
    {overflow : Nat → Nat} {chunk : PartialResultSet}
    (h : s.Settled) (hchunk : chunk.IsCheckpoint) :
    (s.checkpoint overflow chunk).Settled := by
  rw [checkpoint, if_pos hchunk.1, h.queued]
  refine
    { requested := h.requested
      requestsStream := h.requestsStream
      forwarded := ?_
      queued := rfl
      overran := by simp
      userStream := h.userStream }
  intro c hc
  rcases List.mem_append.mp hc with hc | hc
  · exact h.forwarded c hc
  · obtain rfl := List.mem_singleton.mp hc
    exact hchunk

theorem receive_settled
    {chunk : PartialResultSet} {rest : List PartialResultSet}
    (h : s.Settled)
    (hsource : s.source = .requested (chunk :: rest)) :
    Settled
      { s with
        source := .requested rest
        requestsStream := s.requestsStream ++ [chunk] } := by
  have hrest := h.requested _ hsource
  rw [List.forall_mem_cons] at hrest
  refine
    { requested := fun r hr => Source.requested.inj hr ▸ hrest.2
      requestsStream := ?_
      forwarded := h.forwarded
      queued := h.queued
      overran := fun htrue => ?_
      userStream := h.userStream }
  · exact
      List.forall_mem_append.mpr
        ⟨h.requestsStream, List.forall_mem_singleton.mpr hrest.1⟩
  · obtain ⟨err, herr⟩ := h.overran htrue
    rw [hsource] at herr
    cases herr

/-- The checkpoint stream takes the next set. -/
theorem checkpoint_settled_of_requests
    {overflow : Nat → Nat} {chunk : PartialResultSet}
    {rest : List PartialResultSet}
    (h : s.Settled)
    (hrequests : s.requestsStream = chunk :: rest) :
    (checkpoint overflow { s with requestsStream := rest } chunk).Settled := by
  have hall := h.requestsStream
  rw [hrequests, List.forall_mem_cons] at hall
  exact
    checkpoint_settled
      { requested := h.requested
        requestsStream := hall.2
        forwarded := h.forwarded
        queued := h.queued
        overran := h.overran
        userStream := h.userStream } hall.1

theorem transform_settled
    {chunk : PartialResultSet} {rest : List PartialResultSet}
    (h : s.Settled)
    (hforwarded : s.forwarded = chunk :: rest) :
    Settled
      { s with
        forwarded := rest
        userStream := s.userStream.transform options chunk } := by
  have hall := h.forwarded
  rw [hforwarded, List.forall_mem_cons] at hall
  exact
    { requested := h.requested
      requestsStream := h.requestsStream
      forwarded := hall.2
      queued := h.queued
      overran := h.overran
      userStream :=
        PartialResultStream.transform_whole h.userStream hall.1.2 }

theorem retry_settled
    {err : ServiceError}
    (h : s.Settled)
    (hsource : s.source = .failed err)
    (timedOut : Bool) :
    (s.retry err timedOut).Settled := by
  rw [retry]
  split
  · exact h.source (by simp [hsource]) (by simp)
  · split
    · exact h.source (by simp [hsource]) (by simp)
    · exact h.source (by simp [hsource]) (by simp)

theorem destroy_settled
    (h : s.Settled) (err : ServiceError) :
    (s.destroy err).Settled := by
  refine
    { requested := by simp [destroy]
      requestsStream := h.requestsStream
      forwarded := ?_
      queued := rfl
      overran := fun _ => ⟨err, rfl⟩
      userStream :=
        ⟨h.userStream.pendingValue, h.userStream.pendingValueForResume⟩ }
  rw [destroy, h.queued, List.append_nil]
  exact h.forwarded

/-- The chunk that flushes the stream carries a token. -/
theorem flush_settled
    (h : s.Settled)
    (hsource : s.source = .ended) :
    Settled
      { s with
        source := .flushed
        requestsStream := s.requestsStream ++ [flushChunk] } := by
  have hflushed : ({ s with source := .flushed } : Pipeline ρ).Settled :=
    h.source (by simp [hsource]) (by simp)
  refine { hflushed with requestsStream := ?_ }
  exact
    List.forall_mem_append.mpr
      ⟨h.requestsStream, List.forall_mem_singleton.mpr ⟨rfl, rfl⟩⟩

/-- Every step keeps the pipeline settled. -/
theorem step_settled
    {overflow : Nat → Nat} {t : Pipeline ρ} {e : StreamEvent}
    (hserver : ∀ chunk ∈ server, chunk.IsCheckpoint)
    (h : s.Settled)
    (hstep : step options server overflow s e = some t) :
    t.Settled := by
  cases steps_of_step hstep with
  | reading hsource =>
      exact
        makeRequest_settled hserver h
          (h.not_overran fun err => by simp [hsource])
  | receive chunk rest hsource => exact receive_settled h hsource
  | checkpoint chunk rest hrequests =>
      exact checkpoint_settled_of_requests h hrequests
  | transform chunk rest hforwarded hidle => exact transform_settled h hforwarded
  | answer answers =>
      exact
        { h with
          userStream :=
            ⟨h.userStream.pendingValue, h.userStream.pendingValueForResume⟩ }
  | tryResume =>
      exact
        { h with
          userStream := PartialResultStream.tryResume_whole h.userStream }
  | fail err rest hsource => exact h.source (by simp [hsource]) (by simp)
  | retry timedOut err hsource => exact retry_settled h hsource timedOut
  | restart hsource =>
      exact
        makeRequest_settled hserver { h with queued := rfl }
          (h.not_overran fun err => by simp [hsource])
  | destroy err hsource => exact destroy_settled h err
  | sourceEnd hsource => exact h.source (by simp [hsource]) (by simp)
  | flush hsource => exact flush_settled h hsource
  | finish hsource hrequests hforwarded =>
      exact
        { h with
          userStream :=
            ⟨h.userStream.pendingValue, h.userStream.pendingValueForResume⟩ }

theorem settled_initial :
    ({} : Pipeline ρ).Settled where
  requested := nofun
  requestsStream := nofun
  forwarded := nofun
  queued := rfl
  overran := nofun
  userStream := ⟨rfl, rfl⟩

/-- A settled pipeline restarts cleanly if nothing of the failed stream is left. -/
theorem Settled.restartsCleanly
    (h : s.Settled)
    (hsource : ∀ err, s.source ≠ .destroyed err)
    (hrequests : s.requestsStream = []) :
    s.RestartsCleanly where
  requestsStream := hrequests
  overran := h.not_overran hsource
  pending := by
    intro _
    rw [h.userStream.pendingValueForResume, PartialResultStream.pending,
      h.userStream.pendingValue]

/--
If every set of the server is a checkpoint, each row is delivered exactly once
along every run in which no request is sent again while sets of the failed one
wait before the checkpoint stream; nothing else has to be asked of the restarts.
-/
theorem rowsRight_of_checkpoints
    (options : RowOptions δ ρ) (overflow : Nat → Nat)
    (fields : List Field) (rows : List (List Value))
    (server : List PartialResultSet) (es : List StreamEvent)
    (hserves : Serves fields rows server)
    (hserver : ∀ chunk ∈ server, chunk.IsCheckpoint)
    (hdrained :
      Meets (step options server overflow)
        (fun s e => e = .restart → s.requestsStream = []) {} es) :
    Always (step options server overflow)
      (fun s => s.RowsRight options fields rows) {} es := by
  have hresumable :=
    always_of_meets
      (I := fun s => s.Settled ∧ Resumable options fields rows server s)
      (fun s e t h hG hstep => by
        refine ⟨step_settled hserver h.1 hstep, ?_⟩
        refine step_resumable hserves h.2 (fun he => ?_) hstep
        refine h.1.restartsCleanly (fun err herr => ?_) (hG he)
        rw [he] at hstep
        simp [step, herr] at hstep)
      ⟨settled_initial, resumable_initial hserves⟩ hdrained
  intro before hbefore s hrun
  exact (hresumable before hbefore s hrun).2.rowsRight hserves

end Pipeline

/-- Both sets of two rows carry a token. -/
theorem rowsRight_of_checkpoints_idle :
    Always (step stringRows twoRows id)
        (fun s =>
          s.RowsRight stringRows oneColumn
            [[.string "x"], [.string "y"]])
        {} failsWhileIdle ∧
      ∃ s,
        run (step stringRows twoRows id) {} failsWhileIdle = some s ∧
          s.userStream.rows = [["x"], ["y"]] := by
  refine
    ⟨Pipeline.rowsRight_of_checkpoints stringRows id oneColumn _ twoRows
      failsWhileIdle serves_twoRows ?_ ?_, _, rfl, rfl⟩
  · intro chunk hchunk
    simp only [twoRows, List.mem_cons, List.not_mem_nil, or_false] at hchunk
    rcases hchunk with rfl | rfl <;> exact ⟨rfl, rfl⟩
  · iterate 6 refine meets_of_step (fun heq => by cases heq) rfl ?_
    refine meets_of_step (fun _ => rfl) rfl ?_
    iterate 3 refine meets_of_step (fun heq => by cases heq) rfl ?_
    exact meets_nil _ _ _

end ResultStream
end SpannerClient
