import Mathlib.Data.List.Basic
import SpannerClient.ServiceError

/-!
# Streams of the database and their retries

`runStream` and `batchWriteAtLeastOnce` give the caller a proxy stream and pipe
the data stream of the request into it.  If the session is not found before any
data has come they call themselves again and pipe the public stream of that call
into the proxy: this forwards data and the end, and nothing else.  So after a
retry the events 'response' and 'stats' and the error of the last attempt are
not shown, and `run`, which waits for an end or an error, never calls back.

The model has the emissions of the data streams of all attempts as a list, what is
shown to the caller of each, and the callback of `run`.  The main result is
`transparent_iff`: the retries are transparent exactly when there are none or the
last attempt ends without anything but data.
-/

namespace SpannerClient
namespace Database

variable {ρ μ τ : Type}

/-- What a data stream emits before its end: rows or responses, the event
'response' with the metadata of the response if it has any, the event 'stats'. -/
inductive Emission (ρ μ τ : Type) where
  | data (row : ρ)
  | response (metadata : Option μ)
  | stats (stats : τ)
deriving DecidableEq

def Emission.isData : Emission ρ μ τ → Bool
  | .data _ => true
  | _ => false

/-- A data stream: what it emits and the error it then fails with, if it does. -/
structure DataStream (ρ μ τ : Type) where
  body : List (Emission ρ μ τ)
  err : Option ServiceError
deriving DecidableEq

/-- An attempt: the error of `getSession`, or the stream of the request. -/
abbrev Attempt (ρ μ τ : Type) :=
  Except ServiceError (DataStream ρ μ τ)

/-- The attempt whose session is not found. -/
def failed
    (error : ServiceError) : Attempt ρ μ τ :=
  .ok ⟨[], some error⟩

/-- What a public stream shows. -/
inductive Shown (ρ μ τ : Type) where
  | emission (e : Emission ρ μ τ)
  | «end»
  | error (error : ServiceError)
deriving DecidableEq

/-- `pipe` forwards the event. -/
def Shown.isPiped : Shown ρ μ τ → Bool
  | .emission e => e.isData
  | .end => true
  | .error _ => false

@[simp] theorem isPiped_emission
    (e : Emission ρ μ τ) :
    (Shown.emission e).isPiped = e.isData := by
  rfl

@[simp] theorem isPiped_end :
    (Shown.end : Shown ρ μ τ).isPiped = true := by
  rfl

@[simp] theorem isPiped_error
    (error : ServiceError) :
    (Shown.error error : Shown ρ μ τ).isPiped = false := by
  rfl

/-- `dataStream.pipe(proxyStream)`, for a stream with no other listeners. -/
def pipe
    (shown : List (Shown ρ μ τ)) : List (Shown ρ μ τ) :=
  shown.filter Shown.isPiped

/-- The listeners of `runStream`; `again` is what the proxy shows after a
retry. -/
def runStreamListeners
    (isMultiplexedEnabled : Bool) (again : List (Shown ρ μ τ))
    (err : Option ServiceError) :
    Bool → List (Emission ρ μ τ) → List (Shown ρ μ τ)
  | dataReceived, [] =>
      match err with
      | none => [.end]
      | some error =>
          if !dataReceived && isSessionNotFoundError (some error) &&
              !isMultiplexedEnabled then
            again
          else
            [.error error]
  | dataReceived, e :: es =>
      .emission e ::
        runStreamListeners isMultiplexedEnabled again err
          (dataReceived || e.isData) es

/-- What the stream of `runStream` shows, given its attempts. -/
def runStreamShows
    (isMultiplexedEnabled : Bool) :
    List (Attempt ρ μ τ) → List (Shown ρ μ τ)
  | [] => []
  | .error error :: _ => [.error error]
  | .ok dataStream :: attempts =>
      runStreamListeners isMultiplexedEnabled
        (pipe (runStreamShows isMultiplexedEnabled attempts))
        dataStream.err false dataStream.body

/-- The listeners of `batchWriteAtLeastOnce`: only data is forwarded. -/
def batchWriteListeners
    (again : List (Shown ρ μ τ)) (err : Option ServiceError) :
    Bool → List (Emission ρ μ τ) → List (Shown ρ μ τ)
  | dataReceived, [] =>
      match err with
      | none => [.end]
      | some error =>
          if !dataReceived && isSessionNotFoundError (some error) then
            again
          else
            [.error error]
  | dataReceived, e :: es =>
      if e.isData then
        .emission e :: batchWriteListeners again err true es
      else
        batchWriteListeners again err dataReceived es

/-- What the stream of `batchWriteAtLeastOnce` shows, given its attempts. -/
def batchWriteShows : List (Attempt ρ μ τ) → List (Shown ρ μ τ)
  | [] => []
  | .error error :: _ => [.error error]
  | .ok dataStream :: attempts =>
      batchWriteListeners (pipe (batchWriteShows attempts))
        dataStream.err false dataStream.body

/-- The arguments of the callback of `run`. -/
structure RunCall (ρ μ τ : Type) where
  err : Option ServiceError
  rows : List ρ
  stats : Option τ
  metadata : Option μ
deriving DecidableEq

/-- The variables of `run` and the calls of its callback. -/
structure RunState (ρ μ τ : Type) where
  rows : List ρ := []
  stats : Option τ := none
  metadata : Option μ := none
  calls : List (RunCall ρ μ τ) := []

namespace RunState

def callback
    (s : RunState ρ μ τ) (err : Option ServiceError) : RunState ρ μ τ :=
  { s with calls := s.calls ++ [⟨err, s.rows, s.stats, s.metadata⟩] }

/-- The listeners of `run`. -/
def onEmission
    (s : RunState ρ μ τ) : Emission ρ μ τ → RunState ρ μ τ
  | .data row => { s with rows := s.rows ++ [row] }
  | .response (some metadata) => { s with metadata := some metadata }
  | .response none => s
  | .stats stats => { s with stats := some stats }

def on
    (s : RunState ρ μ τ) : Shown ρ μ τ → RunState ρ μ τ
  | .emission e => s.onEmission e
  | .end => s.callback none
  | .error error => s.callback (some error)

end RunState

/-- The calls of the callback of `run`, given the attempts of its stream. -/
def runCalls
    (isMultiplexedEnabled : Bool) (attempts : List (Attempt ρ μ τ)) :
    List (RunCall ρ μ τ) :=
  ((runStreamShows isMultiplexedEnabled attempts).foldl RunState.on {}).calls

/-- The attempt is followed by another one: no data, and the session was not
found. -/
def retried
    (isMultiplexedEnabled : Bool) : Attempt ρ μ τ → Bool
  | .error _ => false
  | .ok dataStream =>
      !dataStream.body.any Emission.isData && dataStream.err.isSome &&
        isSessionNotFoundError dataStream.err && !isMultiplexedEnabled

/-- The end or the error of a stream. -/
def terminal : Option ServiceError → Shown ρ μ τ
  | none => .end
  | some error => .error error

/-- The last attempt as it is: everything it emits, and one end or error. -/
def Attempt.shows : Attempt ρ μ τ → List (Shown ρ μ τ)
  | .error error => [.error error]
  | .ok dataStream =>
      dataStream.body.map Shown.emission ++ [terminal dataStream.err]

/-- The rows or responses of the last attempt, and one end or error. -/
def Attempt.showsData : Attempt ρ μ τ → List (Shown ρ μ τ)
  | .error error => [.error error]
  | .ok dataStream =>
      (dataStream.body.filter Emission.isData).map Shown.emission ++
        [terminal dataStream.err]

/-- The one call of the callback that the last attempt comes to. -/
def Attempt.call : Attempt ρ μ τ → RunCall ρ μ τ
  | .error error => ⟨some error, [], none, none⟩
  | .ok dataStream =>
      let s := dataStream.body.foldl RunState.onEmission {}
      ⟨dataStream.err, s.rows, s.stats, s.metadata⟩

/-- The stream ends, having emitted data only. -/
def Attempt.emitsData : Attempt ρ μ τ → Bool
  | .error _ => false
  | .ok dataStream =>
      dataStream.err.isNone && dataStream.body.all Emission.isData

/-- The stream ends, with no stats and no metadata. -/
def Attempt.emitsRows : Attempt ρ μ τ → Bool
  | .error _ => false
  | .ok dataStream =>
      dataStream.err.isNone &&
        dataStream.body.all fun
          | .data _ => true
          | .response metadata => metadata.isNone
          | .stats _ => false

/-- The stream ends. -/
def Attempt.ends : Attempt ρ μ τ → Bool
  | .error _ => false
  | .ok dataStream => dataStream.err.isNone

@[simp] theorem pipe_pipe
    (shown : List (Shown ρ μ τ)) :
    pipe (pipe shown) = pipe shown := by
  simp [pipe]

/-- `pipe` drops nothing exactly when there is nothing to drop. -/
theorem pipe_eq_self
    {shown : List (Shown ρ μ τ)} :
    pipe shown = shown ↔ ∀ x ∈ shown, x.isPiped = true :=
  List.filter_eq_self

/-- Piping the public stream of every further call into that of the one before
it is piping once. -/
theorem retries_pipe
    {shows : List (Attempt ρ μ τ) → List (Shown ρ μ τ)}
    {failures : List ServiceError}
    (hne : failures ≠ [])
    (hretry :
      ∀ e ∈ failures, ∀ attempts,
        shows (failed e :: attempts) = pipe (shows attempts))
    (final : Attempt ρ μ τ) :
    shows (failures.map failed ++ [final]) = pipe (shows [final]) := by
  induction failures with
  | nil =>
      exact absurd rfl hne
  | cons e es ih =>
      rw [List.map_cons, List.cons_append, hretry e List.mem_cons_self]
      cases es with
      | nil => rfl
      | cons e' es =>
          rw [ih (by simp) fun a ha => hretry a (List.mem_cons_of_mem _ ha),
            pipe_pipe]

section RunStream

variable {isMultiplexedEnabled : Bool}

/-- A stream that is not retried shows itself. -/
theorem runStreamListeners_shows
    (again : List (Shown ρ μ τ)) (err : Option ServiceError)
    (body : List (Emission ρ μ τ)) (dataReceived : Bool)
    (h :
      err.isSome = true → isSessionNotFoundError err = true →
        isMultiplexedEnabled = false →
          (dataReceived || body.any Emission.isData) = true) :
    runStreamListeners isMultiplexedEnabled again err dataReceived body =
      body.map Shown.emission ++ [terminal err] := by
  induction body generalizing dataReceived with
  | nil =>
      cases err with
      | none => rfl
      | some error =>
          simp only [runStreamListeners, List.map_nil, List.nil_append]
          rw [if_neg]
          · rfl
          · intro hretry
            simp only [Bool.and_eq_true, Bool.not_eq_true'] at hretry
            have hreceived := h rfl hretry.1.2 hretry.2
            simp [hretry.1.1] at hreceived
  | cons e es ih =>
      rw [runStreamListeners, ih]
      · rfl
      · intro hsome hnotFound henabled
        simpa [Bool.or_assoc] using h hsome hnotFound henabled

theorem runStreamShows_last
    (final : Attempt ρ μ τ)
    (hfinal : retried isMultiplexedEnabled final = false) :
    runStreamShows isMultiplexedEnabled [final] = final.shows := by
  cases final with
  | error error => rfl
  | ok dataStream =>
      refine runStreamListeners_shows _ _ _ _ ?_
      intro hsome hnotFound henabled
      simpa [retried, hsome, hnotFound, henabled] using hfinal

/-- After a retry only what `pipe` forwards is shown, however many there are. -/
theorem runStreamShows_retried
    {failures : List ServiceError}
    (hne : failures ≠ [])
    (hfailures :
      ∀ e ∈ failures, isSessionNotFoundError (some e) = true)
    (henabled : isMultiplexedEnabled = false)
    (final : Attempt ρ μ τ) :
    runStreamShows isMultiplexedEnabled (failures.map failed ++ [final]) =
      pipe (runStreamShows isMultiplexedEnabled [final]) := by
  refine retries_pipe hne ?_ final
  intro e he attempts
  simp [failed, runStreamShows, runStreamListeners, hfailures e he,
    henabled]

end RunStream

section BatchWrite

theorem batchWriteListeners_shows
    (again : List (Shown ρ μ τ)) (err : Option ServiceError)
    (body : List (Emission ρ μ τ)) (dataReceived : Bool)
    (h :
      err.isSome = true → isSessionNotFoundError err = true →
        (dataReceived || body.any Emission.isData) = true) :
    batchWriteListeners again err dataReceived body =
      (body.filter Emission.isData).map Shown.emission ++
        [terminal err] := by
  induction body generalizing dataReceived with
  | nil =>
      cases err with
      | none => rfl
      | some error =>
          simp only [batchWriteListeners, List.filter_nil, List.map_nil,
            List.nil_append]
          rw [if_neg]
          · rfl
          · intro hretry
            simp only [Bool.and_eq_true, Bool.not_eq_true'] at hretry
            have hreceived := h rfl hretry.2
            simp [hretry.1] at hreceived
  | cons e es ih =>
      rw [batchWriteListeners]
      cases hdata : e.isData with
      | true =>
          simp only [if_true]
          rw [ih true fun _ _ => rfl, List.filter_cons_of_pos hdata]
          rfl
      | false =>
          simp only [Bool.false_eq_true, if_false]
          rw [ih, List.filter_cons_of_neg (by simp [hdata])]
          intro hsome hnotFound
          simpa [hdata] using h hsome hnotFound

theorem batchWriteShows_last
    (final : Attempt ρ μ τ)
    (hfinal : retried false final = false) :
    batchWriteShows [final] = final.showsData := by
  cases final with
  | error error => rfl
  | ok dataStream =>
      refine batchWriteListeners_shows _ _ _ _ ?_
      intro hsome hnotFound
      simpa [retried, hsome, hnotFound] using hfinal

theorem batchWriteShows_retried
    {failures : List ServiceError}
    (hne : failures ≠ [])
    (hfailures :
      ∀ e ∈ failures, isSessionNotFoundError (some e) = true)
    (final : Attempt ρ μ τ) :
    batchWriteShows (failures.map failed ++ [final]) =
      pipe (batchWriteShows [final]) := by
  refine retries_pipe hne ?_ final
  intro e he attempts
  simp [failed, batchWriteShows, batchWriteListeners, hfailures e he]

end BatchWrite

@[simp] theorem isPiped_terminal
    (err : Option ServiceError) :
    (terminal (ρ := ρ) (μ := μ) (τ := τ) err).isPiped = err.isNone := by
  cases err <;> rfl

theorem pipe_shows_iff
    (final : Attempt ρ μ τ) :
    pipe final.shows = final.shows ↔ final.emitsData = true := by
  rw [pipe_eq_self]
  cases final with
  | error error =>
      simp [Attempt.shows, Attempt.emitsData]
  | ok dataStream =>
      simp [Attempt.shows, Attempt.emitsData, or_imp, forall_and, and_comm]

theorem pipe_showsData_iff
    (final : Attempt ρ μ τ) :
    pipe final.showsData = final.showsData ↔ final.ends = true := by
  rw [pipe_eq_self]
  cases final with
  | error error =>
      simp [Attempt.showsData, Attempt.ends]
  | ok dataStream =>
      have hdata :
          ∀ x ∈ (dataStream.body.filter Emission.isData).map Shown.emission,
            x.isPiped = true := by
        intro x hx
        obtain ⟨e, he, rfl⟩ := List.mem_map.mp hx
        exact (List.mem_filter.mp he).2
      rw [Attempt.showsData, List.forall_mem_append,
        List.forall_mem_singleton, isPiped_terminal]
      exact ⟨And.right, fun h => ⟨hdata, h⟩⟩

section Run

/-- The rows among the emissions. -/
def rowsOf
    (body : List (Emission ρ μ τ)) : List ρ :=
  body.filterMap fun
    | .data row => some row
    | _ => none

theorem foldl_onEmission
    (body : List (Emission ρ μ τ)) (s : RunState ρ μ τ) :
    (body.foldl RunState.onEmission s).rows = s.rows ++ rowsOf body ∧
      (body.foldl RunState.onEmission s).calls = s.calls := by
  induction body generalizing s with
  | nil => simp [rowsOf]
  | cons e es ih =>
      obtain ⟨hrows, hcalls⟩ := ih (s.onEmission e)
      rw [List.foldl_cons, hrows, hcalls]
      cases e with
      | data row => simp [RunState.onEmission, rowsOf]
      | response metadata =>
          cases metadata <;> exact ⟨rfl, rfl⟩
      | stats stats => exact ⟨rfl, rfl⟩

/-- Without the events that `pipe` drops only the rows are collected. -/
theorem foldl_onEmission_filter
    (body : List (Emission ρ μ τ)) (s : RunState ρ μ τ) :
    (body.filter Emission.isData).foldl RunState.onEmission s =
      { s with rows := s.rows ++ rowsOf body } := by
  induction body generalizing s with
  | nil => simp [rowsOf]
  | cons e es ih =>
      cases e with
      | data row =>
          rw [List.filter_cons_of_pos rfl, List.foldl_cons, ih]
          simp [RunState.onEmission, rowsOf]
      | response metadata =>
          rw [List.filter_cons_of_neg (by simp [Emission.isData]), ih]
          rfl
      | stats stats =>
          rw [List.filter_cons_of_neg (by simp [Emission.isData]), ih]
          rfl

/-- Nothing but rows has been collected exactly when nothing else was there. -/
theorem foldl_onEmission_rows_iff
    (body : List (Emission ρ μ τ)) (s : RunState ρ μ τ) :
    ((body.foldl RunState.onEmission s).stats = none ∧
        (body.foldl RunState.onEmission s).metadata = none) ↔
      (s.stats = none ∧ s.metadata = none) ∧
        (body.all fun
          | .data _ => true
          | .response metadata => metadata.isNone
          | .stats _ => false) = true := by
  induction body generalizing s with
  | nil => simp
  | cons e es ih =>
      rw [List.foldl_cons, ih, List.all_cons]
      cases e with
      | data row => simp [RunState.onEmission]
      | response metadata =>
          cases metadata <;> simp [RunState.onEmission]
      | stats stats => simp [RunState.onEmission]

theorem foldl_on_emissions
    (body : List (Emission ρ μ τ)) (s : RunState ρ μ τ) :
    (body.map Shown.emission).foldl RunState.on s =
      body.foldl RunState.onEmission s := by
  rw [List.foldl_map]
  rfl

/-- The callback is called once with what has been collected. -/
theorem foldl_on_shows
    (final : Attempt ρ μ τ) :
    (final.shows.foldl RunState.on {}).calls = [final.call] := by
  cases final with
  | error error => rfl
  | ok dataStream =>
      rw [Attempt.shows, List.foldl_append, foldl_on_emissions]
      have hcalls := (foldl_onEmission dataStream.body {}).2
      cases herr : dataStream.err <;>
        simp [terminal, RunState.on, RunState.callback, hcalls,
          Attempt.call, herr]

/-- Through a pipe it is called once, with the rows, if the stream ends, and not
at all if it fails. -/
theorem foldl_on_pipe_shows_iff
    (final : Attempt ρ μ τ) :
    ((pipe final.shows).foldl RunState.on {}).calls = [final.call] ↔
      final.emitsRows = true := by
  cases final with
  | error error =>
      simp [Attempt.shows, pipe, Attempt.emitsRows]
  | ok dataStream =>
      have hfilter :
          (dataStream.body.map Shown.emission).filter Shown.isPiped =
            (dataStream.body.filter Emission.isData).map Shown.emission := by
        rw [List.filter_map]
        rfl
      rw [Attempt.shows, pipe, List.filter_append, hfilter,
        List.foldl_append, foldl_on_emissions, foldl_onEmission_filter]
      cases herr : dataStream.err with
      | some error =>
          simp [terminal, Attempt.emitsRows, herr]
      | none =>
          have hrows := (foldl_onEmission dataStream.body {}).1
          have hiff := foldl_onEmission_rows_iff dataStream.body {}
          simp only [Attempt.emitsRows, herr, Option.isNone_none,
            Bool.true_and]
          simp only [true_and] at hiff
          rw [← hiff]
          simp [terminal, RunState.on, RunState.callback, Attempt.call, herr,
            hrows, eq_comm]

end Run

/-- The retry is transparent exactly when there is none or the last attempt ends
without anything but data: for `run`, without stats and metadata; for a batch
write, which forwards nothing else anyway, without an error. -/
theorem transparent_iff
    (isMultiplexedEnabled : Bool) (failures : List ServiceError)
    (final : Attempt ρ μ τ)
    (hfailures :
      ∀ e ∈ failures, isSessionNotFoundError (some e) = true) :
    ((failures = [] ∨ isMultiplexedEnabled = false) →
      retried isMultiplexedEnabled final = false →
        (runStreamShows isMultiplexedEnabled
              (failures.map failed ++ [final]) = final.shows ↔
            failures = [] ∨ final.emitsData = true) ∧
          (runCalls isMultiplexedEnabled
              (failures.map failed ++ [final]) = [final.call] ↔
            failures = [] ∨ final.emitsRows = true)) ∧
      (retried false final = false →
        (batchWriteShows (failures.map failed ++ [final]) =
            final.showsData ↔
          failures = [] ∨ final.ends = true)) := by
  constructor
  · intro hretries hfinal
    rw [runCalls]
    by_cases hne : failures = []
    · subst hne
      simp only [List.map_nil, List.nil_append, runStreamShows_last _ hfinal,
        foldl_on_shows, true_or, and_self]
    · have henabled := hretries.resolve_left hne
      rw [runStreamShows_retried hne hfailures henabled,
        runStreamShows_last _ hfinal]
      simp only [hne, false_or]
      exact ⟨pipe_shows_iff final, foldl_on_pipe_shows_iff final⟩
  · intro hfinal
    by_cases hne : failures = []
    · subst hne
      simp only [List.map_nil, List.nil_append, batchWriteShows_last _ hfinal,
        true_or]
    · rw [batchWriteShows_retried hne hfailures,
        batchWriteShows_last _ hfinal]
      simp only [hne, false_or]
      exact pipe_showsData_iff final

/-- The session is not found; the second attempt gets a row and then fails. -/
def failsAfterRetry : Attempt Nat Nat Nat :=
  .ok ⟨[.response (some 3), .data 8], some ⟨some .UNAVAILABLE, ""⟩⟩

/-- Neither stream shows the error, and `run` does not call back. -/
theorem failsAfterRetry_shows_no_error :
    ¬∀ (isMultiplexedEnabled : Bool) (failures : List ServiceError)
        (final : Attempt Nat Nat Nat),
        (∀ e ∈ failures, isSessionNotFoundError (some e) = true) →
        isMultiplexedEnabled = false →
        retried isMultiplexedEnabled final = false →
          runStreamShows isMultiplexedEnabled
              (failures.map failed ++ [final]) = final.shows ∧
            runCalls isMultiplexedEnabled
              (failures.map failed ++ [final]) = [final.call] ∧
            batchWriteShows (failures.map failed ++ [final]) =
              final.showsData := by
  intro h
  have hnone :
      runCalls false ([sessionNotFound].map failed ++ [failsAfterRetry]) =
        [] := by
    decide
  have hcalls :=
    (h false [sessionNotFound] failsAfterRetry (by decide) rfl
      (by decide)).2.1
  rw [hnone] at hcalls
  cases hcalls

/-- Two retries, and a last attempt that emits two rows and ends. -/
theorem transparent_iff_rows :
    (runStreamShows false
          ([sessionNotFound, sessionNotFound].map failed ++
            [(.ok ⟨[.data 8, .data 9], none⟩ : Attempt Nat Nat Nat)]) =
        [.emission (.data 8), .emission (.data 9), .end]) ∧
      (runCalls false
          ([sessionNotFound, sessionNotFound].map failed ++
            [(.ok ⟨[.data 8, .data 9], none⟩ : Attempt Nat Nat Nat)]) =
        [⟨none, [8, 9], none, none⟩]) := by
  have h :=
    transparent_iff false [sessionNotFound, sessionNotFound]
      (.ok ⟨[.data 8, .data 9], none⟩ : Attempt Nat Nat Nat) (by decide)
  obtain ⟨hstream, hrun⟩ := h.1 (Or.inr rfl) (by decide)
  exact ⟨hstream.mpr (Or.inr rfl), hrun.mpr (Or.inr rfl)⟩

end Database
end SpannerClient
