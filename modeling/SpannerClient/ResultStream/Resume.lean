import SpannerClient.ResultStream.Pipeline

/-!
# Resumption

The sets transformed, the sets that wait for it and the sets that are still to
come are always the sets of the server, in order and once each (`Line`), so the
rows pushed are a prefix of the rows of the server (`Reading`).

This holds as long as every restart finds the pipeline as the code takes it to
be: nothing of the failed stream is still before the checkpoint stream, nothing
has been forwarded since the last checkpoint, and resetting the pending value
does not change it (`RestartsCleanly`).

The invariant of the pipeline is `Resumable`.  The lemmas follow a set on its way:
what each event does to the line, and what a set that is transformed does to the
reading.  The main result is `rowsRight_of_restartsCleanly`, for every run whose
restarts are all clean.
-/

namespace SpannerClient
namespace ResultStream

open Machine

/-- The sets carry the rows: the values are divided legally, the first set has the
metadata, only the last may say so, and no two carry the same token. -/
structure Serves
    (fields : List Field) (rows : List (List Value))
    (server : List PartialResultSet) : Prop where
  columns : ∀ row ∈ rows, row.length = fields.length
  noColumns : fields = [] → rows = []
  division : Division fields 0 none server rows.flatten
  metadata :
    ∃ chunk chunks, server = chunk :: chunks ∧ chunk.metadata = some fields
  last :
    ∀ before chunk after, server = before ++ chunk :: after →
      chunk.last = true → after = []
  tokens :
    ∀ before chunk after, server = before ++ chunk :: after →
      chunk.hasResumeToken = true →
        ∀ c ∈ before, c.resumeToken ≠ chunk.resumeToken

/-- The request with the token of a set is answered by the sets after it. -/
theorem requestFn_token
    {server before after : List PartialResultSet} {chunk : PartialResultSet}
    (hserver : server = before ++ chunk :: after)
    (htoken : chunk.hasResumeToken = true)
    (hbefore : ∀ c ∈ before, c.resumeToken ≠ chunk.resumeToken) :
    requestFn server chunk.resumeToken = after := by
  unfold PartialResultSet.hasResumeToken at htoken
  cases hresume : chunk.resumeToken with
  | none =>
      rw [hresume] at htoken
      cases htoken
  | some token =>
      rw [hresume] at htoken hbefore
      have hdrop :
          server.dropWhile
              (fun c => decide (c.resumeToken ≠ some token)) =
            chunk :: after := by
        rw [hserver, List.dropWhile_append_of_pos]
        · simp [hresume]
        · intro c hc
          simpa using hbefore c hc
      have hempty : token.isEmpty = false := by simpa using htoken
      rw [requestFn, hempty, hdrop]
      rfl

theorem division_snoc
    {fields : List Field} {k : Nat} {pend : Option Value}
    {chunks : List PartialResultSet} {values : List Value}
    (h : Division fields k pend chunks values)
    (chunk : PartialResultSet)
    (hvalues : chunk.values = []) :
    Division fields k pend (chunks ++ [chunk]) values := by
  induction h with
  | done k =>
      exact .empty k none chunk [] [] hvalues (.done k)
  | empty k pend c chunks values hc _ ih =>
      exact .empty k pend c _ values hc ih
  | whole k pend c chunks joined values hfields hc hchunked hjoins _ ih =>
      exact .whole k pend c _ joined values hfields hc hchunked hjoins ih
  | cut k pend c chunks joined p values hfields hc hchunked hjoins _ ih =>
      exact .cut k pend c _ joined p values hfields hc hchunked hjoins ih

/-- Sets without values deliver none. -/
theorem Division.values_nil
    {fields : List Field} {k : Nat} {pend : Option Value}
    {chunks : List PartialResultSet} {values : List Value}
    (h : Division fields k pend chunks values)
    (hempty : ∀ chunk ∈ chunks, chunk.values = []) :
    values = [] := by
  induction h with
  | done k => rfl
  | empty k pend c chunks values hc _ ih =>
      exact ih fun chunk hchunk => hempty chunk (List.mem_cons_of_mem _ hchunk)
  | whole k pend c chunks joined values hfields hc =>
      exact absurd (hempty c List.mem_cons_self) hc
  | cut k pend c chunks joined p values hfields hc =>
      exact absurd (hempty c List.mem_cons_self) hc

variable {δ ρ : Type}

section Reading

variable {options : RowOptions δ ρ} {fields : List Field}
variable {rows : List (List Value)}

/-- The stream has read part of the values; the sets deliver the rest. -/
structure Reading
    (options : RowOptions δ ρ) (fields : List Field)
    (rows : List (List Value)) (s : PartialResultStream ρ)
    (chunks : List PartialResultSet) : Prop where
  reads :
    ∃ done read pend rest,
      Reads options fields s done read ∧
      read ++ rest = rows.flatten ∧
      Division fields read.length pend chunks rest ∧
      s.pending = pend.filter Value.truthy ∧
      (s.ended = true → rest = [])
  thrown : s.thrown = false

/-- Neither the values nor the rows change. -/
theorem Reading.congr
    {s t : PartialResultStream ρ} {chunks : List PartialResultSet}
    (h : Reading options fields rows s chunks)
    (hvalues : t.values = s.values) (hrows : t.rows = s.rows)
    (hpending : t.pending = s.pending) (hended : t.ended = s.ended)
    (hthrown : t.thrown = s.thrown) :
    Reading options fields rows t chunks where
  reads := by
    obtain ⟨done, read, pend, rest, hreads, hread, hdivision, hpend, hend⟩ :=
      h.reads
    exact
      ⟨done, read, pend, rest, hreads.congr hvalues hrows, hread, hdivision,
        hpending.trans hpend, fun he => hend (hended ▸ he)⟩
  thrown := hthrown.trans h.thrown

/-- The rows pushed are a prefix of the rows of the server, and at the end all of
them. -/
theorem Reading.rows_right
    {s : PartialResultStream ρ} {chunks : List PartialResultSet}
    (h : Reading options fields rows s chunks)
    (hcolumns : ∀ row ∈ rows, row.length = fields.length)
    (hnone : fields = [] → rows = []) :
    s.rows <+: rows.map (PartialResultStream.createRow options fields) ∧
      (s.ended = true →
        s.rows =
          rows.map (PartialResultStream.createRow options fields)) := by
  obtain ⟨done, read, pend, rest, hreads, hread, -, -, hend⟩ := h.reads
  rw [hreads.pushed]
  by_cases hfields : fields = []
  · rw [hnone hfields, hreads.none hfields]
    exact ⟨List.prefix_refl _, fun _ => rfl⟩
  · have hpos : 0 < fields.length := List.length_pos_iff.mpr hfields
    have heq : done.flatten ++ s.values ++ rest = rows.flatten := by
      rw [← hreads.read, hread]
    refine
      ⟨(rows_initial hpos hreads.columns hcolumns heq).map _,
        fun hended => ?_⟩
    rw [hend hended, List.append_nil] at hread
    rw [← hreads.pushed]
    exact (hread ▸ hreads).rows_eq hcolumns hnone

end Reading

section Line

variable {fields : List Field} {rows : List (List Value)}
variable {server : List PartialResultSet}

/-- All that is ever put on the line. -/
def Source.sent
    (server : List PartialResultSet) : Source → List PartialResultSet
  | .flushed => server ++ [flushChunk]
  | _ => server

namespace Pipeline

/-- The sets that the user's stream has still to transform. -/
def ahead
    (s : Pipeline ρ) (rest : List PartialResultSet) :
    List PartialResultSet :=
  s.forwarded ++ (s.queued ++ (s.requestsStream ++ rest))

/-- The token is that of the last of the sets. -/
inductive LastToken :
    List PartialResultSet → Option ResumeToken → Prop where
  | start : LastToken [] none
  | token (before : List PartialResultSet) (chunk : PartialResultSet)
      (htoken : chunk.hasResumeToken = true) :
      LastToken (before ++ [chunk]) chunk.resumeToken

theorem LastToken.nil
    {sets : List PartialResultSet} {token : Option ResumeToken}
    (h : LastToken sets token)
    (hnil : sets = []) :
    token = none := by
  cases h with
  | start => rfl
  | token before chunk htoken => simp at hnil

/-- The sets of the server are on the line, in order: `read` has been transformed,
`rest` is still to come. -/
structure Line
    (fields : List Field) (server : List PartialResultSet)
    (s : Pipeline ρ) (read rest : List PartialResultSet) : Prop where
  line : read ++ s.ahead rest = s.source.sent server
  fields :
    s.userStream.fields = some fields ∨
      read = [] ∧ s.userStream.fields = none
  unread :
    s.source = .unread →
      read = [] ∧ s.forwarded = [] ∧ s.queued = [] ∧
        s.requestsStream = []
  requested : ∀ r, s.source = .requested r → rest = r
  ended : s.source = .ended ∨ s.source = .flushed → rest = []
  checkpointed :
    ∃ before after,
      read ++ s.forwarded = before ++ after ∧
      LastToken before s.lastResumeToken ∧
      (after ≠ [] → s.overran = true)
  queued : ∀ chunk ∈ s.queued, chunk.hasResumeToken = false

/-- A restart finds the pipeline as the code takes it to be. -/
structure RestartsCleanly
    (s : Pipeline ρ) : Prop where
  /-- Nothing of the failed stream is before the checkpoint stream. -/
  requestsStream : s.requestsStream = []
  /-- Nothing has been forwarded since the last checkpoint. -/
  overran : s.overran = false
  /-- The value kept for a resumption is the pending one. -/
  pending :
    s.hasToken = true →
      s.userStream.pendingValueForResume.filter Value.truthy =
        s.userStream.pending

variable {s : Pipeline ρ} {read rest : List PartialResultSet}

/-- A step of the source that sends and forwards nothing. -/
theorem Line.source
    (h : Line fields server s read rest)
    (source : Source)
    (hsent : source.sent server = s.source.sent server)
    (hunread : source ≠ .unread)
    (hrequested : ∀ r, source = .requested r → rest = r)
    (hended : source = .ended ∨ source = .flushed → rest = []) :
    Line fields server { s with source := source } read rest where
  line := h.line.trans hsent.symm
  fields := h.fields
  unread := fun heq => absurd heq hunread
  requested := hrequested
  ended := hended
  checkpointed := h.checkpointed
  queued := h.queued

/-- A step of the user's stream that transforms nothing. -/
theorem Line.userStream
    (h : Line fields server s read rest)
    (stream : PartialResultStream ρ)
    (hfields : stream.fields = s.userStream.fields) :
    Line fields server { s with userStream := stream } read rest where
  line := h.line
  fields := by rw [hfields]; exact h.fields
  unread := h.unread
  requested := h.requested
  ended := h.ended
  checkpointed := h.checkpointed
  queued := h.queued

theorem makeRequest_unread
    (h : Line fields server s read rest)
    (hsource : s.source = .unread) :
    s.makeRequest server = { s with source := .requested rest } ∧
      Line fields server { s with source := .requested rest } read rest := by
  obtain ⟨rfl, hforwarded, hqueued, hrequests⟩ := h.unread hsource
  have hrest : rest = server := by
    have hline := h.line
    rw [hsource] at hline
    simpa [ahead, hforwarded, hqueued, hrequests, Source.sent] using hline
  have htoken : s.lastResumeToken = none := by
    obtain ⟨before, after, heq, hlast, -⟩ := h.checkpointed
    refine hlast.nil ?_
    rw [hforwarded] at heq
    exact (List.append_eq_nil_iff.mp heq.symm).1
  constructor
  · rw [makeRequest, htoken, hrest]
    simp [hasToken, htoken, requestFn]
  · refine h.source (.requested rest) ?_ (by simp) ?_ ?_
    · rw [hsource]
      rfl
    · intro r hr
      exact Source.requested.inj hr
    · rintro (hr | hr) <;> cases hr

theorem receive_line
    {chunk : PartialResultSet} {after : List PartialResultSet}
    (h : Line fields server s read rest)
    (hsource : s.source = .requested (chunk :: after)) :
    rest = chunk :: after ∧
      Line fields server
        { s with
          source := .requested after
          requestsStream := s.requestsStream ++ [chunk] } read after := by
  obtain rfl := h.requested _ hsource
  refine ⟨rfl, ?_⟩
  refine
    { line := ?_
      fields := h.fields
      unread := fun heq => by cases heq
      requested := fun r hr => Source.requested.inj hr
      ended := by rintro (hr | hr) <;> cases hr
      checkpointed := h.checkpointed
      queued := h.queued }
  have hline := h.line
  rw [hsource] at hline
  simpa [ahead, Source.sent] using hline

/-- The checkpoint stream only moves sets along the line. -/
theorem checkpoint_ahead
    (overflow : Nat → Nat) (s : Pipeline ρ) (chunk : PartialResultSet)
    (rest : List PartialResultSet) :
    (s.checkpoint overflow chunk).ahead rest =
      s.forwarded ++
        (s.queued ++ (chunk :: (s.requestsStream ++ rest))) := by
  unfold checkpoint ahead
  dsimp only
  split
  · simp
  · split
    · rw [← List.append_assoc (List.drop _ _), List.append_assoc s.forwarded,
        ← List.append_assoc (List.take _ _), ← List.append_assoc (List.take _ _),
        List.take_append_drop]
      simp
    · simp

theorem checkpoint_source
    (overflow : Nat → Nat) (s : Pipeline ρ) (chunk : PartialResultSet) :
    (s.checkpoint overflow chunk).source = s.source ∧
      (s.checkpoint overflow chunk).userStream = s.userStream ∧
      (s.checkpoint overflow chunk).requestsStream = s.requestsStream := by
  unfold checkpoint
  dsimp only
  split
  · exact ⟨rfl, rfl, rfl⟩
  · split <;> exact ⟨rfl, rfl, rfl⟩

theorem checkpoint_line
    (overflow : Nat → Nat)
    {chunk : PartialResultSet} {after : List PartialResultSet}
    (h : Line fields server s read rest)
    (hrequests : s.requestsStream = chunk :: after) :
    Line fields server
      (checkpoint overflow { s with requestsStream := after } chunk)
      read rest := by
  obtain ⟨hsource, huser, hafter⟩ :=
    checkpoint_source overflow { s with requestsStream := after } chunk
  have hcheckpointed :
      ∃ before behind,
        read ++
            (checkpoint overflow { s with requestsStream := after }
              chunk).forwarded = before ++ behind ∧
        LastToken before
          (checkpoint overflow { s with requestsStream := after }
            chunk).lastResumeToken ∧
        (behind ≠ [] →
          (checkpoint overflow { s with requestsStream := after }
            chunk).overran = true) := by
    obtain ⟨before, behind, heq, hlast, hoverran⟩ := h.checkpointed
    rw [checkpoint]
    dsimp only
    split
    · rename_i htoken
      refine
        ⟨read ++ (s.forwarded ++ s.queued) ++ [chunk], [], by simp,
          .token _ chunk htoken, fun hne => absurd rfl hne⟩
    · split
      · refine
          ⟨before,
            behind ++
              (s.queued ++ [chunk]).take
                (overflow (s.queued ++ [chunk]).length),
            ?_, hlast, fun _ => rfl⟩
        rw [← List.append_assoc, heq, List.append_assoc]
      · exact ⟨before, behind, heq, hlast, hoverran⟩
  refine
    { line := ?_
      fields := by rw [huser]; exact h.fields
      unread := ?_
      requested := by rw [hsource]; exact h.requested
      ended := by rw [hsource]; exact h.ended
      checkpointed := hcheckpointed
      queued := ?_ }
  · rw [checkpoint_ahead, hsource]
    have hline := h.line
    unfold ahead at hline
    rw [hrequests] at hline
    exact hline
  · intro hunread
    rw [hsource] at hunread
    have hnone := (h.unread hunread).2.2.2
    rw [hrequests] at hnone
    cases hnone
  · rw [checkpoint]
    dsimp only
    split
    · intro c hc
      cases hc
    · rename_i htoken
      have hall :
          ∀ c ∈ s.queued ++ [chunk], c.hasResumeToken = false := by
        intro c hc
        rcases List.mem_append.mp hc with hc | hc
        · exact h.queued c hc
        · rw [List.mem_singleton.mp hc]
          simpa using htoken
      split
      · intro c hc
        exact hall c (List.mem_of_mem_drop hc)
      · exact hall

/-- A reset touches the pending value only. -/
theorem resetPendingValues_frame
    (stream : PartialResultStream ρ) :
    stream.resetPendingValues.fields = stream.fields ∧
      stream.resetPendingValues.values = stream.values ∧
      stream.resetPendingValues.rows = stream.rows ∧
      stream.resetPendingValues.ended = stream.ended ∧
      stream.resetPendingValues.thrown = stream.thrown := by
  rw [PartialResultStream.resetPendingValues]
  split
  · exact ⟨rfl, rfl, rfl, rfl, rfl⟩
  · exact ⟨rfl, rfl, rfl, rfl, rfl⟩

/-- A clean restart asks for what is not yet forwarded. -/
theorem restart_line
    (h : Line fields server s read rest)
    (hserver :
      ∀ before chunk after, server = before ++ chunk :: after →
        chunk.hasResumeToken = true →
          ∀ c ∈ before, c.resumeToken ≠ chunk.resumeToken)
    (hsource : s.source = .retrying)
    (hclean : s.RestartsCleanly) :
    ∃ rest',
      Line fields server (s.restart server) read rest' ∧
      (s.restart server).ahead rest' = s.ahead rest := by
  obtain ⟨before, behind, heq, hlast, hoverran⟩ := h.checkpointed
  have hbehind : behind = [] := by
    by_contra hne
    have htrue := hoverran hne
    rw [hclean.overran] at htrue
    cases htrue
  rw [hbehind, List.append_nil] at heq
  have hline := h.line
  rw [hsource] at hline
  have hrequest :
      requestFn server s.lastResumeToken =
        s.queued ++ (s.requestsStream ++ rest) := by
    unfold ahead at hline
    rw [← List.append_assoc, heq] at hline
    change _ = server at hline
    generalize s.lastResumeToken = token at hlast
    cases hlast with
    | start => exact hline.symm
    | token before' chunk htoken =>
        have hsplit :
            server =
              before' ++ chunk ::
                (s.queued ++ (s.requestsStream ++ rest)) := by
          rw [← hline]
          simp
        exact
          requestFn_token hsplit htoken (hserver _ _ _ hsplit htoken)
  have hahead :
      (s.restart server).ahead (requestFn server s.lastResumeToken) =
        s.ahead rest := by
    change
      s.forwarded ++ ([] ++ (s.requestsStream ++
        requestFn server s.lastResumeToken)) = s.ahead rest
    rw [hrequest, hclean.requestsStream]
    simp [ahead, hclean.requestsStream]
  refine ⟨requestFn server s.lastResumeToken, ?_, hahead⟩
  refine
    { line := ?_
      fields := ?_
      unread := fun hnot => by cases hnot
      requested := fun r hr => Source.requested.inj hr
      ended := by rintro (hr | hr) <;> cases hr
      checkpointed :=
        ⟨before, [], by rw [List.append_nil]; exact heq, hlast,
          fun hne => absurd rfl hne⟩
      queued := fun c hc => by cases hc }
  · rw [hahead]
    exact hline
  · have hfields :
        (s.restart server).userStream.fields = s.userStream.fields := by
      rw [restart, makeRequest]
      dsimp only
      split
      · exact (resetPendingValues_frame s.userStream).1
      · rfl
    rw [hfields]
    exact h.fields

theorem flush_line
    (h : Line fields server s read rest)
    (hsource : s.source = .ended) :
    rest = [] ∧
      Line fields server
        { s with
          source := .flushed
          requestsStream := s.requestsStream ++ [flushChunk] } read [] := by
  obtain rfl := h.ended (Or.inl hsource)
  refine ⟨rfl, ?_⟩
  refine
    { line := ?_
      fields := h.fields
      unread := fun heq => by cases heq
      requested := fun r hr => by cases hr
      ended := fun _ => rfl
      checkpointed := h.checkpointed
      queued := h.queued }
  have hline := h.line
  rw [hsource] at hline
  change _ = server at hline
  change _ = server ++ [flushChunk]
  rw [← hline]
  simp [ahead]

theorem destroy_line
    (h : Line fields server s read rest)
    (err' : ServiceError)
    (hsource : s.source = .destroying err') (err : ServiceError) :
    (s.destroy err).ahead rest = s.ahead rest ∧
      Line fields server (s.destroy err) read rest := by
  have hahead : (s.destroy err).ahead rest = s.ahead rest := by
    simp [destroy, ahead]
  refine ⟨hahead, ?_⟩
  refine
    { line := ?_
      fields := h.fields
      unread := fun heq => by cases heq
      requested := fun r hr => by cases hr
      ended := by rintro (hr | hr) <;> cases hr
      checkpointed := ?_
      queued := fun c hc => by cases hc }
  · rw [hahead, h.line, hsource]
    rfl
  · obtain ⟨before, behind, heq, hlast, -⟩ := h.checkpointed
    refine ⟨before, behind ++ s.queued, ?_, hlast, fun _ => rfl⟩
    rw [← List.append_assoc, ← heq, List.append_assoc]
    rfl

/-- The next set is transformed. -/
theorem transform_line
    {options : RowOptions δ ρ}
    {chunk : PartialResultSet} {after : List PartialResultSet}
    (h : Line fields server s read rest)
    (hforwarded : s.forwarded = chunk :: after)
    (hfields :
      (s.userStream.transform options chunk).fields = some fields) :
    Line fields server
      { s with
        forwarded := after
        userStream := s.userStream.transform options chunk }
      (read ++ [chunk]) rest := by
  refine
    { line := ?_
      fields := Or.inl hfields
      unread := ?_
      requested := h.requested
      ended := h.ended
      checkpointed := ?_
      queued := h.queued }
  · have hline := h.line
    rw [ahead] at hline ⊢
    rw [hforwarded] at hline
    simpa using hline
  · intro hunread
    have hnil := (h.unread hunread).2.1
    rw [hforwarded] at hnil
    cases hnil
  · obtain ⟨before, behind, heq, hlast, hoverran⟩ := h.checkpointed
    refine ⟨before, behind, ?_, hlast, hoverran⟩
    rw [← heq, hforwarded]
    simp

/-- Trying to resume pushes no row. -/
theorem tryResume_frame
    (options : RowOptions δ ρ) (stream : PartialResultStream ρ) :
    (stream.tryResume options).fields = stream.fields ∧
      (stream.tryResume options).values = stream.values ∧
      (stream.tryResume options).rows = stream.rows ∧
      (stream.tryResume options).pending = stream.pending ∧
      (stream.tryResume options).ended = stream.ended ∧
      (stream.tryResume options).thrown = stream.thrown := by
  have hrows : (stream.push none).1.rows = stream.rows := by
    simp [PartialResultStream.rows, PartialResultStream.push,
      List.reduceOption_append]
  rw [PartialResultStream.tryResume]
  dsimp only
  split
  · exact ⟨rfl, rfl, hrows, rfl, rfl, rfl⟩
  · exact ⟨rfl, rfl, hrows, rfl, rfl, rfl⟩

theorem resetPendingValues_pending
    (stream : PartialResultStream ρ) :
    stream.resetPendingValues.pending =
      stream.pendingValueForResume.filter Value.truthy := by
  rw [PartialResultStream.resetPendingValues, PartialResultStream.pending]
  cases hkept : stream.pendingValueForResume with
  | none => rfl
  | some v =>
      cases htruthy : v.truthy <;> simp [Option.filter, htruthy]

variable {options : RowOptions δ ρ}

/-- The invariant: a part of the sets has been transformed, and the rest is on the
line. -/
def Resumable
    (options : RowOptions δ ρ) (fields : List Field)
    (rows : List (List Value)) (server : List PartialResultSet)
    (s : Pipeline ρ) : Prop :=
  ∃ read rest,
    Line fields server s read rest ∧
    Reading options fields rows s.userStream (s.ahead rest)

/-- The first set to be transformed has the metadata. -/
theorem Line.metadata
    (h : Line fields server s read rest)
    (hserves : Serves fields rows server)
    {chunk : PartialResultSet} {after : List PartialResultSet}
    (hforwarded : s.forwarded = chunk :: after) :
    s.userStream.fields.or chunk.metadata = some fields := by
  rcases h.fields with hsome | ⟨rfl, hnone⟩
  · rw [hsome]
    rfl
  · obtain ⟨first, chunks, rfl, hmetadata⟩ := hserves.metadata
    have hhead : chunk = first := by
      have hline := h.line
      rw [ahead, hforwarded] at hline
      cases hsource : s.source <;> rw [hsource] at hline <;>
        exact (List.cons.inj hline).1
    rw [hnone, hhead, hmetadata]
    rfl

/-- After the last set of the server only the flush is on the line. -/
theorem sent_last
    (hserves : Serves fields rows server)
    (source : Source)
    {before after : List PartialResultSet} {chunk : PartialResultSet}
    (hsent : before ++ chunk :: after = source.sent server)
    (hlast : chunk.last = true) :
    ∀ c ∈ after, c.values = [] := by
  have hserver : before ++ chunk :: after = server → after = [] :=
    fun heq => hserves.last before chunk after heq.symm hlast
  have hplain :
      before ++ chunk :: after = server →
        ∀ c ∈ after, c.values = [] := by
    intro heq c hc
    rw [hserver heq] at hc
    cases hc
  cases source with
  | flushed =>
      rcases List.eq_nil_or_concat after with rfl | ⟨chunks, last, rfl⟩
      · intro c hc
        cases hc
      · have hsplit :
            (before ++ chunk :: chunks) ++ [last] =
              server ++ [flushChunk] := by
          rw [List.append_assoc]
          change _ = server ++ [flushChunk] at hsent
          simpa [List.concat_eq_append] using hsent
        obtain ⟨heq, hflush⟩ := List.append_inj' hsplit rfl
        have hnil := hserves.last before chunk chunks heq.symm hlast
        obtain rfl := (List.cons.inj hflush).1
        intro c hc
        rw [hnil] at hc
        simp only [List.concat_eq_append, List.nil_append,
          List.mem_singleton] at hc
        rw [hc]
        rfl
  | unread => exact hplain hsent
  | requested r => exact hplain hsent
  | failed err => exact hplain hsent
  | retrying => exact hplain hsent
  | ended => exact hplain hsent
  | destroying err => exact hplain hsent
  | destroyed err => exact hplain hsent

/-- The user's stream transforms the next set. -/
theorem transform_resumable
    (hserves : Serves fields rows server)
    (h : Resumable options fields rows server s)
    {chunk : PartialResultSet} {after : List PartialResultSet}
    (hforwarded : s.forwarded = chunk :: after)
    (hended : s.userStream.ended = false) :
    Resumable options fields rows server
      { s with
        forwarded := after
        userStream := s.userStream.transform options chunk } := by
  obtain ⟨read, rest, hline, hreading⟩ := h
  obtain ⟨done, values, pend, more, hreads, hvalues, hdivision, hpending, -⟩ :=
    hreading.reads
  have hahead :
      s.ahead rest =
        chunk :: (after ++ (s.queued ++ (s.requestsStream ++ rest))) := by
    rw [ahead, hforwarded]
    rfl
  rw [hahead] at hdivision
  obtain ⟨done', joined, more', pend', hmore, hdivision', hreads', hpending',
      hfields, hthrown, hend⟩ :=
    PartialResultStream.transform_reads hreads
      (hline.metadata hserves hforwarded) hpending hdivision
  refine ⟨read ++ [chunk], rest, transform_line hline hforwarded hfields, ?_⟩
  refine
    { reads :=
        ⟨done', values ++ joined, pend', more', hreads', ?_, hdivision',
          hpending', ?_⟩
      thrown := hthrown.trans hreading.thrown }
  · rw [List.append_assoc, ← hmore, hvalues]
  · intro hlast
    rw [hend, hended, Bool.false_or] at hlast
    have hsent := hline.line
    rw [hahead] at hsent
    exact
      hdivision'.values_nil (sent_last hserves s.source hsent hlast)

/-- At the end nothing is left on the line. -/
theorem finish_ahead
    (h : Line fields server s read rest)
    (hsource : s.source = .flushed)
    (hrequests : s.requestsStream = [])
    (hforwarded : s.forwarded = []) :
    s.ahead rest = [] := by
  have hrest := h.ended (Or.inr hsource)
  have hahead : s.ahead rest = s.queued := by
    simp [ahead, hrequests, hforwarded, hrest]
  rw [hahead]
  rcases List.eq_nil_or_concat s.queued with hnil | ⟨chunks, last, hqueued⟩
  · exact hnil
  · -- The last set would be the flush, which carries a token.
    have hline := h.line
    rw [hahead, hsource, hqueued, List.concat_eq_append] at hline
    have hsplit :
        (read ++ chunks) ++ [last] = server ++ [flushChunk] := by
      rw [List.append_assoc]
      exact hline
    obtain ⟨-, hflush⟩ := List.append_inj' hsplit rfl
    obtain rfl := (List.cons.inj hflush).1
    have htoken := h.queued flushChunk (by simp [hqueued])
    cases htoken

/-- The source moves on without sending a set. -/
theorem Resumable.source
    (h : Resumable options fields rows server s)
    (source : Source)
    (hsent : source.sent server = s.source.sent server)
    (hunread : source ≠ .unread)
    (hrequested : ∀ r, source ≠ .requested r)
    (hended :
      source = .ended ∨ source = .flushed → s.source = .requested []) :
    Resumable options fields rows server { s with source := source } := by
  obtain ⟨read, rest, hline, hreading⟩ := h
  have hsource : Line fields server { s with source := source } read rest :=
    hline.source source hsent hunread
      (fun r hr => absurd hr (hrequested r))
      (fun hend => hline.requested [] (hended hend))
  exact ⟨read, rest, hsource, hreading⟩

/-- The failed request is given up or sent again later. -/
theorem retry_resumable
    (h : Resumable options fields rows server s)
    {err : ServiceError}
    (hsource : s.source = .failed err) (timedOut : Bool) :
    Resumable options fields rows server (s.retry err timedOut) := by
  have hsent : s.source.sent server = server := by
    rw [hsource]
    rfl
  rw [retry]
  split
  · exact h.source _ hsent.symm (by simp) (by simp) (by simp)
  · split
    · exact h.source _ hsent.symm (by simp) (by simp) (by simp)
    · exact h.source _ hsent.symm (by simp) (by simp) (by simp)

/-- The request is sent again, in a clean state. -/
theorem restart_resumable
    (hserves : Serves fields rows server)
    (h : Resumable options fields rows server s)
    (hsource : s.source = .retrying)
    (hclean : s.RestartsCleanly) :
    Resumable options fields rows server (s.restart server) := by
  obtain ⟨read, rest, hline, hreading⟩ := h
  obtain ⟨rest', hrestarted, hahead⟩ :=
    restart_line hline hserves.tokens hsource hclean
  refine ⟨read, rest', hrestarted, ?_⟩
  rw [hahead]
  rw [restart, makeRequest]
  dsimp only
  split
  · rename_i htoken
    obtain ⟨-, hvalues, hrows, hended, hthrown⟩ :=
      resetPendingValues_frame s.userStream
    have hpending :
        s.userStream.resetPendingValues.pending = s.userStream.pending := by
      rw [resetPendingValues_pending]
      exact hclean.pending htoken
    exact hreading.congr hvalues hrows hpending hended hthrown
  · exact hreading

/-- The flush is put on the line. -/
theorem flush_resumable
    (h : Resumable options fields rows server s)
    (hsource : s.source = .ended) :
    Resumable options fields rows server
      { s with
        source := .flushed
        requestsStream := s.requestsStream ++ [flushChunk] } := by
  obtain ⟨read, rest, hline, hreading⟩ := h
  obtain ⟨rfl, hflushed⟩ := flush_line hline hsource
  obtain ⟨done, values, pend, more, hreads, hvalues, hdivision, hrest⟩ :=
    hreading.reads
  have hsnoc := division_snoc hdivision flushChunk rfl
  refine ⟨read, [], hflushed, ?_, hreading.thrown⟩
  refine ⟨done, values, pend, more, hreads, hvalues, ?_, hrest⟩
  simpa [ahead] using hsnoc

/-- The user's stream ends. -/
theorem finish_resumable
    (h : Resumable options fields rows server s)
    (hsource : s.source = .flushed)
    (hrequests : s.requestsStream = [])
    (hforwarded : s.forwarded = []) :
    Resumable options fields rows server
      { s with userStream := { s.userStream with ended := true } } := by
  obtain ⟨read, rest, hline, hreading⟩ := h
  have hnil := finish_ahead hline hsource hrequests hforwarded
  obtain ⟨done, values, pend, more, hreads, hvalues, hdivision, hpending,
    -⟩ := hreading.reads
  refine ⟨read, rest, hline.userStream _ rfl, ?_, hreading.thrown⟩
  refine
    ⟨done, values, pend, more, hreads.congr rfl rfl, hvalues, hdivision,
      hpending, fun _ => ?_⟩
  rw [hnil] at hdivision
  exact hdivision.values_nil fun c hc => by cases hc

/-- An event keeps the invariant, if it is not a restart that is not clean. -/
theorem step_resumable
    {overflow : Nat → Nat} {t : Pipeline ρ} {e : StreamEvent}
    (hserves : Serves fields rows server)
    (h : Resumable options fields rows server s)
    (hclean : e = .restart → s.RestartsCleanly)
    (hstep : step options server overflow s e = some t) :
    Resumable options fields rows server t := by
  have ⟨read, rest, hline, hreading⟩ := h
  cases steps_of_step hstep with
  | reading hsource =>
      obtain ⟨heq, hrequested⟩ := makeRequest_unread hline hsource
      rw [heq]
      exact ⟨read, rest, hrequested, hreading⟩
  | receive chunk after hsource =>
      obtain ⟨rfl, hreceived⟩ := receive_line hline hsource
      refine ⟨read, after, hreceived, ?_⟩
      simpa [ahead] using hreading
  | checkpoint chunk after hrequests =>
      refine ⟨read, rest, checkpoint_line overflow hline hrequests, ?_⟩
      rw [checkpoint_ahead,
        (checkpoint_source overflow
          { s with requestsStream := after } chunk).2.1]
      rw [ahead, hrequests] at hreading
      exact hreading
  | transform chunk after hforwarded hidle =>
      have hended : s.userStream.ended = false := by
        simp only [idle, Bool.and_eq_true, Bool.not_eq_true'] at hidle
        exact hidle.1.2
      exact transform_resumable hserves h hforwarded hended
  | answer answers =>
      exact
        ⟨read, rest, hline.userStream _ rfl,
          hreading.congr rfl rfl rfl rfl rfl⟩
  | tryResume =>
      obtain ⟨hfields, hvalues, hrows, hpending, hended, hthrown⟩ :=
        tryResume_frame options s.userStream
      exact
        ⟨read, rest, hline.userStream _ hfields,
          hreading.congr hvalues hrows hpending hended hthrown⟩
  | fail err r hsource =>
      exact h.source _ (by rw [hsource]; rfl) (by simp) (by simp) (by simp)
  | retry timedOut err hsource => exact retry_resumable h hsource timedOut
  | restart hsource => exact restart_resumable hserves h hsource (hclean rfl)
  | destroy err hsource =>
      obtain ⟨hahead, hdestroyed⟩ := destroy_line hline err hsource err
      refine ⟨read, rest, hdestroyed, ?_⟩
      rw [hahead]
      exact hreading.congr rfl rfl rfl rfl rfl
  | sourceEnd hsource =>
      exact
        h.source _ (by rw [hsource]; rfl) (by simp) (by simp)
          (fun _ => hsource)
  | flush hsource => exact flush_resumable h hsource
  | finish hsource hrequests hforwarded =>
      exact finish_resumable h hsource hrequests hforwarded

/-- Before anything has happened. -/
theorem resumable_initial
    (hserves : Serves fields rows server) :
    Resumable options fields rows server {} := by
  refine ⟨[], server, ?_, ?_⟩
  · exact
      { line := rfl
        fields := Or.inr ⟨rfl, rfl⟩
        unread := fun _ => ⟨rfl, rfl, rfl, rfl⟩
        requested := fun r hr => by cases hr
        ended := by rintro (hr | hr) <;> cases hr
        checkpointed := ⟨[], [], rfl, .start, fun hne => absurd rfl hne⟩
        queued := fun c hc => by cases hc }
  · refine
      ⟨⟨[], [], none, rows.flatten, ?_, rfl, hserves.division, rfl, ?_⟩, rfl⟩
    · exact
        { read := rfl
          columns := fun row hrow => by cases hrow
          short := fun hfields => List.length_pos_iff.mpr hfields
          none := fun _ => rfl
          pushed := rfl }
    · intro hended
      cases hended

/-- The rows pushed are a prefix of the rows of the server, and at a normal end
all of them. -/
def RowsRight
    (options : RowOptions δ ρ) (fields : List Field)
    (rows : List (List Value)) (s : Pipeline ρ) : Prop :=
  s.userStream.rows <+:
      rows.map (PartialResultStream.createRow options fields) ∧
    (s.userStream.ended = true →
      s.userStream.rows =
        rows.map (PartialResultStream.createRow options fields))

theorem Resumable.rowsRight
    (hserves : Serves fields rows server)
    (h : Resumable options fields rows server s) :
    s.RowsRight options fields rows := by
  obtain ⟨read, rest, -, hreading⟩ := h
  exact hreading.rows_right hserves.columns hserves.noColumns

/-- Along every run whose restarts are clean each row is delivered exactly once. -/
theorem rowsRight_of_restartsCleanly
    (options : RowOptions δ ρ) (overflow : Nat → Nat)
    (fields : List Field) (rows : List (List Value))
    (server : List PartialResultSet) (es : List StreamEvent)
    (hserves : Serves fields rows server)
    (hclean :
      Meets (step options server overflow)
        (fun s e => e = .restart → s.RestartsCleanly) {} es) :
    Always (step options server overflow)
      (fun s => s.RowsRight options fields rows) {} es := by
  have hresumable :=
    always_of_meets (I := Resumable options fields rows server)
      (fun _ _ _ h hG hstep => step_resumable hserves h hG hstep)
      (resumable_initial hserves) hclean
  intro before hbefore s hrun
  exact (hresumable before hbefore s hrun).rowsRight hserves

end Pipeline

end Line

section Runs

/-- The value of a string column, as it is. -/
def stringRows : RowOptions String (List String) where
  decode v _ :=
    match v with
    | .string s => s
    | _ => ""
  present row := row.map Prod.snd

def oneColumn : List Field :=
  [⟨"column", .scalar "STRING"⟩]

/-- Two rows, a set with a token for each. -/
def twoRows : List PartialResultSet :=
  [{ metadata := some oneColumn
     values := [.string "x"]
     resumeToken := some [1] },
    { values := [.string "y"]
      resumeToken := some [2] }]

theorem serves_twoRows :
    Serves oneColumn [[.string "x"], [.string "y"]] twoRows where
  columns := by simp [oneColumn]
  noColumns := fun hnil => by cases hnil
  division := by
    refine
      .whole 0 none _ _ [.string "x"] [.string "y"] (by simp [oneColumn])
        (by simp) rfl (.whole _) ?_
    exact
      .whole 1 none _ _ [.string "y"] [] (by simp [oneColumn]) (by simp) rfl
        (.whole _) (.done 2)
  metadata := ⟨_, _, rfl, rfl⟩
  last := by
    intro before chunk after heq hlast
    have hmem : chunk ∈ twoRows := by simp [heq]
    simp only [twoRows, List.mem_cons, List.not_mem_nil, or_false] at hmem
    rcases hmem with rfl | rfl <;> cases hlast
  tokens := by
    intro before chunk after heq _ c hc
    rcases before with _ | ⟨c', before⟩
    · cases hc
    · obtain ⟨rfl, htail⟩ := List.cons.inj heq
      rcases before with _ | ⟨c'', before⟩
      · obtain ⟨rfl, -⟩ := List.cons.inj htail
        rw [List.mem_singleton.mp hc]
        simp
      · have hlength := congrArg List.length htail
        simp at hlength

/-- The failure is retried and no deadline has passed. -/
def StreamEvent.isRetried : StreamEvent → Bool
  | .fail err => retryable err
  | .retry timedOut => !timedOut
  | _ => true

/-- The reader pauses the stream after the first row; the second set has arrived
but not passed the checkpoint stream when the request fails and is sent again. -/
def failsWhilePaused : List StreamEvent :=
  [.reading, .receive, .checkpoint, .answer [false], .transform, .receive,
    .fail ⟨some .UNAVAILABLE, ""⟩, .retry false, .restart, .tryResume,
    .checkpoint, .receive, .checkpoint, .transform, .transform]

/-- The second row is pushed twice. -/
theorem failsWhilePaused_duplicates :
    ¬∀ (options : RowOptions String (List String)) (overflow : Nat → Nat)
        (fields : List Field) (rows : List (List Value))
        (server : List PartialResultSet) (es : List StreamEvent)
        (s : Pipeline (List String)),
        Serves fields rows server →
        es.all StreamEvent.isRetried = true →
        run (step options server overflow) {} es = some s →
          s.RowsRight options fields rows := by
  intro h
  obtain ⟨s, hrun, hrows⟩ :
      ∃ s : Pipeline (List String),
        run (step stringRows twoRows id) {} failsWhilePaused = some s ∧
          s.userStream.rows = [["x"], ["y"], ["y"]] :=
    ⟨_, rfl, rfl⟩
  have hright :=
    h stringRows id oneColumn _ twoRows failsWhilePaused s serves_twoRows
      (by decide) hrun
  have hlength := hright.1.length_le
  rw [hrows] at hlength
  simp at hlength

/-- The request fails after the first set has been transformed, and the second set
comes from the next request. -/
def failsWhileIdle : List StreamEvent :=
  [.reading, .receive, .checkpoint, .transform,
    .fail ⟨some .UNAVAILABLE, ""⟩, .retry false, .restart, .receive,
    .checkpoint, .transform]

theorem rowsRight_of_restartsCleanly_idle :
    Always (step stringRows twoRows id)
        (fun s =>
          s.RowsRight stringRows oneColumn
            [[.string "x"], [.string "y"]])
        {} failsWhileIdle ∧
      ∃ s,
        run (step stringRows twoRows id) {} failsWhileIdle = some s ∧
          s.userStream.rows = [["x"], ["y"]] := by
  refine
    ⟨Pipeline.rowsRight_of_restartsCleanly stringRows id oneColumn _ twoRows
      failsWhileIdle serves_twoRows ?_, _, rfl, rfl⟩
  refine meets_of_step (fun heq => by cases heq) rfl ?_
  refine meets_of_step (fun heq => by cases heq) rfl ?_
  refine meets_of_step (fun heq => by cases heq) rfl ?_
  refine meets_of_step (fun heq => by cases heq) rfl ?_
  refine meets_of_step (fun heq => by cases heq) rfl ?_
  refine meets_of_step (fun heq => by cases heq) rfl ?_
  refine meets_of_step (fun _ => ⟨rfl, rfl, fun _ => rfl⟩) rfl ?_
  refine meets_of_step (fun heq => by cases heq) rfl ?_
  refine meets_of_step (fun heq => by cases heq) rfl ?_
  refine meets_of_step (fun heq => by cases heq) rfl ?_
  exact meets_nil _ _ _

end Runs

end ResultStream
end SpannerClient
