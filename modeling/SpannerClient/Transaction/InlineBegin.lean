import SpannerClient.Transaction.PrecommitToken
import SpannerClient.Transaction.Sequence

/-!
# At most one server transaction

The first request of a read/write transaction begins it.  A query or read called
while the id is unknown waits for the id unless it is the first of its kind; a
`batchUpdate` does not, and begins a server transaction of its own.

The results are about the runs in which `begin` is not called and, as long as no
request that carries the inline begin has failed, about all their states: every
request sent after the id is known carries it, and there is one inline begin,
unless a second one is sent while the id is still unknown (`beginsAgain`).  A first
statement that fails while its request is being prepared counts as a begin that has
failed.

`Inlined` is the invariant, with a lemma for each kind of request, and
`step_oneTransaction_iff` the step.  The main result is
`oneTransaction_iff_never_beginsAgain`.
-/

namespace SpannerClient
namespace Transaction

open Machine

/-- What is known of the selector of a statement. -/
structure StatementSelector
    (id : Option TransactionId) (s : Statement) : Prop where
  selector :
    ∀ q, s.reqOpts = some q →
      q.transaction.isBegin = true ∨
        ∃ t, q.transaction = .id t ∧ id = some t
  /-- Only a request that carries the id is retried. -/
  retrying :
    s.phase = .retrying →
      ∃ q t, s.reqOpts = some q ∧ q.transaction = .id t
  /-- The selector of a read is chosen at its call. -/
  read : s.kind = .createReadStream → s.reqOpts ≠ none

/-- What is known of the requests sent while no inline begin has failed. -/
structure SingleId
    (id : Option TransactionId) (requests : List Request)
    (statements : List Statement) : Prop where
  known :
    ∀ r ∈ requests, ∀ t, r.known = some t →
      r.reqOpts.transaction = .id t
  sameId :
    ∀ r ∈ requests, ∀ t, r.reqOpts.transaction = .id t → id = some t
  statement :
    ∀ (i : Nat) s, statements[i]? = some s → StatementSelector id s

section Single

variable {id : Option TransactionId} {requests : List Request}
variable {statements : List Statement}

theorem StatementSelector.moveTo
    {s : Statement}
    (h : StatementSelector id s)
    {phase : StreamPhase}
    (hphase : phase ≠ .retrying) :
    StatementSelector id (s.moveTo phase) where
  selector := h.selector
  retrying := fun heq => absurd heq hphase
  read := h.read

theorem SingleId.set
    (h : SingleId id requests statements)
    {i : Nat} {s : Statement}
    (hs : StatementSelector id s) :
    SingleId id requests (statements.set i s) where
  known := h.known
  sameId := h.sameId
  statement := by
    intro j u hj
    rcases getElem?_set_some hj with ⟨-, rfl⟩ | ⟨-, hj⟩
    · exact hs
    · exact h.statement j u hj

theorem SingleId.snoc
    (h : SingleId id requests statements)
    {s : Statement}
    (hs : StatementSelector id s) :
    SingleId id requests (statements ++ [s]) where
  known := h.known
  sameId := h.sameId
  statement := by
    intro j u hj
    rcases getElem?_snoc_some hj with ⟨-, rfl⟩ | ⟨-, hj⟩
    · exact hs
    · exact h.statement j u hj

/-- The id becomes known; no request carries another one. -/
theorem SingleId.learn
    (h : SingleId none requests statements)
    (t : TransactionId) :
    SingleId (some t) requests statements where
  known := h.known
  sameId := by
    intro r hr t' ht'
    cases h.sameId r hr t' ht'
  statement := by
    intro i s hs
    have hstatement := h.statement i s hs
    refine
      { selector := ?_
        retrying := hstatement.retrying
        read := hstatement.read }
    intro q hq
    rcases hstatement.selector q hq with hbegin | ⟨t', -, hnone⟩
    · exact Or.inl hbegin
    · cases hnone

/-- A request that carries the id if it is known, and begins otherwise. -/
theorem SingleId.request
    (h : SingleId id requests statements)
    {i : Nat} {s : Statement} {q : ReqOpts}
    {resumeToken : Option ResumeToken}
    (hq :
      (id = none ∧ q.transaction.isBegin = true) ∨
        ∃ t, q.transaction = .id t ∧ id = some t) :
    SingleId id (requests ++ [⟨i, resumeToken, q, id⟩])
      (statements.set i
        { s with
          reqOpts := some q
          phase := .requested }) where
  known := by
    intro r hr t ht
    rcases List.mem_append.mp hr with hr | hr
    · exact h.known r hr t ht
    · obtain rfl := List.mem_singleton.mp hr
      rcases hq with ⟨hnone, -⟩ | ⟨t', hsel, hid⟩
      · change id = some t at ht
        rw [hnone] at ht
        cases ht
      · change id = some t at ht
        rw [hid] at ht
        obtain rfl := Option.some.inj ht
        exact hsel
  sameId := by
    intro r hr t ht
    rcases List.mem_append.mp hr with hr | hr
    · exact h.sameId r hr t ht
    · obtain rfl := List.mem_singleton.mp hr
      rcases hq with ⟨-, hbegin⟩ | ⟨t', hsel, hid⟩
      · change q.transaction = .id t at ht
        rw [ht] at hbegin
        cases hbegin
      · change q.transaction = .id t at ht
        rw [hsel] at ht
        obtain rfl := Selector.id.inj ht
        exact hid
  statement := by
    intro j u hj
    rcases getElem?_set_some hj with ⟨-, rfl⟩ | ⟨-, hj⟩
    · refine
        { selector := ?_
          retrying := fun hphase => by cases hphase
          read := fun _ hnone => by cases hnone }
      intro q' hq'
      obtain rfl := Option.some.inj hq'
      exact hq.imp_left And.right
    · exact h.statement j u hj

end Single

variable {p t : Transaction}

/-- The selector of a query of a read/write transaction. -/
theorem selector_readWrite
    (hmode : p.mode = .readWrite) :
    (p.id = none ∧ p.selector.isBegin = true) ∨
      ∃ t, p.selector = .id t ∧ p.id = some t := by
  rw [selector]
  cases hid : p.id with
  | none => exact Or.inl ⟨rfl, by rw [hmode]; rfl⟩
  | some t => exact Or.inr ⟨t, rfl, rfl⟩

/-- A query that is sent again as it is carries the id if it is known. -/
theorem resent_selector
    {s : Statement} {q : ReqOpts}
    (hneeds : p.needsSanitize s = false)
    (hq : s.reqOpts = some q) :
    p.id = none ∨ q.transaction.isBegin = false := by
  unfold needsSanitize at hneeds
  cases hid : p.id with
  | none =>
      exact Or.inl rfl
  | some t =>
      right
      cases hselector : q.transaction with
      | id t' => rfl
      | begin previous => simp [hq, hid, hselector, Selector.id?] at hneeds
      | singleUse => rfl

theorem Requested.single
    {i : Nat} {resumeToken : Option ResumeToken}
    (hrequested : Requested p i resumeToken t)
    (hmode : p.mode = .readWrite)
    (h : SingleId p.id p.requests p.statements) :
    SingleId t.id t.requests t.statements := by
  -- What a statement sends again is right unless it begins although the id is
  -- known.
  have hagain :
      ∀ {s : Statement} {q : ReqOpts},
        p.statements[i]? = some s → s.reqOpts = some q →
          (p.id = none ∨ q.transaction.isBegin = false) →
            (p.id = none ∧ q.transaction.isBegin = true) ∨
              ∃ t, q.transaction = .id t ∧ p.id = some t := by
    intro s q hs hq hor
    rcases (h.statement i s hs).selector q hq with hbegin | hid
    · rcases hor with hnone | hnot
      · exact Or.inl ⟨hnone, hbegin⟩
      · rw [hbegin] at hnot
        cases hnot
    · exact Or.inr hid
  cases hrequested with
  | sanitized =>
      exact h.request (selector_readWrite hmode)
  | broken hs =>
      exact h.set ((h.statement _ _ hs).moveTo (by decide))
  | resent hs hkind hneeds hq =>
      exact h.request (hagain hs hq (resent_selector hneeds hq))
  | readWithId _ _ _ hid =>
      exact h.request (Or.inr ⟨_, rfl, hid⟩)
  | read hs _ hq hbegin =>
      exact h.request (hagain hs hq hbegin)
  | nothing =>
      exact h

/-- The number of inline begins sent. -/
def beginCount
    (requests : List Request) : Nat :=
  requests.countP Request.isBegin

theorem beginCount_snoc
    (requests : List Request) (r : Request) :
    beginCount (requests ++ [r]) =
      beginCount requests + if r.isBegin then 1 else 0 := by
  simp [beginCount, List.countP_append, List.countP_singleton]

/-- Once the id is known no request begins. -/
theorem Requested.beginCount_of_id
    {i : Nat} {resumeToken : Option ResumeToken}
    (hrequested : Requested p i resumeToken t)
    (hid : p.id.isSome = true) :
    beginCount t.requests = beginCount p.requests := by
  have hsend :
      ∀ {q : ReqOpts}, q.transaction.isBegin = false →
        beginCount (p.requests ++ [⟨i, resumeToken, q, p.id⟩]) =
          beginCount p.requests := by
    intro q hq
    rw [beginCount_snoc]
    simp [Request.isBegin, hq]
  have hnone : ∀ {P : Prop}, p.id = none ∨ P → P := by
    rintro P (hnone | hP)
    · rw [hnone] at hid
      cases hid
    · exact hP
  cases hrequested with
  | sanitized =>
      obtain ⟨t, ht⟩ := Option.isSome_iff_exists.mp hid
      refine hsend ?_
      simp [selector, ht, Selector.isBegin]
  | broken => rfl
  | resent _ _ hneeds hq => exact hsend (hnone (resent_selector hneeds hq))
  | readWithId => exact hsend rfl
  | read _ _ _ hbegin => exact hsend (hnone hbegin)
  | nothing => rfl

/-- The statement is about to send the inline begin, if it is read now. -/
def sends
    (s : Statement) : Bool :=
  match s.kind with
  | .runStream => s.valid
  | .createReadStream => true
  | .batchUpdate => false

/-- While the id is unknown, the first request of a statement begins. -/
theorem Requested.beginCount_of_created
    {i : Nat} {s : Statement} {resumeToken : Option ResumeToken}
    (hrequested : Requested p i resumeToken t)
    (hmode : p.mode = .readWrite)
    (hnumbered : p.Numbered)
    (h : SingleId p.id p.requests p.statements)
    (hid : p.id = none)
    (hs : p.statements[i]? = some s)
    (hphase : s.phase = .created) :
    beginCount t.requests =
      beginCount p.requests + if sends s then 1 else 0 := by
  have hfound : ∀ {u}, p.statements[i]? = some u → u = s := by
    intro u hu
    rw [hs] at hu
    exact (Option.some.inj hu).symm
  cases hrequested with
  | sanitized hu hkind _ hvalid =>
      obtain rfl := hfound hu
      rw [requestStream]
      rw [beginCount_snoc]
      rcases selector_readWrite hmode with ⟨-, hbegin⟩ | ⟨t, -, hsome⟩
      · simp [Request.isBegin, hbegin, sends, hkind, hvalid]
      · rw [hid] at hsome
        cases hsome
  | broken hu hkind _ hvalid =>
      obtain rfl := hfound hu
      simp [sends, hkind, hvalid]
  | resent hu hkind _ hq =>
      obtain rfl := hfound hu
      have hnone := (hnumbered.statement i _ hs).created hkind hphase
      rw [hnone] at hq
      cases hq
  | readWithId _ _ _ hsome =>
      rw [hid] at hsome
      cases hsome
  | read hu hkind hq =>
      obtain rfl := hfound hu
      rw [requestStream]
      rw [beginCount_snoc]
      rcases (h.statement i _ hs).selector _ hq with hbegin | ⟨t, -, hsome⟩
      · simp [Request.isBegin, hbegin, sends, hkind]
      · rw [hid] at hsome
        cases hsome
  | nothing hnothing =>
      obtain ⟨hrun, hread⟩ := hnothing s hs
      cases hkind : s.kind with
      | runStream => exact absurd hkind hrun
      | createReadStream =>
          exact absurd (hread hkind) ((h.statement i s hs).read hkind)
      | batchUpdate => simp [sends, hkind]

/-- A transaction that has sent `count` inline begins, none of which has failed,
and has not called `begin`. -/
structure Inlined
    (count : Nat) (p : Transaction) : Prop where
  mode : p.mode = .readWrite
  begins : p.begins = 0
  beginFailed : p.beginFailed = false
  single : SingleId p.id p.requests p.statements
  count_eq : beginCount p.requests = count

variable {count : Nat}

theorem update_inlined
    (h : Inlined count p)
    (hnone : p.id = none)
    (id : TransactionId) :
    Inlined count (p.update id) := by
  have hsingle := h.single
  rw [hnone] at hsingle
  rw [update]
  refine release_rule (I := Inlined count) ?_ ?_
  · intro q x t _ hq hid hrequested
    have hframe := hrequested.frame.2.2
    exact
      { mode := hframe.mode.trans hq.mode
        begins := hframe.begins.trans hq.begins
        beginFailed := hframe.beginFailed.trans hq.beginFailed
        single := hrequested.single hq.mode hq.single
        count_eq :=
          (hrequested.beginCount_of_id (by rw [hid]; rfl)).trans
            hq.count_eq }
  · exact
      { mode := h.mode
        begins := h.begins
        beginFailed := h.beginFailed
        single := hsingle.learn id
        count_eq := h.count_eq }

theorem updateOnce_inlined
    (h : Inlined count p)
    (transaction : Option TransactionId) :
    Inlined count (p.updateOnce transaction) := by
  cases transaction with
  | none =>
      exact h
  | some id =>
      unfold updateOnce
      dsimp only
      split
      · rename_i hnone
        exact update_inlined h (by simpa using hnone) id
      · exact h

theorem onResponse_inlined
    (h : Inlined count p)
    (transaction : Option TransactionId)
    (precommitToken : Option PrecommitToken) :
    Inlined count (p.onResponse transaction precommitToken) :=
  updateOnce_inlined
    (p :=
      { p with
        latestPreCommitToken :=
          updatePrecommitToken p.latestPreCommitToken precommitToken })
    { h with } transaction

theorem onBatchResponse_inlined
    (h : Inlined count p)
    (transactions : List (Option TransactionId))
    (precommitToken : Option PrecommitToken) :
    Inlined count (p.onBatchResponse transactions precommitToken) := by
  rw [onBatchResponse]
  have hfold :
      ∀ q : Transaction, Inlined count q →
        Inlined count (transactions.foldl updateOnce q) := by
    induction transactions with
    | nil =>
        exact fun q hq => hq
    | cons transaction transactions ih =>
        exact fun q hq => ih _ (updateOnce_inlined hq transaction)
  exact hfold _ { h with }

/-- A statement whose request carries no inline begin carries the id. -/
theorem id_of_not_carriesBegin
    (h : Inlined count p)
    {i : Nat} {s : Statement}
    (hs : p.statements[i]? = some s)
    (hcarries : p.carriesBegin s = false) :
    p.id.isSome = true ∧
      ∀ q, s.reqOpts = some q → ∃ t, q.transaction = .id t := by
  unfold carriesBegin at hcarries
  cases hq : s.reqOpts with
  | none =>
      rw [hq] at hcarries
      refine ⟨by simpa [Option.isSome_iff_ne_none] using hcarries, ?_⟩
      intro q hq'
      cases hq'
  | some q =>
      rw [hq] at hcarries
      rcases (h.single.statement i s hs).selector q hq with
        hbegin | ⟨t, hselector, hid⟩
      · exact absurd hcarries (by simp [hbegin])
      · refine ⟨by rw [hid]; rfl, ?_⟩
        intro q' hq'
        obtain rfl := Option.some.inj hq'
        exact ⟨t, hselector⟩

/-- The end of a request that did not begin, or did not fail. -/
theorem stop_inlined
    (h : Inlined count p)
    {i : Nat} {s : Statement}
    (hs : p.statements[i]? = some s)
    (phase : StreamPhase) (failed : Bool)
    (hfailed : (failed && p.carriesBegin s) = false)
    (hphase :
      phase = .retrying → failed = true ∧ s.reqOpts.isSome = true) :
    Inlined count (p.stop i s phase failed) where
  mode := h.mode
  begins := h.begins
  beginFailed := by
    simp [stop, h.beginFailed, hfailed]
  single := by
    refine h.single.set ?_
    have hstatement := h.single.statement i s hs
    refine
      { selector := hstatement.selector
        retrying := ?_
        read := hstatement.read }
    intro heq
    obtain ⟨rfl, hsome⟩ := hphase heq
    obtain ⟨q, hq⟩ := Option.isSome_iff_exists.mp hsome
    obtain ⟨t, ht⟩ :=
      (id_of_not_carriesBegin h hs (by simpa using hfailed)).2 q hq
    exact ⟨q, t, hq, ht⟩
  count_eq := h.count_eq

/-- The failure of a request: it has begun, and is noted, or it has not. -/
theorem failure_inlined
    (h : Inlined count p)
    {i : Nat} {s : Statement}
    (hs : p.statements[i]? = some s)
    {phase : StreamPhase}
    (hphase : phase = .retrying → s.reqOpts.isSome = true) :
    (p.stop i s phase true).beginFailed = true ∨
      Inlined count (p.stop i s phase true) := by
  cases hcarries : p.carriesBegin s with
  | true =>
      left
      simp [stop, hcarries]
  | false =>
      right
      exact
        stop_inlined h hs phase true (by simp [hcarries])
          (fun hp => ⟨rfl, hphase hp⟩)

/-- The error handler calls `begin` for a request that has begun only. -/
theorem onError_inlined
    (h : Inlined count p)
    {i : Nat} {s : Statement}
    (hs : p.statements[i]? = some s)
    (error : ServiceError) :
    ((p.stop i s .done true).onError error).beginFailed = true ∨
      Inlined count ((p.stop i s .done true).onError error) := by
  cases hcarries : p.carriesBegin s with
  | true =>
      have hfailed : (p.stop i s .done true).beginFailed = true := by
        simp [stop, hcarries]
      left
      rw [onError]
      split
      · exact hfailed
      · exact hfailed
  | false =>
      have hid := (id_of_not_carriesBegin h hs hcarries).1
      have hstop :=
        stop_inlined h hs .done true (by simp [hcarries])
          (fun hp => by cases hp)
      have hsome : (p.stop i s .done true).id.isNone = false := by
        simpa [stop] using hid
      right
      rw [onError]
      rw [hsome]
      exact hstop

/-- The request function of a statement that is wrapped, or whose first request is
sent now, or whose request is retried with the id. -/
theorem requestFn_inlined
    (h : Inlined count p) (hnumbered : p.Numbered)
    {i : Nat} {s : Statement}
    (hs : p.statements[i]? = some s)
    (hphase : s.phase = .created ∨ s.phase = .retrying)
    (resumeToken : Option ResumeToken) :
    Inlined
      (count +
        if !s.wrapped && p.id.isNone && sends s then 1 else 0)
      (p.requestFn i resumeToken) := by
  rw [requestFn]
  rw [hs]
  dsimp only
  cases hwrapped : s.wrapped with
  | true =>
      exact
        { h with
          single :=
            h.single.set ((h.single.statement i s hs).moveTo (by decide)) }
  | false =>
      simp only [Bool.not_false, Bool.true_and, Bool.false_eq_true,
        if_false]
      have hrequested := requested_makeRequest p i resumeToken
      have hframe := hrequested.frame.2.2
      refine
        { mode := hframe.mode.trans h.mode
          begins := hframe.begins.trans h.begins
          beginFailed := hframe.beginFailed.trans h.beginFailed
          single := hrequested.single h.mode h.single
          count_eq := ?_ }
      cases hid : p.id with
      | some t =>
          have hcount :=
            hrequested.beginCount_of_id (by rw [hid]; rfl)
          simpa [h.count_eq] using hcount
      | none =>
          rcases hphase with hcreated | hretrying
          · have hcount :=
              hrequested.beginCount_of_created h.mode hnumbered h.single
                hid hs hcreated
            simpa [h.count_eq, hid] using hcount
          · -- Only a request that carries the id is retried.
            obtain ⟨q, t, hq, hselector⟩ :=
              (h.single.statement i s hs).retrying hretrying
            rcases (h.single.statement i s hs).selector q hq with
              hbegin | ⟨t', -, hsome⟩
            · rw [hselector] at hbegin
              cases hbegin
            · rw [hid] at hsome
              cases hsome

/-- A retried request carries the id, which is known then. -/
theorem retry_inlined
    (h : Inlined count p) (hnumbered : p.Numbered)
    {i : Nat} {s : Statement}
    (hs : p.statements[i]? = some s)
    (hretrying : s.phase = .retrying)
    (resumeToken : Option ResumeToken) :
    Inlined count (p.requestFn i resumeToken) := by
  have hrequest :=
    requestFn_inlined h hnumbered hs (Or.inr hretrying) resumeToken
  obtain ⟨q, u, hq, hselector⟩ :=
    (h.single.statement i s hs).retrying hretrying
  have hid : p.id.isNone = false := by
    rcases (h.single.statement i s hs).selector q hq with
      hbegin | ⟨u', -, hsome⟩
    · rw [hselector] at hbegin
      cases hbegin
    · rw [hsome]
      rfl
  simpa [hid] using hrequest

theorem runStream_inlined
    (h : Inlined count p) (valid : Bool) :
    Inlined count (p.runStream valid) := by
  have hnew :
      ∀ wrapped,
        StatementSelector p.id ⟨.runStream, valid, wrapped, none, .created⟩ :=
    fun wrapped =>
      { selector := fun q hq => by cases hq
        retrying := fun hphase => by cases hphase
        read := fun hkind => by cases hkind }
  rw [runStream]
  rcases wrapWithIdWaiter_cases p with
    ⟨hw, hp, -⟩ | ⟨hw, hp, -⟩ | ⟨hw, hp, -⟩ <;>
  · dsimp only
    rw [hw, hp]
    exact { h with single := h.single.snoc (hnew _) }

theorem createReadStream_inlined
    (h : Inlined count p) :
    Inlined count p.createReadStream := by
  have hnew :
      ∀ wrapped,
        StatementSelector p.id
          ⟨.createReadStream, true, wrapped, some ⟨p.selector, none⟩,
            .created⟩ := by
    intro wrapped
    refine
      { selector := ?_
        retrying := fun hphase => by cases hphase
        read := fun _ hnone => by cases hnone }
    intro q hq
    obtain rfl := Option.some.inj hq
    exact (selector_readWrite h.mode).imp_left And.right
  rw [createReadStream]
  rcases wrapWithIdWaiter_cases p with
    ⟨hw, hp, -⟩ | ⟨hw, hp, -⟩ | ⟨hw, hp, -⟩ <;>
  · dsimp only
    rw [hw, hp]
    exact { h with single := h.single.snoc (hnew _) }

/-- A batch begins whenever the id is unknown. -/
theorem batchUpdate_inlined
    (h : Inlined count p) (queries : Nat) (valid : Bool) :
    Inlined
      (count +
        if queries ≠ 0 ∧ valid = true ∧ p.id = none then 1 else 0)
      (p.batchUpdate queries valid) := by
  rw [batchUpdate]
  by_cases hempty : (decide (queries = 0) || !valid) = true
  · have hnot : ¬(queries ≠ 0 ∧ valid = true ∧ p.id = none) := by
      rintro ⟨hne, hvalid, -⟩
      simp [hne, hvalid] at hempty
    rw [if_pos hempty, if_neg hnot]
    exact h
  · obtain ⟨hne, hvalid⟩ : queries ≠ 0 ∧ valid = true := by
      simpa using hempty
    rw [if_neg hempty]
    have hsnoc :
        SingleId p.id p.requests
          (p.statements ++
            [⟨.batchUpdate, true, false, none, .created⟩]) :=
      h.single.snoc
        { selector := fun q hq => by cases hq
          retrying := fun hphase => by cases hphase
          read := fun hkind => by cases hkind }
    have hselector :
        (p.id = none ∧ p.batchSelector.isBegin = true) ∨
          ∃ t, p.batchSelector = .id t ∧ p.id = some t := by
      rw [batchSelector]
      cases hid : p.id with
      | none => exact Or.inl ⟨rfl, rfl⟩
      | some t => exact Or.inr ⟨t, rfl, rfl⟩
    refine
      { h with
        single := hsnoc.request hselector
        count_eq := ?_ }
    rw [requestStream]
    rw [beginCount_snoc, h.count_eq]
    rcases hselector with ⟨hid, hbegin⟩ | ⟨t, hid, hsome⟩
    · simp [Request.isBegin, hbegin, hne, hvalid, hid]
    · simp [Request.isBegin, Selector.isBegin, hid, hsome]

/-- The event sends an inline begin. -/
def sendsBegin
    (p : Transaction) : Event → Bool
  | .reading i =>
      match p.statements[i]? with
      | none => false
      | some s => !s.wrapped && p.id.isNone && sends s
  | .batchUpdate queries valid =>
      decide (queries ≠ 0 ∧ valid = true ∧ p.id = none)
  | _ => false

/-- The event sends an inline begin although one has been sent: a `batchUpdate`
called while the id is unknown, or the first read of the statement that was to
begin the transaction, after a `batchUpdate` has begun one. -/
def beginsAgain
    (p : Transaction) (e : Event) : Bool :=
  decide (1 ≤ beginCount p.requests) && p.sendsBegin e

/-- The calls of statements and what their requests come to: all events but calls
of `begin`. -/
def statementStep
    (p : Transaction) : Event → Option Transaction
  | .begin => none
  | e => step p e

/-- As long as no inline begin has failed, every event keeps the selectors right
and sends the begins that `sendsBegin` counts. -/
theorem step_inlined
    {e : Event}
    (hnumbered : p.Numbered)
    (h : Inlined count p)
    (hstep : statementStep p e = some t) :
    t.beginFailed = true ∧ p.sendsBegin e = false ∨
      Inlined (count + if p.sendsBegin e then 1 else 0) t := by
  have hkept :
      t.beginFailed = true ∨ Inlined count t → p.sendsBegin e = false →
        t.beginFailed = true ∧ p.sendsBegin e = false ∨
          Inlined (count + if p.sendsBegin e then 1 else 0) t := by
    rintro (hfailed | ht) hfalse
    · exact Or.inl ⟨hfailed, hfalse⟩
    · rw [hfalse]
      exact Or.inr ht
  cases e with
  | runStream valid =>
      obtain rfl := Option.some.inj hstep
      exact hkept (Or.inr (runStream_inlined h valid)) rfl
  | createReadStream =>
      obtain rfl := Option.some.inj hstep
      exact hkept (Or.inr (createReadStream_inlined h)) rfl
  | reading i =>
      obtain ⟨s, hs, hphase, rfl⟩ := atStatement_some hstep
      have hrequest :=
        requestFn_inlined h hnumbered hs (Or.inl (by simpa using hphase))
          none
      right
      simpa [sendsBegin, hs] using hrequest
  | response i transaction precommitToken =>
      obtain ⟨s, hs, -, rfl⟩ := atStatement_some hstep
      exact hkept (Or.inr (onResponse_inlined h transaction precommitToken)) rfl
  | interrupted i =>
      obtain ⟨s, hs, hrunning, rfl⟩ := atStatement_some hstep
      simp only [Statement.running, Bool.and_eq_true] at hrunning
      exact hkept (failure_inlined h hs (fun _ => hrunning.2)) rfl
  | retry i resumeToken =>
      obtain ⟨s, hs, hphase, rfl⟩ := atStatement_some hstep
      have hretrying : s.phase = .retrying := by simpa using hphase
      exact
        hkept (Or.inr (retry_inlined h hnumbered hs hretrying resumeToken)) rfl
  | failed i error =>
      obtain ⟨s, hs, -, rfl⟩ := atStatement_some hstep
      exact hkept (onError_inlined h hs error) rfl
  | ended i =>
      obtain ⟨s, hs, -, rfl⟩ := atStatement_some hstep
      have hstop := stop_inlined h hs .done false rfl (fun hp => by cases hp)
      exact hkept (Or.inr hstop) rfl
  | batchUpdate queries valid =>
      simp only [statementStep, step] at hstep
      split at hstep
      · obtain rfl := Option.some.inj hstep
        right
        simpa [sendsBegin] using batchUpdate_inlined h queries valid
      · cases hstep
  | batchResponse i transactions precommitToken =>
      obtain ⟨s, hs, -, rfl⟩ := atStatement_some hstep
      have hstop := stop_inlined h hs .done false rfl (fun hp => by cases hp)
      exact
        hkept
          (Or.inr (onBatchResponse_inlined hstop transactions precommitToken))
          rfl
  | batchFailed i error =>
      obtain ⟨s, hs, -, rfl⟩ := atStatement_some hstep
      exact hkept (failure_inlined h hs (fun hp => by cases hp)) rfl
  | begin =>
      cases hstep
  | onBegin id precommitToken =>
      simp [statementStep, step, h.begins] at hstep
  | beginFailed error =>
      simp [statementStep, step, h.begins] at hstep

/-- A failed inline begin is not forgotten. -/
theorem step_beginFailed
    {e : Event}
    (hstep : step p e = some t)
    (hfailed : p.beginFailed = true) :
    t.beginFailed = true :=
  (step_evolves hstep).beginFailed hfailed

theorem statementStep_step
    {e : Event}
    (hstep : statementStep p e = some t) :
    step p e = some t := by
  cases e with
  | begin => cases hstep
  | _ => exact hstep

/-- As long as no inline begin has failed, at most one request begins, every
request sent when the id is known carries it, and no two carry different ids. -/
structure OneTransaction
    (p : Transaction) : Prop where
  begins : p.beginFailed = false → beginCount p.requests ≤ 1
  known :
    p.beginFailed = false →
      ∀ r ∈ p.requests, ∀ t, r.known = some t →
        r.reqOpts.transaction = .id t
  sameId :
    p.beginFailed = false →
      ∀ r ∈ p.requests, ∀ r' ∈ p.requests, ∀ t t',
        r.reqOpts.transaction = .id t →
          r'.reqOpts.transaction = .id t' → t = t'

/-- What holds in every run: the requests are inlined until a begin has failed. -/
structure Beginning
    (p : Transaction) : Prop where
  numbered : p.Numbered
  inlined : p.beginFailed = false → Inlined (beginCount p.requests) p

theorem Beginning.oneTransaction_iff
    (h : p.Beginning) :
    p.OneTransaction ↔
      (p.beginFailed = false → beginCount p.requests ≤ 1) := by
  constructor
  · exact fun hone => hone.begins
  · intro hcount
    refine
      { begins := hcount
        known := fun hfailed => (h.inlined hfailed).single.known
        sameId := ?_ }
    intro hfailed r hr r' hr' t t' ht ht'
    have hid := (h.inlined hfailed).single.sameId r hr t ht
    rw [(h.inlined hfailed).single.sameId r' hr' t' ht'] at hid
    exact (Option.some.inj hid).symm

theorem new_beginning
    (isMuxEnabledForRW : Bool) (previous : Option TransactionId)
    (useInRunner : Bool) :
    (new .readWrite isMuxEnabledForRW previous useInRunner).Beginning where
  numbered := new_numbered _ _ _ _
  inlined := by
    intro _
    exact
      { mode := rfl
        begins := rfl
        beginFailed := rfl
        single :=
          { known := fun _ hr => absurd hr List.not_mem_nil
            sameId := fun _ hr => absurd hr List.not_mem_nil
            statement := fun _ _ hs => by cases hs }
        count_eq := rfl }

theorem step_beginning
    {e : Event}
    (h : p.Beginning)
    (hstep : statementStep p e = some t) :
    t.Beginning := by
  refine
    { numbered := (step_numbered h.numbered (statementStep_step hstep)).1
      inlined := fun htfailed => ?_ }
  have hpfailed : p.beginFailed = false := by
    by_contra hp
    have htrue :=
      step_beginFailed (statementStep_step hstep) (by simpa using hp)
    rw [htfailed] at htrue
    cases htrue
  rcases step_inlined h.numbered (h.inlined hpfailed) hstep with
    ⟨htrue, -⟩ | ht
  · rw [htfailed] at htrue
    cases htrue
  · rw [ht.count_eq]
    exact ht

/-- An event keeps the transaction one exactly if it does not begin again. -/
theorem step_oneTransaction_iff
    {e : Event}
    (h : p.Beginning)
    (hone : p.OneTransaction)
    (hstep : statementStep p e = some t) :
    t.OneTransaction ↔ (p.beginFailed = false → p.beginsAgain e = false) := by
  rw [(step_beginning h hstep).oneTransaction_iff]
  cases hfailed : p.beginFailed with
  | true =>
      have htrue := step_beginFailed (statementStep_step hstep) hfailed
      simp [htrue]
  | false =>
      have hcount := hone.begins hfailed
      rcases step_inlined h.numbered (h.inlined hfailed) hstep with
        ⟨htrue, hsends⟩ | ht
      · simp [htrue, beginsAgain, hsends]
      · rw [ht.count_eq, ht.beginFailed]
        cases hsends : p.sendsBegin e with
        | false => simpa [beginsAgain, hsends] using hcount
        | true => simp [beginsAgain, hsends]

/-- A read/write transaction begins at most one server transaction exactly as long
as no statement begins again, in the runs without calls of `begin`. -/
theorem oneTransaction_iff_never_beginsAgain
    (isMuxEnabledForRW : Bool) (previous : Option TransactionId)
    (useInRunner : Bool) (es : List Event) (p : Transaction)
    (hrun :
      run statementStep
          (new .readWrite isMuxEnabledForRW previous useInRunner) es =
        some p) :
    Always statementStep OneTransaction
        (new .readWrite isMuxEnabledForRW previous useInRunner) es ↔
      Meets statementStep
        (fun q e => q.beginFailed = false → q.beginsAgain e = false)
        (new .readWrite isMuxEnabledForRW previous useInRunner) es := by
  refine
    always_iff_meets (I := Beginning)
      (fun _ _ _ hq hstep => step_beginning hq hstep)
      (fun _ _ _ hq hone hstep => step_oneTransaction_iff hq hone hstep)
      (new_beginning _ _ _) ?_ hrun
  exact
    { begins := fun _ => Nat.zero_le 1
      known := fun _ _ hr => absurd hr List.not_mem_nil
      sameId := fun _ _ hr => absurd hr List.not_mem_nil }

/-- A query has begun the transaction; a batch is sent before its response. -/
def batchBeforeId : List Event :=
  [.runStream true, .reading 0, .batchUpdate 1 true]

/-- The batch begins a second transaction. -/
theorem batchBeforeId_beginsAgain :
    ¬∀ (isMuxEnabledForRW : Bool) (previous : Option TransactionId)
        (useInRunner : Bool) (es : List Event) (p : Transaction),
        run statementStep
            (new .readWrite isMuxEnabledForRW previous useInRunner) es =
          some p → p.OneTransaction := by
  intro h
  have hone := h false none false batchBeforeId _ rfl
  exact absurd (hone.begins rfl) (by decide)

/-- A batch sent once the id is known. -/
theorem oneTransaction_iff_never_beginsAgain_batch :
    ∃ p : Transaction,
      run statementStep (new .readWrite false none false)
          [.runStream true, .reading 0, .response 0 (some 5) none,
            .batchUpdate 1 true] = some p ∧
        p.requests.map (fun r => r.reqOpts.transaction) =
          [.begin none, .id 5] ∧
        (Always statementStep OneTransaction
            (new .readWrite false none false)
            [.runStream true, .reading 0, .response 0 (some 5) none,
              .batchUpdate 1 true] ↔
          Meets statementStep
            (fun q e => q.beginFailed = false → q.beginsAgain e = false)
            (new .readWrite false none false)
            [.runStream true, .reading 0, .response 0 (some 5) none,
              .batchUpdate 1 true]) :=
  ⟨_, rfl, by decide,
    oneTransaction_iff_never_beginsAgain false none false _ _ rfl⟩

end Transaction
end SpannerClient
