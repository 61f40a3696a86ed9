import SpannerClient.Machine.Containers
import SpannerClient.Transaction.Events

/-!
# Sequence numbers of statements

Every query draws its `seqno` when its request is prepared, and every batch when
it is sent, from the one counter of the transaction.  The numbers of different
calls always differ (`Numbering`, an invariant of all events).  The requests of
one call carry the same number unless a query, sent before the id was known, is
prepared again because its stream is retried after the id has become known
(`renumbers`).

The step lemma is `step_numbered`: it says of every event both that the numbering is
kept and whether a request is sent with another number.  The main result is
`replaySafe_iff_never_renumbers`.
-/

namespace SpannerClient
namespace Transaction

open Machine

/-- The requests of one call carry one number. -/
def SameSeqno
    (requests : List Request) : Prop :=
  ∀ r ∈ requests, ∀ r' ∈ requests,
    r.call = r'.call → r.reqOpts.seqno = r'.reqOpts.seqno

/-- The requests of different calls carry different numbers. -/
def DistinctSeqno
    (requests : List Request) : Prop :=
  ∀ r ∈ requests, ∀ r' ∈ requests,
    r.call ≠ r'.call →
      ∀ n, r.reqOpts.seqno = some n → r'.reqOpts.seqno ≠ some n

/-- What is known of the requests sent for the statement `i`. -/
structure StatementNumbering
    (requests : List Request) (i : Nat) (s : Statement) : Prop where
  /-- A query that has not been prepared has not been sent. -/
  unsent :
    s.kind = .runStream → s.reqOpts = none →
      ∀ r ∈ requests, r.call ≠ i
  /-- A query that has been prepared has a number and has been sent. -/
  sent :
    s.kind = .runStream → ∀ q, s.reqOpts = some q →
      s.valid = true ∧ (∃ n, q.seqno = some n) ∧
        ∃ r ∈ requests, r.call = i ∧ r.reqOpts.seqno = q.seqno
  /-- Reads have no number. -/
  read :
    s.kind = .createReadStream →
      (∀ q, s.reqOpts = some q → q.seqno = none) ∧
        ∀ r ∈ requests, r.call = i → r.reqOpts.seqno = none
  created :
    s.kind = .runStream → s.phase = .created → s.reqOpts = none
  /-- A query that waited for the id has been prepared with it. -/
  wrapped :
    s.kind = .runStream → s.wrapped = true → ∀ q, s.reqOpts = some q →
      q.transaction.id?.isSome = true

/-- What is known of the numbers drawn so far. -/
structure Numbering
    (seqno : Nat) (requests : List Request)
    (statements : List Statement)
    (waitingRequests : List (Nat × Option ResumeToken)) : Prop where
  bound : ∀ r ∈ requests, ∀ n, r.reqOpts.seqno = some n → n < seqno
  call : ∀ r ∈ requests, r.call < statements.length
  distinct : DistinctSeqno requests
  statement :
    ∀ i s, statements[i]? = some s → StatementNumbering requests i s
  waiting :
    ∀ x ∈ waitingRequests,
      ∃ s, statements[x.1]? = some s ∧ s.wrapped = true

/-- `Numbering` of a transaction. -/
def Numbered
    (p : Transaction) : Prop :=
  Numbering p.seqno p.requests p.statements p.waitingRequests

theorem StatementNumbering.moveTo
    {requests : List Request} {i : Nat} {s : Statement}
    (h : StatementNumbering requests i s)
    {phase : StreamPhase}
    (hphase : phase ≠ .created) :
    StatementNumbering requests i (s.moveTo phase) where
  unsent := h.unsent
  sent := h.sent
  read := h.read
  created := fun _ heq => absurd heq hphase
  wrapped := h.wrapped

/-- A request of another statement. -/
theorem StatementNumbering.other
    {requests : List Request} {j : Nat} {s : Statement}
    (h : StatementNumbering requests j s)
    {r : Request}
    (hne : r.call ≠ j) :
    StatementNumbering (requests ++ [r]) j s where
  unsent := by
    intro hkind hnone r' hr'
    rcases List.mem_append.mp hr' with hr' | hr'
    · exact h.unsent hkind hnone r' hr'
    · obtain rfl := List.mem_singleton.mp hr'
      exact hne
  sent := by
    intro hkind q hq
    obtain ⟨hvalid, hn, r', hr', hcall⟩ := h.sent hkind q hq
    exact ⟨hvalid, hn, r', List.mem_append_left _ hr', hcall⟩
  read := by
    intro hkind
    obtain ⟨hreq, hlog⟩ := h.read hkind
    refine ⟨hreq, ?_⟩
    intro r' hr' hcall
    rcases List.mem_append.mp hr' with hr' | hr'
    · exact hlog r' hr' hcall
    · obtain rfl := List.mem_singleton.mp hr'
      exact absurd hcall hne
  created := h.created
  wrapped := h.wrapped

section Numbering

variable {seqno : Nat} {requests : List Request}
variable {statements : List Statement}
variable {waitingRequests : List (Nat × Option ResumeToken)}

/-- The waiting statements stay the wrapped ones they were. -/
theorem waiting_set
    (h :
      ∀ x ∈ waitingRequests,
        ∃ s, statements[x.1]? = some s ∧ s.wrapped = true)
    {i : Nat} {s s' : Statement}
    (hs : statements[i]? = some s)
    (hwrapped : s'.wrapped = s.wrapped) :
    ∀ x ∈ waitingRequests,
      ∃ u, (statements.set i s')[x.1]? = some u ∧ u.wrapped = true := by
  intro x hx
  obtain ⟨u, hu, hwrap⟩ := h x hx
  have hlt : i < statements.length := (List.getElem?_eq_some_iff.mp hs).1
  by_cases hxi : x.1 = i
  · refine ⟨s', by rw [hxi, List.getElem?_set_self hlt], ?_⟩
    rw [hxi, hs] at hu
    obtain rfl := Option.some.inj hu
    exact hwrapped.trans hwrap
  · exact
      ⟨u, by rw [List.getElem?_set_ne (Ne.symm hxi)]; exact hu, hwrap⟩

/-- A statement changes its phase. -/
theorem Numbering.moveTo
    (h : Numbering seqno requests statements waitingRequests)
    {i : Nat} {s : Statement}
    (hs : statements[i]? = some s)
    (phase : StreamPhase)
    (hphase : phase ≠ .created) :
    Numbering seqno requests (statements.set i (s.moveTo phase))
      waitingRequests where
  bound := h.bound
  call := by
    intro r hr
    rw [List.length_set]
    exact h.call r hr
  distinct := h.distinct
  statement := by
    intro j u hj
    rcases getElem?_set_some hj with ⟨rfl, rfl⟩ | ⟨-, hj⟩
    · exact (h.statement _ s hs).moveTo hphase
    · exact h.statement j u hj
  waiting := waiting_set h.waiting hs rfl

/-- A new statement. -/
theorem Numbering.snoc
    (h : Numbering seqno requests statements waitingRequests)
    {s : Statement}
    (hs :
      (∀ r ∈ requests, r.call ≠ statements.length) →
        StatementNumbering requests statements.length s) :
    Numbering seqno requests (statements ++ [s]) waitingRequests where
  bound := h.bound
  call := by
    intro r hr
    have hlt := h.call r hr
    simp only [List.length_append, List.length_singleton]
    omega
  distinct := h.distinct
  statement := by
    intro j u hj
    rcases getElem?_snoc_some hj with ⟨rfl, rfl⟩ | ⟨-, hj⟩
    · exact hs fun r hr => (h.call r hr).ne
    · exact h.statement j u hj
  waiting := by
    intro x hx
    obtain ⟨u, hu, hwrap⟩ := h.waiting x hx
    exact ⟨u, getElem?_snoc_of_some hu _, hwrap⟩

/-- A request of the statement `i`, with a number that no other statement has
used. -/
theorem Numbering.request
    (h : Numbering seqno requests statements waitingRequests)
    {next i : Nat} {s : Statement} {q : ReqOpts}
    {resumeToken : Option ResumeToken} {known : Option TransactionId}
    (hs : statements[i]? = some s)
    (hnext : seqno ≤ next)
    (hbound : ∀ n, q.seqno = some n → n < next)
    (hdistinct :
      ∀ r ∈ requests, r.call ≠ i →
        ∀ n, q.seqno = some n → r.reqOpts.seqno ≠ some n)
    (hquery :
      s.kind = .runStream →
        s.valid = true ∧ (∃ n, q.seqno = some n) ∧
          (s.wrapped = true → q.transaction.id?.isSome = true))
    (hread : s.kind = .createReadStream → q.seqno = none) :
    Numbering next (requests ++ [⟨i, resumeToken, q, known⟩])
      (statements.set i
        { s with
          reqOpts := some q
          phase := .requested })
      waitingRequests where
  bound := by
    intro r hr n hn
    rcases List.mem_append.mp hr with hr | hr
    · exact lt_of_lt_of_le (h.bound r hr n hn) hnext
    · obtain rfl := List.mem_singleton.mp hr
      exact hbound n hn
  call := by
    intro r hr
    rw [List.length_set]
    rcases List.mem_append.mp hr with hr | hr
    · exact h.call r hr
    · obtain rfl := List.mem_singleton.mp hr
      exact (List.getElem?_eq_some_iff.mp hs).1
  distinct := by
    intro r hr r' hr' hne n hn
    rcases List.mem_append.mp hr with hr | hr <;>
      rcases List.mem_append.mp hr' with hr' | hr'
    · exact h.distinct r hr r' hr' hne n hn
    · obtain rfl := List.mem_singleton.mp hr'
      exact fun hq => hdistinct r hr hne n hq hn
    · obtain rfl := List.mem_singleton.mp hr
      exact hdistinct r' hr' hne.symm n hn
    · obtain rfl := List.mem_singleton.mp hr
      obtain rfl := List.mem_singleton.mp hr'
      exact absurd rfl hne
  statement := by
    intro j u hj
    rcases getElem?_set_some hj with ⟨rfl, rfl⟩ | ⟨hne, hj⟩
    · refine
        { unsent := fun _ hnone => by cases hnone
          sent := ?_
          read := ?_
          created := fun _ hphase => by cases hphase
          wrapped := ?_ }
      · intro hkind q' hq'
        obtain rfl := Option.some.inj hq'
        obtain ⟨hvalid, hn, -⟩ := hquery hkind
        exact
          ⟨hvalid, hn, _,
            List.mem_append_right _ (List.mem_singleton.mpr rfl), rfl,
            rfl⟩
      · intro hkind
        refine ⟨?_, ?_⟩
        · intro q' hq'
          obtain rfl := Option.some.inj hq'
          exact hread hkind
        · intro r hr hcall
          rcases List.mem_append.mp hr with hr | hr
          · exact ((h.statement _ s hs).read hkind).2 r hr hcall
          · obtain rfl := List.mem_singleton.mp hr
            exact hread hkind
      · intro hkind hwrap q' hq'
        obtain rfl := Option.some.inj hq'
        exact (hquery hkind).2.2 hwrap
    · exact (h.statement j u hj).other hne.symm
  waiting := waiting_set h.waiting hs rfl

end Numbering

theorem sameSeqno_snoc
    {requests : List Request} {r : Request} :
    SameSeqno (requests ++ [r]) ↔
      SameSeqno requests ∧
        ∀ r' ∈ requests, r'.call = r.call →
          r'.reqOpts.seqno = r.reqOpts.seqno := by
  constructor
  · intro h
    refine ⟨?_, ?_⟩
    · intro a ha b hb
      exact h a (List.mem_append_left _ ha) b (List.mem_append_left _ hb)
    · intro a ha
      exact
        h a (List.mem_append_left _ ha) r
          (List.mem_append_right _ (List.mem_singleton.mpr rfl))
  · rintro ⟨h, hr⟩ a ha b hb hcall
    rcases List.mem_append.mp ha with ha' | ha' <;>
      rcases List.mem_append.mp hb with hb' | hb'
    · exact h a ha' b hb' hcall
    · obtain rfl := List.mem_singleton.mp hb'
      exact hr a ha' hcall
    · obtain rfl := List.mem_singleton.mp ha'
      exact (hr b hb' hcall.symm).symm
    · rw [List.mem_singleton.mp ha', List.mem_singleton.mp hb']

/-- Calling `makeRequest` prepares anew a query that was sent before the id was
known. -/
def renumbersAt
    (p : Transaction) (i : Nat) : Bool :=
  match p.statements[i]? with
  | none => false
  | some s =>
      s.kind == .runStream && p.id.isSome &&
        s.reqOpts.any fun q => q.transaction.id?.isNone

variable {p t : Transaction}

theorem renumbersAt_iff
    {i : Nat} {s : Statement}
    (hs : p.statements[i]? = some s) :
    p.renumbersAt i = true ↔
      s.kind = .runStream ∧ p.id.isSome = true ∧
        ∃ q, s.reqOpts = some q ∧ q.transaction.id?.isNone = true := by
  rw [renumbersAt]
  cases hq : s.reqOpts <;> simp [hs, hq, and_assoc]

/-- With the id known, a query is prepared with it. -/
theorem selector_id
    (hid : p.id.isSome = true) :
    p.selector.id?.isSome = true := by
  obtain ⟨t, ht⟩ := Option.isSome_iff_exists.mp hid
  rw [selector]
  rw [ht]
  rfl

theorem Requested.numbered
    {i : Nat} {resumeToken : Option ResumeToken}
    (hrequested : Requested p i resumeToken t)
    (h : p.Numbered)
    (hwrapped :
      ∀ s, p.statements[i]? = some s → s.wrapped = true →
        p.id.isSome = true) :
    t.Numbered := by
  cases hrequested with
  | sanitized hs hkind _ hvalid =>
      refine
        h.request hs (Nat.le_succ _) ?_ ?_ ?_ ?_
      · intro n hn
        obtain rfl := Option.some.inj hn
        exact Nat.lt_succ_self _
      · intro r hr _ n hn hr'
        obtain rfl := Option.some.inj hn
        exact Nat.lt_irrefl _ (h.bound r hr _ hr')
      · intro _
        exact
          ⟨hvalid, ⟨_, rfl⟩, fun hwrap => selector_id (hwrapped _ hs hwrap)⟩
      · intro hread
        rw [hkind] at hread
        cases hread
  | broken hs =>
      exact h.moveTo hs _ (by decide)
  | resent hs hkind _ hq =>
      obtain ⟨hvalid, hn, r, hr, hcall, hseq⟩ :=
        (h.statement _ _ hs).sent hkind _ hq
      refine h.request hs (Nat.le_refl _) ?_ ?_ ?_ ?_
      · intro n hn
        exact h.bound r hr n (hseq.trans hn)
      · intro r' hr' hne n hn
        exact
          h.distinct r hr r' hr' (by rw [hcall]; exact hne.symm) n
            (hseq.trans hn)
      · intro _
        exact
          ⟨hvalid, hn,
            fun hwrap => (h.statement _ _ hs).wrapped hkind hwrap _ hq⟩
      · intro hread
        rw [hkind] at hread
        cases hread
  | readWithId hs hkind =>
      refine h.request hs (Nat.le_refl _) ?_ ?_ ?_ (fun _ => rfl)
      · intro n hn
        cases hn
      · intro _ _ _ n hn
        cases hn
      · intro hquery
        rw [hkind] at hquery
        cases hquery
  | read hs hkind hq =>
      have hnone := ((h.statement _ _ hs).read hkind).1 _ hq
      refine h.request hs (Nat.le_refl _) ?_ ?_ ?_ (fun _ => hnone)
      · intro n hn
        rw [hnone] at hn
        cases hn
      · intro _ _ _ n hn
        rw [hnone] at hn
        cases hn
      · intro hquery
        rw [hkind] at hquery
        cases hquery
  | nothing =>
      exact h

/-- One call of `makeRequest` keeps the numbers of its statement the same exactly
when it does not prepare the query anew. -/
theorem Requested.same_iff
    {i : Nat} {resumeToken : Option ResumeToken}
    (hrequested : Requested p i resumeToken t)
    (h : p.Numbered)
    (hsame : SameSeqno p.requests) :
    SameSeqno t.requests ↔ p.renumbersAt i = false := by
  cases hrequested with
  | sanitized hs hkind hneeds hvalid =>
      rename_i s
      have hstatement := h.statement _ _ hs
      rw [requestStream]
      rw [sameSeqno_snoc]
      cases hq : s.reqOpts with
      | none =>
          have hfalse : p.renumbersAt i = false := by
            simp [renumbersAt, hs, hq]
          refine iff_of_true ⟨hsame, ?_⟩ hfalse
          intro r hr hcall
          exact absurd hcall (hstatement.unsent hkind hq r hr)
      | some q =>
          have htrue : p.renumbersAt i = true := by
            unfold needsSanitize at hneeds
            simp only [hq, Bool.and_eq_true] at hneeds
            exact (renumbersAt_iff hs).mpr ⟨hkind, hneeds.1, q, hq, hneeds.2⟩
          rw [htrue]
          refine iff_of_false ?_ (by decide)
          rintro ⟨-, hall⟩
          -- The earlier request carries an earlier number.
          obtain ⟨-, -, r, hr, hcall, -⟩ := hstatement.sent hkind q hq
          exact
            Nat.lt_irrefl _ (h.bound r hr _ (hall r hr hcall))
  | broken hs hkind hneeds hvalid =>
      rename_i s
      have hnone : s.reqOpts = none := by
        cases hq : s.reqOpts with
        | none => rfl
        | some q =>
            have hsent := ((h.statement _ _ hs).sent hkind q hq).1
            rw [hvalid] at hsent
            cases hsent
      exact iff_of_true hsame (by simp [renumbersAt, hs, hnone])
  | resent hs hkind hneeds hq =>
      have hfalse : p.renumbersAt i = false := by
        unfold needsSanitize at hneeds
        simp only [hq] at hneeds
        simpa [renumbersAt, hs, hq, hkind] using hneeds
      rw [requestStream]
      rw [sameSeqno_snoc]
      refine iff_of_true ⟨hsame, ?_⟩ hfalse
      obtain ⟨-, -, r, hr, hcall, hseq⟩ :=
        (h.statement _ _ hs).sent hkind _ hq
      intro r' hr' hcall'
      exact (hsame r' hr' r hr (hcall'.trans hcall.symm)).trans hseq
  | readWithId hs hkind =>
      rw [requestStream]
      rw [sameSeqno_snoc]
      refine iff_of_true ⟨hsame, ?_⟩ (by simp [renumbersAt, hs, hkind])
      exact ((h.statement _ _ hs).read hkind).2
  | read hs hkind hq =>
      have hread := (h.statement _ _ hs).read hkind
      rw [requestStream]
      rw [sameSeqno_snoc]
      refine iff_of_true ⟨hsame, ?_⟩ (by simp [renumbersAt, hs, hkind])
      intro r hr hcall
      exact (hread.2 r hr hcall).trans (hread.1 _ hq).symm
  | nothing hkind =>
      refine iff_of_true hsame ?_
      rw [renumbersAt]
      cases hs : p.statements[i]? with
      | none => rfl
      | some s => simp [(hkind s hs).1]

/-- Once the id is known, preparing a query that waited for it keeps its
number. -/
theorem renumbersAt_of_wrapped
    (h : p.Numbered)
    {i : Nat} {s : Statement}
    (hs : p.statements[i]? = some s)
    (hwrapped : s.wrapped = true) :
    p.renumbersAt i = false := by
  by_contra hnot
  obtain ⟨hkind, -, q, hq, hnone⟩ :=
    (renumbersAt_iff hs).mp (by simpa using hnot)
  have hsome := (h.statement i s hs).wrapped hkind hwrapped q hq
  rw [Option.isNone_iff_eq_none] at hnone
  rw [hnone] at hsome
  cases hsome

/-- The numbers are kept apart, and kept the same if they were. -/
def Keeps
    (requests : List Request) (q : Transaction) : Prop :=
  q.Numbered ∧ (SameSeqno requests → SameSeqno q.requests)

/-- The numbers after the id has become known and the waiting requests have been
sent. -/
theorem update_keeps
    (h : p.Numbered) (id : TransactionId) :
    Keeps p.requests (p.update id) := by
  rw [update]
  refine
    release_rule_wrapped (I := fun q => Keeps p.requests q) ?_ h.waiting
      ⟨?_, fun hsame => hsame⟩
  · rintro q i resumeToken t ⟨hq, hqsame⟩ hid ⟨s, hs, hwrapped⟩ hrequested
    refine ⟨hrequested.numbered hq ?_, ?_⟩
    · intro _ _ _
      rw [hid]
      rfl
    · intro hsame
      exact
        (hrequested.same_iff hq (hqsame hsame)).mpr
          (renumbersAt_of_wrapped hq hs hwrapped)
  · exact
      { bound := h.bound
        call := h.call
        distinct := h.distinct
        statement := h.statement
        waiting := fun _ hx => absurd hx List.not_mem_nil }

theorem updateOnce_keeps
    (h : p.Numbered) (transaction : Option TransactionId) :
    Keeps p.requests (p.updateOnce transaction) := by
  cases transaction with
  | none =>
      exact ⟨h, fun hsame => hsame⟩
  | some t =>
      unfold updateOnce
      dsimp only
      split
      · exact update_keeps h t
      · exact ⟨h, fun hsame => hsame⟩

theorem onResponse_keeps
    (h : p.Numbered)
    (transaction : Option TransactionId)
    (precommitToken : Option PrecommitToken) :
    Keeps p.requests (p.onResponse transaction precommitToken) :=
  updateOnce_keeps
    (p :=
      { p with
        latestPreCommitToken :=
          updatePrecommitToken p.latestPreCommitToken precommitToken })
    h transaction

theorem onBegin_keeps
    (h : p.Numbered) (id : TransactionId)
    (precommitToken : Option PrecommitToken) :
    Keeps p.requests (p.onBegin id precommitToken) :=
  update_keeps
    (p :=
      { p with
        latestPreCommitToken :=
          updatePrecommitToken p.latestPreCommitToken precommitToken })
    h id

theorem onBatchResponse_keeps
    (h : p.Numbered)
    (transactions : List (Option TransactionId))
    (precommitToken : Option PrecommitToken) :
    Keeps p.requests (p.onBatchResponse transactions precommitToken) := by
  rw [onBatchResponse]
  have hfold :
      ∀ q : Transaction, Keeps p.requests q →
        Keeps p.requests (transactions.foldl updateOnce q) := by
    induction transactions with
    | nil =>
        exact fun q hq => hq
    | cons transaction transactions ih =>
        rintro q ⟨hq, hqsame⟩
        obtain ⟨hu, husame⟩ := updateOnce_keeps hq transaction
        exact ih _ ⟨hu, fun hsame => husame (hqsame hsame)⟩
  exact hfold _ ⟨h, fun hsame => hsame⟩

theorem stop_keeps
    (h : p.Numbered)
    {i : Nat} {s : Statement}
    (hs : p.statements[i]? = some s)
    (phase : StreamPhase)
    (hphase : phase ≠ .created) (failed : Bool) :
    Keeps p.requests (p.stop i s phase failed) :=
  ⟨h.moveTo hs phase hphase, fun hsame => hsame⟩

theorem onError_keeps
    {q : Transaction}
    (h : Keeps p.requests q) (error : ServiceError) :
    Keeps p.requests (q.onError error) := by
  rw [onError]
  split
  · exact h
  · exact h

theorem runStream_keeps
    (h : p.Numbered) (valid : Bool) :
    Keeps p.requests (p.runStream valid) := by
  have hnew :
      ∀ wrapped,
        (∀ r ∈ p.requests, r.call ≠ p.statements.length) →
          StatementNumbering p.requests p.statements.length
            ⟨.runStream, valid, wrapped, none, .created⟩ := by
    intro wrapped hunsent
    exact
      { unsent := fun _ _ => hunsent
        sent := fun _ q hq => by cases hq
        read := fun hkind => by cases hkind
        created := fun _ _ => rfl
        wrapped := fun _ _ q hq => by cases hq }
  rw [runStream]
  rcases wrapWithIdWaiter_cases p with
    ⟨hw, hp, -⟩ | ⟨hw, hp, -⟩ | ⟨hw, hp, -⟩ <;>
  · dsimp only
    rw [hw, hp]
    exact ⟨h.snoc (hnew _), fun hsame => hsame⟩

theorem createReadStream_keeps
    (h : p.Numbered) :
    Keeps p.requests p.createReadStream := by
  have hnew :
      ∀ wrapped,
        (∀ r ∈ p.requests, r.call ≠ p.statements.length) →
          StatementNumbering p.requests p.statements.length
            ⟨.createReadStream, true, wrapped, some ⟨p.selector, none⟩,
              .created⟩ := by
    intro wrapped hunsent
    refine
      { unsent := fun hkind => by cases hkind
        sent := fun hkind => by cases hkind
        read := ?_
        created := fun hkind => by cases hkind
        wrapped := fun hkind => by cases hkind }
    intro _
    refine ⟨?_, fun r hr hcall => absurd hcall (hunsent r hr)⟩
    intro q hq
    obtain rfl := Option.some.inj hq
    rfl
  rw [createReadStream]
  rcases wrapWithIdWaiter_cases p with
    ⟨hw, hp, -⟩ | ⟨hw, hp, -⟩ | ⟨hw, hp, -⟩ <;>
  · dsimp only
    rw [hw, hp]
    exact ⟨h.snoc (hnew _), fun hsame => hsame⟩

theorem batchUpdate_keeps
    (h : p.Numbered) (queries : Nat) (valid : Bool) :
    Keeps p.requests (p.batchUpdate queries valid) := by
  rw [batchUpdate]
  split
  · exact ⟨h, fun hsame => hsame⟩
  · have hunsent : ∀ r ∈ p.requests, r.call ≠ p.statements.length :=
      fun r hr => (h.call r hr).ne
    have hnew :
        Numbering p.seqno p.requests
          (p.statements ++
            [⟨.batchUpdate, true, false, none, .created⟩])
          p.waitingRequests :=
      h.snoc fun _ =>
        { unsent := fun hkind => by cases hkind
          sent := fun hkind => by cases hkind
          read := fun hkind => by cases hkind
          created := fun hkind => by cases hkind
          wrapped := fun hkind => by cases hkind }
    refine ⟨?_, ?_⟩
    · refine
        hnew.request (by simp) (Nat.le_succ _) ?_ ?_
          (fun hkind => by cases hkind) (fun hkind => by cases hkind)
      · intro n hn
        obtain rfl := Option.some.inj hn
        exact Nat.lt_succ_self _
      · intro r hr _ n hn hr'
        obtain rfl := Option.some.inj hn
        exact Nat.lt_irrefl _ (h.bound r hr _ hr')
    · intro hsame
      exact
        sameSeqno_snoc.mpr
          ⟨hsame, fun r hr hcall => absurd hcall (hunsent r hr)⟩

/-- The request function of a statement: it keeps the numbers the same unless it
prepares a query anew. -/
theorem requestFn_numbered
    (h : p.Numbered)
    (i : Nat) (resumeToken : Option ResumeToken) :
    (p.requestFn i resumeToken).Numbered ∧
      (SameSeqno p.requests →
        (SameSeqno (p.requestFn i resumeToken).requests ↔
          p.renumbersAt i = false)) := by
  rw [requestFn]
  cases hs : p.statements[i]? with
  | none =>
      refine ⟨h, fun hsame => iff_of_true hsame ?_⟩
      simp [renumbersAt, hs]
  | some s =>
      dsimp only
      split
      · rename_i hwrapped
        refine ⟨?_, fun hsame => iff_of_true hsame ?_⟩
        · have hmove := h.moveTo hs .queued (by decide)
          refine { hmove with waiting := ?_ }
          intro x hx
          rcases List.mem_append.mp hx with hx | hx
          · exact hmove.waiting x hx
          · obtain rfl := List.mem_singleton.mp hx
            have hlt := (List.getElem?_eq_some_iff.mp hs).1
            exact
              ⟨s.moveTo .queued, List.getElem?_set_self hlt, hwrapped⟩
        · exact renumbersAt_of_wrapped h hs hwrapped
      · rename_i hwrapped
        have hrequested := requested_makeRequest p i resumeToken
        refine
          ⟨hrequested.numbered h ?_,
            fun hsame => hrequested.same_iff h hsame⟩
        intro u hu hwrap
        rw [hs] at hu
        obtain rfl := Option.some.inj hu
        exact absurd hwrap hwrapped

/-- The event retries a query that was sent before the id was known, now that the
id is known. -/
def renumbers
    (p : Transaction) : Event → Bool
  | .retry i _ => p.renumbersAt i
  | _ => false

/-- The numbers stay apart at every event, and stay the same exactly when no query
is prepared anew. -/
theorem step_numbered
    {e : Event}
    (h : p.Numbered)
    (hstep : step p e = some t) :
    t.Numbered ∧
      (SameSeqno p.requests →
        (SameSeqno t.requests ↔ p.renumbers e = false)) := by
  have hkeeps :
      Keeps p.requests t → p.renumbers e = false →
        t.Numbered ∧
          (SameSeqno p.requests →
            (SameSeqno t.requests ↔ p.renumbers e = false)) := by
    rintro ⟨ht, hsame⟩ hfalse
    exact ⟨ht, fun hp => iff_of_true (hsame hp) hfalse⟩
  cases e with
  | runStream valid =>
      obtain rfl := Option.some.inj hstep
      exact hkeeps (runStream_keeps h valid) rfl
  | createReadStream =>
      obtain rfl := Option.some.inj hstep
      exact hkeeps (createReadStream_keeps h) rfl
  | reading i =>
      obtain ⟨s, hs, hphase, rfl⟩ := atStatement_some hstep
      obtain ⟨ht, hiff⟩ := requestFn_numbered h i none
      refine ⟨ht, fun hsame => iff_of_true ((hiff hsame).mpr ?_) rfl⟩
      -- A query is prepared for the first time when it is first read.
      by_contra hnot
      obtain ⟨hkind, -, q, hq, -⟩ :=
        (renumbersAt_iff hs).mp (by simpa using hnot)
      have hnone :=
        (h.statement i s hs).created hkind (by simpa using hphase)
      rw [hnone] at hq
      cases hq
  | response i transaction precommitToken =>
      obtain ⟨s, hs, -, rfl⟩ := atStatement_some hstep
      exact hkeeps (onResponse_keeps h transaction precommitToken) rfl
  | interrupted i =>
      obtain ⟨s, hs, -, rfl⟩ := atStatement_some hstep
      exact hkeeps (stop_keeps h hs _ (by decide) true) rfl
  | retry i resumeToken =>
      obtain ⟨s, hs, -, rfl⟩ := atStatement_some hstep
      exact requestFn_numbered h i resumeToken
  | failed i error =>
      obtain ⟨s, hs, -, rfl⟩ := atStatement_some hstep
      exact
        hkeeps (onError_keeps (stop_keeps h hs _ (by decide) true) error) rfl
  | ended i =>
      obtain ⟨s, hs, -, rfl⟩ := atStatement_some hstep
      exact hkeeps (stop_keeps h hs _ (by decide) false) rfl
  | batchUpdate queries valid =>
      simp only [step] at hstep
      split at hstep
      · obtain rfl := Option.some.inj hstep
        exact hkeeps (batchUpdate_keeps h queries valid) rfl
      · cases hstep
  | batchResponse i transactions precommitToken =>
      obtain ⟨s, hs, -, rfl⟩ := atStatement_some hstep
      obtain ⟨hstop, -⟩ := stop_keeps h hs .done (by decide) false
      exact
        hkeeps
          (onBatchResponse_keeps hstop transactions precommitToken) rfl
  | batchFailed i error =>
      obtain ⟨s, hs, -, rfl⟩ := atStatement_some hstep
      exact hkeeps (stop_keeps h hs _ (by decide) true) rfl
  | begin =>
      obtain rfl := Option.some.inj hstep
      exact hkeeps ⟨h, fun hsame => hsame⟩ rfl
  | onBegin id precommitToken =>
      simp only [step] at hstep
      split at hstep
      · obtain rfl := Option.some.inj hstep
        exact
          hkeeps
            (onBegin_keeps (p := { p with begins := p.begins - 1 }) h id
              precommitToken)
            rfl
      · cases hstep
  | beginFailed error =>
      simp only [step] at hstep
      split at hstep
      · obtain rfl := Option.some.inj hstep
        exact hkeeps ⟨h, fun hsame => hsame⟩ rfl
      · cases hstep

theorem new_numbered
    (mode : TransactionMode) (isMuxEnabledForRW : Bool)
    (previous : Option TransactionId) (useInRunner : Bool) :
    (new mode isMuxEnabledForRW previous useInRunner).Numbered where
  bound := fun _ hr => absurd hr List.not_mem_nil
  call := fun _ hr => absurd hr List.not_mem_nil
  distinct := fun _ hr => absurd hr List.not_mem_nil
  statement := fun _ _ hs => by cases hs
  waiting := fun _ hx => absurd hx List.not_mem_nil

/-- The numbers make the requests safe to replay: one number for each call, and
different numbers for different calls. -/
def ReplaySafe
    (p : Transaction) : Prop :=
  SameSeqno p.requests ∧ DistinctSeqno p.requests

/-- Along a run of a transaction the sequence numbers stay safe to replay exactly
as long as no query, sent before the id was known, is retried after the id has
become known. -/
theorem replaySafe_iff_never_renumbers
    (mode : TransactionMode) (isMuxEnabledForRW : Bool)
    (previous : Option TransactionId) (useInRunner : Bool)
    (es : List Event) (p : Transaction)
    (hrun :
      run step (new mode isMuxEnabledForRW previous useInRunner) es =
        some p) :
    Always step ReplaySafe
        (new mode isMuxEnabledForRW previous useInRunner) es ↔
      Meets step (fun q e => q.renumbers e = false)
        (new mode isMuxEnabledForRW previous useInRunner) es := by
  refine
    always_iff_meets (I := Numbered)
      (fun q e t hq hstep => (step_numbered hq hstep).1) ?_
      (new_numbered _ _ _ _) ?_ hrun
  · intro q e t hq hsafe hstep
    obtain ⟨ht, hiff⟩ := step_numbered hq hstep
    rw [← hiff hsafe.1]
    exact ⟨fun hsafe' => hsafe'.1, fun hsame => ⟨hsame, ht.distinct⟩⟩
  · constructor <;>
    · intro r hr
      exact absurd hr List.not_mem_nil

/-- The first query of a transaction is interrupted after its first chunk has
brought the id, and sent again. -/
def retriedAfterId : List Event :=
  [.runStream true, .reading 0, .response 0 (some 5) none, .interrupted 0,
    .retry 0 (some [1])]

/-- The retried query carries a new number. -/
theorem retriedAfterId_renumbers :
    ¬∀ (isMuxEnabledForRW : Bool) (previous : Option TransactionId)
        (useInRunner : Bool) (es : List Event) (p : Transaction),
        run step (new .readWrite isMuxEnabledForRW previous useInRunner)
            es = some p →
          p.ReplaySafe := by
  intro h
  have hsafe := h false none false retriedAfterId _ rfl
  have hnumbers :=
    hsafe.1 ⟨0, none, ⟨.begin none, some 1⟩, none⟩ (by decide)
      ⟨0, some [1], ⟨.id 5, some 2⟩, some 5⟩ (by decide) rfl
  exact absurd hnumbers (by decide)

/-- Two queries, one of them waiting for the id. -/
theorem replaySafe_iff_never_renumbers_two :
    ∃ p : Transaction,
      run step (new .readWrite false none false)
          [.runStream true, .runStream true, .reading 0, .reading 1,
            .response 0 (some 5) none] = some p ∧
        p.requests.map (fun r => (r.call, r.reqOpts.seqno)) =
          [(0, some 1), (1, some 2)] ∧
        (Always step ReplaySafe (new .readWrite false none false)
            [.runStream true, .runStream true, .reading 0, .reading 1,
              .response 0 (some 5) none] ↔
          Meets step (fun q e => q.renumbers e = false)
            (new .readWrite false none false)
            [.runStream true, .runStream true, .reading 0, .reading 1,
              .response 0 (some 5) none]) :=
  ⟨_, rfl, by decide,
    replaySafe_iff_never_renumbers .readWrite false none false _ _ rfl⟩

end Transaction
end SpannerClient
