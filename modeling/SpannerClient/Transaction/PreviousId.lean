import SpannerClient.Transaction.Events

/-!
# The id of the previous attempt

On a multiplexed session the request that begins a read-write transaction tells the
backend which transaction the attempt before has used.  There are many such requests:
`BeginTransaction`, the inline begin of a query, a read or a `batchUpdate`, and each of
them again after a failure.  All of them carry the id that the transaction has been
given, and a transaction that has an id of its own sends no inline begin.

`BeginsWith` says so of a transaction and of all that it has sent; it is an invariant
of all events (`step_beginsWith`), and the chain of a runner's attempts is built on it.
-/

namespace SpannerClient

/-- The selector begins a transaction only where that is allowed, and with the id. -/
def Selector.Carries
    (previous : Option TransactionId) (inline : Bool) (q : Selector) : Prop :=
  ∀ carried, q = .begin carried → inline = true ∧ carried = previous

namespace Transaction

/-- The `multiplexedSessionPreviousTransactionId` of the requests that begin the
transaction. -/
def beginPrevious
    (p : Transaction) : Option TransactionId :=
  if p.isMuxEnabledForRW then
    p.multiplexedSessionPreviousTransactionId
  else
    none

/-- All requests that begin the transaction carry the id; if none of the statements
may do that, the transaction has an id of its own. -/
structure BeginsWith
    (previous : Option TransactionId) (inline : Bool)
    (p : Transaction) : Prop where
  mode : p.mode = .readWrite
  begins_eq : p.beginPrevious = previous
  unknown : p.id = none → inline = true
  requests : ∀ r ∈ p.requests, r.reqOpts.transaction.Carries previous inline
  statements :
    ∀ s ∈ p.statements, ∀ q, s.reqOpts = some q →
      q.transaction.Carries previous inline

section BeginsWith

variable {previous : Option TransactionId} {inline : Bool}
variable {p t : Transaction}

theorem carries_id
    (id : TransactionId) :
    (Selector.id id).Carries previous inline :=
  fun _ heq => by cases heq

theorem BeginsWith.beginSelector
    (h : BeginsWith previous inline p)
    (hid : p.id = none) :
    p.beginSelector.Carries previous inline := by
  intro carried heq
  refine ⟨h.unknown hid, ?_⟩
  rw [← h.begins_eq, beginPrevious]
  simpa [Transaction.beginSelector, h.mode] using heq.symm

/-- The selector of a query or a read. -/
theorem BeginsWith.selector
    (h : BeginsWith previous inline p) :
    p.selector.Carries previous inline := by
  rw [Transaction.selector]
  cases hid : p.id with
  | none =>
      rw [h.mode]
      exact h.beginSelector hid
  | some id => exact carries_id id

theorem BeginsWith.batchSelector
    (h : BeginsWith previous inline p) :
    p.batchSelector.Carries previous inline := by
  rw [Transaction.batchSelector]
  cases hid : p.id with
  | none => exact h.beginSelector hid
  | some id => exact carries_id id

/-- What does not touch the requests, or adds one that is right. -/
theorem BeginsWith.same
    (h : BeginsWith previous inline p)
    (hmode : t.mode = p.mode)
    (hprevious : t.beginPrevious = p.beginPrevious)
    (hid : t.id = none → p.id = none)
    (hrequests :
      ∀ r ∈ t.requests,
        r ∈ p.requests ∨ r.reqOpts.transaction.Carries previous inline)
    (hstatements :
      ∀ s ∈ t.statements, ∀ q, s.reqOpts = some q →
        (∃ u ∈ p.statements, u.reqOpts = some q) ∨
          q.transaction.Carries previous inline) :
    BeginsWith previous inline t where
  mode := hmode.trans h.mode
  begins_eq := hprevious.trans h.begins_eq
  unknown := fun hnone => h.unknown (hid hnone)
  requests := by
    intro r hr
    rcases hrequests r hr with hr | hr
    · exact h.requests r hr
    · exact hr
  statements := by
    intro s hs q hq
    rcases hstatements s hs q hq with ⟨u, hu, hq⟩ | hq
    · exact h.statements u hu q hq
    · exact hq

/-- A statement is replaced by one whose request is the same, or right. -/
theorem BeginsWith.set
    (h : BeginsWith previous inline p)
    {i : Nat} {s : Statement}
    (hs :
      ∀ q, s.reqOpts = some q →
        (∃ u ∈ p.statements, u.reqOpts = some q) ∨
          q.transaction.Carries previous inline) :
    BeginsWith previous inline
      { p with statements := p.statements.set i s } := by
  refine h.same rfl rfl (fun hid => hid) (fun r hr => Or.inl hr) fun u hu q hq => ?_
  rcases List.mem_or_eq_of_mem_set hu with hu | rfl
  · exact Or.inl ⟨u, hu, hq⟩
  · exact hs q hq

/-- A request is sent. -/
theorem BeginsWith.requestStream
    (h : BeginsWith previous inline p)
    (i : Nat) (s : Statement) {q : ReqOpts}
    (resumeToken : Option ResumeToken)
    (hq : q.transaction.Carries previous inline) :
    BeginsWith previous inline (p.requestStream i s q resumeToken) := by
  refine h.same rfl rfl (fun hid => hid) (fun r hr => ?_) fun u hu q' hq' => ?_
  · rcases List.mem_append.mp hr with hr | hr
    · exact Or.inl hr
    · obtain rfl := List.mem_singleton.mp hr
      exact Or.inr hq
  · rcases List.mem_or_eq_of_mem_set hu with hu | rfl
    · exact Or.inl ⟨u, hu, hq'⟩
    · obtain rfl := Option.some.inj hq'
      exact Or.inr hq

theorem Requested.beginsWith
    {i : Nat} {resumeToken : Option ResumeToken}
    (hrequested : Requested p i resumeToken t)
    (h : BeginsWith previous inline p) :
    BeginsWith previous inline t := by
  cases hrequested with
  | sanitized hs hkind hneeds hvalid =>
      exact
        BeginsWith.requestStream
          (p := { p with seqno := p.seqno + 1 })
          { h with } i _ resumeToken h.selector
  | broken hs hkind hneeds hvalid =>
      refine h.set fun q hq => Or.inl ?_
      exact ⟨_, List.mem_of_getElem? hs, hq⟩
  | resent hs hkind hneeds hq =>
      exact
        h.requestStream i _ resumeToken
          (h.statements _ (List.mem_of_getElem? hs) _ hq)
  | readWithId hs hkind hq hid hbegin =>
      exact h.requestStream i _ resumeToken (carries_id _)
  | read hs hkind hq hbegin =>
      exact
        h.requestStream i _ resumeToken
          (h.statements _ (List.mem_of_getElem? hs) _ hq)
  | nothing hkind => exact h

theorem BeginsWith.update
    (h : BeginsWith previous inline p)
    (id : TransactionId) :
    BeginsWith previous inline (p.update id) := by
  refine
    release_rule
      (I := BeginsWith previous inline)
      (fun _ _ _ _ hq _ hrequested => hrequested.beginsWith hq) ?_
  exact { h with unknown := fun hnone => by cases hnone }

theorem BeginsWith.updateOnce
    (h : BeginsWith previous inline p)
    (transaction : Option TransactionId) :
    BeginsWith previous inline (p.updateOnce transaction) := by
  cases transaction with
  | none => exact h
  | some id =>
      unfold Transaction.updateOnce
      dsimp only
      split
      · exact h.update id
      · exact h

theorem BeginsWith.requestFn
    (h : BeginsWith previous inline p)
    (i : Nat) (resumeToken : Option ResumeToken) :
    BeginsWith previous inline (p.requestFn i resumeToken) := by
  unfold Transaction.requestFn
  split
  · exact h
  · rename_i s hs
    split
    · exact
        { h.set (i := i) (s := s.moveTo .queued) fun _ hq =>
            Or.inl ⟨s, List.mem_of_getElem? hs, hq⟩ with }
    · exact (requested_makeRequest p i resumeToken).beginsWith h

theorem BeginsWith.stop
    (h : BeginsWith previous inline p)
    {i : Nat} {s : Statement}
    (hs : p.statements[i]? = some s)
    (phase : StreamPhase) (failed : Bool) :
    BeginsWith previous inline (p.stop i s phase failed) :=
  { h.set (i := i) (s := s.moveTo phase) fun _ hq =>
      Or.inl ⟨s, List.mem_of_getElem? hs, hq⟩ with }

theorem BeginsWith.onError
    (h : BeginsWith previous inline p)
    (error : ServiceError) :
    BeginsWith previous inline (p.onError error) := by
  unfold Transaction.onError
  split
  · exact { h with }
  · exact h

/-- A statement is called. -/
theorem BeginsWith.snoc
    (h : BeginsWith previous inline p)
    {s : Statement}
    (hs :
      ∀ q, s.reqOpts = some q → q.transaction.Carries previous inline) :
    BeginsWith previous inline
      { p with statements := p.statements ++ [s] } := by
  refine h.same rfl rfl (fun hid => hid) (fun r hr => Or.inl hr) fun u hu q hq => ?_
  rcases List.mem_append.mp hu with hu | hu
  · exact Or.inl ⟨u, hu, hq⟩
  · obtain rfl := List.mem_singleton.mp hu
    exact Or.inr (hs q hq)

theorem BeginsWith.wrapWithIdWaiter
    (h : BeginsWith previous inline p) :
    BeginsWith previous inline p.wrapWithIdWaiter.2 := by
  rcases wrapWithIdWaiter_cases p with
    ⟨-, heq, -⟩ | ⟨-, heq, -⟩ | ⟨-, heq, -⟩ <;>
  · rw [heq]
    exact { h with }

theorem BeginsWith.batchUpdate
    (h : BeginsWith previous inline p)
    (queries : Nat) (valid : Bool) :
    BeginsWith previous inline (p.batchUpdate queries valid) := by
  unfold Transaction.batchUpdate
  split
  · exact h
  · have hcalled :=
      h.snoc (s := ⟨.batchUpdate, true, false, none, .created⟩)
        fun _ hq => by cases hq
    exact
      BeginsWith.requestStream
        (p :=
          { p with
            seqno := p.seqno + 1
            statements :=
              p.statements ++ [⟨.batchUpdate, true, false, none, .created⟩] })
        { hcalled with } _ _ none h.batchSelector

theorem BeginsWith.onBatchResponse
    (h : BeginsWith previous inline p)
    (transactions : List (Option TransactionId))
    (precommitToken : Option PrecommitToken) :
    BeginsWith previous inline
      (p.onBatchResponse transactions precommitToken) := by
  unfold Transaction.onBatchResponse
  have hheard :
      BeginsWith previous inline
        { p with
          latestPreCommitToken :=
            updatePrecommitToken p.latestPreCommitToken precommitToken } :=
    { h with }
  revert hheard
  generalize
    ({ p with
        latestPreCommitToken :=
          updatePrecommitToken p.latestPreCommitToken precommitToken } :
      Transaction) = q
  induction transactions generalizing q with
  | nil => exact fun hq => hq
  | cons transaction transactions ih =>
      exact fun hq => ih _ (hq.updateOnce transaction)

/-- Whatever happens to a transaction, it is begun with the id. -/
theorem step_beginsWith
    {e : Event}
    (h : BeginsWith previous inline p)
    (hstep : step p e = some t) :
    BeginsWith previous inline t := by
  cases e with
  | runStream valid =>
      obtain rfl := Option.some.inj hstep
      exact h.wrapWithIdWaiter.snoc fun _ hq => by cases hq
  | createReadStream =>
      obtain rfl := Option.some.inj hstep
      refine h.wrapWithIdWaiter.snoc fun q hq => ?_
      obtain rfl := Option.some.inj hq
      exact h.selector
  | reading i =>
      obtain ⟨s, hs, -, rfl⟩ := atStatement_some hstep
      exact h.requestFn i none
  | response i transaction precommitToken =>
      obtain ⟨s, hs, -, rfl⟩ := atStatement_some hstep
      exact
        BeginsWith.updateOnce
          (p :=
            { p with
              latestPreCommitToken :=
                updatePrecommitToken p.latestPreCommitToken precommitToken })
          { h with } transaction
  | interrupted i =>
      obtain ⟨s, hs, -, rfl⟩ := atStatement_some hstep
      exact h.stop hs .retrying true
  | retry i resumeToken =>
      obtain ⟨s, hs, -, rfl⟩ := atStatement_some hstep
      exact h.requestFn i resumeToken
  | failed i error =>
      obtain ⟨s, hs, -, rfl⟩ := atStatement_some hstep
      exact (h.stop hs .done true).onError error
  | ended i =>
      obtain ⟨s, hs, -, rfl⟩ := atStatement_some hstep
      exact h.stop hs .done false
  | batchUpdate queries valid =>
      simp only [step] at hstep
      split at hstep
      · obtain rfl := Option.some.inj hstep
        exact h.batchUpdate queries valid
      · cases hstep
  | batchResponse i transactions precommitToken =>
      obtain ⟨s, hs, -, rfl⟩ := atStatement_some hstep
      exact (h.stop hs .done false).onBatchResponse transactions precommitToken
  | batchFailed i error =>
      obtain ⟨s, hs, -, rfl⟩ := atStatement_some hstep
      exact h.stop hs .done true
  | begin =>
      obtain rfl := Option.some.inj hstep
      exact { h with }
  | onBegin id precommitToken =>
      simp only [step] at hstep
      split at hstep
      · obtain rfl := Option.some.inj hstep
        exact
          BeginsWith.update
            (p :=
              { p with
                begins := p.begins - 1
                latestPreCommitToken :=
                  updatePrecommitToken p.latestPreCommitToken precommitToken })
            { h with } id
      · cases hstep
  | beginFailed error =>
      simp only [step] at hstep
      split at hstep
      · obtain rfl := Option.some.inj hstep
        exact { h with }
      · cases hstep

/-- A transaction of which nothing has been sent. -/
theorem new_beginsWith
    (isMuxEnabledForRW : Bool) (previous : Option TransactionId)
    (useInRunner : Bool) :
    BeginsWith (if isMuxEnabledForRW then previous else none) true
      (Transaction.new .readWrite isMuxEnabledForRW previous useInRunner) where
  mode := rfl
  begins_eq := rfl
  unknown := fun _ => rfl
  requests := fun _ hr => absurd hr List.not_mem_nil
  statements := fun _ hs => absurd hs List.not_mem_nil

/-- A transaction that has been begun before its first statement. -/
theorem step_onBegin_new
    {isMuxEnabledForRW : Bool} {useInRunner : Bool}
    {id : TransactionId} {precommitToken : Option PrecommitToken}
    (hstep :
      step
          (Transaction.new .readWrite isMuxEnabledForRW previous
              useInRunner).begin
          (.onBegin id precommitToken) =
        some t) :
    BeginsWith (if isMuxEnabledForRW then previous else none) inline t := by
  obtain rfl := Option.some.inj hstep
  exact
    { mode := rfl
      begins_eq := rfl
      unknown := fun hnone => by cases hnone
      requests := fun _ hr => absurd hr List.not_mem_nil
      statements := fun _ hs => absurd hs List.not_mem_nil }

end BeginsWith

end Transaction

end SpannerClient
