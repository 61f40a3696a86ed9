import SpannerClient.Machine.Run
import SpannerClient.Transaction.Basic

/-!
# Events of a transaction

The calls a user makes on a transaction and what the requests they send come to.
Requests are in flight together and answer in any order; a stream may process
chunks it has already received while its request is being retried.  Which error
is retried, and with which resume token, is decided by the stream and not looked
at here: a running request may be interrupted, to be sent again, or fail for
good.

`step` is one event.  `Requested` says what sending a request does to a transaction,
and `Untouched` that a statement is left as it is; `release_rule` is the rule for the
requests that are sent when the id becomes known.  What has been sent stays sent
(`step_requests_subset`).
-/

namespace SpannerClient
namespace Transaction

/-- Events of a transaction; statements are named by the order of their calls. -/
inductive Event where
  /-- A call of `runStream`, `run` or `runUpdate`. -/
  | runStream (valid : Bool)
  /-- A call of `createReadStream` or `read`. -/
  | createReadStream
  /-- The stream of the statement is read for the first time. -/
  | reading (i : Nat)
  /-- The stream processes a chunk, with its transaction and its token. -/
  | response (i : Nat)
      (transaction : Option TransactionId)
      (precommitToken : Option PrecommitToken)
  /-- The request of the stream fails and is going to be retried. -/
  | interrupted (i : Nat)
  /-- The stream sends its request again. -/
  | retry (i : Nat) (resumeToken : Option ResumeToken)
  /-- The stream fails. -/
  | failed (i : Nat) (error : ServiceError)
  /-- The stream ends. -/
  | ended (i : Nat)
  /-- A call of `batchUpdate`, with the number of its queries. -/
  | batchUpdate (queries : Nat) (valid : Bool)
  /-- The response of a `batchUpdate`. -/
  | batchResponse (i : Nat)
      (transactions : List (Option TransactionId))
      (precommitToken : Option PrecommitToken)
  /-- The request of a `batchUpdate` fails. -/
  | batchFailed (i : Nat) (error : ServiceError)
  /-- A call of `begin`. -/
  | begin
  /-- The response of a `BeginTransaction` request. -/
  | onBegin (id : TransactionId)
      (precommitToken : Option PrecommitToken)
  /-- A `BeginTransaction` request fails. -/
  | beginFailed (error : ServiceError)
deriving DecidableEq

/-- Do something to a statement that meets the guard. -/
def atStatement
    (p : Transaction) (i : Nat)
    (guard : Statement → Bool)
    (f : Statement → Transaction) : Option Transaction :=
  match p.statements[i]? with
  | none => none
  | some s => if guard s then some (f s) else none

/-- One event. -/
def step
    (p : Transaction) : Event → Option Transaction
  | .runStream valid => some (p.runStream valid)
  | .createReadStream => some p.createReadStream
  | .reading i =>
      p.atStatement i (fun s => s.phase == .created) fun _ =>
        p.requestFn i none
  | .response i transaction precommitToken =>
      p.atStatement i
        (fun s =>
          s.kind != .batchUpdate && s.reqOpts.isSome &&
            (s.phase == .requested || s.phase == .queued ||
              s.phase == .retrying))
        fun _ => p.onResponse transaction precommitToken
  | .interrupted i =>
      p.atStatement i Statement.running fun s => p.stop i s .retrying true
  | .retry i resumeToken =>
      p.atStatement i (fun s => s.phase == .retrying) fun _ =>
        p.requestFn i resumeToken
  | .failed i error =>
      p.atStatement i
        (fun s =>
          s.kind != .batchUpdate && s.phase == .requested &&
            (s.reqOpts.isSome || error.code != some .ABORTED))
        fun s => (p.stop i s .done true).onError error
  | .ended i =>
      p.atStatement i Statement.running fun s => p.stop i s .done false
  | .batchUpdate queries valid =>
      if p.mode = .readWrite then
        some (p.batchUpdate queries valid)
      else
        none
  | .batchResponse i transactions precommitToken =>
      p.atStatement i
        (fun s => s.kind == .batchUpdate && s.phase == .requested)
        fun s =>
          (p.stop i s .done false).onBatchResponse transactions
            precommitToken
  | .batchFailed i _ =>
      p.atStatement i
        (fun s => s.kind == .batchUpdate && s.phase == .requested)
        fun s => p.stop i s .done true
  | .begin => some p.begin
  | .onBegin t precommitToken =>
      if 0 < p.begins then
        some
          (onBegin { p with begins := p.begins - 1 } t precommitToken)
      else
        none
  | .beginFailed _ =>
      if 0 < p.begins then
        some { p with begins := p.begins - 1 }
      else
        none

theorem atStatement_some
    {p t : Transaction} {i : Nat}
    {guard : Statement → Bool}
    {f : Statement → Transaction}
    (h : p.atStatement i guard f = some t) :
    ∃ s,
      p.statements[i]? = some s ∧
      guard s = true ∧
      t = f s := by
  unfold atStatement at h
  split at h
  · cases h
  · rename_i s hs
    split at h
    · rename_i hguard
      exact ⟨s, hs, hguard, (Option.some.inj h).symm⟩
    · cases h

/-- A transaction before its first call. -/
def new
    (mode : TransactionMode) (isMuxEnabledForRW : Bool)
    (previous : Option TransactionId) (useInRunner : Bool) :
    Transaction :=
  { mode := mode
    isMuxEnabledForRW := isMuxEnabledForRW
    multiplexedSessionPreviousTransactionId := previous
    useInRunner := useInRunner }

/-- What `makeRequest` can do. -/
inductive Requested
    (p : Transaction) (i : Nat) (resumeToken : Option ResumeToken) :
    Transaction → Prop where
  /-- The query is prepared with the next `seqno` and sent. -/
  | sanitized
      {s : Statement}
      (hs : p.statements[i]? = some s)
      (hkind : s.kind = .runStream)
      (hneeds : p.needsSanitize s = true)
      (hvalid : s.valid = true) :
      Requested p i resumeToken
        (requestStream { p with seqno := p.seqno + 1 } i s
          ⟨p.selector, some p.seqno⟩ resumeToken)
  /-- The query cannot be prepared. -/
  | broken
      {s : Statement}
      (hs : p.statements[i]? = some s)
      (hkind : s.kind = .runStream)
      (hneeds : p.needsSanitize s = true)
      (hvalid : s.valid = false) :
      Requested p i resumeToken
        { p with statements := p.statements.set i (s.moveTo .requested) }
  /-- The query is sent as it was prepared before. -/
  | resent
      {s : Statement} {q : ReqOpts}
      (hs : p.statements[i]? = some s)
      (hkind : s.kind = .runStream)
      (hneeds : p.needsSanitize s = false)
      (hq : s.reqOpts = some q) :
      Requested p i resumeToken (requestStream p i s q resumeToken)
  /-- The read is sent with the id instead of the inline begin. -/
  | readWithId
      {s : Statement} {q : ReqOpts} {t : TransactionId}
      (hs : p.statements[i]? = some s)
      (hkind : s.kind = .createReadStream)
      (hq : s.reqOpts = some q)
      (hid : p.id = some t)
      (hbegin : q.transaction.isBegin = true) :
      Requested p i resumeToken
        (requestStream p i s ⟨.id t, none⟩ resumeToken)
  /-- The read is sent as it is. -/
  | read
      {s : Statement} {q : ReqOpts}
      (hs : p.statements[i]? = some s)
      (hkind : s.kind = .createReadStream)
      (hq : s.reqOpts = some q)
      (hbegin : p.id = none ∨ q.transaction.isBegin = false) :
      Requested p i resumeToken (requestStream p i s q resumeToken)
  /-- There is no such stream. -/
  | nothing
      (hkind :
        ∀ s, p.statements[i]? = some s →
          s.kind ≠ .runStream ∧
            (s.kind = .createReadStream → s.reqOpts = none)) :
      Requested p i resumeToken p

theorem requested_makeRequest
    (p : Transaction) (i : Nat) (resumeToken : Option ResumeToken) :
    Requested p i resumeToken (p.makeRequest i resumeToken) := by
  rw [makeRequest]
  cases hs : p.statements[i]? with
  | none =>
      refine .nothing ?_
      intro s hs'
      rw [hs] at hs'
      cases hs'
  | some s =>
      dsimp only
      have hother :
          s.kind ≠ .runStream →
            (s.kind = .createReadStream → s.reqOpts = none) →
              Requested p i resumeToken p := by
        intro hkind hnone
        refine .nothing ?_
        intro u hu
        rw [hs] at hu
        obtain rfl := Option.some.inj hu
        exact ⟨hkind, hnone⟩
      cases hkind : s.kind with
      | runStream =>
          dsimp only
          cases hneeds : p.needsSanitize s with
          | true =>
              rw [if_pos rfl]
              split
              · rename_i hvalid
                exact .sanitized hs hkind hneeds hvalid
              · rename_i hvalid
                exact .broken hs hkind hneeds (by simpa using hvalid)
          | false =>
              cases hq : s.reqOpts with
              | none => simp [needsSanitize, hq] at hneeds
              | some q => exact .resent hs hkind hneeds hq
      | createReadStream =>
          cases hq : s.reqOpts with
          | none =>
              exact hother (by simp [hkind]) (fun _ => hq)
          | some q =>
              dsimp only
              cases hid : p.id with
              | none =>
                  exact .read hs hkind hq (Or.inl hid)
              | some t =>
                  cases hbegin : q.transaction.isBegin with
                  | true => exact .readWithId hs hkind hq hid hbegin
                  | false => exact .read hs hkind hq (Or.inr hbegin)
      | batchUpdate =>
          cases s.reqOpts <;>
            exact hother (by simp [hkind]) (by simp [hkind])

/-- The part of a transaction that requests do not change. -/
structure Untouched
    (p t : Transaction) : Prop where
  mode : t.mode = p.mode
  useInRunner : t.useInRunner = p.useInRunner
  inlineBeginStarted : t.inlineBeginStarted = p.inlineBeginStarted
  latestPreCommitToken : t.latestPreCommitToken = p.latestPreCommitToken
  begins : t.begins = p.begins
  beginFailed : t.beginFailed = p.beginFailed

theorem Untouched.trans
    {p q t : Transaction}
    (h : Untouched p q) (h' : Untouched q t) :
    Untouched p t where
  mode := h'.mode.trans h.mode
  useInRunner := h'.useInRunner.trans h.useInRunner
  inlineBeginStarted := h'.inlineBeginStarted.trans h.inlineBeginStarted
  latestPreCommitToken :=
    h'.latestPreCommitToken.trans h.latestPreCommitToken
  begins := h'.begins.trans h.begins
  beginFailed := h'.beginFailed.trans h.beginFailed

/-- `makeRequest` leaves everything else alone. -/
theorem Requested.frame
    {p t : Transaction} {i : Nat} {resumeToken : Option ResumeToken}
    (h : Requested p i resumeToken t) :
    t.id = p.id ∧ t.waitingRequests = p.waitingRequests ∧
      Untouched p t := by
  cases h <;> exact ⟨rfl, rfl, ⟨rfl, rfl, rfl, rfl, rfl, rfl⟩⟩

/-- The statements keep how they were called, and the others are not touched. -/
theorem Requested.statement
    {p t : Transaction} {i j : Nat} {resumeToken : Option ResumeToken}
    (h : Requested p i resumeToken t)
    {s : Statement}
    (hs : p.statements[j]? = some s) :
    ∃ u,
      t.statements[j]? = some u ∧
      u.kind = s.kind ∧
      u.wrapped = s.wrapped ∧
      (j ≠ i → u = s) := by
  have hset :
      ∀ {a : Statement}, p.statements[i]? = some a →
        ∀ b : Statement, b.kind = a.kind → b.wrapped = a.wrapped →
          ∃ u,
            (p.statements.set i b)[j]? = some u ∧
            u.kind = s.kind ∧
            u.wrapped = s.wrapped ∧
            (j ≠ i → u = s) := by
    intro a ha b hkind hwrapped
    have hlt := (List.getElem?_eq_some_iff.mp ha).1
    by_cases hij : j = i
    · subst hij
      rw [ha] at hs
      obtain rfl := Option.some.inj hs
      exact
        ⟨b, List.getElem?_set_self hlt, hkind, hwrapped,
          fun hne => absurd rfl hne⟩
    · exact
        ⟨s, by rw [List.getElem?_set_ne (Ne.symm hij)]; exact hs, rfl,
          rfl, fun _ => rfl⟩
  cases h with
  | sanitized ha => exact hset ha _ rfl rfl
  | broken ha => exact hset ha _ rfl rfl
  | resent ha => exact hset ha _ rfl rfl
  | readWithId ha => exact hset ha _ rfl rfl
  | read ha => exact hset ha _ rfl rfl
  | nothing => exact ⟨s, hs, rfl, rfl, fun _ => rfl⟩

/-- The wrapper of the request function changes nothing but the flag. -/
theorem wrapWithIdWaiter_cases
    (p : Transaction) :
    (p.wrapWithIdWaiter.1 = false ∧ p.wrapWithIdWaiter.2 = p ∧
        (p.id.isSome = true ∨ p.mode ≠ .readWrite)) ∨
      (p.wrapWithIdWaiter.1 = false ∧
        p.wrapWithIdWaiter.2 = { p with inlineBeginStarted := true } ∧
          p.id = none ∧ p.mode = .readWrite ∧
            p.inlineBeginStarted = false) ∨
      (p.wrapWithIdWaiter.1 = true ∧ p.wrapWithIdWaiter.2 = p ∧
        p.id = none ∧ p.mode = .readWrite ∧
          p.inlineBeginStarted = true) := by
  rw [wrapWithIdWaiter]
  split
  · rename_i hdirect
    exact Or.inl ⟨rfl, rfl, by simpa using hdirect⟩
  · rename_i hdirect
    obtain ⟨hid, hmode⟩ : p.id = none ∧ p.mode = .readWrite := by
      simpa using hdirect
    cases hstarted : p.inlineBeginStarted with
    | false => exact Or.inr (Or.inl ⟨rfl, rfl, hid, hmode, rfl⟩)
    | true => exact Or.inr (Or.inr ⟨rfl, rfl, hid, hmode, rfl⟩)

/-- The rule for releasing the waiting requests: what each of the requests keeps
holds when all have been made. -/
theorem release_rule
    {I : Transaction → Prop} {p : Transaction}
    (hstep :
      ∀ q x t,
        x ∈ p.waitingRequests → I q → q.id = p.id →
          Requested q x.1 x.2 t → I t)
    (h : I { p with waitingRequests := [] }) :
    I p.releaseWaitingRequests := by
  have hfold :
      ∀ (waiting : List (Nat × Option ResumeToken)) (q : Transaction),
        (∀ x ∈ waiting, x ∈ p.waitingRequests) → I q → q.id = p.id →
          I (waiting.foldl (fun q x => q.makeRequest x.1 x.2) q) := by
    intro waiting
    induction waiting with
    | nil =>
        intro q _ hq _
        exact hq
    | cons x waiting ih =>
        intro q hmem hq hid
        have hrequested := requested_makeRequest q x.1 x.2
        exact
          ih _ (fun y hy => hmem y (List.mem_cons_of_mem x hy))
            (hstep q x _ (hmem x List.mem_cons_self) hq hid hrequested)
            (hrequested.frame.1.trans hid)
  exact hfold p.waitingRequests _ (fun _ hx => hx) h rfl

/-- The requests waiting are those of wrapped statements. -/
def WaitingWrapped
    (p : Transaction) : Prop :=
  ∀ x ∈ p.waitingRequests,
    ∃ s, p.statements[x.1]? = some s ∧ s.wrapped = true

/-- The rule for releasing the requests of wrapped statements. -/
theorem release_rule_wrapped
    {I : Transaction → Prop} {p : Transaction}
    (hstep :
      ∀ q i resumeToken t,
        I q → q.id = p.id →
          (∃ s, q.statements[i]? = some s ∧ s.wrapped = true) →
            Requested q i resumeToken t → I t)
    (hwaiting : p.WaitingWrapped)
    (h : I { p with waitingRequests := [] }) :
    I p.releaseWaitingRequests := by
  have hboth :=
    release_rule
      (I := fun q =>
        I q ∧
          ∀ x ∈ p.waitingRequests,
            ∃ s, q.statements[x.1]? = some s ∧ s.wrapped = true)
      (p := p) ?_ ⟨h, hwaiting⟩
  · exact hboth.1
  · rintro q x t hx ⟨hq, hwrapped⟩ hid hrequested
    refine ⟨hstep q x.1 x.2 t hq hid (hwrapped x hx) hrequested, ?_⟩
    intro y hy
    obtain ⟨s, hs, hwrap⟩ := hwrapped y hy
    obtain ⟨u, hu, -, huwrap, -⟩ := hrequested.statement hs
    exact ⟨u, hu, huwrap.trans hwrap⟩

/-- What `_update` changes besides sending the waiting requests. -/
theorem update_frame
    (p : Transaction) (id : TransactionId) :
    (p.update id).id = some id ∧
      (p.update id).waitingRequests = [] ∧
      Untouched p (p.update id) := by
  rw [update]
  refine
    release_rule
      (I := fun q =>
        q.id = some id ∧ q.waitingRequests = [] ∧ Untouched p q)
      ?_ ⟨rfl, rfl, ⟨rfl, rfl, rfl, rfl, rfl, rfl⟩⟩
  rintro q x t - ⟨hid, hwaiting, hq⟩ - hrequested
  obtain ⟨hid', hwaiting', ht⟩ := hrequested.frame
  exact ⟨hid'.trans hid, hwaiting'.trans hwaiting, hq.trans ht⟩

/-! ## What is sent stays sent -/

section Sent

variable {p t : Transaction}

theorem Requested.requests_subset
    {i : Nat} {resumeToken : Option ResumeToken}
    (h : Requested p i resumeToken t) :
    p.requests ⊆ t.requests := by
  cases h with
  | sanitized => exact List.subset_append_left ..
  | broken => exact List.Subset.refl _
  | resent => exact List.subset_append_left ..
  | readWithId => exact List.subset_append_left ..
  | read => exact List.subset_append_left ..
  | nothing => exact List.Subset.refl _

theorem update_requests_subset
    (p : Transaction) (id : TransactionId) :
    p.requests ⊆ (p.update id).requests := by
  refine
    release_rule (I := fun q => p.requests ⊆ q.requests)
      (fun _ _ _ _ hq _ hrequested => ?_) (List.Subset.refl _)
  exact List.Subset.trans hq hrequested.requests_subset

theorem updateOnce_requests_subset
    (p : Transaction) (transaction : Option TransactionId) :
    p.requests ⊆ (p.updateOnce transaction).requests := by
  cases transaction with
  | none => exact List.Subset.refl _
  | some id =>
      unfold updateOnce
      dsimp only
      split
      · exact update_requests_subset p id
      · exact List.Subset.refl _

theorem foldl_updateOnce_requests_subset
    (transactions : List (Option TransactionId)) (p : Transaction) :
    p.requests ⊆ (transactions.foldl updateOnce p).requests := by
  induction transactions generalizing p with
  | nil => exact List.Subset.refl _
  | cons transaction transactions ih =>
      exact
        List.Subset.trans (updateOnce_requests_subset p transaction)
          (ih (p.updateOnce transaction))

theorem requestFn_requests_subset
    (p : Transaction) (i : Nat) (resumeToken : Option ResumeToken) :
    p.requests ⊆ (p.requestFn i resumeToken).requests := by
  rw [requestFn]
  split
  · exact List.Subset.refl _
  · split
    · exact List.Subset.refl _
    · exact (requested_makeRequest p i resumeToken).requests_subset

theorem wrapWithIdWaiter_requests
    (p : Transaction) :
    p.wrapWithIdWaiter.2.requests = p.requests := by
  rcases wrapWithIdWaiter_cases p with
    ⟨-, heq, -⟩ | ⟨-, heq, -⟩ | ⟨-, heq, -⟩ <;> rw [heq]

/-- No event takes a request back. -/
theorem step_requests_subset
    {e : Event}
    (hstep : step p e = some t) :
    p.requests ⊆ t.requests := by
  cases e with
  | runStream valid =>
      obtain rfl := Option.some.inj hstep
      exact (wrapWithIdWaiter_requests p).symm ▸ List.Subset.refl _
  | createReadStream =>
      obtain rfl := Option.some.inj hstep
      exact (wrapWithIdWaiter_requests p).symm ▸ List.Subset.refl _
  | reading i =>
      obtain ⟨s, -, -, rfl⟩ := atStatement_some hstep
      exact requestFn_requests_subset p i none
  | response i transaction precommitToken =>
      obtain ⟨s, -, -, rfl⟩ := atStatement_some hstep
      exact
        updateOnce_requests_subset
          { p with
            latestPreCommitToken :=
              updatePrecommitToken p.latestPreCommitToken precommitToken }
          transaction
  | retry i resumeToken =>
      obtain ⟨s, -, -, rfl⟩ := atStatement_some hstep
      exact requestFn_requests_subset p i resumeToken
  | failed i error =>
      obtain ⟨s, -, -, rfl⟩ := atStatement_some hstep
      rw [onError]
      split <;> exact List.Subset.refl _
  | interrupted i | ended i | batchFailed i error =>
      obtain ⟨s, -, -, rfl⟩ := atStatement_some hstep
      exact List.Subset.refl _
  | batchUpdate queries valid =>
      simp only [step] at hstep
      split at hstep
      · obtain rfl := Option.some.inj hstep
        rw [batchUpdate]
        split
        · exact List.Subset.refl _
        · exact List.subset_append_left ..
      · cases hstep
  | batchResponse i transactions precommitToken =>
      obtain ⟨s, -, -, rfl⟩ := atStatement_some hstep
      exact
        foldl_updateOnce_requests_subset transactions
          { p.stop i s .done false with
            latestPreCommitToken :=
              updatePrecommitToken p.latestPreCommitToken precommitToken }
  | begin =>
      obtain rfl := Option.some.inj hstep
      exact List.Subset.refl _
  | onBegin id precommitToken =>
      simp only [step] at hstep
      split at hstep
      · obtain rfl := Option.some.inj hstep
        exact
          update_requests_subset
            { p with
              begins := p.begins - 1
              latestPreCommitToken :=
                updatePrecommitToken p.latestPreCommitToken precommitToken }
            id
      · cases hstep
  | beginFailed error =>
      simp only [step] at hstep
      split at hstep
      · obtain rfl := Option.some.inj hstep
        exact List.Subset.refl _
      · cases hstep

end Sent

end Transaction
end SpannerClient
