import SpannerClient.Machine.Containers
import SpannerClient.Machine.Run
import SpannerClient.Transaction.PrecommitToken

/-!
# Commit

`Transaction.commit` sends a `Commit` request, after a `BeginTransaction` if it
has to, and the server answers with a final response, with an error, or with a
`MultiplexedSessionRetry` that carries a precommit token and asks for the commit
to be sent again.  The statements of the transaction go on meanwhile and may
bring tokens of their own.

The first retry reply is obeyed; the flag `_retryCommit` makes every later one
count as the final response.  So the commit is right exactly when the server
sends at most one retry reply.

`commitStep` is one event, of the commit or of the statements, and `Replied` says what
a reply does.  `CommitInv` holds in every state, `CommitSafe` in those with at most one
retry reply; the main result is `commitSafe_iff_one_retry`.
-/

namespace SpannerClient
namespace Transaction

open Machine

structure Timestamp where
  seconds : Int
  nanos : Nat
deriving DecidableEq

/-- `CommitResponse`; the member `MultiplexedSessionRetry` of the response is its
precommit token. -/
structure CommitResponse where
  commitTimestamp : Option Timestamp
  precommitToken : Option PrecommitToken
deriving DecidableEq

/-- `'MultiplexedSessionRetry' in resp`. -/
def CommitResponse.isRetry
    (resp : CommitResponse) : Bool :=
  resp.precommitToken.isSome

structure CommitOptions where
  returnCommitStats : Option Bool := none
  maxCommitDelay : Option Nat := none
deriving DecidableEq

/-- A `Commit` request, with the tokens received when it was sent. -/
structure CommitRequest (μ : Type) where
  mutations : List μ
  transactionId : Option TransactionId
  singleUseTransaction : Bool
  precommitToken : Option PrecommitToken
  options : CommitOptions
  received : List PrecommitToken
deriving DecidableEq

/-- Where the call of `commit` is. -/
inductive CommitPhase where
  | idle
  /-- The `BeginTransaction` request is in flight. -/
  | beginning
  /-- The `Commit` request is in flight. -/
  | committing
deriving DecidableEq

/-- A transaction with its commit. -/
structure Commit (μ : Type) where
  transaction : Transaction
  queuedMutations : List μ
  retryCommit : Bool
  ended : Bool
  commitTimestamp : Option Timestamp
  options : CommitOptions
  phase : CommitPhase
  /-- Every `Commit` request sent. -/
  requests : List (CommitRequest μ)
  /-- Every reply to one. -/
  replies : List (Except ServiceError CommitResponse)
  /-- Every precommit token received. -/
  received : List PrecommitToken
  /-- What the callback has been called with last. -/
  result : Option (Except ServiceError CommitResponse)

variable {μ : Type}

namespace Commit

/-- The request of `commit`. -/
def request
    (c : Commit μ) : CommitRequest μ :=
  { mutations := c.queuedMutations
    transactionId := c.transaction.id
    singleUseTransaction := c.transaction.id.isNone
    precommitToken := c.transaction.latestPreCommitToken
    options := c.options
    received := c.received }

/-- The body of `commit`, up to its request. -/
def commit
    (c : Commit μ) : Commit μ :=
  if c.transaction.id.isSome || !c.transaction.useInRunner then
    { c with
      phase := .committing
      requests := c.requests ++ [c.request] }
  else
    { c with phase := .beginning }

/-- The callback of `commit` is called. -/
def finish
    (c : Commit μ) (result : Except ServiceError CommitResponse) :
    Commit μ :=
  { c with
    phase := .idle
    result := some result }

/-- The callbacks of the promise of `begin`. -/
def onBegin
    (c : Commit μ) :
    Except ServiceError (TransactionId × Option PrecommitToken) → Commit μ
  | .ok (id, precommitToken) =>
      commit
        { c with
          transaction := c.transaction.onBegin id precommitToken
          received := c.received ++ precommitToken.toList }
  | .error error => c.finish (.error error)

/-- The callback of the `Commit` request. -/
def onCommit
    (decorateCommitError : ServiceError → List μ → ServiceError)
    (c : Commit μ) (reply : Except ServiceError CommitResponse) :
    Commit μ :=
  let c := { c with replies := c.replies ++ [reply] }
  match reply with
  | .ok resp =>
      let c :=
        { c with received := c.received ++ resp.precommitToken.toList }
      if resp.isRetry && !c.retryCommit then
        commit
          { c with
            retryCommit := true
            transaction :=
              { c.transaction with
                latestPreCommitToken :=
                  updatePrecommitToken c.transaction.latestPreCommitToken
                    resp.precommitToken } }
      else
        finish
          { c with
            ended := true
            commitTimestamp := resp.commitTimestamp.or c.commitTimestamp }
          (.ok resp)
  | .error error =>
      finish { c with ended := true }
        (.error (decorateCommitError error c.queuedMutations))

end Commit

/-- Events of a transaction and its commit. -/
inductive CommitEvent where
  /-- An event of the statements. -/
  | statement (e : Event)
  /-- A call of `commit`. -/
  | commit (options : CommitOptions)
  /-- The reply to the `BeginTransaction` request of `commit`. -/
  | beginReply
      (reply : Except ServiceError (TransactionId × Option PrecommitToken))
  /-- The reply to a `Commit` request. -/
  | commitReply (reply : Except ServiceError CommitResponse)
deriving DecidableEq

/-- One event. -/
def commitStep
    (decorateCommitError : ServiceError → List μ → ServiceError)
    (c : Commit μ) : CommitEvent → Option (Commit μ)
  | .statement e =>
      match step c.transaction e with
      | none => none
      | some transaction =>
          some
            { c with
              transaction := transaction
              received := c.received ++ e.precommitToken.toList }
  | .commit options =>
      if c.phase = .idle then
        some (Commit.commit { c with options := options, result := none })
      else
        none
  | .beginReply reply =>
      if c.phase = .beginning then
        some (c.onBegin reply)
      else
        none
  | .commitReply reply =>
      if c.phase = .committing then
        some (c.onCommit decorateCommitError reply)
      else
        none

/-- A transaction before its first call. -/
def Commit.new
    (mode : TransactionMode) (isMuxEnabledForRW : Bool)
    (previous : Option TransactionId) (useInRunner : Bool)
    (mutations : List μ) : Commit μ where
  transaction := Transaction.new mode isMuxEnabledForRW previous useInRunner
  queuedMutations := mutations
  retryCommit := false
  ended := false
  commitTimestamp := none
  options := {}
  phase := .idle
  requests := []
  replies := []
  received := []
  result := none

/-- Success is reported only on a final response, and every retry reply is
followed by a request that carries the highest token received until then. -/
structure CommitSafe
    (c : Commit μ) : Prop where
  success :
    ∀ resp, c.result = some (.ok resp) →
      c.replies.getLast? = some (.ok resp) ∧ resp.isRetry = false
  retried :
    ∀ (k : Nat) resp, c.replies[k]? = some (.ok resp) →
      resp.isRetry = true →
        ∃ request token,
          c.requests[k + 1]? = some request ∧
          request.precommitToken = some token ∧
          token ∈ request.received ∧
          ∀ other ∈ request.received, other.seqNum ≤ token.seqNum

/-- What is known of a commit. -/
structure CommitInv
    (c : Commit μ) : Prop where
  aligned :
    c.requests.length =
      c.replies.length + if c.phase = .committing then 1 else 0
  /-- Before the first retry reply the token is the highest received. -/
  highest :
    c.retryCommit = false →
      Highest c.transaction.latestPreCommitToken c.received
  selector :
    c.phase = .committing →
      c.transaction.id.isSome = true ∨ c.transaction.useInRunner = false
  running : c.phase ≠ .idle → c.result = none

/-- The reply asks for the commit to be sent again. -/
def CommitEvent.isRetryReply : CommitEvent → Bool
  | .commitReply (.ok resp) => resp.isRetry
  | _ => false

/-- The event is a retry reply and not the first. -/
def Commit.retriesAgain
    (c : Commit μ) (e : CommitEvent) : Bool :=
  e.isRetryReply && c.retryCommit

variable {c d : Commit μ}

/-- A call of `commit` sends the request, unless it has to begin first. -/
theorem commit_cases
    (c : Commit μ) :
    ((c.transaction.id.isSome = true ∨ c.transaction.useInRunner = false) ∧
        c.commit =
          { c with
            phase := .committing
            requests := c.requests ++ [c.request] }) ∨
      (c.transaction.id = none ∧ c.transaction.useInRunner = true ∧
        c.commit = { c with phase := .beginning }) := by
  rw [Commit.commit]
  split
  · rename_i hguard
    exact Or.inl ⟨by simpa using hguard, rfl⟩
  · rename_i hguard
    obtain ⟨hid, hrunner⟩ :
        c.transaction.id = none ∧ c.transaction.useInRunner = true := by
      simpa using hguard
    exact Or.inr ⟨hid, hrunner, rfl⟩

/-- Calling `commit` when no request is in flight. -/
theorem commit_inv
    (haligned : c.requests.length = c.replies.length)
    (hhighest :
      c.retryCommit = false →
        Highest c.transaction.latestPreCommitToken c.received)
    (hresult : c.result = none) :
    CommitInv c.commit := by
  rcases commit_cases c with ⟨hselector, heq⟩ | ⟨-, -, heq⟩
  · rw [heq]
    exact
      { aligned := by simp [haligned]
        highest := hhighest
        selector := fun _ => hselector
        running := fun _ => hresult }
  · rw [heq]
    exact
      { aligned := by simp [haligned]
        highest := hhighest
        selector := fun hphase => by cases hphase
        running := fun _ => hresult }

theorem finish_inv
    (haligned : c.requests.length = c.replies.length)
    (hhighest :
      c.retryCommit = false →
        Highest c.transaction.latestPreCommitToken c.received)
    (result : Except ServiceError CommitResponse) :
    CommitInv (c.finish result) where
  aligned := by simp [Commit.finish, haligned]
  highest := hhighest
  selector := fun hphase => by cases hphase
  running := fun hphase => absurd rfl hphase

theorem commitInv_new
    (mode : TransactionMode) (isMuxEnabledForRW : Bool)
    (previous : Option TransactionId) (useInRunner : Bool)
    (mutations : List μ) :
    CommitInv
      (Commit.new mode isMuxEnabledForRW previous useInRunner mutations) where
  aligned := rfl
  highest := fun _ => rfl
  selector := fun hphase => by cases hphase
  running := fun hphase => absurd rfl hphase

theorem commitSafe_new
    (mode : TransactionMode) (isMuxEnabledForRW : Bool)
    (previous : Option TransactionId) (useInRunner : Bool)
    (mutations : List μ) :
    CommitSafe
      (Commit.new mode isMuxEnabledForRW previous useInRunner mutations) where
  success := fun _ hresult => by cases hresult
  retried := fun _ _ hreply => by cases hreply

/-- The reply to `begin` may bring a token. -/
theorem onBegin_highest
    {p : Transaction} {received : List PrecommitToken}
    (h : Highest p.latestPreCommitToken received)
    (id : TransactionId) (precommitToken : Option PrecommitToken) :
    Highest (p.onBegin id precommitToken).latestPreCommitToken
      (received ++ precommitToken.toList) := by
  rw [Transaction.onBegin]
  rw [(update_evolves _ id).latestPreCommitToken]
  exact highest_updatePrecommitToken h precommitToken

section Reply

variable {decorateCommitError : ServiceError → List μ → ServiceError}

/-- What a reply to a `Commit` request does. -/
inductive Replied
    (decorateCommitError : ServiceError → List μ → ServiceError)
    (c : Commit μ) :
    Except ServiceError CommitResponse → Commit μ → Prop where
  /-- The first retry reply sends the request again. -/
  | retry
      (resp : CommitResponse) (token : PrecommitToken)
      (latest : Option PrecommitToken)
      (hfirst : c.retryCommit = false)
      (htoken : resp.precommitToken = some token)
      (hlatest :
        latest =
          updatePrecommitToken c.transaction.latestPreCommitToken
            (some token)) :
      Replied decorateCommitError c (.ok resp)
        (Commit.commit
          { c with
            replies := c.replies ++ [.ok resp]
            received := c.received ++ [token]
            retryCommit := true
            transaction :=
              { c.transaction with latestPreCommitToken := latest } })
  /-- Any other response is the final one. -/
  | final
      (resp : CommitResponse) (hfinal : !(resp.isRetry && !c.retryCommit)) :
      Replied decorateCommitError c (.ok resp)
        (Commit.finish
          { c with
            replies := c.replies ++ [.ok resp]
            received := c.received ++ resp.precommitToken.toList
            ended := true
            commitTimestamp := resp.commitTimestamp.or c.commitTimestamp }
          (.ok resp))
  | error
      (error : ServiceError) :
      Replied decorateCommitError c (.error error)
        (Commit.finish
          { c with
            replies := c.replies ++ [.error error]
            ended := true }
          (.error (decorateCommitError error c.queuedMutations)))

theorem replied_onCommit
    (c : Commit μ) (reply : Except ServiceError CommitResponse) :
    Replied decorateCommitError c reply
      (c.onCommit decorateCommitError reply) := by
  cases reply with
  | error error =>
      exact Replied.error error
  | ok resp =>
      rw [Commit.onCommit]
      dsimp only
      split
      · rename_i hretry
        obtain ⟨hresp, hfirst⟩ :
            resp.isRetry = true ∧ c.retryCommit = false := by
          simpa using hretry
        obtain ⟨token, htoken⟩ := Option.isSome_iff_exists.mp hresp
        rw [htoken]
        exact Replied.retry resp token _ hfirst htoken rfl
      · rename_i hfinal
        refine Replied.final resp ?_
        rw [Bool.not_eq_true] at hfinal
        rw [hfinal]
        rfl

theorem replied_of_commitReply
    {reply : Except ServiceError CommitResponse}
    (hstep :
      commitStep decorateCommitError c (.commitReply reply) = some d) :
    c.phase = .committing ∧ Replied decorateCommitError c reply d := by
  simp only [commitStep] at hstep
  split at hstep
  · rename_i hcommitting
    obtain rfl := Option.some.inj hstep
    exact ⟨hcommitting, replied_onCommit c reply⟩
  · cases hstep

/-- Every event keeps the invariant. -/
theorem commitStep_inv
    {e : CommitEvent}
    (h : CommitInv c)
    (hstep : commitStep decorateCommitError c e = some d) :
    CommitInv d := by
  cases e with
  | statement e =>
      simp only [commitStep] at hstep
      split at hstep
      · cases hstep
      · rename_i t ht
        obtain rfl := Option.some.inj hstep
        have hevolves := step_evolves ht
        exact
          { aligned := h.aligned
            highest := fun hfirst => step_highest (h.highest hfirst) ht
            selector := fun hphase =>
              (h.selector hphase).imp hevolves.id
                hevolves.useInRunner.trans
            running := h.running }
  | commit options =>
      simp only [commitStep] at hstep
      split at hstep
      · rename_i hidle
        obtain rfl := Option.some.inj hstep
        have haligned := h.aligned
        rw [if_neg (by simp [hidle])] at haligned
        exact commit_inv haligned h.highest rfl
      · cases hstep
  | beginReply reply =>
      simp only [commitStep] at hstep
      split at hstep
      · rename_i hbeginning
        obtain rfl := Option.some.inj hstep
        have haligned := h.aligned
        rw [if_neg (by simp [hbeginning])] at haligned
        cases reply with
        | error error =>
            exact finish_inv haligned h.highest _
        | ok reply =>
            obtain ⟨id, precommitToken⟩ := reply
            exact
              commit_inv haligned
                (fun hfirst =>
                  onBegin_highest (h.highest hfirst) id precommitToken)
                (h.running (by simp [hbeginning]))
      · cases hstep
  | commitReply reply =>
      obtain ⟨hcommitting, hreplied⟩ := replied_of_commitReply hstep
      have haligned : c.requests.length = c.replies.length + 1 := by
        simpa [hcommitting] using h.aligned
      cases hreplied with
      | retry resp token latest hfirst htoken hlatest =>
          refine commit_inv (by simp [haligned]) ?_ ?_
          · intro hretry
            cases hretry
          · exact h.running (by simp [hcommitting])
      | final resp hfinal =>
          refine finish_inv (by simp [haligned]) ?_ _
          intro hfirst
          have hnone : resp.precommitToken = none := by
            have hretry : c.retryCommit = false := hfirst
            simpa [CommitResponse.isRetry, hretry] using hfinal
          simpa [hnone] using h.highest hfirst
      | error error =>
          refine finish_inv ?_ ?_ _
          · simp [haligned]
          · exact h.highest

/-- Sending another request and forgetting the result. -/
theorem CommitSafe.commit
    (h : CommitSafe c)
    (hrequests : d.requests = c.requests)
    (hreplies : d.replies = c.replies)
    (hresult : d.result = none) :
    CommitSafe d.commit := by
  have hretried :
      ∀ (k : Nat) resp, d.replies[k]? = some (.ok resp) →
        resp.isRetry = true →
          ∃ request token,
            d.requests[k + 1]? = some request ∧
            request.precommitToken = some token ∧
            token ∈ request.received ∧
            ∀ other ∈ request.received, other.seqNum ≤ token.seqNum := by
    rw [hrequests, hreplies]
    exact h.retried
  rcases commit_cases d with ⟨-, heq⟩ | ⟨-, -, heq⟩
  · rw [heq]
    refine ⟨fun resp hresp => ?_, fun k resp hk hretry => ?_⟩
    · rw [show d.result = some (.ok resp) from hresp] at hresult
      cases hresult
    · obtain ⟨request, token, hrequest, htoken⟩ := hretried k resp hk hretry
      exact
        ⟨request, token, getElem?_snoc_of_some hrequest d.request, htoken⟩
  · rw [heq]
    refine ⟨fun resp hresp => ?_, hretried⟩
    rw [show d.result = some (.ok resp) from hresp] at hresult
    cases hresult

/-- A reply that is not a retry reply ends the call. -/
theorem CommitSafe.finish
    (h : CommitSafe c)
    (reply : Except ServiceError CommitResponse)
    (hrequests : d.requests = c.requests)
    (hreplies : d.replies = c.replies ++ [reply])
    (hreply : ∀ resp, reply = .ok resp → resp.isRetry = false)
    {result : Except ServiceError CommitResponse}
    (hresult : ∀ resp, result = .ok resp → reply = .ok resp) :
    CommitSafe (d.finish result) where
  success := by
    intro resp hresp
    obtain rfl := hresult resp (Option.some.inj hresp)
    refine ⟨?_, hreply resp rfl⟩
    change d.replies.getLast? = _
    rw [hreplies, List.getLast?_concat]
  retried := by
    intro k resp hk hretry
    change d.replies[k]? = _ at hk
    rw [hreplies] at hk
    change ∃ request token, d.requests[k + 1]? = some request ∧ _
    rw [hrequests]
    rcases getElem?_snoc_some hk with ⟨-, heq⟩ | ⟨-, hk⟩
    · rw [hreply resp heq.symm] at hretry
      cases hretry
    · exact h.retried k resp hk hretry

/-- The first retry reply is followed by a request with the highest token. -/
theorem CommitSafe.retry
    (h : CommitSafe c)
    (hinv : CommitInv c)
    (hcommitting : c.phase = .committing)
    (hfirst : c.retryCommit = false)
    (resp : CommitResponse) (token : PrecommitToken) :
    CommitSafe
      (Commit.commit
        { c with
          replies := c.replies ++ [.ok resp]
          received := c.received ++ [token]
          retryCommit := true
          transaction :=
            { c.transaction with
              latestPreCommitToken :=
                updatePrecommitToken c.transaction.latestPreCommitToken
                  (some token) } }) := by
  have haligned : c.requests.length = c.replies.length + 1 := by
    simpa [hcommitting] using hinv.aligned
  have hhighest :=
    highest_updatePrecommitToken (hinv.highest hfirst) (some token)
  obtain ⟨latest, hlatest⟩ :
      ∃ latest,
        updatePrecommitToken c.transaction.latestPreCommitToken
          (some token) = some latest := by
    cases hupdate :
        updatePrecommitToken c.transaction.latestPreCommitToken
          (some token) with
    | none =>
        rw [hupdate] at hhighest
        simp [Highest] at hhighest
    | some latest =>
        exact ⟨latest, rfl⟩
  rw [hlatest] at hhighest ⊢
  rcases commit_cases
      { c with
        replies := c.replies ++ [.ok resp]
        received := c.received ++ [token]
        retryCommit := true
        transaction :=
          { c.transaction with latestPreCommitToken := some latest } } with
    ⟨-, heq⟩ | ⟨hid, hrunner, -⟩
  · rw [heq]
    refine ⟨fun resp' hresp => ?_, fun k resp' hk hretry => ?_⟩
    · have hrunning := hinv.running (by simp [hcommitting])
      rw [show c.result = some (.ok resp') from hresp] at hrunning
      cases hrunning
    · rcases getElem?_snoc_some hk with ⟨rfl, -⟩ | ⟨-, hk⟩
      · exact
          ⟨_, latest, by rw [← haligned, List.getElem?_concat_length], rfl,
            hhighest.1, hhighest.2⟩
      · obtain ⟨request, token', hrequest, htoken⟩ :=
          h.retried k resp' hk hretry
        exact ⟨request, token', getElem?_snoc_of_some hrequest _, htoken⟩
  · rcases hinv.selector hcommitting with hsome | hnot
    · rw [show c.transaction.id = none from hid] at hsome
      cases hsome
    · rw [show c.transaction.useInRunner = true from hrunner] at hnot
      cases hnot

/-- A step keeps the commit safe unless it is another retry reply. -/
theorem commitStep_safe
    {e : CommitEvent}
    (hinv : CommitInv c) (h : CommitSafe c)
    (hstep : commitStep decorateCommitError c e = some d) :
    CommitSafe d ↔ c.retriesAgain e = false := by
  cases e with
  | statement e =>
      simp only [commitStep] at hstep
      split at hstep
      · cases hstep
      · obtain rfl := Option.some.inj hstep
        exact iff_of_true ⟨h.success, h.retried⟩ rfl
  | commit options =>
      simp only [commitStep] at hstep
      split at hstep
      · obtain rfl := Option.some.inj hstep
        exact iff_of_true (h.commit rfl rfl rfl) rfl
      · cases hstep
  | beginReply reply =>
      simp only [commitStep] at hstep
      split at hstep
      · rename_i hbeginning
        obtain rfl := Option.some.inj hstep
        refine iff_of_true ?_ rfl
        cases reply with
        | error error =>
            refine ⟨fun resp hresp => ?_, h.retried⟩
            cases Option.some.inj hresp
        | ok reply =>
            exact
              h.commit rfl rfl (hinv.running (by simp [hbeginning]))
      · cases hstep
  | commitReply reply =>
      obtain ⟨hcommitting, hreplied⟩ := replied_of_commitReply hstep
      cases hreplied with
      | retry resp token latest hfirst htoken hlatest =>
          subst hlatest
          exact
            iff_of_true (h.retry hinv hcommitting hfirst resp token)
              (by simp [Commit.retriesAgain, hfirst])
      | final resp hfinal =>
          cases hretry : resp.isRetry with
          | false =>
              refine iff_of_true ?_ ?_
              · refine h.finish (.ok resp) ?_ ?_ ?_ ?_
                · rfl
                · rfl
                · intro resp' heq
                  obtain rfl := Except.ok.inj heq
                  exact hretry
                · exact fun _ heq => heq
              · simp [Commit.retriesAgain, CommitEvent.isRetryReply, hretry]
          | true =>
              -- the retry reply is passed to the callback
              have hagain : c.retryCommit = true := by
                simpa [hretry] using hfinal
              refine iff_of_false ?_ ?_
              · intro hsafe
                have hfinished := (hsafe.success resp rfl).2
                rw [hretry] at hfinished
                cases hfinished
              · simp [Commit.retriesAgain, CommitEvent.isRetryReply,
                  hretry, hagain]
      | error error =>
          refine iff_of_true ?_ rfl
          refine h.finish (.error error) ?_ ?_ ?_ ?_
          · rfl
          · rfl
          · intro resp heq
            cases heq
          · intro resp heq
            cases heq

/-- The flag is set by the retry replies only. -/
theorem commitStep_retryCommit
    {e : CommitEvent}
    (hstep : commitStep decorateCommitError c e = some d) :
    d.retryCommit = (c.retryCommit || e.isRetryReply) := by
  have hcommit : ∀ q : Commit μ, q.commit.retryCommit = q.retryCommit := by
    intro q
    rcases commit_cases q with ⟨-, heq⟩ | ⟨-, -, heq⟩ <;> rw [heq]
  cases e with
  | statement e =>
      simp only [commitStep] at hstep
      split at hstep
      · cases hstep
      · obtain rfl := Option.some.inj hstep
        simp [CommitEvent.isRetryReply]
  | commit options =>
      simp only [commitStep] at hstep
      split at hstep
      · obtain rfl := Option.some.inj hstep
        simp [CommitEvent.isRetryReply, hcommit]
      · cases hstep
  | beginReply reply =>
      simp only [commitStep] at hstep
      split at hstep
      · obtain rfl := Option.some.inj hstep
        cases reply with
        | error error =>
            simp [CommitEvent.isRetryReply, Commit.onBegin, Commit.finish]
        | ok reply =>
            simp [CommitEvent.isRetryReply, Commit.onBegin, hcommit]
      · cases hstep
  | commitReply reply =>
      obtain ⟨-, hreplied⟩ := replied_of_commitReply hstep
      cases hreplied with
      | retry resp token latest hfirst htoken hlatest =>
          simp [hcommit, CommitEvent.isRetryReply, CommitResponse.isRetry,
            htoken]
      | final resp hfinal =>
          cases hagain : c.retryCommit with
          | false =>
              simpa [Commit.finish, CommitEvent.isRetryReply, hagain]
                using hfinal
          | true =>
              simp [Commit.finish]
      | error error =>
          simp [Commit.finish, CommitEvent.isRetryReply]

/-- In a run that is performed to its end, no retry reply but the first. -/
theorem meets_retriesAgain_iff
    {es : List CommitEvent}
    (hrun : run (commitStep decorateCommitError) c es = some d) :
    Meets (commitStep decorateCommitError)
        (fun q e => q.retriesAgain e = false) c es ↔
      es.countP CommitEvent.isRetryReply + c.retryCommit.toNat ≤ 1 ∨
        es.countP CommitEvent.isRetryReply = 0 := by
  induction es generalizing c with
  | nil =>
      simp
  | cons e es ih =>
      obtain ⟨q, hq, htail⟩ := run_cons_success hrun
      have hflag := commitStep_retryCommit hq
      have hmeets :
          Meets (commitStep decorateCommitError)
              (fun q e => q.retriesAgain e = false) c (e :: es) ↔
            c.retriesAgain e = false ∧
              Meets (commitStep decorateCommitError)
                (fun q e => q.retriesAgain e = false) q es := by
        rw [meets_cons]
        refine and_congr_right fun _ => ⟨fun hall => hall q hq, ?_⟩
        intro hrest r hr
        obtain rfl : q = r := Option.some.inj (hq.symm.trans hr)
        exact hrest
      rw [hmeets, ih htail, hflag]
      cases hretry : e.isRetryReply <;> cases hagain : c.retryCommit <;>
        simp [Commit.retriesAgain, hretry, hagain]

end Reply

/-- The commit is right exactly when the server sends at most one retry reply. -/
theorem commitSafe_iff_one_retry
    (decorateCommitError : ServiceError → List μ → ServiceError)
    (mode : TransactionMode) (isMuxEnabledForRW : Bool)
    (previous : Option TransactionId) (useInRunner : Bool)
    (mutations : List μ) (es : List CommitEvent) (c : Commit μ)
    (hrun :
      run (commitStep decorateCommitError)
        (Commit.new mode isMuxEnabledForRW previous useInRunner mutations)
        es = some c) :
    Always (commitStep decorateCommitError) CommitSafe
        (Commit.new mode isMuxEnabledForRW previous useInRunner mutations)
        es ↔
      es.countP CommitEvent.isRetryReply ≤ 1 := by
  rw [always_iff_meets (fun _ _ _ hinv hstep => commitStep_inv hinv hstep)
    (fun _ _ _ hinv hsafe hstep => commitStep_safe hinv hsafe hstep)
    (commitInv_new mode isMuxEnabledForRW previous useInRunner mutations)
    (commitSafe_new mode isMuxEnabledForRW previous useInRunner mutations)
    hrun, meets_retriesAgain_iff hrun]
  change _ + 0 ≤ 1 ∨ _ ↔ _
  omega

/-- `begin` is not needed; the server asks twice for a retry. -/
def twoRetries : List CommitEvent :=
  [.commit {},
    .commitReply (.ok ⟨none, some ⟨[1], 1⟩⟩),
    .commitReply (.ok ⟨none, some ⟨[2], 2⟩⟩)]

/-- After the second retry reply the callback is called without an error. -/
theorem twoRetries_reports_success :
    ¬∀ (decorateCommitError : ServiceError → List Nat → ServiceError)
        (mode : TransactionMode) (isMuxEnabledForRW : Bool)
        (previous : Option TransactionId) (useInRunner : Bool)
        (mutations : List Nat) (es : List CommitEvent) (c : Commit Nat),
        run (commitStep decorateCommitError)
            (Commit.new mode isMuxEnabledForRW previous useInRunner mutations)
            es = some c →
          CommitSafe c := by
  intro h
  obtain ⟨c, hrun, hresult⟩ :
      ∃ c : Commit Nat,
        run (commitStep fun error _ => error)
            (Commit.new .readWrite true none false [7]) twoRetries = some c ∧
          c.result = some (.ok ⟨none, some ⟨[2], 2⟩⟩) :=
    ⟨_, rfl, rfl⟩
  have hsafe := h _ .readWrite true none false [7] _ c hrun
  exact absurd (hsafe.success _ hresult).2 (by decide)

/-- The run up to the first retry reply, and a final response. -/
def oneRetry : List CommitEvent :=
  twoRetries.take 2 ++ [.commitReply (.ok ⟨some ⟨3, 0⟩, none⟩)]

theorem commitSafe_iff_one_retry_final :
    ∃ c : Commit Nat,
      run (commitStep fun error _ => error)
          (Commit.new .readWrite true none false [7]) oneRetry = some c ∧
      (Always (commitStep fun error _ => error) CommitSafe
          (Commit.new .readWrite true none false [7]) oneRetry ↔
        oneRetry.countP CommitEvent.isRetryReply ≤ 1) := by
  obtain ⟨c, hrun⟩ :
      ∃ c : Commit Nat,
        run (commitStep fun error _ => error)
          (Commit.new .readWrite true none false [7]) oneRetry = some c :=
    ⟨_, rfl⟩
  exact
    ⟨c, hrun,
      commitSafe_iff_one_retry (fun error _ => error) .readWrite true none
        false [7] _ c hrun⟩

end Transaction
end SpannerClient
