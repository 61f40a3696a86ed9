import SpannerClient.Transaction.Commit

/-!
# The token of a `Commit` request

The responses of `BeginTransaction`, of the queries and reads and of
`batchUpdate` bring their tokens to `_updatePrecommitToken`, and so does the
first retry reply.  A `Commit` request carries the highest token that has come
before it, so it does not matter in which order the responses came.

`processedTokens` are the tokens brought so far, and `SendsLatest` says that a request
is sent with the highest of them; `commitStep_tokens` is the step and `run_tokens` the
run.  The main result is `request_carries_newest`, for the requests of all kinds and
every order of their replies.
-/

namespace SpannerClient
namespace Transaction

open Machine

/-- A highest token is the only one if tokens with the same `seqNum` are equal. -/
theorem Highest.unique
    {latest latest' : Option PrecommitToken}
    {received received' : List PrecommitToken}
    (h : Highest latest received) (h' : Highest latest' received')
    (hperm : received.Perm received')
    (hsame :
      ∀ a ∈ received, ∀ b ∈ received, a.seqNum = b.seqNum → a = b) :
    latest = latest' := by
  cases latest with
  | none =>
      obtain rfl : received = [] := h
      obtain rfl := hperm.nil_eq
      cases latest' with
      | none => rfl
      | some token => cases h'.1
  | some token =>
      obtain ⟨hmem, hmax⟩ := h
      cases latest' with
      | none =>
          obtain rfl : received' = [] := h'
          cases hperm.mem_iff.mp hmem
      | some token' =>
          obtain ⟨hmem', hmax'⟩ := h'
          have hle := hmax' token (hperm.mem_iff.mp hmem)
          have hge := hmax token' (hperm.mem_iff.mpr hmem')
          have heq : token.seqNum = token'.seqNum := by omega
          rw [hsame token hmem token' (hperm.mem_iff.mpr hmem') heq]

/-- The tokens of the response of an event that reach `_updatePrecommitToken`.
Once `_retryCommit` is set those of the replies to `Commit` do not. -/
def CommitEvent.tokens
    (retryCommit : Bool) : CommitEvent → List PrecommitToken
  | .statement e => e.precommitToken.toList
  | .beginReply (.ok (_, precommitToken)) => precommitToken.toList
  | .commitReply (.ok resp) =>
      if retryCommit then [] else resp.precommitToken.toList
  | _ => []

/-- The tokens that the responses of a run bring, in the order of arrival. -/
def processedTokens
    (retryCommit : Bool) : List CommitEvent → List PrecommitToken
  | [] => []
  | e :: es =>
      e.tokens retryCommit ++
        processedTokens (retryCommit || e.isRetryReply) es

variable {μ : Type}
variable {decorateCommitError : ServiceError → List μ → ServiceError}
variable {c d : Commit μ}

/-- A step sends nothing, or one request with the token that is kept then. -/
def SendsLatest
    (c d : Commit μ) : Prop :=
  d.requests = c.requests ∨
    ∃ request,
      d.requests = c.requests ++ [request] ∧
      request.precommitToken = d.transaction.latestPreCommitToken

/-- `commit` keeps the token, and sends at most one request, with it. -/
theorem commit_sendsLatest
    (hrequests : d.requests = c.requests) :
    d.commit.transaction = d.transaction ∧ SendsLatest c d.commit := by
  rcases commit_cases d with ⟨-, heq⟩ | ⟨-, -, heq⟩
  · rw [heq]
    refine ⟨rfl, Or.inr ⟨d.request, ?_, rfl⟩⟩
    exact congrArg (· ++ [d.request]) hrequests
  · rw [heq]
    exact ⟨rfl, Or.inl hrequests⟩

/-- A step takes in the tokens of its event, and then sends what it sends. -/
theorem commitStep_tokens
    {e : CommitEvent} {received : List PrecommitToken}
    (h : Highest c.transaction.latestPreCommitToken received)
    (hstep : commitStep decorateCommitError c e = some d) :
    Highest d.transaction.latestPreCommitToken
        (received ++ e.tokens c.retryCommit) ∧
      SendsLatest c d := by
  cases e with
  | statement e =>
      simp only [commitStep] at hstep
      split at hstep
      · cases hstep
      · rename_i t ht
        obtain rfl := Option.some.inj hstep
        exact ⟨step_highest h ht, Or.inl rfl⟩
  | commit options =>
      simp only [commitStep] at hstep
      split at hstep
      · obtain rfl := Option.some.inj hstep
        obtain ⟨htransaction, hsends⟩ :=
          commit_sendsLatest (c := c)
            (d := { c with options := options, result := none }) rfl
        refine ⟨?_, hsends⟩
        rw [htransaction]
        simpa [CommitEvent.tokens] using h
      · cases hstep
  | beginReply reply =>
      simp only [commitStep] at hstep
      split at hstep
      · obtain rfl := Option.some.inj hstep
        cases reply with
        | error error =>
            exact
              ⟨by simpa [CommitEvent.tokens, Commit.onBegin, Commit.finish]
                using h, Or.inl rfl⟩
        | ok reply =>
            obtain ⟨id, precommitToken⟩ := reply
            obtain ⟨htransaction, hsends⟩ :=
              commit_sendsLatest (c := c)
                (d :=
                  { c with
                    transaction := c.transaction.onBegin id precommitToken
                    received := c.received ++ precommitToken.toList })
                rfl
            refine ⟨?_, hsends⟩
            change Highest (Commit.commit _).transaction.latestPreCommitToken _
            rw [htransaction]
            exact onBegin_highest h id precommitToken
      · cases hstep
  | commitReply reply =>
      obtain ⟨-, hreplied⟩ := replied_of_commitReply hstep
      cases hreplied with
      | retry resp token latest hfirst htoken hlatest =>
          obtain ⟨htransaction, hsends⟩ :=
            commit_sendsLatest (c := c)
              (d :=
                { c with
                  replies := c.replies ++ [.ok resp]
                  received := c.received ++ [token]
                  retryCommit := true
                  transaction :=
                    { c.transaction with latestPreCommitToken := latest } })
              rfl
          refine ⟨?_, hsends⟩
          rw [htransaction]
          simpa [CommitEvent.tokens, hfirst, htoken, hlatest]
            using highest_updatePrecommitToken h (some token)
      | final resp hfinal =>
          refine ⟨?_, Or.inl rfl⟩
          have hnone :
              (CommitEvent.commitReply (.ok resp)).tokens c.retryCommit =
                [] := by
            cases hretry : c.retryCommit with
            | true => simp [CommitEvent.tokens]
            | false =>
                simpa [CommitEvent.tokens, CommitResponse.isRetry, hretry]
                  using hfinal
          rw [hnone, List.append_nil]
          exact h
      | error error =>
          exact
            ⟨by simpa [CommitEvent.tokens, Commit.finish] using h,
              Or.inl rfl⟩

/-- The token kept is the highest of all that the run has brought. -/
theorem run_tokens
    {es : List CommitEvent} {received : List PrecommitToken}
    (h : Highest c.transaction.latestPreCommitToken received)
    (hrun : run (commitStep decorateCommitError) c es = some d) :
    Highest d.transaction.latestPreCommitToken
      (received ++ processedTokens c.retryCommit es) := by
  induction es generalizing c received with
  | nil =>
      simp only [run_nil, Option.some.injEq] at hrun
      subst hrun
      simpa [processedTokens] using h
  | cons e es ih =>
      obtain ⟨q, hq, htail⟩ := run_cons_success hrun
      have hqd := ih (commitStep_tokens h hq).1 htail
      rw [commitStep_retryCommit hq, List.append_assoc] at hqd
      exact hqd

/-- The last event of the run sends the request. -/
def Sends
    (decorateCommitError : ServiceError → List μ → ServiceError)
    (c : Commit μ) (es : List CommitEvent) (request : CommitRequest μ) :
    Prop :=
  ∃ before e d d',
    es = before ++ [e] ∧
    run (commitStep decorateCommitError) c before = some d ∧
    commitStep decorateCommitError d e = some d' ∧
    d'.requests = d.requests ++ [request]

theorem Sends.highest
    {es : List CommitEvent} {request : CommitRequest μ}
    {received : List PrecommitToken}
    (h : Highest c.transaction.latestPreCommitToken received)
    (hsends : Sends decorateCommitError c es request) :
    Highest request.precommitToken
      (received ++ processedTokens c.retryCommit es) := by
  obtain ⟨before, e, d, d', rfl, hrun, hstep, hrequest⟩ := hsends
  have hrun' :
      run (commitStep decorateCommitError) c (before ++ [e]) = some d' := by
    rw [run_append, hrun]
    simp [run_cons, hstep]
  obtain ⟨-, hrequests⟩ := commitStep_tokens (run_tokens h hrun) hstep
  rcases hrequests with heq | ⟨request', heq, htoken⟩
  · rw [hrequest] at heq
    simp at heq
  · obtain rfl : request = request' := by
      simpa using hrequest.symm.trans heq
    rw [htoken]
    exact run_tokens h hrun'

theorem highest_new
    (mode : TransactionMode) (isMuxEnabledForRW : Bool)
    (previous : Option TransactionId) (useInRunner : Bool)
    (mutations : List μ) :
    Highest
      (Commit.new mode isMuxEnabledForRW previous useInRunner
        mutations).transaction.latestPreCommitToken
      [] := by
  rfl

/--
A `Commit` request carries the highest token that the responses before it have
brought.  Where the same tokens come in another order, in a run of any
transaction, its request carries the same token.
-/
theorem request_carries_newest
    (decorateCommitError : ServiceError → List μ → ServiceError)
    (mode : TransactionMode) (isMuxEnabledForRW : Bool)
    (previous : Option TransactionId) (useInRunner : Bool)
    (mutations : List μ) (es : List CommitEvent) (request : CommitRequest μ)
    (hsends :
      Sends decorateCommitError
        (Commit.new mode isMuxEnabledForRW previous useInRunner mutations)
        es request) :
    Highest request.precommitToken (processedTokens false es) ∧
      ∀ (mode' : TransactionMode) (isMuxEnabledForRW' : Bool)
        (previous' : Option TransactionId) (useInRunner' : Bool)
        (mutations' : List μ) (es' : List CommitEvent)
        (request' : CommitRequest μ),
        Sends decorateCommitError
            (Commit.new mode' isMuxEnabledForRW' previous' useInRunner'
              mutations')
            es' request' →
          (processedTokens false es).Perm (processedTokens false es') →
          (∀ a ∈ processedTokens false es, ∀ b ∈ processedTokens false es,
            a.seqNum = b.seqNum → a = b) →
          request.precommitToken = request'.precommitToken := by
  have hhighest :=
    hsends.highest (highest_new mode isMuxEnabledForRW previous useInRunner
      mutations)
  refine ⟨hhighest, ?_⟩
  intro mode' isMuxEnabledForRW' previous' useInRunner' mutations' es'
    request' hsends' hperm hsame
  have hhighest' :=
    hsends'.highest (highest_new mode' isMuxEnabledForRW' previous'
      useInRunner' mutations')
  exact hhighest.unique hhighest' hperm hsame

/-- A query and a read of which two responses come in a given order. -/
def concurrentReads
    (first second : Event) : List CommitEvent :=
  [.statement (.runStream true), .statement (.reading 0),
    .statement (.response 0 (some 5) none), .statement .createReadStream,
    .statement (.reading 1), .statement first, .statement second, .commit {}]

def queryResponse : Event := .response 0 none (some ⟨[1], 1⟩)

def readResponse : Event := .response 1 none (some ⟨[2], 2⟩)

theorem request_carries_newest_concurrentReads :
    ∃ request request' : CommitRequest Nat,
      Sends (fun error _ => error) (Commit.new .readWrite true none false [7])
          (concurrentReads queryResponse readResponse) request ∧
        Sends (fun error _ => error)
            (Commit.new .readWrite true none false [7])
            (concurrentReads readResponse queryResponse) request' ∧
        Highest request.precommitToken [⟨[1], 1⟩, ⟨[2], 2⟩] ∧
        request.precommitToken = request'.precommitToken := by
  have hsends :
      ∀ first second c d,
        run (commitStep fun error _ => error)
            (Commit.new .readWrite true none false [7])
            (concurrentReads first second).dropLast = some c →
          commitStep (fun error _ => error) c (.commit {}) = some d →
          d.requests = c.requests ++ [c.request] →
          Sends (fun error _ => error)
            (Commit.new .readWrite true none false [7])
            (concurrentReads first second) c.request :=
    fun _ _ c d hrun hstep hrequests =>
      ⟨_, _, c, d, rfl, hrun, hstep, hrequests⟩
  have hfirst := hsends queryResponse readResponse _ _ rfl rfl rfl
  have hsecond := hsends readResponse queryResponse _ _ rfl rfl rfl
  have hnewest :=
    request_carries_newest (fun error _ => error) .readWrite true none false
      [7] _ _ hfirst
  refine ⟨_, _, hfirst, hsecond, hnewest.1, ?_⟩
  exact
    hnewest.2 .readWrite true none false [7] _ _ hsecond
      (List.Perm.swap _ _ _) (by decide)

end Transaction
end SpannerClient
