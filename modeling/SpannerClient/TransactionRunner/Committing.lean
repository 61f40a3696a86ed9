import SpannerClient.Request.CommitErrors
import SpannerClient.Transaction.Commit
import SpannerClient.TransactionRunner.ErrorContract

/-!
# A runner that commits

A runner together with the commit of the transaction it runs and with the server.

The server is not part of the client.  It is a parameter (`Server`): it receives the
`Commit` requests, acts on its own at any time, also when the client has long been
given an answer, and answers.  What is relied on is listed in `Server.Lawful`: it
commits only what it has received, no transaction twice and none that it has
aborted; and it answers `ABORTED`, or that the session is gone, only for a
transaction it has aborted.  Nothing is said of its other answers, so that any other
error may hide a commit, which may also still be made.  A transaction is given by
the number of its attempt: every attempt has one of its own.

`CommittingRunner.step` is the runner with such a server, and `Orderly` says which
functions are considered.  The section on the commit of one transaction lists what
an event can do to it (`Moves`, by `moves_of_commitStep`).
-/

namespace SpannerClient
namespace TransactionRunner

open Machine
open Request

variable {ν : Type}

/-! ## The server -/

/-- A `Commit` request and the number of its attempt. -/
abbrev Committed (ν : Type) : Type :=
  Nat × Transaction.CommitRequest (Mutation ν)

/-- A server, as one runner sees it. -/
structure Server (ν : Type) where
  State : Type
  /-- What it does on its own. -/
  Action : Type
  start : State
  /-- A request arrives. -/
  receive : State → Committed ν → State
  /-- `none` if it cannot be done. -/
  act : State → Action → Option State
  /-- The answers that may be given to the commit of an attempt. -/
  mayReply :
    State → Nat → Except Failure Transaction.CommitResponse → Bool
  received : State → List (Committed ν)
  committed : State → List (Committed ν)
  aborted : State → Nat → Prop

namespace Server

variable {S : Server ν}

/-- What a server that acts on its own does. -/
structure Acts
    (S : Server ν) (b b' : S.State) : Prop where
  received : S.received b' = S.received b
  /-- It commits at most one request, which it has received, of a transaction that
  is neither committed nor aborted. -/
  committed :
    S.committed b' = S.committed b ∨
      ∃ x ∈ S.received b,
        S.committed b' = S.committed b ++ [x] ∧
          x.1 ∉ (S.committed b).map Prod.fst ∧ ¬ S.aborted b' x.1
  /-- What is aborted stays so. -/
  aborted : ∀ n, S.aborted b n → S.aborted b' n
  /-- It aborts no transaction that is committed. -/
  uncommitted :
    ∀ n, S.aborted b' n → S.aborted b n ∨ n ∉ (S.committed b).map Prod.fst

/-- What is relied on. -/
structure Lawful (S : Server ν) : Prop where
  startReceived : S.received S.start = []
  startCommitted : S.committed S.start = []
  receive :
    ∀ b x,
      S.received (S.receive b x) = S.received b ++ [x] ∧
        S.committed (S.receive b x) = S.committed b ∧
        S.aborted (S.receive b x) = S.aborted b
  act : ∀ b a b', S.act b a = some b' → S.Acts b b'
  /-- `ABORTED`, or that the session is gone. -/
  replyAborted :
    ∀ b n f, S.mayReply b n (.error f) = true →
      (f.error.code = some .ABORTED ∨
        isSessionNotFoundError (some f.error) = true) →
      S.aborted b n

/-- Several requests arrive. -/
def receiveAll
    (S : Server ν) (b : S.State) (xs : List (Committed ν)) : S.State :=
  xs.foldl S.receive b

@[simp] theorem receiveAll_nil
    (b : S.State) :
    S.receiveAll b [] = b := by
  rfl

/-- They are received, and nothing else happens. -/
theorem Lawful.receiveAll
    (hS : S.Lawful) (b : S.State) (xs : List (Committed ν)) :
    S.received (S.receiveAll b xs) = S.received b ++ xs ∧
      S.committed (S.receiveAll b xs) = S.committed b ∧
      S.aborted (S.receiveAll b xs) = S.aborted b := by
  induction xs generalizing b with
  | nil => simp
  | cons x xs ih =>
      obtain ⟨hreceived, hcommitted, haborted⟩ := ih (S.receive b x)
      obtain ⟨hreceived', hcommitted', haborted'⟩ := hS.receive b x
      refine ⟨?_, hcommitted.trans hcommitted', haborted.trans haborted'⟩
      rw [List.append_cons, ← hreceived']
      exact hreceived

end Server

/-! ## The model -/

/-- `decorateCommitError`, of the parts of an error that the runner looks at. -/
def decorateError
    (error : ServiceError) (mutations : List (Mutation ν)) : ServiceError :=
  let err : CommitError Unit :=
    { error with
      details := none
      metadata := ()
      name := "Error"
      stack := none }
  ((decorateCommitError (some err) mutations).getD err).toServiceError

/-- A runner, the transaction it runs, and the server. -/
structure CommittingRunner {ν : Type} (S : Server ν) where
  runner : Runner
  isMuxEnabledForRW : Bool
  /-- What the function queues, attempt by attempt. -/
  mutations : Nat → List (Mutation ν)
  commit : Transaction.Commit (Mutation ν)
  server : S.State := S.start
  /-- The attempts whose commit has failed with an internal error that is
  retried. -/
  lost : List Nat := []

namespace CommittingRunner

variable {S : Server ν}

/-- The number of the last attempt. -/
def attempt
    (s : CommittingRunner S) : Nat :=
  s.runner.used.length

/-- A runner at its first attempt. -/
def begun
    (mode : Mode) (spanner : DefaultTransactionOptions)
    (options : RunTransactionOptions)
    (random : Nat → Nat) (start : Int)
    (isMuxEnabledForRW : Bool)
    (mutations : Nat → List (Mutation ν)) : CommittingRunner S where
  runner := Runner.begun mode spanner options random start
  isMuxEnabledForRW := isMuxEnabledForRW
  mutations := mutations
  commit :=
    Transaction.Commit.new .readWrite isMuxEnabledForRW none true (mutations 1)

/-- The transaction of the next attempt, which the runner has begun. -/
def nextCommit
    (s : CommittingRunner S) (id : TransactionId)
    (precommitToken : Option PrecommitToken) :
    Transaction.Commit (Mutation ν) :=
  let c :=
    Transaction.Commit.new .readWrite s.isMuxEnabledForRW
      s.commit.transaction.id true (s.mutations (s.attempt + 1))
  { c with
    transaction := c.transaction.onBegin id precommitToken
    received := precommitToken.toList }

/-- The requests that the transaction has sent reach the server. -/
def send
    (s : CommittingRunner S) (c : Transaction.Commit (Mutation ν)) :
    CommittingRunner S :=
  { s with
    commit := c
    server :=
      S.receiveAll s.server
        ((c.requests.drop s.commit.requests.length).map fun request =>
          (s.attempt, request)) }

/-- `transaction.once('end', resolve)`. -/
def hearEnd
    (s : CommittingRunner S) : CommittingRunner S :=
  if s.runner.mode = .callback ∧ s.commit.ended = true then
    { s with runner := { s.runner with phase := .resolved } }
  else
    s

/-- The failure is not passed to the callback of the request. -/
def intercepts
    (s : CommittingRunner S) (f : Failure) : Bool :=
  s.runner.mode = .callback && shouldRetry f.error

/-- An event of the transaction that is being run, with the failure it brings. -/
def atTransaction
    (s : CommittingRunner S) (failure : Option Failure)
    (e : Transaction.CommitEvent) : Option (CommittingRunner S) :=
  match s.runner.phase with
  | .running _ =>
      (Transaction.commitStep decorateError s.commit e).map fun c =>
        match failure.filter s.intercepts with
        | some f => { s with runner := s.runner.attemptFailed f }
        | none => (s.send c).hearEnd
  | _ => none

/-- The commit of the attempt may be lost. -/
def lose
    {α : Type}
    (s : CommittingRunner S) : Except Failure α → CommittingRunner S
  | .ok _ => s
  | .error f =>
      if isRetryableInternalError f.error then
        { s with lost := s.lost ++ [s.attempt] }
      else
        s

end CommittingRunner

def failureOf
    {α : Type} : Except Failure α → Option Failure
  | .ok _ => none
  | .error f => some f

inductive CommittingEvent {ν : Type} (S : Server ν) where
  /-- An event of the runner that is not one of those below. -/
  | runner (e : Event)
  /-- An event of the statements. -/
  | statement (e : Transaction.Event)
  /-- A call of `commit`. -/
  | commit (options : Transaction.CommitOptions)
  /-- The reply to the `BeginTransaction` request of `commit`. -/
  | beginReply
      (reply : Except Failure (TransactionId × Option PrecommitToken))
  /-- The reply to a `Commit` request. -/
  | commitReply (reply : Except Failure Transaction.CommitResponse)
  /-- The reply to the `BeginTransaction` request of the runner. -/
  | beginSettled
      (reply : Except Failure (TransactionId × Option PrecommitToken))
  /-- The server acts on its own. -/
  | server (a : S.Action)

namespace CommittingRunner

variable {S : Server ν}

/-- One event. -/
def step
    (s : CommittingRunner S) :
    CommittingEvent S → Option (CommittingRunner S)
  | .runner (.beginSettled _) => none
  | .runner e =>
      (TransactionRunner.step s.runner e).map fun r => { s with runner := r }
  | .statement e => s.atTransaction none (.statement e)
  | .commit options => s.atTransaction none (.commit options)
  | .beginReply reply =>
      s.atTransaction (failureOf reply)
        (.beginReply (reply.mapError Failure.error))
  | .commitReply reply =>
      if S.mayReply s.server s.attempt reply then
        (s.lose reply).atTransaction (failureOf reply)
          (.commitReply (reply.mapError Failure.error))
      else
        none
  | .beginSettled (.ok (id, precommitToken)) =>
      (TransactionRunner.step s.runner (.beginSettled none)).map fun r =>
        { s with
          runner := r
          commit := s.nextCommit id precommitToken }
  | .beginSettled (.error f) =>
      (TransactionRunner.step s.runner (.beginSettled (some f))).map fun r =>
        { s with runner := r }
  | .server a =>
      (S.act s.server a).map fun server => { s with server := server }

/-- `commit` has not been called. -/
def Uncommitted
    (s : CommittingRunner S) : Prop :=
  s.commit.phase = .idle ∧ s.commit.result = none

/-- The function ends with the error, if its commit has failed, and with none that
is retried, if it has not. -/
def EndsWith
    (s : CommittingRunner S) (f : Failure) : Prop :=
  s.commit.phase = .idle ∧
    (∀ resp, s.commit.result = some (.ok resp) →
      shouldRetry f.error = false) ∧
    ∀ error, s.commit.result = some (.error error) → f.error = error

/-- The function calls `commit` once and when its statements are over. -/
def Orderly
    (s : CommittingRunner S) : CommittingEvent S → Prop
  | .runner (.requestFailed _) => s.runner.mode = .callback → s.Uncommitted
  | .runner (.streamFailed _) => s.runner.mode = .callback → s.Uncommitted
  | .runner (.threw f) => s.EndsWith f
  | .commit _ => s.Uncommitted
  | _ => True

end CommittingRunner

/-! ## The commit of one transaction -/

section Commit

open Transaction (Commit CommitEvent CommitInv)

variable {μ : Type} {c d : Commit μ} {e : CommitEvent}
  {decorate : ServiceError → List μ → ServiceError}

/-- No `Commit` request has been sent. -/
def Unsent
    (c : Commit μ) : Prop :=
  (c.phase = .idle ∧ c.result = none) ∨ c.phase = .beginning

/-- `commit` sends a request or begins the transaction. -/
theorem commit_sends
    (c : Commit μ) :
    c.commit.queuedMutations = c.queuedMutations ∧
      c.commit.result = c.result ∧
      (c.commit.phase = .committing ∧
          c.commit.requests = c.requests ++ [c.request] ∨
        c.commit.phase = .beginning ∧ c.commit.requests = c.requests) := by
  rcases Transaction.commit_cases c with ⟨-, heq⟩ | ⟨-, -, heq⟩
  · rw [heq]
    exact ⟨rfl, rfl, Or.inl ⟨rfl, rfl⟩⟩
  · rw [heq]
    exact ⟨rfl, rfl, Or.inr ⟨rfl, rfl⟩⟩

/-- A request that is sent again is not begun again. -/
theorem commit_phase_of_selector
    (hselector :
      c.transaction.id.isSome = true ∨ c.transaction.useInRunner = false) :
    c.commit.phase = .committing := by
  rcases Transaction.commit_cases c with ⟨-, heq⟩ | ⟨hid, hrunner, -⟩
  · rw [heq]
  · rcases hselector with hsome | hnot
    · rw [hid] at hsome
      cases hsome
    · rw [hrunner] at hnot
      cases hnot

/-- What an event of the transaction does to its commit. -/
inductive Moves
    (decorate : ServiceError → List μ → ServiceError)
    (c d : Commit μ) : CommitEvent → Prop
  /-- The statements go on. -/
  | statement (e : Transaction.Event)
      (hphase : d.phase = c.phase) (hresult : d.result = c.result)
      (hrequests : d.requests = c.requests) :
      Moves decorate c d (.statement e)
  /-- A `BeginTransaction` request is sent. -/
  | begins (e : CommitEvent)
      (hunsent : (∃ options, e = .commit options) ∨ c.phase = .beginning)
      (hphase : d.phase = .beginning) (hresult : d.result = none)
      (hrequests : d.requests = c.requests) :
      Moves decorate c d e
  /-- A `Commit` request is sent. -/
  | sends (e : CommitEvent) (request : Transaction.CommitRequest μ)
      (hphase : d.phase = .committing) (hresult : d.result = none)
      (hrequests : d.requests = c.requests ++ [request])
      (hmutations : request.mutations = c.queuedMutations) :
      Moves decorate c d e
  /-- The transaction cannot be begun. -/
  | beginFailed (error : ServiceError)
      (hbeginning : c.phase = .beginning)
      (hphase : d.phase = .idle) (hresult : d.result = some (.error error))
      (hrequests : d.requests = c.requests) :
      Moves decorate c d (.beginReply (.error error))
  | committed (resp : Transaction.CommitResponse)
      (hphase : d.phase = .idle) (hresult : d.result = some (.ok resp))
      (hrequests : d.requests = c.requests) :
      Moves decorate c d (.commitReply (.ok resp))
  | failed (error : ServiceError)
      (hphase : d.phase = .idle)
      (hresult :
        d.result = some (.error (decorate error c.queuedMutations)))
      (hrequests : d.requests = c.requests) :
      Moves decorate c d (.commitReply (.error error))

/-- A call of `commit`, of a transaction with the mutations and requests of another
state. -/
theorem moves_of_commit
    {q : Commit μ}
    (hunsent : (∃ options, e = .commit options) ∨ c.phase = .beginning)
    (hqueued : q.queuedMutations = c.queuedMutations)
    (hrequests : q.requests = c.requests)
    (hresult : q.result = none) :
    q.commit.queuedMutations = c.queuedMutations ∧
      Moves decorate c q.commit e := by
  obtain ⟨hmutations, hsame, ⟨hphase, hsent⟩ | ⟨hphase, hsent⟩⟩ :=
    commit_sends q
  · refine ⟨hmutations.trans hqueued, .sends e q.request hphase ?_ ?_ hqueued⟩
    · exact hsame.trans hresult
    · rw [hsent, hrequests]
  · refine ⟨hmutations.trans hqueued, .begins e hunsent hphase ?_ ?_⟩
    · exact hsame.trans hresult
    · exact hsent.trans hrequests

theorem moves_of_commitStep
    (hinv : CommitInv c)
    (hstep : Transaction.commitStep decorate c e = some d) :
    d.queuedMutations = c.queuedMutations ∧ Moves decorate c d e := by
  cases e with
  | statement e =>
      simp only [Transaction.commitStep] at hstep
      split at hstep
      · cases hstep
      · obtain rfl := Option.some.inj hstep
        exact ⟨rfl, .statement e rfl rfl rfl⟩
  | commit options =>
      simp only [Transaction.commitStep] at hstep
      split at hstep
      · obtain rfl := Option.some.inj hstep
        exact moves_of_commit (Or.inl ⟨options, rfl⟩) rfl rfl rfl
      · cases hstep
  | beginReply reply =>
      simp only [Transaction.commitStep] at hstep
      split at hstep
      · rename_i hbeginning
        obtain rfl := Option.some.inj hstep
        cases reply with
        | error error =>
            exact ⟨rfl, .beginFailed error hbeginning rfl rfl rfl⟩
        | ok reply =>
            exact
              moves_of_commit (Or.inr hbeginning) rfl rfl
                (hinv.running (by simp [hbeginning]))
      · cases hstep
  | commitReply reply =>
      obtain ⟨hcommitting, hreplied⟩ :=
        Transaction.replied_of_commitReply hstep
      have hrunning := hinv.running (by simp [hcommitting])
      cases hreplied with
      | retry resp token latest hfirst htoken hlatest =>
          have hphase :=
            commit_phase_of_selector
              (c :=
                { c with
                  replies := c.replies ++ [.ok resp]
                  received := c.received ++ [token]
                  retryCommit := true
                  transaction :=
                    { c.transaction with latestPreCommitToken := latest } })
              (hinv.selector hcommitting)
          obtain ⟨hmutations, hsame, ⟨-, hsent⟩ | ⟨hbeginning, -⟩⟩ :=
            commit_sends
              { c with
                replies := c.replies ++ [.ok resp]
                received := c.received ++ [token]
                retryCommit := true
                transaction :=
                  { c.transaction with latestPreCommitToken := latest } }
          · exact
              ⟨hmutations,
                .sends _ _ hphase (hsame.trans hrunning) hsent rfl⟩
          · rw [hphase] at hbeginning
            cases hbeginning
      | final resp hfinal =>
          exact ⟨rfl, .committed resp rfl rfl rfl⟩
      | error error =>
          exact ⟨rfl, .failed error rfl rfl rfl⟩

end Commit

/-- The hint that an error is given does not change whether it is retried. -/
theorem shouldRetry_decorateError
    (error : ServiceError) (mutations : List (Mutation ν)) :
    shouldRetry (decorateError error mutations) = shouldRetry error := by
  have hrefused (e : ServiceError)
      (hcode : e.code = some .FAILED_PRECONDITION) :
      shouldRetry e = false := by
    simp [shouldRetry, isSessionNotFoundError, isRetryableInternalError, hcode]
  by_cases hcode : error.code = some .FAILED_PRECONDITION
  · rw [hrefused error hcode]
    refine hrefused _ ?_
    simp only [decorateError, decorateCommitError, Option.map_some, hcode,
      if_true, Option.getD_some, decoratePossibleJsonMismatchError]
    split
    · exact hcode
    · split
      · exact hcode
      · exact hcode
  · simp [decorateError, decorateCommitError, hcode]

end TransactionRunner
end SpannerClient
