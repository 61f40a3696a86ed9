import SpannerClient.Request.Rows
import SpannerClient.TransactionRunner.CommitOnce

/-!
# The methods of a table

`insert`, `update`, `upsert`, `replace` and `deleteRows` of a table run a
transaction whose function queues one mutation and commits.  Their callback hears
of the commit, or of the error `runTransaction` ends with.

`TableMutation.step` is a call of `_mutate` with the session it asks for, its
runners one after the other, and the server, which is a parameter as in
`CommittingRunner`; also the runners whose session is gone are kept, because the
server may still act on their requests.

The sections below the model follow one runner of the call.  Until the callback is
called, something is awaited (`Waits`); the reply that ends the commit calls it
(`heard_of_reply`).
-/

namespace SpannerClient
namespace TransactionRunner

open Machine
open Request

/-! ## The model -/

/-- The options of a method, with the defaults `_mutate` sets. -/
structure MutateRowsOptions where
  requestOptions : Property RequestOptions := none
  excludeTxnFromChangeStreams : Property Bool := none
  isolationLevel : Property IsolationLevel := none
  readLockMode : Property ReadLockMode := none
  commit : Transaction.CommitOptions := {}

/-- The options of the transaction: a property that is there is taken over, also
when it is undefined. -/
def MutateRowsOptions.runTransactionOptions
    (options : MutateRowsOptions) : RunTransactionOptions where
  requestOptions := some (options.requestOptions.getD (some {}))
  excludeTxnFromChangeStreams :=
    some (options.excludeTxnFromChangeStreams.getD (some false))
  isolationLevel :=
    some (options.isolationLevel.getD (some .ISOLATION_LEVEL_UNSPECIFIED))
  readLockMode :=
    some (options.readLockMode.getD (some .READ_LOCK_MODE_UNSPECIFIED))

/-- The methods, with their rows or keys. -/
inductive TableMethod (L : Codec.Leaves) where
  | insert (rows : List (Row L))
  | update (rows : List (Row L))
  | upsert (rows : List (Row L))
  | replace (rows : List (Row L))
  | deleteRows (keys : List (Key L))

/-- A call of `_mutate`. -/
structure MutateCall (L : Codec.Leaves) where
  bytes : Bytes L
  spanner : DefaultTransactionOptions
  isMuxEnabledForRW : Bool
  /-- The message of what `codec.encode` throws. -/
  encodeMessage : String
  name : String
  method : TableMethod L
  options : MutateRowsOptions

/-- What the callback of the method is called with. -/
inductive Answer where
  /-- `callback(err, resp)` in the callback of `commit`. -/
  | committed (result : Except ServiceError Transaction.CommitResponse)
  /-- `callback(err)`, with the error of `runTransaction`. -/
  | failed (rejection : Rejection)

namespace MutateCall

variable {L : Codec.Leaves} {S : Server L.Number}

/-- `transaction[method](this.name, rows)`, of a transaction with an empty queue. -/
def queue
    (call : MutateCall L) : List (Mutation L.Number) × Option BuildError :=
  match call.method with
  | .insert rows => insert [] call.name rows
  | .update rows => update [] call.name rows
  | .upsert rows => upsert [] call.name rows
  | .replace rows => replace [] call.name rows
  | .deleteRows keys =>
      match buildDeleteMutation call.bytes call.name keys with
      | none => ([], some .encode)
      | some mutation => ([mutation], none)

/-- The error, which has no code. -/
def failure
    (call : MutateCall L) : BuildError → Failure
  | .googleError message => { error := ⟨none, message⟩ }
  | .encode => { error := ⟨none, call.encodeMessage⟩ }

/-- The function of the transaction is called. -/
def callFunction
    (call : MutateCall L) (s : CommittingRunner S) :
    Option (CommittingRunner S) :=
  match call.queue.2 with
  | some err => s.step (.runner (.threw (call.failure err)))
  | none => s.step (.commit call.options.commit)

/-- The first attempt on a session that has been obtained. -/
def begun
    (call : MutateCall L) (random : Nat → Nat) (start : Int) :
    CommittingRunner S :=
  CommittingRunner.begun .callback call.spanner
    call.options.runTransactionOptions random start call.isMuxEnabledForRW
    fun _ => call.queue.1

end MutateCall

/-- Where the call is. -/
inductive TableStage {ν : Type} (S : Server ν) where
  /-- It awaits `getSessionForReadWrite`. -/
  | session
  /-- It awaits `runner.run()`. -/
  | running (s : CommittingRunner S)
  /-- The callback has been called with an error of `runTransaction`. -/
  | ended (s : Option (CommittingRunner S))

/-- A call of `_mutate` and what the server does with its transactions. -/
structure TableMutation {ν : Type} (S : Server ν) where
  /-- The runners whose sessions were gone. -/
  earlier : List (CommittingRunner S) := []
  stage : TableStage S := .session
  answers : List Answer := []

inductive TableEvent {ν : Type} (S : Server ν) where
  /-- The outcome of `getSessionForReadWrite`. -/
  | session (failure : Option Failure) (random : Nat → Nat) (start : Int)
  /-- The reply to the `BeginTransaction` request of `commit`. -/
  | beginReply
      (reply : Except Failure (TransactionId × Option PrecommitToken))
  /-- The reply to the `Commit` request. -/
  | commitReply (reply : Except Failure Transaction.CommitResponse)
  /-- The delay before the next attempt is over. -/
  | woken (now : Int)
  /-- The reply to the `BeginTransaction` request of the runner. -/
  | beginSettled
      (reply : Except Failure (TransactionId × Option PrecommitToken))
  /-- The promise of `run` has been rejected. -/
  | rejected
  /-- The server acts on its own, on the requests of the last runner. -/
  | server (a : S.Action)
  /-- The server acts on the requests of an earlier one. -/
  | serverEarlier (i : Nat) (a : S.Action)

namespace TableMutation

section Answers

variable {ν : Type} {S : Server ν}

/-- The runner goes on, and the callback of `commit` is called if there is a
result. -/
def goOn
    (s : TableMutation S) (q : CommittingRunner S) : TableMutation S :=
  { s with
    stage := .running q
    answers := s.answers ++ (q.commit.result.map Answer.committed).toList }

/-- `callback(err)`. -/
def fail
    (s : TableMutation S) (r : Option (CommittingRunner S))
    (rejection : Rejection) : TableMutation S :=
  { s with
    stage := .ended r
    answers := s.answers ++ [.failed rejection] }

end Answers

/-- One event. -/
def step
    {L : Codec.Leaves} {S : Server L.Number}
    (call : MutateCall L) (s : TableMutation S) :
    TableEvent S → Option (TableMutation S)
  | .session failure random start =>
      match s.stage, failure with
      | .session, none =>
          (call.callFunction (call.begun random start)).map fun q =>
            { s with stage := .running q }
      | .session, some f =>
          if isSessionNotFoundError (some f.error) then
            some s
          else
            some (s.fail none (.error f))
      | _, _ => none
  | .beginReply reply =>
      match s.stage with
      | .running r => (r.step (.beginReply reply)).map s.goOn
      | _ => none
  | .commitReply reply =>
      match s.stage with
      | .running r => (r.step (.commitReply reply)).map s.goOn
      | _ => none
  | .woken now =>
      match s.stage with
      | .running r =>
          (r.step (.runner (.woken now))).map fun q =>
            { s with stage := .running q }
      | _ => none
  | .beginSettled (.ok reply) =>
      match s.stage with
      | .running r =>
          ((r.step (.beginSettled (.ok reply))).bind call.callFunction).map
            fun q => { s with stage := .running q }
      | _ => none
  | .beginSettled (.error f) =>
      match s.stage with
      | .running r =>
          (r.step (.beginSettled (.error f))).map fun q =>
            { s with stage := .running q }
      | _ => none
  | .rejected =>
      match s.stage with
      | .running r =>
          match r.runner.phase with
          | .rejected rejection =>
              if r.startsAgain then
                some
                  { s with
                    earlier := s.earlier ++ [r]
                    stage := .session }
              else
                some (s.fail (some r) rejection)
          | _ => none
      | _ => none
  | .server a =>
      match s.stage with
      | .running r =>
          (r.step (.server a)).map fun q => { s with stage := .running q }
      | .ended (some r) =>
          (r.step (.server a)).map fun q => { s with stage := .ended (some q) }
      | _ => none
  | .serverEarlier i a =>
      match s.earlier[i]? with
      | some r =>
          (r.step (.server a)).map fun q =>
            { s with earlier := s.earlier.set i q }
      | none => none

section Counts

variable {ν : Type} {S : Server ν}

/-- The runners of the call. -/
def runners
    (s : TableMutation S) : List (CommittingRunner S) :=
  match s.stage with
  | .session => s.earlier
  | .running r => s.earlier ++ [r]
  | .ended r => s.earlier ++ r.toList

/-- What the server has committed of the call. -/
def commits
    (s : TableMutation S) : Nat :=
  (s.runners.map CommittingRunner.commits).sum

/-- The commits that have been answered by an internal error that is retried. -/
def losses
    (s : TableMutation S) : Nat :=
  (s.runners.map CommittingRunner.losses).sum

end Counts

end TableMutation

/-! ## The commit of one attempt -/

section Commit

open Transaction (Commit CommitEvent CommitInv)

variable {μ : Type} {c d : Commit μ} {e : CommitEvent}
  {decorate : ServiceError → List μ → ServiceError}

/-- Something is awaited after a call of `commit`. -/
theorem commit_awaits
    (c : Commit μ) :
    c.commit.phase ≠ .idle ∧
      c.commit.ended = c.ended ∧
      c.commit.result = c.result := by
  rcases Transaction.commit_cases c with ⟨-, heq⟩ | ⟨-, -, heq⟩ <;>
  · rw [heq]
    exact ⟨nofun, rfl, rfl⟩

/-- Something is awaited after the call. -/
theorem called
    {options : Transaction.CommitOptions}
    (hstep :
      Transaction.commitStep decorate c (.commit options) = some d) :
    d.phase ≠ .idle ∧ d.ended = c.ended ∧ d.result = none := by
  simp only [Transaction.commitStep] at hstep
  split at hstep
  · obtain rfl := Option.some.inj hstep
    exact commit_awaits { c with options := options, result := none }
  · cases hstep

/-- The replies that `commit` awaits. -/
inductive IsReply : CommitEvent → Prop
  | beginReply
      (reply : Except ServiceError (TransactionId × Option PrecommitToken)) :
      IsReply (.beginReply reply)
  | commitReply
      (reply : Except ServiceError Transaction.CommitResponse) :
      IsReply (.commitReply reply)

/-- After a reply another one is awaited, or there is a result. -/
theorem replied
    (hinv : CommitInv c)
    (he : IsReply e)
    (hstep : Transaction.commitStep decorate c e = some d) :
    c.phase ≠ .idle ∧
      ((d.phase ≠ .idle ∧ d.ended = c.ended ∧ d.result = none) ∨
        (d.phase = .idle ∧ ∃ result, d.result = some result)) := by
  cases he with
  | beginReply reply =>
      simp only [Transaction.commitStep] at hstep
      split at hstep
      · rename_i hbeginning
        obtain rfl := Option.some.inj hstep
        have hbusy : c.phase ≠ .idle := by
          rw [hbeginning]
          simp
        refine ⟨hbusy, ?_⟩
        cases reply with
        | error error => exact Or.inr ⟨rfl, _, rfl⟩
        | ok reply =>
            obtain ⟨hphase, hended, hresult⟩ :=
              commit_awaits
                { c with
                  transaction := c.transaction.onBegin reply.1 reply.2
                  received := c.received ++ reply.2.toList }
            exact Or.inl ⟨hphase, hended, hresult.trans (hinv.running hbusy)⟩
      · cases hstep
  | commitReply reply =>
      obtain ⟨hcommitting, hreplied⟩ :=
        Transaction.replied_of_commitReply hstep
      have hbusy : c.phase ≠ .idle := by
        rw [hcommitting]
        simp
      refine ⟨hbusy, ?_⟩
      cases hreplied with
      | retry resp token latest hfirst htoken hlatest =>
          obtain ⟨hphase, hended, hresult⟩ :=
            commit_awaits
              { c with
                replies := c.replies ++ [.ok resp]
                received := c.received ++ [token]
                retryCommit := true
                transaction :=
                  { c.transaction with latestPreCommitToken := latest } }
          exact Or.inl ⟨hphase, hended, hresult.trans (hinv.running hbusy)⟩
      | final resp hfinal => exact Or.inr ⟨rfl, _, rfl⟩
      | error error => exact Or.inr ⟨rfl, _, rfl⟩

end Commit

/-! ## One runner -/

namespace MutateCall

open CommittingRunner

variable {L : Codec.Leaves} {S : Server L.Number} {call : MutateCall L}
variable {r q : CommittingRunner S}

/-- The runner is one of the call: it queues the mutation of the call in each of its
attempts, and sends nothing if there is none. -/
structure Runs
    (call : MutateCall L) (r : CommittingRunner S) : Prop where
  once : Once r
  mutations : r.mutations = fun _ => call.queue.1
  mode : r.runner.mode = .callback
  refused :
    ∀ err, call.queue.2 = some err → S.received r.server = []

/-- The callback has not been called, and something is awaited. -/
structure Waits
    (call : MutateCall L) (r : CommittingRunner S) : Prop where
  ended : r.commit.ended = false
  result : r.commit.result = none
  busy : ∀ t, r.runner.phase = .running t → r.commit.phase ≠ .idle
  unresolved : r.runner.phase ≠ .resolved
  closed : ∀ rejection, r.runner.phase = .rejected rejection → r.LastClosed
  queued :
    call.queue.2 = none ∨ ∃ rejection, r.runner.phase = .rejected rejection

/-- The callback has been called with the result of the commit. -/
structure Told
    (r : CommittingRunner S)
    (result : Except ServiceError Transaction.CommitResponse) : Prop where
  result : r.commit.result = some result
  idle : r.commit.phase = .idle
  phase : (∃ t, r.runner.phase = .running t) ∨ r.runner.phase = .resolved

/-- What the callback has heard. -/
inductive Heard
    (call : MutateCall L) (r : CommittingRunner S) :
    List Answer → Prop
  | waits (h : call.Waits r) : Heard call r []
  | told (result : Except ServiceError Transaction.CommitResponse)
      (h : Told r result) :
      Heard call r [.committed result]

/-- The attempt that the runner makes has just been begun. -/
structure Fresh
    (r : CommittingRunner S) : Prop where
  running : ∃ t, r.runner.phase = .running t
  idle : r.commit.phase = .idle
  result : r.commit.result = none
  ended : r.commit.ended = false

/-- The runner has gone on and is not making an attempt. -/
theorem waits_of_runner
    {x : Runner}
    (hended : r.commit.ended = false)
    (hresult : r.commit.result = none)
    (hused : x.used = r.runner.used)
    (hrunning : ∀ t, x.phase ≠ .running t)
    (hresolved : x.phase ≠ .resolved)
    (hclosed : ∀ rejection, x.phase = .rejected rejection → r.LastClosed)
    (hqueued :
      call.queue.2 = none ∨ ∃ rejection, x.phase = .rejected rejection) :
    call.Waits { r with runner := x } where
  ended := hended
  result := hresult
  busy := fun t ht => absurd ht (hrunning t)
  unresolved := hresolved
  closed := fun rejection hrejected y hy hlast =>
    hclosed rejection hrejected y hy
      (hlast.trans (congrArg List.length hused))
  queued := hqueued

/-- An attempt has failed, and its commit has had no result. -/
theorem waits_of_attemptFailed
    {f : Failure}
    (hended : r.commit.ended = false)
    (hresult : r.commit.result = none)
    (hclosed :
      ∀ rejection, (r.runner.attemptFailed f).phase = .rejected rejection →
        r.LastClosed)
    (hqueued :
      call.queue.2 = none ∨
        ∃ rejection, (r.runner.attemptFailed f).phase = .rejected rejection) :
    call.Waits { r with runner := r.runner.attemptFailed f } := by
  refine
    waits_of_runner hended hresult (attemptFailed_kept r.runner f).1
      (attemptFailed_not_running r.runner f) ?_ hclosed hqueued
  rcases attemptFailed_phase r.runner f with
    ⟨-, hphase⟩ | ⟨-, -, hphase⟩ | ⟨-, -, -, delay, hphase⟩ <;>
  · rw [hphase]
    exact nofun

/-- After an error that is retried the runner is not open. -/
theorem attemptFailed_not_open
    {f : Failure} (runner : Runner)
    (hretry : shouldRetry f.error = true) :
    ¬ (runner.attemptFailed f).phase.Open := by
  rcases attemptFailed_phase runner f with
    ⟨hnot, hphase⟩ | ⟨-, -, hphase⟩ | ⟨-, -, -, delay, hphase⟩
  · rw [hphase]
    intro hopen
    rw [Phase.Open] at hopen
    rw [isRetryable, Bool.or_eq_false_iff] at hnot
    simp [shouldRetry, hnot.1, hnot.2, hopen] at hretry
  · rw [hphase]
    exact id
  · rw [hphase]
    exact id

/-- A request has been sent, and the transaction has not ended. -/
theorem waits_of_send
    {t : ReadWriteTransaction} {c : Transaction.Commit (Mutation L.Number)}
    (hrunning : r.runner.phase = .running t)
    (hqueued : call.queue.2 = none)
    (hphase : c.phase ≠ .idle)
    (hended : c.ended = false)
    (hresult : c.result = none) :
    (r.send c).hearEnd.runner = r.runner ∧ call.Waits (r.send c).hearEnd := by
  have hsame : (r.send c).hearEnd = r.send c := by
    unfold hearEnd
    rw [if_neg]
    intro hboth
    rw [show (r.send c).commit.ended = c.ended from rfl, hended] at hboth
    exact absurd hboth.2 nofun
  have hopen : (r.send c).runner.phase = .running t := hrunning
  rw [hsame]
  refine
    ⟨rfl,
      { ended := hended
        result := hresult
        busy := fun _ _ => hphase
        unresolved := ?_
        closed := ?_
        queued := Or.inl hqueued }⟩
  · rw [hopen]
    exact nofun
  · rw [hopen]
    exact fun _ => nofun

/-- The function queues the mutation and commits, or throws. -/
theorem callFunction_waits
    (hS : S.Lawful)
    (h : call.Runs r)
    (hfresh : Fresh r)
    (hcall : call.callFunction r = some q) :
    call.Runs q ∧ call.Waits q := by
  obtain ⟨t, hrunning⟩ := hfresh.running
  unfold callFunction at hcall
  split at hcall
  · rename_i err herr
    have hends : r.EndsWith (call.failure err) := by
      refine ⟨hfresh.idle, fun resp hresp => ?_, fun error herror => ?_⟩
      · rw [hfresh.result] at hresp
        cases hresp
      · rw [hfresh.result] at herror
        cases herror
    have honce :=
      step_once hS h.once (e := .runner (.threw (call.failure err))) hends hcall
    have hnone := h.refused err herr
    have hcode : isRetryable (call.failure err).error = false := by
      cases err <;> simp [failure, isRetryable, isRetryableInternalError]
    simp only [CommittingRunner.step, TransactionRunner.step, hrunning, Option.map_some,
      Option.some.injEq] at hcall
    subst hcall
    refine
      ⟨{ once := honce
         mutations := h.mutations
         mode := ?_
         refused := fun _ _ => hnone },
        waits_of_attemptFailed hfresh.ended hfresh.result ?_ (Or.inr ?_)⟩
    · rw [← h.mode]
      exact (attemptFailed_kept r.runner _).2.2
    · intro rejection hrejected x hx
      rw [hnone] at hx
      cases hx
    · exact ⟨.error (call.failure err), by simp [Runner.attemptFailed, hcode]⟩
  · rename_i hqueued
    have honce :=
      step_once hS h.once (e := .commit call.options.commit)
        ⟨hfresh.idle, hfresh.result⟩ hcall
    have hmutations :=
      step_mutations (e := .commit call.options.commit) hcall
    simp only [CommittingRunner.step] at hcall
    obtain ⟨t, c, -, hc, ⟨f, hf, -⟩ | rfl⟩ := atTransaction_cases hcall
    · cases hf
    · obtain ⟨hphase, hended, hresult⟩ := called hc
      obtain ⟨hrunner, hwaits⟩ :=
        waits_of_send hrunning hqueued hphase (hended.trans hfresh.ended)
          hresult
      refine ⟨{ once := honce, mutations := ?_, mode := ?_, refused := ?_ }, hwaits⟩
      · exact hmutations.trans h.mutations
      · rw [hrunner]
        exact h.mode
      · intro err herr
        rw [hqueued] at herr
        cases herr

/-- The reply to a request of the commit. -/
theorem heard_of_reply
    {failure : Option Failure} {e : Transaction.CommitEvent}
    (h : call.Runs r)
    (hwaits : call.Waits r)
    (he : IsReply e)
    (honce : Once q)
    (hstep : r.atTransaction failure e = some q) :
    call.Runs q ∧
      call.Heard q (q.commit.result.map Answer.committed).toList := by
  have hmutations := (atTransaction_mutations hstep).trans h.mutations
  obtain ⟨t, c, hrunning, hc, hcases⟩ := atTransaction_cases hstep
  have hqueued : call.queue.2 = none := by
    refine hwaits.queued.resolve_right ?_
    rintro ⟨rejection, hrejected⟩
    rw [hrunning] at hrejected
    cases hrejected
  have hruns (hmode : q.runner.mode = .callback) : call.Runs q := by
    refine
      { once := honce, mutations := hmutations, mode := hmode, refused := ?_ }
    intro err herr
    rw [hqueued] at herr
    cases herr
  rcases hcases with ⟨f, -, hretry, rfl⟩ | rfl
  · refine ⟨hruns ((attemptFailed_kept r.runner f).2.2.trans h.mode), ?_⟩
    rw [show
      ({ r with runner := r.runner.attemptFailed f } :
        CommittingRunner S).commit.result = none from hwaits.result]
    refine
      .waits (waits_of_attemptFailed hwaits.ended hwaits.result ?_ (Or.inl hqueued))
    intro rejection hrejected x hx hlast
    exact
      honce.closed_of_not_open (attemptFailed_not_open r.runner hretry) x hx
  · rcases (replied h.once.commitInv he hc).2 with
      ⟨hphase, hended, hresult⟩ | ⟨hidle, result, hresult⟩
    · obtain ⟨hrunner, hwaits'⟩ :=
        waits_of_send hrunning hqueued hphase
          (hended.trans hwaits.ended) hresult
      refine ⟨hruns (hrunner ▸ h.mode), ?_⟩
      rw [hwaits'.result]
      exact .waits hwaits'
    · unfold hearEnd at hruns ⊢
      split at hruns
      · rename_i hboth
        rw [if_pos hboth]
        refine ⟨hruns h.mode, ?_⟩
        rw [show (r.send c).commit.result = some result from hresult]
        exact .told result ⟨hresult, hidle, Or.inr rfl⟩
      · rename_i hnot
        rw [if_neg hnot]
        refine ⟨hruns h.mode, ?_⟩
        rw [show (r.send c).commit.result = some result from hresult]
        exact .told result ⟨hresult, hidle, Or.inl ⟨t, hrunning⟩⟩

/-- A lost commit changes neither the runner nor its transaction. -/
theorem lose_kept
    {α : Type} (r : CommittingRunner S) (reply : Except Failure α) :
    (r.lose reply).runner = r.runner ∧
      (r.lose reply).commit = r.commit ∧
      (r.lose reply).mutations = r.mutations ∧
      (r.lose reply).server = r.server ∧
      ∀ n, r.Closed n → (r.lose reply).Closed n := by
  cases reply with
  | ok a => exact ⟨rfl, rfl, rfl, rfl, fun _ => id⟩
  | error f =>
      rw [lose]
      split
      · exact
          ⟨rfl, rfl, rfl, rfl, fun _ hn => hn.imp_left (List.mem_append_left _)⟩
      · exact ⟨rfl, rfl, rfl, rfl, fun _ => id⟩

/-- While an attempt is made, the function has queued its mutation. -/
theorem Waits.queued_of_not_rejected
    (hwaits : call.Waits r)
    (hphase : ∀ rejection, r.runner.phase ≠ .rejected rejection) :
    call.queue.2 = none :=
  hwaits.queued.resolve_right fun hrejected =>
    hphase hrejected.choose hrejected.choose_spec

/-- If the runner is not open, its last attempt is closed. -/
theorem Runs.lastClosed
    (h : call.Runs r)
    (hopen : ¬ r.runner.phase.Open) :
    r.LastClosed :=
  fun x hx _ => h.once.closed_of_not_open hopen x hx

/-- The delay of the runner is over. -/
theorem woken_waits
    {now : Int}
    (hS : S.Lawful)
    (h : call.Runs r)
    (hwaits : call.Waits r)
    (hstep : r.step (.runner (.woken now)) = some q) :
    call.Runs q ∧ call.Waits q := by
  have honce := step_once hS h.once (e := .runner (.woken now)) trivial hstep
  simp only [CommittingRunner.step] at hstep
  obtain ⟨x, hx, rfl⟩ := Option.map_eq_some_iff.mp hstep
  cases steps_of_step hx with
  | @woken delay now hsleeping =>
      have hqueued : call.queue.2 = none := by
        refine hwaits.queued_of_not_rejected fun rejection => ?_
        rw [hsleeping]
        simp
      have hclosed : r.LastClosed := by
        refine h.lastClosed ?_
        rw [hsleeping]
        exact id
      have hattempts := h.once.attempted delay hsleeping
      rcases loop_again_cases hattempts now with ⟨t, hloop⟩ | hloop
      · rw [hloop] at honce ⊢
        exact
          ⟨⟨honce, h.mutations, h.mode, h.refused⟩,
            waits_of_runner hwaits.ended hwaits.result rfl (by simp)
              (by simp) (by simp) (Or.inl hqueued)⟩
      · rw [hloop] at honce ⊢
        exact
          ⟨⟨honce, h.mutations, h.mode, h.refused⟩,
            waits_of_runner hwaits.ended hwaits.result rfl (by simp)
              (by simp) (fun _ _ => hclosed) (Or.inl hqueued)⟩

/-- The runner could not begin the next transaction. -/
theorem beginFailed_waits
    {f : Failure}
    (hS : S.Lawful)
    (h : call.Runs r)
    (hwaits : call.Waits r)
    (hstep : r.step (.beginSettled (.error f)) = some q) :
    call.Runs q ∧ call.Waits q := by
  have honce := step_once hS h.once (e := .beginSettled (.error f)) trivial hstep
  simp only [CommittingRunner.step] at hstep
  obtain ⟨x, hx, rfl⟩ := Option.map_eq_some_iff.mp hstep
  cases steps_of_step hx with
  | beginFailed f hbeginning =>
      have hclosed : r.LastClosed :=
        fun y hy _ => h.once.closed_of_beginning hbeginning y hy
      exact
        ⟨⟨honce, h.mutations, h.mode, h.refused⟩,
          waits_of_runner hwaits.ended hwaits.result rfl (by simp)
            (by simp) (fun _ _ => hclosed) (Or.inr ⟨_, rfl⟩)⟩

/-- The runner has begun the next transaction. -/
theorem fresh_of_begun
    {reply : TransactionId × Option PrecommitToken}
    (hS : S.Lawful)
    (h : call.Runs r)
    (hstep : r.step (.beginSettled (.ok reply)) = some q) :
    call.Runs q ∧ Fresh q := by
  have honce := step_once hS h.once (e := .beginSettled (.ok reply)) trivial hstep
  simp only [CommittingRunner.step] at hstep
  obtain ⟨x, hx, rfl⟩ := Option.map_eq_some_iff.mp hstep
  cases steps_of_step hx with
  | @begun t hbeginning =>
      exact
        ⟨⟨honce, h.mutations, h.mode, h.refused⟩, ⟨t, rfl⟩, rfl, rfl, rfl⟩

theorem fresh_begun
    (hS : S.Lawful)
    (call : MutateCall L) (random : Nat → Nat) (start : Int) :
    call.Runs (call.begun (S := S) random start) ∧
      Fresh (call.begun (S := S) random start) :=
  ⟨⟨once_begun hS _ _ _ _ _ _ _, rfl, rfl,
      fun _ _ => received_begun hS _ _ _ _ _ _ _⟩,
    ⟨_, rfl⟩, rfl, rfl, rfl⟩

theorem lastClosed_of_same
    (hrunner : q.runner = r.runner)
    (hreceived : S.received q.server = S.received r.server)
    (hclosed : ∀ n, r.Closed n → q.Closed n)
    (h : r.LastClosed) :
    q.LastClosed := by
  intro x hx hlast
  rw [hreceived] at hx
  rw [attempt, hrunner] at hlast
  exact hclosed x.1 (h x hx hlast)

/-- The callback hears nothing new while only the server and the lost commits
change. -/
theorem Heard.of_same
    {answers : List Answer}
    (h : call.Heard r answers)
    (hrunner : q.runner = r.runner)
    (hcommit : q.commit = r.commit)
    (hreceived : S.received q.server = S.received r.server)
    (hclosed : ∀ n, r.Closed n → q.Closed n) :
    call.Heard q answers := by
  cases h with
  | waits h =>
      refine .waits ⟨?_, ?_, ?_, ?_, ?_, ?_⟩
      · rw [hcommit]
        exact h.ended
      · rw [hcommit]
        exact h.result
      · rw [hcommit, hrunner]
        exact h.busy
      · rw [hrunner]
        exact h.unresolved
      · rw [hrunner]
        exact fun rejection hrejected =>
          lastClosed_of_same hrunner hreceived hclosed
            (h.closed rejection hrejected)
      · rw [hrunner]
        exact h.queued
  | told result h =>
      refine .told result ⟨?_, ?_, ?_⟩
      · rw [hcommit]
        exact h.result
      · rw [hcommit]
        exact h.idle
      · rw [hrunner]
        exact h.phase

theorem Runs.lose
    {α : Type}
    (h : call.Runs r) (reply : Except Failure α) :
    call.Runs (r.lose reply) := by
  obtain ⟨hrunner, -, hmutations, hserver, -⟩ := lose_kept r reply
  exact
    { once := h.once.lose reply
      mutations := hmutations.trans h.mutations
      mode := hrunner ▸ h.mode
      refused := hserver ▸ h.refused }

theorem Heard.lose
    {α : Type} {answers : List Answer}
    (h : call.Heard r answers) (reply : Except Failure α) :
    call.Heard (r.lose reply) answers := by
  obtain ⟨hrunner, hcommit, -, hserver, hclosed⟩ := lose_kept r reply
  exact h.of_same hrunner hcommit (by rw [hserver]) hclosed

/-- The server has acted on its own. -/
theorem server_step
    {a : S.Action}
    (hS : S.Lawful)
    (hstep : r.step (.server a) = some q) :
    q.runner = r.runner ∧ q.commit = r.commit ∧
      S.received q.server = S.received r.server ∧
      ∀ n, r.Closed n → q.Closed n := by
  simp only [CommittingRunner.step] at hstep
  obtain ⟨server, hserver, rfl⟩ := Option.map_eq_some_iff.mp hstep
  have hacts := hS.act r.server a server hserver
  exact ⟨rfl, rfl, hacts.received, fun n hn => hn.imp_right (hacts.aborted n)⟩

theorem Runs.server
    {a : S.Action}
    (hS : S.Lawful)
    (h : call.Runs r)
    (hstep : r.step (.server a) = some q) :
    call.Runs q := by
  obtain ⟨hrunner, -, hreceived, -⟩ := server_step hS hstep
  refine
    { once := step_once hS h.once (e := .server a) trivial hstep
      mutations := (step_mutations hstep).trans h.mutations
      mode := hrunner ▸ h.mode
      refused := fun err herr => ?_ }
  rw [hreceived]
  exact h.refused err herr

theorem server_lastClosed
    {a : S.Action}
    (hS : S.Lawful)
    (hstep : r.step (.server a) = some q)
    (h : r.LastClosed) :
    q.LastClosed := by
  obtain ⟨hrunner, -, hreceived, hclosed⟩ := server_step hS hstep
  exact lastClosed_of_same hrunner hreceived hclosed h

theorem Heard.server
    {a : S.Action} {answers : List Answer}
    (hS : S.Lawful)
    (h : call.Heard r answers)
    (hstep : r.step (.server a) = some q) :
    call.Heard q answers := by
  obtain ⟨hrunner, hcommit, hreceived, hclosed⟩ := server_step hS hstep
  exact h.of_same hrunner hcommit hreceived hclosed

end MutateCall

end TransactionRunner
end SpannerClient
