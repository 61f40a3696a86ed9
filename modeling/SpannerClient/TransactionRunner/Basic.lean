import Mathlib.Algebra.Group.Nat.Defs
import Mathlib.Data.Rat.Defs
import SpannerClient.Machine.Run
import SpannerClient.ServiceError

/-!
# The transaction runner

A runner runs a function against a transaction, and again against another one
while the attempts fail with an error that may be retried and the timeout has
not passed.  The first transaction is configured by `Database.runTransaction` or
`runTransactionAsync`; the others are made and configured by the runner itself,
which begins them before the function sees them.

In callback mode the errors of the requests and streams of the transaction are
intercepted; in promise mode the function itself decides how the attempt ends.

An option that is there and undefined differs from one that is not there
(`Property`).  The phase of a runner is where `run` is suspended (`Phase`); `step` is
one event, and `Steps` says what each of them does.
-/

namespace SpannerClient
namespace TransactionRunner

inductive IsolationLevel where
  | ISOLATION_LEVEL_UNSPECIFIED | SERIALIZABLE | REPEATABLE_READ
deriving DecidableEq, Repr

inductive ReadLockMode where
  | READ_LOCK_MODE_UNSPECIFIED | PESSIMISTIC | OPTIMISTIC
deriving DecidableEq, Repr

/-- A property of an options object: absent, or given, perhaps as undefined. -/
abbrev Property (α : Type) := Option (Option α)

/-- `Object.assign(target, source)`, one property. -/
def assign
    {α : Type} (target source : Property α) : Property α :=
  source.orElse fun _ => target

structure RequestOptions where
  transactionTag : Property String := none
deriving DecidableEq

/-- `RunTransactionOptions`. -/
structure RunTransactionOptions where
  /-- In milliseconds. -/
  timeout : Property Int := none
  requestOptions : Property RequestOptions := none
  excludeTxnFromChangeStreams : Property Bool := none
  isolationLevel : Property IsolationLevel := none
  readLockMode : Property ReadLockMode := none
deriving DecidableEq

/-- The options in the constructor of `Runner`. -/
def RunTransactionOptions.construct
    (options : RunTransactionOptions) : RunTransactionOptions where
  timeout := assign (some (some 3600000)) options.timeout
  requestOptions := options.requestOptions
  excludeTxnFromChangeStreams := options.excludeTxnFromChangeStreams
  isolationLevel :=
    assign (some (some .ISOLATION_LEVEL_UNSPECIFIED)) options.isolationLevel
  readLockMode :=
    assign (some (some .READ_LOCK_MODE_UNSPECIFIED)) options.readLockMode

/-- `Spanner.defaultTransactionOptions`. -/
structure DefaultTransactionOptions where
  isolationLevel : Option IsolationLevel :=
    some .ISOLATION_LEVEL_UNSPECIFIED
  readLockMode : Option ReadLockMode :=
    some .READ_LOCK_MODE_UNSPECIFIED

/-- The parts of a read-write `Transaction` that options decide. -/
structure ReadWriteTransaction where
  requestOptions : Option RequestOptions := none
  isolationLevel : Option IsolationLevel := some .ISOLATION_LEVEL_UNSPECIFIED
  readLockMode : Option ReadLockMode := none
  excludeTxnFromChangeStreams : Option Bool := none
deriving DecidableEq

namespace ReadWriteTransaction

/-- `Transaction.setReadWriteTransactionOptions`. -/
def setReadWriteTransactionOptions
    (spanner : DefaultTransactionOptions)
    (options : RunTransactionOptions)
    (t : ReadWriteTransaction) : ReadWriteTransaction :=
  { t with
    excludeTxnFromChangeStreams :=
      if options.excludeTxnFromChangeStreams.join = some true then
        some true
      else
        t.excludeTxnFromChangeStreams
    isolationLevel :=
      match options.isolationLevel.join with
      | none => spanner.isolationLevel
      | some .ISOLATION_LEVEL_UNSPECIFIED => spanner.isolationLevel
      | some level => some level
    readLockMode :=
      match options.readLockMode.join with
      | none => spanner.readLockMode
      | some .READ_LOCK_MODE_UNSPECIFIED => spanner.readLockMode
      | some mode => some mode }

/-- `Object.assign(transaction.requestOptions || {}, options.requestOptions)`. -/
def assignRequestOptions
    (options : RunTransactionOptions)
    (t : ReadWriteTransaction) : ReadWriteTransaction :=
  let target := t.requestOptions.getD {}
  { t with
    requestOptions :=
      match options.requestOptions.join with
      | none => some target
      | some source =>
          some
            { transactionTag :=
                assign target.transactionTag source.transactionTag } }

/-- `this.requestOptions?.transactionTag`. -/
def transactionTag
    (t : ReadWriteTransaction) : Option String :=
  t.requestOptions.bind fun o => o.transactionTag.join

end ReadWriteTransaction

/-- `Session.transaction`. -/
def sessionTransaction : ReadWriteTransaction := {}

/-- The transaction `Database.runTransaction` and `runTransactionAsync` hand to
the runner: the one that came with the session, configured. -/
def databaseTransaction
    (spanner : DefaultTransactionOptions)
    (options : RunTransactionOptions) : ReadWriteTransaction :=
  (sessionTransaction.assignRequestOptions options)
    |>.setReadWriteTransactionOptions spanner options

/-- The entry `google.rpc.retryinfo-bin` of the metadata of an error. -/
inductive RetryInfo where
  | absent
  | retryDelay (seconds nanos : Int)
  /-- It cannot be decoded, or holds no delay. -/
  | unreadable
deriving DecidableEq

/-- An error with its metadata. -/
structure Failure where
  error : ServiceError
  retryInfo : RetryInfo := .absent
deriving DecidableEq

/-- `RETRYABLE.includes(err.code!) || isRetryableInternalError(err)`. -/
def isRetryable
    (error : ServiceError) : Bool :=
  error.code == some .ABORTED || isRetryableInternalError error

/-- `shouldRetry`. -/
def shouldRetry
    (error : ServiceError) : Bool :=
  error.code == some .ABORTED ||
    isSessionNotFoundError (some error) ||
    isRetryableInternalError error

/-- `getNextDelay`, in milliseconds; `none` is a TypeError. -/
def getNextDelay
    (attempts random : Nat) (f : Failure) : Option Rat :=
  match f.retryInfo with
  | .retryDelay seconds nanos =>
      some (seconds * 1000 + (nanos : Rat) / 1000000)
  | .unreadable => none
  | .absent =>
      if isSessionNotFoundError (some f.error) then
        some 0
      else
        some ((2 ^ min attempts 5 * 1000 + random : Nat) : Rat)

/-- What `run` rejects with. -/
inductive Rejection where
  | error (failure : Failure)
  /-- `DeadlineError`, made at a time. -/
  | deadline (lastError : Option Failure) (now : Int)
  /-- The TypeError of `getNextDelay` for the error. -/
  | undecodable (lastError : Failure)
deriving DecidableEq

/-- Where `run` is. -/
inductive Phase where
  /-- It awaits `transaction.begin()`. -/
  | beginning (transaction : ReadWriteTransaction)
  /-- It awaits `_run(transaction)`. -/
  | running (transaction : ReadWriteTransaction)
  | sleeping (delay : Rat)
  | resolved
  | rejected (rejection : Rejection)
deriving DecidableEq

/-- The two runners. -/
inductive Mode where
  /-- `TransactionRunner`. -/
  | callback
  /-- `AsyncTransactionRunner`. -/
  | promise
deriving DecidableEq

/-- `Runner`, with the local variables of `run`. -/
structure Runner where
  mode : Mode
  spanner : DefaultTransactionOptions
  options : RunTransactionOptions
  /-- `Math.floor(Math.random() * 1000)` after an attempt. -/
  random : Nat → Nat
  attempts : Nat := 0
  start : Int
  lastError : Option Failure := none
  phase : Phase
  /-- The transactions handed to `_run` so far. -/
  used : List ReadWriteTransaction

namespace Runner

/-- The transaction is handed to `_run`. -/
def runAgainst
    (r : Runner) (t : ReadWriteTransaction) : Runner :=
  { r with
    phase := .running t
    used := r.used ++ [t] }

/-- A runner of `Database.runTransaction` or `runTransactionAsync`, whose `run`
has reached the first attempt. -/
def begun
    (mode : Mode) (spanner : DefaultTransactionOptions)
    (options : RunTransactionOptions)
    (random : Nat → Nat) (start : Int) : Runner where
  mode := mode
  spanner := spanner
  options := options.construct
  random := random
  start := start
  phase := .running (databaseTransaction spanner options)
  used := [databaseTransaction spanner options]

/-- `getTransaction`, the first transaction being used. -/
def getTransaction
    (r : Runner) : Runner :=
  let t :=
    sessionTransaction.setReadWriteTransactionOptions r.spanner r.options
  if r.attempts > 0 then
    { r with phase := .beginning t }
  else
    r.runAgainst t

/-- `_run` has rejected: the `catch` block and what follows the `try`. -/
def attemptFailed
    (r : Runner) (f : Failure) : Runner :=
  let r := { r with lastError := some f }
  if isRetryable f.error then
    let r := { r with attempts := r.attempts + 1 }
    match getNextDelay r.attempts (r.random r.attempts) f with
    | some delay => { r with phase := .sleeping delay }
    | none => { r with phase := .rejected (.undecodable f) }
  else
    { r with phase := .rejected (.error f) }

/-- `Date.now() - start < timeout`. -/
def withinTimeout
    (r : Runner) (now : Int) : Bool :=
  match r.options.timeout.join with
  | some timeout => now - r.start < timeout
  | none => false

/-- The condition of the loop, and what follows. -/
def loop
    (r : Runner) (now : Int) : Runner :=
  if r.attempts = 0 ∨ r.withinTimeout now then
    r.getTransaction
  else
    { r with phase := .rejected (.deadline r.lastError now) }

end Runner

/-- What can happen to a runner. -/
inductive Event where
  /-- A request of the transaction fails, `commit` included. -/
  | requestFailed (failure : Failure)
  | streamFailed (failure : Failure)
  /-- The transaction emits 'end'. -/
  | transactionEnded
  /-- The promise of the function is resolved. -/
  | returned
  /-- The promise of the function is rejected; in callback mode, it throws when
  it is called. -/
  | threw (failure : Failure)
  /-- The outcome of `transaction.begin()`. -/
  | beginSettled (failure : Option Failure)
  /-- The timer of the delay fires, at a time. -/
  | woken (now : Int)

/-- An error that the interception stops. -/
def Runner.intercept
    (r : Runner) (f : Failure) : Runner :=
  match r.mode with
  | .callback => if shouldRetry f.error then r.attemptFailed f else r
  | .promise => r

/-- One event. -/
def step
    (r : Runner) : Event → Option Runner
  | .requestFailed f =>
      match r.phase with
      | .running _ => some (r.intercept f)
      | _ => none
  | .streamFailed f =>
      match r.phase with
      | .running _ => some (r.intercept f)
      | _ => none
  | .transactionEnded =>
      match r.phase, r.mode with
      | .running _, .callback => some { r with phase := .resolved }
      | .running _, .promise => some r
      | _, _ => none
  | .returned =>
      match r.phase, r.mode with
      | .running _, .callback => some r
      | .running _, .promise => some { r with phase := .resolved }
      | _, _ => none
  | .threw f =>
      match r.phase with
      | .running _ => some (r.attemptFailed f)
      | _ => none
  | .beginSettled none =>
      match r.phase with
      | .beginning t => some (r.runAgainst t)
      | _ => none
  | .beginSettled (some f) =>
      match r.phase with
      | .beginning _ => some { r with phase := .rejected (.error f) }
      | _ => none
  | .woken now =>
      match r.phase with
      | .sleeping _ => some (r.loop now)
      | _ => none

/-- The steps, event by event. -/
inductive Steps
    (r : Runner) : Event → Runner → Prop
  | requestFailed {t : ReadWriteTransaction} (f : Failure)
      (hphase : r.phase = .running t) :
      Steps r (.requestFailed f) (r.intercept f)
  | streamFailed {t : ReadWriteTransaction} (f : Failure)
      (hphase : r.phase = .running t) :
      Steps r (.streamFailed f) (r.intercept f)
  | transactionEnded {t : ReadWriteTransaction}
      (hphase : r.phase = .running t) (hmode : r.mode = .callback) :
      Steps r .transactionEnded { r with phase := .resolved }
  | transactionEndedUnheard {t : ReadWriteTransaction}
      (hphase : r.phase = .running t) (hmode : r.mode = .promise) :
      Steps r .transactionEnded r
  | returned {t : ReadWriteTransaction}
      (hphase : r.phase = .running t) (hmode : r.mode = .promise) :
      Steps r .returned { r with phase := .resolved }
  | returnedUnheard {t : ReadWriteTransaction}
      (hphase : r.phase = .running t) (hmode : r.mode = .callback) :
      Steps r .returned r
  | threw {t : ReadWriteTransaction} (f : Failure)
      (hphase : r.phase = .running t) :
      Steps r (.threw f) (r.attemptFailed f)
  | begun {t : ReadWriteTransaction}
      (hphase : r.phase = .beginning t) :
      Steps r (.beginSettled none) (r.runAgainst t)
  | beginFailed {t : ReadWriteTransaction} (f : Failure)
      (hphase : r.phase = .beginning t) :
      Steps r (.beginSettled (some f))
        { r with phase := .rejected (.error f) }
  | woken {delay : Rat} (now : Int)
      (hphase : r.phase = .sleeping delay) :
      Steps r (.woken now) (r.loop now)

theorem steps_of_step
    {r q : Runner} {e : Event}
    (hstep : step r e = some q) :
    Steps r e q := by
  cases e with
  | requestFailed f =>
      cases hphase : r.phase with
      | running t =>
          simp only [step, hphase, Option.some.injEq] at hstep
          subst hstep
          exact .requestFailed f hphase
      | _ => simp [step, hphase] at hstep
  | streamFailed f =>
      cases hphase : r.phase with
      | running t =>
          simp only [step, hphase, Option.some.injEq] at hstep
          subst hstep
          exact .streamFailed f hphase
      | _ => simp [step, hphase] at hstep
  | transactionEnded =>
      cases hphase : r.phase with
      | running t =>
          cases hmode : r.mode with
          | callback =>
              obtain rfl : { r with phase := .resolved } = q := by
                simpa only [step, hphase, hmode, Option.some.injEq] using hstep
              exact .transactionEnded hphase hmode
          | promise =>
              obtain rfl : r = q := by
                simpa only [step, hphase, hmode, Option.some.injEq] using hstep
              exact .transactionEndedUnheard hphase hmode
      | _ => simp [step, hphase] at hstep
  | returned =>
      cases hphase : r.phase with
      | running t =>
          cases hmode : r.mode with
          | callback =>
              obtain rfl : r = q := by
                simpa only [step, hphase, hmode, Option.some.injEq] using hstep
              exact .returnedUnheard hphase hmode
          | promise =>
              obtain rfl : { r with phase := .resolved } = q := by
                simpa only [step, hphase, hmode, Option.some.injEq] using hstep
              exact .returned hphase hmode
      | _ => simp [step, hphase] at hstep
  | threw f =>
      cases hphase : r.phase with
      | running t =>
          simp only [step, hphase, Option.some.injEq] at hstep
          subst hstep
          exact .threw f hphase
      | _ => simp [step, hphase] at hstep
  | beginSettled failure =>
      cases hphase : r.phase with
      | beginning t =>
          cases failure <;>
            simp only [step, hphase, Option.some.injEq] at hstep <;>
            subst hstep
          · exact .begun hphase
          · exact .beginFailed _ hphase
      | _ => cases failure <;> simp [step, hphase] at hstep
  | woken now =>
      cases hphase : r.phase with
      | sleeping delay =>
          simp only [step, hphase, Option.some.injEq] at hstep
          subst hstep
          exact .woken now hphase
      | _ => simp [step, hphase] at hstep

end TransactionRunner
end SpannerClient
