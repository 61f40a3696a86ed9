import Mathlib.Logic.Function.Basic
import SpannerClient.Machine.Containers
import SpannerClient.ServiceError

/-!
# The session pool

The state of a `SessionPool` and its operations, one definition for each method.

The pool is a single-threaded program whose methods are suspended at `await`s and
resumed by events.  What a method does between two suspension points is one
function on the pool; where it is suspended is recorded in the pool:

* `queued` and `current` are the `_acquires` queue (concurrency one) and the
  suspension point of the closure it runs;
* `resolved` are acquires whose queue promise has resolved and whose last
  continuation has not run yet;
* `creating` are the `_createSessions` loops waiting for `batchCreateSessions`,
  each with its local `amount`, and `immediates` the sessions they have handed to
  `setImmediate`;
* `rounds`, `pings` and `requests` are the `_pingIdleSessions` calls in progress,
  their keep-alive requests and the delete requests.

Sessions are objects compared by identity, an arbitrary type `σ` here; their
fields `lastUsed` and `lastError` are functions of them.
-/

namespace SpannerClient
namespace SessionPool

open Machine

/-- The options of a pool, in the units of the source; `none` is `Infinity`. -/
structure SessionPoolOptions where
  acquireTimeout : Option Nat := none
  fail : Bool := false
  idlesAfter : Nat := 10
  max : Nat := 100
  maxIdle : Nat := 1
  min : Nat := 25
  incStep : Nat := 25
deriving DecidableEq

/-- `DEFAULTS`. -/
def defaults : SessionPoolOptions := {}

/-- The constructor lowers `min` to `max`. -/
def SessionPoolOptions.construct
    (options : SessionPoolOptions) : SessionPoolOptions :=
  { options with min := Nat.min options.min options.max }

/-- How an acquire can fail. -/
inductive AcquireError (σ : Type) where
  | closed
  | timeout
  | exhausted (leaks : List σ)
  | createError (error : ServiceError)
  | typeError
deriving DecidableEq

/-- The message of a failed acquire. -/
def AcquireError.message {σ : Type} : AcquireError σ → String
  | .closed => "Database is closed."
  | .timeout => "Timeout occurred while acquiring session."
  | .exhausted _ => "No resources available."
  | .createError error => error.message
  | .typeError => "Cannot read properties of undefined (reading 'lastUsed')"

/-- Releasing a session that is not borrowed throws this. -/
structure ReleaseError (σ : Type) where
  resource : σ
deriving DecidableEq

def ReleaseError.message {σ : Type} (_ : ReleaseError σ) : String :=
  "Unable to release unknown resource."

/-- A call of `_acquire`: the caller and its `startTime`. -/
structure Acquire where
  caller : Nat
  startTime : Nat
deriving DecidableEq

/-- Where the closure run by the `_acquires` queue is suspended. -/
inductive Phase (σ : Type) where
  /-- In `await Promise.race(promises)`, nothing having settled it. -/
  | waiting
  /-- The race is settled; the continuation has not run. -/
  | woken (result : Except (AcquireError σ) Unit)
  /-- `_getSession` has returned, with `none` for `undefined`. -/
  | returned (session : Option σ)
deriving DecidableEq

/-- A pool, its suspended methods and the history of its calls. -/
structure Pool (σ : Type) where
  isOpen : Bool
  houseKeeping : Bool
  sessions : List σ
  borrowed : List σ
  pending : Int
  waiters : Nat
  traces : List σ
  lastUsed : σ → Nat
  lastError : σ → Option ServiceError
  now : Nat
  queued : List Acquire
  current : Option (Acquire × Phase σ)
  resolved : List (Acquire × σ)
  creating : List Int
  immediates : List σ
  rounds : List Nat
  nextRound : Nat
  pings : List (Nat × σ)
  requests : List (Option Nat × σ)
  closing : Bool
  /-- The sessions handed to callers and not released by them. -/
  held : List (Nat × σ)
  /-- What the callers' callbacks have received. -/
  outcomes : List (Nat × Except (AcquireError σ) σ)
  /-- The `count` of every `batchCreateSessions` request issued. -/
  batchCreates : List Int
  /-- Every session a `batchCreateSessions` request has returned. -/
  created : List σ
  /-- Every session a delete has been issued for. -/
  deletes : List σ

variable {σ : Type} [DecidableEq σ]

namespace Pool

/-- Total size of the pool. -/
def size
    (p : Pool σ) : Int :=
  p.sessions.length + (p.borrowed.length + p.pending)

/-- `isFull`. -/
def isFull
    (options : SessionPoolOptions) (p : Pool σ) : Bool :=
  decide ((options.max : Int) ≤ p.size)

/-- Settle the race of the suspended acquire, unless it is settled already. -/
def wake
    (p : Pool σ) (result : Except (AcquireError σ) Unit) : Pool σ :=
  { p with
    current :=
      p.current.map fun
        | (a, .waiting) => (a, .woken result)
        | other => other }

/-- `_isValidSession`: unpinged sessions only stay good for one hour. -/
def isValidSession
    (p : Pool σ) (s : σ) : Bool :=
  decide (p.now - p.lastUsed s < 60000 * 60)

/-- `_getIdleSessions`. -/
def getIdleSessions
    (options : SessionPoolOptions) (p : Pool σ) : List σ :=
  p.sessions.filter fun s =>
    decide (p.lastUsed s + options.idlesAfter * 60000 ≤ p.now)

/-- `_destroy`: queue the delete request, for the ping round awaiting it. -/
def destroy
    (p : Pool σ) (round : Option Nat) (s : σ) : Pool σ :=
  { p with
    requests := p.requests ++ [(round, s)]
    deletes := p.deletes ++ [s] }

/-- `_release`: back to the idle sessions, waking a waiter. -/
def releaseIdle
    (p : Pool σ) (s : σ) : Pool σ :=
  wake
    { p with
      sessions := p.sessions ++ [s]
      borrowed := p.borrowed.erase s
      traces := p.traces.erase s }
    (.ok ())

/-- `release`. -/
def release
    (p : Pool σ) (s : σ) : Except (ReleaseError σ) Unit × Pool σ :=
  if s ∉ p.borrowed then
    (.error ⟨s⟩, p)
  else
    let p := { p with lastUsed := Function.update p.lastUsed s p.now }
    if isSessionNotFoundError (p.lastError s) then
      (.ok (),
        { p with
          borrowed := p.borrowed.erase s
          traces := p.traces.erase s })
    else
      (.ok (),
        releaseIdle
          { p with
            lastError := Function.update p.lastError s none
            traces := p.traces.erase s }
          s)

/-- `_borrow`. -/
def borrow
    (p : Pool σ) (s : σ) : Pool σ :=
  { p with
    borrowed := setAdd p.borrowed s
    sessions := spliceOut p.sessions s }

/-- `_borrowNextAvailableSession`: popping the empty array gives `undefined`. -/
def borrowNextAvailableSession
    (p : Pool σ) : Option σ × Pool σ :=
  match p.sessions.getLast? with
  | none => (none, p)
  | some s =>
      (some s,
        { p with
          sessions := p.sessions.dropLast
          borrowed := setAdd p.borrowed s })

/-- `_createSessions` up to its first `batchCreateSessions` request. -/
def createSessions
    (p : Pool σ) (amount : Int) : Pool σ :=
  if amount ≤ 0 then
    p
  else
    { p with
      pending := p.pending + amount
      creating := p.creating ++ [amount]
      batchCreates := p.batchCreates ++ [amount] }

/-- `_fill`. -/
def fill
    (options : SessionPoolOptions) (p : Pool σ) : Pool σ :=
  let needed := (options.min : Int) - p.size
  if needed ≤ 0 then p else createSessions p needed

/-- The closure's promise rejects: the queue is free and the caller is told. -/
def reject
    (p : Pool σ) (a : Acquire) (error : AcquireError σ) : Pool σ :=
  { p with
    current := none
    outcomes := p.outcomes ++ [(a.caller, .error error)] }

/-- The number of sessions `_getSession` asks for when it creates any. -/
def createAmount
    (options : SessionPoolOptions) (p : Pool σ) : Int :=
  let amount : Int :=
    if options.incStep = 0 then defaults.incStep else options.incStep
  let amount :=
    if p.size + p.pending + amount < options.min then
      options.min - p.size - p.pending
    else
      amount
  if amount + p.size > options.max then
    options.max - p.size
  else
    amount

/-- `_getSession` creates sessions if more wait than are being created. -/
def createForWaiter
    (options : SessionPoolOptions) (p : Pool σ) : Pool σ :=
  if !p.isFull options && decide (p.pending ≤ p.waiters) then
    let amount := p.createAmount options
    if amount > 0 then
      let p := { p with pending := p.pending + amount }
      createSessions { p with pending := p.pending - amount } amount
    else
      p
  else
    p

/-- `_getSession` up to its suspension. -/
def getSession
    (options : SessionPoolOptions) (p : Pool σ) (a : Acquire) : Pool σ :=
  if p.sessions.length > 0 then
    let (s, p) := p.borrowNextAvailableSession
    { p with current := some (a, .returned s) }
  else if p.isFull options && options.fail then
    p.reject a (.exhausted p.traces)
  else
    let p := p.createForWaiter options
    { p with
      waiters := p.waiters + 1
      current := some (a, .waiting) }

/-- The acquire has no time left. -/
def timedOut
    (options : SessionPoolOptions) (p : Pool σ) (a : Acquire) : Bool :=
  match options.acquireTimeout with
  | none => false
  | some timeout => decide (timeout ≤ p.now - a.startTime)

/-- The closure `getSession` of `_acquire` up to its suspension. -/
def attempt
    (options : SessionPoolOptions) (p : Pool σ) (a : Acquire) : Pool σ :=
  if p.timedOut options a then
    p.reject a .timeout
  else
    p.getSession options a

/-- The rest of `_getSession` after `await Promise.race(promises)`. -/
def resumeWaiter
    (p : Pool σ) (a : Acquire)
    (result : Except (AcquireError σ) Unit) : Pool σ :=
  let p := { p with waiters := p.waiters - 1, current := none }
  match result with
  | .ok () =>
      let (s, p) := p.borrowNextAvailableSession
      { p with current := some (a, .returned s) }
  | .error error => p.reject a error

/-- The rest of the closure after `await this._getSession(startTime)`. -/
def checkSession
    (options : SessionPoolOptions) (p : Pool σ) (a : Acquire) :
    Option σ → Pool σ
  | none => p.reject a .typeError
  | some s =>
      if p.isValidSession s then
        { p with
          current := none
          resolved := p.resolved ++ [(a, s)] }
      else
        attempt options
          { p with borrowed := p.borrowed.erase s, current := none } a

/-- The rest of `_acquire` after the queue's promise, and the callback. -/
def finishAcquire
    (p : Pool σ) (a : Acquire) (s : σ) : Pool σ :=
  { p with
    traces := setAdd p.traces s
    held := p.held ++ [(a.caller, s)]
    outcomes := p.outcomes ++ [(a.caller, .ok s)] }

/-- The loop of `_createSessions` after a response of `batchCreateSessions`. -/
def batchCreated
    (p : Pool σ) (i : Nat) (amount : Int) (sessions : List σ) : Pool σ :=
  let amount := amount - sessions.length
  let p :=
    { p with
      immediates := p.immediates ++ sessions
      created := p.created ++ sessions }
  if amount > 0 then
    { p with
      creating := p.creating.set i amount
      batchCreates := p.batchCreates ++ [amount] }
  else
    { p with creating := p.creating.eraseIdx i }

/-- The `catch` of `_createSessions`. -/
def batchCreateFailed
    (p : Pool σ) (i : Nat) (amount : Int) (error : ServiceError) : Pool σ :=
  wake
    { p with
      pending := p.pending - amount
      creating := p.creating.eraseIdx i }
    (.error (.createError error))

/-- The `setImmediate` callback of `_createSessions`. -/
def deliver
    (p : Pool σ) (s : σ) : Pool σ :=
  (release
    { p with
      borrowed := setAdd p.borrowed s
      pending := p.pending - 1 }
    s).2

/-- The loop of `_evictIdleSessions`; `size` is the size before the pass. -/
def evictLoop
    (options : SessionPoolOptions) (size : Int) :
    Nat → Int → List σ → Pool σ → Pool σ
  | 0, _, _, p => p
  | count + 1, evicted, idle, p =>
      if options.maxIdle < count + 1 ∧ size - evicted > options.min then
        match idle.getLast? with
        | none => evictLoop options size count (evicted + 1) idle p
        | some s =>
            evictLoop options size count (evicted + 1) idle.dropLast
              (destroy { p with sessions := spliceOut p.sessions s } none s)
      else
        p

/-- `_evictIdleSessions`. -/
def evictIdleSessions
    (options : SessionPoolOptions) (p : Pool σ) : Pool σ :=
  let idle := p.getIdleSessions options
  evictLoop options p.size idle.length 0 idle p

/-- `_ping` up to the keep-alive request, in the given round. -/
def ping
    (round : Nat) (p : Pool σ) (s : σ) : Pool σ :=
  let p := p.borrow s
  if p.isValidSession s then
    { p with pings := p.pings ++ [(round, s)] }
  else
    { p with borrowed := p.borrowed.erase s }

/-- `_pingIdleSessions` up to `await Promise.all(pings)`. -/
def pingIdleSessions
    (options : SessionPoolOptions) (p : Pool σ) : Pool σ :=
  let round := p.nextRound
  let p :=
    { p with
      rounds := p.rounds ++ [round]
      nextRound := round + 1 }
  (p.getIdleSessions options).foldl (ping round) p

/-- The `catch` of `_ping`. -/
def pingFailed
    (p : Pool σ) (round : Nat) (s : σ) : Pool σ :=
  destroy { p with borrowed := p.borrowed.erase s } (some round) s

/-- The rest of `_ping` after a successful keep-alive request. -/
def pingSucceeded
    (p : Pool σ) (round : Nat) (s : σ) : Pool σ :=
  match p.release s with
  | (.ok (), p) => p
  | (.error _, p) => p.pingFailed round s

/-- `close` up to the wait for the delete requests. -/
def close
    (p : Pool σ) : Pool σ :=
  let sessions := p.sessions ++ p.borrowed
  let p :=
    wake { p with isOpen := false, houseKeeping := false } (.error .closed)
  { sessions.foldl (fun p s => p.destroy none s) p with closing := true }

/-- The rest of `close` once `_requests` is idle. -/
def finishClose
    (p : Pool σ) : Pool σ :=
  { p with
    sessions := []
    borrowed := []
    closing := false }

end Pool

end SessionPool
end SpannerClient
