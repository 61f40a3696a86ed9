import Mathlib.Data.List.Basic
import SpannerClient.Machine.Run
import SpannerClient.ServiceError

/-!
# The multiplexed session

One session slot, one lock and one timer, shared by every caller.  The lock is
the promise of the creation that is under way: whoever needs a session while it
is set awaits it, whoever finds it empty sends a `CreateSession` request and
sets it.

A creation is recorded with its progress, and every call that awaits a promise
is recorded with the creation it awaits.  Each event below is the code that runs
between two suspension points; the calls that await the same promise resume one
by one, in any order.

`step` is one event, and `Steps` says what each of them does.
-/

namespace SpannerClient
namespace MultiplexedSession

/-- The progress of the task of `_createSession`. -/
inductive Creation (σ : Type) where
  /-- Its `CreateSession` request is in flight. -/
  | requested
  /-- The outcome is known to the task; `finally` has not run. -/
  | processed (result : Except ServiceError σ)
  /-- `finally` has run and the promise is settled. -/
  | settled (result : Except ServiceError σ)

/-- Who awaits a promise. -/
inductive Caller where
  | createSession
  | getSession (call : Nat)
  /-- The callback of the interval. -/
  | interval
deriving DecidableEq

/-- A call that awaits the promise of a creation. -/
structure Waiter where
  caller : Caller
  creation : Nat
deriving DecidableEq

/-- What the callback of `getSession` has been given. -/
structure Outcome (σ : Type) where
  call : Nat
  /-- The creation whose promise the call has awaited, if any. -/
  awaited : Option Nat
  result : Except ServiceError (Option σ)

end MultiplexedSession

open MultiplexedSession in
/-- `MultiplexedSession`. -/
structure MultiplexedSession (σ : Type) where
  multiplexedSession : Option σ := none
  sharedMuxSessionWaitPromise : Option Nat := none
  refreshHandle : Option Nat := none
  /-- The creations so far. -/
  creations : List (Creation σ) := []
  waiters : List Waiter := []
  /-- The intervals that have been set and not cleared. -/
  intervals : List Nat := []
  /-- How many intervals have been set. -/
  intervalsSet : Nat := 0
  outcomes : List (Outcome σ) := []

namespace MultiplexedSession

variable {σ : Type}

/-- `_createSession`, up to its `await`. -/
def createSession
    (s : MultiplexedSession σ) (caller : Caller) : MultiplexedSession σ :=
  match s.sharedMuxSessionWaitPromise with
  | some k =>
      { s with waiters := s.waiters ++ [⟨caller, k⟩] }
  | none =>
      { s with
        creations := s.creations ++ [.requested]
        sharedMuxSessionWaitPromise := some s.creations.length
        waiters := s.waiters ++ [⟨caller, s.creations.length⟩] }

/-- `_maintain`. -/
def maintain
    (s : MultiplexedSession σ) : MultiplexedSession σ :=
  { s with
    intervals :=
      (match s.refreshHandle with
        | some handle => s.intervals.erase handle
        | none => s.intervals) ++ [s.intervalsSet]
    refreshHandle := some s.intervalsSet
    intervalsSet := s.intervalsSet + 1 }

/-- The callback of `getSession` is called. -/
def answer
    (s : MultiplexedSession σ) (o : Outcome σ) : MultiplexedSession σ :=
  { s with outcomes := s.outcomes ++ [o] }

/-- `getSession` and `_getSession`, up to the `await`. -/
def getSession
    (s : MultiplexedSession σ) (call : Nat) : MultiplexedSession σ :=
  match s.multiplexedSession with
  | some session =>
      s.answer ⟨call, none, .ok (some session)⟩
  | none =>
      match s.sharedMuxSessionWaitPromise with
      | some k =>
          { s with waiters := s.waiters ++ [⟨.getSession call, k⟩] }
      | none => s.createSession (.getSession call)

/-- The outcome of the request reaches the task. -/
def processResponse
    (s : MultiplexedSession σ) (k : Nat)
    (result : Except ServiceError σ) : MultiplexedSession σ :=
  { s with
    creations := s.creations.set k (.processed result)
    multiplexedSession :=
      match result with
      | .ok session => some session
      | .error _ => s.multiplexedSession }

/-- The callback of `finally`. -/
def release
    (s : MultiplexedSession σ) (k : Nat)
    (result : Except ServiceError σ) : MultiplexedSession σ :=
  { s with
    creations := s.creations.set k (.settled result)
    sharedMuxSessionWaitPromise := none }

/-- What follows the `await` of the caller. -/
def proceed
    (s : MultiplexedSession σ) (w : Waiter) :
    Except ServiceError σ → MultiplexedSession σ
  | .ok _ =>
      match w.caller with
      | .createSession => s.maintain
      | .getSession call =>
          s.answer ⟨call, some w.creation, .ok s.multiplexedSession⟩
      | .interval => s
  | .error error =>
      match w.caller with
      | .createSession => s
      | .getSession call =>
          s.answer ⟨call, some w.creation, .error error⟩
      | .interval => s

/-- What can happen next. -/
inductive Event (σ : Type) where
  | createSession
  | getSession (call : Nat)
  /-- An interval fires. -/
  | interval (handle : Nat)
  /-- The outcome of the request of a creation. -/
  | response (creation : Nat) (result : Except ServiceError σ)
  /-- `finally` of a creation. -/
  | release (creation : Nat)
  /-- The waiter at a position goes on, its promise being settled. -/
  | resume (position : Nat)

/-- One event. -/
def step
    (s : MultiplexedSession σ) :
    Event σ → Option (MultiplexedSession σ)
  | .createSession => some (s.createSession .createSession)
  | .getSession call => some (s.getSession call)
  | .interval handle =>
      if handle ∈ s.intervals then
        some (s.createSession .interval)
      else
        none
  | .response k result =>
      match s.creations[k]? with
      | some .requested => some (s.processResponse k result)
      | _ => none
  | .release k =>
      match s.creations[k]? with
      | some (.processed result) => some (s.release k result)
      | _ => none
  | .resume position =>
      match s.waiters[position]? with
      | some w =>
          match s.creations[w.creation]? with
          | some (.settled result) =>
              some (proceed
                { s with waiters := s.waiters.eraseIdx position } w result)
          | _ => none
      | none => none

/-- The steps, event by event. -/
inductive Steps
    (s : MultiplexedSession σ) :
    Event σ → MultiplexedSession σ → Prop
  | createSession :
      Steps s .createSession (s.createSession .createSession)
  | getSession (call : Nat) :
      Steps s (.getSession call) (s.getSession call)
  | interval {handle : Nat}
      (hset : handle ∈ s.intervals) :
      Steps s (.interval handle) (s.createSession .interval)
  | response {k : Nat} (result : Except ServiceError σ)
      (hk : s.creations[k]? = some .requested) :
      Steps s (.response k result) (s.processResponse k result)
  | release {k : Nat} {result : Except ServiceError σ}
      (hk : s.creations[k]? = some (.processed result)) :
      Steps s (.release k) (s.release k result)
  | resume {position : Nat} {w : Waiter} {result : Except ServiceError σ}
      (hw : s.waiters[position]? = some w)
      (hk : s.creations[w.creation]? = some (.settled result)) :
      Steps s (.resume position)
        (proceed
          { s with waiters := s.waiters.eraseIdx position } w result)

theorem steps_of_step
    {s t : MultiplexedSession σ} {e : Event σ}
    (hstep : step s e = some t) :
    Steps s e t := by
  cases e with
  | createSession =>
      simp only [step, Option.some.injEq] at hstep
      subst hstep
      exact .createSession
  | getSession call =>
      simp only [step, Option.some.injEq] at hstep
      subst hstep
      exact .getSession call
  | interval handle =>
      simp only [step] at hstep
      split at hstep
      · simp only [Option.some.injEq] at hstep
        subst hstep
        exact .interval ‹_›
      · cases hstep
  | response k result =>
      simp only [step] at hstep
      split at hstep
      · simp only [Option.some.injEq] at hstep
        subst hstep
        exact .response result ‹_›
      · cases hstep
  | release k =>
      simp only [step] at hstep
      split at hstep
      · simp only [Option.some.injEq] at hstep
        subst hstep
        exact .release ‹_›
      · cases hstep
  | resume position =>
      simp only [step] at hstep
      split at hstep
      · split at hstep
        · simp only [Option.some.injEq] at hstep
          subst hstep
          exact .resume ‹_› ‹_›
        · cases hstep
      · cases hstep

end MultiplexedSession
end SpannerClient
