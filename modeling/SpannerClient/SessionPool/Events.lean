import SpannerClient.Machine.Run
import SpannerClient.SessionPool.Basic

/-!
# Events of the session pool

What can happen to a pool: calls by its users, responses to its requests, its
timers, and the continuations of its suspended methods.  An event that cannot
happen in a state is refused.

The interleavings are those of the JavaScript scheduler, with two liberties that
only add runs: a continuation may be delayed arbitrarily with respect to calls
and responses, and the clock may advance at any time.  What is kept is that
promise continuations run before timers (`settled`), that the `_acquires` queue
runs one closure at a time, and that `batchCreateSessions` returns between one
and the requested number of new sessions, or rejects.

`startAcquire` is one of the continuations that may be delayed.  p-queue starts
a lone closure inside `add`, so a run that puts another event between `acquire`
and `startAcquire` of an empty, idle queue is an added one: every run theorem
covers it, and no counterexample rests on it.  A closure that waits behind
another one is started when that one has ended.

The callers are assumed to release only what they hold; a session that is not
borrowed may be passed to `release` by anyone.  `release` itself does not check
this, it accepts any borrowed session.

`Steps` lists the transitions of `step` with what each one requires.  `runPool`
starts from the pool `opened` makes and feeds it events.
-/

namespace SpannerClient
namespace SessionPool

/-- Events of a pool. -/
inductive Event (σ : Type) where
  /-- A caller calls `getSession`. -/
  | acquire (caller : Nat)
  /-- The `_acquires` queue starts its next closure. -/
  | startAcquire
  /-- The `acquireTimeout` timer of the suspended acquire fires. -/
  | acquireTimeout
  /-- The continuation of `await Promise.race(promises)`. -/
  | resumeWaiter
  /-- The continuation of `await this._getSession(startTime)`. -/
  | checkSession
  /-- The continuation of `await this._acquires.add(getSession)`. -/
  | finishAcquire
  /-- A caller calls `release`. -/
  | release (caller : Nat) (session : σ)
  /-- An operation records an error on the session it holds. -/
  | setLastError (caller : Nat) (session : σ) (error : ServiceError)
  /-- A `batchCreateSessions` request returns sessions. -/
  | batchCreated (i : Nat) (sessions : List σ)
  /-- A `batchCreateSessions` request fails. -/
  | batchCreateFailed (i : Nat) (error : ServiceError)
  /-- The next `setImmediate` callback of `_createSessions`. -/
  | deliver
  /-- `_fill` is called. -/
  | fill
  /-- The eviction timer fires. -/
  | evictIdleSessions
  /-- The keep-alive timer fires. -/
  | pingIdleSessions
  /-- A keep-alive request of a round succeeds. -/
  | pingSucceeded (round : Nat) (session : σ)
  /-- A keep-alive request of a round fails. -/
  | pingFailed (round : Nat) (session : σ)
  /-- All pings of a round are finished. -/
  | pingsDone (round : Nat)
  /-- A delete request ends. -/
  | deleted (round : Option Nat) (session : σ)
  /-- Time passes. -/
  | tick (milliseconds : Nat)
  /-- `close` is called. -/
  | close
  /-- `_requests` becomes idle after `close`. -/
  | finishClose
deriving DecidableEq

variable {σ : Type} [DecidableEq σ]

namespace Pool

/-- No promise continuation is waiting to run. -/
def settled
    (p : Pool σ) : Bool :=
  p.resolved.isEmpty &&
    match p.current with
    | none => true
    | some (_, .waiting) => true
    | some (_, .woken _) => false
    | some (_, .returned _) => false

/-- The sessions are new and as many as `batchCreateSessions` may return. -/
def freshBatch
    (p : Pool σ) (amount : Int) (sessions : List σ) : Bool :=
  decide (1 ≤ sessions.length ∧ (sessions.length : Int) ≤ amount) &&
    decide sessions.Nodup &&
    sessions.all fun s => decide (s ∉ p.created)

/-- Every ping of the round has finished, its delete request included. -/
def roundDone
    (p : Pool σ) (round : Nat) : Bool :=
  decide (round ∈ p.rounds) &&
    p.pings.all (fun ping => decide (ping.1 ≠ round)) &&
    p.requests.all fun request => decide (request.1 ≠ some round)

end Pool

/-- One event. -/
def step
    (options : SessionPoolOptions) (p : Pool σ) : Event σ → Option (Pool σ)
  | .acquire caller =>
      if p.isOpen then
        some { p with queued := p.queued ++ [⟨caller, p.now⟩] }
      else
        some
          { p with outcomes := p.outcomes ++ [(caller, .error .closed)] }
  | .startAcquire =>
      match p.current, p.queued with
      | none, a :: rest =>
          some (Pool.attempt options { p with queued := rest } a)
      | _, _ => none
  | .acquireTimeout =>
      match p.current with
      | some (a, .waiting) =>
          if p.timedOut options a then
            some (p.wake (.error .timeout))
          else
            none
      | _ => none
  | .resumeWaiter =>
      match p.current with
      | some (a, .woken result) => some (p.resumeWaiter a result)
      | _ => none
  | .checkSession =>
      match p.current with
      | some (a, .returned s) => some (p.checkSession options a s)
      | _ => none
  | .finishAcquire =>
      match p.resolved with
      | [] => none
      | (a, s) :: rest =>
          some (Pool.finishAcquire { p with resolved := rest } a s)
  | .release caller s =>
      if (caller, s) ∈ p.held ∨ s ∉ p.borrowed then
        match p.release s with
        | (.ok (), p) => some { p with held := p.held.erase (caller, s) }
        | (.error _, p) => some p
      else
        none
  | .setLastError caller s error =>
      if (caller, s) ∈ p.held then
        some { p with lastError := Function.update p.lastError s (some error) }
      else
        none
  | .batchCreated i sessions =>
      match p.creating[i]? with
      | none => none
      | some amount =>
          if p.freshBatch amount sessions then
            some (p.batchCreated i amount sessions)
          else
            none
  | .batchCreateFailed i error =>
      match p.creating[i]? with
      | none => none
      | some amount => some (p.batchCreateFailed i amount error)
  | .deliver =>
      match p.immediates with
      | [] => none
      | s :: rest => some (Pool.deliver { p with immediates := rest } s)
  | .fill =>
      if p.isOpen then some (p.fill options) else none
  | .evictIdleSessions =>
      if p.houseKeeping && p.settled then
        some (p.evictIdleSessions options)
      else
        none
  | .pingIdleSessions =>
      if p.houseKeeping && p.settled then
        some (p.pingIdleSessions options)
      else
        none
  | .pingSucceeded round s =>
      if (round, s) ∈ p.pings then
        some
          (Pool.pingSucceeded
            { p with pings := p.pings.erase (round, s) } round s)
      else
        none
  | .pingFailed round s =>
      if (round, s) ∈ p.pings then
        some
          (Pool.pingFailed
            { p with pings := p.pings.erase (round, s) } round s)
      else
        none
  | .pingsDone round =>
      if p.roundDone round then
        some (Pool.fill options { p with rounds := p.rounds.erase round })
      else
        none
  | .deleted round s =>
      if (round, s) ∈ p.requests then
        some { p with requests := p.requests.erase (round, s) }
      else
        none
  | .tick milliseconds => some { p with now := p.now + milliseconds }
  | .close => if p.isOpen then some p.close else none
  | .finishClose =>
      if p.closing && p.requests.isEmpty then some p.finishClose else none

/-- What an event does, with the conditions under which it can happen. -/
inductive Steps
    (options : SessionPoolOptions) :
    Pool σ → Event σ → Pool σ → Prop where
  | acquire
      {p : Pool σ} {caller : Nat}
      (hopen : p.isOpen = true) :
      Steps options p (.acquire caller)
        { p with queued := p.queued ++ [⟨caller, p.now⟩] }
  | acquireClosed
      {p : Pool σ} {caller : Nat}
      (hclosed : p.isOpen = false) :
      Steps options p (.acquire caller)
        { p with outcomes := p.outcomes ++ [(caller, .error .closed)] }
  | startAcquire
      {p : Pool σ} {a : Acquire} {rest : List Acquire}
      (hcur : p.current = none)
      (hqueued : p.queued = a :: rest) :
      Steps options p .startAcquire
        (Pool.attempt options { p with queued := rest } a)
  | acquireTimeout
      {p : Pool σ} {a : Acquire}
      (hcur : p.current = some (a, .waiting))
      (htimeout : p.timedOut options a = true) :
      Steps options p .acquireTimeout (p.wake (.error .timeout))
  | resumeWaiter
      {p : Pool σ} {a : Acquire}
      {result : Except (AcquireError σ) Unit}
      (hcur : p.current = some (a, .woken result)) :
      Steps options p .resumeWaiter (p.resumeWaiter a result)
  | checkSession
      {p : Pool σ} {a : Acquire} {s : Option σ}
      (hcur : p.current = some (a, .returned s)) :
      Steps options p .checkSession (p.checkSession options a s)
  | finishAcquire
      {p : Pool σ} {a : Acquire} {s : σ} {rest : List (Acquire × σ)}
      (hresolved : p.resolved = (a, s) :: rest) :
      Steps options p .finishAcquire
        (Pool.finishAcquire { p with resolved := rest } a s)
  | release
      {p : Pool σ} {caller : Nat} {s : σ}
      (hheld : (caller, s) ∈ p.held)
      (hs : s ∈ p.borrowed) :
      Steps options p (.release caller s)
        { (p.release s).2 with
          held := (p.release s).2.held.erase (caller, s) }
  | releaseUnknown
      {p : Pool σ} {caller : Nat} {s : σ}
      (hs : s ∉ p.borrowed) :
      Steps options p (.release caller s) p
  | setLastError
      {p : Pool σ} {caller : Nat} {s : σ} {error : ServiceError}
      (hheld : (caller, s) ∈ p.held) :
      Steps options p (.setLastError caller s error)
        { p with
          lastError := Function.update p.lastError s (some error) }
  | batchCreated
      {p : Pool σ} {i : Nat} {amount : Int} {sessions : List σ}
      (hi : p.creating[i]? = some amount)
      (hfresh : p.freshBatch amount sessions = true) :
      Steps options p (.batchCreated i sessions)
        (p.batchCreated i amount sessions)
  | batchCreateFailed
      {p : Pool σ} {i : Nat} {amount : Int} {error : ServiceError}
      (hi : p.creating[i]? = some amount) :
      Steps options p (.batchCreateFailed i error)
        (p.batchCreateFailed i amount error)
  | deliver
      {p : Pool σ} {s : σ} {rest : List σ}
      (himmediates : p.immediates = s :: rest) :
      Steps options p .deliver
        (Pool.deliver { p with immediates := rest } s)
  | fill
      {p : Pool σ}
      (hopen : p.isOpen = true) :
      Steps options p .fill (p.fill options)
  | evictIdleSessions
      {p : Pool σ}
      (hhouse : p.houseKeeping = true)
      (hsettled : p.settled = true) :
      Steps options p .evictIdleSessions (p.evictIdleSessions options)
  | pingIdleSessions
      {p : Pool σ}
      (hhouse : p.houseKeeping = true)
      (hsettled : p.settled = true) :
      Steps options p .pingIdleSessions (p.pingIdleSessions options)
  | pingSucceeded
      {p : Pool σ} {round : Nat} {s : σ}
      (hping : (round, s) ∈ p.pings) :
      Steps options p (.pingSucceeded round s)
        (Pool.pingSucceeded
          { p with pings := p.pings.erase (round, s) } round s)
  | pingFailed
      {p : Pool σ} {round : Nat} {s : σ}
      (hping : (round, s) ∈ p.pings) :
      Steps options p (.pingFailed round s)
        (Pool.pingFailed
          { p with pings := p.pings.erase (round, s) } round s)
  | pingsDone
      {p : Pool σ} {round : Nat}
      (hdone : p.roundDone round = true) :
      Steps options p (.pingsDone round)
        (Pool.fill options { p with rounds := p.rounds.erase round })
  | deleted
      {p : Pool σ} {round : Option Nat} {s : σ}
      (hrequest : (round, s) ∈ p.requests) :
      Steps options p (.deleted round s)
        { p with requests := p.requests.erase (round, s) }
  | tick
      {p : Pool σ} {milliseconds : Nat} :
      Steps options p (.tick milliseconds)
        { p with now := p.now + milliseconds }
  | close
      {p : Pool σ}
      (hopen : p.isOpen = true) :
      Steps options p .close p.close
  | finishClose
      {p : Pool σ}
      (hclosing : p.closing = true)
      (hrequests : p.requests = []) :
      Steps options p .finishClose p.finishClose

theorem Pool.release_of_mem
    {p : Pool σ} {s : σ}
    (hs : s ∈ p.borrowed) :
    (p.release s).1 = .ok () := by
  rw [Pool.release]
  rw [if_neg (by simpa using hs)]
  dsimp only
  split <;> rfl

/-- Releasing an unknown session throws and changes nothing. -/
theorem Pool.release_of_not_mem
    {p : Pool σ} {s : σ}
    (hs : s ∉ p.borrowed) :
    p.release s = (.error ⟨s⟩, p) := by
  rw [Pool.release]
  rw [if_pos hs]

/-- Every performed event is one of the cases above. -/
theorem steps_of_step
    {options : SessionPoolOptions} {p t : Pool σ} {e : Event σ}
    (hstep : step options p e = some t) :
    Steps options p e t := by
  cases e with
  | acquire caller =>
      simp only [step] at hstep
      split at hstep
      · rename_i hopen
        obtain rfl := Option.some.inj hstep
        exact .acquire hopen
      · rename_i hopen
        obtain rfl := Option.some.inj hstep
        exact .acquireClosed (by simpa using hopen)
  | startAcquire =>
      simp only [step] at hstep
      split at hstep
      · rename_i hcur hqueued
        obtain rfl := Option.some.inj hstep
        exact .startAcquire hcur hqueued
      · cases hstep
  | acquireTimeout =>
      simp only [step] at hstep
      split at hstep
      · rename_i hcur
        split at hstep
        · rename_i htimeout
          obtain rfl := Option.some.inj hstep
          exact .acquireTimeout hcur htimeout
        · cases hstep
      · cases hstep
  | resumeWaiter =>
      simp only [step] at hstep
      split at hstep
      · rename_i hcur
        obtain rfl := Option.some.inj hstep
        exact .resumeWaiter hcur
      · cases hstep
  | checkSession =>
      simp only [step] at hstep
      split at hstep
      · rename_i hcur
        obtain rfl := Option.some.inj hstep
        exact .checkSession hcur
      · cases hstep
  | finishAcquire =>
      simp only [step] at hstep
      split at hstep
      · cases hstep
      · rename_i hresolved
        obtain rfl := Option.some.inj hstep
        exact .finishAcquire hresolved
  | release caller s =>
      simp only [step] at hstep
      split at hstep
      · rename_i hguard
        by_cases hs : s ∈ p.borrowed
        · have hheld : (caller, s) ∈ p.held := by
            simpa [hs] using hguard
          have hok := Pool.release_of_mem hs
          split at hstep
          · rename_i heq
            obtain rfl := Option.some.inj hstep
            have hsteps :
                Steps options p (.release caller s) _ :=
              .release hheld hs
            rw [heq] at hsteps
            exact hsteps
          · rename_i heq
            rw [heq] at hok
            cases hok
        · rw [Pool.release_of_not_mem hs] at hstep
          obtain rfl := Option.some.inj hstep
          exact .releaseUnknown hs
      · cases hstep
  | setLastError caller s error =>
      simp only [step] at hstep
      split at hstep
      · rename_i hheld
        obtain rfl := Option.some.inj hstep
        exact .setLastError hheld
      · cases hstep
  | batchCreated i sessions =>
      simp only [step] at hstep
      split at hstep
      · cases hstep
      · rename_i hi
        split at hstep
        · rename_i hfresh
          obtain rfl := Option.some.inj hstep
          exact .batchCreated hi hfresh
        · cases hstep
  | batchCreateFailed i error =>
      simp only [step] at hstep
      split at hstep
      · cases hstep
      · rename_i hi
        obtain rfl := Option.some.inj hstep
        exact .batchCreateFailed hi
  | deliver =>
      simp only [step] at hstep
      split at hstep
      · cases hstep
      · rename_i himmediates
        obtain rfl := Option.some.inj hstep
        exact .deliver himmediates
  | fill =>
      simp only [step] at hstep
      split at hstep
      · rename_i hopen
        obtain rfl := Option.some.inj hstep
        exact .fill hopen
      · cases hstep
  | evictIdleSessions =>
      simp only [step] at hstep
      split at hstep
      · rename_i hguard
        obtain ⟨hhouse, hsettled⟩ := Bool.and_eq_true_iff.mp hguard
        obtain rfl := Option.some.inj hstep
        exact .evictIdleSessions hhouse hsettled
      · cases hstep
  | pingIdleSessions =>
      simp only [step] at hstep
      split at hstep
      · rename_i hguard
        obtain ⟨hhouse, hsettled⟩ := Bool.and_eq_true_iff.mp hguard
        obtain rfl := Option.some.inj hstep
        exact .pingIdleSessions hhouse hsettled
      · cases hstep
  | pingSucceeded round s =>
      simp only [step] at hstep
      split at hstep
      · rename_i hping
        obtain rfl := Option.some.inj hstep
        exact .pingSucceeded hping
      · cases hstep
  | pingFailed round s =>
      simp only [step] at hstep
      split at hstep
      · rename_i hping
        obtain rfl := Option.some.inj hstep
        exact .pingFailed hping
      · cases hstep
  | pingsDone round =>
      simp only [step] at hstep
      split at hstep
      · rename_i hdone
        obtain rfl := Option.some.inj hstep
        exact .pingsDone hdone
      · cases hstep
  | deleted round s =>
      simp only [step] at hstep
      split at hstep
      · rename_i hrequest
        obtain rfl := Option.some.inj hstep
        exact .deleted hrequest
      · cases hstep
  | tick milliseconds =>
      obtain rfl := Option.some.inj hstep
      exact .tick
  | close =>
      simp only [step] at hstep
      split at hstep
      · rename_i hopen
        obtain rfl := Option.some.inj hstep
        exact .close hopen
      · cases hstep
  | finishClose =>
      simp only [step] at hstep
      split at hstep
      · rename_i hguard
        obtain ⟨hclosing, hrequests⟩ := Bool.and_eq_true_iff.mp hguard
        obtain rfl := Option.some.inj hstep
        exact .finishClose hclosing (List.isEmpty_iff.mp hrequests)
      · cases hstep

/-- A pool as its constructor leaves it. -/
def Pool.new (σ : Type) : Pool σ where
  isOpen := false
  houseKeeping := false
  sessions := []
  borrowed := []
  pending := 0
  waiters := 0
  traces := []
  lastUsed := fun _ => 0
  lastError := fun _ => none
  now := 0
  queued := []
  current := none
  resolved := []
  creating := []
  immediates := []
  rounds := []
  nextRound := 0
  pings := []
  requests := []
  closing := false
  held := []
  outcomes := []
  batchCreates := []
  created := []
  deletes := []

/-- `open`: housekeeping starts and the pool is filled. -/
def Pool.opened (σ : Type) (options : SessionPoolOptions) : Pool σ :=
  Pool.fill options
    { Pool.new σ with
      isOpen := true
      houseKeeping := true }

/-- The pool after the events, from its opening. -/
def runPool
    (options : SessionPoolOptions) (es : List (Event σ)) :
    Option (Pool σ) :=
  Machine.run (step options.construct)
    (Pool.opened σ options.construct) es

end SessionPool
end SpannerClient
