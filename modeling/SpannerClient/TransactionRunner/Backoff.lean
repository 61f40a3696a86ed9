import Mathlib.Data.Rat.Cast.Order
import Mathlib.Tactic.Linarith
import Mathlib.Tactic.Positivity
import SpannerClient.TransactionRunner.ErrorContract

/-!
# How often a runner tries

Between two attempts a runner sleeps, and a new attempt is only made while the
timeout has not passed.  The events come with their times here: the clock does not
go back, and the timer of a delay does not fire before the delay has passed.

As long as the server does not say how long to wait, the delays are those of the
exponential backoff, which add up: the number of the attempts is bounded by the
timeout, whatever the attempts meet with and however short they are.

The invariant is that the time waited so far is at least the sum of the delays
(`Waited`), which start at two seconds and double up to 32.  The main result is
`attempts_bounded`.
-/

namespace SpannerClient
namespace TransactionRunner

open Machine

/-- A runner, and the time of the last event. -/
structure TimedRunner where
  runner : Runner
  clock : Int

structure TimedEvent where
  now : Int
  event : Event

/-- The timer of the delay has its time. -/
def onTime
    (r : TimedRunner) (e : TimedEvent) : Bool :=
  match e.event, r.runner.phase with
  | .woken now, .sleeping delay =>
      decide (now = e.now) && decide ((r.clock : Rat) + delay ≤ e.now)
  | _, _ => true

/-- One event, not before the last one. -/
def timedStep
    (r : TimedRunner) (e : TimedEvent) : Option TimedRunner :=
  if r.clock ≤ e.now ∧ onTime r e = true then
    (step r.runner e.event).map fun q => ⟨q, e.now⟩
  else
    none

/-- The failure does not say how long to wait. -/
def Event.Silent : Event → Prop
  | .requestFailed f => f.retryInfo = .absent
  | .streamFailed f => f.retryInfo = .absent
  | .threw f => f.retryInfo = .absent
  | _ => True

/-- The least sum of the delays before the attempt after `n` failures, in
milliseconds. -/
def backoff : Nat → Nat
  | 0 => 0
  | n + 1 => backoff n + 2 ^ min (n + 1) 5 * 1000

/-- From the fifth failure on the runner waits 32 seconds. -/
theorem backoff_ge
    (n : Nat) :
    32000 * n ≤ backoff n + 98000 := by
  induction n with
  | zero =>
      simp [backoff]
  | succ n ih =>
      rw [backoff]
      by_cases hn : 4 ≤ n
      · have hmin : min (n + 1) 5 = 5 := by omega
        rw [hmin]
        omega
      · rcases n with _ | _ | _ | _ | n
        · decide
        · decide
        · decide
        · decide
        · omega

/-- An error that is retried never says that the session is gone, so that the delay
is never left out. -/
theorem isSessionNotFoundError_of_isRetryable
    {error : ServiceError}
    (h : isRetryable error = true) :
    isSessionNotFoundError (some error) = false := by
  obtain ⟨code, message⟩ := error
  by_cases hcode : code = some .NOT_FOUND
  · subst hcode
    simp [isRetryable, isRetryableInternalError] at h
  · simp [isSessionNotFoundError, hcode]

/-- What an attempt that has failed leads to. -/
theorem attemptFailed_cases
    (r : Runner) (f : Failure)
    (hsilent : f.retryInfo = .absent) :
    (r.attemptFailed f =
        { r with
          lastError := some f
          phase := .rejected (.error f) }) ∨
      ∃ random : Nat,
        r.attemptFailed f =
          { r with
            lastError := some f
            attempts := r.attempts + 1
            phase :=
              .sleeping
                ((2 ^ min (r.attempts + 1) 5 * 1000 + random : Nat) : Rat) } := by
  unfold Runner.attemptFailed
  dsimp only
  split
  · rename_i hretry
    right
    have hfound := isSessionNotFoundError_of_isRetryable hretry
    refine ⟨r.random (r.attempts + 1), ?_⟩
    simp [getNextDelay, hsilent, hfound]
  · exact Or.inl rfl

/-- What a runner does that has slept. -/
theorem loop_cases
    (r : Runner) (now : Int) :
    (r.attempts = 0 ∧ ∃ t, r.loop now = r.runAgainst t) ∨
      (∃ t timeout, r.options.timeout.join = some timeout ∧
        now - r.start < timeout ∧
        r.loop now = { r with phase := .beginning t }) ∨
      ∃ rejection, r.loop now = { r with phase := .rejected rejection } := by
  unfold Runner.loop
  split
  · rename_i hloop
    unfold Runner.getTransaction
    dsimp only
    split
    · rename_i hpos
      have hwithin : r.withinTimeout now = true :=
        hloop.resolve_left (Nat.ne_of_gt hpos)
      unfold Runner.withinTimeout at hwithin
      cases htimeout : r.options.timeout.join with
      | none =>
          rw [htimeout] at hwithin
          cases hwithin
      | some timeout =>
          rw [htimeout] at hwithin
          exact Or.inr (Or.inl ⟨_, timeout, rfl, by simpa using hwithin, rfl⟩)
    · rename_i hzero
      exact Or.inl ⟨Nat.eq_zero_of_not_pos hzero, _, rfl⟩
  · exact Or.inr (Or.inr ⟨_, rfl⟩)

namespace TimedRunner

/-- The runner has waited for the attempts it has made, or is going to. -/
def Waited
    (r : TimedRunner) : Prop :=
  match r.runner.phase with
  | .sleeping delay =>
      r.runner.used.length = r.runner.attempts ∧
        (backoff r.runner.attempts : Rat) ≤
          ((r.clock - r.runner.start : Int) : Rat) + delay
  | .beginning _ =>
      r.runner.used.length = r.runner.attempts ∧
        (backoff r.runner.attempts : Int) ≤ r.clock - r.runner.start ∧
        ∃ timeout, r.runner.options.timeout.join = some timeout ∧
          (backoff r.runner.attempts : Int) < timeout
  | .running _ =>
      r.runner.used.length = r.runner.attempts + 1 ∧
        (backoff r.runner.attempts : Int) ≤ r.clock - r.runner.start
  | _ => True

/-- The attempts that have been made were in time. -/
def Timely
    (r : TimedRunner) : Prop :=
  1 < r.runner.used.length →
    ∃ timeout, r.runner.options.timeout.join = some timeout ∧
      (backoff (r.runner.used.length - 1) : Int) < timeout

variable {r q : TimedRunner}

/-- The steps of a runner, with the times at which they can be taken. -/
theorem steps_of_timedStep
    {e : TimedEvent}
    (hstep : timedStep r e = some q) :
    r.clock ≤ e.now ∧ onTime r e = true ∧ q.clock = e.now ∧
      Steps r.runner e.event q.runner := by
  unfold timedStep at hstep
  split at hstep
  · rename_i h
    obtain ⟨s, hs, rfl⟩ := Option.map_eq_some_iff.mp hstep
    exact ⟨h.1, h.2, rfl, steps_of_step hs⟩
  · cases hstep

/-- A failed attempt is followed by its delay, or by none at all. -/
theorem waited_of_attemptFailed
    {t : ReadWriteTransaction} {f : Failure}
    (hwaited : r.Waited)
    (hphase : r.runner.phase = .running t)
    (hclock : r.clock ≤ q.clock)
    (hsilent : f.retryInfo = .absent)
    (hq : q.runner = r.runner.attemptFailed f) :
    q.Waited := by
  unfold Waited at hwaited
  rw [hphase] at hwaited
  obtain ⟨hcount, helapsed⟩ := hwaited
  unfold Waited
  rw [hq]
  rcases attemptFailed_cases r.runner f hsilent with heq | ⟨random, heq⟩
  · rw [heq]
    trivial
  · rw [heq]
    refine ⟨hcount, ?_⟩
    have hmono : (backoff r.runner.attempts : Int) ≤ q.clock - r.runner.start := by
      omega
    have hcast :
        (backoff r.runner.attempts : Rat) ≤
          ((q.clock - r.runner.start : Int) : Rat) := by
      exact_mod_cast hmono
    have hrandom : (0 : Rat) ≤ random := by positivity
    simp only [backoff]
    push_cast at hcast ⊢
    linarith

/-- Time passes. -/
theorem Waited.later
    (hwaited : r.Waited)
    (hclock : r.clock ≤ q.clock)
    (hq : q.runner = r.runner) :
    q.Waited := by
  unfold Waited at hwaited ⊢
  rw [hq]
  cases hphase : r.runner.phase with
  | beginning t =>
      rw [hphase] at hwaited
      obtain ⟨hcount, helapsed, htimely⟩ := hwaited
      exact ⟨hcount, by omega, htimely⟩
  | running t =>
      rw [hphase] at hwaited
      obtain ⟨hcount, helapsed⟩ := hwaited
      exact ⟨hcount, by omega⟩
  | sleeping delay =>
      rw [hphase] at hwaited
      obtain ⟨hcount, helapsed⟩ := hwaited
      refine ⟨hcount, helapsed.trans ?_⟩
      have hcast : (r.clock : Rat) ≤ q.clock := by exact_mod_cast hclock
      push_cast
      linarith
  | resolved => trivial
  | rejected rejection => trivial

theorem Timely.same
    (htimely : r.Timely)
    (hused : q.runner.used = r.runner.used)
    (hoptions : q.runner.options = r.runner.options) :
    q.Timely := by
  unfold Timely
  rw [hused, hoptions]
  exact htimely

/-- The delay has passed: the runner has waited as long as the delays add up to,
and goes on only before the timeout. -/
theorem waited_of_loop
    {delay : Rat} {now : Int}
    (hwaited : r.Waited) (htimely : r.Timely)
    (hphase : r.runner.phase = .sleeping delay)
    (hdelay : (r.clock : Rat) + delay ≤ now)
    (hclock : q.clock = now)
    (hq : q.runner = r.runner.loop now) :
    q.Waited ∧ q.Timely := by
  unfold Waited at hwaited
  rw [hphase] at hwaited
  obtain ⟨hcount, helapsed⟩ := hwaited
  have hrat :
      (backoff r.runner.attempts : Rat) ≤
        ((now - r.runner.start : Int) : Rat) := by
    push_cast at helapsed ⊢
    linarith
  have hnow : (backoff r.runner.attempts : Int) ≤ now - r.runner.start := by
    exact_mod_cast hrat
  rcases loop_cases r.runner now with
    ⟨hzero, t, hloop⟩ | ⟨t, timeout, htimeout, hlt, hloop⟩ | ⟨rejection, hloop⟩
  · rw [hloop] at hq
    refine ⟨?_, ?_⟩
    · rw [Waited, hq, hclock]
      exact ⟨by simp [Runner.runAgainst, hcount], hnow⟩
    · intro hused
      rw [hq] at hused
      simp [Runner.runAgainst, hcount, hzero] at hused
  · rw [hloop] at hq
    refine ⟨?_, htimely.same (by rw [hq]) (by rw [hq])⟩
    rw [Waited, hq, hclock]
    exact ⟨hcount, hnow, timeout, htimeout, lt_of_le_of_lt hnow hlt⟩
  · rw [hloop] at hq
    refine ⟨?_, htimely.same (by rw [hq]) (by rw [hq])⟩
    rw [Waited, hq]
    trivial

/-- An error of the transaction. -/
theorem waited_of_intercept
    {t : ReadWriteTransaction} {f : Failure}
    (hwaited : r.Waited) (htimely : r.Timely)
    (hphase : r.runner.phase = .running t)
    (hclock : r.clock ≤ q.clock)
    (hsilent : f.retryInfo = .absent)
    (hq : q.runner = r.runner.intercept f) :
    q.Waited ∧ q.Timely := by
  unfold Runner.intercept at hq
  split at hq
  · split at hq
    · obtain ⟨hused, hoptions, -⟩ := attemptFailed_kept r.runner f
      exact
        ⟨waited_of_attemptFailed hwaited hphase hclock hsilent hq,
          htimely.same (hq ▸ hused) (hq ▸ hoptions)⟩
    · exact
        ⟨hwaited.later hclock hq, htimely.same (by rw [hq]) (by rw [hq])⟩
  · exact
      ⟨hwaited.later hclock hq, htimely.same (by rw [hq]) (by rw [hq])⟩

/-- No step changes the options. -/
theorem options_of_steps
    {s u : Runner} {e : Event}
    (hsteps : Steps s e u) :
    u.options = s.options := by
  have hintercept (f : Failure) : (s.intercept f).options = s.options := by
    unfold Runner.intercept
    split
    · split
      · exact (attemptFailed_kept s f).2.1
      · rfl
    · rfl
  cases hsteps with
  | requestFailed f => exact hintercept f
  | streamFailed f => exact hintercept f
  | threw f => exact (attemptFailed_kept s f).2.1
  | woken now =>
      rcases loop_cases s now with
        ⟨-, t, hloop⟩ | ⟨t, timeout, -, -, hloop⟩ | ⟨rejection, hloop⟩
      · rw [hloop]
        rfl
      · rw [hloop]
      · rw [hloop]
  | _ => rfl

/-- One event of a runner whose failures are silent. -/
theorem step_waited
    {e : TimedEvent}
    (hwaited : r.Waited) (htimely : r.Timely)
    (hsilent : e.event.Silent)
    (hstep : timedStep r e = some q) :
    q.Waited ∧ q.Timely := by
  obtain ⟨hclock, hontime, hnow, hsteps⟩ := steps_of_timedStep hstep
  obtain ⟨now, event⟩ := e
  dsimp only at hclock hnow hsteps hsilent
  rw [← hnow] at hclock
  generalize hq : q.runner = s at hsteps
  cases hsteps with
  | requestFailed f hphase =>
      exact waited_of_intercept hwaited htimely hphase hclock hsilent hq
  | streamFailed f hphase =>
      exact waited_of_intercept hwaited htimely hphase hclock hsilent hq
  | transactionEnded hphase hmode =>
      refine ⟨?_, htimely.same (by rw [hq]) (by rw [hq])⟩
      rw [Waited, hq]
      trivial
  | transactionEndedUnheard hphase hmode =>
      exact
        ⟨hwaited.later hclock hq, htimely.same (by rw [hq]) (by rw [hq])⟩
  | returned hphase hmode =>
      refine ⟨?_, htimely.same (by rw [hq]) (by rw [hq])⟩
      rw [Waited, hq]
      trivial
  | returnedUnheard hphase hmode =>
      exact
        ⟨hwaited.later hclock hq, htimely.same (by rw [hq]) (by rw [hq])⟩
  | threw f hphase =>
      obtain ⟨hused, hoptions, -⟩ := attemptFailed_kept r.runner f
      exact
        ⟨waited_of_attemptFailed hwaited hphase hclock hsilent hq,
          htimely.same (hq ▸ hused) (hq ▸ hoptions)⟩
  | @begun t hphase =>
      unfold Waited at hwaited
      rw [hphase] at hwaited
      obtain ⟨hcount, helapsed, timeout, htimeout, hlt⟩ := hwaited
      have hused : q.runner.used.length = r.runner.attempts + 1 := by
        rw [hq]
        simp [Runner.runAgainst, hcount]
      refine ⟨?_, fun _ => ⟨timeout, ?_, ?_⟩⟩
      · rw [Waited, hq]
        rw [hq] at hused
        have hmono :
            (backoff r.runner.attempts : Int) ≤ q.clock - r.runner.start := by
          omega
        exact ⟨hused, hmono⟩
      · rw [hq]
        exact htimeout
      · rw [hused]
        exact hlt
  | beginFailed f hphase =>
      refine ⟨?_, htimely.same (by rw [hq]) (by rw [hq])⟩
      rw [Waited, hq]
      trivial
  | @woken delay time hphase =>
      simp only [onTime, hphase, Bool.and_eq_true, decide_eq_true_eq]
        at hontime
      obtain ⟨rfl, hdelay⟩ := hontime
      exact waited_of_loop hwaited htimely hphase hdelay hnow hq

end TimedRunner

/-- A runner that has reached its first attempt. -/
def TimedRunner.begun
    (mode : Mode) (spanner : DefaultTransactionOptions)
    (options : RunTransactionOptions)
    (random : Nat → Nat) (start : Int) : TimedRunner where
  runner := Runner.begun mode spanner options random start
  clock := start

/-- The number of attempts of a runner is bounded by its timeout, unless the server
says how long to wait: the least delays before the attempts add up to less than
the timeout, and so each 32 seconds of it allow for one more attempt. -/
theorem attempts_bounded
    (mode : Mode) (spanner : DefaultTransactionOptions)
    (options : RunTransactionOptions) (random : Nat → Nat) (start : Int)
    (es : List TimedEvent) (r : TimedRunner)
    (hsilent : ∀ e ∈ es, e.event.Silent)
    (hrun :
      run timedStep (TimedRunner.begun mode spanner options random start)
        es = some r) :
    1 < r.runner.used.length →
      ∃ timeout, options.construct.timeout.join = some timeout ∧
        (backoff (r.runner.used.length - 1) : Int) < timeout ∧
        32000 * (r.runner.used.length : Int) < timeout + 130000 := by
  have hbounded :
      r.runner.options = options.construct ∧ r.Waited ∧ r.Timely := by
    refine
      run_invariant_of_forall
        (I := fun r =>
          r.runner.options = options.construct ∧ r.Waited ∧ r.Timely)
        (fun s e t h he hstep => ?_) ⟨rfl, ?_, ?_⟩ hsilent hrun
    · obtain ⟨hoptions, hwaited, htimely⟩ := h
      obtain ⟨-, -, -, hsteps⟩ := TimedRunner.steps_of_timedStep hstep
      refine ⟨?_, TimedRunner.step_waited hwaited htimely he hstep⟩
      rw [TimedRunner.options_of_steps hsteps, hoptions]
    · exact ⟨rfl, by simp [TimedRunner.begun, Runner.begun, backoff]⟩
    · intro hused
      simp [TimedRunner.begun, Runner.begun] at hused
  obtain ⟨hoptions, -, htimely⟩ := hbounded
  intro hused
  obtain ⟨timeout, htimeout, hlt⟩ := htimely hused
  have hge := backoff_ge (r.runner.used.length - 1)
  exact ⟨timeout, hoptions ▸ htimeout, hlt, by omega⟩

/-- The first attempt is aborted at once, the second one is begun after the least
delay. -/
def abortedOnce : List TimedEvent :=
  [⟨0, .requestFailed ⟨⟨some .ABORTED, ""⟩, .absent⟩⟩, ⟨2000, .woken 2000⟩,
    ⟨2000, .beginSettled none⟩]

theorem attempts_bounded_abortedOnce :
    ∃ r,
      run timedStep (TimedRunner.begun .callback {} {} (fun _ => 0) 0)
          abortedOnce = some r ∧
        r.runner.used.length = 2 ∧
        ∃ timeout,
          (RunTransactionOptions.construct {}).timeout.join = some timeout ∧
            (backoff (r.runner.used.length - 1) : Int) < timeout ∧
            32000 * (r.runner.used.length : Int) < timeout + 130000 := by
  have hlength :
      ((run timedStep (TimedRunner.begun .callback {} {} (fun _ => 0) 0)
          abortedOnce).map fun r => r.runner.used.length) = some 2 := by
    decide +kernel
  obtain ⟨r, hrun, hused⟩ := Option.map_eq_some_iff.mp hlength
  refine ⟨r, hrun, hused, ?_⟩
  refine
    attempts_bounded .callback {} {} (fun _ => 0) 0 abortedOnce r ?_ hrun
      (by omega)
  intro e he
  simp only [abortedOnce, List.mem_cons, List.not_mem_nil, or_false] at he
  rcases he with rfl | rfl | rfl <;> simp [Event.Silent]

end TransactionRunner
end SpannerClient
