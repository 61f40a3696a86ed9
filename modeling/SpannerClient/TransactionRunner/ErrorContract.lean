import SpannerClient.TransactionRunner.Basic

/-!
# What a runner rejects with

A runner may give up for an error that is not retryable, or because the timeout
has passed.  `Contract` says so.  Three things break it, all outside the `try`
block of the loop: a retryable error of the `begin` between two attempts, retry
information that cannot be decoded, and a timeout given as undefined.

`Retries` says of an event that it is none of the three, and `contract_step` that one
event keeps the contract exactly if it says so, with a lemma for each function of the
loop (`contract_attemptFailed`, `contract_intercept`, `contract_loop`).  The main
result is `contract_iff_retries`, for every run in either mode.
-/

namespace SpannerClient
namespace TransactionRunner

open Machine

variable {r q : Runner}

/-- A rejection for an error that is not retryable, or after the timeout. -/
def Rejection.Allowed
    (r : Runner) : Rejection → Prop
  | .error f => isRetryable f.error = false
  | .deadline _ now =>
      ∃ timeout, r.options.timeout.join = some timeout ∧
        timeout ≤ now - r.start
  | .undecodable f => isRetryable f.error = false

/-- `run` has not rejected, or for a reason it may. -/
def Contract
    (r : Runner) : Prop :=
  ∀ rejection, r.phase = .rejected rejection → rejection.Allowed r

/-- The error can be followed by another attempt, if it has to. -/
def Readable
    (f : Failure) : Prop :=
  isRetryable f.error = true → f.retryInfo ≠ .unreadable

/-- The event leaves the runner able to try again where it has to: a `begin`
does not fail with a retryable error, the retry information of a retryable error
that ends an attempt can be decoded, and there is a timeout to compare with. -/
def Retries
    (r : Runner) : Event → Prop
  | .requestFailed f => r.mode = .callback → Readable f
  | .streamFailed f => r.mode = .callback → Readable f
  | .threw f => Readable f
  | .beginSettled (some f) => isRetryable f.error = false
  | .woken _ => r.options.timeout.join ≠ none
  | _ => True

/-- Between two attempts at least one attempt has been made. -/
def Attempted
    (r : Runner) : Prop :=
  ∀ delay, r.phase = .sleeping delay → r.attempts ≠ 0

/-- A retryable error is one the interception stops. -/
theorem shouldRetry_of_isRetryable
    {error : ServiceError}
    (h : isRetryable error = true) :
    shouldRetry error = true := by
  unfold isRetryable at h
  rw [shouldRetry]
  rcases Bool.or_eq_true _ _ |>.mp h with haborted | hinternal
  · simp [haborted]
  · simp [hinternal]

theorem getNextDelay_eq_none
    {attempts random : Nat} {f : Failure} :
    getNextDelay attempts random f = none ↔ f.retryInfo = .unreadable := by
  rw [getNextDelay]
  cases hinfo : f.retryInfo with
  | absent =>
      by_cases hnotFound : isSessionNotFoundError (some f.error) = true
      · simp [hnotFound]
      · simp [hnotFound]
  | retryDelay seconds nanos => simp
  | unreadable => simp

/-- What becomes of a failed attempt. -/
theorem attemptFailed_phase
    (r : Runner) (f : Failure) :
    (isRetryable f.error = false ∧
      (r.attemptFailed f).phase = .rejected (.error f)) ∨
    (isRetryable f.error = true ∧ f.retryInfo = .unreadable ∧
      (r.attemptFailed f).phase = .rejected (.undecodable f)) ∨
    (isRetryable f.error = true ∧ f.retryInfo ≠ .unreadable ∧
      (r.attemptFailed f).attempts = r.attempts + 1 ∧
      ∃ delay, (r.attemptFailed f).phase = .sleeping delay) := by
  rw [Runner.attemptFailed]
  cases hretry : isRetryable f.error with
  | false =>
      exact Or.inl ⟨rfl, rfl⟩
  | true =>
      right
      simp only [if_true]
      split
      · rename_i delay hdelay
        right
        refine ⟨trivial, ?_, rfl, delay, rfl⟩
        intro hunreadable
        rw [getNextDelay_eq_none.2 hunreadable] at hdelay
        cases hdelay
      · rename_i hdelay
        exact Or.inl ⟨trivial, getNextDelay_eq_none.1 hdelay, rfl⟩

/-- A failed attempt is not being made any more. -/
theorem attemptFailed_not_running
    (r : Runner) (f : Failure) (t : ReadWriteTransaction) :
    (r.attemptFailed f).phase ≠ .running t := by
  rcases attemptFailed_phase r f with
    ⟨-, hphase⟩ | ⟨-, -, hphase⟩ | ⟨-, -, -, delay, hphase⟩ <;>
  · rw [hphase]
    exact nofun

theorem attemptFailed_kept
    (r : Runner) (f : Failure) :
    (r.attemptFailed f).used = r.used ∧
      (r.attemptFailed f).options = r.options ∧
      (r.attemptFailed f).mode = r.mode := by
  unfold Runner.attemptFailed
  dsimp only
  split
  · split <;> exact ⟨rfl, rfl, rfl⟩
  · exact ⟨rfl, rfl, rfl⟩

/-- A failed attempt keeps the contract exactly when its error is not retryable
or can be followed by another attempt. -/
theorem contract_attemptFailed
    (r : Runner) (f : Failure) :
    Contract (r.attemptFailed f) ↔ Readable f := by
  rcases attemptFailed_phase r f with
    ⟨hnot, hphase⟩ | ⟨hretry, hunreadable, hphase⟩ |
    ⟨-, hreadable, -, delay, hphase⟩
  · constructor
    · intro _ hretry
      rw [hnot] at hretry
      cases hretry
    · intro _ rejection hrejected
      rw [hphase, Phase.rejected.injEq] at hrejected
      subst hrejected
      exact hnot
  · constructor
    · intro hcontract
      have hnot := hcontract _ hphase
      simp only [Rejection.Allowed, hretry, Bool.true_eq_false] at hnot
    · intro h
      exact absurd hunreadable (h hretry)
  · constructor
    · intro _ _
      exact hreadable
    · intro _ rejection hrejected
      rw [hphase] at hrejected
      cases hrejected

theorem contract_of_phase
    (hphase : ∀ rejection, r.phase ≠ .rejected rejection) :
    Contract r :=
  fun rejection h => absurd h (hphase rejection)

theorem intercept_eq
    (r : Runner) (f : Failure) :
    r.intercept f =
      if r.mode = .callback ∧ shouldRetry f.error = true then
        r.attemptFailed f
      else
        r := by
  rw [Runner.intercept]
  cases hmode : r.mode <;> simp

/-- The error of a request or stream, intercepted or not. -/
theorem contract_intercept
    {t : ReadWriteTransaction}
    (hphase : r.phase = .running t)
    (f : Failure) :
    Contract (r.intercept f) ↔ (r.mode = .callback → Readable f) := by
  rw [intercept_eq]
  by_cases hstopped : r.mode = .callback ∧ shouldRetry f.error = true
  · rw [if_pos hstopped, contract_attemptFailed]
    exact ⟨fun h _ => h, fun h => h hstopped.1⟩
  · rw [if_neg hstopped]
    constructor
    · intro _ hmode hretry
      exact absurd ⟨hmode, shouldRetry_of_isRetryable hretry⟩ hstopped
    · intro _
      exact contract_of_phase (fun rejection h => by rw [hphase] at h; cases h)

/-- Without a timeout to compare with, no time is within it. -/
theorem withinTimeout_of_none
    (hnone : r.options.timeout.join = none)
    (now : Int) :
    r.withinTimeout now = false := by
  simp only [Runner.withinTimeout, hnone]

/-- The loop goes on, or ends because the timeout has passed, if there is one. -/
theorem contract_loop
    (hattempts : r.attempts ≠ 0)
    (now : Int) :
    Contract (r.loop now) ↔ r.options.timeout.join ≠ none := by
  rw [Runner.loop]
  by_cases hwithin : r.withinTimeout now = true
  · rw [if_pos (Or.inr hwithin)]
    constructor
    · intro _ hnone
      rw [withinTimeout_of_none hnone] at hwithin
      cases hwithin
    · intro _
      refine contract_of_phase ?_
      intro rejection
      simp [Runner.getTransaction, Nat.pos_of_ne_zero hattempts]
  · rw [if_neg (by simp [hattempts, hwithin])]
    constructor
    · intro hcontract hnone
      obtain ⟨timeout, hsome, -⟩ := hcontract _ rfl
      rw [show r.options.timeout.join = none from hnone] at hsome
      cases hsome
    · intro htimeout rejection hrejected
      simp only [Phase.rejected.injEq] at hrejected
      subst hrejected
      obtain ⟨timeout, hsome⟩ := Option.ne_none_iff_exists'.mp htimeout
      refine ⟨timeout, hsome, ?_⟩
      simp only [Runner.withinTimeout, hsome, decide_eq_true_eq] at hwithin
      exact Int.not_lt.mp hwithin

/-- The runner has not settled, so the contract holds. -/
theorem contract_of_running
    {t : ReadWriteTransaction}
    (hphase : r.phase = .running t) :
    Contract r :=
  contract_of_phase fun rejection h => by rw [hphase] at h; cases h

/-- One event keeps the contract exactly when it meets the condition. -/
theorem contract_step
    {e : Event}
    (hattempted : Attempted r)
    (hstep : step r e = some q) :
    Contract q ↔ Retries r e := by
  cases steps_of_step hstep with
  | requestFailed f hphase => exact contract_intercept hphase f
  | streamFailed f hphase => exact contract_intercept hphase f
  | transactionEnded hphase hmode =>
      exact
        iff_of_true (contract_of_phase fun rejection h => by cases h) trivial
  | transactionEndedUnheard hphase hmode =>
      exact iff_of_true (contract_of_running hphase) trivial
  | returned hphase hmode =>
      exact
        iff_of_true (contract_of_phase fun rejection h => by cases h) trivial
  | returnedUnheard hphase hmode =>
      exact iff_of_true (contract_of_running hphase) trivial
  | threw f hphase => exact contract_attemptFailed r f
  | begun hphase => exact iff_of_true (contract_of_running rfl) trivial
  | beginFailed f hphase =>
      constructor
      · intro hcontract
        exact hcontract _ rfl
      · intro hnot rejection hrejected
        obtain rfl := Phase.rejected.inj hrejected
        exact hnot
  | woken now hphase => exact contract_loop (hattempted _ hphase) now

/-- After an attempt the next one is begun, or the deadline has passed. -/
theorem loop_again_cases
    (hattempts : r.attempts ≠ 0) (now : Int) :
    (∃ t, r.loop now = { r with phase := .beginning t }) ∨
      r.loop now = { r with phase := .rejected (.deadline r.lastError now) } := by
  rw [Runner.loop]
  split
  · left
    rw [Runner.getTransaction, if_pos (Nat.pos_of_ne_zero hattempts)]
    exact ⟨_, rfl⟩
  · exact Or.inr rfl

theorem attempted_of_phase
    (hphase : ∀ delay, r.phase ≠ .sleeping delay) :
    Attempted r :=
  fun delay h => absurd h (hphase delay)

theorem attempted_attemptFailed
    (r : Runner) (f : Failure) :
    Attempted (r.attemptFailed f) := by
  intro delay hsleeping
  rcases attemptFailed_phase r f with
    ⟨-, hphase⟩ | ⟨-, -, hphase⟩ | ⟨-, -, hattempts, -⟩
  · rw [hphase] at hsleeping
    cases hsleeping
  · rw [hphase] at hsleeping
    cases hsleeping
  · omega

theorem Attempted.intercept
    (hattempted : Attempted r)
    (f : Failure) :
    Attempted (r.intercept f) := by
  rw [intercept_eq]
  split
  · exact attempted_attemptFailed r f
  · exact hattempted

/-- The runner sleeps only after a failed attempt. -/
theorem attempted_step
    {e : Event}
    (hattempted : Attempted r)
    (hstep : step r e = some q) :
    Attempted q := by
  cases steps_of_step hstep with
  | requestFailed f hphase => exact hattempted.intercept f
  | streamFailed f hphase => exact hattempted.intercept f
  | transactionEndedUnheard hphase hmode => exact hattempted
  | returnedUnheard hphase hmode => exact hattempted
  | threw f hphase => exact attempted_attemptFailed r f
  | woken now hphase =>
      refine attempted_of_phase ?_
      intro delay
      rw [Runner.loop, Runner.getTransaction]
      split
      · split <;> simp [Runner.runAgainst]
      · simp
  | _ => exact attempted_of_phase fun delay h => by cases h

/--
The error contract of `run`, in either mode: along a run of the runner it never
rejects but for an error that is not retryable or after the timeout, exactly
when no `begin` between two attempts fails with a retryable error, the retry
information of the errors it retries can be decoded, and its timeout is not
undefined.
-/
theorem contract_iff_retries
    (mode : Mode)
    (spanner : DefaultTransactionOptions)
    (options : RunTransactionOptions)
    (random : Nat → Nat)
    (start : Int)
    {es : List Event}
    (hrun :
      run step (Runner.begun mode spanner options random start) es =
        some r) :
    Always step Contract
        (Runner.begun mode spanner options random start) es ↔
      Meets step Retries
        (Runner.begun mode spanner options random start) es := by
  refine
    always_iff_meets (I := Attempted)
      (fun _ _ _ h hstep => attempted_step h hstep)
      (fun _ _ _ h _ hstep => contract_step h hstep)
      ?_ (contract_of_running rfl) hrun
  intro delay hsleeping
  cases hsleeping

/-- An aborted attempt, and the next one that is not. -/
def retriedOnce : List Event :=
  [.threw ⟨⟨some .ABORTED, "aborted"⟩, .absent⟩, .woken 2000,
    .beginSettled none, .returned]

theorem contract_iff_retries_retriedOnce :
    Always step Contract
      (Runner.begun .promise {} {} (fun _ => 0) 0) retriedOnce := by
  have hrun :
      run step (Runner.begun .promise {} {} (fun _ => 0) 0) retriedOnce =
        some _ := rfl
  refine (contract_iff_retries _ _ _ _ _ hrun).2 ?_
  refine meets_of_step (fun _ h => by cases h) rfl ?_
  refine meets_of_step (fun h => by cases h) rfl ?_
  refine meets_of_step trivial rfl ?_
  exact meets_of_step trivial rfl trivial

/-- An aborted attempt, and a `begin` that is aborted in turn. -/
def beginAborted : List Event :=
  [.threw ⟨⟨some .ABORTED, "aborted"⟩, .absent⟩, .woken 2000,
    .beginSettled (some ⟨⟨some .ABORTED, "aborted"⟩, .absent⟩)]

/-- Two seconds after its start the runner rejects with the aborted `begin`. -/
theorem beginAborted_not_contract :
    ¬∀ (mode : Mode) (spanner : DefaultTransactionOptions)
        (options : RunTransactionOptions) (random : Nat → Nat)
        (start : Int) (es : List Event) (r : Runner),
      run step (Runner.begun mode spanner options random start) es =
          some r →
        Contract r := by
  intro hall
  have hrun :
      run step (Runner.begun .callback {} {} (fun _ => 0) 0) beginAborted =
        some _ := rfl
  have hcontract := hall _ _ _ _ _ _ _ hrun _ rfl
  cases hcontract

end TransactionRunner
end SpannerClient
