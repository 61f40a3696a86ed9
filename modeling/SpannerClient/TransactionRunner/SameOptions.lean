import SpannerClient.TransactionRunner.ErrorContract

/-!
# The options of the attempts

The transactions of all attempts are set up by the same method from the same
options, but the request options are assigned to the first one only, by
`Database`.  So the attempts agree on everything but the transaction tag.

`SameOptions` is the agreement of two transactions, option by option, with the
defaults of the `Spanner` object; `Handed` says of a runner which transactions it has
made.  The main result is `uniform_iff_untagged`: the transactions of a run have the
same options exactly when no transaction tag is asked for, or no second attempt has
been made.
-/

namespace SpannerClient
namespace TransactionRunner

open Machine

/-- The transactions have been given the same options, as far as the requests
carry them. -/
structure SameOptions
    (t u : ReadWriteTransaction) : Prop where
  transactionTag : t.transactionTag = u.transactionTag
  isolationLevel : t.isolationLevel = u.isolationLevel
  readLockMode : t.readLockMode = u.readLockMode
  excludeTxnFromChangeStreams :
    t.excludeTxnFromChangeStreams = u.excludeTxnFromChangeStreams

theorem SameOptions.refl
    (t : ReadWriteTransaction) :
    SameOptions t t :=
  ⟨rfl, rfl, rfl, rfl⟩

theorem SameOptions.symm
    {t u : ReadWriteTransaction}
    (h : SameOptions t u) :
    SameOptions u t :=
  ⟨h.transactionTag.symm, h.isolationLevel.symm, h.readLockMode.symm,
    h.excludeTxnFromChangeStreams.symm⟩

theorem SameOptions.trans
    {t u v : ReadWriteTransaction}
    (h : SameOptions t u)
    (h' : SameOptions u v) :
    SameOptions t v :=
  ⟨h.transactionTag.trans h'.transactionTag,
    h.isolationLevel.trans h'.isolationLevel,
    h.readLockMode.trans h'.readLockMode,
    h.excludeTxnFromChangeStreams.trans h'.excludeTxnFromChangeStreams⟩

/-- All transactions of the runner have the same options. -/
def Uniform
    (r : Runner) : Prop :=
  ∀ t ∈ r.used, ∀ u ∈ r.used, SameOptions t u

/-- The transaction of the second and later attempts. -/
def laterTransaction
    (spanner : DefaultTransactionOptions)
    (options : RunTransactionOptions) : ReadWriteTransaction :=
  sessionTransaction.setReadWriteTransactionOptions spanner options.construct

/-- The tag the options ask for. -/
def RunTransactionOptions.transactionTag
    (options : RunTransactionOptions) : Option String :=
  options.requestOptions.join.bind fun o => o.transactionTag.join

/-- An attempt is made after a `begin`. -/
def Event.isBegun : Event → Bool
  | .beginSettled none => true
  | _ => false

variable {spanner : DefaultTransactionOptions} {options : RunTransactionOptions}

@[simp] theorem databaseTransaction_transactionTag :
    (databaseTransaction spanner options).transactionTag =
      options.transactionTag := by
  simp only [databaseTransaction,
    ReadWriteTransaction.setReadWriteTransactionOptions,
    ReadWriteTransaction.assignRequestOptions,
    ReadWriteTransaction.transactionTag,
    RunTransactionOptions.transactionTag, sessionTransaction]
  cases options.requestOptions.join with
  | none => rfl
  | some source =>
      cases htag : source.transactionTag <;> simp [assign, htag]

@[simp] theorem laterTransaction_transactionTag :
    (laterTransaction spanner options).transactionTag = none := by
  rfl

/-- The defaults of the runner are what the options mean when absent. -/
theorem laterTransaction_isolationLevel :
    (laterTransaction spanner options).isolationLevel =
      (databaseTransaction spanner options).isolationLevel := by
  simp only [laterTransaction, databaseTransaction,
    ReadWriteTransaction.setReadWriteTransactionOptions,
    RunTransactionOptions.construct]
  cases options.isolationLevel <;> rfl

theorem laterTransaction_readLockMode :
    (laterTransaction spanner options).readLockMode =
      (databaseTransaction spanner options).readLockMode := by
  simp only [laterTransaction, databaseTransaction,
    ReadWriteTransaction.setReadWriteTransactionOptions,
    RunTransactionOptions.construct]
  cases options.readLockMode <;> rfl

theorem laterTransaction_excludeTxnFromChangeStreams :
    (laterTransaction spanner options).excludeTxnFromChangeStreams =
      (databaseTransaction spanner options).excludeTxnFromChangeStreams := by
  rfl

/-- The first transaction and a later one differ in the tag alone. -/
theorem sameOptions_iff_tag :
    SameOptions (databaseTransaction spanner options)
        (laterTransaction spanner options) ↔
      options.transactionTag = none := by
  constructor
  · intro h
    simpa using h.transactionTag
  · intro hnone
    exact
      { transactionTag := by simpa using hnone
        isolationLevel := laterTransaction_isolationLevel.symm
        readLockMode := laterTransaction_readLockMode.symm
        excludeTxnFromChangeStreams :=
          laterTransaction_excludeTxnFromChangeStreams.symm }

/-- What the runner has been given and has handed out, after a number of
attempts that a `begin` preceded. -/
structure Handed
    (spanner : DefaultTransactionOptions)
    (options : RunTransactionOptions)
    (n : Nat) (r : Runner) : Prop where
  keepsSpanner : r.spanner = spanner
  keepsOptions : r.options = options.construct
  used :
    r.used =
      databaseTransaction spanner options ::
        List.replicate n (laterTransaction spanner options)
  beginning :
    ∀ t, r.phase = .beginning t → t = laterTransaction spanner options
  attempted : Attempted r

variable {n : Nat} {r q : Runner}

/-- What changes neither the options nor the transactions. -/
theorem Handed.mono
    (h : Handed spanner options n r)
    (hspanner : q.spanner = r.spanner)
    (hoptions : q.options = r.options)
    (hused : q.used = r.used)
    (hphase : ∀ t, q.phase ≠ .beginning t)
    (hattempted : Attempted q) :
    Handed spanner options n q where
  keepsSpanner := hspanner.trans h.keepsSpanner
  keepsOptions := hoptions.trans h.keepsOptions
  used := hused.trans h.used
  beginning := fun t ht => absurd ht (hphase t)
  attempted := hattempted

theorem Handed.attemptFailed
    (h : Handed spanner options n r)
    (f : Failure) :
    Handed spanner options n (r.attemptFailed f) := by
  refine h.mono ?_ ?_ ?_ ?_ (attempted_attemptFailed r f)
  all_goals
    rw [Runner.attemptFailed]
    split
    · dsimp only
      split <;> simp
    · simp

theorem Handed.intercept
    (h : Handed spanner options n r)
    (f : Failure) :
    Handed spanner options n (r.intercept f) := by
  rw [intercept_eq]
  split
  · exact h.attemptFailed f
  · exact h

theorem handed_step
    {e : Event}
    (h : Handed spanner options n r)
    (hstep : step r e = some q) :
    Handed spanner options (n + e.isBegun.toNat) q := by
  have hattempted := attempted_step h.attempted hstep
  cases steps_of_step hstep with
  | requestFailed f hphase => exact h.intercept f
  | streamFailed f hphase => exact h.intercept f
  | transactionEnded hphase hmode =>
      exact h.mono rfl rfl rfl (fun t ht => by cases ht) hattempted
  | transactionEndedUnheard hphase hmode => exact h
  | returned hphase hmode =>
      exact h.mono rfl rfl rfl (fun t ht => by cases ht) hattempted
  | returnedUnheard hphase hmode => exact h
  | threw f hphase => exact h.attemptFailed f
  | begun hphase =>
      obtain rfl := h.beginning _ hphase
      refine
        { keepsSpanner := h.keepsSpanner
          keepsOptions := h.keepsOptions
          used := ?_
          beginning := fun t ht => by cases ht
          attempted := hattempted }
      simp only [Runner.runAgainst, h.used, Event.isBegun, Bool.toNat_true,
        List.replicate_succ', List.cons_append]
  | beginFailed f hphase =>
      exact h.mono rfl rfl rfl (fun t ht => by cases ht) hattempted
  | woken now hphase =>
      have hpos := Nat.pos_of_ne_zero (h.attempted _ hphase)
      rw [Runner.loop] at hattempted ⊢
      by_cases hgo : r.attempts = 0 ∨ r.withinTimeout now = true
      · simp only [if_pos hgo, Runner.getTransaction, if_pos hpos]
          at hattempted ⊢
        refine
          { keepsSpanner := h.keepsSpanner
            keepsOptions := h.keepsOptions
            used := h.used
            beginning := ?_
            attempted := hattempted }
        intro t ht
        rw [← Phase.beginning.inj ht, h.keepsSpanner, h.keepsOptions]
        rfl
      · rw [if_neg hgo] at hattempted ⊢
        exact h.mono rfl rfl rfl (fun t ht => by cases ht) hattempted

theorem handed_begun
    (mode : Mode) (random : Nat → Nat) (start : Int) :
    Handed spanner options 0
      (Runner.begun mode spanner options random start) where
  keepsSpanner := rfl
  keepsOptions := rfl
  used := rfl
  beginning := by
    intro t ht
    cases ht
  attempted := by
    intro delay hsleeping
    cases hsleeping

theorem countP_isBegun_eq_zero
    {es : List Event} :
    es.countP Event.isBegun = 0 ↔ Event.beginSettled none ∉ es := by
  rw [List.countP_eq_zero]
  constructor
  · intro h hmem
    exact h _ hmem rfl
  · intro h e he hbegun
    cases e with
    | beginSettled failure =>
        cases failure with
        | none => exact h he
        | some f => cases hbegun
    | _ => cases hbegun

/-- A first transaction and some later ones. -/
theorem uniform_iff_of_used
    {t u : ReadWriteTransaction}
    (hused : r.used = t :: List.replicate n u) :
    Uniform r ↔ SameOptions t u ∨ n = 0 := by
  rw [Uniform]
  rw [hused]
  constructor
  · intro huniform
    by_cases hzero : n = 0
    · exact Or.inr hzero
    · exact
        Or.inl (huniform _ List.mem_cons_self _
          (List.mem_cons_of_mem _ (List.mem_replicate.mpr ⟨hzero, rfl⟩)))
  · rintro (hsame | rfl)
    · have hfirst :
          ∀ v ∈ t :: List.replicate n u, SameOptions t v := by
        intro v hv
        rcases List.mem_cons.mp hv with rfl | hv
        · exact SameOptions.refl _
        · rw [List.eq_of_mem_replicate hv]
          exact hsame
      intro v hv w hw
      exact (hfirst v hv).symm.trans (hfirst w hw)
    · intro v hv w hw
      obtain rfl := List.mem_singleton.mp hv
      obtain rfl := List.mem_singleton.mp hw
      exact SameOptions.refl _

/--
The transactions of a run have the same options exactly when the options ask for
no transaction tag, or no second attempt has been made.
-/
theorem uniform_iff_untagged
    (mode : Mode)
    (spanner : DefaultTransactionOptions)
    (options : RunTransactionOptions)
    (random : Nat → Nat)
    (start : Int)
    {es : List Event}
    (hrun :
      run step (Runner.begun mode spanner options random start) es =
        some r) :
    Uniform r ↔
      options.transactionTag = none ∨ Event.beginSettled none ∉ es := by
  have hhanded :=
    run_counted Event.isBegun (fun _ _ _ _ h hstep => handed_step h hstep)
      (handed_begun mode random start) hrun
  rw [Nat.zero_add] at hhanded
  rw [uniform_iff_of_used hhanded.used, sameOptions_iff_tag,
    countP_isBegun_eq_zero]

/-- The options ask for a tag, and the first attempt is aborted. -/
def tagged : RunTransactionOptions where
  requestOptions := some (some { transactionTag := some (some "app=checkout") })

theorem uniform_iff_untagged_retriedOnce :
    ∃ r,
      run step (Runner.begun .promise {} {} (fun _ => 0) 0) retriedOnce =
          some r ∧
        Uniform r ∧ r.used.length = 2 := by
  have hrun :
      run step (Runner.begun .promise {} {} (fun _ => 0) 0) retriedOnce =
        some _ := rfl
  exact
    ⟨_, hrun, (uniform_iff_untagged _ _ _ _ _ hrun).2 (Or.inl rfl), rfl⟩

/-- The second attempt runs without the tag. -/
theorem tagged_not_uniform :
    ¬∀ (mode : Mode) (spanner : DefaultTransactionOptions)
        (options : RunTransactionOptions) (random : Nat → Nat)
        (start : Int) (es : List Event) (r : Runner),
      run step (Runner.begun mode spanner options random start) es =
          some r →
        Uniform r := by
  intro hall
  have hrun :
      run step (Runner.begun .promise {} tagged (fun _ => 0) 0) retriedOnce =
        some _ := rfl
  have hsame :=
    hall _ _ _ _ _ _ _ hrun (databaseTransaction {} tagged)
      List.mem_cons_self (laterTransaction {} tagged)
      (List.mem_cons_of_mem _ List.mem_cons_self)
  exact absurd hsame.transactionTag (by decide)

end TransactionRunner
end SpannerClient
