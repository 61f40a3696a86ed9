import SpannerClient.Machine.Containers
import SpannerClient.Machine.Run
import SpannerClient.Transaction.PreviousId
import SpannerClient.TransactionRunner.ErrorContract

/-!
# The chain of the attempts

The runner reads the id of a transaction when its attempt ends and gives it to the
transaction of the next attempt, which it begins itself.  The transactions live on while
their streams do: requests of an attempt that is over may still be sent, fail and answer
while later attempts run.  All the same the begin requests of each attempt carry the id
that the attempt before ended with.

`ChainedRunner` is the runner with all the transactions it has made, each stepping on
its own; the invariant `Chain` ties the phase of the runner to the last of them, and
what a step of the runner does to it is `RunnerMoves`.  The main result is
`attempts_chained`.
-/

namespace SpannerClient

/-- The id of the previous attempt in a selector that begins a transaction. -/
def Selector.begin? : Selector → Option (Option TransactionId)
  | .begin previous => some previous
  | _ => none

namespace TransactionRunner

open Machine

/-- A runner on a session, with the transactions of its attempts. -/
structure ChainedRunner where
  runner : Runner
  /-- `session.parent.isMuxEnabledForRW_`. -/
  isMuxEnabledForRW : Bool
  transactions : List Transaction
  multiplexedSessionPreviousTransactionId : Option TransactionId := none
  /-- The ids of the transactions when their attempts ended. -/
  ended : List (Option TransactionId) := []
  /-- The requests that have begun transactions: the attempts, and the previous ids
  they carry. -/
  begins : List (Nat × Option TransactionId) := []

/-- What can happen to a runner and its transactions. -/
inductive ChainedEvent where
  | runner (e : Event)
  /-- Something happens to the transaction of an attempt. -/
  | transaction (attempt : Nat) (e : Transaction.Event)
  /-- The transaction of the next attempt has begun, or cannot. -/
  | begun (id : TransactionId) (precommitToken : Option PrecommitToken)
  | beginFailed (failure : Failure)

namespace ChainedRunner

/-- A runner whose `run` has reached the first attempt. -/
def begun
    (isMuxEnabledForRW : Bool)
    (mode : Mode) (spanner : DefaultTransactionOptions)
    (options : RunTransactionOptions)
    (random : Nat → Nat) (start : Int) : ChainedRunner where
  runner := .begun mode spanner options random start
  isMuxEnabledForRW := isMuxEnabledForRW
  transactions := [.new .readWrite isMuxEnabledForRW none true]

/-- The transaction that `getTransaction` makes. -/
def nextTransaction
    (s : ChainedRunner) : Transaction :=
  .new .readWrite s.isMuxEnabledForRW
    s.multiplexedSessionPreviousTransactionId false

/-- The begin requests that a step of a transaction sends. -/
def beginsSent
    (p t : Transaction) : List (Option TransactionId) :=
  (t.requests.drop p.requests.length).filterMap
      (fun r => r.reqOpts.transaction.begin?) ++
    if p.begins < t.begins then [t.beginPrevious] else []

/-- Something happens to the transaction of an attempt. -/
def atTransaction
    (s : ChainedRunner) (attempt : Nat) (e : Transaction.Event) :
    Option ChainedRunner :=
  match s.transactions[attempt]? with
  | none => none
  | some p =>
      (Transaction.step p e).map fun t =>
        { s with
          transactions := s.transactions.set attempt t
          begins :=
            s.begins ++ (beginsSent p t).map fun previous =>
              (attempt, previous) }

/-- The runner goes on. -/
def follow
    (s : ChainedRunner) (r : Runner) : ChainedRunner :=
  match s.runner.phase, r.phase with
  | .running _, .running _ => { s with runner := r }
  | .running _, _ =>
      -- The `finally` block of the attempt.
      let id := s.transactions.getLast?.bind fun t => t.id
      { s with
        runner := r
        multiplexedSessionPreviousTransactionId := id
        ended := s.ended ++ [id] }
  | _, .beginning _ =>
      { s with
        runner := r
        transactions := s.transactions ++ [s.nextTransaction.begin]
        begins :=
          s.begins ++
            [(s.transactions.length, s.nextTransaction.beginPrevious)] }
  | _, .running _ =>
      { s with
        runner := r
        transactions := s.transactions ++ [s.nextTransaction] }
  | _, _ => { s with runner := r }

/-- One event; only the runner has seen a transaction that is being begun. -/
def step
    (s : ChainedRunner) : ChainedEvent → Option ChainedRunner
  | .runner (.beginSettled _) => none
  | .runner e => (TransactionRunner.step s.runner e).map s.follow
  | .transaction attempt e =>
      if attempt < s.runner.used.length then
        s.atTransaction attempt e
      else
        none
  | .begun id precommitToken =>
      match TransactionRunner.step s.runner (.beginSettled none) with
      | none => none
      | some r =>
          atTransaction { s with runner := r } (s.transactions.length - 1)
            (.onBegin id precommitToken)
  | .beginFailed failure =>
      match TransactionRunner.step s.runner (.beginSettled (some failure)) with
      | none => none
      | some r =>
          atTransaction { s with runner := r } (s.transactions.length - 1)
            (.beginFailed failure.error)

/-- The id that the begin requests of an attempt are to carry. -/
def previousOf
    (s : ChainedRunner) : Nat → Option TransactionId
  | 0 => none
  | attempt + 1 => if s.isMuxEnabledForRW then s.ended[attempt]?.join else none

/-! ## One step -/

/-- The numbers of the transactions, of those the function has seen, and of the
attempts that have ended. -/
def Stage
    (s : ChainedRunner) : Prop :=
  match s.runner.phase with
  | .running _ =>
      s.transactions.length = s.ended.length + 1 ∧
        s.runner.used.length = s.ended.length + 1
  | .beginning _ =>
      s.transactions.length = s.ended.length + 1 ∧
        s.runner.used.length = s.ended.length ∧
        s.transactions.getLast? = some s.nextTransaction.begin
  | .sleeping _ =>
      s.transactions.length = s.ended.length ∧
        s.runner.used.length = s.ended.length
  | .resolved => s.runner.used.length ≤ s.ended.length + 1
  | .rejected _ => s.runner.used.length ≤ s.ended.length + 1

/-- The transactions are begun as they have to be. -/
structure Chain
    (s : ChainedRunner) : Prop where
  attempted : Attempted s.runner
  stage : s.Stage
  previous :
    s.multiplexedSessionPreviousTransactionId = s.ended.getLast?.join
  seen :
    ∀ attempt p, attempt < s.runner.used.length →
      s.transactions[attempt]? = some p →
        p.BeginsWith (s.previousOf attempt) (attempt == 0)
  begins :
    ∀ x ∈ s.begins, x.1 ≤ s.ended.length ∧ x.2 = s.previousOf x.1
  known :
    ∀ attempt id, s.ended[attempt + 1]? = some id → id.isSome = true

variable {s q : ChainedRunner}

theorem Stage.used_le
    (h : s.Stage) :
    s.runner.used.length ≤ s.ended.length + 1 := by
  unfold Stage at h
  split at h <;> omega

/-- The end of an attempt leaves the ids of the attempts before alone. -/
theorem previousOf_of_ended
    {id : Option TransactionId} {attempt : Nat}
    (hmux : q.isMuxEnabledForRW = s.isMuxEnabledForRW)
    (hended : q.ended = s.ended ++ [id])
    (hle : attempt ≤ s.ended.length) :
    q.previousOf attempt = s.previousOf attempt := by
  cases attempt with
  | zero => rfl
  | succ attempt =>
      rw [previousOf, previousOf, hmux, hended,
        List.getElem?_append_left (Nat.lt_of_succ_le hle)]

theorem Chain.nextTransaction_beginPrevious
    (h : Chain s) :
    s.nextTransaction.beginPrevious = s.previousOf s.ended.length := by
  change
    (if s.isMuxEnabledForRW then s.multiplexedSessionPreviousTransactionId
      else none) = _
  rw [h.previous, List.getLast?_eq_getElem?]
  cases hlength : s.ended.length with
  | zero => simp [previousOf, List.eq_nil_of_length_eq_zero hlength]
  | succ attempt => rfl

/-- All that a step of a transaction sends carries the id. -/
theorem beginsSent_eq
    {previous : Option TransactionId} {inline : Bool}
    {p t : Transaction}
    (ht : t.BeginsWith previous inline) :
    ∀ x ∈ beginsSent p t, x = previous := by
  intro x hx
  rcases List.mem_append.mp hx with hx | hx
  · obtain ⟨r, hr, hbegin⟩ := List.mem_filterMap.mp hx
    have hcarries := ht.requests r (List.mem_of_mem_drop hr)
    unfold Selector.begin? at hbegin
    split at hbegin
    · rename_i carried heq
      obtain rfl := Option.some.inj hbegin
      exact (hcarries carried heq).2
    · cases hbegin
  · split at hx
    · obtain rfl := List.mem_singleton.mp hx
      exact ht.begins_eq
    · cases hx

/-- Something happens to a transaction that the function has seen. -/
theorem Chain.atTransaction
    {attempt : Nat} {e : Transaction.Event}
    (h : Chain s)
    (hlt : attempt < s.runner.used.length)
    (hstep : s.atTransaction attempt e = some q) :
    Chain q := by
  unfold ChainedRunner.atTransaction at hstep
  split at hstep
  · cases hstep
  · rename_i p hp
    obtain ⟨t, ht, rfl⟩ := Option.map_eq_some_iff.mp hstep
    have hbegins := Transaction.step_beginsWith (h.seen attempt p hlt hp) ht
    have hle : attempt ≤ s.ended.length :=
      Nat.le_of_lt_succ (Nat.lt_of_lt_of_le hlt h.stage.used_le)
    refine
      { attempted := h.attempted
        stage := ?_
        previous := h.previous
        seen := ?_
        begins := ?_
        known := h.known }
    · have hstage := h.stage
      unfold Stage at hstage ⊢
      dsimp only
      split at hstage
      · simpa using hstage
      · obtain ⟨hlength, hused, hlast⟩ := hstage
        refine ⟨by simpa using hlength, hused, ?_⟩
        rw [List.getLast?_eq_getElem?] at hlast ⊢
        rw [List.length_set, List.getElem?_set_ne (by omega)]
        exact hlast
      · simpa using hstage
      · exact hstage
      · exact hstage
    · intro k u hk hu
      rcases getElem?_set_some hu with ⟨rfl, rfl⟩ | ⟨-, hu⟩
      · exact hbegins
      · exact h.seen k u hk hu
    · intro x hx
      rcases List.mem_append.mp hx with hx | hx
      · exact h.begins x hx
      · obtain ⟨previous, hprevious, rfl⟩ := List.mem_map.mp hx
        exact ⟨hle, beginsSent_eq hbegins previous hprevious⟩

/-- What a runner does between the answers to its begin requests. -/
inductive RunnerMoves
    (r x : Runner) : Prop where
  | runs {t u : ReadWriteTransaction}
      (hphase : r.phase = .running t)
      (hnext : x.phase = .running u)
  | ends {t : ReadWriteTransaction}
      (hphase : r.phase = .running t)
      (hrunning : ∀ u, x.phase ≠ .running u)
      (hbeginning : ∀ u, x.phase ≠ .beginning u)
  | begins {delay : Rat} {u : ReadWriteTransaction}
      (hphase : r.phase = .sleeping delay)
      (hnext : x.phase = .beginning u)
  | stops {delay : Rat} {rejection : Rejection}
      (hphase : r.phase = .sleeping delay)
      (hnext : x.phase = .rejected rejection)

theorem attemptFailed_moves
    {r : Runner} {t : ReadWriteTransaction}
    (hphase : r.phase = .running t)
    (f : Failure) :
    RunnerMoves r (r.attemptFailed f) ∧
      (r.attemptFailed f).used = r.used := by
  refine
    ⟨.ends hphase (attemptFailed_not_running r f) fun u => ?_,
      (attemptFailed_kept r f).1⟩
  rcases attemptFailed_phase r f with
    ⟨-, hnext⟩ | ⟨-, -, hnext⟩ | ⟨-, -, -, delay, hnext⟩ <;> simp [hnext]

theorem intercept_moves
    {r : Runner} {t : ReadWriteTransaction}
    (hphase : r.phase = .running t)
    (f : Failure) :
    RunnerMoves r (r.intercept f) ∧ (r.intercept f).used = r.used := by
  rw [intercept_eq]
  split
  · exact attemptFailed_moves hphase f
  · exact ⟨.runs hphase hphase, rfl⟩

theorem moves_of_runner
    {r x : Runner} {e : Event}
    (hattempted : Attempted r)
    (hbegin : ∀ failure, e ≠ .beginSettled failure)
    (hstep : TransactionRunner.step r e = some x) :
    RunnerMoves r x ∧ x.used = r.used := by
  cases steps_of_step hstep with
  | requestFailed f hphase => exact intercept_moves hphase f
  | streamFailed f hphase => exact intercept_moves hphase f
  | transactionEnded hphase => exact ⟨.ends hphase (by simp) (by simp), rfl⟩
  | transactionEndedUnheard hphase => exact ⟨.runs hphase hphase, rfl⟩
  | returned hphase => exact ⟨.ends hphase (by simp) (by simp), rfl⟩
  | returnedUnheard hphase => exact ⟨.runs hphase hphase, rfl⟩
  | threw f hphase => exact attemptFailed_moves hphase f
  | begun => exact absurd rfl (hbegin none)
  | beginFailed f => exact absurd rfl (hbegin (some f))
  | woken now hphase =>
      rcases loop_again_cases (hattempted _ hphase) now with
        ⟨u, hloop⟩ | hloop
      · rw [hloop]
        exact ⟨.begins hphase rfl, rfl⟩
      · rw [hloop]
        exact ⟨.stops hphase rfl, rfl⟩

/-- The attempt ends, with the id that its transaction then has. -/
theorem Chain.attemptEnded
    {r : Runner} {t : ReadWriteTransaction}
    (h : Chain s)
    (hphase : s.runner.phase = .running t)
    (hattempted : Attempted r)
    (hrunning : ∀ u, r.phase ≠ .running u)
    (hbeginning : ∀ u, r.phase ≠ .beginning u)
    (hused : r.used = s.runner.used)
    {id : Option TransactionId}
    (hid : id = s.transactions.getLast?.bind fun p => p.id) :
    Chain
      { s with
        runner := r
        multiplexedSessionPreviousTransactionId := id
        ended := s.ended ++ [id] } := by
  have hstage := h.stage
  unfold Stage at hstage
  rw [hphase] at hstage
  obtain ⟨hlength, hlengthUsed⟩ := hstage
  have hkept {attempt : Nat} (hle : attempt ≤ s.ended.length) :
      previousOf
          { s with
            runner := r
            multiplexedSessionPreviousTransactionId := id
            ended := s.ended ++ [id] }
          attempt =
        s.previousOf attempt :=
    previousOf_of_ended rfl rfl hle
  refine
    { attempted := hattempted
      stage := ?_
      previous := by simp
      seen := ?_
      begins := ?_
      known := ?_ }
  · unfold Stage
    dsimp only
    rw [hused]
    cases hnext : r.phase with
    | beginning u => exact absurd hnext (hbeginning u)
    | running u => exact absurd hnext (hrunning u)
    | sleeping delay => simp [hlength, hlengthUsed]
    | resolved => simp [hlengthUsed]
    | rejected rejection => simp [hlengthUsed]
  · intro attempt p hlt hp
    change attempt < r.used.length at hlt
    rw [hused] at hlt
    rw [hkept (by omega)]
    exact h.seen attempt p hlt hp
  · intro x hx
    obtain ⟨hle, heq⟩ := h.begins x hx
    rw [hkept hle]
    exact ⟨by simpa using Nat.le_succ_of_le hle, heq⟩
  · intro attempt id' hid'
    rcases getElem?_snoc_some hid' with ⟨hlast, rfl⟩ | ⟨-, hid'⟩
    · -- A transaction that may not be begun by its statements has an id.
      obtain ⟨p, hp⟩ : ∃ p, s.transactions[attempt + 1]? = some p :=
        ⟨_, List.getElem?_eq_getElem (by omega)⟩
      have hnewest : s.transactions.getLast? = some p := by
        rw [List.getLast?_eq_getElem?, ← hp]
        congr 1
        omega
      have hseen := h.seen (attempt + 1) p (by omega) hp
      rw [hid, hnewest, Option.bind_some, Option.isSome_iff_ne_none]
      intro hnone
      cases hseen.unknown hnone
    · exact h.known attempt id' hid'

/-- The runner begins the transaction of the next attempt. -/
theorem Chain.attemptBegins
    {r : Runner} {delay : Rat} {t : ReadWriteTransaction}
    (h : Chain s)
    (hphase : s.runner.phase = .sleeping delay)
    (hnext : r.phase = .beginning t)
    (hused : r.used = s.runner.used) :
    Chain
      { s with
        runner := r
        transactions := s.transactions ++ [s.nextTransaction.begin]
        begins :=
          s.begins ++
            [(s.transactions.length, s.nextTransaction.beginPrevious)] } := by
  have hstage := h.stage
  unfold Stage at hstage
  rw [hphase] at hstage
  obtain ⟨hlength, hlengthUsed⟩ := hstage
  refine
    { attempted := attempted_of_phase (by simp [hnext])
      stage := ?_
      previous := h.previous
      seen := ?_
      begins := ?_
      known := h.known }
  · unfold Stage
    dsimp only
    rw [hnext, hused]
    refine ⟨by simp [hlength], hlengthUsed, ?_⟩
    rw [List.getLast?_append, List.getLast?_singleton]
    rfl
  · intro attempt p hlt hp
    change attempt < r.used.length at hlt
    rw [hused] at hlt
    rcases getElem?_snoc_some hp with ⟨heq, -⟩ | ⟨-, hp⟩
    · omega
    · exact h.seen attempt p hlt hp
  · intro x hx
    rcases List.mem_append.mp hx with hx | hx
    · exact h.begins x hx
    · obtain rfl := List.mem_singleton.mp hx
      refine ⟨Nat.le_of_eq hlength, ?_⟩
      change s.nextTransaction.beginPrevious = s.previousOf s.transactions.length
      rw [h.nextTransaction_beginPrevious, hlength]

/-- An event of the runner alone. -/
theorem Chain.follow
    {r : Runner}
    (h : Chain s)
    (hattempted : Attempted r)
    (hmoves : RunnerMoves s.runner r)
    (hused : r.used = s.runner.used) :
    Chain (s.follow r) := by
  cases hmoves with
  | @runs t u hphase hnext =>
      have heq : s.follow r = { s with runner := r } := by
        simp [ChainedRunner.follow, hphase, hnext]
      rw [heq]
      have hstage := h.stage
      unfold Stage at hstage
      rw [hphase] at hstage
      refine { h with attempted := hattempted, stage := ?_, seen := ?_ }
      · unfold Stage
        dsimp only
        rw [hnext, hused]
        exact hstage
      · intro attempt p hlt hp
        exact h.seen attempt p (hused ▸ hlt) hp
  | @ends t hphase hrunning hbeginning =>
      have heq :
          s.follow r =
            { s with
              runner := r
              multiplexedSessionPreviousTransactionId :=
                s.transactions.getLast?.bind fun t => t.id
              ended :=
                s.ended ++ [s.transactions.getLast?.bind fun t => t.id] } := by
        unfold ChainedRunner.follow
        rw [hphase]
        cases hnext : r.phase with
        | running u => exact absurd hnext (hrunning u)
        | _ => rfl
      rw [heq]
      exact
        h.attemptEnded hphase hattempted hrunning hbeginning hused rfl
  | @begins delay t hphase hnext =>
      have heq :
          s.follow r =
            { s with
              runner := r
              transactions := s.transactions ++ [s.nextTransaction.begin]
              begins :=
                s.begins ++
                  [(s.transactions.length,
                    s.nextTransaction.beginPrevious)] } := by
        simp [ChainedRunner.follow, hphase, hnext]
      rw [heq]
      exact h.attemptBegins hphase hnext hused
  | @stops delay rejection hphase hnext =>
      have heq : s.follow r = { s with runner := r } := by
        simp [ChainedRunner.follow, hphase, hnext]
      rw [heq]
      have hle := h.stage.used_le
      refine { h with attempted := hattempted, stage := ?_, seen := ?_ }
      · unfold Stage
        dsimp only
        rw [hnext, hused]
        exact hle
      · intro attempt p hlt hp
        exact h.seen attempt p (hused ▸ hlt) hp

/-- The transaction being begun is the newest. -/
theorem Chain.newest
    {t : ReadWriteTransaction}
    (h : Chain s)
    (hphase : s.runner.phase = .beginning t) :
    s.transactions.length - 1 = s.ended.length ∧
      s.runner.used.length = s.ended.length ∧
      s.transactions[s.transactions.length - 1]? =
        some s.nextTransaction.begin := by
  have hstage := h.stage
  unfold Stage at hstage
  rw [hphase] at hstage
  obtain ⟨hlength, hused, hlast⟩ := hstage
  rw [List.getLast?_eq_getElem?] at hlast
  exact ⟨by omega, hused, hlast⟩

/-- The requests sent when the begin request of the runner is answered. -/
theorem Chain.begins_answered
    {t : ReadWriteTransaction} {p : Transaction} {inline : Bool}
    (h : Chain s)
    (hphase : s.runner.phase = .beginning t)
    (hp : p.BeginsWith s.nextTransaction.beginPrevious inline) :
    ∀ x ∈
        s.begins ++
          (beginsSent s.nextTransaction.begin p).map fun previous =>
            (s.transactions.length - 1, previous),
      x.1 ≤ s.ended.length ∧ x.2 = s.previousOf x.1 := by
  intro x hx
  rcases List.mem_append.mp hx with hx | hx
  · exact h.begins x hx
  · obtain ⟨previous, hprevious, rfl⟩ := List.mem_map.mp hx
    obtain ⟨hlength, -, -⟩ := h.newest hphase
    refine ⟨Nat.le_of_eq hlength, ?_⟩
    change previous = s.previousOf (s.transactions.length - 1)
    rw [hlength, ← h.nextTransaction_beginPrevious]
    exact beginsSent_eq hp previous hprevious

/-- The function gets a transaction that has been begun. -/
theorem Chain.attemptBegun
    {t : ReadWriteTransaction} {p : Transaction}
    (h : Chain s)
    (hphase : s.runner.phase = .beginning t)
    (hp : ∀ inline, p.BeginsWith s.nextTransaction.beginPrevious inline) :
    Chain
      { s with
        runner := s.runner.runAgainst t
        transactions := s.transactions.set (s.transactions.length - 1) p
        begins :=
          s.begins ++
            (beginsSent s.nextTransaction.begin p).map fun previous =>
              (s.transactions.length - 1, previous) } := by
  obtain ⟨hlength, hused, hnewest⟩ := h.newest hphase
  have hpos := (List.getElem?_eq_some_iff.mp hnewest).1
  refine
    { attempted := attempted_of_phase (by simp [Runner.runAgainst])
      stage := ?_
      previous := h.previous
      seen := ?_
      begins := h.begins_answered hphase (hp true)
      known := h.known }
  · change
      (s.transactions.set _ p).length = s.ended.length + 1 ∧
        (s.runner.used ++ [t]).length = s.ended.length + 1
    rw [List.length_set, List.length_append, hused]
    exact ⟨by omega, rfl⟩
  · intro attempt u hlt hu
    rcases getElem?_set_some hu with ⟨rfl, rfl⟩ | ⟨hne, hu⟩
    · change
        u.BeginsWith (s.previousOf (s.transactions.length - 1)) _
      rw [hlength, ← h.nextTransaction_beginPrevious]
      exact hp _
    · have hlt' : attempt < (s.runner.used ++ [t]).length := hlt
      rw [List.length_append, List.length_singleton] at hlt'
      exact h.seen attempt u (by omega) hu

/-- The transaction cannot be begun. -/
theorem Chain.attemptRejected
    {t : ReadWriteTransaction} {p : Transaction} {rejection : Rejection}
    (h : Chain s)
    (hphase : s.runner.phase = .beginning t)
    (hp : p.BeginsWith s.nextTransaction.beginPrevious true) :
    Chain
      { s with
        runner := { s.runner with phase := .rejected rejection }
        transactions := s.transactions.set (s.transactions.length - 1) p
        begins :=
          s.begins ++
            (beginsSent s.nextTransaction.begin p).map fun previous =>
              (s.transactions.length - 1, previous) } := by
  obtain ⟨hlength, hused, -⟩ := h.newest hphase
  refine
    { attempted := attempted_of_phase (by simp)
      stage := h.stage.used_le
      previous := h.previous
      seen := ?_
      begins := h.begins_answered hphase hp
      known := h.known }
  intro attempt u hlt hu
  have hlt' : attempt < s.runner.used.length := hlt
  rcases getElem?_set_some hu with ⟨rfl, -⟩ | ⟨-, hu⟩
  · omega
  · exact h.seen attempt u hlt hu

theorem step_chain
    {e : ChainedEvent}
    (h : Chain s)
    (hstep : step s e = some q) :
    Chain q := by
  cases e with
  | runner e =>
      have hbegin : ∀ failure, e ≠ .beginSettled failure := by
        rintro failure rfl
        cases hstep
      have hmap : (TransactionRunner.step s.runner e).map s.follow = some q := by
        cases e with
        | beginSettled failure => exact absurd rfl (hbegin failure)
        | _ => exact hstep
      obtain ⟨r, hr, rfl⟩ := Option.map_eq_some_iff.mp hmap
      obtain ⟨hmoves, hused⟩ := moves_of_runner h.attempted hbegin hr
      exact h.follow (attempted_step h.attempted hr) hmoves hused
  | transaction attempt e =>
      simp only [step] at hstep
      split at hstep
      · rename_i hlt
        exact h.atTransaction hlt hstep
      · cases hstep
  | begun id precommitToken =>
      simp only [step] at hstep
      split at hstep
      · cases hstep
      · rename_i r hr
        cases steps_of_step hr with
        | begun hphase =>
            obtain ⟨-, -, hnewest⟩ := h.newest hphase
            simp only [ChainedRunner.atTransaction, hnewest] at hstep
            obtain ⟨p, hp, rfl⟩ := Option.map_eq_some_iff.mp hstep
            exact
              h.attemptBegun hphase fun inline =>
                Transaction.step_onBegin_new hp
  | beginFailed failure =>
      simp only [step] at hstep
      split at hstep
      · cases hstep
      · rename_i r hr
        cases steps_of_step hr with
        | beginFailed f hphase =>
            obtain ⟨-, -, hnewest⟩ := h.newest hphase
            simp only [ChainedRunner.atTransaction, hnewest] at hstep
            obtain ⟨p, hp, rfl⟩ := Option.map_eq_some_iff.mp hstep
            have hnew :=
              Transaction.new_beginsWith s.isMuxEnabledForRW
                s.multiplexedSessionPreviousTransactionId false
            have hbegun :
                s.nextTransaction.begin.BeginsWith
                  s.nextTransaction.beginPrevious true :=
              { hnew with }
            exact
              h.attemptRejected hphase
                (Transaction.step_beginsWith hbegun hp)

theorem begun_chain
    (isMuxEnabledForRW : Bool)
    (mode : Mode) (spanner : DefaultTransactionOptions)
    (options : RunTransactionOptions)
    (random : Nat → Nat) (start : Int) :
    Chain (begun isMuxEnabledForRW mode spanner options random start) where
  attempted := attempted_of_phase (by simp [begun, Runner.begun])
  stage := ⟨rfl, rfl⟩
  previous := rfl
  seen := by
    intro attempt p hlt hp
    obtain rfl : attempt = 0 := Nat.lt_one_iff.mp hlt
    obtain rfl := Option.some.inj hp
    have hnew := Transaction.new_beginsWith isMuxEnabledForRW none true
    rw [ite_self] at hnew
    exact hnew
  begins := fun _ hx => absurd hx List.not_mem_nil
  known := fun _ _ hid => by cases hid

/-- What the backend learns of the attempts of a runner. -/
structure Chained
    (s : ChainedRunner) : Prop where
  /-- Every request that begins a transaction carries the id that the attempt before
  has ended with, and none in the first attempt. -/
  begins : ∀ x ∈ s.begins, x.2 = s.previousOf x.1
  /-- Only the requests of the first attempt begin its transaction inline. -/
  inline :
    ∀ attempt p, attempt + 1 < s.runner.used.length →
      s.transactions[attempt + 1]? = some p →
        ∀ r ∈ p.requests, r.isBegin = false
  /-- Only the first attempt can end without an id. -/
  known :
    ∀ attempt id, s.ended[attempt + 1]? = some id → id.isSome = true

theorem Chain.chained
    (h : Chain s) :
    Chained s where
  begins := fun x hx => (h.begins x hx).2
  inline := by
    intro attempt p hlt hp r hr
    have hcarries := (h.seen (attempt + 1) p hlt hp).requests r hr
    unfold Request.isBegin Selector.isBegin
    split
    · rename_i carried heq
      cases (hcarries carried heq).1
    · rfl
  known := h.known

/-- In every run the attempts of a runner form a chain. -/
theorem attempts_chained
    (isMuxEnabledForRW : Bool)
    (mode : Mode) (spanner : DefaultTransactionOptions)
    (options : RunTransactionOptions)
    (random : Nat → Nat) (start : Int)
    (es : List ChainedEvent) (s : ChainedRunner)
    (hrun :
      run step (begun isMuxEnabledForRW mode spanner options random start)
        es = some s) :
    Chained s :=
  (run_invariant
    (I := Chain)
    (fun _ _ _ h hstep => step_chain h hstep)
    (begun_chain isMuxEnabledForRW mode spanner options random start)
    hrun).chained

/-- Three attempts; the first begins its transaction inline and is heard of again
while the second runs. -/
def abortedTwice : List ChainedEvent :=
  let aborted : Failure := { error := ⟨some .ABORTED, "aborted"⟩ }
  [.transaction 0 (.runStream true), .transaction 0 (.reading 0),
    .transaction 0 (.response 0 (some 5) none),
    .runner (.requestFailed aborted), .runner (.woken 2000), .begun 6 none,
    .transaction 0 (.interrupted 0), .transaction 1 .createReadStream,
    .transaction 1 (.reading 0), .transaction 0 (.retry 0 none),
    .runner (.requestFailed aborted), .runner (.woken 6000), .begun 7 none]

theorem attempts_chained_abortedTwice :
    ∃ s,
      run step (begun true .callback {} {} (fun _ => 0) 0) abortedTwice =
          some s ∧
        s.begins = [(0, none), (1, some 5), (2, some 6)] ∧ Chained s := by
  obtain ⟨s, hrun, hbegins⟩ :
      ∃ s,
        run step (begun true .callback {} {} (fun _ => 0) 0) abortedTwice =
            some s ∧
          s.begins = [(0, none), (1, some 5), (2, some 6)] :=
    ⟨_, rfl, rfl⟩
  exact
    ⟨s, hrun, hbegins,
      attempts_chained true .callback {} {} (fun _ => 0) 0 abortedTwice s
        hrun⟩

end ChainedRunner

end TransactionRunner
end SpannerClient
