import SpannerClient.SessionPool.Partition

/-!
# Suspended acquires and what can wake them

An acquire suspended in `_getSession` is woken by a session becoming available or
by a failed creation.  `Wakeable` says that one of the two can still happen: some
creation is pending, or the pool is at its maximum with every session lent, so
that a release or the end of a ping brings a session back.

The pool also shrinks without telling the waiter, when a borrowed session is
dropped instead of being returned (`dropsSession`).  These are the only steps that
can break `Wakeable`, and `step_wakeable_iff` says exactly when they do, with one
lemma for each event.

The main result, `wakeable_iff_never_strands`, is the same for whole runs.
-/

namespace SpannerClient
namespace SessionPool

open Machine

variable {σ : Type} [DecidableEq σ]
variable {options : SessionPoolOptions} {p q t : Pool σ}

namespace Pool

/-- An acquire is suspended in `_getSession` and not yet woken. -/
def waiting
    (p : Pool σ) : Bool :=
  match p.current with
  | some (_, .waiting) => true
  | _ => false

/-- A suspended acquire waits for a pending creation, or for a borrowed session
of a pool at its maximum. -/
def Wakeable
    (options : SessionPoolOptions) (p : Pool σ) : Prop :=
  p.waiting = true →
    0 < p.pending ∨
      (p.sessions = [] ∧ p.borrowed.length = options.max)

/-- The event takes a borrowed session out of the pool: a release, or the end of
a ping, of a session whose last error is `Session not found`, or a failed ping. -/
def dropsSession
    (p : Pool σ) : Event σ → Bool
  | .release _ s =>
      decide (s ∈ p.borrowed) && isSessionNotFoundError (p.lastError s)
  | .pingSucceeded _ s => isSessionNotFoundError (p.lastError s)
  | .pingFailed _ _ => true
  | _ => false

/-- The event drops a session while an acquire is suspended and no session is
being created. -/
def strandsWaiter
    (p : Pool σ) (e : Event σ) : Bool :=
  p.waiting && decide (p.pending = 0) && p.dropsSession e

end Pool

section

omit [DecidableEq σ]

theorem wakeable_of_not_waiting
    (h : p.waiting = false) :
    p.Wakeable options := by
  intro hwaiting
  rw [h] at hwaiting
  cases hwaiting

/-- A step that leaves the acquire and the sessions alone. -/
theorem wakeable_of_frame
    (h : p.Wakeable options)
    (hcurrent : q.current = p.current)
    (hpending : p.pending ≤ q.pending)
    (hsessions : q.sessions.Sublist p.sessions)
    (hborrowed : q.borrowed = p.borrowed) :
    q.Wakeable options := by
  intro hwaiting
  have hwaiting' : p.waiting = true := by
    simpa [Pool.waiting, hcurrent] using hwaiting
  rcases h hwaiting' with hpos | ⟨hempty, hfull⟩
  · exact Or.inl (by omega)
  · rw [hempty] at hsessions
    rw [hborrowed]
    exact Or.inr ⟨List.sublist_nil.mp hsessions, hfull⟩

theorem wakeable_of_same
    (h : p.Wakeable options)
    (hcurrent : q.current = p.current)
    (hpending : q.pending = p.pending)
    (hsessions : q.sessions = p.sessions)
    (hborrowed : q.borrowed = p.borrowed) :
    q.Wakeable options :=
  wakeable_of_frame h hcurrent hpending.ge
    (hsessions ▸ List.Sublist.refl _) hborrowed

theorem waiting_wake
    (p : Pool σ) (result : Except (AcquireError σ) Unit) :
    (p.wake result).waiting = false := by
  rw [Pool.waiting, Pool.wake]
  rcases hcur : p.current with _ | ⟨a, phase⟩
  · rfl
  · cases phase <;> rfl

/-- A waiting acquire has found no idle session. -/
theorem sessions_of_waiting
    (hinv : Inv options p)
    (hwaiting : p.waiting = true) :
    p.sessions = [] := by
  have hphase := hinv.phase
  unfold Pool.phaseOk at hphase
  unfold Pool.waiting at hwaiting
  split at hwaiting
  · rename_i hcur
    simp only [hcur] at hphase
    exact hphase.2
  · cases hwaiting

/-- `_getSession` asks for at least one session when there is room. -/
theorem createAmount_pos
    (hroom : p.size < options.max) :
    0 < p.createAmount options := by
  have hdefault : defaults.incStep = 25 := rfl
  unfold Pool.createAmount
  dsimp only
  split <;> split <;> omega

theorem createSessions_pending_le
    (p : Pool σ) (amount : Int) :
    p.pending ≤ (p.createSessions amount).pending := by
  rw [Pool.createSessions]
  split
  · exact Int.le_refl _
  · change p.pending ≤ p.pending + amount
    omega

theorem createSessions_pending_pos
    (hinv : Inv options p)
    {amount : Int}
    (hamount : 0 < amount) :
    0 < (p.createSessions amount).pending := by
  have hpending := hinv.pending_nonneg
  rw [Pool.createSessions]
  rw [if_neg (by omega)]
  change 0 < p.pending + amount
  omega

@[simp] theorem createSessions_borrowed
    (p : Pool σ) (amount : Int) :
    (p.createSessions amount).borrowed = p.borrowed := by
  rw [Pool.createSessions]
  split <;> rfl

theorem fill_wakeable
    (h : p.Wakeable options) :
    (p.fill options).Wakeable options := by
  unfold Pool.fill
  dsimp only
  split
  · exact h
  · exact
      wakeable_of_frame h (by simp) (createSessions_pending_le p _)
        (by simp) (by simp)

end

theorem evictLoop_wakeable
    (size : Int) (count : Nat) (evicted : Int) (idle : List σ)
    (h : p.Wakeable options) :
    (Pool.evictLoop options size count evicted idle p).Wakeable options := by
  obtain ⟨sessions, requests, deletes, hsub, heq⟩ :=
    evictLoop_frame options size count evicted idle p
  rw [heq]
  exact wakeable_of_frame h rfl (Int.le_refl _) hsub rfl

theorem pings_current
    (round : Nat) (idle : List σ) (p : Pool σ) :
    (idle.foldl (Pool.ping round) p).current = p.current := by
  obtain ⟨sessions, borrowed, pings, heq⟩ := pings_frame round idle p
  rw [heq]

theorem pingIdleSessions_wakeable
    (hinv : Inv options p)
    (h : p.Wakeable options) :
    (p.pingIdleSessions options).Wakeable options := by
  by_cases hwaiting : p.waiting = true
  · -- There is no idle session to ping.
    have hempty := sessions_of_waiting hinv hwaiting
    have hidle : p.getIdleSessions options = [] := by
      simp [Pool.getIdleSessions, hempty]
    rw [Pool.pingIdleSessions]
    unfold Pool.getIdleSessions at hidle
    rw [Pool.getIdleSessions]
    dsimp only
    rw [hidle]
    exact wakeable_of_same h rfl rfl rfl rfl
  · refine wakeable_of_not_waiting ?_
    have hcurrent :
        (p.pingIdleSessions options).current = p.current :=
      pings_current _ _ _
    simpa [Pool.waiting, hcurrent] using hwaiting

omit [DecidableEq σ] in
/-- Whoever starts to wait has created a session, or found the pool full. -/
theorem createForWaiter_wakes
    (hinv : Inv options p)
    (hempty : p.sessions = [])
    (hwaiters : p.waiters = 0) :
    0 < (p.createForWaiter options).pending ∨
      (p.createForWaiter options).sessions = [] ∧
        (p.createForWaiter options).borrowed.length = options.max := by
  have hpending := hinv.pending_nonneg
  have hcapacity := hinv.capacity
  by_cases hpos : 0 < p.pending
  · left
    rcases createForWaiter_cases options p with heq | heq
    · rw [heq]
      exact hpos
    · rw [heq]
      have hle := createSessions_pending_le p (p.createAmount options)
      omega
  · by_cases hroom : p.size < options.max
    · left
      have hamount := createAmount_pos hroom
      have hguard :
          (!p.isFull options && decide (p.pending ≤ p.waiters)) = true := by
        simp only [Pool.isFull, Bool.and_eq_true, Bool.not_eq_true',
          decide_eq_false_iff_not, decide_eq_true_eq]
        omega
      have hsame :
          { p with
            pending :=
              p.pending + p.createAmount options -
                p.createAmount options } = p := by
        simp
      rw [Pool.createForWaiter]
      rw [if_pos hguard]
      dsimp only
      rw [if_pos hamount, hsame]
      exact createSessions_pending_pos hinv hamount
    · right
      have hfull : p.isFull options = true := by
        simp only [Pool.isFull, decide_eq_true_eq]
        omega
      have hself : p.createForWaiter options = p := by
        rw [Pool.createForWaiter]
        simp [hfull]
      rw [hself]
      refine ⟨hempty, ?_⟩
      simp only [Pool.size, hempty, List.length_nil] at hroom hcapacity
      omega

theorem attempt_wakeable
    (hinv : Inv options p)
    (hfail : options.fail = false)
    (hwaiters : p.waiters = 0)
    (a : Acquire) :
    (p.attempt options a).Wakeable options := by
  rw [Pool.attempt]
  split
  · exact wakeable_of_not_waiting rfl
  · rw [Pool.getSession]
    split
    · exact wakeable_of_not_waiting rfl
    · rename_i hlen
      have hempty : p.sessions = [] := by
        simpa using hlen
      rw [if_neg (by simp [hfail])]
      intro _
      exact createForWaiter_wakes hinv hempty hwaiters

theorem resumeWaiter_not_waiting
    (p : Pool σ) (a : Acquire)
    (result : Except (AcquireError σ) Unit) :
    (p.resumeWaiter a result).waiting = false := by
  unfold Pool.resumeWaiter
  cases result <;> rfl

theorem checkSession_wakeable
    (hinv : Inv options p)
    (hfail : options.fail = false)
    {a : Acquire} {s : Option σ}
    (hcur : p.current = some (a, .returned s)) :
    (p.checkSession options a s).Wakeable options := by
  have hphase := hinv.phase
  unfold Pool.phaseOk at hphase
  simp only [hcur] at hphase
  cases s with
  | none =>
      exact wakeable_of_not_waiting rfl
  | some s =>
      simp only [Pool.checkSession]
      split
      · exact wakeable_of_not_waiting rfl
      · have hdrop :
            Inv options
              { p with
                borrowed := p.borrowed.erase s
                current := none } :=
          hinv.mono
            (List.Sublist.append_left
              (List.erase_sublist.append_right _) _).subperm
            rfl rfl (fun _ ht => ht) rfl rfl hphase.1
        exact attempt_wakeable hdrop hfail hphase.1 a

/-- A returned session wakes the waiter; a dead one is dropped in silence. -/
theorem release_cases
    {s : σ}
    (hs : s ∈ p.borrowed) :
    (isSessionNotFoundError (p.lastError s) = true ∧
        (p.release s).2.current = p.current ∧
        (p.release s).2.pending = p.pending ∧
        (p.release s).2.borrowed = p.borrowed.erase s) ∨
      (isSessionNotFoundError (p.lastError s) = false ∧
        (p.release s).2.waiting = false) := by
  rw [Pool.release]
  rw [if_neg (by simpa using hs)]
  dsimp only
  split
  · rename_i hdead
    exact Or.inl ⟨hdead, rfl, rfl, rfl⟩
  · rename_i hdead
    exact Or.inr ⟨by simpa using hdead, waiting_wake _ _⟩

/-- Dropping a session strands the waiter of a full pool. -/
theorem drop_wakeable_iff
    (hinv : Inv options p)
    {s : σ}
    (hs : s ∈ p.borrowed)
    (hcurrent : q.current = p.current)
    (hpending : q.pending = p.pending)
    (hborrowed : q.borrowed = p.borrowed.erase s) :
    q.Wakeable options ↔
      ¬(p.waiting = true ∧ p.pending = 0) := by
  have hwaiting : q.waiting = p.waiting := by
    simp [Pool.waiting, hcurrent]
  have hcapacity := hinv.capacity
  have hnonneg := hinv.pending_nonneg
  have hlen : (p.borrowed.erase s).length + 1 = p.borrowed.length := by
    have hlt := List.length_pos_of_mem hs
    rw [List.length_erase_of_mem hs]
    omega
  unfold Pool.size at hcapacity
  constructor
  · rintro hq ⟨hwait, hzero⟩
    rcases hq (hwaiting.trans hwait) with hpos | ⟨-, hfull⟩
    · omega
    · rw [hborrowed] at hfull
      omega
  · intro hnot hwait
    rw [hwaiting] at hwait
    have hne : p.pending ≠ 0 := fun hzero => hnot ⟨hwait, hzero⟩
    exact Or.inl (by omega)

theorem strandsWaiter_iff
    {e : Event σ}
    (hdrops : p.dropsSession e = true) :
    p.strandsWaiter e = true ↔ p.waiting = true ∧ p.pending = 0 := by
  simp [Pool.strandsWaiter, hdrops]

theorem strandsWaiter_of_not_drops
    {e : Event σ}
    (hdrops : p.dropsSession e = false) :
    ¬p.strandsWaiter e = true := by
  simp [Pool.strandsWaiter, hdrops]

/-! ## The events -/

/-- The release of a dead session strands the waiter of a full pool. -/
theorem release_wakeable_iff
    (hinv : Inv options p)
    {s : σ}
    (hs : s ∈ p.borrowed) :
    (p.release s).2.Wakeable options ↔
      ¬(p.waiting = true ∧ p.pending = 0 ∧
        isSessionNotFoundError (p.lastError s) = true) := by
  rcases release_cases hs with
    ⟨hdead, hcurrent, hpending, hborrowed⟩ | ⟨halive, hwoken⟩
  · rw [drop_wakeable_iff hinv hs hcurrent hpending hborrowed]
    simp [hdead]
  · refine iff_of_true (wakeable_of_not_waiting hwoken) ?_
    simp [halive]

theorem strandsWaiter_release_iff
    (caller : Nat) {s : σ}
    (hs : s ∈ p.borrowed) :
    p.strandsWaiter (.release caller s) = true ↔
      p.waiting = true ∧ p.pending = 0 ∧
        isSessionNotFoundError (p.lastError s) = true := by
  simp [Pool.strandsWaiter, Pool.dropsSession, hs, and_assoc]

theorem strandsWaiter_pingSucceeded_iff
    (round : Nat) (s : σ) :
    p.strandsWaiter (.pingSucceeded round s) = true ↔
      p.waiting = true ∧ p.pending = 0 ∧
        isSessionNotFoundError (p.lastError s) = true := by
  simp [Pool.strandsWaiter, Pool.dropsSession, and_assoc]

/-- A successful ping releases its session. -/
theorem pingSucceeded_wakeable_iff
    (hinv : Inv options p) (howned : p.Owned)
    {round : Nat} {s : σ}
    (hping : (round, s) ∈ p.pings) :
    (Pool.pingSucceeded { p with pings := p.pings.erase (round, s) }
        round s).Wakeable options ↔
      ¬p.strandsWaiter (.pingSucceeded round s) = true := by
  have hs := mem_borrowed_of_ping howned hping
  have hrest : Inv options { p with pings := p.pings.erase (round, s) } :=
    hinv.same rfl hinv.phase
  rw [strandsWaiter_pingSucceeded_iff,
    pingSucceeded_of_mem round
      (p := { p with pings := p.pings.erase (round, s) }) hs]
  exact release_wakeable_iff hrest hs

/-- A failed ping drops its session. -/
theorem pingFailed_wakeable_iff
    (hinv : Inv options p) (howned : p.Owned)
    {round : Nat} {s : σ}
    (hping : (round, s) ∈ p.pings) :
    (Pool.pingFailed { p with pings := p.pings.erase (round, s) }
        round s).Wakeable options ↔
      ¬p.strandsWaiter (.pingFailed round s) = true := by
  have hdrops : p.dropsSession (.pingFailed round s) = true := rfl
  rw [strandsWaiter_iff hdrops]
  exact
    drop_wakeable_iff hinv (mem_borrowed_of_ping howned hping) rfl rfl rfl

omit [DecidableEq σ] in
theorem batchCreated_wakeable
    (h : p.Wakeable options)
    (i : Nat) (amount : Int) (sessions : List σ) :
    (p.batchCreated i amount sessions).Wakeable options := by
  rw [Pool.batchCreated]
  dsimp only
  split
  · exact wakeable_of_same h rfl rfl rfl rfl
  · exact wakeable_of_same h rfl rfl rfl rfl

/-- A fresh session has no last error, so its release wakes the waiter. -/
theorem deliver_wakeable
    (hinv : Inv options p)
    {s : σ} {rest : List σ}
    (himmediates : p.immediates = s :: rest) :
    (Pool.deliver { p with immediates := rest } s).Wakeable options := by
  have hfresh : p.lastError s = none := by
    refine hinv.fresh s (Or.inl ?_)
    rw [himmediates]
    exact List.mem_cons_self
  refine wakeable_of_not_waiting ?_
  rw [Pool.deliver]
  rcases release_cases
    (p :=
      { p with
        immediates := rest
        borrowed := setAdd p.borrowed s
        pending := p.pending - 1 })
    (s := s) (by simp) with
    ⟨hdead, -⟩ | ⟨-, hwoken⟩
  · rw [hfresh] at hdead
    cases hdead
  · exact hwoken

/-- A step breaks `Wakeable` exactly when it strands the waiter. -/
theorem step_wakeable_iff
    {e : Event σ}
    (hfail : options.fail = false)
    (hinv : Inv options p) (howned : p.Owned)
    (hclosing : p.closing = false)
    (hwakeable : p.Wakeable options)
    (hstep : step options p e = some t)
    (hopen : t.isOpen = true) :
    t.Wakeable options ↔ ¬p.strandsWaiter e = true := by
  have hkept :
      p.dropsSession e = false → t.Wakeable options →
        (t.Wakeable options ↔ ¬p.strandsWaiter e = true) :=
    fun hdrops ht => iff_of_true ht (strandsWaiter_of_not_drops hdrops)
  cases steps_of_step hstep with
  | acquire => exact hkept rfl (wakeable_of_same hwakeable rfl rfl rfl rfl)
  | acquireClosed => exact hkept rfl (wakeable_of_same hwakeable rfl rfl rfl rfl)
  | @startAcquire a rest hcur =>
      have hphase := hinv.phase
      unfold Pool.phaseOk at hphase
      rw [hcur] at hphase
      have hqueue : Inv options { p with queued := rest } :=
        hinv.same rfl hinv.phase
      exact hkept rfl (attempt_wakeable hqueue hfail hphase a)
  | acquireTimeout =>
      exact hkept rfl (wakeable_of_not_waiting (waiting_wake p _))
  | resumeWaiter =>
      exact hkept rfl
        (wakeable_of_not_waiting (resumeWaiter_not_waiting p _ _))
  | checkSession hcur =>
      exact hkept rfl (checkSession_wakeable hinv hfail hcur)
  | finishAcquire => exact hkept rfl (wakeable_of_same hwakeable rfl rfl rfl rfl)
  | @release caller s hheld hs =>
      rw [strandsWaiter_release_iff caller hs]
      exact release_wakeable_iff hinv hs
  | @releaseUnknown caller s hs =>
      have hdrops : p.dropsSession (.release caller s) = false := by
        simp [Pool.dropsSession, hs]
      exact hkept hdrops hwakeable
  | setLastError => exact hkept rfl (wakeable_of_same hwakeable rfl rfl rfl rfl)
  | batchCreated => exact hkept rfl (batchCreated_wakeable hwakeable _ _ _)
  | batchCreateFailed =>
      exact hkept rfl (wakeable_of_not_waiting (waiting_wake _ _))
  | deliver himmediates => exact hkept rfl (deliver_wakeable hinv himmediates)
  | fill => exact hkept rfl (fill_wakeable hwakeable)
  | evictIdleSessions =>
      exact hkept rfl (evictLoop_wakeable p.size _ 0 _ hwakeable)
  | pingIdleSessions =>
      exact hkept rfl (pingIdleSessions_wakeable hinv hwakeable)
  | pingSucceeded hping => exact pingSucceeded_wakeable_iff hinv howned hping
  | pingFailed hping => exact pingFailed_wakeable_iff hinv howned hping
  | pingsDone =>
      exact hkept rfl
        (fill_wakeable (wakeable_of_same hwakeable rfl rfl rfl rfl))
  | deleted => exact hkept rfl (wakeable_of_same hwakeable rfl rfl rfl rfl)
  | tick => exact hkept rfl (wakeable_of_same hwakeable rfl rfl rfl rfl)
  | close =>
      rw [(Prod.mk.inj (close_life p)).1] at hopen
      cases hopen
  | finishClose hclosed =>
      rw [hclosing] at hclosed
      cases hclosed

/-- Dropping a session does not close the pool. -/
theorem drops_life
    {e : Event σ}
    (hdrops : p.dropsSession e = true)
    (hstep : step options p e = some t) :
    t.life = p.life := by
  cases steps_of_step hstep with
  | release => exact release_life p _
  | releaseUnknown => rfl
  | pingSucceeded => exact pingSucceeded_life _ _ _
  | pingFailed => rfl
  | _ => cases hdrops

/-- Along a run of the pool, suspended acquires stay wakeable exactly as long as no
step strands one. -/
theorem wakeable_iff_never_strands
    (options : SessionPoolOptions) (es : List (Event σ)) (p : Pool σ)
    (hfail : options.fail = false)
    (hrun : runPool options es = some p) :
    Always (step options.construct)
        (fun q => q.isOpen = true → q.Wakeable options)
        (Pool.opened σ options.construct) es ↔
      Meets (step options.construct)
        (fun q e => q.isOpen = true → q.strandsWaiter e = false)
        (Pool.opened σ options.construct) es := by
  have hmin := construct_min_le options
  refine
    always_iff_meets
      (I := fun q => q.Good options.construct)
      (fun q e t hq hstep => step_good hmin hq hstep) ?_
      (opened_good hmin) ?_ hrun
  · intro q e t hgood hwakeable hstep
    by_cases hopen : t.isOpen = true
    · have hq := step_isOpen hstep hopen
      obtain ⟨hclosing, hinv, howned⟩ := hgood hq
      have hiff :=
        step_wakeable_iff (show options.construct.fail = false from hfail)
          hinv howned hclosing (hwakeable hq) hstep hopen
      rw [Bool.not_eq_true] at hiff
      constructor
      · exact fun ht _ => hiff.1 (ht hopen)
      · exact fun hnot _ => hiff.2 (hnot hq)
    · refine iff_of_true (fun ht => absurd ht hopen) ?_
      intro hq
      cases hdrops : q.dropsSession e with
      | false =>
          simpa using strandsWaiter_of_not_drops hdrops
      | true =>
          have hlife := drops_life hdrops hstep
          rw [(Prod.mk.inj hlife).1] at hopen
          exact absurd hq hopen
  · intro _
    apply wakeable_of_not_waiting
    rw [Pool.opened, Pool.fill]
    dsimp only
    split
    · rfl
    · simp [Pool.waiting, Pool.new]

/-- The pool's only session is lent, a second acquire waits, and the session turns
out to be dead. -/
def deadRelease : List (Event Nat) :=
  [.acquire 1, .startAcquire, .batchCreated 0 [0], .deliver, .resumeWaiter,
    .checkSession, .finishAcquire, .acquire 2, .startAcquire,
    .setLastError 1 0 sessionNotFound, .release 1 0]

/-- Nothing can wake the second acquire after the release. -/
theorem deadRelease_strands :
    ¬∀ (options : SessionPoolOptions) (es : List (Event Nat)) (p : Pool Nat),
        options.fail = false →
        runPool options es = some p → p.isOpen = true →
          p.Wakeable options := by
  intro h
  obtain ⟨p, hrun, hopen, hwaiting, hpending, hborrowed⟩ :
      ∃ p : Pool Nat,
        runPool { min := 0, max := 1 } deadRelease = some p ∧
          p.isOpen = true ∧ p.waiting = true ∧ p.pending = 0 ∧
            p.borrowed = [] :=
    ⟨_, rfl, rfl, rfl, rfl, rfl⟩
  rcases h _ _ p rfl hrun hopen hwaiting with hpos | hfull
  · omega
  · simp [hborrowed] at hfull

/-- A waiter of a full pool is woken by the release of a healthy session. -/
theorem wakeable_iff_never_strands_healthy :
    ∃ p : Pool Nat,
      runPool { min := 0, max := 1 }
          (deadRelease.take 9 ++ [.release 1 0]) = some p ∧
        (Always (step { min := 0, max := 1 })
            (fun q => q.isOpen = true → q.Wakeable { min := 0, max := 1 })
            (Pool.opened Nat { min := 0, max := 1 })
            (deadRelease.take 9 ++ [.release 1 0]) ↔
          Meets (step { min := 0, max := 1 })
            (fun q e => q.isOpen = true → q.strandsWaiter e = false)
            (Pool.opened Nat { min := 0, max := 1 })
            (deadRelease.take 9 ++ [.release 1 0])) := by
  obtain ⟨p, hrun⟩ :
      ∃ p : Pool Nat,
        runPool { min := 0, max := 1 }
          (deadRelease.take 9 ++ [.release 1 0]) = some p :=
    ⟨_, rfl⟩
  exact
    ⟨p, hrun,
      wakeable_iff_never_strands { min := 0, max := 1 } _ p rfl hrun⟩

end SessionPool
end SpannerClient
