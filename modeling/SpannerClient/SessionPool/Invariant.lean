import Mathlib.Algebra.Order.BigOperators.Group.List
import SpannerClient.SessionPool.Events

/-!
# The inductive invariant of an open session pool

A session the pool knows of is in exactly one of three places: idle, borrowed, or
handed to `setImmediate` by a creation loop.  `Inv` says this together with the
account of `_pending` and what is known at each suspension point of the acquire
that the queue runs; `Owned` says that the borrowed sessions are exactly the ones
some acquire, caller or ping is responsible for.

Each operation of the pool gets one lemma for each of the two, and every event
keeps both as long as the pool is open.

The two loops of the house-keeping have lemmas of their own, which all later modules
use: what they leave alone (`evictLoop_frame`, `pings_frame`), and what a round of
pings keeps when each of its pings does (`pings_keep`, `pingIdleSessions_keep`).
-/

namespace SpannerClient
namespace SessionPool

open Machine

variable {σ : Type}

namespace Pool

/-- The sessions the pool knows of. -/
def inventory
    (p : Pool σ) : List σ :=
  p.sessions ++ (p.borrowed ++ p.immediates)

/-- What is known of the waiters and the idle sessions at each suspension point
of the acquire that the queue runs. -/
def phaseOk
    (p : Pool σ) : Prop :=
  match p.current with
  | none => p.waiters = 0
  | some (_, .waiting) => p.waiters = 1 ∧ p.sessions = []
  | some (_, .woken (.ok _)) => p.waiters = 1 ∧ p.sessions ≠ []
  | some (_, .woken (.error _)) => p.waiters = 1
  | some (_, .returned s) => p.waiters = 0 ∧ s ≠ none

/-- The session `_getSession` has just returned. -/
def currentSession
    (p : Pool σ) : List σ :=
  match p.current with
  | some (_, .returned (some s)) => [s]
  | _ => []

/-- All that the invariant says about the pool but for the running acquire. -/
def books
    (p : Pool σ) :=
  (p.sessions, p.borrowed, p.immediates, p.created, p.lastError, p.creating,
    p.pending)

/-- The sessions someone is responsible for: the running acquire, an acquire
about to call back, a caller, or a ping. -/
def owners
    (p : Pool σ) : List σ :=
  p.currentSession ++
    (p.resolved.map Prod.snd ++
      (p.held.map Prod.snd ++ p.pings.map Prod.snd))

/-- Every borrowed session has exactly one owner. -/
def Owned
    (p : Pool σ) : Prop :=
  p.borrowed.Perm p.owners

end Pool

/-- The invariant of an open pool. -/
structure Inv
    (options : SessionPoolOptions) (p : Pool σ) : Prop where
  nodup : p.inventory.Nodup
  created : ∀ s ∈ p.inventory, s ∈ p.created
  fresh : ∀ s, s ∈ p.immediates ∨ s ∉ p.created → p.lastError s = none
  creating : ∀ amount ∈ p.creating, 0 < amount
  pending : p.pending = p.creating.sum + p.immediates.length
  capacity : p.size ≤ options.max
  phase : p.phaseOk

namespace Inv

variable {options : SessionPoolOptions} {p q : Pool σ}

theorem pending_nonneg
    (h : Inv options p) :
    0 ≤ p.pending := by
  have hsum : 0 ≤ p.creating.sum :=
    List.sum_nonneg fun a ha => (h.creating a ha).le
  rw [h.pending]
  omega

theorem not_mem_borrowed_of_mem_sessions
    (h : Inv options p)
    {s : σ}
    (hs : s ∈ p.sessions) :
    s ∉ p.borrowed := by
  have hdisj := (List.nodup_append.mp h.nodup).2.2
  intro hb
  exact hdisj s hs s (List.mem_append_left _ hb) rfl

theorem not_mem_immediates_of_mem_borrowed
    (h : Inv options p)
    {s : σ}
    (hs : s ∈ p.borrowed) :
    s ∉ p.immediates := by
  have hnodup := (List.nodup_append.mp h.nodup).2.1
  have hdisj := (List.nodup_append.mp hnodup).2.2
  intro himm
  exact hdisj s hs s himm rfl

/-- Operations that only move or drop known sessions keep the invariant. -/
theorem mono
    (h : Inv options p)
    (hinventory : q.inventory.Subperm p.inventory)
    (himmediates : q.immediates = p.immediates)
    (hcreated : q.created = p.created)
    (hlastError : ∀ s, p.lastError s = none → q.lastError s = none)
    (hcreating : q.creating = p.creating)
    (hpending : q.pending = p.pending)
    (hphase : q.phaseOk) :
    Inv options q where
  nodup := by
    obtain ⟨l, hperm, hsub⟩ := hinventory
    exact hperm.nodup_iff.mp (h.nodup.sublist hsub)
  created := by
    intro s hs
    rw [hcreated]
    exact h.created s (hinventory.subset hs)
  fresh := by
    intro s hs
    rw [himmediates, hcreated] at hs
    exact hlastError s (h.fresh s hs)
  creating := by
    rw [hcreating]
    exact h.creating
  pending := by
    rw [hpending, hcreating, himmediates]
    exact h.pending
  capacity := by
    have hlen := hinventory.length_le
    have hcap := h.capacity
    simp only [Pool.inventory, List.length_append, himmediates] at hlen
    simp only [Pool.size, hpending] at hcap ⊢
    omega
  phase := hphase

/-- Operations that leave the books alone keep the invariant. -/
theorem same
    (h : Inv options p)
    (hbooks : q.books = p.books)
    (hphase : q.phaseOk) :
    Inv options q := by
  simp only [Pool.books, Prod.mk.injEq] at hbooks
  obtain ⟨hsessions, hborrowed, himmediates, hcreated, hlastError, hcreating,
    hpending⟩ := hbooks
  have hinventory : q.inventory = p.inventory := by
    simp [Pool.inventory, hsessions, hborrowed, himmediates]
  exact
    h.mono (hinventory ▸ List.Subperm.refl _) himmediates hcreated
      (fun s hs => (congrFun hlastError s).trans hs) hcreating hpending
      hphase

end Inv

section Operations

variable [DecidableEq σ]
variable {options : SessionPoolOptions} {p : Pool σ}

/-- Moving a borrowed session to the idle ones keeps the inventory. -/
theorem inventory_move_idle
    {sessions borrowed immediates : List σ} {s : σ}
    (hs : s ∈ borrowed) :
    ((sessions ++ [s]) ++ (borrowed.erase s ++ immediates)).Perm
      (sessions ++ (borrowed ++ immediates)) := by
  have hb : (s :: borrowed.erase s).Perm borrowed :=
    (List.perm_cons_erase hs).symm
  have hrest := hb.append_right immediates
  simpa using hrest.append_left sessions

/-- Moving an idle session to the borrowed ones keeps the inventory. -/
theorem inventory_move_borrowed
    {idle rest borrowed immediates : List σ} {s : σ}
    (hidle : (s :: rest).Perm idle)
    (hs : s ∉ borrowed) :
    (rest ++ (setAdd borrowed s ++ immediates)).Perm
      (idle ++ (borrowed ++ immediates)) := by
  have hadd : (setAdd borrowed s ++ immediates).Perm
      (s :: (borrowed ++ immediates)) :=
    (setAdd_perm hs).append_right immediates
  calc
    (rest ++ (setAdd borrowed s ++ immediates)).Perm
        (rest ++ s :: (borrowed ++ immediates)) :=
      hadd.append_left rest
    _ |>.Perm (s :: (rest ++ (borrowed ++ immediates))) :=
      List.perm_middle
    _ |>.Perm (idle ++ (borrowed ++ immediates)) :=
      hidle.append_right _

theorem releaseIdle_phaseOk
    (h : p.phaseOk) (s : σ) :
    (p.releaseIdle s).phaseOk := by
  unfold Pool.phaseOk at h
  rw [Pool.phaseOk, Pool.releaseIdle, Pool.wake]
  rcases hcur : p.current with _ | ⟨a, phase⟩
  · simpa [hcur] using h
  · cases phase with
    | waiting =>
        simp only [hcur] at h
        simpa using h.1
    | woken result =>
        cases result <;> simp_all
    | returned s =>
        simpa [hcur] using h

/-- `release` of a borrowed session. -/
theorem release_inv
    (h : Inv options p)
    {s : σ}
    (hs : s ∈ p.borrowed) :
    Inv options (p.release s).2 := by
  rw [Pool.release]
  rw [if_neg (by simpa using hs)]
  dsimp only
  split
  · refine h.mono ?_ rfl rfl (fun _ ht => ht) rfl rfl h.phase
    exact
      (List.Sublist.append_left
        (List.erase_sublist.append_right _) _).subperm
  · refine h.mono ?_ rfl rfl ?_ rfl rfl ?_
    · exact (inventory_move_idle hs).subperm
    · intro t ht
      by_cases hts : t = s
      · subst hts
        simp [Pool.releaseIdle, Pool.wake]
      · simpa [Pool.releaseIdle, Pool.wake, Function.update_of_ne hts]
          using ht
    · exact releaseIdle_phaseOk h.phase s

/-- Borrowing the last idle session. -/
theorem borrowNext_inventory
    (h : Inv options p)
    {s : σ}
    (hs : p.sessions.getLast? = some s) :
    (p.sessions.dropLast ++
        (setAdd p.borrowed s ++ p.immediates)).Perm p.inventory := by
  have hmem : s ∈ p.sessions := List.mem_of_getLast? hs
  exact
    inventory_move_borrowed (dropLast_append_getLast_perm hs)
      (h.not_mem_borrowed_of_mem_sessions hmem)

/-- Borrowing an idle session for a ping. -/
theorem borrow_inventory
    (h : Inv options p)
    {s : σ}
    (hs : s ∈ p.sessions) :
    (p.borrow s).inventory.Perm p.inventory := by
  have hsplice : spliceOut p.sessions s = p.sessions.erase s :=
    spliceOut_of_mem hs
  rw [Pool.inventory, Pool.borrow]
  rw [hsplice]
  exact
    inventory_move_borrowed (List.perm_cons_erase hs).symm
      (h.not_mem_borrowed_of_mem_sessions hs)

section

omit [DecidableEq σ]

@[simp] theorem createSessions_sessions
    (p : Pool σ) (amount : Int) :
    (p.createSessions amount).sessions = p.sessions := by
  rw [Pool.createSessions]
  split <;> rfl

@[simp] theorem createSessions_waiters
    (p : Pool σ) (amount : Int) :
    (p.createSessions amount).waiters = p.waiters := by
  rw [Pool.createSessions]
  split <;> rfl

@[simp] theorem createSessions_current
    (p : Pool σ) (amount : Int) :
    (p.createSessions amount).current = p.current := by
  rw [Pool.createSessions]
  split <;> rfl

/-- `_createSessions` keeps the invariant if there is room. -/
theorem createSessions_inv
    (h : Inv options p)
    {amount : Int}
    (hroom : p.size + amount ≤ options.max) :
    Inv options (p.createSessions amount) := by
  rw [Pool.createSessions]
  split
  · exact h
  · rename_i hpos
    refine
      { nodup := h.nodup
        created := h.created
        fresh := h.fresh
        creating := ?_
        pending := ?_
        capacity := ?_
        phase := h.phase }
    · intro b hb
      rcases List.mem_append.mp hb with hb | hb
      · exact h.creating b hb
      · obtain rfl := List.mem_singleton.mp hb
        omega
    · have hp := h.pending
      simp only [List.sum_append, List.sum_cons, List.sum_nil]
      omega
    · simp only [Pool.size] at hroom ⊢
      omega

theorem fill_inv
    (h : Inv options p)
    (hmin : options.min ≤ options.max) :
    Inv options (p.fill options) := by
  unfold Pool.fill
  dsimp only
  split
  · exact h
  · exact createSessions_inv h (by omega)

/-- `_getSession` never asks for more than the room left. -/
theorem createAmount_le
    (options : SessionPoolOptions) (p : Pool σ) :
    p.size + p.createAmount options ≤ options.max := by
  unfold Pool.createAmount
  dsimp only
  split <;> split <;> omega

/-- The pending count is put back before the sessions are created. -/
theorem createForWaiter_cases
    (options : SessionPoolOptions) (p : Pool σ) :
    p.createForWaiter options = p ∨
      p.createForWaiter options =
        p.createSessions (p.createAmount options) := by
  have hsame :
      { p with
        pending :=
          p.pending + p.createAmount options -
            p.createAmount options } = p := by
    simp
  rw [Pool.createForWaiter]
  split
  · dsimp only
    split
    · rw [hsame]
      exact Or.inr rfl
    · exact Or.inl rfl
  · exact Or.inl rfl

theorem createForWaiter_inv
    (h : Inv options p) :
    Inv options (p.createForWaiter options) := by
  rcases createForWaiter_cases options p with heq | heq
  · rw [heq]
    exact h
  · rw [heq]
    exact createSessions_inv h (createAmount_le options p)

/-- The invariant does not look at the queue or the callbacks. -/
theorem reject_inv
    (h : Inv options p)
    (hwaiters : p.waiters = 0)
    (a : Acquire) (error : AcquireError σ) :
    Inv options (p.reject a error) :=
  h.same rfl hwaiters

theorem createForWaiter_sessions
    (options : SessionPoolOptions) (p : Pool σ) :
    (p.createForWaiter options).sessions = p.sessions := by
  rcases createForWaiter_cases options p with heq | heq <;> simp [heq]

theorem createForWaiter_waiters
    (options : SessionPoolOptions) (p : Pool σ) :
    (p.createForWaiter options).waiters = p.waiters := by
  rcases createForWaiter_cases options p with heq | heq <;> simp [heq]

theorem createForWaiter_current
    (options : SessionPoolOptions) (p : Pool σ) :
    (p.createForWaiter options).current = p.current := by
  rcases createForWaiter_cases options p with heq | heq <;> simp [heq]

end

/-- Taking the next idle session for the running acquire. -/
theorem takeIdle_inv
    (h : Inv options p)
    (hwaiters : p.waiters = 0)
    (hne : p.sessions ≠ [])
    (a : Acquire) :
    Inv options
      { p.borrowNextAvailableSession.2 with
        current :=
          some (a, .returned p.borrowNextAvailableSession.1) } := by
  obtain ⟨s, hs⟩ : ∃ s, p.sessions.getLast? = some s := by
    cases hlast : p.sessions.getLast? with
    | none =>
        exact absurd (List.getLast?_eq_none_iff.mp hlast) hne
    | some s =>
        exact ⟨s, rfl⟩
  have hperm := borrowNext_inventory h hs
  rw [Pool.borrowNextAvailableSession]
  rw [hs]
  exact
    h.mono hperm.subperm rfl rfl (fun _ ht => ht) rfl rfl
      ⟨hwaiters, by simp⟩

theorem getSession_inv
    (h : Inv options p)
    (hwaiters : p.waiters = 0)
    (a : Acquire) :
    Inv options (p.getSession options a) := by
  rw [Pool.getSession]
  split
  · rename_i hlen
    exact takeIdle_inv h hwaiters (List.length_pos_iff.mp hlen) a
  · rename_i hlen
    have hempty : p.sessions = [] := by
      simpa using hlen
    split
    · exact reject_inv h hwaiters a _
    · have hcreate := createForWaiter_inv h
      dsimp only
      refine hcreate.same rfl ?_
      refine ⟨?_, ?_⟩
      · simp [createForWaiter_waiters, hwaiters]
      · simpa [createForWaiter_sessions] using hempty

theorem attempt_inv
    (h : Inv options p)
    (hwaiters : p.waiters = 0)
    (a : Acquire) :
    Inv options (p.attempt options a) := by
  rw [Pool.attempt]
  split
  · exact reject_inv h hwaiters a _
  · exact getSession_inv h hwaiters a

theorem resumeWaiter_inv
    (h : Inv options p)
    {a : Acquire} {result : Except (AcquireError σ) Unit}
    (hcur : p.current = some (a, .woken result)) :
    Inv options (p.resumeWaiter a result) := by
  have hphase := h.phase
  unfold Pool.phaseOk at hphase
  rw [hcur] at hphase
  unfold Pool.resumeWaiter
  cases result with
  | ok _ =>
      obtain ⟨hwaiters, hne⟩ := hphase
      have hidle :
          Inv options
            { p with waiters := p.waiters - 1, current := none } :=
        h.same rfl (by simp [Pool.phaseOk, hwaiters])
      exact takeIdle_inv hidle (by simp [hwaiters]) hne a
  | error error =>
      have hwaiters : p.waiters = 1 := hphase
      exact h.same rfl (by simp [Pool.phaseOk, Pool.reject, hwaiters])

theorem checkSession_inv
    (h : Inv options p)
    {a : Acquire} {s : Option σ}
    (hcur : p.current = some (a, .returned s)) :
    Inv options (p.checkSession options a s) := by
  have hphase := h.phase
  unfold Pool.phaseOk at hphase
  rw [hcur] at hphase
  obtain ⟨hwaiters, hsome⟩ := hphase
  cases s with
  | none =>
      exact absurd rfl hsome
  | some s =>
      simp only [Pool.checkSession]
      split
      · exact h.same rfl hwaiters
      · have hdrop :
            Inv options
              { p with
                borrowed := p.borrowed.erase s
                current := none } :=
          h.mono
            (List.Sublist.append_left
              (List.erase_sublist.append_right _) _).subperm
            rfl rfl (fun _ ht => ht) rfl rfl hwaiters
        exact attempt_inv hdrop hwaiters a

/-- An error recorded on a borrowed session, which has been delivered. -/
theorem setLastError_inv
    (h : Inv options p)
    {s : σ}
    (hs : s ∈ p.borrowed)
    (error : Option ServiceError) :
    Inv options
      { p with lastError := Function.update p.lastError s error } := by
  have hknown : s ∈ p.inventory := by
    simp [Pool.inventory, hs]
  refine
    { nodup := h.nodup
      created := h.created
      fresh := ?_
      creating := h.creating
      pending := h.pending
      capacity := h.capacity
      phase := h.phase }
  intro u hu
  have hne : u ≠ s := by
    rintro rfl
    rcases hu with hu | hu
    · exact h.not_mem_immediates_of_mem_borrowed hs hu
    · exact hu (h.created u hknown)
  change Function.update p.lastError s error u = none
  rw [Function.update_of_ne hne]
  exact h.fresh u hu

/-- A response moves requested sessions to the `setImmediate` queue. -/
theorem batchCreated_inv
    (h : Inv options p)
    {i : Nat} {amount : Int} {sessions : List σ}
    (hi : p.creating[i]? = some amount)
    (hfresh : p.freshBatch amount sessions = true) :
    Inv options (p.batchCreated i amount sessions) := by
  obtain ⟨⟨⟨hone, hlen⟩, hnodup⟩, hnew⟩ :
      ((1 ≤ sessions.length ∧ (sessions.length : Int) ≤ amount) ∧
          sessions.Nodup) ∧
        ∀ s ∈ sessions, s ∉ p.created := by
    simpa [Pool.freshBatch] using hfresh
  -- The sessions, wherever they end up, and the sums do not depend on
  -- whether the loop goes on.
  have hnodup' :
      (p.sessions ++
        (p.borrowed ++ (p.immediates ++ sessions))).Nodup := by
    have hall := h.nodup
    have happ : (p.inventory ++ sessions).Nodup := by
      refine List.nodup_append.mpr ⟨hall, hnodup, ?_⟩
      rintro s hs t ht rfl
      exact hnew s ht (h.created s hs)
    simpa [Pool.inventory, List.append_assoc] using happ
  have hcreated' :
      ∀ s ∈ p.sessions ++
          (p.borrowed ++ (p.immediates ++ sessions)),
        s ∈ p.created ++ sessions := by
    intro s hs
    have hs' : s ∈ p.inventory ∨ s ∈ sessions := by
      simpa [Pool.inventory, or_assoc] using hs
    rcases hs' with hs' | hs'
    · exact List.mem_append_left _ (h.created s hs')
    · exact List.mem_append_right _ hs'
  have hfresh' :
      ∀ s, s ∈ p.immediates ++ sessions ∨ s ∉ p.created ++ sessions →
        p.lastError s = none := by
    intro s hs
    apply h.fresh s
    simp only [List.mem_append, not_or] at hs
    rcases hs with (hs | hs) | hs
    · exact Or.inl hs
    · exact Or.inr (hnew s hs)
    · exact Or.inr hs.1
  have hpending := h.pending
  have hcapacity := h.capacity
  have hset := sum_set_of_getElem? (b := amount - sessions.length) hi
  have herase := sum_eraseIdx_of_getElem? hi
  rw [Pool.batchCreated]
  dsimp only
  split
  · rename_i hpos
    refine
      { nodup := hnodup'
        created := hcreated'
        fresh := hfresh'
        creating := ?_
        pending := ?_
        capacity := hcapacity
        phase := h.phase }
    · intro b hb
      rcases List.mem_or_eq_of_mem_set hb with hb | rfl
      · exact h.creating b hb
      · exact hpos
    · simp only [List.length_append]
      omega
  · refine
      { nodup := hnodup'
        created := hcreated'
        fresh := hfresh'
        creating := ?_
        pending := ?_
        capacity := hcapacity
        phase := h.phase }
    · intro b hb
      exact h.creating b (List.mem_of_mem_eraseIdx hb)
    · simp only [List.length_append]
      omega

omit [DecidableEq σ] in
theorem wake_error_phaseOk
    (h : p.phaseOk) (error : AcquireError σ) :
    (p.wake (.error error)).phaseOk := by
  unfold Pool.phaseOk at h
  rw [Pool.phaseOk, Pool.wake]
  rcases hcur : p.current with _ | ⟨a, phase⟩
  · simpa [hcur] using h
  · cases phase with
    | waiting =>
        simp only [hcur] at h
        simpa using h.1
    | woken result =>
        cases result <;> simp_all
    | returned s =>
        simpa [hcur] using h

omit [DecidableEq σ] in
theorem batchCreateFailed_inv
    (h : Inv options p)
    {i : Nat} {amount : Int}
    (hi : p.creating[i]? = some amount)
    (error : ServiceError) :
    Inv options (p.batchCreateFailed i amount error) := by
  have hpending := h.pending
  have hcapacity := h.capacity
  have hpos := h.creating amount (List.mem_of_getElem? hi)
  have herase := sum_eraseIdx_of_getElem? hi
  refine
    { nodup := h.nodup
      created := h.created
      fresh := h.fresh
      creating := ?_
      pending := ?_
      capacity := ?_
      phase := wake_error_phaseOk h.phase _ }
  · intro b hb
    exact h.creating b (List.mem_of_mem_eraseIdx hb)
  · change p.pending - amount = (p.creating.eraseIdx i).sum + _
    rw [herase, hpending]
    change _ = _ + (p.immediates.length : Int)
    omega
  · simp only [Pool.size] at hcapacity
    simp only [Pool.batchCreateFailed, Pool.size, Pool.wake]
    omega

/-- A delivered session enters the pool through `release`. -/
theorem deliver_inv
    (h : Inv options p)
    {s : σ} {rest : List σ}
    (himm : p.immediates = s :: rest) :
    Inv options (Pool.deliver { p with immediates := rest } s) := by
  have hs : s ∉ p.borrowed := by
    have hnodup := (List.nodup_append.mp h.nodup).2.1
    rw [himm] at hnodup
    have hdisj := (List.nodup_append.mp hnodup).2.2
    intro hb
    exact hdisj s hb s List.mem_cons_self rfl
  have hperm :
      (p.sessions ++ (setAdd p.borrowed s ++ rest)).Perm
        p.inventory := by
    rw [setAdd_of_not_mem hs]
    simp [Pool.inventory, himm]
  have hmid :
      Inv options
        { p with
          immediates := rest
          borrowed := setAdd p.borrowed s
          pending := p.pending - 1 } := by
    have hpending := h.pending
    have hcapacity := h.capacity
    rw [himm] at hpending
    refine
      { nodup := hperm.nodup_iff.mpr h.nodup
        created := fun t ht => h.created t (hperm.mem_iff.mp ht)
        fresh := ?_
        creating := h.creating
        pending := ?_
        capacity := ?_
        phase := h.phase }
    · intro t ht
      apply h.fresh t
      rw [himm]
      exact ht.imp_left (List.mem_cons_of_mem s)
    · simp only [List.length_cons] at hpending
      simp only
      omega
    · simp only [Pool.size, setAdd_of_not_mem hs, List.length_append,
        List.length_singleton] at hcapacity ⊢
      omega
  exact release_inv hmid (by simp)

/-- The loop takes sessions off the idle list and has them deleted; the rest of the
pool stays as it is. -/
theorem evictLoop_frame
    (options : SessionPoolOptions)
    (size : Int) (count : Nat) (evicted : Int) (idle : List σ)
    (p : Pool σ) :
    ∃ sessions requests deletes,
      sessions.Sublist p.sessions ∧
        Pool.evictLoop options size count evicted idle p =
          { p with
            sessions := sessions
            requests := requests
            deletes := deletes } := by
  induction count generalizing evicted idle p with
  | zero =>
      exact ⟨_, _, _, List.Sublist.refl _, rfl⟩
  | succ count ih =>
      rw [Pool.evictLoop]
      split
      · split
        · exact ih _ _ p
        · rename_i s _
          obtain ⟨sessions, requests, deletes, hsub, heq⟩ :=
            ih (evicted + 1) idle.dropLast
              (Pool.destroy { p with sessions := spliceOut p.sessions s } none s)
          exact
            ⟨sessions, requests, deletes,
              hsub.trans (spliceOut_sublist p.sessions s), heq⟩
      · exact ⟨_, _, _, List.Sublist.refl _, rfl⟩

/-- Evictions drop idle sessions, whichever the loop picks. -/
theorem evictLoop_inv
    (size : Int) (count : Nat) (evicted : Int) (idle : List σ)
    (h : Inv options p)
    (hwoken :
      ∀ a result, p.current ≠ some (a, .woken (.ok result))) :
    Inv options
      (Pool.evictLoop options size count evicted idle p) := by
  obtain ⟨sessions, requests, deletes, hsub, heq⟩ :=
    evictLoop_frame options size count evicted idle p
  rw [heq]
  refine
    h.mono (hsub.append_right _).subperm rfl rfl (fun _ ht => ht) rfl rfl ?_
  have hphase := h.phase
  unfold Pool.phaseOk at hphase ⊢
  rcases hcur : p.current with _ | ⟨a, phase⟩
  · simpa [hcur] using hphase
  · cases phase with
    | waiting =>
        simp only [hcur] at hphase ⊢
        refine ⟨hphase.1, ?_⟩
        rw [hphase.2] at hsub
        exact List.sublist_nil.mp hsub
    | woken result =>
        cases result with
        | ok result => exact absurd hcur (hwoken a result)
        | error error => simpa [hcur] using hphase
    | returned t => simpa [hcur] using hphase

omit [DecidableEq σ] in
/-- What `settled` says about the running acquire. -/
theorem settled_current
    (hsettled : p.settled = true) :
    p.current = none ∨ ∃ a, p.current = some (a, .waiting) := by
  unfold Pool.settled at hsettled
  rcases hcur : p.current with _ | ⟨a, phase⟩
  · exact Or.inl rfl
  · cases phase with
    | waiting => exact Or.inr ⟨a, rfl⟩
    | woken result => simp [hcur] at hsettled
    | returned s => simp [hcur] at hsettled

omit [DecidableEq σ] in
theorem settled_not_woken
    (hsettled : p.settled = true)
    (a : Acquire) (result : Unit) :
    p.current ≠ some (a, .woken (.ok result)) := by
  rcases settled_current hsettled with hcur | ⟨b, hcur⟩ <;>
    simp [hcur]

theorem evictIdleSessions_inv
    (h : Inv options p)
    (hsettled : p.settled = true) :
    Inv options (p.evictIdleSessions options) :=
  evictLoop_inv p.size _ 0 _ h (settled_not_woken hsettled)

theorem ping_inv
    (h : Inv options p)
    {s : σ}
    (hs : s ∈ p.sessions)
    (hcur : p.current = none)
    (round : Nat) :
    Inv options (Pool.ping round p s) := by
  have hwaiters : p.waiters = 0 := by
    have hphase := h.phase
    unfold Pool.phaseOk at hphase
    simpa [hcur] using hphase
  have hphase : (p.borrow s).phaseOk := by
    simp [Pool.phaseOk, Pool.borrow, hcur, hwaiters]
  have hborrow : Inv options (p.borrow s) :=
    h.mono (borrow_inventory h hs).subperm rfl rfl (fun _ ht => ht)
      rfl rfl hphase
  unfold Pool.ping
  dsimp only
  split
  · exact hborrow.same rfl hphase
  · exact
      hborrow.mono
        (List.Sublist.append_left
          (List.erase_sublist.append_right _) _).subperm
        rfl rfl (fun _ ht => ht) rfl rfl hphase

theorem ping_sessions
    (round : Nat)
    {s : σ}
    (hs : s ∈ p.sessions) :
    (Pool.ping round p s).sessions = p.sessions.erase s := by
  rw [Pool.ping, Pool.borrow]
  rw [spliceOut_of_mem hs]
  dsimp only
  split <;> rfl

theorem ping_current
    (round : Nat) (p : Pool σ) (s : σ) :
    (Pool.ping round p s).current = p.current := by
  rw [Pool.ping, Pool.borrow]
  dsimp only
  split <;> rfl

/-- A round of pings borrows sessions; the rest of the pool stays as it is. -/
theorem pings_frame
    (round : Nat) (idle : List σ) (p : Pool σ) :
    ∃ sessions borrowed pings,
      idle.foldl (Pool.ping round) p =
        { p with
          sessions := sessions
          borrowed := borrowed
          pings := pings } := by
  induction idle generalizing p with
  | nil =>
      exact ⟨_, _, _, rfl⟩
  | cons s idle ih =>
      obtain ⟨sessions, borrowed, pings, heq⟩ := ih (Pool.ping round p s)
      refine ⟨sessions, borrowed, pings, heq.trans ?_⟩
      unfold Pool.ping
      dsimp only
      split <;> rfl

/-- What every ping of an idle session keeps, a round of pings keeps together with
the invariant: it takes different sessions off the idle list. -/
theorem pings_keep
    {I : Pool σ → Prop}
    (round : Nat) (idle : List σ)
    (hone :
      ∀ q s, Inv options q → s ∈ q.sessions → I q →
        I (Pool.ping round q s))
    (h : Inv options p) (hp : I p)
    (hnodup : idle.Nodup)
    (hidle : ∀ s ∈ idle, s ∈ p.sessions)
    (hcur : p.current = none) :
    Inv options (idle.foldl (Pool.ping round) p) ∧
      I (idle.foldl (Pool.ping round) p) := by
  induction idle generalizing p with
  | nil =>
      exact ⟨h, hp⟩
  | cons s idle ih =>
      obtain ⟨hs, hrest⟩ := List.nodup_cons.mp hnodup
      have hmem : s ∈ p.sessions := hidle s List.mem_cons_self
      refine
        ih (ping_inv h hmem hcur round) (hone p s h hmem hp) hrest ?_
          (by rw [ping_current]; exact hcur)
      intro t ht
      rw [ping_sessions round hmem]
      have hne : t ≠ s := by
        rintro rfl
        exact hs ht
      exact (List.mem_erase_of_ne hne).mpr
        (hidle t (List.mem_cons_of_mem s ht))

omit [DecidableEq σ] in
theorem sessions_nodup
    (h : Inv options p) :
    p.sessions.Nodup :=
  (List.nodup_append.mp h.nodup).1

/-- A pass of `_pingIdleSessions` keeps what its pings keep. -/
theorem pingIdleSessions_keep
    {I : Pool σ → Prop}
    (hone :
      ∀ round q s, Inv options q → s ∈ q.sessions → I q →
        I (Pool.ping round q s))
    (h : Inv options p)
    (hp :
      ∀ rounds nextRound,
        I { p with rounds := rounds, nextRound := nextRound })
    (hsettled : p.settled = true) :
    Inv options (p.pingIdleSessions options) ∧
      I (p.pingIdleSessions options) := by
  have hround :
      Inv options
        { p with
          rounds := p.rounds ++ [p.nextRound]
          nextRound := p.nextRound + 1 } :=
    h.same rfl h.phase
  rcases settled_current hsettled with hcur | ⟨a, hcur⟩
  · refine
      pings_keep p.nextRound _ (hone p.nextRound) hround (hp _ _) ?_ ?_ hcur
    · exact (sessions_nodup h).sublist List.filter_sublist
    · intro s hs
      exact (List.mem_filter.mp hs).1
  · -- An acquire only waits while there is no idle session to ping.
    have hphase := h.phase
    unfold Pool.phaseOk at hphase
    simp only [hcur] at hphase
    have hidle :
        Pool.getIdleSessions options
            { p with
              rounds := p.rounds ++ [p.nextRound]
              nextRound := p.nextRound + 1 } =
          [] := by
      simp [Pool.getIdleSessions, hphase.2]
    unfold Pool.pingIdleSessions
    dsimp only
    rw [hidle]
    exact ⟨hround, hp _ _⟩

theorem pingIdleSessions_inv
    (h : Inv options p)
    (hsettled : p.settled = true) :
    Inv options (p.pingIdleSessions options) :=
  (pingIdleSessions_keep (I := fun _ => True) (fun _ _ _ _ _ _ => trivial) h
    (fun _ _ => trivial) hsettled).1

theorem pingFailed_inv
    (h : Inv options p)
    (round : Nat) (s : σ) :
    Inv options (p.pingFailed round s) :=
  h.mono
    (List.Sublist.append_left
      (List.erase_sublist.append_right _) _).subperm
    rfl rfl (fun _ ht => ht) rfl rfl h.phase

theorem pingSucceeded_of_mem
    (round : Nat)
    {s : σ}
    (hs : s ∈ p.borrowed) :
    p.pingSucceeded round s = (p.release s).2 := by
  have hok := Pool.release_of_mem hs
  rw [Pool.pingSucceeded]
  split
  · rename_i heq
    rw [heq]
  · rename_i heq
    rw [heq] at hok
    cases hok

end Operations

end SessionPool
end SpannerClient
