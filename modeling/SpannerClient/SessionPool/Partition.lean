import SpannerClient.SessionPool.Ownership

/-!
# The partition and the capacity of an open pool

Every event keeps the two invariants while the pool is open, so they hold after
every run.  What they say about the pool alone is collected in `Partition`: the
sessions that exist are each in one place, those that are borrowed are borrowed by
somebody, and the pool has no more than `max` of them, those being created included.

No two callers hold the same session, what a caller holds is nowhere else, and a
release of anything that is not borrowed throws and changes nothing.

`Pool.Good` says that both invariants hold while the pool is open and that `close`
is not waiting then.  Every event but those of `close` keeps the invariants
(`step_inv_of_ne`), and so does any event that leaves the pool open (`step_inv`).
The main result is `partition_of_run`, for every run from the opening.
-/

namespace SpannerClient
namespace SessionPool

open Machine

variable {σ : Type} [DecidableEq σ]
variable {options : SessionPoolOptions} {p t : Pool σ}

/-- Every event but those of `close` keeps the invariants. -/
theorem step_inv_of_ne
    {e : Event σ}
    (hmin : options.min ≤ options.max)
    (hinv : Inv options p) (howned : p.Owned)
    (hclose : e ≠ .close) (hfinish : e ≠ .finishClose)
    (hstep : step options p e = some t) :
    Inv options t ∧ t.Owned := by
  have hphase := hinv.phase
  unfold Pool.phaseOk at hphase
  cases steps_of_step hstep with
  | acquire =>
      exact ⟨hinv.same rfl hinv.phase, howned⟩
  | acquireClosed =>
      exact ⟨hinv.same rfl hinv.phase, howned⟩
  | startAcquire hcur =>
      rename_i a rest hqueued
      rw [hcur] at hphase
      have hqueue : Inv options { p with queued := rest } :=
        hinv.same rfl hinv.phase
      exact
        ⟨attempt_inv hqueue hphase a,
          attempt_owned (p := { p with queued := rest }) howned hqueue hcur a⟩
  | acquireTimeout =>
      exact
        ⟨hinv.same rfl (wake_error_phaseOk hinv.phase _),
          owned_of_same howned rfl (wake_currentSession p _) rfl rfl rfl⟩
  | resumeWaiter hcur =>
      exact
        ⟨resumeWaiter_inv hinv hcur, resumeWaiter_owned howned hinv hcur⟩
  | checkSession hcur =>
      exact
        ⟨checkSession_inv hinv hcur, checkSession_owned howned hinv hcur⟩
  | finishAcquire hresolved =>
      exact
        ⟨hinv.same rfl hinv.phase, finishAcquire_owned howned hresolved⟩
  | release hheld hs =>
      have hrelease := release_inv hinv hs
      exact
        ⟨hrelease.same rfl hrelease.phase, release_owned howned hheld⟩
  | releaseUnknown =>
      exact ⟨hinv, howned⟩
  | setLastError hheld =>
      rename_i caller s error
      have hs := mem_borrowed_of_held howned hheld
      exact ⟨setLastError_inv hinv hs (some error), howned⟩
  | batchCreated hi hfresh =>
      refine ⟨batchCreated_inv hinv hi hfresh, ?_⟩
      rw [Pool.batchCreated]
      dsimp only
      split <;> exact howned
  | batchCreateFailed hi =>
      exact
        ⟨batchCreateFailed_inv hinv hi _,
          owned_of_same howned rfl (wake_currentSession _ _) rfl rfl rfl⟩
  | deliver himmediates =>
      rename_i s rest
      have hs : s ∉ p.borrowed := by
        refine fun hb => hinv.not_mem_immediates_of_mem_borrowed hb ?_
        rw [himmediates]
        exact List.mem_cons_self
      exact ⟨deliver_inv hinv himmediates, deliver_owned howned hs⟩
  | fill =>
      exact ⟨fill_inv hinv hmin, fill_owned howned⟩
  | evictIdleSessions hhouse hsettled =>
      exact
        ⟨evictIdleSessions_inv hinv hsettled,
          evictLoop_owned p.size _ 0 _ howned⟩
  | pingIdleSessions hhouse hsettled =>
      exact
        ⟨pingIdleSessions_inv hinv hsettled,
          pingIdleSessions_owned howned hinv hsettled⟩
  | pingSucceeded hping =>
      rename_i round s
      have hs := mem_borrowed_of_ping howned hping
      have hping' :
          Inv options { p with pings := p.pings.erase (round, s) } :=
        hinv.same rfl hinv.phase
      refine ⟨?_, pingSucceeded_owned howned hping⟩
      rw [pingSucceeded_of_mem round
        (p := { p with pings := p.pings.erase (round, s) }) hs]
      exact release_inv hping' hs
  | pingFailed hping =>
      rename_i round s
      have hping' :
          Inv options { p with pings := p.pings.erase (round, s) } :=
        hinv.same rfl hinv.phase
      exact ⟨pingFailed_inv hping' round s, pingFailed_owned howned hping⟩
  | pingsDone hdone =>
      rename_i round
      have hround :
          Inv options { p with rounds := p.rounds.erase round } :=
        hinv.same rfl hinv.phase
      exact
        ⟨fill_inv hround hmin,
          fill_owned (p := { p with rounds := p.rounds.erase round })
            howned⟩
  | deleted =>
      exact ⟨hinv.same rfl hinv.phase, howned⟩
  | tick =>
      exact ⟨hinv.same rfl hinv.phase, howned⟩
  | close =>
      exact absurd rfl hclose
  | finishClose =>
      exact absurd rfl hfinish

/-- Every event keeps the invariants of an open pool. -/
theorem step_inv
    {e : Event σ}
    (hmin : options.min ≤ options.max)
    (hinv : Inv options p) (howned : p.Owned)
    (hclosing : p.closing = false)
    (hstep : step options p e = some t)
    (hopen : t.isOpen = true) :
    Inv options t ∧ t.Owned := by
  refine step_inv_of_ne hmin hinv howned ?_ ?_ hstep
  · rintro rfl
    cases steps_of_step hstep with
    | close =>
        rw [(Prod.mk.inj (close_life p)).1] at hopen
        cases hopen
  · rintro rfl
    cases steps_of_step hstep with
    | finishClose hclosed =>
        rw [hclosing] at hclosed
        cases hclosed

/-- What holds of a pool from its opening on. -/
def Pool.Good
    (options : SessionPoolOptions) (p : Pool σ) : Prop :=
  p.isOpen = true →
    p.closing = false ∧ Inv options p ∧ p.Owned

theorem step_good
    {e : Event σ}
    (hmin : options.min ≤ options.max)
    (h : p.Good options)
    (hstep : step options p e = some t) :
    t.Good options := by
  intro hopen
  rcases step_life hstep with hlife | ⟨_, hlife⟩ | ⟨hclosing, hlife⟩
  · obtain ⟨hisOpen, -, hclosing⟩ : t.isOpen = p.isOpen ∧
        t.houseKeeping = p.houseKeeping ∧ t.closing = p.closing := by
      simpa [Pool.life] using hlife
    obtain ⟨hnot, hinv, howned⟩ := h (hisOpen ▸ hopen)
    exact
      ⟨hclosing.trans hnot,
        step_inv hmin hinv howned hnot hstep hopen⟩
  · rw [(Prod.mk.inj hlife).1] at hopen
    cases hopen
  · rw [(Prod.mk.inj hlife).1] at hopen
    rw [(h hopen).1] at hclosing
    cases hclosing

omit [DecidableEq σ] in
theorem opened_good
    (hmin : options.min ≤ options.max) :
    (Pool.opened σ options).Good options := by
  intro _
  have hnew :
      Inv options
        { Pool.new σ with
          isOpen := true
          houseKeeping := true } :=
    { nodup := List.nodup_nil
      created := fun _ hs => absurd hs List.not_mem_nil
      fresh := fun _ _ => rfl
      creating := fun _ ha => absurd ha List.not_mem_nil
      pending := rfl
      capacity := by simp [Pool.size, Pool.new]
      phase := rfl }
  refine ⟨?_, fill_inv hnew hmin, fill_owned (List.Perm.refl _)⟩
  have hlife := fill_life options
    { Pool.new σ with isOpen := true, houseKeeping := true }
  exact (Prod.mk.inj (Prod.mk.inj hlife).2).2

theorem construct_min_le
    (options : SessionPoolOptions) :
    options.construct.min ≤ options.construct.max :=
  Nat.min_le_right _ _

/-- Both invariants hold after every run, as long as the pool is open. -/
theorem runPool_good
    {es : List (Event σ)}
    (hrun : runPool options es = some p) :
    p.Good options.construct :=
  run_invariant
    (fun _ _ _ h hstep =>
      step_good (construct_min_le options) h hstep)
    (opened_good (construct_min_le options)) hrun

namespace Pool

/-- The number of sessions requested and neither delivered nor failed. -/
def outstanding
    (p : Pool σ) : Int :=
  p.creating.sum + p.immediates.length

/-- The pool keeps its sessions apart, within its capacity, and hands each of
them to one caller. -/
structure Partition
    (options : SessionPoolOptions) (p : Pool σ) : Prop where
  nodup : p.sessions.Nodup
  disjoint : ∀ s ∈ p.sessions, s ∉ p.borrowed
  pending_nonneg : 0 ≤ p.pending
  pending_eq : p.pending = p.outstanding
  capacity :
    (p.sessions.length : Int) + p.borrowed.length + p.pending ≤ options.max
  /-- `_acquire` does not continue with `undefined`. -/
  defined : ∀ a, p.current ≠ some (a, .returned none)
  /-- No two callers hold the same session. -/
  exclusive : (p.held.map Prod.snd).Nodup
  /-- What a caller holds is borrowed, and neither idle, nor pinged, nor about to
  be handed to another caller. -/
  private_held :
    ∀ s ∈ p.held.map Prod.snd,
      s ∈ p.borrowed ∧ s ∉ p.sessions ∧ s ∉ p.pings.map Prod.snd ∧
        s ∉ p.resolved.map Prod.snd ∧ s ∉ p.currentSession
  /-- Releasing anything else throws and changes nothing. -/
  release_unknown :
    ∀ s, s ∉ p.borrowed → p.release s = (.error ⟨s⟩, p)

end Pool

omit [DecidableEq σ] in
theorem owners_nodup
    (hinv : Inv options p) (howned : p.Owned) :
    p.owners.Nodup := by
  have hrest := (List.nodup_append.mp hinv.nodup).2.1
  have hborrowed := (List.nodup_append.mp hrest).1
  exact howned.nodup_iff.mp hborrowed

theorem partition_of_inv
    (hinv : Inv options p) (howned : p.Owned) :
    p.Partition options := by
  have howners := owners_nodup hinv howned
  unfold Pool.owners at howners
  obtain ⟨-, hrest, hcurrent⟩ := List.nodup_append.mp howners
  obtain ⟨-, hrest', hresolved⟩ := List.nodup_append.mp hrest
  obtain ⟨hheld, -, hpings⟩ := List.nodup_append.mp hrest'
  refine
    { nodup := sessions_nodup hinv
      disjoint := fun s hs => hinv.not_mem_borrowed_of_mem_sessions hs
      pending_nonneg := hinv.pending_nonneg
      pending_eq := hinv.pending
      capacity := ?_
      defined := ?_
      exclusive := hheld
      private_held := ?_
      release_unknown := fun s hs => Pool.release_of_not_mem hs }
  · have hcap := hinv.capacity
    unfold Pool.size at hcap
    omega
  · intro a hcur
    have hphase := hinv.phase
    unfold Pool.phaseOk at hphase
    simp [hcur] at hphase
  · intro s hs
    have hb : s ∈ p.borrowed := by
      refine howned.mem_iff.mpr ?_
      simp only [Pool.owners, List.mem_append]
      exact Or.inr (Or.inr (Or.inl hs))
    refine ⟨hb, ?_, ?_, ?_, ?_⟩
    · exact fun hidle => hinv.not_mem_borrowed_of_mem_sessions hidle hb
    · exact fun hping => hpings s hs s hping rfl
    · exact fun hres =>
        hresolved s hres s (List.mem_append_left _ hs) rfl
    · exact fun hcur =>
        hcurrent s hcur s
          (List.mem_append_right _ (List.mem_append_left _ hs)) rfl

/-- The partition and the capacity of an open pool, after every run. -/
theorem partition_of_run
    (options : SessionPoolOptions) (es : List (Event σ)) (p : Pool σ)
    (hrun : runPool options es = some p)
    (hopen : p.isOpen = true) :
    p.Partition options := by
  obtain ⟨-, hinv, howned⟩ := runPool_good hrun hopen
  have hpartition := partition_of_inv hinv howned
  exact { hpartition with capacity := hpartition.capacity }

/-- A pool of one session that has lent it. -/
theorem partition_of_run_lent :
    ∃ p : Pool Nat,
      runPool { min := 0, max := 1 }
          [.acquire 7, .startAcquire, .batchCreated 0 [0], .deliver,
            .resumeWaiter, .checkSession, .finishAcquire] = some p ∧
        p.held = [(7, 0)] ∧ p.Partition { min := 0, max := 1 } := by
  obtain ⟨p, hrun, hopen, hheld⟩ :
      ∃ p : Pool Nat,
        runPool { min := 0, max := 1 }
            [.acquire 7, .startAcquire, .batchCreated 0 [0], .deliver,
              .resumeWaiter, .checkSession, .finishAcquire] = some p ∧
          p.isOpen = true ∧ p.held = [(7, 0)] :=
    ⟨_, rfl, rfl, rfl⟩
  exact ⟨p, hrun, hheld, partition_of_run _ _ p hrun hopen⟩

end SessionPool
end SpannerClient
