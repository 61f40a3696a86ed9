import SpannerClient.SessionPool.Closing

/-!
# Leaks

A stack trace is stored for a session when it is handed to a caller and deleted
when it is released.  Sessions are released by the pool itself too, when they
have been created and after a ping; no trace is stored for those.  So the traces
are those of the sessions the callers hold, from the opening of the pool until
`close` calls back, and the leaks that `close` reports are these sessions.  The
map of traces has the ids of the sessions, which differ as the sessions do.

The runs have the releases by a caller that holds the session and those of sessions
that are not borrowed.  `Pool.Traced` is the invariant, kept with the two of the
inventory; the main result is `leaks_of_run`.
-/

namespace SpannerClient
namespace SessionPool

open Machine

variable {σ : Type} [DecidableEq σ]
variable {options : SessionPoolOptions} {p q t : Pool σ}

/-- `_getLeaks`: one leak for each stored trace. -/
def Pool.getLeaks
    (p : Pool σ) : List σ :=
  p.traces

/-- The leaks in the `SessionLeakError` that `close` calls back with, if there
are any. -/
def Pool.closeError
    (p : Pool σ) : Option (List σ) :=
  if p.getLeaks.length > 0 then some p.getLeaks else none

/-- The traces are those of the sessions the callers hold, one for each. -/
def Pool.Traced
    (p : Pool σ) : Prop :=
  p.traces.Perm (p.held.map Prod.snd)

/-! ## One event -/

omit [DecidableEq σ] in
theorem traced_of_background
    (h : p.Traced)
    (heq : q.background = p.background) :
    q.Traced := by
  obtain ⟨htraces, hheld⟩ := Prod.mk.inj (Prod.mk.inj heq).2
  rw [Pool.Traced]
  rw [htraces, hheld]
  exact h

theorem traces_nodup
    (hinv : Inv options p) (howned : p.Owned) (h : p.Traced) :
    p.traces.Nodup :=
  h.nodup_iff.mpr (partition_of_inv hinv howned).exclusive

/-- `release` deletes the trace, if there is one. -/
theorem release_traces
    {s : σ}
    (hs : s ∈ p.borrowed) (hnodup : p.traces.Nodup) :
    (p.release s).2.traces = p.traces.erase s := by
  rw [Pool.release]
  rw [if_neg (by simpa using hs)]
  dsimp only
  split
  · rfl
  · exact List.erase_of_not_mem hnodup.not_mem_erase

/-- A caller gives up the session it releases, and its trace is deleted. -/
theorem release_traced
    (h : p.Traced)
    {caller : Nat} {s : σ}
    (hheld : (caller, s) ∈ p.held)
    (hs : s ∈ p.borrowed) (hnodup : p.traces.Nodup) :
    Pool.Traced
      { (p.release s).2 with
        held := (p.release s).2.held.erase (caller, s) } := by
  obtain ⟨-, -, -, hheldEq, -⟩ := release_frame hs
  change List.Perm (p.release s).2.traces
    (((p.release s).2.held.erase (caller, s)).map Prod.snd)
  rw [release_traces hs hnodup, hheldEq]
  exact erase_perm_of_perm_cons (h.trans (map_snd_perm_cons_erase hheld))

/-- The pool releases a session that no caller holds. -/
theorem release_own_traced
    (h : p.Traced)
    {s : σ}
    (hs : s ∈ p.borrowed) (hnodup : p.traces.Nodup)
    (hnot : s ∉ p.held.map Prod.snd) :
    (p.release s).2.Traced := by
  obtain ⟨-, -, -, hheldEq, -⟩ := release_frame hs
  have hs' : s ∉ p.traces := fun hmem => hnot (h.mem_iff.mp hmem)
  rw [Pool.Traced]
  rw [release_traces hs hnodup, List.erase_of_not_mem hs', hheldEq]
  exact h

/-- A session is handed to a caller. -/
theorem finishAcquire_traced
    (h : p.Traced)
    {a : Acquire} {s : σ} {rest : List (Acquire × σ)}
    (hnot : s ∉ p.held.map Prod.snd) :
    (Pool.finishAcquire { p with resolved := rest } a s).Traced := by
  have hs : s ∉ p.traces := fun hmem => hnot (h.mem_iff.mp hmem)
  change List.Perm (setAdd p.traces s)
    ((p.held ++ [(a.caller, s)]).map Prod.snd)
  rw [setAdd_of_not_mem hs, List.map_append]
  exact h.append_right [s]

omit [DecidableEq σ] in
theorem close_background
    (p : Pool σ) :
    p.close.traces = p.traces ∧ p.close.held = p.held := by
  rw [Pool.close]
  dsimp only
  rw [destroys_eq]
  exact ⟨rfl, rfl⟩

/-- Every event keeps the traces. -/
theorem step_traced
    {e : Event σ}
    (hinv : Inv options p) (howned : p.Owned) (h : p.Traced)
    (hstep : step options p e = some t) :
    t.Traced := by
  have hnodup := traces_nodup hinv howned h
  have hprivate := (partition_of_inv hinv howned).private_held
  cases steps_of_step hstep with
  | acquire =>
      exact h
  | acquireClosed =>
      exact h
  | startAcquire =>
      exact traced_of_background h (attempt_background _ _ _)
  | acquireTimeout =>
      exact h
  | resumeWaiter =>
      exact traced_of_background h (resumeWaiter_background _ _ _)
  | checkSession =>
      exact traced_of_background h (checkSession_background _ _ _ _)
  | finishAcquire hresolved =>
      refine finishAcquire_traced h fun hheld => ?_
      refine (hprivate _ hheld).2.2.2.1 ?_
      rw [hresolved]
      exact List.mem_cons_self
  | release hheld hs =>
      exact release_traced h hheld hs hnodup
  | releaseUnknown =>
      exact h
  | setLastError =>
      exact h
  | batchCreated =>
      exact traced_of_background h (batchCreated_background _ _ _ _)
  | batchCreateFailed =>
      exact h
  | deliver himmediates =>
      rename_i s rest
      refine
        release_own_traced
          (p :=
            { p with
              immediates := rest
              borrowed := setAdd p.borrowed s
              pending := p.pending - 1 })
          h (mem_setAdd.mpr (Or.inr rfl)) hnodup ?_
      intro hheld
      refine hinv.not_mem_immediates_of_mem_borrowed (hprivate s hheld).1 ?_
      rw [himmediates]
      exact List.mem_cons_self
  | fill =>
      exact traced_of_background h (fill_background _ _)
  | evictIdleSessions =>
      exact traced_of_background h (evictLoop_background _ _ _ _ _ _)
  | pingIdleSessions =>
      exact traced_of_background h (pings_background _ _ _)
  | pingSucceeded hping =>
      rename_i round s
      have hs := mem_borrowed_of_ping howned hping
      rw [pingSucceeded_of_mem round
        (p := { p with pings := p.pings.erase (round, s) }) hs]
      refine
        release_own_traced
          (p := { p with pings := p.pings.erase (round, s) }) h hs hnodup ?_
      intro hheld
      exact (hprivate s hheld).2.2.1 (List.mem_map_of_mem hping)
  | pingFailed =>
      exact h
  | pingsDone =>
      exact traced_of_background h (fill_background _ _)
  | deleted =>
      exact h
  | tick =>
      exact h
  | close =>
      obtain ⟨htraces, hheld⟩ := close_background p
      rw [Pool.Traced]
      rw [htraces, hheld]
      exact h
  | finishClose =>
      exact h

/-! ## Runs -/

omit [DecidableEq σ] in
theorem close_inv
    (h : Inv options p) :
    Inv options p.close := by
  unfold Pool.close
  dsimp only
  rw [destroys_eq]
  exact h.same rfl (wake_error_phaseOk h.phase _)

omit [DecidableEq σ] in
theorem close_owned
    (h : p.Owned) :
    p.close.Owned := by
  unfold Pool.close
  dsimp only
  rw [destroys_eq]
  exact owned_of_same h rfl (wake_currentSession _ _) rfl rfl rfl

/-- What holds of a pool from its opening until `close` has called back. -/
structure Pool.Accounted
    (options : SessionPoolOptions) (p : Pool σ) : Prop where
  good : p.Good options
  working :
    p.isOpen = true ∨ p.closing = true →
      Inv options p ∧ p.Owned ∧ p.Traced

theorem step_accounted
    {e : Event σ}
    (hmin : options.min ≤ options.max)
    (h : p.Accounted options)
    (hstep : step options p e = some t) :
    t.Accounted options where
  good := step_good hmin h.good hstep
  working := by
    intro hworking
    by_cases hfinish : e = .finishClose
    · subst hfinish
      cases steps_of_step hstep with
      | finishClose hclosing =>
          rcases hworking with hopen | hclosing'
          · rw [(h.good hopen).1] at hclosing
            cases hclosing
          · cases hclosing'
    have hworking' : p.isOpen = true ∨ p.closing = true := by
      rcases step_life hstep with hlife | ⟨hopen, -⟩ | ⟨hclosing, -⟩
      · obtain ⟨hisOpen, -, hclosing⟩ : t.isOpen = p.isOpen ∧
            t.houseKeeping = p.houseKeeping ∧ t.closing = p.closing := by
          simpa [Pool.life] using hlife
        rw [hisOpen, hclosing] at hworking
        exact hworking
      · exact Or.inl hopen
      · exact Or.inr hclosing
    obtain ⟨hinv, howned, htraced⟩ := h.working hworking'
    have htraced' := step_traced hinv howned htraced hstep
    by_cases hclose : e = .close
    · subst hclose
      cases steps_of_step hstep with
      | close => exact ⟨close_inv hinv, close_owned howned, htraced'⟩
    · obtain ⟨hinv', howned'⟩ :=
        step_inv_of_ne hmin hinv howned hclose hfinish hstep
      exact ⟨hinv', howned', htraced'⟩

omit [DecidableEq σ] in
theorem opened_accounted
    (hmin : options.min ≤ options.max) :
    (Pool.opened σ options).Accounted options where
  good := opened_good hmin
  working := by
    intro _
    have hbackground :=
      fill_background options
        { Pool.new σ with
          isOpen := true
          houseKeeping := true }
    have hlife := congrArg Prod.fst hbackground
    obtain ⟨-, hinv, howned⟩ :=
      opened_good (σ := σ) hmin (Prod.mk.inj hlife).1
    refine ⟨hinv, howned, traced_of_background ?_ hbackground⟩
    exact List.Perm.refl _

theorem runPool_accounted
    {es : List (Event σ)}
    (hrun : runPool options es = some p) :
    p.Accounted options.construct :=
  run_invariant
    (fun _ _ _ h hstep => step_accounted (construct_min_le options) h hstep)
    (opened_accounted (construct_min_le options)) hrun

/-- In an open pool the traces are those of the sessions the callers hold, and so
are the leaks that `close` reports when it calls back. -/
theorem leaks_of_run
    (options : SessionPoolOptions) (es : List (Event σ)) (p : Pool σ)
    (hrun : runPool options es = some p) :
    (p.isOpen = true →
        p.traces.Nodup ∧
          ∀ s, s ∈ p.traces ↔ ∃ caller, (caller, s) ∈ p.held) ∧
      ∀ t, step options.construct p .finishClose = some t →
        (p.closeError = none ↔ p.held = []) ∧
          ∀ leaks, p.closeError = some leaks →
            leaks.Perm (p.held.map Prod.snd) := by
  have h := runPool_accounted hrun
  constructor
  · intro hopen
    obtain ⟨hinv, howned, htraced⟩ := h.working (Or.inl hopen)
    refine ⟨traces_nodup hinv howned htraced, fun s => ?_⟩
    rw [htraced.mem_iff]
    simp
  · intro t hstep
    cases steps_of_step hstep with
    | finishClose hclosing =>
        obtain ⟨-, -, htraced⟩ := h.working (Or.inr hclosing)
        rw [Pool.closeError, Pool.getLeaks]
        constructor
        · rw [htraced.length_eq, List.length_map]
          cases p.held <;> simp
        · intro leaks hleaks
          obtain ⟨-, heq⟩ := Option.ite_none_right_eq_some.mp hleaks
          obtain rfl := Option.some.inj heq
          exact htraced

/-- A pool of two sessions; one is lent when the pool is closed. -/
def lentAtClose : List (Event Nat) :=
  [.acquire 7, .startAcquire, .batchCreated 0 [0], .deliver, .resumeWaiter,
    .checkSession, .finishAcquire, .acquire 8, .startAcquire,
    .batchCreated 0 [1], .deliver, .resumeWaiter, .checkSession,
    .finishAcquire, .release 7 0, .close, .deleted none 0, .deleted none 1]

theorem leaks_of_run_lentAtClose :
    ∃ p t : Pool Nat,
      runPool { min := 0, max := 2, incStep := 1 } lentAtClose = some p ∧
        step (SessionPoolOptions.construct { min := 0, max := 2, incStep := 1 })
            p .finishClose = some t ∧
        p.held = [(8, 1)] ∧ p.closeError = some [1] ∧
        ∀ leaks, p.closeError = some leaks →
          leaks.Perm (p.held.map Prod.snd) := by
  obtain ⟨p, t, hrun, hstep, hheld, herror⟩ :
      ∃ p t : Pool Nat,
        runPool { min := 0, max := 2, incStep := 1 } lentAtClose = some p ∧
          step
              (SessionPoolOptions.construct
                { min := 0, max := 2, incStep := 1 })
              p .finishClose = some t ∧
          p.held = [(8, 1)] ∧ p.closeError = some [1] :=
    ⟨_, _, rfl, rfl, rfl, rfl⟩
  exact
    ⟨p, t, hrun, hstep, hheld, herror,
      ((leaks_of_run _ lentAtClose p hrun).2 t hstep).2⟩

end SessionPool
end SpannerClient
