import SpannerClient.Machine.Lending
import SpannerClient.SessionPool.Leaks

/-!
# The pool as a lender

Seen by its callers the pool lends sessions: `getSession` calls back with one,
`release` takes it back.  Until `close` has called back the pool refines the
lender of `Machine.Lending`, with the sessions it knows of as the stock, the
callers as borrowers and `max` as the capacity.  So the loans of every run are in
order, whatever happens to the sessions between a return and the next loan.

That a session is given back by a caller who has it is assumed of the callers, as in
the events of the pool; `release` itself takes any session that is borrowed.

`Hands` says what an event hands over (`hands_of_step`), `Pool.lender` is the
abstraction, and `pool_refines` the refinement.  The main result is
`loans_orderly_of_run`.
-/

namespace SpannerClient
namespace SessionPool

open Machine

variable {σ : Type} [DecidableEq σ]
variable {options : SessionPoolOptions} {p t : Pool σ}

/-- Who holds a session. -/
def holderOf
    (held : List (Nat × σ)) (s : σ) : Option Nat :=
  (held.find? fun loan => decide (loan.2 = s)).map Prod.fst

section Holders

variable {held : List (Nat × σ)}

theorem holderOf_eq_some_iff
    (hnodup : (held.map Prod.snd).Nodup)
    {caller : Nat} {s : σ} :
    holderOf held s = some caller ↔ (caller, s) ∈ held := by
  induction held with
  | nil =>
      simp [holderOf]
  | cons loan held ih =>
      obtain ⟨k, u⟩ := loan
      rw [List.map_cons, List.nodup_cons] at hnodup
      by_cases hu : u = s
      · subst hu
        have hnot : (caller, u) ∉ held := fun h =>
          hnodup.1 (List.mem_map.mpr ⟨_, h, rfl⟩)
        simp [holderOf, hnot, eq_comm]
      · have hrest : holderOf ((k, u) :: held) s = holderOf held s := by
          simp [holderOf, hu]
        rw [hrest, ih hnodup.2]
        simp [Ne.symm hu]

theorem holderOf_eq_none_iff
    {s : σ} :
    holderOf held s = none ↔ s ∉ held.map Prod.snd := by
  simp only [holderOf, Option.map_eq_none_iff, List.find?_eq_none,
    decide_eq_true_eq, List.mem_map, not_exists, not_and]

/-- The holders are known from the pairs. -/
theorem holderOf_congr
    {held' : List (Nat × σ)}
    (hnodup : (held.map Prod.snd).Nodup)
    (hnodup' : (held'.map Prod.snd).Nodup)
    {s : σ}
    (h : ∀ caller, (caller, s) ∈ held' ↔ (caller, s) ∈ held) :
    holderOf held' s = holderOf held s := by
  refine Option.ext fun caller => ?_
  rw [holderOf_eq_some_iff hnodup, holderOf_eq_some_iff hnodup', h]

/-- A session is handed out. -/
theorem holderOf_snoc
    {caller : Nat} {s : σ}
    (hnodup : ((held ++ [(caller, s)]).map Prod.snd).Nodup) :
    holderOf (held ++ [(caller, s)]) =
      Function.update (holderOf held) s (some caller) := by
  have hheld : (held.map Prod.snd).Nodup := by
    rw [List.map_append] at hnodup
    exact (List.nodup_append.mp hnodup).1
  funext u
  by_cases hus : u = s
  · subst hus
    rw [Function.update_self, holderOf_eq_some_iff hnodup]
    simp
  · rw [Function.update_of_ne hus]
    refine holderOf_congr hheld hnodup fun k => ?_
    simp [hus]

/-- A session is given back. -/
theorem holderOf_erase
    {caller : Nat} {s : σ}
    (hnodup : (held.map Prod.snd).Nodup)
    (hs : (caller, s) ∈ held) :
    holderOf (held.erase (caller, s)) =
      Function.update (holderOf held) s none := by
  have hperm := map_snd_perm_cons_erase hs
  obtain ⟨hnot, herase⟩ :=
    List.nodup_cons.mp (hperm.nodup_iff.mp hnodup)
  funext u
  by_cases hus : u = s
  · subst hus
    rw [Function.update_self, holderOf_eq_none_iff]
    exact hnot
  · rw [Function.update_of_ne hus]
    refine holderOf_congr hnodup herase fun k => ?_
    exact List.mem_erase_of_ne fun heq => hus (Prod.mk.inj heq).2

end Holders

/-- The loans an event shows: `getSession` calls back with a session, or a caller
releases one it holds. -/
def Pool.shows
    (p : Pool σ) : Event σ → List (Loan Nat σ)
  | .finishAcquire =>
      match p.resolved with
      | [] => []
      | (a, s) :: _ => [.lend a.caller s]
  | .release caller s =>
      if p.held.contains (caller, s) then [.giveBack caller s] else []
  | _ => []

/-- The loans of a run of the pool. -/
def loans
    (options : SessionPoolOptions) (es : List (Event σ)) :
    List (Loan Nat σ) :=
  history (step options.construct) Pool.shows
    (Pool.opened σ options.construct) es

/-- What an event shows is what it does to the sessions the callers hold. -/
inductive Hands
    (p : Pool σ) : List (Loan Nat σ) → Pool σ → Prop where
  | nothing {q : Pool σ}
      (hheld : q.held = p.held) :
      Hands p [] q
  | lend {q : Pool σ} {a : Acquire} {s : σ} {rest : List (Acquire × σ)}
      (hresolved : p.resolved = (a, s) :: rest)
      (hheld : q.held = p.held ++ [(a.caller, s)]) :
      Hands p [.lend a.caller s] q
  | giveBack {q : Pool σ} {caller : Nat} {s : σ}
      (hmem : (caller, s) ∈ p.held)
      (hheld : q.held = p.held.erase (caller, s)) :
      Hands p [.giveBack caller s] q

theorem hands_of_background
    (heq : t.background = p.background) :
    Hands p [] t :=
  .nothing (Prod.mk.inj (Prod.mk.inj heq).2).2

theorem hands_of_step
    {e : Event σ}
    (howned : p.Owned)
    (hfinish : e ≠ .finishClose)
    (hstep : step options p e = some t) :
    Hands p (p.shows e) t := by
  cases steps_of_step hstep with
  | acquire => exact .nothing rfl
  | acquireClosed => exact .nothing rfl
  | startAcquire =>
      exact hands_of_background (attempt_background _ _ _)
  | acquireTimeout => exact .nothing rfl
  | resumeWaiter =>
      exact hands_of_background (resumeWaiter_background _ _ _)
  | checkSession =>
      exact hands_of_background (checkSession_background _ _ _ _)
  | finishAcquire hresolved =>
      rw [Pool.shows, hresolved]
      exact .lend hresolved rfl
  | release hheld hs =>
      rw [Pool.shows, if_pos (List.contains_iff_mem.mpr hheld)]
      refine .giveBack hheld ?_
      obtain ⟨-, -, -, heq, -⟩ := release_frame hs
      change (p.release _).2.held.erase _ = _
      rw [heq]
  | releaseUnknown hs =>
      rename_i caller s
      have hnot : (caller, s) ∉ p.held := fun hheld =>
        hs (mem_borrowed_of_held howned hheld)
      rw [Pool.shows, if_neg (mt List.contains_iff_mem.mp hnot)]
      exact .nothing rfl
  | setLastError => exact .nothing rfl
  | batchCreated =>
      exact hands_of_background (batchCreated_background _ _ _ _)
  | batchCreateFailed => exact .nothing rfl
  | deliver himmediates =>
      refine .nothing ?_
      exact (release_frame (by simp)).2.2.2.1
  | fill => exact hands_of_background (fill_background _ _)
  | evictIdleSessions =>
      exact hands_of_background (evictLoop_background _ _ _ _ _ _)
  | pingIdleSessions =>
      exact hands_of_background (pings_background _ _ _)
  | pingSucceeded hping =>
      rename_i round s
      have hs := mem_borrowed_of_ping howned hping
      refine .nothing ?_
      rw [pingSucceeded_of_mem round
        (p := { p with pings := p.pings.erase (round, s) }) hs]
      exact
        (release_frame
          (p := { p with pings := p.pings.erase (round, s) }) hs).2.2.2.1
  | pingFailed => exact .nothing rfl
  | pingsDone =>
      exact hands_of_background (fill_background _ _)
  | deleted => exact .nothing rfl
  | tick => exact .nothing rfl
  | close => exact .nothing (close_background p).2
  | finishClose => exact absurd rfl hfinish

/-! ## The refinement -/

/-- What holds of the pool until `close` has called back. -/
def Pool.Working
    (options : SessionPoolOptions) (p : Pool σ) : Prop :=
  Inv options p ∧ p.Owned

theorem step_working
    {e : Event σ}
    (hmin : options.min ≤ options.max)
    (h : p.Working options)
    (hfinish : e ≠ .finishClose)
    (hstep : step options p e = some t) :
    t.Working options := by
  by_cases hclose : e = .close
  · subst hclose
    cases steps_of_step hstep with
    | close => exact ⟨close_inv h.1, close_owned h.2⟩
  · exact step_inv_of_ne hmin h.1 h.2 hclose hfinish hstep

theorem Pool.Working.exclusive
    (h : p.Working options) :
    (p.held.map Prod.snd).Nodup :=
  (partition_of_inv h.1 h.2).exclusive

theorem Pool.Working.lent_mem
    (h : p.Working options) :
    ∀ s, holderOf p.held s ≠ none → s ∈ p.inventory.toFinset := by
  intro s hs
  rw [ne_eq, holderOf_eq_none_iff, not_not, List.mem_map] at hs
  obtain ⟨⟨caller, s⟩, hheld, rfl⟩ := hs
  have hb := mem_borrowed_of_held h.2 hheld
  simp [Pool.inventory, hb]

theorem Pool.Working.card_le
    (h : p.Working options) :
    p.inventory.toFinset.card ≤ options.max := by
  have hcard := p.inventory.toFinset_card_le
  have hcap := h.1.capacity
  have hpending := h.1.pending
  have hcreating : 0 ≤ p.creating.sum :=
    List.sum_nonneg fun a ha => (h.1.creating a ha).le
  have hlength :
      p.inventory.length =
        p.sessions.length + (p.borrowed.length + p.immediates.length) := by
    simp [Pool.inventory]
  unfold Pool.size at hcap
  omega

/-- The lender that the pool is. -/
def Pool.lender
    (p : Pool σ) (h : p.Working options) : Lender Nat σ options.max where
  stock := p.inventory.toFinset
  holder := holderOf p.held
  lent_mem := h.lent_mem
  card_le := h.card_le

/-- Every event of the pool is one of the lender. -/
theorem pool_refines
    (hmin : options.min ≤ options.max) :
    Refines (step (σ := σ) options) (Pool.Working options)
      (fun e => e ≠ .finishClose) Lends LenderAction.visible
      (fun p h => p.lender h) Pool.shows where
  keeps _ _ _ h hfinish hstep := step_working hmin h hfinish hstep
  performs := by
    intro p e t hp ht hfinish hstep
    have hnodup := ht.exclusive
    have hhands := hands_of_step hp.2 hfinish hstep
    revert hhands
    generalize p.shows e = shown
    intro hhands
    cases hhands with
    | nothing hheld =>
        refine ⟨[.restock], .single (.restock ?_), rfl⟩
        exact congrArg holderOf hheld
    | lend hresolved hheld =>
        rename_i a s rest
        refine ⟨[.loan (.lend a.caller s)], .single (.lend ?_ ?_), rfl⟩
        · rw [hheld, List.map_append, List.nodup_append] at hnodup
          refine holderOf_eq_none_iff.mpr fun hmem => ?_
          exact hnodup.2.2 s hmem s (by simp) rfl
        · rw [hheld] at hnodup
          exact (congrArg holderOf hheld).trans (holderOf_snoc hnodup)
    | giveBack hmem hheld =>
        rename_i caller s
        refine
          ⟨[.loan (.giveBack caller s)], .single (.giveBack ?_ ?_), rfl⟩
        · exact (holderOf_eq_some_iff hp.exclusive).mpr hmem
        · exact
            (congrArg holderOf hheld).trans
              (holderOf_erase hp.exclusive hmem)

omit [DecidableEq σ] in
theorem opened_working
    (hmin : options.min ≤ options.max) :
    (Pool.opened σ options).Working options := by
  have hlife :=
    fill_life options
      { Pool.new σ with
        isOpen := true
        houseKeeping := true }
  exact (opened_good hmin (Prod.mk.inj hlife).1).2

omit [DecidableEq σ] in
/-- Nobody has a session when the pool opens. -/
theorem opened_held
    (options : SessionPoolOptions) :
    (Pool.opened σ options).held = [] := by
  have heq :=
    fill_background options
      { Pool.new σ with
        isOpen := true
        houseKeeping := true }
  exact (Prod.mk.inj (Prod.mk.inj heq).2).2

/-- Until `close` has called back the loans of every run are in order. -/
theorem loans_orderly_of_run
    (options : SessionPoolOptions) (es : List (Event σ)) (p : Pool σ)
    (hrun : runPool options es = some p)
    (hfinish : .finishClose ∉ es) :
    Orderly options.max (loans options es) := by
  have hmin := construct_min_le options
  obtain ⟨_, acts, hacts, hshown⟩ :=
    (pool_refines hmin).run_performs (opened_working hmin)
      (fun e he heq => hfinish (heq ▸ he)) hrun
  have hfirst :
      Lends Lender.empty .restock
        ((Pool.opened σ options.construct).lender (opened_working hmin)) :=
    .restock (congrArg holderOf (opened_held options.construct))
  have horderly := orderly_of_performs (.cons hfirst hacts)
  rw [List.filterMap_cons] at horderly
  rw [loans, ← hshown]
  exact horderly

/-- One session, lent to two callers one after the other. -/
def lentTwice : List (Event Nat) :=
  [.acquire 7, .startAcquire, .batchCreated 0 [0], .deliver, .resumeWaiter,
    .checkSession, .finishAcquire, .acquire 8, .startAcquire, .release 7 0,
    .resumeWaiter, .checkSession, .finishAcquire]

theorem loans_orderly_of_run_lentTwice :
    loans { min := 0, max := 1 } lentTwice =
        [.lend 7 0, .giveBack 7 0, .lend 8 0] ∧
      Orderly 1 (loans { min := 0, max := 1 } lentTwice) := by
  obtain ⟨p, hrun⟩ :
      ∃ p : Pool Nat,
        runPool { min := 0, max := 1 } lentTwice = some p :=
    ⟨_, rfl⟩
  exact
    ⟨rfl,
      loans_orderly_of_run { min := 0, max := 1 } lentTwice p hrun
        (by decide)⟩

end SessionPool
end SpannerClient
