import SpannerClient.SessionPool.Basic

/-!
# Eviction of idle sessions

`_evictIdleSessions` pops sessions from a copy of the idle ones, as long as more
than `maxIdle` of them are left and the pool is larger than `min`, and removes
each from the inventory.  Both counters run down in the condition of the loop, so
the number of sessions it removes is the smaller of the two distances.

`Removes` says that one pool is another without some of its sessions, which are
being deleted; the loop removes idle sessions, and as many as that
(`evictLoop_removes`, by induction on the loop).  The main result is
`evictIdleSessions_evicts`, for every pool.
-/

namespace SpannerClient
namespace SessionPool

open Machine

variable {σ : Type} [DecidableEq σ]

/-- The session has not been used for `idlesAfter` minutes. -/
def Pool.IsIdle
    (options : SessionPoolOptions) (p : Pool σ) (s : σ) : Prop :=
  p.lastUsed s + options.idlesAfter * 60000 ≤ p.now

instance (options : SessionPoolOptions) (p : Pool σ) (s : σ) :
    Decidable (p.IsIdle options s) :=
  inferInstanceAs (Decidable (_ ≤ _))

/-- The second pool is the first without the sessions, which are being deleted. -/
structure Removes
    (p q : Pool σ) (removed : List σ) : Prop where
  partition : (removed ++ q.sessions).Perm p.sessions
  order : q.sessions.Sublist p.sessions
  rest :
    q =
      { p with
        sessions := q.sessions
        requests := p.requests ++ removed.map fun s => (none, s)
        deletes := p.deletes ++ removed }

omit [DecidableEq σ] in
theorem removes_refl
    (p : Pool σ) :
    Removes p p [] where
  partition := .refl _
  order := .refl _
  rest := by simp

/-- One session is removed, and then the others. -/
theorem removes_cons
    {p q : Pool σ} {s : σ} {removed : List σ}
    (hs : s ∈ p.sessions)
    (h :
      Removes
        (Pool.destroy { p with sessions := spliceOut p.sessions s } none s) q
        removed) :
    Removes p q (s :: removed) := by
  have hsplice := spliceOut_of_mem hs
  have hpartition := h.partition
  have horder := h.order
  have hrest := h.rest
  simp only [Pool.destroy, hsplice] at hpartition horder hrest
  refine ⟨?_, horder.trans List.erase_sublist, ?_⟩
  · exact (hpartition.cons s).trans (List.perm_cons_erase hs).symm
  · rw [hrest]
    simp

omit [DecidableEq σ] in
theorem Removes.borrowed_eq
    {p q : Pool σ} {removed : List σ}
    (h : Removes p q removed) :
    q.borrowed = p.borrowed := by
  rw [h.rest]

omit [DecidableEq σ] in
theorem Removes.size_eq
    {p q : Pool σ} {removed : List σ}
    (h : Removes p q removed) :
    q.size = p.size - removed.length := by
  have hpending : q.pending = p.pending := by rw [h.rest]
  have hlength := h.partition.length_eq
  rw [List.length_append] at hlength
  rw [Pool.size, Pool.size, h.borrowed_eq, hpending]
  omega

/-- The loop removes as many idle sessions as the smaller of the two distances
allows. -/
theorem evictLoop_removes
    {options : SessionPoolOptions}
    (size : Int) (count : Nat) (evicted : Int) (idle : List σ) (p : Pool σ)
    (hcount : idle.length = count)
    (hidle : idle.Subperm p.sessions) :
    ∃ removed,
      Removes p (Pool.evictLoop options size count evicted idle p) removed ∧
        (∀ s ∈ removed, s ∈ idle) ∧
        (removed.length : Int) =
          max 0
            (min ((count : Int) - options.maxIdle)
              (size - evicted - options.min)) := by
  induction count generalizing evicted idle p with
  | zero =>
      refine ⟨[], removes_refl p, by simp, ?_⟩
      simp only [List.length_nil]
      omega
  | succ count ih =>
      rw [Pool.evictLoop]
      split
      · rename_i hmore
        obtain ⟨rest, s, rfl⟩ :=
          (List.eq_nil_or_concat idle).resolve_left fun hnil => by
            simp [hnil] at hcount
        have hperm : (s :: rest).Perm (rest ++ [s]) :=
          (List.perm_append_singleton s rest).symm
        have hsub : (s :: rest).Subperm p.sessions :=
          hperm.subperm.trans (by simpa using hidle)
        have hs : s ∈ p.sessions := hsub.subset List.mem_cons_self
        have hrest : rest.Subperm (p.sessions.erase s) := by
          have herase := hsub.erase s
          rwa [List.erase_cons_head] at herase
        have hlength : rest.length = count := by simpa using hcount
        simp only [List.concat_eq_append, List.getLast?_append,
          List.getLast?_singleton, Option.some_or, List.dropLast_concat]
        obtain ⟨removed, hremoves, hmem, hnumber⟩ :=
          ih (evicted + 1) rest
            (Pool.destroy { p with sessions := spliceOut p.sessions s } none s)
            hlength (by
              rw [Pool.destroy, spliceOut_of_mem hs]
              exact hrest)
        refine ⟨s :: removed, removes_cons hs hremoves, ?_, ?_⟩
        · intro t ht
          rcases List.mem_cons.mp ht with rfl | ht
          · simp
          · exact List.mem_append_left _ (hmem t ht)
        · simp only [List.length_cons]
          omega
      · rename_i hdone
        refine ⟨[], removes_refl p, by simp, ?_⟩
        simp only [List.length_nil]
        omega

/-- A pass of `_evictIdleSessions` removes these sessions. -/
structure Evicts
    (options : SessionPoolOptions) (p q : Pool σ) (removed : List σ) :
    Prop where
  /-- As many as exceed `maxIdle`, if the pool stays as large as `min`. -/
  number :
    (removed.length : Int) =
      max 0
        (min
          (((p.sessions.countP fun s => decide (p.IsIdle options s)) : Int) -
            options.maxIdle)
          (p.size - options.min))
  idle : ∀ s ∈ removed, p.IsIdle options s
  removes : Removes p q removed
  once : p.sessions.Nodup → removed.Nodup ∧ ∀ s ∈ removed, s ∉ q.sessions
  borrowed : q.borrowed = p.borrowed
  atLeastMin : options.min ≤ p.size → options.min ≤ q.size

/-- Eviction is exact, whatever the pool. -/
theorem evictIdleSessions_evicts
    (options : SessionPoolOptions) (p : Pool σ) :
    ∃ removed, Evicts options p (p.evictIdleSessions options) removed := by
  have hidle : (p.getIdleSessions options).Subperm p.sessions :=
    List.filter_sublist.subperm
  obtain ⟨removed, hremoves, hmem, hnumber⟩ :=
    evictLoop_removes p.size _ 0 (p.getIdleSessions options) p rfl hidle
  have hcount :
      (p.getIdleSessions options).length =
        p.sessions.countP fun s => decide (p.IsIdle options s) :=
    List.countP_eq_length_filter.symm
  change Removes p (p.evictIdleSessions options) removed at hremoves
  rw [hcount, Int.sub_zero] at hnumber
  refine ⟨removed, hnumber, ?_, hremoves, ?_, hremoves.borrowed_eq, ?_⟩
  · intro s hs
    exact of_decide_eq_true (List.mem_filter.mp (hmem s hs)).2
  · intro hnodup
    have happend := hremoves.partition.nodup_iff.mpr hnodup
    rw [List.nodup_append] at happend
    exact ⟨happend.1, fun s hs hmem => happend.2.2 s hs s hmem rfl⟩
  · intro hmin
    rw [hremoves.size_eq]
    omega

end SessionPool
end SpannerClient
