import SpannerClient.Machine.History
import SpannerClient.SessionPool.Eviction
import SpannerClient.SessionPool.Partition
import SpannerClient.SessionPool.Wakeup

/-!
# Keeping the sessions alive

The backend forgets a session that has not been used for an hour, and the pool
throws such a session away when it comes across it.  The keep-alive timer makes it
ping the sessions that have been idle for a while.  If the timer and the idle time
together stay below the hour, no idle session grows too old, and the pool loses no
session without having it deleted or having been told that it is gone.

`KeptPool` is the pool with the clock of the timer, which may be late.  What an
operation does to the sessions at hand and their times is `Moves`; the invariant
`Kept` bounds the age of every session that is idle or is being looked at.  The main
result is `kept_alive`.
-/

namespace SpannerClient
namespace SessionPool

open Machine

variable {σ : Type} [DecidableEq σ]

/-- A pool, with the time of the last round of pings or of its opening. -/
structure KeptPool (σ : Type) where
  pool : Pool σ
  pinged : Nat

namespace Pool

/-- The session is released and known to be gone from the backend. -/
def reported
    (p : Pool σ) (s : σ) : List σ :=
  if s ∈ p.borrowed ∧ isSessionNotFoundError (p.lastError s) = true then
    [s]
  else
    []

/-- The sessions that an event reports to be gone. -/
def reports
    (p : Pool σ) : Event σ → List σ
  | .release _ s => p.reported s
  | .pingSucceeded _ s => p.reported s
  | _ => []

end Pool

namespace KeptPool

/-- One event, unless the clock then passes the time of the next round of pings. -/
def step
    (options : SessionPoolOptions) (period : Nat)
    (s : KeptPool σ) (e : Event σ) : Option (KeptPool σ) :=
  (SessionPool.step options s.pool e).bind fun pool =>
    if pool.houseKeeping = true ∧ s.pinged + period < pool.now then
      none
    else
      some
        { pool := pool
          pinged :=
            match e with
            | .pingIdleSessions => pool.now
            | _ => s.pinged }

end KeptPool

/-! ## What the operations do -/

/-- Sessions become idle and are used only now, and each of them stays in the
inventory, has a delete issued for it or is one of those listed. -/
structure Moves
    (p t : Pool σ) (lost : List σ) : Prop where
  now : t.now = p.now
  lastUsed : ∀ x, t.lastUsed x = p.lastUsed x ∨ t.lastUsed x = p.now
  sessions : ∀ x ∈ t.sessions, x ∈ p.sessions ∨ t.lastUsed x = p.now
  current :
    ∀ x ∈ t.currentSession,
      x ∈ p.currentSession ∨ x ∈ p.sessions ∨ t.lastUsed x = p.now
  account :
    ∃ fresh, t.created = p.created ++ fresh ∧
      (t.inventory ++ (t.deletes ++ lost)).Perm
        (p.inventory ++ (p.deletes ++ fresh))

/-- What most operations leave alone. -/
def Pool.stock
    (p : Pool σ) :=
  (p.now, p.lastUsed, p.sessions, p.borrowed, p.immediates, p.deletes,
    p.created)

section Operations

variable {options : SessionPoolOptions} {p q t : Pool σ} {lost lost' : List σ}

omit [DecidableEq σ] in
theorem perm_swap
    (xs ys zs ws : List σ) :
    ((xs ++ (ys ++ zs)) ++ ws).Perm ((xs ++ (ys ++ ws)) ++ zs) := by
  simp only [List.append_assoc]
  exact (List.perm_append_comm.append_left ys).append_left xs

/-- A borrowed session leaves the inventory. -/
theorem inventory_erase_borrowed
    {sessions borrowed immediates deletes : List σ} {s : σ}
    (hs : s ∈ borrowed) :
    ((sessions ++ (borrowed.erase s ++ immediates)) ++ (deletes ++ [s])).Perm
      ((sessions ++ (borrowed ++ immediates)) ++ deletes) := by
  have hborrowed : borrowed.Perm (s :: borrowed.erase s) :=
    List.perm_cons_erase hs
  refine List.perm_iff_count.mpr fun x => ?_
  have hcount := hborrowed.count_eq x
  simp only [List.count_append, List.count_cons, List.count_nil] at hcount ⊢
  omega

/-- Idle sessions leave the inventory. -/
theorem inventory_remove_idle
    {idle rest removed borrowed immediates deletes : List σ}
    (hidle : (removed ++ rest).Perm idle) :
    ((rest ++ (borrowed ++ immediates)) ++ (deletes ++ removed)).Perm
      ((idle ++ (borrowed ++ immediates)) ++ deletes) := by
  refine List.perm_iff_count.mpr fun x => ?_
  have hcount := hidle.count_eq x
  simp only [List.count_append] at hcount ⊢
  omega

/-- A session at hand is borrowed. -/
theorem inventory_deliver
    {sessions borrowed rest : List σ} {s : σ}
    (hs : s ∉ borrowed) :
    (sessions ++ (setAdd borrowed s ++ rest)).Perm
      (sessions ++ (borrowed ++ s :: rest)) := by
  have hadd := (setAdd_perm hs).append_right rest
  exact (hadd.trans List.perm_middle.symm).append_left sessions

section

omit [DecidableEq σ]

theorem not_borrowed_of_idle
    (hnodup : p.inventory.Nodup)
    {s : σ}
    (hs : s ∈ p.sessions) :
    s ∉ p.borrowed := by
  intro hb
  exact
    (List.nodup_append.mp hnodup).2.2 s hs s (List.mem_append_left _ hb) rfl

theorem Moves.trans
    (h : Moves p q lost) (h' : Moves q t lost') :
    Moves p t (lost ++ lost') where
  now := h'.now.trans h.now
  lastUsed := by
    intro x
    rcases h'.lastUsed x with heq | heq
    · rw [heq]
      exact h.lastUsed x
    · exact Or.inr (heq.trans h.now)
  sessions := by
    intro x hx
    rcases h'.sessions x hx with hx' | heq
    · refine (h.sessions x hx').imp_right fun hused => ?_
      rcases h'.lastUsed x with heq | heq
      · exact heq.trans hused
      · exact heq.trans h.now
    · exact Or.inr (heq.trans h.now)
  current := by
    have hused {x : σ} (hq : q.lastUsed x = p.now) : t.lastUsed x = p.now := by
      rcases h'.lastUsed x with heq | heq
      · exact heq.trans hq
      · exact heq.trans h.now
    intro x hx
    rcases h'.current x hx with hx' | hx' | heq
    · exact (h.current x hx').imp_right (Or.imp_right hused)
    · exact Or.inr ((h.sessions x hx').imp_right hused)
    · exact Or.inr (Or.inr (heq.trans h.now))
  account := by
    obtain ⟨fresh, hcreated, hperm⟩ := h.account
    obtain ⟨fresh', hcreated', hperm'⟩ := h'.account
    refine ⟨fresh ++ fresh', ?_, ?_⟩
    · rw [hcreated', hcreated, List.append_assoc]
    · calc
        (t.inventory ++ (t.deletes ++ (lost ++ lost'))).Perm
            ((t.inventory ++ (t.deletes ++ lost')) ++ lost) :=
          (List.perm_append_comm.append_left t.deletes).append_left
            t.inventory |>.trans (by simp)
        _ |>.Perm ((q.inventory ++ (q.deletes ++ fresh')) ++ lost) :=
          hperm'.append_right lost
        _ |>.Perm ((q.inventory ++ (q.deletes ++ lost)) ++ fresh') :=
          perm_swap _ _ _ _
        _ |>.Perm ((p.inventory ++ (p.deletes ++ fresh)) ++ fresh') :=
          hperm.append_right fresh'
        _ |>.Perm (p.inventory ++ (p.deletes ++ (fresh ++ fresh'))) := by
          simp

/-- What has been accounted for before. -/
theorem Moves.accounted
    {gone : List σ}
    (h : Moves p t lost)
    (haccount : p.created.Perm (p.inventory ++ (p.deletes ++ gone))) :
    t.created.Perm (t.inventory ++ (t.deletes ++ (gone ++ lost))) := by
  obtain ⟨fresh, hcreated, hperm⟩ := h.account
  calc
    t.created.Perm ((p.inventory ++ (p.deletes ++ gone)) ++ fresh) := by
      rw [hcreated]
      exact haccount.append_right fresh
    _ |>.Perm ((p.inventory ++ (p.deletes ++ fresh)) ++ gone) :=
      perm_swap _ _ _ _
    _ |>.Perm ((t.inventory ++ (t.deletes ++ lost)) ++ gone) :=
      hperm.symm.append_right gone
    _ |>.Perm (t.inventory ++ (t.deletes ++ (gone ++ lost))) := by
      simpa using
        (List.perm_append_comm.append_left t.deletes).append_left t.inventory

theorem account_of_perm
    (hcreated : t.created = p.created)
    (hperm :
      (t.inventory ++ (t.deletes ++ lost)).Perm
        (p.inventory ++ p.deletes)) :
    ∃ fresh, t.created = p.created ++ fresh ∧
      (t.inventory ++ (t.deletes ++ lost)).Perm
        (p.inventory ++ (p.deletes ++ fresh)) :=
  ⟨[], by rw [hcreated, List.append_nil], by rwa [List.append_nil]⟩

/-- The sessions only move within the inventory. -/
theorem account_of_inventory
    (hcreated : t.created = p.created)
    (hdeletes : t.deletes = p.deletes)
    (hinventory : t.inventory.Perm p.inventory) :
    ∃ fresh, t.created = p.created ++ fresh ∧
      (t.inventory ++ (t.deletes ++ [])).Perm
        (p.inventory ++ (p.deletes ++ fresh)) := by
  refine account_of_perm hcreated ?_
  rw [hdeletes, List.append_nil]
  exact hinventory.append_right p.deletes

/-- Nothing happens to the sessions. -/
theorem moves_of_same
    (hstock : t.stock = p.stock)
    (hcurrent : ∀ x ∈ t.currentSession, x ∈ p.currentSession) :
    Moves p t [] := by
  simp only [Pool.stock, Prod.mk.injEq] at hstock
  obtain ⟨hnow, hlastUsed, hsessions, hborrowed, himmediates, hdeletes, hcreated⟩ :=
    hstock
  exact
    { now := hnow
      lastUsed := fun x => Or.inl (by rw [hlastUsed])
      sessions := fun x hx => Or.inl (hsessions ▸ hx)
      current := fun x hx => Or.inl (hcurrent x hx)
      account := by
        refine account_of_inventory hcreated hdeletes (List.Perm.of_eq ?_)
        rw [Pool.inventory, Pool.inventory, hsessions, hborrowed, himmediates] }

/-- The operation leaves the running acquire alone as well. -/
theorem moves_of_frame
    (hstock : t.stock = p.stock)
    (hcurrent : t.current = p.current) :
    Moves p t [] := by
  refine moves_of_same hstock fun x hx => ?_
  rw [Pool.currentSession, hcurrent] at hx
  exact hx

theorem wake_moves
    (p : Pool σ) (result : Except (AcquireError σ) Unit) :
    Moves p (p.wake result) [] := by
  refine moves_of_same rfl fun x hx => ?_
  rw [wake_currentSession] at hx
  exact hx

end

/-- The running acquire is given the next idle session. -/
theorem takeIdle_moves
    (hnodup : p.inventory.Nodup) (a : Acquire) :
    Moves p
      { p.borrowNextAvailableSession.2 with
        current := some (a, .returned p.borrowNextAvailableSession.1) }
      [] := by
  unfold Pool.borrowNextAvailableSession
  split
  · exact moves_of_same rfl fun x hx => by
      simp [Pool.currentSession] at hx
  · rename_i s hs
    refine
      { now := rfl
        lastUsed := fun x => Or.inl rfl
        sessions := fun x hx => Or.inl (List.mem_of_mem_dropLast hx)
        current := fun x hx => ?_
        account := account_of_inventory rfl rfl ?_ }
    · obtain rfl : x = s := by
        simpa [Pool.currentSession] using hx
      exact Or.inr (Or.inl (List.mem_of_getLast? hs))
    · exact
        inventory_move_borrowed (dropLast_append_getLast_perm hs)
          (not_borrowed_of_idle hnodup (List.mem_of_getLast? hs))

section

omit [DecidableEq σ]

theorem createSessions_moves
    (p : Pool σ) (amount : Int) :
    Moves p (p.createSessions amount) [] := by
  unfold Pool.createSessions
  split <;> exact moves_of_frame rfl rfl

theorem fill_moves
    (options : SessionPoolOptions) (p : Pool σ) :
    Moves p (p.fill options) [] := by
  unfold Pool.fill
  dsimp only
  split
  · exact moves_of_frame rfl rfl
  · exact createSessions_moves p _

theorem createForWaiter_moves
    (options : SessionPoolOptions) (p : Pool σ) :
    Moves p (p.createForWaiter options) [] := by
  rcases createForWaiter_cases options p with heq | heq
  · rw [heq]
    exact moves_of_frame rfl rfl
  · rw [heq]
    exact createSessions_moves p _

/-- The running acquire has no session. -/
theorem moves_of_no_session
    (hstock : t.stock = p.stock)
    (hcurrent : t.currentSession = []) :
    Moves p t [] := by
  refine moves_of_same hstock fun x hx => ?_
  rw [hcurrent] at hx
  cases hx

end

theorem attempt_moves
    (options : SessionPoolOptions) (hnodup : p.inventory.Nodup) (a : Acquire) :
    Moves p (p.attempt options a) [] := by
  unfold Pool.attempt Pool.getSession
  split
  · exact moves_of_no_session rfl rfl
  · split
    · exact takeIdle_moves hnodup a
    · split
      · exact moves_of_no_session rfl rfl
      · exact
          (createForWaiter_moves options p).trans
            (moves_of_no_session rfl rfl)

theorem resumeWaiter_moves
    (hnodup : p.inventory.Nodup) (a : Acquire)
    (result : Except (AcquireError σ) Unit) :
    Moves p (p.resumeWaiter a result) [] := by
  have hleft :
      Moves p { p with waiters := p.waiters - 1, current := none } [] :=
    moves_of_no_session rfl rfl
  cases result with
  | ok _ =>
      exact
        hleft.trans
          (takeIdle_moves
            (p := { p with waiters := p.waiters - 1, current := none })
            hnodup a)
  | error error => exact hleft.trans (moves_of_no_session rfl rfl)

/-- The session that the running acquire has been given is young enough. -/
theorem checkSession_moves
    {s : Option σ} (p : Pool σ) (a : Acquire)
    (hvalid : ∀ x, s = some x → p.isValidSession x = true) :
    Moves p (p.checkSession options a s) [] := by
  cases s with
  | none => exact moves_of_no_session rfl rfl
  | some x =>
      simp only [Pool.checkSession]
      rw [if_pos (hvalid x rfl)]
      exact moves_of_no_session rfl rfl

/-- A borrowed session is released. -/
theorem release_moves
    {s : σ}
    (hs : s ∈ p.borrowed) :
    Moves p (p.release s).2 (p.reported s) := by
  have hused (x : σ) :
      Function.update p.lastUsed s p.now x = p.lastUsed x ∨
        Function.update p.lastUsed s p.now x = p.now := by
    by_cases hx : x = s
    · subst hx
      exact Or.inr (Function.update_self ..)
    · exact Or.inl (Function.update_of_ne hx ..)
  rw [Pool.release, if_neg (by simpa using hs)]
  dsimp only
  split
  · rename_i hgone
    rw [Pool.reported, if_pos ⟨hs, hgone⟩]
    exact
      { now := rfl
        lastUsed := hused
        sessions := fun x hx => Or.inl hx
        current := fun x hx => Or.inl hx
        account := account_of_perm rfl (inventory_erase_borrowed hs) }
  · rename_i hfound
    rw [Pool.reported, if_neg fun hboth => hfound hboth.2]
    refine Moves.trans (?_ : Moves p _ []) (wake_moves _ _)
    refine
      { now := rfl
        lastUsed := hused
        sessions := fun x hx => ?_
        current := fun x hx => Or.inl hx
        account := account_of_inventory rfl rfl (inventory_move_idle hs) }
    rcases List.mem_append.mp hx with hx | hx
    · exact Or.inl hx
    · obtain rfl := List.mem_singleton.mp hx
      exact Or.inr (Function.update_self ..)

/-- A new session is handed to the pool. -/
theorem deliver_moves
    {s : σ} {rest : List σ}
    (himmediates : p.immediates = s :: rest)
    (hborrowed : s ∉ p.borrowed)
    (hfresh : p.lastError s = none) :
    Moves p (Pool.deliver { p with immediates := rest } s) [] := by
  have hmoved :
      Moves p
        { p with
          immediates := rest
          borrowed := setAdd p.borrowed s
          pending := p.pending - 1 }
        [] := by
    refine
      { now := rfl
        lastUsed := fun x => Or.inl rfl
        sessions := fun x hx => Or.inl hx
        current := fun x hx => Or.inl hx
        account := account_of_inventory rfl rfl ?_ }
    rw [Pool.inventory, Pool.inventory, himmediates]
    exact inventory_deliver hborrowed
  have hnone :
      Pool.reported
        { p with
          immediates := rest
          borrowed := setAdd p.borrowed s
          pending := p.pending - 1 } s = [] := by
    rw [Pool.reported, if_neg]
    rintro ⟨-, hgone⟩
    rw [show
      ({ p with
          immediates := rest
          borrowed := setAdd p.borrowed s
          pending := p.pending - 1 } : Pool σ).lastError s = none from
        hfresh] at hgone
    cases hgone
  have hreleased :=
    release_moves
      (p :=
        { p with
          immediates := rest
          borrowed := setAdd p.borrowed s
          pending := p.pending - 1 })
      (mem_setAdd.mpr (Or.inr rfl))
  rw [hnone] at hreleased
  exact hmoved.trans hreleased

/-- A session that cannot be pinged is deleted. -/
theorem pingFailed_moves
    {s : σ}
    (hs : s ∈ p.borrowed) (round : Nat) :
    Moves p (p.pingFailed round s) [] where
  now := rfl
  lastUsed := fun x => Or.inl rfl
  sessions := fun x hx => Or.inl hx
  current := fun x hx => Or.inl hx
  account := by
    refine account_of_perm rfl ?_
    rw [List.append_nil]
    exact inventory_erase_borrowed hs

/-- The evicted sessions are deleted. -/
theorem evictIdleSessions_moves
    (options : SessionPoolOptions) (p : Pool σ) :
    Moves p (p.evictIdleSessions options) [] := by
  have hidle : (p.getIdleSessions options).Subperm p.sessions :=
    List.filter_sublist.subperm
  obtain ⟨removed, hremoves, -, -⟩ :=
    evictLoop_removes p.size _ 0 (p.getIdleSessions options) p rfl hidle
  change Removes p (p.evictIdleSessions options) removed at hremoves
  generalize p.evictIdleSessions options = t at hremoves ⊢
  have hall := hremoves.partition
  have horder := hremoves.order
  obtain ⟨sessions, rfl⟩ : ∃ sessions, t =
      { p with
        sessions := sessions
        requests := p.requests ++ removed.map fun s => (none, s)
        deletes := p.deletes ++ removed } :=
    ⟨t.sessions, hremoves.rest⟩
  refine
    { now := rfl
      lastUsed := fun x => Or.inl rfl
      sessions := fun x hx => Or.inl (horder.subset hx)
      current := fun x hx => Or.inl hx
      account := account_of_perm rfl ?_ }
  rw [List.append_nil]
  exact inventory_remove_idle hall

/-- A session that is not too old is pinged. -/
theorem ping_eq
    {s : σ}
    (hs : s ∈ p.sessions)
    (hvalid : p.isValidSession s = true)
    (round : Nat) :
    Pool.ping round p s =
      { p with
        borrowed := setAdd p.borrowed s
        sessions := p.sessions.erase s
        pings := p.pings ++ [(round, s)] } := by
  have hstill : (p.borrow s).isValidSession s = true := hvalid
  unfold Pool.ping
  dsimp only
  rw [if_pos hstill, Pool.borrow, spliceOut_of_mem hs]

theorem ping_inventory
    {s : σ}
    (hnodup : p.inventory.Nodup)
    (hs : s ∈ p.sessions)
    (hvalid : p.isValidSession s = true)
    (round : Nat) :
    (Pool.ping round p s).inventory.Perm p.inventory := by
  rw [ping_eq hs hvalid]
  exact
    inventory_move_borrowed (List.perm_cons_erase hs).symm
      (not_borrowed_of_idle hnodup hs)

theorem ping_moves
    {s : σ}
    (hnodup : p.inventory.Nodup)
    (hs : s ∈ p.sessions)
    (hvalid : p.isValidSession s = true)
    (round : Nat) :
    Moves p (Pool.ping round p s) [] := by
  have hinventory := ping_inventory hnodup hs hvalid round
  rw [ping_eq hs hvalid] at hinventory ⊢
  exact
    { now := rfl
      lastUsed := fun x => Or.inl rfl
      sessions := fun x hx => Or.inl (List.mem_of_mem_erase hx)
      current := fun x hx => Or.inl hx
      account := account_of_inventory rfl rfl hinventory }

/-- New sessions arrive. -/
theorem batchCreated_moves
    (p : Pool σ) (i : Nat) (amount : Int) (sessions : List σ) :
    Moves p (p.batchCreated i amount sessions) [] := by
  have harrived {t : Pool σ}
      (hstock :
        t.stock =
          (p.now, p.lastUsed, p.sessions, p.borrowed,
            p.immediates ++ sessions, p.deletes, p.created ++ sessions))
      (hcurrent : t.currentSession = p.currentSession) :
      Moves p t [] := by
    simp only [Pool.stock, Prod.mk.injEq] at hstock
    obtain ⟨hnow, hlastUsed, hsessions, hborrowed, himmediates, hdeletes,
      hcreated⟩ := hstock
    refine
      { now := hnow
        lastUsed := fun x => Or.inl (by rw [hlastUsed])
        sessions := fun x hx => Or.inl (hsessions ▸ hx)
        current := fun x hx => Or.inl (hcurrent ▸ hx)
        account := ⟨sessions, hcreated, ?_⟩ }
    rw [Pool.inventory, Pool.inventory, hsessions, hborrowed, himmediates,
      hdeletes, List.append_nil]
    refine List.perm_iff_count.mpr fun x => ?_
    simp only [List.count_append]
    omega
  unfold Pool.batchCreated
  dsimp only
  split <;> exact harrived rfl rfl

/-- A round of pings borrows its sessions, if none of them is too old. -/
theorem pings_moves
    (round : Nat) (idle : List σ)
    (hinventory : p.inventory.Nodup)
    (hnodup : idle.Nodup)
    (hidle : ∀ s ∈ idle, s ∈ p.sessions)
    (hvalid : ∀ s ∈ idle, p.isValidSession s = true) :
    Moves p (idle.foldl (Pool.ping round) p) [] ∧
      (idle.foldl (Pool.ping round) p).lastUsed = p.lastUsed ∧
      ∀ s ∈ (idle.foldl (Pool.ping round) p).sessions,
        s ∈ p.sessions ∧ s ∉ idle := by
  induction idle generalizing p with
  | nil => exact ⟨moves_of_frame rfl rfl, rfl, fun s hs => ⟨hs, List.not_mem_nil⟩⟩
  | cons s idle ih =>
      obtain ⟨hs, hrest⟩ := List.nodup_cons.mp hnodup
      have hmem : s ∈ p.sessions := hidle s List.mem_cons_self
      have hyoung : p.isValidSession s = true := hvalid s List.mem_cons_self
      have hping := ping_eq hmem hyoung round
      have hfirst := ping_moves hinventory hmem hyoung round
      have hidle' : ∀ x ∈ idle, x ∈ (Pool.ping round p s).sessions := by
        intro x hx
        have hne : x ≠ s := by
          rintro rfl
          exact hs hx
        rw [hping]
        exact (List.mem_erase_of_ne hne).mpr (hidle x (List.mem_cons_of_mem s hx))
      have hvalid' :
          ∀ x ∈ idle, (Pool.ping round p s).isValidSession x = true := by
        intro x hx
        rw [hping]
        exact hvalid x (List.mem_cons_of_mem s hx)
      have hinventory' : (Pool.ping round p s).inventory.Nodup :=
        (ping_inventory hinventory hmem hyoung round).nodup_iff.mpr hinventory
      obtain ⟨hmoves, hused, hleft⟩ := ih hinventory' hrest hidle' hvalid'
      refine ⟨hfirst.trans hmoves, hused.trans (by rw [hping]), fun x hx => ?_⟩
      obtain ⟨hx', hnot⟩ := hleft x hx
      rw [hping] at hx'
      refine ⟨List.mem_of_mem_erase hx', ?_⟩
      rintro hmem'
      rcases List.mem_cons.mp hmem' with rfl | hmem'
      · exact (List.nodup_append.mp hinventory).1.not_mem_erase hx'
      · exact hnot hmem'

/-- The round of pings: what stays idle has been used lately. -/
theorem pingIdleSessions_moves
    (hinv : Inv options p)
    (hsettled : p.settled = true)
    (hvalid : ∀ x ∈ p.sessions, p.isValidSession x = true) :
    Moves p (p.pingIdleSessions options) [] ∧
      (p.pingIdleSessions options).currentSession = [] ∧
      ∀ x ∈ (p.pingIdleSessions options).sessions,
        p.now ≤
          (p.pingIdleSessions options).lastUsed x +
            options.idlesAfter * 60000 := by
  have hround :
      Moves p
        { p with
          rounds := p.rounds ++ [p.nextRound]
          nextRound := p.nextRound + 1 }
        [] :=
    moves_of_frame rfl rfl
  obtain ⟨hmoves, hused, hleft⟩ :=
    pings_moves
      (p :=
        { p with
          rounds := p.rounds ++ [p.nextRound]
          nextRound := p.nextRound + 1 })
      p.nextRound (p.getIdleSessions options) hinv.nodup
      ((sessions_nodup hinv).filter _)
      (fun s hs => (List.mem_filter.mp hs).1)
      (fun s hs => hvalid s (List.mem_filter.mp hs).1)
  refine ⟨hround.trans hmoves, ?_, fun x hx => ?_⟩
  · have hcurrent : (p.pingIdleSessions options).current = p.current :=
      pings_current _ _ _
    rw [Pool.currentSession, hcurrent]
    rcases settled_current hsettled with hcur | ⟨a, hcur⟩ <;> rw [hcur]
  · obtain ⟨hidle, hnot⟩ := hleft x hx
    have hlastUsed : (p.pingIdleSessions options).lastUsed = p.lastUsed := hused
    rw [hlastUsed]
    by_contra hlate
    refine hnot (List.mem_filter.mpr ⟨hidle, ?_⟩)
    rw [decide_eq_true_iff]
    omega

/-- What an event does while no session that is at hand is too old. -/
theorem moves_of_step
    {e : Event σ}
    (hinv : Inv options p)
    (howned : p.Owned)
    (hvalid : ∀ x ∈ p.currentSession, p.isValidSession x = true)
    (hopen : t.isOpen = true)
    (hclosing : p.closing = false)
    (hping : e ≠ .pingIdleSessions)
    (htick : ∀ milliseconds, e ≠ .tick milliseconds)
    (hstep : SessionPool.step options p e = some t) :
    Moves p t (p.reports e) := by
  cases steps_of_step hstep with
  | acquire => exact moves_of_frame rfl rfl
  | acquireClosed => exact moves_of_frame rfl rfl
  | startAcquire =>
      rename_i a rest hcur hqueued
      have hstarted : Moves p { p with queued := rest } [] :=
        moves_of_frame rfl rfl
      exact
        hstarted.trans
          (attempt_moves (p := { p with queued := rest }) options hinv.nodup a)
  | acquireTimeout => exact wake_moves p _
  | resumeWaiter => exact resumeWaiter_moves hinv.nodup _ _
  | checkSession hcur =>
      refine checkSession_moves p _ fun x hx => hvalid x ?_
      rw [Pool.currentSession, hcur, hx]
      exact List.mem_singleton_self x
  | finishAcquire => exact moves_of_frame rfl rfl
  | release hheld hs =>
      rename_i caller s
      have hgiven :
          Moves (p.release s).2
            { (p.release s).2 with
              held := (p.release s).2.held.erase (caller, s) }
            [] :=
        moves_of_frame rfl rfl
      have hreleased := (release_moves hs).trans hgiven
      rw [List.append_nil] at hreleased
      exact hreleased
  | releaseUnknown hs =>
      rename_i caller s
      have hnone : p.reports (.release caller s) = [] :=
        if_neg fun hboth => hs hboth.1
      rw [hnone]
      exact moves_of_frame rfl rfl
  | setLastError => exact moves_of_frame rfl rfl
  | batchCreated => exact batchCreated_moves p _ _ _
  | batchCreateFailed =>
      rename_i i amount error hi
      have hfailed :
          Moves p
            { p with
              pending := p.pending - amount
              creating := p.creating.eraseIdx i }
            [] :=
        moves_of_frame rfl rfl
      exact hfailed.trans (wake_moves _ _)
  | deliver himmediates =>
      rename_i s rest
      have hs : s ∈ p.immediates := by
        rw [himmediates]
        exact List.mem_cons_self
      exact
        deliver_moves himmediates
          (fun hb => hinv.not_mem_immediates_of_mem_borrowed hb hs)
          (hinv.fresh s (Or.inl hs))
  | fill => exact fill_moves options p
  | evictIdleSessions => exact evictIdleSessions_moves options p
  | pingIdleSessions => exact absurd rfl hping
  | pingSucceeded hmem =>
      rename_i round s
      have hs := mem_borrowed_of_ping howned hmem
      have hdone : Moves p { p with pings := p.pings.erase (round, s) } [] :=
        moves_of_frame rfl rfl
      rw [pingSucceeded_of_mem round
        (p := { p with pings := p.pings.erase (round, s) }) hs]
      exact
        hdone.trans
          (release_moves (p := { p with pings := p.pings.erase (round, s) })
            hs)
  | pingFailed =>
      rename_i round s hmem
      have hdone : Moves p { p with pings := p.pings.erase (round, s) } [] :=
        moves_of_frame rfl rfl
      exact
        hdone.trans
          (pingFailed_moves (p := { p with pings := p.pings.erase (round, s) })
            (mem_borrowed_of_ping howned hmem) round)
  | pingsDone =>
      rename_i round hdone
      have hended : Moves p { p with rounds := p.rounds.erase round } [] :=
        moves_of_frame rfl rfl
      exact hended.trans (fill_moves options _)
  | deleted => exact moves_of_frame rfl rfl
  | tick => exact absurd rfl (htick _)
  | close =>
      rw [(Prod.mk.inj (close_life p)).1] at hopen
      cases hopen
  | finishClose hclosed =>
      rw [hclosing] at hclosed
      cases hclosed

end Operations

/-! ## The invariant -/

namespace KeptPool

variable {options : SessionPoolOptions} {period : Nat}

/-- No session that is idle, or has just been given to an acquire, was idle for too
long at the last round of pings; and each session that was created is in the
inventory, has been deleted or has been reported to be gone. -/
structure Kept
    (options : SessionPoolOptions) (period : Nat) (gone : List σ)
    (s : KeptPool σ) : Prop where
  keeping : s.pool.isOpen = true → s.pool.houseKeeping = true
  ordered : s.pool.isOpen = true → s.pinged ≤ s.pool.now
  due : s.pool.isOpen = true → s.pool.now ≤ s.pinged + period
  idle :
    s.pool.isOpen = true →
      ∀ x, x ∈ s.pool.sessions ∨ x ∈ s.pool.currentSession →
        s.pinged ≤ s.pool.lastUsed x + options.idlesAfter * 60000
  account :
    s.pool.isOpen = true →
      s.pool.created.Perm (s.pool.inventory ++ (s.pool.deletes ++ gone))

section

omit [DecidableEq σ]

/-- How long such a session has not been used. -/
theorem Kept.age
    {gone : List σ} {s : KeptPool σ}
    (h : Kept options period gone s)
    (hopen : s.pool.isOpen = true)
    {x : σ}
    (hx : x ∈ s.pool.sessions ∨ x ∈ s.pool.currentSession) :
    s.pool.now ≤
      s.pool.lastUsed x + options.idlesAfter * 60000 + period := by
  have hidle := h.idle hopen x hx
  have hdue := h.due hopen
  omega

theorem Kept.valid
    {gone : List σ} {s : KeptPool σ}
    (h : Kept options period gone s)
    (hperiod : options.idlesAfter * 60000 + period < 3600000)
    (hopen : s.pool.isOpen = true)
    {x : σ}
    (hx : x ∈ s.pool.sessions ∨ x ∈ s.pool.currentSession) :
    s.pool.isValidSession x = true := by
  have hage := h.age hopen hx
  rw [Pool.isValidSession, decide_eq_true_iff]
  omega

/-- The events but the clock and the round of pings. -/
theorem Kept.moved
    {gone lost : List σ} {s : KeptPool σ} {t : Pool σ}
    (h : Kept options period gone s)
    (hopen : s.pool.isOpen = true)
    (hlife : t.life = s.pool.life)
    (hmoves : Moves s.pool t lost) :
    Kept options period (gone ++ lost) { s with pool := t } := by
  obtain ⟨hisOpen, hhouse, -⟩ : t.isOpen = s.pool.isOpen ∧
      t.houseKeeping = s.pool.houseKeeping ∧ t.closing = s.pool.closing := by
    simpa [Pool.life] using hlife
  have hnow := hmoves.now
  have hrecent {x : σ} (hx : t.lastUsed x = s.pool.now) :
      s.pinged ≤ t.lastUsed x + options.idlesAfter * 60000 := by
    have hordered := h.ordered hopen
    omega
  have hkept {x : σ}
      (hx : x ∈ s.pool.sessions ∨ x ∈ s.pool.currentSession) :
      s.pinged ≤ t.lastUsed x + options.idlesAfter * 60000 := by
    rcases hmoves.lastUsed x with heq | heq
    · rw [heq]
      exact h.idle hopen x hx
    · exact hrecent heq
  exact
    { keeping := fun _ => hhouse.trans (h.keeping hopen)
      ordered := by
        intro _
        change s.pinged ≤ t.now
        rw [hnow]
        exact h.ordered hopen
      due := by
        intro _
        change t.now ≤ s.pinged + period
        rw [hnow]
        exact h.due hopen
      idle := by
        rintro - x (hx | hx)
        · rcases hmoves.sessions x hx with hx | hx
          · exact hkept (Or.inl hx)
          · exact hrecent hx
        · rcases hmoves.current x hx with hx | hx | hx
          · exact hkept (Or.inr hx)
          · exact hkept (Or.inl hx)
          · exact hrecent hx
      account := fun _ => hmoves.accounted (h.account hopen) }

/-- Time passes, but not beyond the next round of pings. -/
theorem Kept.ticked
    {gone : List σ} {s : KeptPool σ} {milliseconds : Nat}
    (h : Kept options period gone s)
    (hopen : s.pool.isOpen = true)
    (hdue : s.pool.now + milliseconds ≤ s.pinged + period) :
    Kept options period gone
      { s with pool := { s.pool with now := s.pool.now + milliseconds } } where
  keeping := h.keeping
  ordered := fun _ => (h.ordered hopen).trans (Nat.le_add_right _ _)
  due := fun _ => hdue
  idle := h.idle
  account := h.account

end

/-- The sessions that have been idle for too long are pinged. -/
theorem Kept.pinged
    {gone : List σ} {s : KeptPool σ}
    (h : Kept options period gone s)
    (hperiod : options.idlesAfter * 60000 + period < 3600000)
    (hopen : s.pool.isOpen = true)
    (hinv : Inv options s.pool)
    (hsettled : s.pool.settled = true) :
    Kept options period gone
      { pool := s.pool.pingIdleSessions options
        pinged := (s.pool.pingIdleSessions options).now } := by
  obtain ⟨hmoves, hcurrent, hidle⟩ :=
    pingIdleSessions_moves hinv hsettled fun x hx =>
      h.valid hperiod hopen (Or.inl hx)
  have hlife : (s.pool.pingIdleSessions options).life = s.pool.life :=
    congrArg Prod.fst (pings_background _ _ _)
  have hhouse := (Prod.mk.inj (Prod.mk.inj hlife).2).1
  exact
    { keeping := fun _ => hhouse.trans (h.keeping hopen)
      ordered := fun _ => le_refl _
      due := fun _ => Nat.le_add_right _ _
      idle := by
        rintro - x (hx | hx)
        · change (s.pool.pingIdleSessions options).now ≤ _
          rw [hmoves.now]
          exact hidle x hx
        · rw [hcurrent] at hx
          cases hx
      account := by
        intro _
        have haccount := hmoves.accounted (h.account hopen)
        rwa [List.append_nil] at haccount }

theorem step_eq_some
    {s q : KeptPool σ} {e : Event σ}
    (hstep : step options period s e = some q) :
    SessionPool.step options s.pool e = some q.pool ∧
      (q.pool.houseKeeping = true → q.pool.now ≤ s.pinged + period) ∧
      (e = .pingIdleSessions ∧ q.pinged = q.pool.now ∨
        e ≠ .pingIdleSessions ∧ q.pinged = s.pinged) := by
  obtain ⟨pool, hpool, hrest⟩ := Option.bind_eq_some_iff.mp hstep
  split at hrest
  · cases hrest
  · rename_i hdue
    obtain rfl := Option.some.inj hrest
    refine ⟨hpool, fun hhouse => ?_, ?_⟩
    · by_contra hlate
      exact hdue ⟨hhouse, Nat.lt_of_not_le hlate⟩
    · cases e <;> first | exact Or.inl ⟨rfl, rfl⟩ | exact Or.inr ⟨by simp, rfl⟩

theorem step_kept
    {gone : List σ} {s q : KeptPool σ} {e : Event σ}
    (hperiod : options.idlesAfter * 60000 + period < 3600000)
    (hgood : s.pool.Good options)
    (h : Kept options period gone s)
    (hstep : step options period s e = some q) :
    Kept options period (gone ++ s.pool.reports e) q := by
  obtain ⟨hpool, hdue, hpinged⟩ := step_eq_some hstep
  rcases q with ⟨t, pinged⟩
  dsimp only at hpool hdue hpinged
  by_cases ht : t.isOpen = true
  · have hopen := step_isOpen hpool ht
    obtain ⟨hclosing, hinv, howned⟩ := hgood hopen
    have hlife : t.life = s.pool.life := by
      rcases step_life hpool with hlife | ⟨-, hlife⟩ | ⟨hclosed, -⟩
      · exact hlife
      · rw [(Prod.mk.inj hlife).1] at ht
        cases ht
      · rw [hclosing] at hclosed
        cases hclosed
    have hhouse : t.houseKeeping = true :=
      (Prod.mk.inj (Prod.mk.inj hlife).2).1.trans (h.keeping hopen)
    rcases hpinged with ⟨rfl, rfl⟩ | ⟨hne, rfl⟩
    · cases steps_of_step hpool with
      | pingIdleSessions _ hsettled =>
          change Kept options period (gone ++ []) _
          rw [List.append_nil]
          exact h.pinged hperiod hopen hinv hsettled
    · by_cases htick : ∃ milliseconds, e = .tick milliseconds
      · obtain ⟨milliseconds, rfl⟩ := htick
        cases steps_of_step hpool with
        | tick =>
            change Kept options period (gone ++ []) _
            rw [List.append_nil]
            exact h.ticked hopen (hdue hhouse)
      · refine h.moved hopen hlife ?_
        exact
          moves_of_step hinv howned
            (fun x hx => h.valid hperiod hopen (Or.inr hx)) ht hclosing hne
            (fun milliseconds heq => htick ⟨milliseconds, heq⟩) hpool
  · exact
      { keeping := fun hopen => absurd hopen ht
        ordered := fun hopen => absurd hopen ht
        due := fun hopen => absurd hopen ht
        idle := fun hopen => absurd hopen ht
        account := fun hopen => absurd hopen ht }

/-- The pool is opened at time 0. -/
def opened
    (σ : Type) (options : SessionPoolOptions) : KeptPool σ where
  pool := Pool.opened σ options
  pinged := 0

omit [DecidableEq σ] in
theorem opened_kept
    (options : SessionPoolOptions) (period : Nat) :
    Kept options period [] (opened σ options) := by
  have hstart :
      Kept options period []
        ({ pool := { Pool.new σ with isOpen := true, houseKeeping := true }
           pinged := 0 } : KeptPool σ) :=
    { keeping := fun _ => rfl
      ordered := fun _ => le_refl _
      due := fun _ => Nat.zero_le _
      idle := by
        rintro - x (hx | hx) <;> cases hx
      account := fun _ => .refl [] }
  exact hstart.moved rfl (fill_life options _) (fill_moves options _)

/-- The pool after the events, no round of pings being later than the period. -/
def run
    (options : SessionPoolOptions) (period : Nat) (es : List (Event σ)) :
    Option (KeptPool σ) :=
  Machine.run (step options.construct period) (opened σ options.construct) es

/-- The sessions that the events have reported to be gone. -/
def gone
    (options : SessionPoolOptions) (period : Nat) (es : List (Event σ)) :
    List σ :=
  history (step options.construct period) (fun s => s.pool.reports)
    (opened σ options.construct) es

/-- If a session becomes idle, and the next round of pings comes, within the hour,
no session grows too old in the pool, and each session that was created is in one
place: in the inventory, deleted, or reported to be gone. -/
theorem kept_alive
    (options : SessionPoolOptions) (period : Nat)
    (es : List (Event σ)) (s : KeptPool σ)
    (hperiod : options.idlesAfter * 60000 + period < 3600000)
    (hrun : run options period es = some s)
    (hopen : s.pool.isOpen = true) :
    (∀ x, x ∈ s.pool.sessions ∨ x ∈ s.pool.currentSession →
      s.pool.now ≤
          s.pool.lastUsed x + options.idlesAfter * 60000 + period ∧
        s.pool.isValidSession x = true) ∧
      s.pool.created.Perm
        (s.pool.inventory ++
          (s.pool.deletes ++ gone options period es)) := by
  have hmin := construct_min_le options
  obtain ⟨-, hkept⟩ :
      s.pool.Good options.construct ∧
        Kept options.construct period (gone options period es) s :=
    history_invariant
      (I := fun gone s =>
        s.pool.Good options.construct ∧ Kept options.construct period gone s)
      (fun _ _ _ _ h hstep =>
        ⟨step_good hmin h.1 (step_eq_some hstep).1,
          step_kept hperiod h.1 h.2 hstep⟩)
      ⟨opened_good hmin, opened_kept options.construct period⟩ hrun
  refine ⟨fun x hx => ⟨hkept.age hopen hx, ?_⟩, hkept.account hopen⟩
  exact hkept.valid hperiod hopen hx

/-- A session that is pinged after half an hour. -/
def pingedOnce : List (Event Nat) :=
  [.batchCreated 0 [0], .deliver, .tick 1800000, .pingIdleSessions,
    .pingSucceeded 0 0, .tick 1800000]

theorem kept_alive_pingedOnce :
    ∃ s : KeptPool Nat,
      run { min := 1, max := 1 } 1800000 pingedOnce = some s ∧
        s.pool.now = 3600000 ∧ s.pool.sessions = [0] ∧
        s.pool.isValidSession 0 = true ∧
        [0].Perm (s.pool.inventory ++ s.pool.deletes) := by
  obtain ⟨s, hrun, hopen, hnow, hsessions, hcreated⟩ :
      ∃ s : KeptPool Nat,
        run { min := 1, max := 1 } 1800000 pingedOnce = some s ∧
          s.pool.isOpen = true ∧ s.pool.now = 3600000 ∧
          s.pool.sessions = [0] ∧ s.pool.created = [0] :=
    ⟨_, rfl, rfl, rfl, rfl, rfl⟩
  have hgone :
      (gone { min := 1, max := 1 } 1800000 pingedOnce : List Nat) = [] :=
    rfl
  obtain ⟨hyoung, haccount⟩ :=
    kept_alive { min := 1, max := 1 } 1800000 pingedOnce s (by decide) hrun
      hopen
  refine ⟨s, hrun, hnow, hsessions, ?_, ?_⟩
  · exact (hyoung 0 (Or.inl (by simp [hsessions]))).2
  · rwa [hcreated, hgone, List.append_nil] at haccount

/-- Pings every 55 minutes come too late for a session that is released 9 minutes
before a round of them: it is thrown away, and no delete is sent. -/
example :
    ∃ s : KeptPool Nat,
      run { min := 1, max := 1 } 3300000
          [.batchCreated 0 [0], .acquire 7, .startAcquire, .deliver,
            .resumeWaiter, .checkSession, .finishAcquire, .tick 2760000,
            .release 7 0, .tick 540000, .pingIdleSessions, .pingsDone 0,
            .tick 3300000, .pingIdleSessions] = some s ∧
        s.pool.created = [0] ∧ s.pool.inventory = [] ∧
        s.pool.deletes = [] :=
  ⟨_, rfl, rfl, rfl, rfl⟩

end KeptPool

end SessionPool
end SpannerClient
