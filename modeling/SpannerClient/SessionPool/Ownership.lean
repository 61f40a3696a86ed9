import SpannerClient.SessionPool.Invariant

/-!
# Who is responsible for a borrowed session

The second half of the invariant of an open pool: the borrowed sessions are, up
to order, the sessions of the running acquire, of the acquires about to call
back, of the callers and of the pings (`Pool.Owned`).  Each operation has a lemma
that moves a session from one owner to the next.

The last part is about what the operations leave alone: whether the pool is open
(`step_life`), and the traces and holders, which only releases, the ends of acquires
and `close` change (`Pool.background`).
-/

namespace SpannerClient
namespace SessionPool

open Machine

variable {σ : Type} [DecidableEq σ]
variable {options : SessionPoolOptions} {p q : Pool σ}

omit [DecidableEq σ] in
theorem owned_of_same
    (h : p.Owned)
    (hborrowed : q.borrowed = p.borrowed)
    (hcurrent : q.currentSession = p.currentSession)
    (hresolved : q.resolved = p.resolved)
    (hheld : q.held = p.held)
    (hpings : q.pings = p.pings) :
    q.Owned := by
  rw [Pool.Owned, Pool.owners]
  rw [hborrowed, hcurrent, hresolved, hheld, hpings]
  exact h

/-- One session is given up, by the pool and by who was responsible for it. -/
theorem owned_of_perm_cons
    {s : σ}
    (howners : p.borrowed.Perm (s :: q.owners))
    (hborrowed : q.borrowed = p.borrowed.erase s) :
    q.Owned := by
  rw [Pool.Owned]
  rw [hborrowed]
  exact erase_perm_of_perm_cons howners

section

omit [DecidableEq σ]

theorem wake_currentSession
    (p : Pool σ) (result : Except (AcquireError σ) Unit) :
    (p.wake result).currentSession = p.currentSession := by
  unfold Pool.currentSession Pool.wake
  rcases hcur : p.current with _ | ⟨a, phase⟩
  · rfl
  · cases phase <;> rfl

theorem createSessions_owned
    (h : p.Owned)
    (amount : Int) :
    (p.createSessions amount).Owned := by
  rw [Pool.createSessions]
  split <;> exact h

theorem fill_owned
    (h : p.Owned) :
    (p.fill options).Owned := by
  unfold Pool.fill
  dsimp only
  split
  · exact h
  · exact createSessions_owned h _

theorem createForWaiter_owned
    (h : p.Owned) :
    (p.createForWaiter options).Owned := by
  rcases createForWaiter_cases options p with heq | heq
  · rw [heq]
    exact h
  · rw [heq]
    exact createSessions_owned h _

theorem owners_of_no_session
    (hcur : p.currentSession = []) :
    p.owners =
      p.resolved.map Prod.snd ++
        (p.held.map Prod.snd ++ p.pings.map Prod.snd) := by
  simp [Pool.owners, hcur]

end

/-- The running acquire becomes responsible for the session it takes. -/
theorem takeIdle_owned
    (h : p.Owned) (hinv : Inv options p)
    (hcur : p.currentSession = [])
    (a : Acquire) :
    Pool.Owned
      { p.borrowNextAvailableSession.2 with
        current :=
          some (a, .returned p.borrowNextAvailableSession.1) } := by
  unfold Pool.Owned at h
  rw [owners_of_no_session hcur] at h
  rw [Pool.borrowNextAvailableSession]
  cases hlast : p.sessions.getLast? with
  | none =>
      exact h
  | some s =>
      have hs : s ∉ p.borrowed :=
        hinv.not_mem_borrowed_of_mem_sessions
          (List.mem_of_getLast? hlast)
      exact (setAdd_perm hs).trans (h.cons s)

theorem getSession_owned
    (h : p.Owned) (hinv : Inv options p)
    (hcur : p.current = none)
    (a : Acquire) :
    (p.getSession options a).Owned := by
  have hnone : p.currentSession = [] := by
    simp [Pool.currentSession, hcur]
  rw [Pool.getSession]
  split
  · exact takeIdle_owned h hinv hnone a
  · split
    · exact owned_of_same h rfl (by simp [Pool.currentSession, Pool.reject, hcur])
        rfl rfl rfl
    · have hcreate : (p.createForWaiter options).Owned :=
        createForWaiter_owned h
      refine owned_of_same hcreate rfl ?_ rfl rfl rfl
      simp [Pool.currentSession, createForWaiter_current, hcur]

theorem attempt_owned
    (h : p.Owned) (hinv : Inv options p)
    (hcur : p.current = none)
    (a : Acquire) :
    (p.attempt options a).Owned := by
  rw [Pool.attempt]
  split
  · exact owned_of_same h rfl (by simp [Pool.currentSession, Pool.reject, hcur])
      rfl rfl rfl
  · exact getSession_owned h hinv hcur a

theorem resumeWaiter_owned
    (h : p.Owned) (hinv : Inv options p)
    {a : Acquire} {result : Except (AcquireError σ) Unit}
    (hcur : p.current = some (a, .woken result)) :
    (p.resumeWaiter a result).Owned := by
  have hidle :
      Pool.Owned { p with waiters := p.waiters - 1, current := none } :=
    owned_of_same h rfl (by simp [Pool.currentSession, hcur]) rfl rfl rfl
  unfold Pool.resumeWaiter
  cases result with
  | ok _ =>
      unfold Pool.Owned at hidle
      rw [owners_of_no_session rfl] at hidle
      dsimp only
      rw [Pool.borrowNextAvailableSession]
      dsimp only
      cases hlast : p.sessions.getLast? with
      | none =>
          exact hidle
      | some s =>
          have hs : s ∉ p.borrowed :=
            hinv.not_mem_borrowed_of_mem_sessions
              (List.mem_of_getLast? hlast)
          exact (setAdd_perm hs).trans (hidle.cons s)
  | error error =>
      exact hidle

theorem checkSession_owned
    (h : p.Owned) (hinv : Inv options p)
    {a : Acquire} {s : Option σ}
    (hcur : p.current = some (a, .returned s)) :
    (p.checkSession options a s).Owned := by
  cases s with
  | none =>
      exact owned_of_same h rfl (by simp [Pool.currentSession, hcur, Pool.checkSession, Pool.reject])
        rfl rfl rfl
  | some s =>
      have howners :
          p.borrowed.Perm
            (s :: (p.resolved.map Prod.snd ++
              (p.held.map Prod.snd ++ p.pings.map Prod.snd))) := by
        simpa [Pool.Owned, Pool.owners, Pool.currentSession, hcur]
          using h
      simp only [Pool.checkSession]
      split
      · refine howners.trans ?_
        have hmiddle :
            (s :: (p.resolved.map Prod.snd ++
              (p.held.map Prod.snd ++ p.pings.map Prod.snd))).Perm
              (p.resolved.map Prod.snd ++
                s :: (p.held.map Prod.snd ++ p.pings.map Prod.snd)) :=
          List.perm_middle.symm
        simpa [Pool.owners, Pool.currentSession] using hmiddle
      · have hdrop :
            Pool.Owned
              { p with
                borrowed := p.borrowed.erase s
                current := none } :=
          owned_of_perm_cons howners rfl
        have hphase := hinv.phase
        unfold Pool.phaseOk at hphase
        simp only [hcur] at hphase
        have hdropInv :
            Inv options
              { p with
                borrowed := p.borrowed.erase s
                current := none } :=
          hinv.mono
            (List.Sublist.append_left
              (List.erase_sublist.append_right _) _).subperm
            rfl rfl (fun _ ht => ht) rfl rfl hphase.1
        exact attempt_owned hdrop hdropInv rfl a

theorem finishAcquire_owned
    (h : p.Owned)
    {a : Acquire} {s : σ} {rest : List (Acquire × σ)}
    (hres : p.resolved = (a, s) :: rest) :
    (Pool.finishAcquire { p with resolved := rest } a s).Owned := by
  unfold Pool.Owned Pool.owners at h
  rw [hres] at h
  refine h.trans ?_
  refine List.Perm.append_left _ ?_
  have hmid :
      (s :: (rest.map Prod.snd ++
          (p.held.map Prod.snd ++ p.pings.map Prod.snd))).Perm
        (rest.map Prod.snd ++
          (p.held.map Prod.snd ++ s :: p.pings.map Prod.snd)) := by
    rw [← List.append_assoc, ← List.append_assoc]
    exact List.perm_middle.symm
  simpa [Pool.finishAcquire] using hmid

/-- What `release` does to the borrowed sessions and leaves alone. -/
theorem release_frame
    {s : σ}
    (hs : s ∈ p.borrowed) :
    (p.release s).2.borrowed = p.borrowed.erase s ∧
      (p.release s).2.currentSession = p.currentSession ∧
      (p.release s).2.resolved = p.resolved ∧
      (p.release s).2.held = p.held ∧
      (p.release s).2.pings = p.pings := by
  rw [Pool.release]
  rw [if_neg (by simpa using hs)]
  dsimp only
  split
  · exact ⟨rfl, rfl, rfl, rfl, rfl⟩
  · refine ⟨rfl, ?_, rfl, rfl, rfl⟩
    rw [Pool.releaseIdle]
    rw [wake_currentSession]
    rfl

theorem release_owners
    {s : σ}
    (hs : s ∈ p.borrowed) :
    (p.release s).2.owners = p.owners := by
  obtain ⟨-, hcurrent, hresolved, hheld, hpings⟩ := release_frame hs
  unfold Pool.owners
  rw [hcurrent, hresolved, hheld, hpings]

/-- A session is released that the pool has given to nobody else. -/
theorem release_owned_of_perm
    {s : σ}
    (howners : p.borrowed.Perm (s :: p.owners)) :
    (p.release s).2.Owned := by
  have hs : s ∈ p.borrowed := howners.mem_iff.mpr List.mem_cons_self
  refine owned_of_perm_cons ?_ (release_frame hs).1
  rw [release_owners hs]
  exact howners

omit [DecidableEq σ] in
theorem mem_borrowed_of_held
    (h : p.Owned)
    {caller : Nat} {s : σ}
    (hs : (caller, s) ∈ p.held) :
    s ∈ p.borrowed := by
  refine h.mem_iff.mpr ?_
  simp only [Pool.owners, List.mem_append]
  exact Or.inr (Or.inr (Or.inl (List.mem_map_of_mem hs)))

omit [DecidableEq σ] in
theorem mem_borrowed_of_ping
    (h : p.Owned)
    {round : Nat} {s : σ}
    (hs : (round, s) ∈ p.pings) :
    s ∈ p.borrowed := by
  refine h.mem_iff.mpr ?_
  simp only [Pool.owners, List.mem_append]
  exact Or.inr (Or.inr (Or.inr (List.mem_map_of_mem hs)))

/-- A caller gives up the session it releases. -/
theorem release_owned
    (h : p.Owned)
    {caller : Nat} {s : σ}
    (hheld : (caller, s) ∈ p.held) :
    Pool.Owned
      { (p.release s).2 with
        held := (p.release s).2.held.erase (caller, s) } := by
  have hs := mem_borrowed_of_held h hheld
  obtain ⟨hborrowed, hcurrent, hresolved, hheldEq, hpings⟩ :=
    release_frame hs
  have howners :
      p.owners.Perm
        (s :: (p.currentSession ++
          (p.resolved.map Prod.snd ++
            ((p.held.erase (caller, s)).map Prod.snd ++
              p.pings.map Prod.snd)))) := by
    have hsplit := map_snd_perm_cons_erase hheld
    have h₁ := hsplit.append_right (p.pings.map Prod.snd)
    have h₂ := (h₁.append_left (p.resolved.map Prod.snd)).trans
      List.perm_middle
    exact (h₂.append_left p.currentSession).trans List.perm_middle
  refine owned_of_perm_cons ?_ hborrowed
  change List.Perm p.borrowed
    (s :: ((p.release s).2.currentSession ++
      ((p.release s).2.resolved.map Prod.snd ++
        (((p.release s).2.held.erase (caller, s)).map Prod.snd ++
          (p.release s).2.pings.map Prod.snd))))
  rw [hcurrent, hresolved, hheldEq, hpings]
  exact h.trans howners

/-- The end of a ping gives up the pinged session. -/
theorem owners_of_ping
    {round : Nat} {s : σ}
    (hping : (round, s) ∈ p.pings) :
    p.owners.Perm
      (s :: Pool.owners { p with pings := p.pings.erase (round, s) }) := by
  have hsplit := map_snd_perm_cons_erase hping
  have h₁ := (hsplit.append_left (p.held.map Prod.snd)).trans
    List.perm_middle
  have h₂ := (h₁.append_left (p.resolved.map Prod.snd)).trans
    List.perm_middle
  exact (h₂.append_left p.currentSession).trans List.perm_middle

theorem pingFailed_owned
    (h : p.Owned)
    {round : Nat} {s : σ}
    (hping : (round, s) ∈ p.pings) :
    (Pool.pingFailed { p with pings := p.pings.erase (round, s) }
      round s).Owned :=
  owned_of_perm_cons (h.trans (owners_of_ping hping)) rfl

theorem pingSucceeded_owned
    (h : p.Owned)
    {round : Nat} {s : σ}
    (hping : (round, s) ∈ p.pings) :
    (Pool.pingSucceeded { p with pings := p.pings.erase (round, s) }
      round s).Owned := by
  have hs :
      s ∈ Pool.borrowed { p with pings := p.pings.erase (round, s) } :=
    mem_borrowed_of_ping h hping
  rw [pingSucceeded_of_mem round hs]
  exact release_owned_of_perm (h.trans (owners_of_ping hping))

theorem deliver_owned
    (h : p.Owned)
    {s : σ} {rest : List σ}
    (hs : s ∉ p.borrowed) :
    (Pool.deliver { p with immediates := rest } s).Owned := by
  rw [Pool.deliver]
  exact release_owned_of_perm ((setAdd_perm hs).trans (h.cons s))

theorem evictLoop_owned
    (size : Int) (count : Nat) (evicted : Int) (idle : List σ)
    (h : p.Owned) :
    (Pool.evictLoop options size count evicted idle p).Owned := by
  obtain ⟨sessions, requests, deletes, -, heq⟩ :=
    evictLoop_frame options size count evicted idle p
  rw [heq]
  exact h

theorem ping_owned
    (h : p.Owned)
    {s : σ}
    (hs : s ∉ p.borrowed)
    (round : Nat) :
    (Pool.ping round p s).Owned := by
  unfold Pool.ping
  dsimp only
  split
  · refine (setAdd_perm hs).trans ((h.cons s).trans ?_)
    have hmid :
        (s :: (p.currentSession ++
          (p.resolved.map Prod.snd ++
            (p.held.map Prod.snd ++ p.pings.map Prod.snd)))).Perm
          ((p.currentSession ++
            (p.resolved.map Prod.snd ++
              (p.held.map Prod.snd ++ p.pings.map Prod.snd))) ++
            [s]) :=
      (List.perm_append_singleton s _).symm
    simpa [Pool.owners, Pool.currentSession, Pool.borrow,
      List.append_assoc] using hmid
  · exact (erase_perm_of_perm_cons (setAdd_perm hs)).trans h

theorem pingIdleSessions_owned
    (h : p.Owned) (hinv : Inv options p)
    (hsettled : p.settled = true) :
    (p.pingIdleSessions options).Owned :=
  (pingIdleSessions_keep
    (fun round _ _ hq hs howned =>
      ping_owned howned (hq.not_mem_borrowed_of_mem_sessions hs) round)
    hinv (fun _ _ => h) hsettled).2

section Life

/-- The part of a pool that only `close` changes. -/
def Pool.life
    (p : Pool σ) : Bool × Bool × Bool :=
  (p.isOpen, p.houseKeeping, p.closing)

@[simp] theorem release_life
    (p : Pool σ) (s : σ) :
    (p.release s).2.life = p.life := by
  rw [Pool.release]
  split
  · rfl
  · dsimp only
    split <;> rfl

@[simp] theorem pingSucceeded_life
    (p : Pool σ) (round : Nat) (s : σ) :
    (p.pingSucceeded round s).life = p.life := by
  have hrelease := release_life p s
  rw [Pool.pingSucceeded]
  split
  · rename_i heq
    rw [heq] at hrelease
    exact hrelease
  · rename_i heq
    rw [heq] at hrelease
    exact hrelease

/-- The part of a pool that only releases, the ends of acquires and `close`
change. -/
def Pool.background
    (p : Pool σ) : (Bool × Bool × Bool) × List σ × List (Nat × σ) :=
  (p.life, p.traces, p.held)

section

omit [DecidableEq σ]

@[simp] theorem createSessions_background
    (p : Pool σ) (amount : Int) :
    (p.createSessions amount).background = p.background := by
  rw [Pool.createSessions]
  split <;> rfl

@[simp] theorem fill_background
    (options : SessionPoolOptions) (p : Pool σ) :
    (p.fill options).background = p.background := by
  unfold Pool.fill
  dsimp only
  split
  · rfl
  · exact createSessions_background p _

theorem fill_life
    (options : SessionPoolOptions) (p : Pool σ) :
    (p.fill options).life = p.life :=
  congrArg Prod.fst (fill_background options p)

@[simp] theorem createForWaiter_background
    (options : SessionPoolOptions) (p : Pool σ) :
    (p.createForWaiter options).background = p.background := by
  rcases createForWaiter_cases options p with heq | heq <;> simp [heq]

end

@[simp] theorem borrowNext_background
    (p : Pool σ) :
    p.borrowNextAvailableSession.2.background = p.background := by
  rw [Pool.borrowNextAvailableSession]
  split <;> rfl

@[simp] theorem attempt_background
    (options : SessionPoolOptions) (p : Pool σ) (a : Acquire) :
    (p.attempt options a).background = p.background := by
  rw [Pool.attempt, Pool.getSession]
  split
  · rfl
  · split
    · exact borrowNext_background p
    · split
      · rfl
      · exact createForWaiter_background options p

@[simp] theorem resumeWaiter_background
    (p : Pool σ) (a : Acquire)
    (result : Except (AcquireError σ) Unit) :
    (p.resumeWaiter a result).background = p.background := by
  unfold Pool.resumeWaiter
  cases result with
  | ok _ => exact borrowNext_background _
  | error error => rfl

@[simp] theorem checkSession_background
    (options : SessionPoolOptions) (p : Pool σ) (a : Acquire)
    (s : Option σ) :
    (p.checkSession options a s).background = p.background := by
  cases s with
  | none => rfl
  | some s =>
      simp only [Pool.checkSession]
      split
      · rfl
      · exact attempt_background options _ a

omit [DecidableEq σ] in
@[simp] theorem batchCreated_background
    (p : Pool σ) (i : Nat) (amount : Int) (sessions : List σ) :
    (p.batchCreated i amount sessions).background = p.background := by
  rw [Pool.batchCreated]
  dsimp only
  split <;> rfl

@[simp] theorem evictLoop_background
    (options : SessionPoolOptions)
    (size : Int) (count : Nat) (evicted : Int) (idle : List σ)
    (p : Pool σ) :
    (Pool.evictLoop options size count evicted idle p).background =
      p.background := by
  obtain ⟨sessions, requests, deletes, -, heq⟩ :=
    evictLoop_frame options size count evicted idle p
  rw [heq]
  rfl

@[simp] theorem pings_background
    (round : Nat) (idle : List σ) (p : Pool σ) :
    (idle.foldl (Pool.ping round) p).background = p.background := by
  obtain ⟨sessions, borrowed, pings, heq⟩ := pings_frame round idle p
  rw [heq]
  rfl

omit [DecidableEq σ] in
@[simp] theorem destroys_background
    (sessions : List σ) (p : Pool σ) :
    (sessions.foldl (fun p s => p.destroy none s) p).background = p.background := by
  induction sessions generalizing p with
  | nil =>
      rfl
  | cons s sessions ih =>
      rw [List.foldl_cons, ih]
      rfl

omit [DecidableEq σ] in
theorem close_life
    (p : Pool σ) :
    p.close.life = (false, false, true) := by
  have hdestroys :=
    congrArg Prod.fst
      (destroys_background (p.sessions ++ p.borrowed)
        (Pool.wake { p with isOpen := false, houseKeeping := false }
          (.error .closed)))
  simp only [Pool.background, Pool.life, Pool.wake, Prod.mk.injEq]
    at hdestroys ⊢
  exact ⟨hdestroys.1, hdestroys.2.1, rfl⟩

/-- Only `close` changes whether the pool is open. -/
theorem step_life
    {t : Pool σ} {e : Event σ}
    (hstep : step options p e = some t) :
    t.life = p.life ∨
      (p.isOpen = true ∧ t.life = (false, false, true)) ∨
      (p.closing = true ∧ t.life = (p.isOpen, p.houseKeeping, false)) := by
  cases steps_of_step hstep with
  | acquire => exact Or.inl rfl
  | acquireClosed => exact Or.inl rfl
  | startAcquire => exact Or.inl (congrArg Prod.fst (attempt_background _ _ _))
  | acquireTimeout => exact Or.inl rfl
  | resumeWaiter =>
      exact Or.inl (congrArg Prod.fst (resumeWaiter_background _ _ _))
  | checkSession =>
      exact Or.inl (congrArg Prod.fst (checkSession_background _ _ _ _))
  | finishAcquire => exact Or.inl rfl
  | release => exact Or.inl (release_life p _)
  | releaseUnknown => exact Or.inl rfl
  | setLastError => exact Or.inl rfl
  | batchCreated =>
      exact Or.inl (congrArg Prod.fst (batchCreated_background _ _ _ _))
  | batchCreateFailed => exact Or.inl rfl
  | deliver => exact Or.inl (release_life _ _)
  | fill => exact Or.inl (fill_life _ _)
  | evictIdleSessions =>
      exact Or.inl (congrArg Prod.fst (evictLoop_background _ _ _ _ _ _))
  | pingIdleSessions =>
      exact Or.inl (congrArg Prod.fst (pings_background _ _ _))
  | pingSucceeded => exact Or.inl (pingSucceeded_life _ _ _)
  | pingFailed => exact Or.inl rfl
  | pingsDone => exact Or.inl (fill_life _ _)
  | deleted => exact Or.inl rfl
  | tick => exact Or.inl rfl
  | close h => exact Or.inr (Or.inl ⟨h, close_life p⟩)
  | finishClose h => exact Or.inr (Or.inr ⟨h, rfl⟩)

/-- The pool never opens again. -/
theorem step_isOpen
    {t : Pool σ} {e : Event σ}
    (hstep : step options p e = some t)
    (hopen : t.isOpen = true) :
    p.isOpen = true := by
  rcases step_life hstep with hlife | ⟨hp, -⟩ | ⟨-, hlife⟩
  · exact (Prod.mk.inj hlife).1 ▸ hopen
  · exact hp
  · exact (Prod.mk.inj hlife).1 ▸ hopen

end Life

end SessionPool
end SpannerClient
