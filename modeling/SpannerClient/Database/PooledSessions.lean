import Mathlib.Algebra.GroupWithZero.Nat
import SpannerClient.Database.SessionCustody
import SpannerClient.SessionPool.Lending
import SpannerClient.SessionPool.Order

/-!
# The database and its session pool

The operations of a database run side by side.  Each asks the session factory for
a session, which the factory takes from the pool or, if the operation is enabled
for it, from the multiplexed session; and what the operations release goes back
to the pool.  `PooledDatabase.step` composes the operations with the pool; a release
is never refused by the step itself.

The accounts of the two sides agree after every event (`Accounted`): the sessions
that the pool has lent are those that the operations have obtained and not yet given
back.  Each event of an operation changes its account as its step says (`Changes`),
and each of the pool's answers the list of those who wait (`Replies`).

The main result is `sessions_accounted`.
-/

namespace SpannerClient
namespace Database

open Machine
open SessionPool (Pool SessionPoolOptions AcquireError ReleaseError)

variable {σ : Type} [DecidableEq σ]

/-- A database: its session pool, and the calls of its operations, each known to
the pool as the caller of its number. -/
structure PooledDatabase (σ : Type) where
  pool : Pool σ
  calls : List (Method × Call σ) := []
  /-- What releasing a session has thrown. -/
  thrown : List (ReleaseError σ) := []
  /-- The outcomes so far that lose a session. -/
  losses : Nat := 0

/-- The error of an acquire, as the callback of `getSession` gets it. -/
def serviceErrorOf : AcquireError σ → ServiceError
  | .createError error => error
  | error => ⟨none, error.message⟩

/-- What happens to a database. -/
inductive PooledEvent (σ : Type) where
  /-- An operation is called. -/
  | start (method : Method)
  /-- The operation calls `getSession` of the pool. -/
  | getSession (i : Nat)
  /-- An event of the pool that is not a call. -/
  | pool (e : SessionPool.Event σ)
  /-- The multiplexed session calls back. -/
  | multiplexed (i : Nat) (result : Except ServiceError σ)
  /-- An event of the operation other than the callback of `getSession`. -/
  | call (i : Nat) (e : Event σ)

/-- The event of the pool is a call of `getSession` or `release`. -/
def isPoolCall : SessionPool.Event σ → Bool
  | .acquire _ => true
  | .release _ _ => true
  | _ => false

def isCallback : Event σ → Bool
  | .session _ => true
  | _ => false

/-- The sessions that a call has released, its leases having been `ls`. -/
def givenBack
    (ls ms : List (Lease σ)) : List σ :=
  (ls.zip ms).filterMap fun (l, m) =>
    if l.releases < m.releases then some l.session else none

namespace PooledDatabase

variable (factory : SessionFactory) (options : SessionPoolOptions)

/-- The callback of `getSession`. -/
def callBack
    (d : PooledDatabase σ) (i : Nat) (result : Except ServiceError σ) :
    PooledDatabase σ :=
  match d.calls[i]? with
  | none => d
  | some (method, c) =>
      match step factory method c (.session result) with
      | none => d
      | some c => { d with calls := d.calls.set i (method, c) }

/-- The pool goes on, and calls back those that it has answered. -/
def answer
    (d : PooledDatabase σ) (pool : Pool σ) : PooledDatabase σ :=
  (pool.outcomes.drop d.pool.outcomes.length).foldl
    (fun d outcome =>
      callBack factory d outcome.1 (outcome.2.mapError serviceErrorOf))
    { d with pool := pool }

/-- `pool_.release`. -/
def release
    (i : Nat) (d : PooledDatabase σ) (s : σ) : PooledDatabase σ :=
  match d.pool.release s with
  | (.ok (), pool) =>
      { d with pool := { pool with held := pool.held.erase (i, s) } }
  | (.error err, pool) =>
      { d with
        pool := pool
        thrown := d.thrown ++ [err] }

/-- One event. -/
def step
    (d : PooledDatabase σ) : PooledEvent σ → Option (PooledDatabase σ)
  | .start method => some { d with calls := d.calls ++ [(method, {})] }
  | .getSession i =>
      match d.calls[i]? with
      | none => none
      | some (method, c) =>
          if c.stage = .gettingSession ∧ i ∉ d.pool.line ∧
              (method.operation (σ := σ) factory).multiplexed = false then
            (SessionPool.step options d.pool (.acquire i)).map
              (d.answer factory)
          else
            none
  | .pool e =>
      if isPoolCall e then none
      else (SessionPool.step options d.pool e).map (d.answer factory)
  | .multiplexed i result =>
      match d.calls[i]? with
      | none => none
      | some (method, c) =>
          if (method.operation (σ := σ) factory).multiplexed then
            (Database.step factory method c (.session result)).map fun c =>
              { d with calls := d.calls.set i (method, c) }
          else
            none
  | .call i e =>
      match d.calls[i]? with
      | none => none
      | some (method, c) =>
          if isCallback e then
            none
          else
            (Database.step factory method c e).map fun c' =>
              (givenBack c.leases c'.leases).foldl (release i)
                { d with
                  calls := d.calls.set i (method, c')
                  losses := d.losses + (loses factory method e).toNat }

/-- A database whose pool has been opened. -/
def opened : PooledDatabase σ where
  pool := Pool.opened σ options

end PooledDatabase

/-! ## The operations -/

/-- The sessions of the pool that a call has not given back. -/
def unreturned
    (ls : List (Lease σ)) : List σ :=
  (ls.filter fun l => !l.multiplexed && l.releases == 0).map Lease.session

/-- The sessions that the calls from the `i`-th on have not given back. -/
def onLoan : Nat → List (Method × Call σ) → List (Nat × σ)
  | _, [] => []
  | i, (_, c) :: calls =>
      (unreturned c.leases).map (Prod.mk i) ++ onLoan (i + 1) calls

/-- What an operation does to a session it has obtained. -/
structure Lease.Goes
    (l m : Lease σ) : Prop where
  session : m.session = l.session
  multiplexed : m.multiplexed = l.multiplexed
  releases :
    m.releases = l.releases ∨
      l.multiplexed = false ∧ m.releases = l.releases + 1

namespace Lease

section

omit [DecidableEq σ]

theorem goes_refl
    (l : Lease σ) :
    l.Goes l :=
  ⟨rfl, rfl, Or.inl rfl⟩

theorem goes_release
    (l : Lease σ) :
    l.Goes l.release := by
  rw [release]
  split
  · exact l.goes_refl
  · next h => exact ⟨rfl, rfl, Or.inr ⟨by simpa using h, rfl⟩⟩

theorem goes_releaseOnEnd
    (l : Lease σ) :
    l.Goes l.releaseOnEnd :=
  ⟨rfl, rfl, Or.inl rfl⟩

theorem goes_endTransaction
    (l : Lease σ) :
    l.Goes l.endTransaction := by
  rw [endTransaction]
  split
  · exact l.goes_refl
  · exact ⟨rfl, rfl, Or.inl rfl⟩

theorem goes_emitEnd
    (l : Lease σ) :
    l.Goes l.emitEnd := by
  have hrelease := l.goes_release
  rw [emitEnd]
  split
  · exact
      ⟨hrelease.session, hrelease.multiplexed, hrelease.releases⟩
  · exact ⟨rfl, rfl, Or.inl rfl⟩

end

end Lease

/-- At most one of the sessions changes. -/
inductive Changes
    (ls : List (Lease σ)) : List (Lease σ) → Prop where
  | nothing : Changes ls ls
  | one (i : Nat) (l m : Lease σ)
      (hl : ls[i]? = some l) (hgoes : l.Goes m) :
      Changes ls (ls.set i m)

omit [DecidableEq σ] in
theorem changes_modifyHead
    (f : Lease σ → Lease σ)
    (hf : ∀ l : Lease σ, l.Goes (f l)) (ls : List (Lease σ)) :
    Changes ls (ls.modifyHead f) := by
  cases ls with
  | nil => exact .nothing
  | cons l ls => exact .one 0 l (f l) rfl (hf l)

section Calls

variable {factory : SessionFactory} {method : Method} {c d : Call σ}

section

omit [DecidableEq σ]

theorem changes_onBegin
    (err : Option ServiceError) :
    Changes c.leases
      ((method.operation factory).onBegin c err).leases := by
  cases method with
  | createBatchTransaction =>
      cases err with
      | none => exact changes_modifyHead id Lease.goes_refl _
      | some error => exact changes_modifyHead id Lease.goes_refl _
  | getSnapshot =>
      cases err with
      | none =>
          exact
            changes_modifyHead Lease.releaseOnEnd Lease.goes_releaseOnEnd _
      | some error =>
          simp only [Method.operation, getSnapshot]
          split
          · exact changes_modifyHead Lease.release Lease.goes_release _
          · exact changes_modifyHead Lease.release Lease.goes_release _
  | runPartitionedUpdate =>
      cases err with
      | none => exact changes_modifyHead id Lease.goes_refl _
      | some error =>
          exact changes_modifyHead Lease.release Lease.goes_release _
  | _ => exact .nothing

theorem changes_releaseSession
    (c : Call σ) :
    Changes c.leases c.releaseSession.leases := by
  rw [Call.releaseSession]
  split
  · exact changes_modifyHead Lease.release Lease.goes_release _
  · exact .nothing

theorem changes_onSettled
    (err : Option ServiceError) :
    Changes c.leases
      ((method.operation factory).onSettled c err).leases := by
  have hsame := changes_modifyHead id Lease.goes_refl c.leases
  have hrelease :=
    changes_modifyHead Lease.release Lease.goes_release c.leases
  have hend :=
    changes_modifyHead Lease.endTransaction Lease.goes_endTransaction
      c.leases
  have hstream :
      Changes c.leases
        ((runStream factory).onSettled c err).leases := by
    cases err with
    | none => exact hend
    | some error =>
        simp only [runStream]
        split
        · exact hend
        · exact hend
  have hrunner :
      Changes c.leases
        ((runTransaction factory).onSettled c err).leases := by
    cases err with
    | none => exact hrelease
    | some error =>
        simp only [runTransaction]
        split
        · exact hrelease
        · exact hrelease
  cases method with
  | makePooledRequest => exact hrelease
  | makePooledStreamingRequest => exact changes_releaseSession c
  | run => exact hstream
  | runStream => exact hstream
  | runTransaction => exact hrunner
  | runTransactionAsync => exact hrunner
  | runPartitionedUpdate =>
      cases err with
      | none => exact hrelease
      | some error =>
          simp only [Method.operation, runPartitionedUpdate]
          split
          · exact hrelease
          · exact hsame
  | writeAtLeastOnce => exact hend
  | batchWriteAtLeastOnce =>
      cases err with
      | none => exact hrelease
      | some error =>
          simp only [Method.operation, batchWriteAtLeastOnce]
          split
          · exact hsame
          · exact hsame
  | _ => exact .nothing

/-- An event other than a callback of `getSession` changes one session at most,
and does not end the wait for one. -/
theorem changes_of_step
    {e : Event σ}
    (hcallback : isCallback e = false)
    (hstep : step factory method c e = some d) :
    Changes c.leases d.leases ∧
      (c.stage = .gettingSession → d.stage = .gettingSession) := by
  cases e with
  | session result => cases hcallback
  | begin err =>
      simp only [step] at hstep
      split at hstep
      · next hstage =>
          obtain rfl := Option.some.inj hstep
          exact ⟨changes_onBegin err, fun h => by simp [hstage] at h⟩
      · cases hstep
  | data =>
      simp only [step] at hstep
      split at hstep
      · obtain rfl := Option.some.inj hstep
        exact ⟨.nothing, id⟩
      · cases hstep
  | settled err =>
      simp only [step] at hstep
      split at hstep
      · next hstage =>
          obtain rfl := Option.some.inj hstep
          exact ⟨changes_onSettled err, fun h => by simp [hstage] at h⟩
      · cases hstep
  | endTransaction =>
      simp only [step] at hstep
      split at hstep
      · next hstage =>
          obtain rfl := Option.some.inj hstep
          exact
            ⟨changes_modifyHead Lease.endTransaction
                Lease.goes_endTransaction _,
              fun h => by simp [hstage] at h⟩
      · cases hstep
  | abort =>
      simp only [step] at hstep
      split at hstep
      · obtain rfl := Option.some.inj hstep
        refine ⟨changes_releaseSession c, fun h => ?_⟩
        rw [Call.releaseSession]
        split
        · exact h
        · exact h
      · cases hstep
  | emitEnd i =>
      simp only [step] at hstep
      split at hstep
      · cases hstep
      · next l hl =>
          split at hstep
          · obtain rfl := Option.some.inj hstep
            exact ⟨.one i l l.emitEnd hl l.goes_emitEnd, id⟩
          · cases hstep

/-- The call gets a session. -/
theorem onSession_leases
    (factory : SessionFactory) (method : Method) (c : Call σ) (s : σ) :
    ∃ l,
      ((method.operation factory).onSession c s).leases = l :: c.leases ∧
        l.session = s ∧
        l.multiplexed = (method.operation (σ := σ) factory).multiplexed ∧
        l.releases = 0 := by
  cases method <;> exact ⟨_, rfl, rfl, rfl, rfl⟩

theorem onSessionError_leases
    (method : Method) (c : Call σ) (error : ServiceError) :
    ((method.operation factory).onSessionError c error).leases =
      c.leases := by
  have hsame : c.leases.modifyHead id = c.leases := by
    cases c.leases <;> rfl
  have hrunner :
      ((runTransaction factory).onSessionError c error).leases =
        c.leases := by
    simp only [runTransaction]
    split
    · exact hsame
    · rfl
  cases method with
  | runTransaction => exact hrunner
  | runTransactionAsync => exact hrunner
  | writeAtLeastOnce =>
      simp only [Method.operation, writeAtLeastOnce]
      split
      · exact hsame
      · rfl
  | _ => rfl

/-- No session is given back twice. -/
theorem releases_le_of_custody
    {lost : Nat}
    (h : CustodyOf factory method lost c) :
    ∀ l ∈ c.leases, l.releases ≤ 1 := by
  have hdue : ∀ l ∈ c.leases, l.due ≤ 1 := by
    cases h with
    | closed _ _ hpast => exact hpast.due
    | «open» l ls _ hleases _ hheld hpast =>
        rw [hleases, List.forall_mem_cons]
        refine ⟨?_, hpast.due⟩
        generalize c.stage = stage at hheld
        generalize c.holding = holding at hheld
        cases hheld with
        | working _ _ huntouched _ => rw [huntouched.due]; simp
        | aborted _ _ hclosed => exact hclosed.due
        | returned _ huntouched _ => rw [huntouched.due]; simp
        | ended _ _ hclosed => exact hclosed.due
  intro l hl
  exact (Nat.le_add_right _ _).trans (hdue l hl)

end

end Calls

/-! ## The accounts -/

section Accounts

variable {ls : List (Lease σ)} {calls : List (Method × Call σ)}

section

omit [DecidableEq σ]

@[simp] theorem unreturned_cons
    (l : Lease σ) (ls : List (Lease σ)) :
    unreturned (l :: ls) =
      if l.multiplexed = false ∧ l.releases = 0 then
        l.session :: unreturned ls
      else
        unreturned ls := by
  simp only [unreturned, List.filter_cons]
  split
  · next h => rw [if_pos (by simpa using h), List.map_cons]
  · next h => rw [if_neg (by simpa using h)]

theorem givenBack_cons
    (l m : Lease σ) (ls ms : List (Lease σ)) :
    givenBack (l :: ls) (m :: ms) =
      if l.releases < m.releases then l.session :: givenBack ls ms
      else givenBack ls ms := by
  by_cases h : l.releases < m.releases <;> simp [givenBack, h]

theorem givenBack_self
    (ls : List (Lease σ)) :
    givenBack ls ls = [] := by
  induction ls with
  | nil => rfl
  | cons l ls ih => rw [givenBack_cons, if_neg (lt_irrefl _), ih]

/-- What a change of the sessions gives back is what is no longer on loan. -/
theorem givenBack_of_changes
    {ms : List (Lease σ)}
    (h : Changes ls ms)
    (honce : ∀ m ∈ ms, m.releases ≤ 1) :
    givenBack ls ms = [] ∧ unreturned ms = unreturned ls ∨
      ∃ s, givenBack ls ms = [s] ∧
        (unreturned ls).Perm (s :: unreturned ms) := by
  cases h with
  | nothing => exact Or.inl ⟨givenBack_self ls, rfl⟩
  | one i l m hl hgoes =>
      induction ls generalizing i with
      | nil => cases hl
      | cons a ls ih =>
          cases i with
          | zero =>
              obtain rfl := Option.some.inj hl
              rw [List.set_cons_zero] at honce ⊢
              rw [givenBack_cons, givenBack_self, unreturned_cons,
                unreturned_cons, hgoes.multiplexed, hgoes.session]
              rcases hgoes.releases with heq | ⟨hmultiplexed, heq⟩
              · left
                rw [heq, if_neg (lt_irrefl _)]
                exact ⟨rfl, rfl⟩
              · right
                have hle := honce m List.mem_cons_self
                have hzero : a.releases = 0 := by omega
                refine ⟨a.session, ?_, ?_⟩
                · rw [if_pos (by omega)]
                · rw [if_pos ⟨hmultiplexed, hzero⟩, if_neg (by omega)]
          | succ i =>
              rw [List.set_cons_succ, List.forall_mem_cons] at honce
              rw [List.set_cons_succ, givenBack_cons,
                if_neg (lt_irrefl _), unreturned_cons, unreturned_cons]
              rcases ih i hl honce.2 with ⟨hnone, hsame⟩ | ⟨s, hsome, hperm⟩
              · exact Or.inl ⟨hnone, by rw [hsame]⟩
              · refine Or.inr ⟨s, hsome, ?_⟩
                split
                · exact (hperm.cons _).trans (.swap _ _ _)
                · exact hperm

/-- A call has more on loan than before. -/
theorem onLoan_set
    {i : Nat} {method : Method} {c d : Call σ}
    (hi : calls[i]? = some (method, c))
    (extra : List σ)
    (h : (unreturned d.leases).Perm (extra ++ unreturned c.leases))
    (n : Nat) :
    (onLoan n (calls.set i (method, d))).Perm
      (extra.map (Prod.mk (n + i)) ++ onLoan n calls) := by
  induction calls generalizing i n with
  | nil => cases hi
  | cons call calls ih =>
      cases i with
      | zero =>
          obtain rfl := Option.some.inj hi
          have hcall :=
            (h.map (Prod.mk n)).append_right (onLoan (n + 1) calls)
          rw [List.map_append, List.append_assoc] at hcall
          exact hcall
      | succ i =>
          obtain ⟨m, b⟩ := call
          rw [List.set_cons_succ, onLoan, onLoan]
          have htail := ih hi (n + 1)
          rw [Nat.add_right_comm, Nat.add_assoc] at htail
          refine (htail.append_left _).trans ?_
          rw [← List.append_assoc, ← List.append_assoc]
          exact List.perm_append_comm.append_right _

/-- A call has given a session back. -/
theorem onLoan_set_returned
    {i : Nat} {method : Method} {c d : Call σ} {s : σ}
    (hi : calls[i]? = some (method, c))
    (h : (unreturned c.leases).Perm (s :: unreturned d.leases))
    (n : Nat) :
    (onLoan n calls).Perm
      ((n + i, s) :: onLoan n (calls.set i (method, d))) := by
  obtain ⟨hlt, hget⟩ := List.getElem?_eq_some_iff.mp hi
  have hsame : calls.set i (method, c) = calls := by
    rw [← hget, List.set_getElem_self]
  have hset :
      (calls.set i (method, d))[i]? = some (method, d) :=
    List.getElem?_set_self hlt
  have hperm := onLoan_set hset [s] h n
  rw [List.set_set, hsame] at hperm
  exact hperm

theorem onLoan_snoc
    (method : Method) (n : Nat) :
    onLoan n (calls ++ [(method, ({} : Call σ))]) = onLoan n calls := by
  induction calls generalizing n with
  | nil => rfl
  | cons call calls ih =>
      rw [List.cons_append, onLoan, onLoan, ih]

end

end Accounts

/-- What an event of the pool that is no call does to the callers. -/
inductive Replies
    (p : Pool σ) : Pool σ → Prop where
  | nothing {q : Pool σ}
      (houtcomes : q.outcomes = p.outcomes)
      (hline : q.line = p.line)
      (hheld : q.held = p.held) :
      Replies p q
  | rejects {q : Pool σ}
      (caller : Nat) (error : AcquireError σ) (before after : List Nat)
      (houtcomes : q.outcomes = p.outcomes ++ [(caller, .error error)])
      (hline : p.line = before ++ caller :: after)
      (hline' : q.line = before ++ after)
      (hheld : q.held = p.held) :
      Replies p q
  | grants {q : Pool σ}
      (caller : Nat) (s : σ)
      (houtcomes : q.outcomes = p.outcomes ++ [(caller, .ok s)])
      (hline : p.line = caller :: q.line)
      (hheld : q.held = p.held ++ [(caller, s)]) :
      Replies p q

theorem replies_of_step
    {options : SessionPoolOptions} {p q : Pool σ}
    {e : SessionPool.Event σ}
    (howned : p.Owned)
    (hcall : isPoolCall e = false) (hfinish : e ≠ .finishClose)
    (hstep : SessionPool.step options p e = some q) :
    Replies p q := by
  have hacquire : ∀ caller, e ≠ .acquire caller := by
    rintro caller rfl
    cases hcall
  have hanswers := SessionPool.answers_of_step hacquire hstep
  by_cases he : e = .finishAcquire
  · subst he
    cases SessionPool.steps_of_step hstep with
    | finishAcquire hresolved =>
        rename_i a s rest
        refine .grants a.caller s rfl ?_ rfl
        simp [Pool.line, Pool.finishAcquire, Pool.currentCaller, hresolved]
  · have hshows : p.shows e = [] := by
      cases e with
      | finishAcquire => exact absurd rfl he
      | release caller s => cases hcall
      | _ => rfl
    have hhands := SessionPool.hands_of_step howned hfinish hstep
    rw [hshows] at hhands
    have hheld : q.held = p.held := by
      cases hhands with
      | nothing hheld => exact hheld
    cases hanswers with
    | nothing houtcomes hline => exact .nothing houtcomes hline hheld
    | rejects caller error before after houtcomes hline hline' =>
        exact
          .rejects caller error before after houtcomes hline hline' hheld
    | grants caller s houtcomes hline hheld' =>
        rw [hheld] at hheld'
        simp at hheld'

/-- The sessions that the callback of `getSession` gets. -/
def granted : Except ServiceError σ → List σ
  | .ok s => [s]
  | .error _ => []

omit [DecidableEq σ] in
/-- The callback of `getSession` on a call that waits for it. -/
theorem session_unreturned
    (factory : SessionFactory) (method : Method) {c : Call σ}
    (hstage : c.stage = .gettingSession)
    (result : Except ServiceError σ) :
    ∃ d, step factory method c (.session result) = some d ∧
      unreturned d.leases =
        (if (method.operation (σ := σ) factory).multiplexed then []
          else granted result) ++ unreturned c.leases := by
  cases result with
  | ok s =>
      obtain ⟨l, hleases, hsession, hmultiplexed, hreleases⟩ :=
        onSession_leases factory method c s
      refine ⟨_, by rw [step, if_pos hstage], ?_⟩
      rw [hleases, unreturned_cons, hmultiplexed, hsession, hreleases]
      cases (method.operation (σ := σ) factory).multiplexed <;> rfl
  | error error =>
      refine ⟨_, by rw [step, if_pos hstage], ?_⟩
      rw [onSessionError_leases]
      simp [granted]

namespace PooledDatabase

variable {factory : SessionFactory} {options : SessionPoolOptions}
variable {d : PooledDatabase σ}

/-- The call waits for a session of the pool. -/
def Waiting
    (factory : SessionFactory) (d : PooledDatabase σ) (i : Nat) : Prop :=
  ∃ method c, d.calls[i]? = some (method, c) ∧
    c.stage = .gettingSession ∧
    (method.operation (σ := σ) factory).multiplexed = false

/-- The accounts of the pool and of the operations agree. -/
structure Accounted
    (factory : SessionFactory) (options : SessionPoolOptions)
    (d : PooledDatabase σ) : Prop where
  working : d.pool.Working options
  custody :
    ∃ lost : List Nat,
      List.Forall₂ (fun call n => CustodyOf factory call.1 n call.2)
          d.calls lost ∧
        lost.sum = d.losses
  nodup : d.pool.line.Nodup
  waiting : ∀ i ∈ d.pool.line, Waiting factory d i
  held : d.pool.held.Perm (onLoan 0 d.calls)
  thrown : d.thrown = []

theorem sum_set_add
    {xs : List Nat} {i n : Nat}
    (hi : xs[i]? = some n) (k : Nat) :
    (xs.set i (n + k)).sum = xs.sum + k := by
  induction xs generalizing i with
  | nil => cases hi
  | cons x xs ih =>
      cases i with
      | zero =>
          obtain rfl := Option.some.inj hi
          rw [List.set_cons_zero, List.sum_cons, List.sum_cons,
            Nat.add_right_comm]
      | succ i =>
          rw [List.set_cons_succ, List.sum_cons, List.sum_cons, ih hi,
            Nat.add_assoc]

section

omit [DecidableEq σ]

/-- The custody of the calls after an event of one of them. -/
theorem custody_set
    {i : Nat} {method : Method} {c c' : Call σ} {e : Event σ}
    (h :
      ∃ lost : List Nat,
        List.Forall₂ (fun call n => CustodyOf factory call.1 n call.2)
            d.calls lost ∧
          lost.sum = d.losses)
    (hi : d.calls[i]? = some (method, c))
    (hstep : Database.step factory method c e = some c') :
    (∃ lost : List Nat,
        List.Forall₂ (fun call n => CustodyOf factory call.1 n call.2)
            (d.calls.set i (method, c')) lost ∧
          lost.sum = d.losses + (loses factory method e).toNat) ∧
      ∀ l ∈ c'.leases, l.releases ≤ 1 := by
  obtain ⟨lost, hall, hsum⟩ := h
  obtain ⟨n, hn, hcustody⟩ := forall₂_getElem? hall hi
  have hnext := step_custody hcustody hstep
  refine ⟨⟨lost.set i (n + (loses factory method e).toNat), ?_, ?_⟩, ?_⟩
  · exact forall₂_set hall hnext i
  · rw [sum_set_add hn, hsum]
  · exact releases_le_of_custody hnext

/-- The other calls are where they were. -/
theorem Waiting.set
    {i j : Nat} {call : Method × Call σ} {d' : PooledDatabase σ}
    (h : Waiting factory d j) (hne : j ≠ i)
    (hcalls : d'.calls = d.calls.set i call) :
    Waiting factory d' j := by
  obtain ⟨method, c, hj, hstage, hmultiplexed⟩ := h
  refine ⟨method, c, ?_, hstage, hmultiplexed⟩
  rw [hcalls, List.getElem?_set_ne (Ne.symm hne), hj]

/-- The pool calls back a caller that waits. -/
theorem callBack_accounted
    (h : d.Accounted factory options)
    {pool : Pool σ} {i : Nat} {result : Except ServiceError σ}
    (hworking : pool.Working options)
    (hi : Waiting factory d i)
    (hnodup : pool.line.Nodup)
    (hline : ∀ j ∈ pool.line, j ∈ d.pool.line ∧ j ≠ i)
    (hheld :
      pool.held.Perm ((granted result).map (Prod.mk i) ++ d.pool.held)) :
    (callBack factory { d with pool := pool } i result).Accounted factory
      options := by
  obtain ⟨method, c, hcall, hstage, hmultiplexed⟩ := hi
  obtain ⟨c', hstep, hleases⟩ :=
    session_unreturned factory method hstage result
  have heq :
      callBack factory { d with pool := pool } i result =
        { d with
          pool := pool
          calls := d.calls.set i (method, c') } := by
    simp only [callBack, hcall, hstep]
  rw [hmultiplexed] at hleases
  have hcustody := (custody_set h.custody hcall hstep).1
  have hlosses : loses factory method (.session result) = false := by
    cases method <;> rfl
  rw [hlosses] at hcustody
  rw [heq]
  refine
    { working := hworking
      custody := hcustody
      nodup := hnodup
      waiting := fun j hj =>
        (h.waiting j (hline j hj).1).set (hline j hj).2 rfl
      held := ?_
      thrown := h.thrown }
  have hloan := onLoan_set hcall (d := c') _ (List.Perm.of_eq hleases) 0
  rw [Nat.zero_add] at hloan
  exact hheld.trans ((h.held.append_left _).trans hloan.symm)

/-- The pool has answered the caller. -/
theorem answer_snoc
    {pool : Pool σ} {i : Nat} {result : Except (AcquireError σ) σ}
    (houtcomes : pool.outcomes = d.pool.outcomes ++ [(i, result)]) :
    answer factory d pool =
      callBack factory { d with pool := pool } i
        (result.mapError serviceErrorOf) := by
  rw [answer, houtcomes, List.drop_left]
  rfl

theorem answer_same
    {pool : Pool σ}
    (houtcomes : pool.outcomes = d.pool.outcomes) :
    answer factory d pool = { d with pool := pool } := by
  rw [answer, houtcomes, List.drop_length]
  rfl

end

/-- An event of the pool. -/
theorem pool_accounted
    (hmin : options.min ≤ options.max)
    (h : d.Accounted factory options)
    {e : SessionPool.Event σ} {pool : Pool σ}
    (hcall : isPoolCall e = false) (hfinish : e ≠ .finishClose)
    (hstep : SessionPool.step options d.pool e = some pool) :
    (d.answer factory pool).Accounted factory options := by
  have hworking := SessionPool.step_working hmin h.working hfinish hstep
  have hnodup := h.nodup
  cases replies_of_step h.working.2 hcall hfinish hstep with
  | nothing houtcomes hline hheld =>
      rw [answer_same houtcomes]
      exact
        { working := hworking
          custody := h.custody
          nodup := hline ▸ h.nodup
          waiting := fun i hi => h.waiting i (hline ▸ hi)
          held := hheld ▸ h.held
          thrown := h.thrown }
  | rejects i error before after houtcomes hline hline' hheld =>
      rw [answer_snoc houtcomes]
      rw [hline] at hnodup
      have hperm : (before ++ i :: after).Perm (i :: (before ++ after)) :=
        List.perm_middle
      obtain ⟨hnot, hrest⟩ :=
        List.nodup_cons.mp (hperm.nodup_iff.mp hnodup)
      refine
        callBack_accounted h hworking (h.waiting i (by simp [hline]))
          (hline' ▸ hrest) ?_ (hheld ▸ List.Perm.refl _)
      intro j hj
      rw [hline'] at hj
      refine ⟨?_, fun heq => hnot (heq ▸ hj)⟩
      rw [hline]
      exact hperm.mem_iff.mpr (List.mem_cons_of_mem _ hj)
  | grants i s houtcomes hline hheld =>
      rw [answer_snoc houtcomes]
      rw [hline] at hnodup
      obtain ⟨hnot, hrest⟩ := List.nodup_cons.mp hnodup
      refine
        callBack_accounted h hworking (h.waiting i (by simp [hline])) hrest
          ?_ ?_
      · intro j hj
        exact
          ⟨hline ▸ List.mem_cons_of_mem _ hj, fun heq => hnot (heq ▸ hj)⟩
      · rw [hheld]
        exact List.perm_append_comm

/-- A call of `getSession`. -/
theorem acquire_accounted
    (hmin : options.min ≤ options.max)
    (h : d.Accounted factory options)
    {i : Nat} {pool : Pool σ}
    (hi : Waiting factory d i) (hnot : i ∉ d.pool.line)
    (hstep : SessionPool.step options d.pool (.acquire i) = some pool) :
    (d.answer factory pool).Accounted factory options := by
  have hworking :=
    SessionPool.step_working hmin h.working (by simp) hstep
  have hpool :
      (pool.outcomes = d.pool.outcomes ∧ pool.line = d.pool.line ++ [i] ∨
          pool.outcomes = d.pool.outcomes ++ [(i, .error .closed)] ∧
            pool.line = d.pool.line) ∧
        pool.held = d.pool.held := by
    cases SessionPool.steps_of_step hstep with
    | acquire =>
        exact
          ⟨Or.inl ⟨rfl, by simp [Pool.line, Pool.currentCaller]⟩, rfl⟩
    | acquireClosed => exact ⟨Or.inr ⟨rfl, rfl⟩, rfl⟩
  obtain ⟨⟨houtcomes, hline⟩ | ⟨houtcomes, hline⟩, hheld⟩ := hpool
  · rw [answer_same houtcomes]
    refine
      { working := hworking
        custody := h.custody
        nodup := ?_
        waiting := ?_
        held := hheld ▸ h.held
        thrown := h.thrown }
    · rw [hline]
      refine
        List.nodup_append.mpr ⟨h.nodup, List.nodup_singleton i, ?_⟩
      intro j hj k hk heq
      obtain rfl := List.mem_singleton.mp hk
      exact hnot (heq ▸ hj)
    · intro j hj
      rw [hline] at hj
      rcases List.mem_append.mp hj with hj | hj
      · exact h.waiting j hj
      · obtain rfl := List.mem_singleton.mp hj
        exact hi
  · rw [answer_snoc houtcomes]
    exact
      callBack_accounted h hworking hi (hline ▸ h.nodup)
        (fun j hj =>
          ⟨hline ▸ hj, fun heq => hnot (heq ▸ hline ▸ hj)⟩)
        (hheld ▸ List.Perm.refl _)

/-- What a call on loan gives back is taken by the pool. -/
theorem release_of_held
    (hmin : options.min ≤ options.max)
    {i : Nat} {s : σ}
    (hworking : d.pool.Working options)
    (hheld : (i, s) ∈ d.pool.held) :
    ∃ pool,
      release i d s = { d with pool := pool } ∧ pool.Working options ∧
        pool.line = d.pool.line ∧ pool.held = d.pool.held.erase (i, s) := by
  have hs := SessionPool.mem_borrowed_of_held hworking.2 hheld
  have hok := SessionPool.Pool.release_of_mem hs
  have hdesk := SessionPool.release_desk d.pool s
  obtain ⟨-, -, -, hsame, -⟩ := SessionPool.release_frame hs
  generalize hrelease : d.pool.release s = released at hok hdesk hsame
  obtain ⟨result, pool⟩ := released
  obtain rfl : result = .ok () := hok
  refine
    ⟨{ pool with held := pool.held.erase (i, s) }, ?_, ?_, ?_, ?_⟩
  · rw [release, hrelease]
  · refine
      SessionPool.step_working hmin hworking (e := .release i s) (by simp) ?_
    rw [SessionPool.step, if_pos (Or.inl hheld), hrelease]
  · simp only [Pool.desk, Prod.mk.injEq] at hdesk
    obtain ⟨-, hresolved, hcurrent, hqueued⟩ := hdesk
    change pool.resolved.map _ ++ (pool.currentCaller ++ _) = _
    rw [hresolved, hcurrent, hqueued]
    rfl
  · rw [← hsame]

/-- An event of an operation. -/
theorem call_accounted
    (hmin : options.min ≤ options.max)
    (h : d.Accounted factory options)
    {i : Nat} {method : Method} {c c' : Call σ} {e : Event σ}
    (hi : d.calls[i]? = some (method, c))
    (hcallback : isCallback e = false)
    (hstep : Database.step factory method c e = some c') :
    ((givenBack c.leases c'.leases).foldl (release i)
      { d with
        calls := d.calls.set i (method, c')
        losses :=
          d.losses + (loses factory method e).toNat }).Accounted factory
      options := by
  obtain ⟨hchanges, hwaits⟩ := changes_of_step hcallback hstep
  obtain ⟨hcustody, honce⟩ := custody_set h.custody hi hstep
  have hlt := (List.getElem?_eq_some_iff.mp hi).1
  have hwaiting :
      ∀ j ∈ d.pool.line, ∀ d' : PooledDatabase σ,
        d'.calls = d.calls.set i (method, c') → Waiting factory d' j := by
    intro j hj d' hcalls
    by_cases hji : j = i
    · subst hji
      obtain ⟨method', b, hj', hstage, hmultiplexed⟩ := h.waiting j hj
      obtain ⟨rfl, rfl⟩ :=
        Prod.mk.inj (Option.some.inj (hi.symm.trans hj'))
      refine ⟨method, c', ?_, hwaits hstage, hmultiplexed⟩
      rw [hcalls, List.getElem?_set_self hlt]
    · exact (h.waiting j hj).set hji hcalls
  rcases givenBack_of_changes hchanges honce with
    ⟨hnone, hsame⟩ | ⟨s, hsome, hperm⟩
  · rw [hnone, List.foldl_nil]
    have hloan := onLoan_set hi [] (.of_eq hsame) 0
    exact
      { working := h.working
        custody := hcustody
        nodup := h.nodup
        waiting := fun j hj => hwaiting j hj _ rfl
        held := h.held.trans hloan.symm
        thrown := h.thrown }
  · rw [hsome, List.foldl_cons, List.foldl_nil]
    have hloan := onLoan_set_returned hi hperm 0
    rw [Nat.zero_add] at hloan
    have hheld : (i, s) ∈ d.pool.held :=
      (h.held.trans hloan).mem_iff.mpr List.mem_cons_self
    obtain ⟨pool, hrelease, hworking, hline, hrest⟩ :=
      release_of_held hmin
        (d :=
          { d with
            calls := d.calls.set i (method, c')
            losses := d.losses + (loses factory method e).toNat })
        h.working hheld
    rw [hrelease]
    refine
      { working := hworking
        custody := hcustody
        nodup := hline ▸ h.nodup
        waiting := fun j hj => hwaiting j (hline ▸ hj) _ rfl
        held := ?_
        thrown := h.thrown }
    have herase := (h.held.trans hloan).erase (i, s)
    rw [List.erase_cons_head] at herase
    rw [hrest]
    exact herase

omit [DecidableEq σ] in
/-- A new call has nothing on loan. -/
theorem start_accounted
    (h : d.Accounted factory options)
    (method : Method) :
    ({ d with calls := d.calls ++ [(method, {})] } :
      PooledDatabase σ).Accounted factory options := by
  obtain ⟨lost, hall, hsum⟩ := h.custody
  exact
    { working := h.working
      custody :=
        ⟨lost ++ [0],
          forall₂_snoc hall (.closed rfl (fun _ => rfl) (Past.nil _)),
          by simp [hsum]⟩
      nodup := h.nodup
      waiting := by
        intro i hi
        obtain ⟨m, c, hcall, hrest⟩ := h.waiting i hi
        have hlt := (List.getElem?_eq_some_iff.mp hcall).1
        exact ⟨m, c, (List.getElem?_append_left hlt).trans hcall, hrest⟩
      held := by
        rw [onLoan_snoc]
        exact h.held
      thrown := h.thrown }

omit [DecidableEq σ] in
/-- What the multiplexed session answers is never given back to the pool. -/
theorem multiplexed_accounted
    (h : d.Accounted factory options)
    {i : Nat} {method : Method} {c c' : Call σ}
    {result : Except ServiceError σ}
    (hi : d.calls[i]? = some (method, c))
    (hmultiplexed : (method.operation (σ := σ) factory).multiplexed = true)
    (hstep : Database.step factory method c (.session result) = some c') :
    ({ d with calls := d.calls.set i (method, c') } :
      PooledDatabase σ).Accounted factory options := by
  have hstage : c.stage = .gettingSession := by
    simp only [Database.step] at hstep
    split at hstep
    · assumption
    · cases hstep
  obtain ⟨b, hb, hsame⟩ := session_unreturned factory method hstage result
  obtain rfl : b = c' := Option.some.inj (hb.symm.trans hstep)
  rw [hmultiplexed, if_pos rfl, List.nil_append] at hsame
  have hloan := onLoan_set hi [] (.of_eq hsame) 0
  have hcustody := (custody_set h.custody hi hstep).1
  have hlosses : loses factory method (.session result) = false := by
    cases method <;> rfl
  rw [hlosses] at hcustody
  refine
    { working := h.working
      custody := hcustody
      nodup := h.nodup
      waiting := ?_
      held := h.held.trans hloan.symm
      thrown := h.thrown }
  intro j hj
  have hwaits := h.waiting j hj
  refine hwaits.set ?_ rfl
  -- The calls in the line of the pool are of methods that use its sessions.
  rintro rfl
  obtain ⟨m, a, ha, -, hpooled⟩ := hwaits
  obtain ⟨rfl, rfl⟩ := Prod.mk.inj (Option.some.inj (hi.symm.trans ha))
  rw [hmultiplexed] at hpooled
  cases hpooled

/-- Every event keeps the accounts, until `close` of the pool has called back. -/
theorem step_accounted
    (hmin : options.min ≤ options.max)
    {d' : PooledDatabase σ} {e : PooledEvent σ}
    (h : d.Accounted factory options)
    (hfinish : e ≠ .pool .finishClose)
    (hstep : step factory options d e = some d') :
    d'.Accounted factory options := by
  cases e with
  | start method =>
      obtain rfl := Option.some.inj hstep
      exact start_accounted h method
  | getSession i =>
      simp only [step] at hstep
      split at hstep
      · cases hstep
      · next method c hcall =>
          split at hstep
          · next hguard =>
              obtain ⟨hstage, hnot, hmultiplexed⟩ := hguard
              obtain ⟨pool, hpool, rfl⟩ := Option.map_eq_some_iff.mp hstep
              exact
                acquire_accounted hmin h
                  ⟨method, c, hcall, hstage, hmultiplexed⟩ hnot hpool
          · cases hstep
  | pool e =>
      simp only [step] at hstep
      split at hstep
      · cases hstep
      · next hcall =>
          obtain ⟨pool, hpool, rfl⟩ := Option.map_eq_some_iff.mp hstep
          exact
            pool_accounted hmin h (by simpa using hcall)
              (fun heq => hfinish (by rw [heq])) hpool
  | multiplexed i result =>
      simp only [step] at hstep
      split at hstep
      · cases hstep
      · next method c hcall =>
          split at hstep
          · next hmultiplexed =>
              obtain ⟨c', hcalled, rfl⟩ := Option.map_eq_some_iff.mp hstep
              exact multiplexed_accounted h hcall hmultiplexed hcalled
          · cases hstep
  | call i e =>
      simp only [step] at hstep
      split at hstep
      · cases hstep
      · next method c hcall =>
          split at hstep
          · cases hstep
          · next hcallback =>
              obtain ⟨c', hcalled, rfl⟩ := Option.map_eq_some_iff.mp hstep
              exact
                call_accounted hmin h hcall (by simpa using hcallback)
                  hcalled

section

omit [DecidableEq σ]

theorem opened_accounted
    (hmin : options.min ≤ options.max) :
    (opened options : PooledDatabase σ).Accounted factory options := by
  have hline : (Pool.opened σ options).line = [] := by
    have hdesk :=
      SessionPool.fill_desk options
        { Pool.new σ with
          isOpen := true
          houseKeeping := true }
    simp only [Pool.desk, Prod.mk.injEq] at hdesk
    obtain ⟨-, hresolved, hcurrent, hqueued⟩ := hdesk
    rw [Pool.line, Pool.opened, hresolved, hcurrent, hqueued]
    rfl
  exact
    { working := SessionPool.opened_working hmin
      custody := ⟨[], .nil, rfl⟩
      nodup := by simp [opened, hline]
      waiting := by simp [opened, hline]
      held := by simp [opened, SessionPool.opened_held, onLoan]
      thrown := rfl }

/-- What a call that is over has on loan is what it has lost. -/
theorem unreturned_of_finished
    {method : Method} {n : Nat} {c : Call σ}
    (h : CustodyOf factory method n c)
    (hfinished : c.Finished) :
    (unreturned c.leases).length = n := by
  have hcount : c.leases.countP Lease.lost = n := by
    cases h with
    | closed _ _ hpast => exact hpast.count
    | «open» l ls hopen hleases _ hheld hpast =>
        rw [hleases, List.countP_cons, hpast.count]
        rcases hfinished.settled with ⟨hclosed, -⟩ | ⟨hstage, hended⟩
        · rw [hopen] at hclosed
          cases hclosed
        · have htrue : l.ended = true := hended l (by rw [hleases]; rfl)
          rw [hstage] at hheld
          generalize c.holding = holding at hheld
          cases hheld with
          | working hstage' => rcases hstage' with h | h <;> cases h
          | aborted hstage' => rcases hstage' with h | h <;> cases h
          | returned _ huntouched _ =>
              rw [huntouched.ended] at htrue
              cases htrue
          | ended _ _ hclosed => simp [hclosed.lost]
  rw [← hcount, unreturned, List.length_map, ← List.countP_eq_length_filter]
  refine List.countP_congr fun l hl => ?_
  have hdue : l.due = l.releases := by
    simp [Lease.due, hfinished.quiet l hl]
  rw [Lease.lost, hdue]

theorem onLoan_length
    {calls : List (Method × Call σ)} {lost : List Nat}
    (h :
      List.Forall₂ (fun call n => CustodyOf factory call.1 n call.2) calls
        lost)
    (hfinished : ∀ call ∈ calls, call.2.Finished) (i : Nat) :
    (onLoan i calls).length = lost.sum := by
  induction h generalizing i with
  | nil => rfl
  | cons hhead _ ih =>
      rw [List.forall_mem_cons] at hfinished
      rw [onLoan, List.length_append, List.length_map, List.sum_cons,
        unreturned_of_finished hhead hfinished.1, ih hfinished.2]

end

/--
The sessions of a database are accounted for.  However its operations and its pool
interleave, until `close` of the pool has called back: no release is ever refused;
the sessions that the pool has lent are those that the operations have obtained
from it and not given back, and no two of them have the same one; and when all
operations are over, as many sessions are still lent as outcomes have lost one.
-/
theorem sessions_accounted
    (factory : SessionFactory) (options : SessionPoolOptions)
    (es : List (PooledEvent σ)) (d : PooledDatabase σ)
    (hfinish : .pool .finishClose ∉ es)
    (hrun :
      Machine.run (step factory options.construct)
          (opened options.construct) es = some d) :
    d.thrown = [] ∧
      d.pool.held.Perm (onLoan 0 d.calls) ∧
      ((onLoan 0 d.calls).map Prod.snd).Nodup ∧
      ((∀ call ∈ d.calls, call.2.Finished) →
        d.pool.held.length = d.losses) := by
  have hmin := SessionPool.construct_min_le options
  have h :=
    run_invariant_of_forall
      (I := Accounted factory options.construct)
      (P := fun e => e ≠ PooledEvent.pool .finishClose)
      (fun _ _ _ h he hstep => step_accounted hmin h he hstep)
      (opened_accounted hmin) (fun e he heq => hfinish (heq ▸ he)) hrun
  refine ⟨h.thrown, h.held, ?_, ?_⟩
  · exact (h.held.map Prod.snd).nodup_iff.mp h.working.exclusive
  · intro hfinished
    obtain ⟨lost, hall, hsum⟩ := h.custody
    rw [h.held.length_eq, onLoan_length hall hfinished, hsum]

/-- A snapshot is obtained and ended by the caller; a batch transaction beside it
cannot begin. -/
def snapshotBesideBatch : List (PooledEvent Nat) :=
  [.start .getSnapshot, .start .createBatchTransaction, .getSession 0,
    .pool .startAcquire, .pool (.batchCreated 0 [4, 9]), .pool .deliver,
    .pool .deliver, .getSession 1, .pool .resumeWaiter, .pool .checkSession,
    .pool .finishAcquire, .pool .startAcquire, .pool .checkSession,
    .call 0 (.begin none), .pool .finishAcquire, .call 0 .endTransaction,
    .call 1 (.begin (some sessionNotFound)), .call 0 (.emitEnd 0)]

theorem sessions_accounted_snapshotBesideBatch :
    ∃ d : PooledDatabase Nat,
      Machine.run
          (step ⟨false, false, false⟩
            (SessionPoolOptions.construct { min := 0, max := 2 }))
          (opened (SessionPoolOptions.construct { min := 0, max := 2 }))
          snapshotBesideBatch = some d ∧
        d.thrown = [] ∧
        d.pool.held.Perm (onLoan 0 d.calls) ∧
        ((onLoan 0 d.calls).map Prod.snd).Nodup ∧
        d.pool.held = [(1, 4)] ∧
        d.losses = 1 := by
  obtain ⟨d, hrun, hheld, hlosses⟩ :
      ∃ d : PooledDatabase Nat,
        Machine.run
            (step ⟨false, false, false⟩
              (SessionPoolOptions.construct { min := 0, max := 2 }))
            (opened (SessionPoolOptions.construct { min := 0, max := 2 }))
            snapshotBesideBatch = some d ∧
          d.pool.held = [(1, 4)] ∧ d.losses = 1 :=
    ⟨_, rfl, rfl, rfl⟩
  obtain ⟨hthrown, hperm, hnodup, -⟩ :=
    sessions_accounted ⟨false, false, false⟩ { min := 0, max := 2 }
      snapshotBesideBatch d (by simp [snapshotBesideBatch]) hrun
  exact ⟨d, hrun, hthrown, hperm, hnodup, hheld, hlosses⟩

end PooledDatabase

end Database
end SpannerClient
