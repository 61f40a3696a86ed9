import SpannerClient.Database.Operations
import SpannerClient.Machine.Containers
import SpannerClient.Machine.Run

/-!
# Sessions are given back

A session of the pool that an operation has obtained is *due* once it has been
released or its release is scheduled, and *lost* if the operation is through with
it although it is not due.  No session is ever due twice, and the sessions lost
are those counted by `loses`: a batch transaction that cannot begin and a batch
write whose stream fails keep theirs for ever.

`Custody` is the invariant of a call, in terms of what it holds and what it has
given back; there is one lemma for each stage of an operation, and `step_custody`
puts them together for all of them.

The main result is `conserved_iff_never_loses`: the sessions are conserved in a run
if and only if no outcome in it loses one.
-/

namespace SpannerClient
namespace Database

open Machine

variable {σ : Type}

namespace Lease

/-- The releases of the session, those scheduled included. -/
def due
    (l : Lease σ) : Nat :=
  l.releases + (l.listening && l.emitting).toNat

/-- A session of the pool that nobody is going to release. -/
def lost
    (l : Lease σ) : Bool :=
  !l.multiplexed && l.due == 0

/-- The session has been dealt with. -/
structure Closed
    (l : Lease σ) : Prop where
  due : l.due ≤ 1
  lost : l.lost = false

/-- The session has not been released and its transaction has not ended. -/
structure Untouched
    (l : Lease σ) : Prop where
  releases : l.releases = 0
  ended : l.ended = false
  emitting : l.emitting = false

variable {l : Lease σ}

theorem Untouched.due
    (h : l.Untouched) :
    l.due = 0 := by
  simp [Lease.due, h.releases, h.emitting]

theorem Untouched.lost
    (h : l.Untouched) :
    l.lost = !l.multiplexed := by
  simp [Lease.lost, h.due]

theorem Untouched.release
    (h : l.Untouched) :
    l.release.Closed := by
  rw [Lease.release]
  cases hmultiplexed : l.multiplexed with
  | false =>
      simp only [Bool.false_eq_true, if_false]
      constructor
      · simp [Lease.due, h.releases, h.emitting]
      · simp [Lease.lost, Lease.due]
  | true =>
      simp only [if_true]
      constructor
      · simp [h.due]
      · simp [Lease.lost, hmultiplexed]

theorem Untouched.endTransaction
    (h : l.Untouched)
    (hlistening : l.listening = true) :
    l.endTransaction.Closed := by
  rw [Lease.endTransaction]
  simp only [h.ended, Bool.false_eq_true, if_false]
  constructor
  · simp [Lease.due, h.releases, hlistening]
  · simp [Lease.lost, Lease.due, hlistening]

@[simp] theorem release_multiplexed
    (l : Lease σ) :
    l.release.multiplexed = l.multiplexed := by
  rw [release]
  split <;> rfl

@[simp] theorem endTransaction_multiplexed
    (l : Lease σ) :
    l.endTransaction.multiplexed = l.multiplexed := by
  rw [endTransaction]
  split <;> rfl

@[simp] theorem emitEnd_multiplexed
    (l : Lease σ) :
    l.emitEnd.multiplexed = l.multiplexed := by
  rw [emitEnd]
  split
  · exact release_multiplexed l
  · rfl

@[simp] theorem emitEnd_ended
    (l : Lease σ) :
    l.emitEnd.ended = l.ended := by
  rw [emitEnd, release]
  split
  · split <;> rfl
  · rfl

/-- The emission performs the release that was scheduled. -/
theorem emitEnd_due
    (hemitting : l.emitting = true) :
    l.emitEnd.due ≤ l.due ∧
      (l.multiplexed = false → l.emitEnd.due = l.due) := by
  unfold emitEnd release due
  cases l.listening <;> cases l.multiplexed <;> simp [hemitting]

theorem emitEnd_lost
    (hemitting : l.emitting = true) :
    l.emitEnd.lost = l.lost := by
  unfold lost
  rw [emitEnd_multiplexed]
  cases hmultiplexed : l.multiplexed with
  | false => rw [(emitEnd_due hemitting).2 hmultiplexed]
  | true => rfl

theorem Closed.emitEnd
    (h : l.Closed)
    (hemitting : l.emitting = true) :
    l.emitEnd.Closed where
  due := (emitEnd_due hemitting).1.trans h.due
  lost := (emitEnd_lost hemitting).trans h.lost

end Lease

/-- The call has a session in its hands, or the caller has its transaction. -/
def Stage.isOpen : Stage → Bool
  | .beginning => true
  | .running => true
  | .returned => true
  | _ => false

/-- The operation calls `_releaseOnEnd` when it obtains a session. -/
def Method.listens : Method → Bool
  | .createBatchTransaction => true
  | .getTransaction => true
  | .run => true
  | .runStream => true
  | .writeAtLeastOnce => true
  | _ => false

/-- The session of an open call. -/
inductive Held (method : Method) :
    Stage → Bool → Lease σ → Prop where
  /-- A request is in flight. -/
  | working {stage : Stage} {holding : Bool} {l : Lease σ}
      (hstage : stage = .beginning ∨ stage = .running)
      (hholding : method = .makePooledStreamingRequest → holding = true)
      (huntouched : l.Untouched)
      (hlistening : l.listening = method.listens) :
      Held method stage holding l
  /-- The request of an aborted stream is still in flight. -/
  | aborted {stage : Stage} {l : Lease σ}
      (hstage : stage = .beginning ∨ stage = .running)
      (hmethod : method = .makePooledStreamingRequest)
      (hclosed : l.Closed) :
      Held method stage false l
  /-- The caller has the transaction. -/
  | returned {holding : Bool} {l : Lease σ}
      (hmethod : method ≠ .makePooledStreamingRequest)
      (huntouched : l.Untouched)
      (hlistening : l.listening = true) :
      Held method .returned holding l
  /-- The caller has ended the transaction. -/
  | ended {holding : Bool} {l : Lease σ}
      (hmethod : method ≠ .makePooledStreamingRequest)
      (hended : l.ended = true)
      (hclosed : l.Closed) :
      Held method .returned holding l

/-- Sessions that a call is through with, `lost` of them not due. -/
structure Past
    (multiplexed : Bool) (lost : Nat) (ls : List (Lease σ)) : Prop where
  multiplexed : ∀ l ∈ ls, l.multiplexed = multiplexed
  due : ∀ l ∈ ls, l.due ≤ 1
  count : ls.countP Lease.lost = lost

/-- The sessions of a call. -/
inductive Custody (method : Method) (multiplexed : Bool)
    (lost : Nat) (c : Call σ) : Prop where
  | closed
      (hstage : c.stage.isOpen = false)
      (hholding : method = .makePooledStreamingRequest → c.holding = false)
      (hpast : Past multiplexed lost c.leases)
  | «open» (l : Lease σ) (ls : List (Lease σ))
      (hstage : c.stage.isOpen = true)
      (hleases : c.leases = l :: ls)
      (hmultiplexed : l.multiplexed = multiplexed)
      (hheld : Held method c.stage c.holding l)
      (hpast : Past multiplexed lost ls)

/-- The outcome loses the session: a batch transaction cannot begin, or the stream
of a batch write fails, on a session of the pool. -/
def loses
    (factory : SessionFactory) : Method → Event σ → Bool
  | .createBatchTransaction, .begin (some _) => !factory.getSession
  | .batchWriteAtLeastOnce, .settled (some _) =>
      !factory.getSessionForReadWrite
  | _, _ => false

section Past

variable {multiplexed : Bool} {lost : Nat} {l : Lease σ}
variable {ls : List (Lease σ)}

theorem Past.nil
    (multiplexed : Bool) :
    Past multiplexed 0 ([] : List (Lease σ)) where
  multiplexed := fun _ hl => absurd hl List.not_mem_nil
  due := fun _ hl => absurd hl List.not_mem_nil
  count := rfl

theorem Past.cons
    (h : Past multiplexed lost ls)
    (hmultiplexed : l.multiplexed = multiplexed)
    (hdue : l.due ≤ 1) :
    Past multiplexed (lost + l.lost.toNat) (l :: ls) where
  multiplexed := by
    simpa [hmultiplexed] using h.multiplexed
  due := by
    simpa [hdue] using h.due
  count := by
    rw [List.countP_cons, h.count]
    cases l.lost <;> rfl

theorem Past.cons_closed
    (h : Past multiplexed lost ls)
    (hmultiplexed : l.multiplexed = multiplexed)
    (hclosed : l.Closed) :
    Past multiplexed lost (l :: ls) := by
  have hcons := h.cons hmultiplexed hclosed.due
  rw [hclosed.lost] at hcons
  exact hcons

/-- One of the transactions emits its 'end'. -/
theorem Past.emitEnd
    (h : Past multiplexed lost ls)
    {i : Nat}
    (hl : ls[i]? = some l)
    (hemitting : l.emitting = true) :
    Past multiplexed lost (ls.set i l.emitEnd) := by
  have hmem := List.mem_of_getElem? hl
  refine ⟨?_, ?_, ?_⟩
  · intro a ha
    rcases List.mem_or_eq_of_mem_set ha with ha | rfl
    · exact h.multiplexed a ha
    · exact (Lease.emitEnd_multiplexed l).trans (h.multiplexed l hmem)
  · intro a ha
    rcases List.mem_or_eq_of_mem_set ha with ha | rfl
    · exact h.due a ha
    · exact (Lease.emitEnd_due hemitting).1.trans (h.due l hmem)
  · rw [← h.count]
    clear h hmem
    induction ls generalizing i with
    | nil =>
        rfl
    | cons b ls ih =>
        cases i with
        | zero =>
            obtain rfl := Option.some.inj hl
            simp [List.countP_cons, Lease.emitEnd_lost hemitting]
        | succ i =>
            simp only [List.set_cons_succ, List.countP_cons]
            rw [ih hl]

end Past

section Step

variable {factory : SessionFactory} {method : Method} {lost : Nat}
variable {c d : Call σ} {l : Lease σ} {ls : List (Lease σ)}

/-- The sessions of a call of the method. -/
abbrev CustodyOf
    (factory : SessionFactory) (method : Method) (lost : Nat)
    (c : Call σ) : Prop :=
  Custody method (method.operation (σ := σ) factory).multiplexed lost c

/-- A call that works on its session. -/
structure Working
    (factory : SessionFactory) (method : Method) (lost : Nat)
    (c : Call σ) (l : Lease σ) (ls : List (Lease σ)) : Prop where
  leases : c.leases = l :: ls
  multiplexed :
    l.multiplexed = (method.operation (σ := σ) factory).multiplexed
  holding : method = .makePooledStreamingRequest → c.holding = true
  untouched : l.Untouched
  listening : l.listening = method.listens
  past :
    Past (method.operation (σ := σ) factory).multiplexed lost ls

/-- Nothing has changed. -/
theorem Working.custody
    (h : Working factory method lost c l ls)
    (hstage : c.stage = .beginning ∨ c.stage = .running) :
    CustodyOf factory method lost c := by
  refine
    .open l ls ?_ h.leases h.multiplexed
      (.working hstage h.holding h.untouched h.listening) h.past
  rcases hstage with hstage | hstage <;> rw [hstage] <;> rfl

/-- The call goes on working. -/
theorem Working.next
    (h : Working factory method lost c l ls)
    {stage : Stage}
    (hstage : stage = .beginning ∨ stage = .running) :
    CustodyOf factory method lost (c.next stage id) := by
  refine
    .open l ls ?_ ?_ h.multiplexed
      (.working hstage h.holding h.untouched h.listening) h.past
  · rcases hstage with rfl | rfl <;> rfl
  · simp [Call.next, h.leases]

/-- The caller gets the transaction. -/
theorem Working.return
    (h : Working factory method lost c l ls)
    (hmethod : method ≠ .makePooledStreamingRequest)
    {f : Lease σ → Lease σ}
    (hmultiplexed : (f l).multiplexed = l.multiplexed)
    (huntouched : (f l).Untouched)
    (hlistening : (f l).listening = true) :
    CustodyOf factory method lost (c.next .returned f) := by
  refine
    .open (f l) ls rfl ?_ (hmultiplexed.trans h.multiplexed)
      (.returned hmethod huntouched hlistening) h.past
  simp [Call.next, h.leases]

/-- The call is through with its session. -/
theorem Working.close
    (h : Working factory method lost c l ls)
    {f : Lease σ → Lease σ}
    (hstage : d.stage.isOpen = false)
    (hholding : method = .makePooledStreamingRequest → d.holding = false)
    (hleases : d.leases = c.leases.modifyHead f)
    (hmultiplexed : (f l).multiplexed = l.multiplexed)
    (hclosed : (f l).Closed) :
    CustodyOf factory method lost d := by
  refine .closed hstage hholding ?_
  rw [hleases, h.leases]
  exact h.past.cons_closed (hmultiplexed.trans h.multiplexed) hclosed

theorem Working.release
    (h : Working factory method lost c l ls)
    (hstage : d.stage.isOpen = false)
    (hholding : method = .makePooledStreamingRequest → d.holding = false)
    (hleases : d.leases = c.leases.modifyHead Lease.release) :
    CustodyOf factory method lost d :=
  h.close hstage hholding hleases (Lease.release_multiplexed l)
    h.untouched.release

theorem Working.endTransaction
    (h : Working factory method lost c l ls)
    (hlistens : method.listens = true)
    (hstage : d.stage.isOpen = false)
    (hleases : d.leases = c.leases.modifyHead Lease.endTransaction) :
    CustodyOf factory method lost d :=
  h.close hstage (fun hmethod => by rw [hmethod] at hlistens; cases hlistens)
    hleases (Lease.endTransaction_multiplexed l)
    (h.untouched.endTransaction (h.listening.trans hlistens))

/-- The call drops its session. -/
theorem Working.lose
    (h : Working factory method lost c l ls)
    (hmethod : method ≠ .makePooledStreamingRequest)
    (hstage : d.stage.isOpen = false)
    (hleases : d.leases = c.leases.modifyHead id) :
    CustodyOf factory method
      (lost +
        (!(method.operation (σ := σ) factory).multiplexed).toNat) d := by
  refine .closed hstage (fun heq => absurd heq hmethod) ?_
  have hcons := h.past.cons h.multiplexed (h.untouched.due.trans_le (by simp))
  rw [h.untouched.lost, h.multiplexed] at hcons
  rw [hleases, h.leases]
  exact hcons

/-- The callback of `BeginTransaction`. -/
theorem onBegin_custody
    (h : Working factory method lost c l ls)
    (hstage : c.stage = .beginning)
    (err : Option ServiceError) :
    CustodyOf factory method
      (lost + (loses factory method (.begin err : Event σ)).toNat)
      ((method.operation factory).onBegin c err) := by
  have hsame := h.custody (Or.inl hstage)
  cases method with
  | createBatchTransaction =>
      cases err with
      | some error => exact h.lose (by simp) rfl rfl
      | none => exact h.return (by simp) rfl h.untouched h.listening
  | getSnapshot =>
      cases err with
      | some error =>
          change
            CustodyOf factory .getSnapshot lost
              (if isSessionNotFoundError (some error) &&
                  !factory.isMultiplexedEnabled then
                c.again Lease.release
              else
                c.next (.failed error) Lease.release)
          split <;> exact h.release rfl (by simp) rfl
      | none =>
          exact
            h.return (f := Lease.releaseOnEnd) (by simp) rfl
              ⟨h.untouched.releases, h.untouched.ended,
                h.untouched.emitting⟩ rfl
  | runPartitionedUpdate =>
      cases err with
      | some error => exact h.release rfl (by simp) rfl
      | none => exact h.next (Or.inr rfl)
  | getTransaction => exact hsame
  | makePooledRequest => exact hsame
  | makePooledStreamingRequest => exact hsame
  | run => exact hsame
  | runStream => exact hsame
  | runTransaction => exact hsame
  | runTransactionAsync => exact hsame
  | writeAtLeastOnce => exact hsame
  | batchWriteAtLeastOnce => exact hsame

/-- The end or the error of the stream of `runStream`. -/
theorem Working.streamSettled
    (h : Working factory method lost c l ls)
    (hlistens : method.listens = true)
    (err : Option ServiceError) :
    CustodyOf factory method lost
      ((Database.runStream factory).onSettled c err) := by
  cases err with
  | some error =>
      change
        CustodyOf factory method lost
          (if !c.dataReceived && isSessionNotFoundError (some error) &&
              !factory.isMultiplexedEnabled then
            c.again Lease.endTransaction
          else
            c.next (.failed error) Lease.endTransaction)
      split <;> exact h.endTransaction hlistens rfl rfl
  | none => exact h.endTransaction hlistens rfl rfl

/-- The outcome of the runner of `runTransaction`. -/
theorem Working.runnerSettled
    (h : Working factory method lost c l ls)
    (hmethod : method ≠ .makePooledStreamingRequest)
    (err : Option ServiceError) :
    CustodyOf factory method lost
      ((Database.runTransaction factory).onSettled c err) := by
  have hrelease :
      ∀ d : Call σ, d.stage.isOpen = false →
        d.leases = c.leases.modifyHead Lease.release →
          CustodyOf factory method lost d :=
    fun d hstage hleases =>
      h.release hstage (fun heq => absurd heq hmethod) hleases
  cases err with
  | some error =>
      change
        CustodyOf factory method lost
          (if isSessionNotFoundError (some error) then
            c.again Lease.release
          else
            c.next (.failed error) Lease.release)
      split <;> exact hrelease _ rfl rfl
  | none => exact hrelease _ rfl rfl

/-- The outcome of a stream, request or runner. -/
theorem onSettled_custody
    (h : Working factory method lost c l ls)
    (hstage : c.stage = .running)
    (err : Option ServiceError) :
    CustodyOf factory method
      (lost + (loses factory method (.settled err : Event σ)).toNat)
      ((method.operation factory).onSettled c err) := by
  have hsame := h.custody (Or.inr hstage)
  have hsettled : (settled err).isOpen = false := by
    cases err <;> rfl
  cases method with
  | createBatchTransaction => exact hsame
  | getSnapshot => exact hsame
  | getTransaction => exact hsame
  | makePooledRequest => exact h.release hsettled (by simp) rfl
  | makePooledStreamingRequest =>
      refine h.release (d := { c.releaseSession with stage := settled err })
        hsettled (fun _ => ?_) ?_ <;>
      · simp [Call.releaseSession, h.holding rfl, Call.next]
  | run => exact h.streamSettled rfl err
  | runStream => exact h.streamSettled rfl err
  | runPartitionedUpdate =>
      cases err with
      | some error =>
          change
            CustodyOf factory .runPartitionedUpdate lost
              (if error.code != some .ABORTED then
                c.next (.failed error) Lease.release
              else
                c.next .beginning id)
          split
          · exact h.release rfl (by simp) rfl
          · exact h.next (Or.inl rfl)
      | none => exact h.release rfl (by simp) rfl
  | runTransaction => exact h.runnerSettled (by simp) err
  | runTransactionAsync => exact h.runnerSettled (by simp) err
  | writeAtLeastOnce => exact h.endTransaction rfl hsettled rfl
  | batchWriteAtLeastOnce =>
      cases err with
      | some error =>
          change
            CustodyOf factory .batchWriteAtLeastOnce
              (lost + (!factory.getSessionForReadWrite).toNat)
              (if !c.dataReceived && isSessionNotFoundError (some error) then
                c.again id
              else
                c.next (.failed error) id)
          split <;> exact h.lose (by simp) rfl rfl
      | none => exact h.release rfl (by simp) rfl

/-- Every operation obtains an untouched session. -/
theorem onSession_eq
    (factory : SessionFactory) (method : Method)
    (c : Call σ) (session : σ) :
    ∃ stage : Stage,
      (stage = .beginning ∨ stage = .running ∨
        (stage = .returned ∧ method.listens = true)) ∧
      (method.operation factory).onSession c session =
        c.obtain stage
          { session := session
            multiplexed := (method.operation (σ := σ) factory).multiplexed
            listening := method.listens } := by
  cases method <;>
    first
    | exact ⟨.beginning, Or.inl rfl, rfl⟩
    | exact ⟨.running, Or.inr (Or.inl rfl), rfl⟩
    | exact ⟨.returned, Or.inr (Or.inr ⟨rfl, rfl⟩), rfl⟩

theorem onSession_custody
    (hpast :
      Past (method.operation (σ := σ) factory).multiplexed lost c.leases)
    (session : σ) :
    CustodyOf factory method lost
      ((method.operation factory).onSession c session) := by
  obtain ⟨stage, hstage, heq⟩ := onSession_eq factory method c session
  rw [heq]
  have huntouched :
      Lease.Untouched
        { session := session
          multiplexed := (method.operation (σ := σ) factory).multiplexed
          listening := method.listens } :=
    ⟨rfl, rfl, rfl⟩
  rcases hstage with rfl | rfl | ⟨rfl, hlistens⟩
  · exact
      .open _ c.leases rfl rfl rfl
        (.working (Or.inl rfl) (fun _ => rfl) huntouched rfl) hpast
  · exact
      .open _ c.leases rfl rfl rfl
        (.working (Or.inr rfl) (fun _ => rfl) huntouched rfl) hpast
  · exact
      .open _ c.leases rfl rfl rfl
        (.returned (fun heq => by rw [heq] at hlistens; cases hlistens)
          huntouched hlistens) hpast

/-- An error of `getSession` is reported or makes the operation try again. -/
theorem onSessionError_custody
    (hholding : method = .makePooledStreamingRequest → c.holding = false)
    (hpast :
      Past (method.operation (σ := σ) factory).multiplexed lost c.leases)
    (error : ServiceError) :
    CustodyOf factory method lost
      ((method.operation factory).onSessionError c error) := by
  have hfail : CustodyOf factory method lost (c.fail error) :=
    .closed rfl hholding hpast
  have hagain : CustodyOf factory method lost (c.again id) := by
    refine .closed rfl hholding ?_
    rw [Call.again, Call.next, List.modifyHead_id]
    exact hpast
  have hrunner :
      CustodyOf factory method lost
        ((runTransaction factory).onSessionError c error) := by
    change
      CustodyOf factory method lost
        (if isSessionNotFoundError (some error) then c.again id
        else c.fail error)
    split
    · exact hagain
    · exact hfail
  cases method with
  | runTransaction => exact hrunner
  | runTransactionAsync => exact hrunner
  | writeAtLeastOnce =>
      change
        CustodyOf factory .writeAtLeastOnce lost
          (if isSessionNotFoundError (some error) &&
              !factory.isMultiplexedEnabled then c.again id
          else c.fail error)
      split
      · exact hagain
      · exact hfail
  | createBatchTransaction => exact hfail
  | getSnapshot => exact hfail
  | getTransaction => exact hfail
  | makePooledRequest => exact hfail
  | makePooledStreamingRequest => exact hfail
  | run => exact hfail
  | runPartitionedUpdate => exact hfail
  | runStream => exact hfail
  | batchWriteAtLeastOnce => exact hfail

/-- The session of a call whose request is in flight. -/
theorem custody_working
    (h : CustodyOf factory method lost c)
    (hstage : c.stage = .beginning ∨ c.stage = .running) :
    (∃ l ls, Working factory method lost c l ls) ∨
      (method = .makePooledStreamingRequest ∧ c.holding = false ∧
        Past (method.operation (σ := σ) factory).multiplexed lost
          c.leases) := by
  cases h with
  | closed hclosed hholding hpast =>
      rcases hstage with hstage | hstage <;>
      · rw [hstage] at hclosed
        cases hclosed
  | «open» l ls hopen hleases hmultiplexed hheld hpast =>
      generalize hs : c.stage = stage at hheld hstage
      generalize hh : c.holding = holding at hheld
      cases hheld with
      | working hstage' hholding huntouched hlistening =>
          exact
            Or.inl
              ⟨l, ls, hleases, hmultiplexed,
                fun hmethod => hh.trans (hholding hmethod), huntouched,
                hlistening, hpast⟩
      | aborted hstage' hmethod hclosed =>
          refine Or.inr ⟨hmethod, rfl, ?_⟩
          rw [hleases]
          exact hpast.cons_closed hmultiplexed hclosed
      | returned =>
          rcases hstage with hstage | hstage <;> cases hstage
      | ended =>
          rcases hstage with hstage | hstage <;> cases hstage

/-- The emission of an 'end' changes nothing for the sessions. -/
theorem emitEnd_custody
    (h : CustodyOf factory method lost c)
    {i : Nat}
    (hl : c.leases[i]? = some l)
    (hemitting : l.emitting = true) :
    CustodyOf factory method lost
      { c with leases := c.leases.set i l.emitEnd } := by
  cases h with
  | closed hstage hholding hpast =>
      exact .closed hstage hholding (hpast.emitEnd hl hemitting)
  | «open» l' ls' hstage hleases hmultiplexed hheld hpast =>
      rw [hleases] at hl ⊢
      cases i with
      | succ i =>
          exact
            .open l' (ls'.set i l.emitEnd) hstage rfl hmultiplexed hheld
              (hpast.emitEnd hl hemitting)
      | zero =>
          obtain rfl := Option.some.inj hl
          refine
            .open l'.emitEnd ls' hstage rfl
              ((Lease.emitEnd_multiplexed l').trans hmultiplexed) ?_ hpast
          change Held method c.stage c.holding l'.emitEnd
          generalize c.stage = stage at hheld
          generalize c.holding = holding at hheld
          cases hheld with
          | working hstage' hholding huntouched hlistening =>
              rw [huntouched.emitting] at hemitting
              cases hemitting
          | aborted hstage' hmethod hclosed =>
              exact .aborted hstage' hmethod (hclosed.emitEnd hemitting)
          | returned hmethod huntouched hlistening =>
              rw [huntouched.emitting] at hemitting
              cases hemitting
          | ended hmethod hended hclosed =>
              exact
                .ended hmethod ((Lease.emitEnd_ended l').trans hended)
                  (hclosed.emitEnd hemitting)

/-- The caller ends the transaction it has got. -/
theorem endTransaction_custody
    (h : CustodyOf factory method lost c)
    (hstage : c.stage = .returned) :
    CustodyOf factory method lost
      (c.next .returned Lease.endTransaction) := by
  cases h with
  | closed hclosed hholding hpast =>
      rw [hstage] at hclosed
      cases hclosed
  | «open» l ls hopen hleases hmultiplexed hheld hpast =>
      refine
        .open l.endTransaction ls rfl (by simp [Call.next, hleases])
          ((Lease.endTransaction_multiplexed l).trans hmultiplexed) ?_ hpast
      change Held method .returned c.holding l.endTransaction
      rw [hstage] at hheld
      generalize c.holding = holding at hheld
      cases hheld with
      | working hstage' => rcases hstage' with h | h <;> cases h
      | aborted hstage' => rcases hstage' with h | h <;> cases h
      | returned hmethod huntouched hlistening =>
          refine
            .ended hmethod ?_ (huntouched.endTransaction hlistening)
          simp [Lease.endTransaction, huntouched.ended]
      | ended hmethod hended hclosed =>
          have hsame : l.endTransaction = l := by
            simp [Lease.endTransaction, hended]
          rw [hsame]
          exact .ended hmethod hended hclosed

/-- The caller aborts the stream. -/
theorem abort_custody
    (h : CustodyOf factory method lost c)
    (hmethod : method = .makePooledStreamingRequest) :
    CustodyOf factory method lost c.releaseSession := by
  rw [Call.releaseSession]
  split
  · rename_i hholds
    cases h with
    | closed hstage hholding hpast =>
        rw [hholding hmethod] at hholds
        cases hholds
    | «open» l ls hopen hleases hmultiplexed hheld hpast =>
        refine
          .open l.release ls hopen (by simp [Call.next, hleases])
            ((Lease.release_multiplexed l).trans hmultiplexed) ?_ hpast
        change Held method c.stage false l.release
        generalize c.stage = stage at hheld
        rw [hholds] at hheld
        cases hheld with
        | working hstage' hholding huntouched hlistening =>
            exact .aborted hstage' hmethod huntouched.release
        | returned hnot => exact absurd hmethod hnot
        | ended hnot => exact absurd hmethod hnot
  · exact h

/-- One event loses a session if `loses` says so, and none otherwise. -/
theorem step_custody
    {e : Event σ}
    (h : CustodyOf factory method lost c)
    (hstep : step factory method c e = some d) :
    CustodyOf factory method (lost + (loses factory method e).toNat) d := by
  cases e with
  | session result =>
      simp only [step] at hstep
      split at hstep
      · rename_i hstage
        obtain ⟨hholding, hpast⟩ :
            (method = .makePooledStreamingRequest → c.holding = false) ∧
              Past (method.operation (σ := σ) factory).multiplexed lost
                c.leases := by
          cases h with
          | closed _ hholding hpast => exact ⟨hholding, hpast⟩
          | «open» l ls hopen =>
              rw [hstage] at hopen
              cases hopen
        cases result with
        | ok session =>
            obtain rfl := Option.some.inj hstep
            have hcustody := onSession_custody (c := c) hpast session
            cases method <;> exact hcustody
        | error error =>
            obtain rfl := Option.some.inj hstep
            have hcustody :=
              onSessionError_custody (c := c) hholding hpast error
            cases method <;> exact hcustody
      · cases hstep
  | begin err =>
      simp only [step] at hstep
      split at hstep
      · rename_i hstage
        obtain rfl := Option.some.inj hstep
        rcases custody_working h (Or.inl hstage) with
          ⟨l, ls, hworking⟩ | ⟨rfl, hholding, hpast⟩
        · exact onBegin_custody hworking hstage err
        · exact h
      · cases hstep
  | data =>
      simp only [step] at hstep
      split at hstep
      · obtain rfl := Option.some.inj hstep
        have hsame :
            CustodyOf factory method lost { c with dataReceived := true } := by
          cases h with
          | closed hstage hholding hpast =>
              exact .closed hstage hholding hpast
          | «open» l ls hopen hleases hmultiplexed hheld hpast =>
              exact .open l ls hopen hleases hmultiplexed hheld hpast
        cases method <;> exact hsame
      · cases hstep
  | settled err =>
      simp only [step] at hstep
      split at hstep
      · rename_i hstage
        obtain rfl := Option.some.inj hstep
        rcases custody_working h (Or.inr hstage) with
          ⟨l, ls, hworking⟩ | ⟨rfl, hholding, hpast⟩
        · exact onSettled_custody hworking hstage err
        · -- The stream has been aborted: nothing is held.
          have hsame : c.releaseSession = c := by
            simp [Call.releaseSession, hholding]
          change
            CustodyOf factory .makePooledStreamingRequest lost
              { c.releaseSession with stage := Database.settled err }
          rw [hsame]
          refine .closed ?_ (fun _ => hholding) hpast
          cases err <;> rfl
      · cases hstep
  | endTransaction =>
      simp only [step] at hstep
      split at hstep
      · rename_i hstage
        obtain rfl := Option.some.inj hstep
        have hcustody := endTransaction_custody h hstage
        cases method <;> exact hcustody
      · cases hstep
  | abort =>
      simp only [step] at hstep
      split at hstep
      · rename_i hmethod
        obtain rfl := Option.some.inj hstep
        subst hmethod
        exact abort_custody h rfl
      · cases hstep
  | emitEnd i =>
      simp only [step] at hstep
      split at hstep
      · cases hstep
      · rename_i l hl
        split at hstep
        · rename_i hemitting
          obtain rfl := Option.some.inj hstep
          have hcustody := emitEnd_custody h hl hemitting
          cases method <;> exact hcustody
        · cases hstep

end Step

/-- The call is over: it has failed or ended, or the caller has ended what it got;
and every 'end' has been emitted. -/
structure Call.Finished
    (c : Call σ) : Prop where
  settled :
    c.stage.isOpen = false ∧ c.stage ≠ .gettingSession ∨
      c.stage = .returned ∧ ∀ l, c.leases.head? = some l → l.ended = true
  quiet : ∀ l ∈ c.leases, l.emitting = false

end Database
end SpannerClient
