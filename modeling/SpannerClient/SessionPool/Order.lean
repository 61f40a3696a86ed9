import SpannerClient.Machine.History
import SpannerClient.SessionPool.Closing

/-!
# The order of the answers

A caller of `getSession` that has not been answered stands in a line: its acquire
waits in the queue, is run by it, or is about to call back.  Every call is
answered once or stands in the line once, and sessions are handed out in the
order of the calls: those who have got one, followed by the line, is what is left
of the calls when the refused ones are taken away.

Most operations touch neither the line nor the answers (`Pool.desk`); the others
serve the first in the line or take one out of it (`Answers`).  The invariant speaks
of the calls made so far as well (`Pool.InOrder`), and the main result is
`inOrder_of_run`.
-/

namespace SpannerClient
namespace SessionPool

open Machine

variable {σ : Type} [DecidableEq σ]
variable {options : SessionPoolOptions} {p t : Pool σ}

namespace Pool

/-- Whose acquire the queue runs. -/
def currentCaller
    (p : Pool σ) : List Nat :=
  (p.current.map fun current => current.1.caller).toList

/-- The callers that have not been answered, in order. -/
def line
    (p : Pool σ) : List Nat :=
  p.resolved.map (fun r => r.1.caller) ++
    (p.currentCaller ++ p.queued.map Acquire.caller)

/-- The callers that have been answered. -/
def answered
    (p : Pool σ) : List Nat :=
  p.outcomes.map Prod.fst

/-- The callers that have got a session, in order. -/
def served
    (p : Pool σ) : List Nat :=
  p.outcomes.filterMap fun
    | (caller, .ok _) => some caller
    | (_, .error _) => none

/-- The answers and the line. -/
def desk
    (p : Pool σ) :=
  (p.outcomes, p.resolved, p.currentCaller, p.queued)

end Pool

/-- The calls of `getSession` an event makes. -/
def Event.calls : Event σ → List Nat
  | .acquire caller => [caller]
  | _ => []

/-- The calls of `getSession` in a run. -/
def calls
    (es : List (Event σ)) : List Nat :=
  es.flatMap Event.calls

/-- What an event does to the line and the answers. -/
inductive Answers
    (p : Pool σ) : Pool σ → Prop where
  | nothing {q : Pool σ}
      (houtcomes : q.outcomes = p.outcomes)
      (hline : q.line = p.line) :
      Answers p q
  | rejects {q : Pool σ}
      (caller : Nat) (error : AcquireError σ) (before after : List Nat)
      (houtcomes : q.outcomes = p.outcomes ++ [(caller, .error error)])
      (hline : p.line = before ++ caller :: after)
      (hline' : q.line = before ++ after) :
      Answers p q
  | grants {q : Pool σ}
      (caller : Nat) (s : σ)
      (houtcomes : q.outcomes = p.outcomes ++ [(caller, .ok s)])
      (hline : p.line = caller :: q.line)
      (hheld : q.held = p.held ++ [(caller, s)]) :
      Answers p q

section Operations

omit [DecidableEq σ] in
theorem answers_of_desk
    (h : t.desk = p.desk) :
    Answers p t := by
  simp only [Pool.desk, Prod.mk.injEq] at h
  obtain ⟨houtcomes, hresolved, hcurrent, hqueued⟩ := h
  refine .nothing houtcomes ?_
  rw [Pool.line, hresolved, hcurrent, hqueued, Pool.line]

omit [DecidableEq σ] in
theorem wake_desk
    (p : Pool σ) (result : Except (AcquireError σ) Unit) :
    (p.wake result).desk = p.desk := by
  unfold Pool.desk Pool.currentCaller Pool.wake
  rcases hcur : p.current with _ | ⟨a, phase⟩
  · rfl
  · cases phase <;> rfl

theorem release_desk
    (p : Pool σ) (s : σ) :
    (p.release s).2.desk = p.desk := by
  rw [Pool.release]
  split
  · rfl
  · dsimp only
    split
    · rfl
    · rw [Pool.releaseIdle, wake_desk]
      rfl

section

omit [DecidableEq σ]

theorem createSessions_desk
    (p : Pool σ) (amount : Int) :
    (p.createSessions amount).desk = p.desk := by
  rw [Pool.createSessions]
  split <;> rfl

theorem fill_desk
    (options : SessionPoolOptions) (p : Pool σ) :
    (p.fill options).desk = p.desk := by
  unfold Pool.fill
  dsimp only
  split
  · rfl
  · exact createSessions_desk p _

theorem createForWaiter_desk
    (options : SessionPoolOptions) (p : Pool σ) :
    (p.createForWaiter options).desk = p.desk := by
  rcases createForWaiter_cases options p with heq | heq <;>
    simp [heq, createSessions_desk]

end

theorem borrowNext_desk
    (p : Pool σ) :
    p.borrowNextAvailableSession.2.desk = p.desk := by
  rw [Pool.borrowNextAvailableSession]
  split <;> rfl

theorem evictLoop_desk
    (options : SessionPoolOptions)
    (size : Int) (count : Nat) (evicted : Int) (idle : List σ)
    (p : Pool σ) :
    (Pool.evictLoop options size count evicted idle p).desk = p.desk := by
  obtain ⟨sessions, requests, deletes, -, heq⟩ :=
    evictLoop_frame options size count evicted idle p
  rw [heq]
  rfl

theorem pings_desk
    (round : Nat) (idle : List σ) (p : Pool σ) :
    (idle.foldl (Pool.ping round) p).desk = p.desk := by
  obtain ⟨sessions, borrowed, pings, heq⟩ := pings_frame round idle p
  rw [heq]
  rfl

theorem pingSucceeded_desk
    (p : Pool σ) (round : Nat) (s : σ) :
    (p.pingSucceeded round s).desk = p.desk := by
  have hrelease := release_desk p s
  rw [Pool.pingSucceeded]
  split
  · rename_i heq
    rw [heq] at hrelease
    exact hrelease
  · rename_i heq
    rw [heq] at hrelease
    exact hrelease

omit [DecidableEq σ] in
theorem batchCreated_desk
    (p : Pool σ) (i : Nat) (amount : Int) (sessions : List σ) :
    (p.batchCreated i amount sessions).desk = p.desk := by
  rw [Pool.batchCreated]
  dsimp only
  split <;> rfl

omit [DecidableEq σ] in
theorem close_desk
    (p : Pool σ) :
    p.close.desk = p.desk := by
  unfold Pool.close
  dsimp only
  rw [destroys_eq]
  exact
    wake_desk { p with isOpen := false, houseKeeping := false }
      (.error .closed)

/-- The closure of the acquire `a` goes on, or the caller is told the error. -/
theorem attempt_desk
    (options : SessionPoolOptions) (p : Pool σ) (a : Acquire) :
    (p.attempt options a).desk =
        (p.outcomes, p.resolved, [a.caller], p.queued) ∨
      ∃ error,
        (p.attempt options a).desk =
          (p.outcomes ++ [(a.caller, .error error)], p.resolved, [],
            p.queued) := by
  rw [Pool.attempt, Pool.getSession]
  split
  · exact Or.inr ⟨_, rfl⟩
  · split
    · have hdesk := borrowNext_desk p
      simp only [Pool.desk, Prod.mk.injEq] at hdesk
      left
      simp [Pool.desk, Pool.currentCaller, hdesk.1, hdesk.2.1, hdesk.2.2.2]
    · split
      · exact Or.inr ⟨_, rfl⟩
      · have hdesk := createForWaiter_desk options p
        simp only [Pool.desk, Prod.mk.injEq] at hdesk
        left
        simp [Pool.desk, Pool.currentCaller, hdesk.1, hdesk.2.1,
          hdesk.2.2.2]

/-- The closure of an acquire is run, whose caller is in the line between the
resolved ones and the rest of the queue. -/
theorem attempt_answers
    {q : Pool σ} {a : Acquire}
    (houtcomes : q.outcomes = p.outcomes)
    (hline :
      p.line =
        q.resolved.map (fun r => r.1.caller) ++
          a.caller :: q.queued.map Acquire.caller) :
    Answers p (q.attempt options a) := by
  rcases attempt_desk options q a with hdesk | ⟨error, hdesk⟩
  · simp only [Pool.desk, Prod.mk.injEq] at hdesk
    obtain ⟨ho, hr, hc, hq⟩ := hdesk
    refine .nothing (ho.trans houtcomes) ?_
    rw [Pool.line, hr, hc, hq, hline]
    rfl
  · simp only [Pool.desk, Prod.mk.injEq] at hdesk
    obtain ⟨ho, hr, hc, hq⟩ := hdesk
    refine .rejects a.caller error _ _ ?_ hline ?_
    · rw [ho, houtcomes]
    · rw [Pool.line, hr, hc, hq]
      rfl

/-- Every event but a call of `getSession`. -/
theorem answers_of_step
    {e : Event σ}
    (hcall : ∀ caller, e ≠ .acquire caller)
    (hstep : step options p e = some t) :
    Answers p t := by
  cases steps_of_step hstep with
  | acquire => exact absurd rfl (hcall _)
  | acquireClosed => exact absurd rfl (hcall _)
  | startAcquire hcur hqueued =>
      refine attempt_answers rfl ?_
      simp [Pool.line, Pool.currentCaller, hcur, hqueued]
  | acquireTimeout => exact answers_of_desk (wake_desk p _)
  | resumeWaiter hcur =>
      rename_i a result
      have hline :
          p.line =
            p.resolved.map (fun r => r.1.caller) ++
              a.caller :: p.queued.map Acquire.caller := by
        simp [Pool.line, Pool.currentCaller, hcur]
      unfold Pool.resumeWaiter
      cases result with
      | ok _ =>
          have hdesk :=
            borrowNext_desk
              { p with waiters := p.waiters - 1, current := none }
          simp only [Pool.desk, Prod.mk.injEq] at hdesk
          refine .nothing hdesk.1 ?_
          simp [Pool.line, Pool.currentCaller, hdesk.2.1, hdesk.2.2.2,
            hcur]
      | error error =>
          exact .rejects a.caller error _ _ rfl hline rfl
  | checkSession hcur =>
      rename_i a s
      have hline :
          p.line =
            p.resolved.map (fun r => r.1.caller) ++
              a.caller :: p.queued.map Acquire.caller := by
        simp [Pool.line, Pool.currentCaller, hcur]
      cases s with
      | none => exact .rejects a.caller _ _ _ rfl hline rfl
      | some s =>
          simp only [Pool.checkSession]
          split
          · refine .nothing rfl ?_
            rw [hline]
            simp [Pool.line, Pool.currentCaller]
          · exact attempt_answers rfl hline
  | finishAcquire hresolved =>
      rename_i a s rest
      refine .grants a.caller s rfl ?_ rfl
      simp [Pool.line, Pool.finishAcquire, Pool.currentCaller, hresolved]
  | release => exact answers_of_desk (release_desk p _)
  | releaseUnknown => exact .nothing rfl rfl
  | setLastError => exact .nothing rfl rfl
  | batchCreated => exact answers_of_desk (batchCreated_desk _ _ _ _)
  | batchCreateFailed => exact answers_of_desk (wake_desk _ _)
  | deliver => exact answers_of_desk (release_desk _ _)
  | fill => exact answers_of_desk (fill_desk _ _)
  | evictIdleSessions => exact answers_of_desk (evictLoop_desk _ _ _ _ _ _)
  | pingIdleSessions => exact answers_of_desk (pings_desk _ _ _)
  | pingSucceeded => exact answers_of_desk (pingSucceeded_desk _ _ _)
  | pingFailed => exact .nothing rfl rfl
  | pingsDone => exact answers_of_desk (fill_desk _ _)
  | deleted => exact .nothing rfl rfl
  | tick => exact .nothing rfl rfl
  | close => exact answers_of_desk (close_desk p)
  | finishClose => exact .nothing rfl rfl

end Operations

/-! ## Runs -/

/-- Every call is answered once or in the line once, and sessions are handed out
in the order of the calls. -/
structure Pool.InOrder
    (calls : List Nat) (p : Pool σ) : Prop where
  once : (p.answered ++ p.line).Perm calls
  order : (p.served ++ p.line).Sublist calls

omit [DecidableEq σ] in
theorem InOrder.answers
    {calls : List Nat}
    (h : p.InOrder calls)
    (hanswers : Answers p t) :
    t.InOrder calls := by
  obtain ⟨honce, horder⟩ := h
  unfold Pool.answered at honce
  unfold Pool.served at horder
  cases hanswers with
  | nothing houtcomes hline =>
      refine ⟨?_, ?_⟩
      · rw [Pool.answered, houtcomes, hline]
        exact honce
      · rw [Pool.served, houtcomes, hline]
        exact horder
  | rejects caller error before after houtcomes hline hline' =>
      rw [hline] at honce horder
      refine ⟨?_, ?_⟩
      · refine List.Perm.trans ?_ honce
        rw [Pool.answered, houtcomes, hline', List.map_append,
          List.append_assoc]
        have hmiddle :
            (caller :: (before ++ after)).Perm
              (before ++ caller :: after) :=
          List.perm_middle.symm
        exact hmiddle.append_left _
      · refine List.Sublist.trans ?_ horder
        rw [Pool.served, houtcomes, hline', List.filterMap_append]
        simp
  | grants caller s houtcomes hline _ =>
      rw [hline] at honce horder
      refine ⟨?_, ?_⟩
      · rw [Pool.answered, houtcomes, List.map_append, List.append_assoc]
        exact honce
      · rw [Pool.served, houtcomes, List.filterMap_append,
          List.append_assoc]
        exact horder

/-- A call that is refused at once, or stands at the end of the line. -/
theorem InOrder.call
    {calls : List Nat} {caller : Nat}
    (h : p.InOrder calls)
    (hstep : step options p (.acquire caller) = some t) :
    t.InOrder (calls ++ [caller]) := by
  obtain ⟨honce, horder⟩ := h
  cases steps_of_step hstep with
  | acquire =>
      have hline :
          Pool.line { p with queued := p.queued ++ [⟨caller, p.now⟩] } =
            p.line ++ [caller] := by
        simp [Pool.line, Pool.currentCaller]
      refine ⟨?_, ?_⟩
      · rw [hline, ← List.append_assoc]
        exact honce.append_right [caller]
      · rw [hline, ← List.append_assoc]
        exact horder.append_right [caller]
  | acquireClosed =>
      refine ⟨?_, ?_⟩
      · have hanswered :
            Pool.answered
                { p with
                  outcomes := p.outcomes ++ [(caller, .error .closed)] } =
              p.answered ++ [caller] := by
          simp [Pool.answered]
        rw [hanswered, List.append_assoc]
        have hmiddle :
            (p.answered ++ ([caller] ++ p.line)).Perm
              ((p.answered ++ p.line) ++ [caller]) := by
          rw [List.append_assoc]
          exact List.perm_append_comm.append_left _
        exact hmiddle.trans (honce.append_right [caller])
      · have hserved :
            Pool.served
                { p with
                  outcomes := p.outcomes ++ [(caller, .error .closed)] } =
              p.served := by
          simp [Pool.served]
        rw [hserved]
        exact horder.trans (List.sublist_append_left _ _)

theorem step_inOrder
    {e : Event σ} {calls : List Nat}
    (h : p.InOrder calls)
    (hstep : step options p e = some t) :
    t.InOrder (calls ++ e.calls) := by
  by_cases hcall : ∃ caller, e = .acquire caller
  · obtain ⟨caller, rfl⟩ := hcall
    exact InOrder.call h hstep
  · have hne : ∀ caller, e ≠ .acquire caller := fun caller heq =>
      hcall ⟨caller, heq⟩
    have hnil : e.calls = [] := by
      cases e with
      | acquire caller => exact absurd rfl (hne caller)
      | _ => rfl
    rw [hnil, List.append_nil]
    exact InOrder.answers h (answers_of_step hne hstep)

omit [DecidableEq σ] in
/-- Nobody has asked yet when the pool opens. -/
theorem opened_inOrder
    (options : SessionPoolOptions) :
    (Pool.opened σ options).InOrder [] := by
  have hdesk :=
    fill_desk options
      { Pool.new σ with
        isOpen := true
        houseKeeping := true }
  simp only [Pool.desk, Prod.mk.injEq] at hdesk
  obtain ⟨houtcomes, hresolved, hcurrent, hqueued⟩ := hdesk
  have hline : (Pool.opened σ options).line = [] := by
    rw [Pool.line, Pool.opened, hresolved, hcurrent, hqueued]
    rfl
  refine ⟨?_, ?_⟩
  · rw [hline, Pool.answered, Pool.opened, houtcomes]
    exact List.Perm.refl _
  · rw [hline, Pool.served, Pool.opened, houtcomes]
    exact List.Sublist.refl _

/-- In every run each call of `getSession` is answered once or waits once, and
sessions are handed out in the order of the calls. -/
theorem inOrder_of_run
    (options : SessionPoolOptions) (es : List (Event σ)) (p : Pool σ)
    (hrun : runPool options es = some p) :
    p.InOrder (calls es) := by
  have h :
      p.InOrder
        (history (step options.construct) (fun _ e => Event.calls e)
          (Pool.opened σ options.construct) es) :=
    history_invariant (I := fun calls p => Pool.InOrder calls p)
      (fun _ _ _ _ h hstep => step_inOrder h hstep)
      (opened_inOrder options.construct) hrun
  rw [history_of_events hrun] at h
  exact h

/-- One session and three calls: the first has got it, the second has run out of
time, the third waits. -/
def secondTimesOut : List (Event Nat) :=
  [.acquire 7, .startAcquire, .batchCreated 0 [0], .deliver, .resumeWaiter,
    .checkSession, .acquire 8, .finishAcquire, .startAcquire, .acquire 9,
    .tick 10, .acquireTimeout, .resumeWaiter]

theorem inOrder_of_run_secondTimesOut :
    ∃ p : Pool Nat,
      runPool { min := 0, max := 1, acquireTimeout := some 10 }
          secondTimesOut = some p ∧
        p.served = [7] ∧ p.answered = [7, 8] ∧ p.line = [9] ∧
        p.InOrder [7, 8, 9] := by
  obtain ⟨p, hrun, hserved, hanswered, hline⟩ :
      ∃ p : Pool Nat,
        runPool { min := 0, max := 1, acquireTimeout := some 10 }
            secondTimesOut = some p ∧
          p.served = [7] ∧ p.answered = [7, 8] ∧ p.line = [9] :=
    ⟨_, rfl, rfl, rfl, rfl⟩
  exact
    ⟨p, hrun, hserved, hanswered, hline,
      inOrder_of_run _ secondTimesOut p hrun⟩

end SessionPool
end SpannerClient
