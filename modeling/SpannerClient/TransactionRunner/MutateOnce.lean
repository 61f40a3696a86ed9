import SpannerClient.TransactionRunner.TableMutation

/-!
# What a method of a table commits

The callback of a method is called at most once, and until it is, the call awaits a
session, a reply to a request, the end of a delay or the rejection of its promise
(`Awaits`).  The mutation is committed at most once, except for the commits that
have been answered by one of the internal errors that are retried, and only by
those if `runTransaction` has reported an error.

The invariant (`Inv`) says of the earlier runners that their session was gone, and
of the last one what the callback has heard of it.  Each event has a lemma
(`Inv.session`, `Inv.commitReply`, ...); `step_inv` puts them together, and
`mutated_once` is the main result, for any lawful server.
-/

namespace SpannerClient
namespace TransactionRunner

open Machine
open Request

/-! ## The invariant -/

namespace TableMutation

open MutateCall

variable {L : Codec.Leaves} {S : Server L.Number} {call : MutateCall L}
variable {s q : TableMutation S}

/-- What is known at each stage. -/
inductive StageInv
    (call : MutateCall L) :
    TableStage S → List Answer → Prop
  | session : StageInv call .session []
  | running (r : CommittingRunner S) (answers : List Answer)
      (hruns : call.Runs r) (hheard : call.Heard r answers) :
      StageInv call (.running r) answers
  | ended (r : Option (CommittingRunner S)) (rejection : Rejection)
      (hclosed : ∀ r' ∈ r, call.Runs r' ∧ r'.LastClosed) :
      StageInv call (.ended r) [.failed rejection]

/-- What is known of the call. -/
structure Inv
    (call : MutateCall L) (s : TableMutation S) : Prop where
  earlier : ∀ r ∈ s.earlier, call.Runs r ∧ r.startsAgain = true
  stage : StageInv call s.stage s.answers

/-- The runner has gone on, and the callback has heard nothing. -/
theorem Inv.waits
    {r : CommittingRunner S}
    (h : Inv call s)
    (hanswers : s.answers = [])
    (hr : call.Runs r ∧ call.Waits r) :
    Inv call { s with stage := .running r } where
  earlier := h.earlier
  stage := by
    dsimp only
    rw [hanswers]
    exact .running r [] hr.1 (.waits hr.2)

/-- A runner to which something can happen but the server has not called back. -/
theorem waits_of_heard
    {r : CommittingRunner S} {answers : List Answer}
    (hheard : call.Heard r answers)
    (hphase :
      (∀ t, r.runner.phase ≠ .running t) ∧ r.runner.phase ≠ .resolved) :
    answers = [] ∧ call.Waits r := by
  cases hheard with
  | waits h => exact ⟨rfl, h⟩
  | told result h =>
      rcases h.phase with ⟨t, ht⟩ | hresolved
      · exact absurd ht (hphase.1 t)
      · exact absurd hresolved hphase.2

/-- The runner makes no attempt and is not resolved. -/
theorem woken_phase
    {r x : CommittingRunner S} {now : Int}
    (hstep : r.step (.runner (.woken now)) = some x) :
    (∀ t, r.runner.phase ≠ .running t) ∧ r.runner.phase ≠ .resolved := by
  simp only [CommittingRunner.step] at hstep
  obtain ⟨y, hy, -⟩ := Option.map_eq_some_iff.mp hstep
  cases steps_of_step hy with
  | woken now hsleeping =>
      rw [hsleeping]
      simp

theorem begun_phase
    {r x : CommittingRunner S}
    {reply : Except Failure (TransactionId × Option PrecommitToken)}
    (hstep : r.step (.beginSettled reply) = some x) :
    (∀ t, r.runner.phase ≠ .running t) ∧ r.runner.phase ≠ .resolved := by
  cases reply <;> simp only [CommittingRunner.step] at hstep
  · obtain ⟨y, hy, -⟩ := Option.map_eq_some_iff.mp hstep
    cases steps_of_step hy with
    | beginFailed f hbeginning =>
        rw [hbeginning]
        simp
  · obtain ⟨y, hy, -⟩ := Option.map_eq_some_iff.mp hstep
    cases steps_of_step hy with
    | begun hbeginning =>
        rw [hbeginning]
        simp

/-- A reply to a request of the commit. -/
theorem Inv.goOn
    {r x : CommittingRunner S}
    {failure : Option Failure} {e : Transaction.CommitEvent}
    (h : Inv call s)
    (hruns : call.Runs r)
    (hheard : call.Heard r s.answers)
    (he : IsReply e)
    (honce : CommittingRunner.Once x)
    (hstep : r.atTransaction failure e = some x) :
    Inv call (s.goOn x) := by
  have hbusy : r.commit.phase ≠ .idle := by
    obtain ⟨t, c, -, hc, -⟩ := CommittingRunner.atTransaction_cases hstep
    exact (replied hruns.once.commitInv he hc).1
  obtain ⟨hanswers, hwaits⟩ : s.answers = [] ∧ call.Waits r := by
    generalize s.answers = answers at hheard
    cases hheard with
    | waits h => exact ⟨rfl, h⟩
    | told result h => exact absurd h.idle hbusy
  obtain ⟨hx, hheard'⟩ := heard_of_reply hruns hwaits he honce hstep
  refine ⟨h.earlier, ?_⟩
  rw [TableMutation.goOn, hanswers]
  exact .running x _ hx hheard'

/-- The stage of a call that awaits a session. -/
theorem StageInv.answers_of_session
    {answers : List Answer}
    (h : StageInv (S := S) call .session answers) :
    answers = [] := by
  cases h
  rfl

theorem StageInv.of_running
    {r : CommittingRunner S} {answers : List Answer}
    (h : StageInv call (.running r) answers) :
    call.Runs r ∧ call.Heard r answers := by
  cases h with
  | running r answers hruns hheard => exact ⟨hruns, hheard⟩

theorem StageInv.of_ended
    {r : Option (CommittingRunner S)} {answers : List Answer}
    (h : StageInv call (.ended r) answers) :
    ∃ rejection, answers = [.failed rejection] ∧
      ∀ r' ∈ r, call.Runs r' ∧ r'.LastClosed := by
  cases h with
  | ended r rejection hclosed => exact ⟨rejection, rfl, hclosed⟩

/-! ## The events -/

theorem Inv.session
    {failure : Option Failure} {random : Nat → Nat} {start : Int}
    (hS : S.Lawful)
    (h : Inv call s)
    (hstep : s.step call (.session failure random start) = some q) :
    Inv call q := by
  have hstage := h.stage
  simp only [TableMutation.step] at hstep
  split at hstep
  · rename_i hsession
    rw [hsession] at hstage
    obtain ⟨x, hx, rfl⟩ := Option.map_eq_some_iff.mp hstep
    obtain ⟨hruns, hfresh⟩ := fresh_begun hS call random start
    exact
      h.waits hstage.answers_of_session (callFunction_waits hS hruns hfresh hx)
  · rename_i f hsession
    split at hstep
    · obtain rfl := Option.some.inj hstep
      exact h
    · obtain rfl := Option.some.inj hstep
      rw [hsession] at hstage
      refine ⟨h.earlier, ?_⟩
      rw [TableMutation.fail, hstage.answers_of_session]
      exact .ended none _ (by simp)
  · cases hstep

theorem Inv.beginReply
    {reply : Except Failure (TransactionId × Option PrecommitToken)}
    (hS : S.Lawful)
    (h : Inv call s)
    (hstep : s.step call (.beginReply reply) = some q) :
    Inv call q := by
  have hstage := h.stage
  simp only [TableMutation.step] at hstep
  split at hstep
  · rename_i r hrunning
    rw [hrunning] at hstage
    obtain ⟨hruns, hheard⟩ := hstage.of_running
    obtain ⟨x, hx, rfl⟩ := Option.map_eq_some_iff.mp hstep
    have honce :=
      CommittingRunner.step_once hS hruns.once (e := .beginReply reply) trivial hx
    simp only [CommittingRunner.step] at hx
    exact h.goOn hruns hheard (.beginReply _) honce hx
  · cases hstep

theorem Inv.commitReply
    {reply : Except Failure Transaction.CommitResponse}
    (hS : S.Lawful)
    (h : Inv call s)
    (hstep : s.step call (.commitReply reply) = some q) :
    Inv call q := by
  have hstage := h.stage
  simp only [TableMutation.step] at hstep
  split at hstep
  · rename_i r hrunning
    rw [hrunning] at hstage
    obtain ⟨hruns, hheard⟩ := hstage.of_running
    obtain ⟨x, hx, rfl⟩ := Option.map_eq_some_iff.mp hstep
    have honce :=
      CommittingRunner.step_once hS hruns.once (e := .commitReply reply) trivial
        hx
    simp only [CommittingRunner.step] at hx
    split at hx
    · exact
        h.goOn (hruns.lose reply) (hheard.lose reply) (.commitReply _) honce hx
    · cases hx
  · cases hstep

theorem Inv.woken
    {now : Int}
    (hS : S.Lawful)
    (h : Inv call s)
    (hstep : s.step call (.woken now) = some q) :
    Inv call q := by
  have hstage := h.stage
  simp only [TableMutation.step] at hstep
  split at hstep
  · rename_i r hrunning
    rw [hrunning] at hstage
    obtain ⟨hruns, hheard⟩ := hstage.of_running
    obtain ⟨x, hx, rfl⟩ := Option.map_eq_some_iff.mp hstep
    obtain ⟨hanswers, hwaits⟩ := waits_of_heard hheard (woken_phase hx)
    exact h.waits hanswers (woken_waits hS hruns hwaits hx)
  · cases hstep

theorem Inv.beginSettled
    {reply : Except Failure (TransactionId × Option PrecommitToken)}
    (hS : S.Lawful)
    (h : Inv call s)
    (hstep : s.step call (.beginSettled reply) = some q) :
    Inv call q := by
  have hstage := h.stage
  cases reply with
  | ok reply =>
      simp only [TableMutation.step] at hstep
      split at hstep
      · rename_i r hrunning
        rw [hrunning] at hstage
        obtain ⟨hruns, hheard⟩ := hstage.of_running
        obtain ⟨x, hx, rfl⟩ := Option.map_eq_some_iff.mp hstep
        obtain ⟨y, hy, hcall⟩ := Option.bind_eq_some_iff.mp hx
        obtain ⟨hanswers, -⟩ := waits_of_heard hheard (begun_phase hy)
        obtain ⟨hruns', hfresh⟩ := fresh_of_begun hS hruns hy
        exact h.waits hanswers (callFunction_waits hS hruns' hfresh hcall)
      · cases hstep
  | error f =>
      simp only [TableMutation.step] at hstep
      split at hstep
      · rename_i r hrunning
        rw [hrunning] at hstage
        obtain ⟨hruns, hheard⟩ := hstage.of_running
        obtain ⟨x, hx, rfl⟩ := Option.map_eq_some_iff.mp hstep
        obtain ⟨hanswers, hwaits⟩ := waits_of_heard hheard (begun_phase hx)
        exact h.waits hanswers (beginFailed_waits hS hruns hwaits hx)
      · cases hstep

/-- The runner starts again on another session, or the callback is called. -/
theorem Inv.rejected
    (h : Inv call s)
    (hstep : s.step call .rejected = some q) :
    Inv call q := by
  have hstage := h.stage
  simp only [TableMutation.step] at hstep
  split at hstep
  · rename_i r hrunning
    rw [hrunning] at hstage
    obtain ⟨hruns, hheard⟩ := hstage.of_running
    split at hstep
    · rename_i rejection hrejected
      obtain ⟨hanswers, hwaits⟩ :=
        waits_of_heard hheard
          (by
            rw [hrejected]
            simp)
      split at hstep
      · rename_i hagain
        obtain rfl := Option.some.inj hstep
        refine ⟨fun x hx => ?_, ?_⟩
        · rcases List.mem_append.mp hx with hx | hx
          · exact h.earlier x hx
          · obtain rfl := List.mem_singleton.mp hx
            exact ⟨hruns, hagain⟩
        · dsimp only
          rw [hanswers]
          exact .session
      · obtain rfl := Option.some.inj hstep
        refine ⟨h.earlier, ?_⟩
        rw [TableMutation.fail, hanswers]
        refine .ended (some r) rejection fun x hx => ?_
        obtain rfl := Option.mem_some_iff.mp hx
        exact ⟨hruns, hwaits.closed rejection hrejected⟩
    · cases hstep
  · cases hstep

/-- The server acts, also after the callback has been called. -/
theorem Inv.server
    {a : S.Action}
    (hS : S.Lawful)
    (h : Inv call s)
    (hstep : s.step call (.server a) = some q) :
    Inv call q := by
  have hstage := h.stage
  simp only [TableMutation.step] at hstep
  split at hstep
  · rename_i r hrunning
    rw [hrunning] at hstage
    obtain ⟨hruns, hheard⟩ := hstage.of_running
    obtain ⟨x, hx, rfl⟩ := Option.map_eq_some_iff.mp hstep
    exact ⟨h.earlier, .running x _ (hruns.server hS hx) (hheard.server hS hx)⟩
  · rename_i r hended
    rw [hended] at hstage
    obtain ⟨x, hx, rfl⟩ := Option.map_eq_some_iff.mp hstep
    obtain ⟨rejection, hanswers, hclosed⟩ := hstage.of_ended
    obtain ⟨hruns, hlast⟩ := hclosed r rfl
    refine ⟨h.earlier, ?_⟩
    dsimp only
    rw [hanswers]
    refine .ended (some x) rejection fun y hy => ?_
    obtain rfl := Option.mem_some_iff.mp hy
    exact ⟨hruns.server hS hx, server_lastClosed hS hx hlast⟩
  · cases hstep

theorem Inv.serverEarlier
    {i : Nat} {a : S.Action}
    (hS : S.Lawful)
    (h : Inv call s)
    (hstep : s.step call (.serverEarlier i a) = some q) :
    Inv call q := by
  simp only [TableMutation.step] at hstep
  split at hstep
  · rename_i r hr
    obtain ⟨x, hx, rfl⟩ := Option.map_eq_some_iff.mp hstep
    refine ⟨fun y hy => ?_, h.stage⟩
    rcases List.mem_or_eq_of_mem_set hy with hy | rfl
    · exact h.earlier y hy
    · obtain ⟨hruns, hagain⟩ := h.earlier r (List.mem_of_getElem? hr)
      refine ⟨hruns.server hS hx, ?_⟩
      rw [CommittingRunner.startsAgain, (server_step hS hx).1]
      exact hagain
  · cases hstep

/-- Every event keeps what is known. -/
theorem step_inv
    {e : TableEvent S}
    (hS : S.Lawful)
    (h : Inv call s)
    (hstep : s.step call e = some q) :
    Inv call q := by
  cases e with
  | session failure random start => exact h.session hS hstep
  | beginReply reply => exact h.beginReply hS hstep
  | commitReply reply => exact h.commitReply hS hstep
  | woken now => exact h.woken hS hstep
  | beginSettled reply => exact h.beginSettled hS hstep
  | rejected => exact h.rejected hstep
  | server a => exact h.server hS hstep
  | serverEarlier i a => exact h.serverEarlier hS hstep

/-! ## What is awaited -/

/-- What a call awaits. -/
inductive Awaits : TableStage S → Prop
  | session : Awaits .session
  /-- The reply to a request of the commit. -/
  | commit (r : CommittingRunner S) (t : ReadWriteTransaction)
      (hrunning : r.runner.phase = .running t)
      (hbusy : r.commit.phase ≠ .idle) :
      Awaits (.running r)
  /-- The reply to the `BeginTransaction` request of the runner. -/
  | begin (r : CommittingRunner S) (t : ReadWriteTransaction)
      (hbeginning : r.runner.phase = .beginning t) :
      Awaits (.running r)
  /-- The end of the delay before the next attempt. -/
  | delay (r : CommittingRunner S) (delay : Rat)
      (hsleeping : r.runner.phase = .sleeping delay) :
      Awaits (.running r)
  /-- The rejection of the promise of `run`. -/
  | rejection (r : CommittingRunner S) (rejection : Rejection)
      (hrejected : r.runner.phase = .rejected rejection) :
      Awaits (.running r)

/-- A runner whose callback has heard nothing awaits something. -/
theorem awaits_of_waits
    {r : CommittingRunner S}
    (hwaits : call.Waits r) :
    Awaits (.running r) := by
  cases hphase : r.runner.phase with
  | beginning t => exact .begin r t hphase
  | running t => exact .commit r t hphase (hwaits.busy t hphase)
  | sleeping delay => exact .delay r delay hphase
  | resolved => exact absurd hphase hwaits.unresolved
  | rejected rejection => exact .rejection r rejection hphase

/-- As long as the callback has not been called, something is awaited. -/
theorem Inv.awaits
    (h : Inv call s)
    (hanswers : s.answers = []) :
    Awaits s.stage := by
  have hstage := h.stage
  cases hs : s.stage with
  | session => exact .session
  | running r =>
      rw [hs, hanswers] at hstage
      obtain ⟨-, hheard⟩ := hstage.of_running
      cases hheard with
      | waits h => exact awaits_of_waits h
  | ended r =>
      rw [hs] at hstage
      obtain ⟨rejection, hsome, -⟩ := hstage.of_ended
      rw [hanswers] at hsome
      cases hsome

/-! ## What is committed -/

/-- What a method of a table does. -/
structure MutatedOnce
    (call : MutateCall L) (s : TableMutation S) : Prop where
  /-- The callback is called at most once, -/
  answered : s.answers.length ≤ 1
  /-- and something is awaited until it is. -/
  awaits : s.answers = [] → Awaits s.stage
  /-- Only the mutation of the call is committed, -/
  mutations :
    ∀ r ∈ s.runners, ∀ x ∈ S.committed r.server,
      x.2.mutations = call.queue.1
  /-- and once, but for the commits that are lost. -/
  bounded : s.commits ≤ s.losses + 1
  /-- If it is called with the error of `runTransaction`, there has been none but
  those that are lost. -/
  failed : ∀ rejection, .failed rejection ∈ s.answers → s.commits ≤ s.losses
  /-- Nothing is sent of rows or keys that cannot be queued. -/
  refused :
    ∀ err, call.queue.2 = some err →
      ∀ r ∈ s.runners, S.received r.server = []

theorem Inv.runs
    (h : Inv call s) :
    ∀ r ∈ s.runners, call.Runs r := by
  intro r hr
  have hstage := h.stage
  unfold runners at hr
  split at hr
  · exact (h.earlier r hr).1
  · rename_i x hs
    rw [hs] at hstage
    rcases List.mem_append.mp hr with hr | hr
    · exact (h.earlier r hr).1
    · obtain rfl := List.mem_singleton.mp hr
      exact hstage.of_running.1
  · rename_i x hs
    rw [hs] at hstage
    obtain ⟨-, -, hclosed⟩ := hstage.of_ended
    rcases List.mem_append.mp hr with hr | hr
    · exact (h.earlier r hr).1
    · exact (hclosed r (Option.mem_toList.mp hr)).1

/-- The runners before the last one have only committed what is lost. -/
theorem Inv.earlier_le
    (h : Inv call s) :
    ∀ r ∈ s.earlier, CommittingRunner.Once r ∧ r.startsAgain = true :=
  fun r hr => ⟨(h.earlier r hr).1.once, (h.earlier r hr).2⟩

theorem Inv.bounded
    (h : Inv call s) :
    s.commits ≤ s.losses + 1 := by
  have hstage := h.stage
  unfold commits losses runners
  split
  · exact (CommittingRunner.sum_commits_earlier h.earlier_le).trans (Nat.le_succ _)
  · rename_i r hs
    rw [hs] at hstage
    exact
      CommittingRunner.sum_commits_le h.earlier_le
        hstage.of_running.1.once.committedOnce.bounded
  · rename_i r hs
    rw [hs] at hstage
    obtain ⟨-, -, hclosed⟩ := hstage.of_ended
    cases r with
    | none =>
        simpa using
          (CommittingRunner.sum_commits_earlier h.earlier_le).trans
            (Nat.le_succ _)
    | some r =>
        exact
          CommittingRunner.sum_commits_le h.earlier_le
            (hclosed r rfl).1.once.committedOnce.bounded

theorem Inv.failed
    {rejection : Rejection}
    (h : Inv call s)
    (hfailed : .failed rejection ∈ s.answers) :
    s.commits ≤ s.losses := by
  have hstage := h.stage
  unfold commits losses runners
  split
  · exact CommittingRunner.sum_commits_earlier h.earlier_le
  · rename_i r hs
    rw [hs] at hstage
    obtain ⟨-, hheard⟩ := hstage.of_running
    generalize s.answers = answers at hheard hfailed
    cases hheard with
    | waits h => cases hfailed
    | told result h =>
        rcases List.mem_singleton.mp hfailed with heq
        cases heq
  · rename_i r hs
    rw [hs] at hstage
    obtain ⟨-, -, hclosed⟩ := hstage.of_ended
    cases r with
    | none => simpa using CommittingRunner.sum_commits_earlier h.earlier_le
    | some r =>
        obtain ⟨hruns, hlast⟩ := hclosed r rfl
        exact
          CommittingRunner.sum_commits_le (n := 0) h.earlier_le
            (hruns.once.commits_le_losses hlast)

theorem StageInv.answered
    {stage : TableStage S} {answers : List Answer}
    (h : StageInv call stage answers) :
    answers.length ≤ 1 := by
  cases h with
  | session => exact Nat.zero_le _
  | running r answers hruns hheard =>
      cases hheard with
      | waits h => exact Nat.zero_le _
      | told result h => exact le_rfl
  | ended r rejection hclosed => exact le_rfl

theorem Inv.mutatedOnce
    (h : Inv call s) :
    MutatedOnce call s where
  answered := h.stage.answered
  awaits := h.awaits
  mutations := fun r hr x hx => by
    have hruns := h.runs r hr
    have hone := hruns.once.committedOnce.mutations x hx
    rw [hone, hruns.mutations]
  bounded := h.bounded
  failed := fun rejection hfailed => h.failed hfailed
  refused := fun err herr r hr => (h.runs r hr).refused err herr

/-- The methods of a table: the callback is called at most once, and something is
awaited until it is; the mutation is committed at most once, except for the commits
that are answered by one of the internal errors that are retried, and only by those
when `runTransaction` reports an error. -/
theorem mutated_once
    {call : MutateCall L} {events : List (TableEvent S)}
    {s : TableMutation S}
    (hS : S.Lawful)
    (hrun : run (TableMutation.step call) {} events = some s) :
    MutatedOnce call s := by
  have hinv : Inv call s :=
    run_invariant (I := Inv call) (fun _ _ _ h hstep => step_inv hS h hstep)
      ⟨fun _ hr => absurd hr List.not_mem_nil, .session⟩ hrun
  exact hinv.mutatedOnce

/-- Two singers are deleted. -/
def deleteSingers : MutateCall byteLeaves where
  bytes := byteBuffers
  spanner := {}
  isMuxEnabledForRW := false
  encodeMessage := ""
  name := "Singers"
  method := .deleteRows singerKeys
  options := {}

open Server (journaling journaling_lawful)

/-- The first session is gone when the transaction is to be committed. -/
def deletedOnSecond : List (TableEvent (journaling byteLeaves.Number)) :=
  [.session none (fun _ => 0) 0, .beginReply (.ok (7, none)),
    .server (.abort 1),
    .commitReply (.error ⟨sessionNotFound, .absent⟩), .rejected,
    .session none (fun _ => 0) 0, .beginReply (.ok (8, none)),
    .server (.apply 0), .commitReply (.ok ⟨some ⟨5, 0⟩, none⟩)]

theorem mutated_once_deletedOnSecond :
    ∃ s, run (TableMutation.step deleteSingers) {} deletedOnSecond = some s ∧
      s.answers.length = 1 ∧ s.commits = 1 ∧ MutatedOnce deleteSingers s := by
  have hrun :
      ((run (TableMutation.step deleteSingers) {} deletedOnSecond).map fun s =>
        (s.answers.length, s.commits)) = some (1, 1) := by
    decide +kernel
  obtain ⟨s, hs, heq⟩ := Option.map_eq_some_iff.mp hrun
  obtain ⟨hanswers, hcommits⟩ := Prod.mk.inj heq
  exact ⟨s, hs, hanswers, hcommits, mutated_once journaling_lawful hs⟩

end TableMutation

end TransactionRunner
end SpannerClient
