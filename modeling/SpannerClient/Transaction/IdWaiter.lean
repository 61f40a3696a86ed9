import SpannerClient.Transaction.Sequence

/-!
# Requests waiting for the transaction id

A request that waits for the id is sent when the id becomes known, by whatever
request delivers it: one with an inline begin, or a `BeginTransaction`.  So it is
stranded when it joins the queue too late, or when the last request that could
deliver the id stops without doing so.

`NoneStranded` is what has to hold of every state.  `Strands` says, event by
event, what breaks it, and `step_noneStranded_iff`, with a lemma for each event, that
nothing else does.

The main result, `noneStranded_iff_never_strands`, is the same for whole runs.
-/

namespace SpannerClient
namespace Transaction

open Machine

/-- The request of the statement is in flight, or about to be sent again, and
carries the inline begin. -/
def delivers
    (s : Statement) : Bool :=
  (s.phase == .requested || s.phase == .retrying) &&
    s.reqOpts.any fun q => q.transaction.isBegin

/-- Some request that can deliver the id is in flight. -/
def IdInFlight
    (p : Transaction) : Prop :=
  0 < p.begins ∨
    ∃ (j : Nat) (u : Statement),
      p.statements[j]? = some u ∧ delivers u = true

/-- Some request that can deliver the id, other than that of the statement `i`,
is in flight. -/
def OtherInFlight
    (p : Transaction) (i : Nat) : Prop :=
  0 < p.begins ∨
    ∃ (j : Nat) (u : Statement),
      j ≠ i ∧ p.statements[j]? = some u ∧ delivers u = true

/-- No request waits for an id that is known, or that nothing can deliver. -/
structure NoneStranded
    (p : Transaction) : Prop where
  known : p.id.isSome = true → p.waitingRequests = []
  inFlight : p.waitingRequests ≠ [] → p.IdInFlight

/-- The statement has been wrapped, so that its requests join the queue. -/
def IsWrapped
    (p : Transaction) (i : Nat) : Prop :=
  ∃ s, p.statements[i]? = some s ∧ s.wrapped = true

/-- The event strands a request: it queues one when the id is known or nothing can
deliver it, or it ends the last request that could deliver the id to those in the
queue, without the error handler calling `begin` instead. -/
def Strands
    (p : Transaction) : Event → Prop
  | .reading i => p.IsWrapped i ∧ (p.id.isSome = true ∨ ¬p.OtherInFlight i)
  | .retry i _ => p.IsWrapped i ∧ (p.id.isSome = true ∨ ¬p.OtherInFlight i)
  | .failed i error =>
      p.waitingRequests ≠ [] ∧ ¬p.OtherInFlight i ∧
        ¬(p.useInRunner = true ∧ error.code ≠ some .ABORTED)
  | .ended i => p.waitingRequests ≠ [] ∧ ¬p.OtherInFlight i
  | .batchResponse i transactions _ =>
      p.waitingRequests ≠ [] ∧ ¬p.OtherInFlight i ∧
        ∀ transaction ∈ transactions, transaction = none
  | .batchFailed i _ => p.waitingRequests ≠ [] ∧ ¬p.OtherInFlight i
  | .beginFailed _ =>
      p.waitingRequests ≠ [] ∧
        ¬IdInFlight { p with begins := p.begins - 1 }
  | _ => False

variable {p t : Transaction}

/-- A transaction with an empty queue strands nothing. -/
theorem noneStranded_of_empty
    (hempty : p.waitingRequests = []) :
    p.NoneStranded where
  known := fun _ => hempty
  inFlight := fun hne => absurd hempty hne

theorem IdInFlight.mono
    {q : Transaction}
    (h : p.IdInFlight)
    (hbegins : p.begins ≤ q.begins)
    (hstatements :
      ∀ (j : Nat) u, p.statements[j]? = some u → delivers u = true →
        ∃ u', q.statements[j]? = some u' ∧ delivers u' = true) :
    q.IdInFlight := by
  rcases h with hpos | ⟨j, u, hu, hdelivers⟩
  · exact Or.inl (by omega)
  · obtain ⟨u', hu', hdelivers'⟩ := hstatements j u hu hdelivers
    exact Or.inr ⟨j, u', hu', hdelivers'⟩

/-- New statements have not sent anything. -/
theorem IdInFlight.snoc
    {q : Transaction} {s : Statement}
    (h : p.IdInFlight)
    (hbegins : q.begins = p.begins)
    (hstatements : q.statements = p.statements ++ [s]) :
    q.IdInFlight := by
  refine h.mono hbegins.ge ?_
  intro j u hu hdelivers
  rw [hstatements]
  exact ⟨u, getElem?_snoc_of_some hu _, hdelivers⟩

/-- Once the statement `i` delivers nothing, the others decide. -/
theorem idInFlight_iff_other
    {q : Transaction} {i : Nat} {s' : Statement}
    (hbegins : q.begins = p.begins)
    (hstatements : q.statements = p.statements.set i s')
    (hquiet : delivers s' = false) :
    q.IdInFlight ↔ p.OtherInFlight i := by
  rw [IdInFlight, OtherInFlight]
  rw [hbegins, hstatements]
  refine or_congr_right ?_
  constructor
  · rintro ⟨j, u, hu, hdelivers⟩
    rcases getElem?_set_some hu with ⟨-, rfl⟩ | ⟨hne, hj⟩
    · rw [hquiet] at hdelivers
      cases hdelivers
    · exact ⟨j, u, hne, hj, hdelivers⟩
  · rintro ⟨j, u, hne, hu, hdelivers⟩
    exact
      ⟨j, u, by rw [List.getElem?_set_ne (Ne.symm hne)]; exact hu,
        hdelivers⟩

/-- Replacing a statement by one that delivers if it did. -/
theorem IdInFlight.set
    {q : Transaction} {i : Nat} {s s' : Statement}
    (h : p.IdInFlight)
    (hs : p.statements[i]? = some s)
    (hbegins : q.begins = p.begins)
    (hstatements : q.statements = p.statements.set i s')
    (hdelivers : delivers s = true → delivers s' = true) :
    q.IdInFlight := by
  refine h.mono hbegins.ge ?_
  intro j u hu hdel
  rw [hstatements]
  by_cases hij : j = i
  · subst hij
    rw [hs] at hu
    obtain rfl := Option.some.inj hu
    have hlt := (List.getElem?_eq_some_iff.mp hs).1
    exact ⟨s', List.getElem?_set_self hlt, hdelivers hdel⟩
  · exact
      ⟨u, by rw [List.getElem?_set_ne (Ne.symm hij)]; exact hu, hdel⟩

/-- While the id is unknown, a request that can deliver it is sent again with its
inline begin. -/
theorem Requested.idInFlight
    {i : Nat} {resumeToken : Option ResumeToken}
    (hrequested : Requested p i resumeToken t)
    (hid : p.id = none)
    (h : p.IdInFlight) :
    t.IdInFlight := by
  have hnone :
      ∀ {s : Statement}, p.needsSanitize s = true →
        ∀ {b}, delivers s = true → b := by
    intro s hneeds b hdelivers
    unfold needsSanitize at hneeds
    unfold delivers at hdelivers
    cases hq : s.reqOpts with
    | none => simp [hq] at hdelivers
    | some q => simp [hq, hid] at hneeds
  have hagain :
      ∀ {s : Statement} {q : ReqOpts}, s.reqOpts = some q →
        delivers s = true →
          delivers { s with reqOpts := some q, phase := .requested } =
            true := by
    intro s q hq hdelivers
    rw [delivers] at hdelivers ⊢
    rw [hq] at hdelivers
    exact (Bool.and_eq_true_iff.mp hdelivers).2
  cases hrequested with
  | sanitized hs _ hneeds => exact h.set hs rfl rfl (hnone hneeds)
  | broken hs _ hneeds => exact h.set hs rfl rfl (hnone hneeds)
  | resent hs _ _ hq => exact h.set hs rfl rfl (hagain hq)
  | readWithId _ _ _ hsome =>
      rw [hid] at hsome
      cases hsome
  | read hs _ hq => exact h.set hs rfl rfl (hagain hq)
  | nothing => exact h

/-- A step that keeps the queue, the id and what can deliver it. -/
theorem noneStranded_of_same
    (h : p.NoneStranded)
    (hid : t.id = p.id)
    (hwaiting : t.waitingRequests = p.waitingRequests)
    (hinFlight : p.IdInFlight → t.IdInFlight) :
    t.NoneStranded where
  known := by
    rw [hid, hwaiting]
    exact h.known
  inFlight := by
    rw [hwaiting]
    exact fun hne => hinFlight (h.inFlight hne)

/-- The id is unknown as long as a request waits for it. -/
theorem id_of_waiting
    (h : p.NoneStranded)
    (hne : p.waitingRequests ≠ []) :
    p.id = none := by
  by_contra hid
  exact hne (h.known (Option.isSome_iff_ne_none.mpr hid))

/-- The request of the statement `i` stops, without bringing the id. -/
theorem stop_noneStranded_iff
    (h : p.NoneStranded)
    (i : Nat) (s : Statement) (failed : Bool) :
    (p.stop i s .done failed).NoneStranded ↔
      ¬(p.waitingRequests ≠ [] ∧ ¬p.OtherInFlight i) := by
  have hother :
      (p.stop i s .done failed).IdInFlight ↔ p.OtherInFlight i :=
    idInFlight_iff_other rfl rfl rfl
  constructor
  · rintro ht ⟨hne, hnot⟩
    exact hnot (hother.mp (ht.inFlight hne))
  · intro hnot
    refine ⟨h.known, ?_⟩
    intro hne
    by_contra hquiet
    exact hnot ⟨hne, fun ho => hquiet (hother.mpr ho)⟩

/-- The request function of a wrapped statement queues its request. -/
theorem requestFn_noneStranded_iff
    (h : p.NoneStranded)
    {i : Nat} {resumeToken : Option ResumeToken} :
    (p.requestFn i resumeToken).NoneStranded ↔
      ¬(p.IsWrapped i ∧ (p.id.isSome = true ∨ ¬p.OtherInFlight i)) := by
  rw [requestFn]
  cases hs : p.statements[i]? with
  | none =>
      refine iff_of_true h ?_
      rintro ⟨⟨s, hs', -⟩, -⟩
      rw [hs] at hs'
      cases hs'
  | some s =>
      dsimp only
      cases hwrapped : s.wrapped with
      | false =>
          have hnot :
              ¬(p.IsWrapped i ∧
                (p.id.isSome = true ∨ ¬p.OtherInFlight i)) := by
            rintro ⟨⟨u, hu, huwrap⟩, -⟩
            rw [hs] at hu
            obtain rfl := Option.some.inj hu
            rw [hwrapped] at huwrap
            cases huwrap
          refine iff_of_true ?_ hnot
          have hrequested := requested_makeRequest p i resumeToken
          obtain ⟨hid, hwaiting, -⟩ := hrequested.frame
          refine ⟨?_, ?_⟩
          · rw [if_neg (by decide), hid, hwaiting]
            exact h.known
          · rw [if_neg (by decide), hwaiting]
            intro hne
            exact
              hrequested.idInFlight (id_of_waiting h hne) (h.inFlight hne)
      | true =>
          rw [if_pos rfl]
          have hother :
              IdInFlight
                  { p with
                    statements := p.statements.set i (s.moveTo .queued)
                    waitingRequests :=
                      p.waitingRequests ++ [(i, resumeToken)] } ↔
                p.OtherInFlight i :=
            idInFlight_iff_other rfl rfl rfl
          have hne : p.waitingRequests ++ [(i, resumeToken)] ≠ [] := by
            simp
          constructor
          · rintro ht ⟨-, hsome | hnot⟩
            · exact hne (ht.known hsome)
            · exact hnot (hother.mp (ht.inFlight hne))
          · intro hnot
            have hwrap : p.IsWrapped i := ⟨s, hs, hwrapped⟩
            refine ⟨?_, ?_⟩
            · intro hsome
              exact absurd ⟨hwrap, Or.inl hsome⟩ hnot
            · intro _
              refine hother.mpr ?_
              by_contra hquiet
              exact hnot ⟨hwrap, Or.inr hquiet⟩

/-- The id empties the queue. -/
theorem updateOnce_noneStranded
    (h : p.NoneStranded)
    (transaction : Option TransactionId) :
    (p.updateOnce transaction).NoneStranded := by
  cases transaction with
  | none =>
      exact h
  | some id =>
      unfold updateOnce
      dsimp only
      split
      · exact noneStranded_of_empty (update_frame p id).2.1
      · exact h

theorem onResponse_noneStranded
    (h : p.NoneStranded)
    (transaction : Option TransactionId)
    (precommitToken : Option PrecommitToken) :
    (p.onResponse transaction precommitToken).NoneStranded :=
  updateOnce_noneStranded
    (p :=
      { p with
        latestPreCommitToken :=
          updatePrecommitToken p.latestPreCommitToken precommitToken })
    ⟨h.known, h.inFlight⟩ transaction

/-- What the result sets of a batch bring: nothing if none of them has a
transaction, and otherwise an empty queue. -/
theorem foldl_updateOnce
    (transactions : List (Option TransactionId)) (q : Transaction) :
    ((∀ transaction ∈ transactions, transaction = none) →
        transactions.foldl updateOnce q = q) ∧
      (q.waitingRequests = [] →
        (transactions.foldl updateOnce q).waitingRequests = []) ∧
      (q.id = none → (∃ transaction ∈ transactions, transaction ≠ none) →
        (transactions.foldl updateOnce q).waitingRequests = []) := by
  have hempty :
      ∀ (q : Transaction) transaction, q.waitingRequests = [] →
        (q.updateOnce transaction).waitingRequests = [] := by
    intro q transaction hq
    cases transaction with
    | none => exact hq
    | some id =>
        unfold updateOnce
        dsimp only
        split
        · exact (update_frame q id).2.1
        · exact hq
  induction transactions generalizing q with
  | nil =>
      refine ⟨fun _ => rfl, fun hq => hq, ?_⟩
      rintro - ⟨transaction, hmem, -⟩
      cases hmem
  | cons transaction transactions ih =>
      refine ⟨?_, ?_, ?_⟩
      · intro hall
        obtain rfl := hall transaction List.mem_cons_self
        exact
          (ih q).1 fun x hx => hall x (List.mem_cons_of_mem _ hx)
      · intro hq
        exact (ih _).2.1 (hempty q transaction hq)
      · rintro hid ⟨x, hx, hne⟩
        cases transaction with
        | some id =>
            refine (ih _).2.1 ?_
            rw [updateOnce]
            rw [hid]
            exact (update_frame q id).2.1
        | none =>
            rcases List.mem_cons.mp hx with rfl | hx
            · exact absurd rfl hne
            · exact (ih q).2.2 hid ⟨x, hx, hne⟩

theorem onBatchResponse_noneStranded_iff
    (h : p.NoneStranded)
    {i : Nat} {s : Statement}
    {transactions : List (Option TransactionId)}
    {precommitToken : Option PrecommitToken} :
    ((p.stop i s .done false).onBatchResponse transactions
        precommitToken).NoneStranded ↔
      ¬(p.waitingRequests ≠ [] ∧ ¬p.OtherInFlight i ∧
        ∀ transaction ∈ transactions, transaction = none) := by
  have hstop :=
    stop_noneStranded_iff h i s false
  rw [onBatchResponse]
  obtain ⟨hnothing, hempty, hlearn⟩ :=
    foldl_updateOnce transactions
      { p.stop i s .done false with
        latestPreCommitToken :=
          updatePrecommitToken (p.stop i s .done false).latestPreCommitToken
            precommitToken }
  by_cases hwaiting : p.waitingRequests = []
  · exact
      iff_of_true (noneStranded_of_empty (hempty hwaiting))
        fun hstrands => hstrands.1 hwaiting
  · by_cases hall : ∀ transaction ∈ transactions, transaction = none
    · rw [hnothing hall]
      constructor
      · rintro ht ⟨hne, hnot, -⟩
        exact hstop.mp ⟨ht.known, ht.inFlight⟩ ⟨hne, hnot⟩
      · intro hnot
        have ht := hstop.mpr fun hboth => hnot ⟨hboth.1, hboth.2, hall⟩
        exact ⟨ht.known, ht.inFlight⟩
    · refine iff_of_true ?_ fun hstrands => hall hstrands.2.2
      have hid : p.id = none := id_of_waiting h hwaiting
      refine noneStranded_of_empty (hlearn hid ?_)
      push Not at hall
      exact hall

/-! ## The events -/

theorem runStream_noneStranded
    (h : p.NoneStranded) (valid : Bool) :
    (p.runStream valid).NoneStranded := by
  rw [runStream]
  rcases wrapWithIdWaiter_cases p with
    ⟨-, hp, -⟩ | ⟨-, hp, -⟩ | ⟨-, hp, -⟩ <;>
  · dsimp only
    rw [hp]
    exact noneStranded_of_same h rfl rfl fun hin => hin.snoc rfl rfl

theorem createReadStream_noneStranded
    (h : p.NoneStranded) :
    p.createReadStream.NoneStranded := by
  rw [createReadStream]
  rcases wrapWithIdWaiter_cases p with
    ⟨-, hp, -⟩ | ⟨-, hp, -⟩ | ⟨-, hp, -⟩ <;>
  · dsimp only
    rw [hp]
    exact noneStranded_of_same h rfl rfl fun hin => hin.snoc rfl rfl

/-- The request of a statement is about to be sent again. -/
theorem interrupted_noneStranded
    {i : Nat} {s : Statement}
    (h : p.NoneStranded)
    (hs : p.statements[i]? = some s) :
    (p.stop i s .retrying true).NoneStranded := by
  refine noneStranded_of_same h rfl rfl fun hin => hin.set hs rfl rfl ?_
  intro hdelivers
  exact (Bool.and_eq_true_iff.mp hdelivers).2

/-- The error handler calls `begin` only if the id is unknown, as it is while a
request waits for it. -/
theorem failed_noneStranded_iff
    (h : p.NoneStranded)
    (i : Nat) (s : Statement) (error : ServiceError) :
    ((p.stop i s .done true).onError error).NoneStranded ↔
      ¬(p.waitingRequests ≠ [] ∧ ¬p.OtherInFlight i ∧
        ¬(p.useInRunner = true ∧ error.code ≠ some .ABORTED)) := by
  have hstop := stop_noneStranded_iff h i s true
  rw [onError]
  split
  · rename_i hbegin
    simp only [Bool.and_eq_true, bne_iff_ne] at hbegin
    have hrescued :
        p.useInRunner = true ∧ error.code ≠ some .ABORTED :=
      ⟨hbegin.1.2, hbegin.2⟩
    refine iff_of_true ?_ fun hstrands => hstrands.2.2 hrescued
    exact ⟨h.known, fun _ => Or.inl (Nat.succ_pos _)⟩
  · rename_i hbegin
    rw [hstop]
    refine not_congr ⟨?_, fun hstrands => ⟨hstrands.1, hstrands.2.1⟩⟩
    rintro ⟨hne, hnot⟩
    refine ⟨hne, hnot, ?_⟩
    rintro ⟨hrunner, hcode⟩
    refine hbegin ?_
    have hid : p.id = none := id_of_waiting h hne
    simp [stop, hid, hrunner, hcode]

/-- A batch joins no queue. -/
theorem batchUpdate_noneStranded
    (h : p.NoneStranded) (queries : Nat) (valid : Bool) :
    (p.batchUpdate queries valid).NoneStranded := by
  rw [batchUpdate]
  split
  · exact h
  · refine noneStranded_of_same h rfl rfl fun hin => ?_
    have hsnoc :
        IdInFlight
          { p with
            statements :=
              p.statements ++
                [⟨.batchUpdate, true, false, none, .created⟩] } :=
      hin.snoc rfl rfl
    exact
      hsnoc.set (s := ⟨.batchUpdate, true, false, none, .created⟩)
        (by simp) rfl rfl (fun hdelivers => by cases hdelivers)

theorem beginFailed_noneStranded_iff
    (h : p.NoneStranded) :
    ({ p with begins := p.begins - 1 } : Transaction).NoneStranded ↔
      ¬(p.waitingRequests ≠ [] ∧
        ¬IdInFlight { p with begins := p.begins - 1 }) := by
  constructor
  · rintro ht ⟨hne, hnot⟩
    exact hnot (ht.inFlight hne)
  · intro hnot
    refine ⟨h.known, fun hne => ?_⟩
    by_contra hquiet
    exact hnot ⟨hne, hquiet⟩

/-- An event strands no request exactly when it is none of those listed. -/
theorem step_noneStranded_iff
    {e : Event}
    (h : p.NoneStranded)
    (hstep : step p e = some t) :
    t.NoneStranded ↔ ¬p.Strands e := by
  cases e with
  | runStream valid =>
      obtain rfl := Option.some.inj hstep
      exact iff_of_true (runStream_noneStranded h valid) fun hfalse => hfalse
  | createReadStream =>
      obtain rfl := Option.some.inj hstep
      exact iff_of_true (createReadStream_noneStranded h) fun hfalse => hfalse
  | reading i =>
      obtain ⟨s, hs, -, rfl⟩ := atStatement_some hstep
      exact requestFn_noneStranded_iff h
  | response i transaction precommitToken =>
      obtain ⟨s, hs, -, rfl⟩ := atStatement_some hstep
      exact
        iff_of_true (onResponse_noneStranded h transaction precommitToken)
          fun hfalse => hfalse
  | interrupted i =>
      obtain ⟨s, hs, hrunning, rfl⟩ := atStatement_some hstep
      exact iff_of_true (interrupted_noneStranded h hs) fun hfalse => hfalse
  | retry i resumeToken =>
      obtain ⟨s, hs, -, rfl⟩ := atStatement_some hstep
      exact requestFn_noneStranded_iff h
  | failed i error =>
      obtain ⟨s, hs, -, rfl⟩ := atStatement_some hstep
      exact failed_noneStranded_iff h i s error
  | ended i =>
      obtain ⟨s, hs, -, rfl⟩ := atStatement_some hstep
      exact stop_noneStranded_iff h i s _
  | batchUpdate queries valid =>
      simp only [step] at hstep
      split at hstep
      · obtain rfl := Option.some.inj hstep
        exact
          iff_of_true (batchUpdate_noneStranded h queries valid)
            fun hfalse => hfalse
      · cases hstep
  | batchResponse i transactions precommitToken =>
      obtain ⟨s, hs, -, rfl⟩ := atStatement_some hstep
      exact onBatchResponse_noneStranded_iff h
  | batchFailed i error =>
      obtain ⟨s, hs, -, rfl⟩ := atStatement_some hstep
      exact stop_noneStranded_iff h i s _
  | begin =>
      obtain rfl := Option.some.inj hstep
      exact
        iff_of_true ⟨h.known, fun _ => Or.inl (Nat.succ_pos _)⟩
          fun hfalse => hfalse
  | onBegin id precommitToken =>
      simp only [step] at hstep
      split at hstep
      · obtain rfl := Option.some.inj hstep
        exact
          iff_of_true (noneStranded_of_empty (update_frame _ id).2.1)
            fun hfalse => hfalse
      · cases hstep
  | beginFailed error =>
      simp only [step] at hstep
      split at hstep
      · obtain rfl := Option.some.inj hstep
        exact beginFailed_noneStranded_iff h
      · cases hstep

/-- Along a run of a transaction no request is stranded exactly as long as no event
strands one. -/
theorem noneStranded_iff_never_strands
    (mode : TransactionMode) (isMuxEnabledForRW : Bool)
    (previous : Option TransactionId) (useInRunner : Bool)
    (es : List Event) (p : Transaction)
    (hrun :
      run step (new mode isMuxEnabledForRW previous useInRunner) es =
        some p) :
    Always step NoneStranded
        (new mode isMuxEnabledForRW previous useInRunner) es ↔
      Meets step (fun q e => ¬q.Strands e)
        (new mode isMuxEnabledForRW previous useInRunner) es :=
  always_iff_meets (I := fun _ => True) (fun _ _ _ _ _ => trivial)
    (fun _ _ _ _ hq hstep => step_noneStranded_iff hq hstep) trivial
    (noneStranded_of_empty rfl) hrun

/-- The second query has waited for the id, got it, been sent and interrupted; its
retry joins the queue again. -/
def retriedAfterWaiting : List Event :=
  [.runStream true, .runStream true, .reading 0, .reading 1,
    .response 0 (some 5) none, .interrupted 1, .retry 1 none]

/-- Nothing sends the retried query. -/
theorem retriedAfterWaiting_strands :
    ¬∀ (mode : TransactionMode) (isMuxEnabledForRW : Bool)
        (previous : Option TransactionId) (useInRunner : Bool)
        (es : List Event) (p : Transaction),
        run step (new mode isMuxEnabledForRW previous useInRunner) es =
          some p → p.NoneStranded := by
  intro h
  have hnone := h .readWrite false none false retriedAfterWaiting _ rfl
  exact absurd (hnone.known rfl) (by decide)

/-- The second query waits for the id and gets it. -/
theorem noneStranded_iff_never_strands_two :
    ∃ p : Transaction,
      run step (new .readWrite false none false)
          (retriedAfterWaiting.take 5) = some p ∧
        p.waitingRequests = [] ∧
        (Always step NoneStranded (new .readWrite false none false)
            (retriedAfterWaiting.take 5) ↔
          Meets step (fun q e => ¬q.Strands e)
            (new .readWrite false none false)
            (retriedAfterWaiting.take 5)) :=
  ⟨_, rfl, rfl,
    noneStranded_iff_never_strands .readWrite false none false _ _ rfl⟩

end Transaction
end SpannerClient
