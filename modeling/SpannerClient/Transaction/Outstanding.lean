import SpannerClient.Transaction.InlineBegin

/-!
# One begin at a time

A transaction may ask for a server transaction more than once: with the inline begin
of a statement, with the same request again after a failure, with that of a
`batchUpdate`, or with `BeginTransaction`, which the error handler of a stream calls
as well.  As long as none of them is sent while another is outstanding
(`beginsApart`), the statements that have begun a server transaction and are not over
are all the same, and the id that becomes known is that of a transaction it has begun.

`Follows` says what a step adds to the requests, and what it does to the statements
that have begun (`Begun`); `Apart` is the invariant.  The operations have a lemma
each, and `step_apart` and `step_id` are the step lemmas.
-/

namespace SpannerClient
namespace Transaction

open Machine

/-- The call has not ended or failed. -/
def live
    (p : Transaction) (i : Nat) : Bool :=
  p.statements[i]?.any fun s => s.phase != .done

/-- A begin has been sent by a call that is not over, or by `BeginTransaction`. -/
def outstanding
    (p : Transaction) : Bool :=
  decide (0 < p.begins) ||
    p.requests.any fun r => r.isBegin && p.live r.call

/-- The `error` handler of the stream sends `BeginTransaction`. -/
def handlerBegins
    (p : Transaction) (error : ServiceError) : Bool :=
  p.id.isNone && p.useInRunner && error.code != some .ABORTED

/-- The event does not begin a server transaction while another begin is
outstanding, nor by `begin` when the id is known. -/
def beginsApart
    (p : Transaction) : Event → Bool
  | .begin => p.id.isNone && !p.outstanding
  | .failed i error =>
      match p.statements[i]? with
      | none => true
      | some s =>
          !p.handlerBegins error || !(p.stop i s .done true).outstanding
  | e => !p.sendsBegin e || !p.outstanding

/-- The transactions that a response brings, each with the call. -/
def Event.brings : Event → List (Nat × TransactionId)
  | .response i (some transaction) _ => [(i, transaction)]
  | .batchResponse i transactions _ =>
      (transactions.filterMap fun transaction => transaction).map fun t =>
        (i, t)
  | _ => []

/-- What is known of the request of a statement. -/
structure StatementBegin
    (id : Option TransactionId) (requests : List Request)
    (i : Nat) (s : Statement) : Prop where
  known :
    ∀ q t, s.reqOpts = some q → q.transaction = .id t → id = some t
  /-- A read has its request from the call on, the others when they send it. -/
  sent :
    s.kind = .runStream ∨ s.phase = .requested ∨ s.phase = .retrying →
      ∀ q, s.reqOpts = some q → q.transaction.isBegin = true →
        ∃ r ∈ requests, r.call = i ∧ r.isBegin = true
  prepared : s.phase = .retrying → s.reqOpts.isSome = true

/-- What is known of the requests that begin, and of those that carry an id. -/
structure Begun
    (id : Option TransactionId) (requests : List Request)
    (statements : List Statement) : Prop where
  known :
    ∀ r ∈ requests, ∀ t, r.reqOpts.transaction = .id t → id = some t
  /-- What waits for the id does not begin. -/
  unwrapped :
    ∀ r ∈ requests, r.isBegin = true →
      ∃ s, statements[r.call]? = some s ∧ s.wrapped = false
  statement :
    ∀ i s, statements[i]? = some s → StatementBegin id requests i s

section Begun

variable {id : Option TransactionId} {requests : List Request}
variable {statements : List Statement}

theorem StatementBegin.append
    {i : Nat} {s : Statement}
    (h : StatementBegin id requests i s) (r : Request) :
    StatementBegin id (requests ++ [r]) i s where
  known := h.known
  sent := by
    intro hphase q hq hbegin
    obtain ⟨r', hr', hcall⟩ := h.sent hphase q hq hbegin
    exact ⟨r', List.mem_append_left _ hr', hcall⟩
  prepared := h.prepared

/-- The stream of a statement fails or ends. -/
theorem StatementBegin.moveTo
    {i : Nat} {s : Statement} {phase : StreamPhase}
    (h : StatementBegin id requests i s)
    (hphase : phase ≠ .requested)
    (hretrying :
      phase = .retrying → s.phase = .requested ∧ s.reqOpts.isSome = true) :
    StatementBegin id requests i (s.moveTo phase) where
  known := h.known
  sent := by
    rintro (hkind | hreq | hret)
    · exact h.sent (Or.inl hkind)
    · exact absurd hreq hphase
    · exact h.sent (Or.inr (Or.inl (hretrying hret).1))
  prepared := fun hret => (hretrying hret).2

theorem Begun.set
    (h : Begun id requests statements)
    {i : Nat} {s u : Statement}
    (hs : statements[i]? = some s)
    (hwrapped : u.wrapped = s.wrapped)
    (hu : StatementBegin id requests i u) :
    Begun id requests (statements.set i u) where
  known := h.known
  unwrapped := by
    intro r hr hbegin
    obtain ⟨v, hv, hnot⟩ := h.unwrapped r hr hbegin
    by_cases hcall : r.call = i
    · rw [hcall] at hv ⊢
      have hlt := (List.getElem?_eq_some_iff.mp hs).1
      rw [hs] at hv
      obtain rfl := Option.some.inj hv
      exact ⟨u, List.getElem?_set_self hlt, hwrapped.trans hnot⟩
    · exact ⟨v, by rwa [List.getElem?_set_ne (Ne.symm hcall)], hnot⟩
  statement := by
    intro j v hj
    rcases getElem?_set_some hj with ⟨rfl, rfl⟩ | ⟨-, hj⟩
    · exact hu
    · exact h.statement j v hj

theorem Begun.snoc
    (h : Begun id requests statements)
    {s : Statement}
    (hs : StatementBegin id requests statements.length s) :
    Begun id requests (statements ++ [s]) where
  known := h.known
  unwrapped := by
    intro r hr hbegin
    obtain ⟨v, hv, hnot⟩ := h.unwrapped r hr hbegin
    exact ⟨v, getElem?_snoc_of_some hv _, hnot⟩
  statement := by
    intro j v hj
    rcases getElem?_snoc_some hj with ⟨rfl, rfl⟩ | ⟨-, hj⟩
    · exact hs
    · exact h.statement j v hj

/-- The id becomes known. -/
theorem Begun.learn
    (h : Begun none requests statements)
    (id : Option TransactionId) :
    Begun id requests statements where
  known := fun r hr t ht => by cases h.known r hr t ht
  unwrapped := h.unwrapped
  statement := fun i s hs =>
    { known := fun q t hq ht => by cases (h.statement i s hs).known q t hq ht
      sent := (h.statement i s hs).sent
      prepared := (h.statement i s hs).prepared }

/-- A request is sent. -/
theorem Begun.request
    (h : Begun id requests statements)
    {i : Nat} {s : Statement} {q : ReqOpts}
    {resumeToken : Option ResumeToken}
    (hs : statements[i]? = some s)
    (hknown : ∀ t, q.transaction = .id t → id = some t)
    (hbegin : q.transaction.isBegin = true → s.wrapped = false) :
    Begun id (requests ++ [⟨i, resumeToken, q, id⟩])
      (statements.set i
        { s with
          reqOpts := some q
          phase := .requested }) := by
  have happended : Begun id (requests ++ [⟨i, resumeToken, q, id⟩]) statements :=
    { known := by
        intro r hr t ht
        rcases List.mem_append.mp hr with hr | hr
        · exact h.known r hr t ht
        · obtain rfl := List.mem_singleton.mp hr
          exact hknown t ht
      unwrapped := by
        intro r hr hr'
        rcases List.mem_append.mp hr with hr | hr
        · exact h.unwrapped r hr hr'
        · obtain rfl := List.mem_singleton.mp hr
          exact ⟨s, hs, hbegin hr'⟩
      statement := fun j u hj => (h.statement j u hj).append _ }
  refine happended.set hs rfl ?_
  exact
    { known := by
        intro q' t hq'
        obtain rfl := Option.some.inj hq'
        exact hknown t
      sent := by
        intro _ q' hq' hbegin'
        obtain rfl := Option.some.inj hq'
        exact
          ⟨_, List.mem_append_right _ (List.mem_singleton_self _), rfl,
            hbegin'⟩
      prepared := fun _ => rfl }

end Begun

variable {p q t : Transaction} {calls : List Nat}

theorem live_iff
    {i : Nat} :
    p.live i = true ↔ ∃ s, p.statements[i]? = some s ∧ s.phase ≠ .done := by
  simp [live, Option.any_eq_true]

theorem id_of_selector
    {id : TransactionId}
    (h : p.selector = .id id) :
    p.id = some id := by
  rw [selector] at h
  split at h
  · rename_i id' _ hid
    obtain rfl := Selector.id.inj h
    exact hid
  · simp [beginSelector] at h
  · cases h

/-- A begin is only sent while the id is unknown, and only by an unwrapped call. -/
theorem Requested.begun
    {i : Nat} {resumeToken : Option ResumeToken}
    (hrequested : Requested p i resumeToken t)
    (h : Begun p.id p.requests p.statements)
    (hunwrapped :
      p.id = none → ∀ s, p.statements[i]? = some s → s.wrapped = false) :
    Begun t.id t.requests t.statements := by
  cases hrequested with
  | sanitized hs hkind hneeds hvalid =>
      refine h.request hs (fun t ht => id_of_selector ht) fun hbegin => ?_
      refine hunwrapped ?_ _ hs
      change p.selector.isBegin = true at hbegin
      cases hid : p.id with
      | none => rfl
      | some id => simp [selector, hid, Selector.isBegin] at hbegin
  | broken hs hkind hneeds hvalid =>
      have hstatement := h.statement i _ hs
      refine h.set hs rfl ?_
      exact
        { known := hstatement.known
          sent := fun _ => hstatement.sent (Or.inl hkind)
          prepared := fun hret => by cases hret }
  | resent hs hkind hneeds hq =>
      refine
        h.request hs ((h.statement i _ hs).known _ · hq) fun hbegin => ?_
      rcases resent_selector hneeds hq with hid | hnot
      · exact hunwrapped hid _ hs
      · rw [hbegin] at hnot
        cases hnot
  | readWithId hs hkind hq hid hbegin =>
      refine h.request hs (fun t ht => ?_) fun hbegin => ?_
      · obtain rfl := Selector.id.inj ht
        exact hid
      · cases hbegin
  | read hs hkind hq hor =>
      refine
        h.request hs ((h.statement i _ hs).known _ · hq) fun hbegin => ?_
      rcases hor with hid | hnot
      · exact hunwrapped hid _ hs
      · rw [hbegin] at hnot
        cases hnot
  | nothing => exact h

/-! ## What is sent -/

/-- More requests have been sent; those that begin are of the calls listed and leave
the id unknown.  The calls that have begun and were over stay so. -/
structure Follows
    (p t : Transaction) (calls : List Nat) : Prop where
  begins : t.begins = p.begins
  begun : Begun t.id t.requests t.statements
  kept : ∀ r ∈ p.requests, r ∈ t.requests
  sent :
    ∀ r ∈ t.requests,
      r ∈ p.requests ∨
        (r.isBegin = true → r.call ∈ calls ∧ t.id = none)
  live :
    ∀ r ∈ p.requests, r.isBegin = true →
      t.live r.call = true → p.live r.call = true

theorem Follows.refl
    (h : Begun p.id p.requests p.statements) :
    Follows p p [] where
  begins := rfl
  begun := h
  kept := fun _ hr => hr
  sent := fun _ hr => Or.inl hr
  live := fun _ _ _ hlive => hlive

theorem Follows.trans
    (h : Follows p q []) (h' : Follows q t []) :
    Follows p t [] where
  begins := h'.begins.trans h.begins
  begun := h'.begun
  kept := fun r hr => h'.kept r (h.kept r hr)
  sent := by
    intro r hr
    rcases h'.sent r hr with hr | hnew
    · refine (h.sent r hr).imp_right fun hnew hbegin => ?_
      cases (hnew hbegin).1
    · exact Or.inr hnew
  live := fun r hr hbegin hlive =>
    h.live r hr hbegin (h'.live r (h.kept r hr) hbegin hlive)

/-- Nothing but what is listed begins. -/
theorem Follows.only
    {calls' : List Nat}
    (h : Follows p t calls)
    (honly :
      ∀ r ∈ t.requests, r.isBegin = true → t.id = none →
        r ∈ p.requests ∨ r.call ∈ calls') :
    Follows p t calls' :=
  { h with
    sent := by
      intro r hr
      rcases h.sent r hr with hold | hnew
      · exact Or.inl hold
      · cases hbegin : r.isBegin with
        | false => exact Or.inr fun hfalse => by cases hfalse
        | true =>
            obtain ⟨-, hid⟩ := hnew hbegin
            exact (honly r hr hbegin hid).imp_right fun hcall _ => ⟨hcall, hid⟩ }

/-- With the id known nothing begins. -/
theorem Follows.known
    (h : Follows p t calls)
    (hid : t.id.isSome = true) :
    Follows p t [] :=
  h.only fun _ _ _ hnone => by rw [hnone] at hid; cases hid

/-- One statement is replaced, and its requests are sent. -/
theorem follows_set
    {i : Nat} {u : Statement} {sent : List Request}
    (hbegins : t.begins = p.begins)
    (hbegun : Begun t.id t.requests t.statements)
    (hstatements : t.statements = p.statements.set i u)
    (hrequests : t.requests = p.requests ++ sent)
    (hsent : ∀ r ∈ sent, r.isBegin = true → r.call ∈ calls ∧ t.id = none)
    (hlive :
      t.live i = true →
        ∀ r ∈ p.requests, r.isBegin = true → r.call = i →
          p.live i = true) :
    Follows p t calls where
  begins := hbegins
  begun := hbegun
  kept := by
    intro r hr
    rw [hrequests]
    exact List.mem_append_left _ hr
  sent := by
    intro r hr
    rw [hrequests] at hr
    exact (List.mem_append.mp hr).imp_right (hsent r)
  live := by
    intro r hr hbegin htlive
    by_cases hcall : r.call = i
    · rw [hcall] at htlive ⊢
      exact hlive htlive r hr hbegin hcall
    · rwa [Transaction.live, hstatements,
        List.getElem?_set_ne (Ne.symm hcall)] at htlive

/-- The request of a statement that is not over, or waits for the id. -/
theorem Requested.follows
    {i : Nat} {resumeToken : Option ResumeToken}
    (hrequested : Requested p i resumeToken t)
    (h : Begun p.id p.requests p.statements)
    (hunwrapped :
      p.id = none → ∀ s, p.statements[i]? = some s → s.wrapped = false)
    (hi :
      p.live i = true ∨ ∃ s, p.statements[i]? = some s ∧ s.wrapped = true) :
    Follows p t [i] := by
  have hbegun := hrequested.begun h hunwrapped
  obtain ⟨hid, -, hframe⟩ := hrequested.frame
  have hlive :
      ∀ r ∈ p.requests, r.isBegin = true → r.call = i → p.live i = true := by
    intro r hr hbegin hcall
    rcases hi with hlive | ⟨s, hs, hwrapped⟩
    · exact hlive
    · obtain ⟨u, hu, hnot⟩ := h.unwrapped r hr hbegin
      rw [hcall, hs] at hu
      obtain rfl := Option.some.inj hu
      rw [hwrapped] at hnot
      cases hnot
  -- What begins, begins while the id is unknown.
  have hnew {q : ReqOpts}
      (hq :
        ∀ id, p.id = some id → q.transaction.isBegin = false) :
      ∀ r ∈ [(⟨i, resumeToken, q, p.id⟩ : Request)],
        r.isBegin = true → r.call ∈ [i] ∧ t.id = none := by
    intro r hr hbegin
    obtain rfl := List.mem_singleton.mp hr
    refine ⟨List.mem_singleton_self i, ?_⟩
    rw [hid]
    cases hid : p.id with
    | none => rfl
    | some id =>
        change q.transaction.isBegin = true at hbegin
        rw [hq id hid] at hbegin
        cases hbegin
  have hor {P : Prop} (hor : p.id = none ∨ P) (id : TransactionId)
      (hid : p.id = some id) : P := by
    rcases hor with hnone | hP
    · rw [hid] at hnone
      cases hnone
    · exact hP
  have hbegins : t.begins = p.begins := hframe.begins
  cases hrequested with
  | sanitized hs hkind hneeds hvalid =>
      refine
        follows_set hbegins hbegun rfl rfl (hnew fun id hid => ?_)
          fun _ => hlive
      simp [selector, hid, Selector.isBegin]
  | broken hs hkind hneeds hvalid =>
      exact
        follows_set hbegins hbegun rfl (List.append_nil _).symm (by simp)
          fun _ => hlive
  | resent hs hkind hneeds hq =>
      exact
        follows_set hbegins hbegun rfl rfl
          (hnew (hor (resent_selector hneeds hq))) fun _ => hlive
  | readWithId hs hkind hq hid hbegin =>
      exact
        follows_set hbegins hbegun rfl rfl (hnew fun _ _ => rfl)
          fun _ => hlive
  | read hs hkind hq hbegin =>
      exact
        follows_set hbegins hbegun rfl rfl (hnew (hor hbegin)) fun _ => hlive
  | nothing => exact (Follows.refl h).only fun r hr _ _ => Or.inl hr

/-- The id becomes known, and what waits for it is sent. -/
theorem update_follows
    (h : Begun p.id p.requests p.statements)
    (hid : p.id = none)
    (hwaiting : p.WaitingWrapped)
    (id : TransactionId) :
    Follows p (p.update id) [] := by
  rw [update]
  refine
    release_rule_wrapped (I := fun q => Follows p q [])
      (fun q i resumeToken t hq hqid hi hrequested => ?_) hwaiting ?_
  · have hsome : q.id = some id := hqid
    have hstep :=
      hrequested.follows hq.begun
        (fun hnone => by rw [hsome] at hnone; cases hnone) (Or.inr hi)
    refine hq.trans (hstep.known ?_)
    rw [hrequested.frame.1, hsome]
    rfl
  · rw [hid] at h
    exact
      { begins := rfl
        begun := h.learn (some id)
        kept := fun _ hr => hr
        sent := fun _ hr => Or.inl hr
        live := fun _ _ _ hlive => hlive }

theorem updateOnce_follows
    (h : Begun p.id p.requests p.statements)
    (hwaiting : p.WaitingWrapped)
    (transaction : Option TransactionId) :
    Follows p (p.updateOnce transaction) [] ∧
      (p.updateOnce transaction).WaitingWrapped := by
  cases transaction with
  | none => exact ⟨.refl h, hwaiting⟩
  | some id =>
      unfold updateOnce
      dsimp only
      split
      · rename_i hnone
        refine ⟨update_follows h (by simpa using hnone) hwaiting id, ?_⟩
        rw [WaitingWrapped, (update_frame p id).2.1]
        exact fun _ hx => absurd hx List.not_mem_nil
      · exact ⟨.refl h, hwaiting⟩

theorem foldl_updateOnce_follows
    (transactions : List (Option TransactionId))
    (h : Begun p.id p.requests p.statements)
    (hwaiting : p.WaitingWrapped) :
    Follows p (transactions.foldl updateOnce p) [] := by
  induction transactions generalizing p with
  | nil => exact .refl h
  | cons transaction transactions ih =>
      obtain ⟨hfirst, hwaiting'⟩ := updateOnce_follows h hwaiting transaction
      exact hfirst.trans (ih hfirst.begun hwaiting')

theorem onResponse_follows
    (h : Begun p.id p.requests p.statements)
    (hwaiting : p.WaitingWrapped)
    (transaction : Option TransactionId)
    (precommitToken : Option PrecommitToken) :
    Follows p (p.onResponse transaction precommitToken) [] := by
  obtain ⟨hfollows, -⟩ :=
    updateOnce_follows
      (p :=
        { p with
          latestPreCommitToken :=
            updatePrecommitToken p.latestPreCommitToken precommitToken })
      h hwaiting transaction
  exact { hfollows with }

theorem onBatchResponse_follows
    (h : Begun p.id p.requests p.statements)
    (hwaiting : p.WaitingWrapped)
    (transactions : List (Option TransactionId))
    (precommitToken : Option PrecommitToken) :
    Follows p (p.onBatchResponse transactions precommitToken) [] := by
  have hfollows :=
    foldl_updateOnce_follows transactions
      (p :=
        { p with
          latestPreCommitToken :=
            updatePrecommitToken p.latestPreCommitToken precommitToken })
      h hwaiting
  exact { hfollows with }

/-- A statement begins a server transaction: a query that is prepared, or a request
that has been prepared to. -/
theorem Requested.begins_cases
    {i : Nat} {resumeToken : Option ResumeToken}
    (hrequested : Requested p i resumeToken t) :
    (∀ r ∈ t.requests, r.isBegin = true → t.id = none → r ∈ p.requests) ∨
      ∃ s, p.statements[i]? = some s ∧
        (s.kind = .runStream ∧ s.reqOpts = none ∧ s.valid = true ∨
          s.kind ≠ .batchUpdate ∧
            ∃ q, s.reqOpts = some q ∧ q.transaction.isBegin = true) := by
  have hold {q : ReqOpts}
      (hq : q.transaction.isBegin = false) :
      ∀ r ∈ p.requests ++ [(⟨i, resumeToken, q, p.id⟩ : Request)],
        r.isBegin = true → t.id = none → r ∈ p.requests := by
    intro r hr hbegin _
    refine (List.mem_append.mp hr).resolve_right fun hr => ?_
    obtain rfl := List.mem_singleton.mp hr
    change q.transaction.isBegin = true at hbegin
    rw [hq] at hbegin
    cases hbegin
  cases hrequested with
  | sanitized hs hkind hneeds hvalid =>
      rename_i s
      cases hq : s.reqOpts with
      | none => exact Or.inr ⟨s, hs, Or.inl ⟨hkind, hq, hvalid⟩⟩
      | some q =>
          refine Or.inl (hold ?_)
          have hid : p.id.isSome = true := by
            simp only [needsSanitize, hq, Bool.and_eq_true] at hneeds
            exact hneeds.1
          obtain ⟨id, hid⟩ := Option.isSome_iff_exists.mp hid
          simp [selector, hid, Selector.isBegin]
  | broken hs hkind hneeds hvalid => exact Or.inl fun r hr _ _ => hr
  | resent hs hkind hneeds hq =>
      rename_i s q
      cases hbegin : q.transaction.isBegin with
      | false => exact Or.inl (hold hbegin)
      | true =>
          exact Or.inr ⟨s, hs, Or.inr ⟨by simp [hkind], q, hq, hbegin⟩⟩
  | readWithId hs hkind hq hid hbegin => exact Or.inl (hold rfl)
  | read hs hkind hq hbegin =>
      rename_i s q
      cases hbegin : q.transaction.isBegin with
      | false => exact Or.inl (hold hbegin)
      | true =>
          exact Or.inr ⟨s, hs, Or.inr ⟨by simp [hkind], q, hq, hbegin⟩⟩
  | nothing => exact Or.inl fun r hr _ _ => hr

theorem follows_snoc
    {s : Statement}
    (hframe :
      t.begins = p.begins ∧ t.id = p.id ∧ t.requests = p.requests ∧
        t.statements = p.statements ++ [s])
    (h : Begun p.id p.requests p.statements)
    (hs : StatementBegin p.id p.requests p.statements.length s) :
    Follows p t [] := by
  obtain ⟨hbegins, hid, hrequests, hstatements⟩ := hframe
  refine
    { begins := hbegins
      begun := ?_
      kept := fun r hr => hrequests ▸ hr
      sent := fun r hr => Or.inl (hrequests ▸ hr)
      live := ?_ }
  · rw [hid, hrequests, hstatements]
    exact h.snoc hs
  · intro r hr hbegin hlive
    obtain ⟨u, hu, -⟩ := h.unwrapped r hr hbegin
    have hlt := (List.getElem?_eq_some_iff.mp hu).1
    rwa [Transaction.live, hstatements, List.getElem?_append_left hlt]
      at hlive

theorem runStream_follows
    (h : Begun p.id p.requests p.statements) (valid : Bool) :
    Follows p (p.runStream valid) [] := by
  have hnew (wrapped : Bool) :
      StatementBegin p.id p.requests p.statements.length
        ⟨.runStream, valid, wrapped, none, .created⟩ :=
    { known := fun _ _ hq => by cases hq
      sent := fun _ _ hq => by cases hq
      prepared := fun hphase => by cases hphase }
  rw [runStream]
  rcases wrapWithIdWaiter_cases p with
    ⟨hw, hp, -⟩ | ⟨hw, hp, -⟩ | ⟨hw, hp, -⟩ <;>
  · dsimp only
    rw [hw, hp]
    exact follows_snoc ⟨rfl, rfl, rfl, rfl⟩ h (hnew _)

theorem runStream_id
    (p : Transaction) (valid : Bool) :
    (p.runStream valid).id = p.id := by
  rw [runStream]
  rcases wrapWithIdWaiter_cases p with
    ⟨-, hp, -⟩ | ⟨-, hp, -⟩ | ⟨-, hp, -⟩ <;> simp [hp]

theorem createReadStream_id
    (p : Transaction) :
    p.createReadStream.id = p.id := by
  rw [createReadStream]
  rcases wrapWithIdWaiter_cases p with
    ⟨-, hp, -⟩ | ⟨-, hp, -⟩ | ⟨-, hp, -⟩ <;> simp [hp]

theorem createReadStream_follows
    (h : Begun p.id p.requests p.statements) :
    Follows p p.createReadStream [] := by
  have hnew (wrapped : Bool) :
      StatementBegin p.id p.requests p.statements.length
        ⟨.createReadStream, true, wrapped, some ⟨p.selector, none⟩,
          .created⟩ :=
    { known := by
        intro q t hq ht
        obtain rfl := Option.some.inj hq
        exact id_of_selector ht
      sent := by rintro (hkind | hphase | hphase) <;> contradiction
      prepared := fun hphase => by cases hphase }
  rw [createReadStream]
  rcases wrapWithIdWaiter_cases p with
    ⟨hw, hp, -⟩ | ⟨hw, hp, -⟩ | ⟨hw, hp, -⟩ <;>
  · dsimp only
    rw [hw, hp]
    exact follows_snoc ⟨rfl, rfl, rfl, rfl⟩ h (hnew _)

/-- The request of a stream fails, or the stream ends. -/
theorem stop_follows
    (h : Begun p.id p.requests p.statements)
    {i : Nat} {s : Statement}
    (hs : p.statements[i]? = some s)
    {phase : StreamPhase}
    (hphase :
      phase = .done ∨
        phase = .retrying ∧ s.phase = .requested ∧ s.reqOpts.isSome = true)
    (failed : Bool) :
    Follows p (p.stop i s phase failed) [] := by
  have hlt := (List.getElem?_eq_some_iff.mp hs).1
  have hstatement := h.statement i s hs
  refine
    follows_set (u := s.moveTo phase) rfl
      (h.set hs rfl (hstatement.moveTo ?_ ?_)) rfl
      (List.append_nil _).symm (by simp) fun hlive _ _ _ _ => ?_
  · rintro rfl
    rcases hphase with hdone | ⟨hretrying, -⟩ <;> contradiction
  · intro hretrying
    rcases hphase with hdone | ⟨-, hrunning⟩
    · rw [hdone] at hretrying
      cases hretrying
    · exact hrunning
  · obtain ⟨u, hu, hnot⟩ := live_iff.mp hlive
    change (p.statements.set i (s.moveTo phase))[i]? = some u at hu
    rw [List.getElem?_set_self hlt] at hu
    obtain rfl := Option.some.inj hu
    refine live_iff.mpr ⟨s, hs, ?_⟩
    rcases hphase with rfl | ⟨-, hrequested, -⟩
    · exact absurd rfl hnot
    · rw [hrequested]
      decide

/-- The request function of a stream that is not over. -/
theorem requestFn_follows
    (h : Begun p.id p.requests p.statements)
    {i : Nat} {s : Statement}
    (hs : p.statements[i]? = some s)
    (hphase : s.phase ≠ .done)
    (resumeToken : Option ResumeToken) :
    Follows p (p.requestFn i resumeToken) [i] := by
  have hlive : p.live i = true := live_iff.mpr ⟨s, hs, hphase⟩
  rw [requestFn, hs]
  dsimp only
  split
  · have hstatement := h.statement i s hs
    exact
      follows_set (u := s.moveTo .queued) rfl
        (h.set hs rfl
          (hstatement.moveTo (by decide) fun hret => by cases hret))
        rfl (List.append_nil _).symm (by simp) fun _ _ _ _ _ => hlive
  · rename_i hwrapped
    refine
      (requested_makeRequest p i resumeToken).follows h (fun _ u hu => ?_)
        (Or.inl hlive)
    rw [hs] at hu
    obtain rfl := Option.some.inj hu
    simpa using hwrapped

/-! ## The id -/

theorem requestFn_id
    (p : Transaction) (i : Nat) (resumeToken : Option ResumeToken) :
    (p.requestFn i resumeToken).id = p.id := by
  rw [requestFn]
  split
  · rfl
  · split
    · rfl
    · exact (requested_makeRequest p i resumeToken).frame.1

theorem updateOnce_id
    (p : Transaction) (transaction : Option TransactionId) :
    (p.updateOnce transaction).id = p.id ∨
      p.id = none ∧ (p.updateOnce transaction).id = transaction ∧
        transaction.isSome = true := by
  cases transaction with
  | none => exact Or.inl rfl
  | some id =>
      unfold updateOnce
      dsimp only
      split
      · rename_i hnone
        exact Or.inr ⟨by simpa using hnone, (update_frame p id).1, rfl⟩
      · exact Or.inl rfl

theorem foldl_updateOnce_id
    (transactions : List (Option TransactionId)) (p : Transaction) :
    (transactions.foldl updateOnce p).id = p.id ∨
      p.id = none ∧
        ∃ id, some id ∈ transactions ∧
          (transactions.foldl updateOnce p).id = some id := by
  induction transactions generalizing p with
  | nil => exact Or.inl rfl
  | cons transaction transactions ih =>
      rcases updateOnce_id p transaction with heq | ⟨hnone, heq, hsome⟩
      · rcases ih (p.updateOnce transaction) with hrest | ⟨hnone, id, hid, hrest⟩
        · exact Or.inl (hrest.trans heq)
        · exact
            Or.inr
              ⟨heq.symm.trans hnone, id, List.mem_cons_of_mem _ hid, hrest⟩
      · obtain ⟨id, rfl⟩ := Option.isSome_iff_exists.mp hsome
        refine Or.inr ⟨hnone, id, List.mem_cons_self, ?_⟩
        rcases ih (p.updateOnce (some id)) with hrest | ⟨hnone', -⟩
        · exact hrest.trans heq
        · rw [heq] at hnone'
          cases hnone'

/-- Where the id comes from. -/
theorem step_id
    {e : Event}
    (hstep : step p e = some t) :
    t.id = p.id ∨
      (p.id = none ∧
        ∃ x ∈ e.brings, t.id = some x.2 ∧ p.live x.1 = true) ∨
      0 < p.begins ∧
        ∃ id precommitToken,
          e = .onBegin id precommitToken ∧ t.id = some id := by
  cases e with
  | runStream valid =>
      obtain rfl := Option.some.inj hstep
      exact Or.inl (runStream_id p valid)
  | createReadStream =>
      obtain rfl := Option.some.inj hstep
      exact Or.inl (createReadStream_id p)
  | reading i =>
      obtain ⟨s, hs, -, rfl⟩ := atStatement_some hstep
      exact Or.inl (requestFn_id p i none)
  | response i transaction precommitToken =>
      obtain ⟨s, hs, hguard, rfl⟩ := atStatement_some hstep
      refine (updateOnce_id _ transaction).imp_right fun h => Or.inl ?_
      obtain ⟨hnone, heq, hsome⟩ := h
      obtain ⟨id, rfl⟩ := Option.isSome_iff_exists.mp hsome
      refine
        ⟨hnone, (i, id), List.mem_singleton_self _, heq,
          live_iff.mpr ⟨s, hs, ?_⟩⟩
      rintro hdone
      simp [hdone] at hguard
  | interrupted i =>
      obtain ⟨s, hs, -, rfl⟩ := atStatement_some hstep
      exact Or.inl rfl
  | retry i resumeToken =>
      obtain ⟨s, hs, -, rfl⟩ := atStatement_some hstep
      exact Or.inl (requestFn_id p i resumeToken)
  | failed i error =>
      obtain ⟨s, hs, -, rfl⟩ := atStatement_some hstep
      refine Or.inl ?_
      rw [onError]
      split <;> rfl
  | ended i =>
      obtain ⟨s, hs, -, rfl⟩ := atStatement_some hstep
      exact Or.inl rfl
  | batchUpdate queries valid =>
      simp only [step] at hstep
      split at hstep
      · obtain rfl := Option.some.inj hstep
        refine Or.inl ?_
        rw [batchUpdate]
        split <;> rfl
      · cases hstep
  | batchResponse i transactions precommitToken =>
      obtain ⟨s, hs, hguard, rfl⟩ := atStatement_some hstep
      refine (foldl_updateOnce_id transactions _).imp_right fun h => Or.inl ?_
      obtain ⟨hnone, id, hid, heq⟩ := h
      refine
        ⟨hnone, (i, id), ?_, heq, live_iff.mpr ⟨s, hs, ?_⟩⟩
      · simpa [Event.brings] using hid
      · rintro hdone
        simp [hdone] at hguard
  | batchFailed i error =>
      obtain ⟨s, hs, -, rfl⟩ := atStatement_some hstep
      exact Or.inl rfl
  | begin =>
      obtain rfl := Option.some.inj hstep
      exact Or.inl rfl
  | onBegin id precommitToken =>
      simp only [step] at hstep
      split at hstep
      · rename_i hpos
        obtain rfl := Option.some.inj hstep
        refine Or.inr (Or.inr ⟨hpos, id, precommitToken, rfl, ?_⟩)
        exact (update_frame _ id).1
      · cases hstep
  | beginFailed error =>
      simp only [step] at hstep
      split at hstep
      · obtain rfl := Option.some.inj hstep
        exact Or.inl rfl
      · cases hstep

/-! ## One at a time -/

theorem outstanding_eq_false :
    p.outstanding = false ↔
      p.begins = 0 ∧
        ∀ r ∈ p.requests, r.isBegin = true → p.live r.call = false := by
  simp [outstanding]

/-- The calls that have begun a server transaction and are not over are all the same,
and `BeginTransaction` is only in flight without them. -/
structure Apart
    (p : Transaction) : Prop where
  begun : Begun p.id p.requests p.statements
  unique :
    ∀ r ∈ p.requests, ∀ r' ∈ p.requests,
      r.isBegin = true → r'.isBegin = true →
        p.live r.call = true → p.live r'.call = true → r.call = r'.call
  exclusive :
    0 < p.begins →
      p.id = none ∧
        ∀ r ∈ p.requests, r.isBegin = true → p.live r.call = false
  one : p.begins ≤ 1

/-- What a step does to the requests. -/
structure Advances
    (p t : Transaction) : Prop where
  begins :
    ∀ r ∈ t.requests, r.isBegin = true → r ∈ p.requests ∨ t.id = none
  live :
    ∀ r ∈ p.requests, r.isBegin = true →
      t.live r.call = true → p.live r.call = true

theorem Follows.advances
    (h : Follows p t calls) :
    Advances p t where
  begins := fun r hr hbegin =>
    (h.sent r hr).imp_right fun hnew => (hnew hbegin).2
  live := h.live

theorem Follows.trans_advances
    (h : Follows p q [])
    (h' : Advances q t) :
    Advances p t where
  begins := by
    intro r hr hbegin
    refine (h'.begins r hr hbegin).imp_left fun hq => ?_
    refine (h.sent r hq).resolve_right fun hnew => ?_
    cases (hnew hbegin).1
  live := fun r hr hbegin hlive =>
    h.live r hr hbegin (h'.live r (h.kept r hr) hbegin hlive)

/-- At most one call begins, which is the one that has begun, or none has. -/
theorem Apart.follow
    (h : Apart p)
    (hfollows : Follows p t calls)
    (hone : ∀ i ∈ calls, ∀ j ∈ calls, i = j)
    (hcalls :
      ∀ i ∈ calls,
        p.outstanding = false ∨
          ∃ r ∈ p.requests,
            r.call = i ∧ r.isBegin = true ∧ p.live i = true)
    (hid : 0 < p.begins → t.id = none) :
    Apart t := by
  have hnew {r r' : Request}
      (hr : r.call ∈ calls)
      (hr' : r' ∈ p.requests) (hbegin' : r'.isBegin = true)
      (hlive' : p.live r'.call = true) : r.call = r'.call := by
    rcases hcalls _ hr with hout | ⟨u, hu, hcall, hbegin, hlive⟩
    · have hover := (outstanding_eq_false.mp hout).2 r' hr' hbegin'
      rw [hlive'] at hover
      cases hover
    · rw [← hcall] at hlive ⊢
      exact h.unique u hu r' hr' hbegin hbegin' hlive hlive'
  refine
    { begun := hfollows.begun
      unique := ?_
      exclusive := ?_
      one := by rw [hfollows.begins]; exact h.one }
  · intro r hr r' hr' hbegin hbegin' hlive hlive'
    rcases hfollows.sent r hr with hold | hsent <;>
      rcases hfollows.sent r' hr' with hold' | hsent'
    · exact
        h.unique r hold r' hold' hbegin hbegin'
          (hfollows.live r hold hbegin hlive)
          (hfollows.live r' hold' hbegin' hlive')
    · exact
        (hnew (hsent' hbegin').1 hold hbegin
          (hfollows.live r hold hbegin hlive)).symm
    · exact
        hnew (hsent hbegin).1 hold' hbegin'
          (hfollows.live r' hold' hbegin' hlive')
    · exact hone _ (hsent hbegin).1 _ (hsent' hbegin').1
  · intro hbegins
    rw [hfollows.begins] at hbegins
    obtain ⟨-, hover⟩ := h.exclusive hbegins
    refine ⟨hid hbegins, fun r hr hbegin => ?_⟩
    rcases hfollows.sent r hr with hold | hsent
    · by_contra hlive
      have hbefore := hfollows.live r hold hbegin (by simpa using hlive)
      rw [hover r hold hbegin] at hbefore
      cases hbefore
    · rcases hcalls _ (hsent hbegin).1 with hout | ⟨u, hu, hcall, hu', hlive⟩
      · have hzero := (outstanding_eq_false.mp hout).1
        omega
      · have hnot := hover u hu hu'
        rw [hcall, hlive] at hnot
        cases hnot

theorem Apart.follow_nil
    (h : Apart p)
    (hfollows : Follows p t [])
    (hid : 0 < p.begins → t.id = none) :
    Apart t :=
  h.follow hfollows (fun _ hi => absurd hi List.not_mem_nil)
    (fun _ hi => absurd hi List.not_mem_nil) hid

/-- A stream is read for the first time, or sends its request again. -/
theorem requestFn_apart
    (hnumbered : p.Numbered)
    (h : Apart p)
    {i : Nat} {s : Statement}
    (hs : p.statements[i]? = some s)
    (hphase : s.phase = .created ∨ s.phase = .retrying)
    (hbegins :
      s.phase = .created → p.sendsBegin (.reading i) = true →
        p.outstanding = false)
    (resumeToken : Option ResumeToken) :
    Apart (p.requestFn i resumeToken) ∧
      Advances p (p.requestFn i resumeToken) := by
  have hid := requestFn_id p i resumeToken
  have hexclusive (hpos : 0 < p.begins) :
      (p.requestFn i resumeToken).id = none :=
    hid.trans (h.exclusive hpos).1
  have hlive : s.phase ≠ .done := by
    rcases hphase with hphase | hphase <;> simp [hphase]
  have hfollows := requestFn_follows h.begun hs hlive resumeToken
  refine ⟨?_, hfollows.advances⟩
  by_cases hsilent :
      ∀ r ∈ (p.requestFn i resumeToken).requests, r.isBegin = true →
        (p.requestFn i resumeToken).id = none → r ∈ p.requests
  · exact
      h.follow_nil
        (hfollows.only fun r hr hbegin hnone =>
          Or.inl (hsilent r hr hbegin hnone))
        hexclusive
  · refine
      h.follow hfollows (fun _ hi _ hj => ?_) (fun j hj => ?_) hexclusive
    · rw [List.mem_singleton.mp hi, List.mem_singleton.mp hj]
    · obtain rfl := List.mem_singleton.mp hj
      -- The request function is not the one that waits for the id.
      have hwrapped : s.wrapped = false := by
        by_contra hnot
        refine hsilent fun r hr _ _ => ?_
        rw [requestFn, hs] at hr
        dsimp only at hr
        rwa [if_pos (by simpa using hnot)] at hr
      have hnone : p.id = none := by
        by_contra hnot
        exact hsilent fun r _ _ hnone => absurd (hid.symm.trans hnone) hnot
      have hsends (hcreated : s.phase = .created)
          (hsends : sends s = true) : p.outstanding = false := by
        refine hbegins hcreated ?_
        simp [sendsBegin, hs, hwrapped, hnone, hsends]
      have hrequest :
          p.requestFn j resumeToken = p.makeRequest j resumeToken := by
        rw [requestFn, hs]
        dsimp only
        rw [if_neg (by simp [hwrapped])]
      rw [hrequest] at hsilent
      rcases (requested_makeRequest p j resumeToken).begins_cases with
        hnothing | ⟨u, hu, hprepared⟩
      · exact absurd hnothing hsilent
      · rw [hs] at hu
        obtain rfl := Option.some.inj hu
        have hstatement := h.begun.statement j s hs
        rcases hprepared with ⟨hkind, hq, hvalid⟩ | ⟨hkind, q, hq, hbegin⟩
        · rcases hphase with hcreated | hretrying
          · exact Or.inl (hsends hcreated (by simp [sends, hkind, hvalid]))
          · have hsome := hstatement.prepared hretrying
            rw [hq] at hsome
            cases hsome
        · rcases hphase with hcreated | hretrying
          · refine Or.inl (hsends hcreated ?_)
            cases hkind' : s.kind with
            | runStream =>
                have hunread :=
                  (hnumbered.statement j s hs).created hkind' hcreated
                rw [hq] at hunread
                cases hunread
            | createReadStream => simp [sends, hkind']
            | batchUpdate => exact absurd hkind' hkind
          · obtain ⟨r, hr, hcall, hr'⟩ :=
              hstatement.sent (Or.inr (Or.inr hretrying)) q hq hbegin
            exact
              Or.inr
                ⟨r, hr, hcall, hr', live_iff.mpr ⟨s, hs, hlive⟩⟩

theorem batchSelector_cases
    (p : Transaction) :
    (p.id = none ∧ p.batchSelector.isBegin = true) ∨
      ∃ id, p.id = some id ∧ p.batchSelector = .id id := by
  rw [batchSelector]
  cases hid : p.id with
  | none => exact Or.inl ⟨rfl, rfl⟩
  | some id => exact Or.inr ⟨id, rfl, rfl⟩

/-- A batch is a new call, which may begin. -/
theorem batchUpdate_follows
    (h : Begun p.id p.requests p.statements)
    (queries : Nat) (valid : Bool) :
    Follows p (p.batchUpdate queries valid) [p.statements.length] := by
  rw [batchUpdate]
  split
  · exact (Follows.refl h).only fun r hr _ _ => Or.inl hr
  · have hnew :
        StatementBegin p.id p.requests p.statements.length
          ⟨.batchUpdate, true, false, none, .created⟩ :=
      { known := fun _ _ hq => by cases hq
        sent := fun _ _ hq => by cases hq
        prepared := fun hphase => by cases hphase }
    have hadded :
        Follows p
          { p with
            seqno := p.seqno + 1
            statements :=
              p.statements ++ [⟨.batchUpdate, true, false, none, .created⟩] }
          [] :=
      follows_snoc ⟨rfl, rfl, rfl, rfl⟩ h hnew
    have hsent :
        ∀ r ∈ [(⟨p.statements.length, none, ⟨p.batchSelector, some p.seqno⟩,
            p.id⟩ : Request)],
          r.isBegin = true →
            r.call ∈ [p.statements.length] ∧ p.id = none := by
      intro r hr hbegin
      obtain rfl := List.mem_singleton.mp hr
      refine ⟨List.mem_singleton_self _, ?_⟩
      rcases batchSelector_cases p with ⟨hid, -⟩ | ⟨id, -, hselector⟩
      · exact hid
      · change p.batchSelector.isBegin = true at hbegin
        rw [hselector] at hbegin
        cases hbegin
    refine
      { begins := rfl
        begun :=
          (h.snoc hnew).request (by simp) (fun id hid => ?_) fun _ => rfl
        kept := fun r hr => List.mem_append_left _ hr
        sent := fun r hr => (List.mem_append.mp hr).imp_right (hsent r)
        live := fun r hr hbegin hlive => ?_ }
    · rcases batchSelector_cases p with ⟨-, hbegin⟩ | ⟨id', hid', hselector⟩
      · change p.batchSelector = .id id at hid
        rw [hid] at hbegin
        cases hbegin
      · change p.batchSelector = .id id at hid
        rw [hselector] at hid
        rw [hid', Selector.id.inj hid]
    · refine hadded.live r hr hbegin ?_
      obtain ⟨u, hu, -⟩ := h.unwrapped r hr hbegin
      have hlt := (List.getElem?_eq_some_iff.mp hu).1
      rwa [Transaction.live, requestStream,
        List.getElem?_set_ne (Nat.ne_of_gt hlt)] at hlive

/-- A batch is called, and no begin is outstanding if it begins. -/
theorem batchUpdate_apart
    (h : Apart p)
    {queries : Nat} {valid : Bool}
    (hbegins :
      p.sendsBegin (.batchUpdate queries valid) = true →
        p.outstanding = false) :
    Apart (p.batchUpdate queries valid) ∧
      Advances p (p.batchUpdate queries valid) := by
  have hfollows := batchUpdate_follows h.begun queries valid
  have hid : (p.batchUpdate queries valid).id = p.id := by
    rw [batchUpdate]
    split <;> rfl
  have hexclusive (hpos : 0 < p.begins) :
      (p.batchUpdate queries valid).id = none :=
    hid.trans (h.exclusive hpos).1
  refine ⟨?_, hfollows.advances⟩
  by_cases hsends : p.sendsBegin (.batchUpdate queries valid) = true
  · refine
      h.follow hfollows (fun _ hi _ hj => ?_)
        (fun _ _ => Or.inl (hbegins hsends)) hexclusive
    rw [List.mem_singleton.mp hi, List.mem_singleton.mp hj]
  · refine
      h.follow_nil (hfollows.only fun r hr hbegin hnone => Or.inl ?_)
        hexclusive
    rw [hid] at hnone
    rw [batchUpdate] at hr
    split at hr
    · exact hr
    · rename_i hsome
      refine absurd ?_ hsends
      simpa [sendsBegin, hnone] using hsome

/-- `BeginTransaction` is sent while nothing is outstanding. -/
theorem begin_apart
    (h : Apart p)
    (hnone : p.id = none)
    (hout : p.outstanding = false) :
    Apart p.begin ∧ Advances p p.begin := by
  obtain ⟨hzero, hover⟩ := outstanding_eq_false.mp hout
  refine
    ⟨{ begun := h.begun
       unique := h.unique
       exclusive := fun _ => ⟨hnone, hover⟩
       one := ?_ }, { (Follows.refl h.begun).advances with }⟩
  change p.begins + 1 ≤ 1
  omega

theorem onError_apart
    (h : Apart p)
    {error : ServiceError}
    (hbegins : p.handlerBegins error = true → p.outstanding = false) :
    Apart (p.onError error) ∧ Advances p (p.onError error) := by
  by_cases hhandler : p.handlerBegins error = true
  · have heq : p.onError error = p.begin := if_pos hhandler
    have hnone : p.id = none := by
      simp only [handlerBegins, Bool.and_eq_true] at hhandler
      simpa using hhandler.1.1
    rw [heq]
    exact begin_apart h hnone (hbegins hhandler)
  · have heq : p.onError error = p := if_neg hhandler
    rw [heq]
    exact ⟨h, (Follows.refl h.begun).advances⟩

/-- `BeginTransaction` fails, or is about to be answered. -/
theorem Apart.beginEnds
    (h : Apart p)
    (hpos : 0 < p.begins) :
    Apart { p with begins := p.begins - 1 } ∧
      Advances p { p with begins := p.begins - 1 } := by
  have hone := h.one
  refine
    ⟨{ begun := h.begun
       unique := h.unique
       exclusive := fun _ => h.exclusive hpos
       one := ?_ }, { (Follows.refl h.begun).advances with }⟩
  change p.begins - 1 ≤ 1
  omega

theorem onBegin_apart
    (h : Apart p)
    (hwaiting : p.WaitingWrapped)
    (hnone : p.id = none)
    (hzero : p.begins = 0)
    (id : TransactionId) (precommitToken : Option PrecommitToken) :
    Apart (p.onBegin id precommitToken) ∧
      Advances p (p.onBegin id precommitToken) := by
  have hupdated :=
    update_follows
      (p :=
        { p with
          latestPreCommitToken :=
            updatePrecommitToken p.latestPreCommitToken precommitToken })
      h.begun hnone hwaiting id
  have hfollows : Follows p (p.onBegin id precommitToken) [] :=
    { hupdated with }
  refine ⟨h.follow_nil hfollows fun hpos => ?_, hfollows.advances⟩
  omega

/-- While `BeginTransaction` is in flight only its response makes the id known. -/
theorem Apart.id_of_begins
    {e : Event}
    (h : Apart p)
    (hbrings :
      ∀ x ∈ e.brings, ∃ r ∈ p.requests, r.call = x.1 ∧ r.isBegin = true)
    (hstep : step p e = some t)
    (hother : ∀ id precommitToken, e ≠ .onBegin id precommitToken)
    (hpos : 0 < p.begins) :
    t.id = none := by
  obtain ⟨hnone, hover⟩ := h.exclusive hpos
  rcases step_id hstep with
    heq | ⟨-, x, hx, -, hlive⟩ | ⟨-, id, precommitToken, heq, -⟩
  · exact heq.trans hnone
  · -- The call to which a transaction is brought would have begun one.
    obtain ⟨r, hr, hcall, hbegin⟩ := hbrings x hx
    rw [← hcall, hover r hr hbegin] at hlive
    cases hlive
  · exact absurd heq (hother id precommitToken)

/-- An id that is known stays. -/
theorem Apart.id_stays
    {e : Event} {id : TransactionId}
    (h : Apart p)
    (hstep : step p e = some t)
    (hsome : p.id = some id) :
    t.id = some id := by
  rcases step_id hstep with heq | ⟨hnone, -⟩ | ⟨hpos, -⟩
  · exact heq.trans hsome
  · rw [hsome] at hnone
    cases hnone
  · have hnone := (h.exclusive hpos).1
    rw [hsome] at hnone
    cases hnone

/-- One event; a response brings a transaction only to a call that has begun one. -/
theorem step_apart
    {e : Event}
    (hnumbered : p.Numbered)
    (h : Apart p)
    (hbegins : p.beginsApart e = true)
    (hbrings :
      ∀ x ∈ e.brings, ∃ r ∈ p.requests, r.call = x.1 ∧ r.isBegin = true)
    (hstep : step p e = some t) :
    Apart t ∧ Advances p t := by
  have hwaiting : p.WaitingWrapped := hnumbered.waiting
  -- An event that neither begins nor ends a `BeginTransaction`.
  have hquiet
      (hother : ∀ id precommitToken, e ≠ .onBegin id precommitToken)
      (hfollows : Follows p t []) :
      Apart t ∧ Advances p t :=
    ⟨h.follow_nil hfollows (h.id_of_begins hbrings hstep hother),
      hfollows.advances⟩
  cases e with
  | runStream valid =>
      obtain rfl := Option.some.inj hstep
      exact hquiet (by simp) (runStream_follows h.begun valid)
  | createReadStream =>
      obtain rfl := Option.some.inj hstep
      exact hquiet (by simp) (createReadStream_follows h.begun)
  | reading i =>
      obtain ⟨s, hs, hphase, rfl⟩ := atStatement_some hstep
      refine
        requestFn_apart hnumbered h hs (Or.inl (by simpa using hphase))
          (fun _ hsends => ?_) none
      simpa [beginsApart, hsends] using hbegins
  | response i transaction precommitToken =>
      obtain ⟨s, hs, -, rfl⟩ := atStatement_some hstep
      exact
        hquiet (by simp)
          (onResponse_follows h.begun hwaiting transaction precommitToken)
  | interrupted i =>
      obtain ⟨s, hs, hrunning, rfl⟩ := atStatement_some hstep
      simp only [Statement.running, Bool.and_eq_true, beq_iff_eq] at hrunning
      exact
        hquiet (by simp)
          (stop_follows h.begun hs
            (Or.inr ⟨rfl, hrunning.1.2, hrunning.2⟩) true)
  | retry i resumeToken =>
      obtain ⟨s, hs, hphase, rfl⟩ := atStatement_some hstep
      have hretrying : s.phase = .retrying := by simpa using hphase
      refine
        requestFn_apart hnumbered h hs (Or.inr hretrying)
          (fun hcreated => ?_) resumeToken
      rw [hretrying] at hcreated
      cases hcreated
  | failed i error =>
      obtain ⟨s, hs, -, rfl⟩ := atStatement_some hstep
      have hstop := stop_follows h.begun hs (Or.inl rfl) true
      have hstopped : Apart (p.stop i s .done true) :=
        h.follow_nil hstop fun hpos => (h.exclusive hpos).1
      have hhandler :
          (p.stop i s .done true).handlerBegins error = true →
            (p.stop i s .done true).outstanding = false := by
        intro hhandler
        have hhandler : p.handlerBegins error = true := hhandler
        simpa [beginsApart, hs, hhandler] using hbegins
      obtain ⟨happart, hadvances⟩ := onError_apart hstopped hhandler
      exact ⟨happart, hstop.trans_advances hadvances⟩
  | ended i =>
      obtain ⟨s, hs, -, rfl⟩ := atStatement_some hstep
      exact hquiet (by simp) (stop_follows h.begun hs (Or.inl rfl) false)
  | batchUpdate queries valid =>
      simp only [step] at hstep
      split at hstep
      · obtain rfl := Option.some.inj hstep
        refine batchUpdate_apart h fun hsends => ?_
        simpa [beginsApart, hsends] using hbegins
      · cases hstep
  | batchResponse i transactions precommitToken =>
      obtain ⟨s, hs, -, rfl⟩ := atStatement_some hstep
      have hstop := stop_follows h.begun hs (Or.inl rfl) false
      exact
        hquiet (by simp)
          (hstop.trans
            (onBatchResponse_follows hstop.begun
              (waiting_set hwaiting hs rfl) transactions precommitToken))
  | batchFailed i error =>
      obtain ⟨s, hs, -, rfl⟩ := atStatement_some hstep
      exact hquiet (by simp) (stop_follows h.begun hs (Or.inl rfl) true)
  | begin =>
      obtain rfl := Option.some.inj hstep
      simp only [beginsApart, Bool.and_eq_true, Option.isNone_iff_eq_none,
        Bool.not_eq_true'] at hbegins
      exact begin_apart h hbegins.1 hbegins.2
  | onBegin id precommitToken =>
      simp only [step] at hstep
      split at hstep
      · rename_i hpos
        obtain rfl := Option.some.inj hstep
        have hone := h.one
        have hzero : p.begins - 1 = 0 := by omega
        obtain ⟨hended, -⟩ := h.beginEnds hpos
        obtain ⟨happart, hadvances⟩ :=
          onBegin_apart hended hwaiting (h.exclusive hpos).1 hzero id
            precommitToken
        exact ⟨happart, { hadvances with }⟩
      · cases hstep
  | beginFailed error =>
      simp only [step] at hstep
      split at hstep
      · rename_i hpos
        obtain rfl := Option.some.inj hstep
        exact h.beginEnds hpos
      · cases hstep

end Transaction
end SpannerClient
