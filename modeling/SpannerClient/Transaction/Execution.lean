import SpannerClient.Machine.Replay
import SpannerClient.Transaction.Outstanding

/-!
# Each statement once

A read/write transaction and the backend.  Requests reach the backend late, in any
order, several times or never, and what the client hears has been answered.

The backend is not part of the client.  It is a parameter (`Backend`), and what is
relied on is listed in `Backend.Replays`: a request names a server transaction or
begins one of its own, whose id its answer brings; a DML statement or batch is
executed in this transaction, the numbers of a transaction in increasing order; a
number that has been handled is answered without being executed again; and nothing
else is executed or undone.  The numbers of the other queries are ignored.

If no query gets a second number, every DML call is executed at most once in any
server transaction (`Logged`).  If moreover no begin is sent while another is
outstanding or, by `begin`, when the id is known, one that has ended is executed in
the server transaction whose id the client has, which is the one it commits
(`Sound`).  The main result is `executed_once`; the backend of its witness is
`replaying`, which keeps the numbers it has handled.
-/

namespace SpannerClient
namespace Transaction

open Machine

/-- A backend, as one transaction of the client sees it. -/
structure Backend where
  State : Type
  start : State
  /-- A request arrives; `none` if it is refused.  If it begins, the server
  transaction gets the id. -/
  receive : State → TransactionId → Request → Option State
  /-- A `BeginTransaction` arrives, and the server transaction gets the id. -/
  receiveBegin : State → TransactionId → Option State
  /-- The server transactions, with the calls whose requests have begun them, or none
  for `BeginTransaction`. -/
  begun : State → List (Option Nat × TransactionId)
  /-- The numbers and calls executed in a server transaction. -/
  log : State → TransactionId → List (Nat × Nat)
  /-- The requests answered, by their calls. -/
  answered : State → List (Nat × ReqOpts)

namespace Backend

/-- The number of a DML request; a read has none. -/
def number
    (isDml : Nat → Bool) (i : Nat) (q : ReqOpts) : Option Nat :=
  if isDml i then q.seqno else none

/-- The server transaction of a request: the one that it names or, with the id, the
one that it begins. -/
def target
    (r : Request) (id : TransactionId) : TransactionId :=
  match r.reqOpts.transaction with
  | .id known => known
  | _ => id

/-- What a backend does with a request that it does not refuse. -/
structure Receives
    (isDml : Nat → Bool) (B : Backend) (b : B.State)
    (r : Request) (id : TransactionId) (b' : B.State) : Prop where
  /-- It names a server transaction or begins one. -/
  named :
    (∃ known, r.reqOpts.transaction = .id known) ∨ r.isBegin = true
  begun :
    B.begun b' =
      B.begun b ++ (if r.isBegin then [(some r.call, id)] else [])
  answered : B.answered b' = B.answered b ++ [(r.call, r.reqOpts)]
  /-- Nothing that has been executed is undone. -/
  kept : ∀ t, ∀ x ∈ B.log b t, x ∈ B.log b' t
  /-- Nothing but the request is executed. -/
  new :
    ∀ t, ∀ x ∈ B.log b' t,
      x ∈ B.log b t ∨
        x.2 = r.call ∧ number isDml r.call r.reqOpts = some x.1
  /-- The numbers of a server transaction are executed in increasing order. -/
  increasing :
    (∀ t, Replay.Increasing (B.log b t)) →
      ∀ t, Replay.Increasing (B.log b' t)
  /-- The number is handled in the server transaction of the request. -/
  handled :
    ∀ n, number isDml r.call r.reqOpts = some n →
      ∃ c, (n, c) ∈ B.log b' (target r id)

/-- The numbers of the requests make them safe to replay. -/
structure Replays
    (isDml : Nat → Bool) (B : Backend) : Prop where
  startBegun : B.begun B.start = []
  startLog : ∀ id, B.log B.start id = []
  startAnswered : B.answered B.start = []
  receive :
    ∀ b id r b', B.receive b id r = some b' → Receives isDml B b r id b'
  receiveBegin :
    ∀ b id b', B.receiveBegin b id = some b' →
      B.begun b' = B.begun b ++ [(none, id)] ∧
        B.answered b' = B.answered b ∧ B.log b' = B.log b

end Backend

/-- A transaction and its backend. -/
structure Exchange (B : Backend) where
  client : Transaction
  backend : B.State := B.start
  /-- The DML calls that have ended with an answer. -/
  ended : List Nat := []

inductive ExchangeEvent where
  | client (e : Event)
  /-- A request reaches the backend. -/
  | receive (k : Nat) (id : TransactionId)
  /-- A `BeginTransaction` request reaches the backend. -/
  | receiveBegin (id : TransactionId)
deriving DecidableEq

namespace Exchange

section Steps

variable {B : Backend}

/-- The request of the call has been answered. -/
def answeredAt
    (s : Exchange B) (i : Nat) : Bool :=
  s.client.statements[i]?.any fun u =>
    u.reqOpts.any fun q => (B.answered s.backend).contains (i, q)

/-- The client hears only what the backend has said. -/
def admits
    (s : Exchange B) (e : Event) : Bool :=
  (e.brings.all fun x => (B.begun s.backend).contains (some x.1, x.2)) &&
    match e with
    | .ended i => s.answeredAt i
    | .batchResponse i _ _ => s.answeredAt i
    | .onBegin id _ => (B.begun s.backend).contains (none, id)
    | _ => true

/-- The call has a number that the backend looks at. -/
def isNumbered
    (isDml : Nat → Bool) (s : Exchange B) (i : Nat) : Bool :=
  s.client.statements[i]?.any fun u =>
    u.reqOpts.any fun q => (Backend.number isDml i q).isSome

/-- The DML calls that end with the event; those that have begun have been told the
transaction. -/
def ends
    (isDml : Nat → Bool) (s : Exchange B) (p : Transaction) :
    Event → List Nat
  | .ended i => if p.id.isSome && s.isNumbered isDml i then [i] else []
  | .batchResponse i _ _ =>
      if p.id.isSome && s.isNumbered isDml i then [i] else []
  | _ => []

/-- One event. -/
def step
    (isDml : Nat → Bool) (s : Exchange B) : ExchangeEvent → Option (Exchange B)
  | .client e =>
      if s.admits e then
        (Transaction.step s.client e).map fun p =>
          { s with
            client := p
            ended := s.ended ++ s.ends isDml p e }
      else
        none
  | .receive k id =>
      match s.client.requests[k]? with
      | none => none
      | some r =>
          (B.receive s.backend id r).map fun b => { s with backend := b }
  | .receiveBegin id =>
      (B.receiveBegin s.backend id).map fun b => { s with backend := b }

end Steps

end Exchange

theorem number_eq_some
    {isDml : Nat → Bool} {i n : Nat} {q : ReqOpts} :
    Backend.number isDml i q = some n ↔
      isDml i = true ∧ q.seqno = some n := by
  simp [Backend.number]

/-! ## The exchange -/

namespace Exchange

variable {isDml : Nat → Bool} {B : Backend} {s : Exchange B}

/-- The numbers of a transaction, and what its backend makes of them. -/
structure Logged
    (isDml : Nat → Bool) (s : Exchange B) : Prop where
  numbered : s.client.Numbered
  same : SameSeqno s.client.requests
  /-- Only what has been sent is executed. -/
  sent :
    ∀ id, ∀ x ∈ B.log s.backend id,
      ∃ r ∈ s.client.requests,
        r.call = x.2 ∧ Backend.number isDml r.call r.reqOpts = some x.1
  increasing : ∀ id, Replay.Increasing (B.log s.backend id)

/-- What holds of a transaction and its backend. -/
structure Sound
    (isDml : Nat → Bool) (s : Exchange B) : Prop extends
    Logged isDml s where
  apart : Apart s.client
  /-- A call is executed in the server transaction it has begun. -/
  begun :
    ∀ c id, (some c, id) ∈ B.begun s.backend →
      ∃ r ∈ s.client.requests,
        r.call = c ∧ r.isBegin = true ∧
          ∀ n, Backend.number isDml c r.reqOpts = some n →
            (n, c) ∈ B.log s.backend id
  /-- What has been answered has begun, or is executed where it was to be. -/
  answered :
    ∀ c q, (c, q) ∈ B.answered s.backend →
      (∃ r ∈ s.client.requests, r.call = c ∧ r.reqOpts = q) ∧
        (q.transaction.isBegin = true ∨
          ∃ id, q.transaction = .id id ∧
            ∀ n, Backend.number isDml c q = some n →
              (n, c) ∈ B.log s.backend id)
  /-- The call that has begun and is not over has begun the transaction known. -/
  known :
    ∀ id, s.client.id = some id →
      ∀ r ∈ s.client.requests, r.isBegin = true →
        s.client.live r.call = true → (some r.call, id) ∈ B.begun s.backend
  ended :
    ∀ c ∈ s.ended,
      ∃ id n, s.client.id = some id ∧ (n, c) ∈ B.log s.backend id

section Receives

variable {r : Request} {id : TransactionId} {b : B.State}

theorem Logged.receives
    (h : Logged isDml s)
    (hr : r ∈ s.client.requests)
    (hreceives : Backend.Receives isDml B s.backend r id b) :
    Logged isDml { s with backend := b } where
  numbered := h.numbered
  same := h.same
  sent := by
    intro t x hx
    rcases hreceives.new t x hx with hold | ⟨hcall, hn⟩
    · exact h.sent t x hold
    · exact ⟨r, hr, hcall.symm, hn⟩
  increasing := hreceives.increasing h.increasing

/-- The number of the request has not been handled for another call. -/
theorem Logged.executed
    (h : Logged isDml s)
    (hr : r ∈ s.client.requests)
    (hreceives : Backend.Receives isDml B s.backend r id b) :
    ∀ n, Backend.number isDml r.call r.reqOpts = some n →
      (n, r.call) ∈ B.log b (Backend.target r id) := by
  intro n hn
  obtain ⟨c, hc⟩ := hreceives.handled n hn
  obtain ⟨r', hr', hcall, hn'⟩ :=
    (h.receives hr hreceives).sent (Backend.target r id) (n, c) hc
  have hsame : r'.call = r.call := by
    by_contra hne
    exact
      h.numbered.distinct r' hr' r hr hne n (number_eq_some.mp hn').2
        (number_eq_some.mp hn).2
  rwa [← hsame, hcall]

theorem target_of_id
    {known : TransactionId}
    (h : r.reqOpts.transaction = .id known) :
    Backend.target r id = known := by
  rw [Backend.target, h]

theorem target_of_isBegin
    (h : r.isBegin = true) :
    Backend.target r id = id := by
  rw [Request.isBegin] at h
  rw [Backend.target]
  split
  · rename_i known hknown
    rw [hknown] at h
    cases h
  · rfl

/-- A request is handled. -/
theorem Sound.receives
    (h : Sound isDml s)
    (hr : r ∈ s.client.requests)
    (hreceives : Backend.Receives isDml B s.backend r id b) :
    Sound isDml { s with backend := b } := by
  have hexecuted := h.toLogged.executed hr hreceives
  have hkept {c : Option Nat} {t : TransactionId}
      (hx : (c, t) ∈ B.begun s.backend) : (c, t) ∈ B.begun b := by
    rw [hreceives.begun]
    exact List.mem_append_left _ hx
  have hold {c : Nat} {t : TransactionId}
      (hx : (some c, t) ∈ B.begun s.backend) :
      ∃ r ∈ s.client.requests,
        r.call = c ∧ r.isBegin = true ∧
          ∀ n, Backend.number isDml c r.reqOpts = some n →
            (n, c) ∈ B.log b t := by
    obtain ⟨r', hr', hcall, hbegin, hlog⟩ := h.begun c t hx
    exact
      ⟨r', hr', hcall, hbegin, fun n hn => hreceives.kept t _ (hlog n hn)⟩
  exact
    { h.toLogged.receives hr hreceives with
      apart := h.apart
      begun := by
        intro c t hx
        change (some c, t) ∈ B.begun b at hx
        rw [hreceives.begun] at hx
        rcases List.mem_append.mp hx with hx | hx
        · exact hold hx
        · rw [List.mem_ite_nil_right, List.mem_singleton] at hx
          obtain ⟨hbegin, heq⟩ := hx
          obtain ⟨hc, rfl⟩ := Prod.mk.inj heq
          obtain rfl := Option.some.inj hc
          rw [target_of_isBegin hbegin] at hexecuted
          exact ⟨r, hr, rfl, hbegin, hexecuted⟩
      answered := by
        intro c q hx
        change (c, q) ∈ B.answered b at hx
        rw [hreceives.answered] at hx
        rcases List.mem_append.mp hx with hx | hx
        · obtain ⟨hrequest, hdone⟩ := h.answered c q hx
          refine ⟨hrequest, hdone.imp_right ?_⟩
          rintro ⟨t, ht, hlog⟩
          exact ⟨t, ht, fun n hn => hreceives.kept t _ (hlog n hn)⟩
        · obtain ⟨rfl, rfl⟩ := Prod.mk.inj (List.mem_singleton.mp hx)
          refine ⟨⟨r, hr, rfl, rfl⟩, ?_⟩
          rcases hreceives.named with ⟨known, hknown⟩ | hbegin
          · rw [target_of_id hknown] at hexecuted
            exact Or.inr ⟨known, hknown, hexecuted⟩
          · exact Or.inl hbegin
      known := fun t ht r' hr' hbegin hlive =>
        hkept (h.known t ht r' hr' hbegin hlive)
      ended := by
        intro c hc
        obtain ⟨t, n, ht, hlog⟩ := h.ended c hc
        exact ⟨t, n, ht, hreceives.kept t _ hlog⟩ }

end Receives

/-- A call that is about to end has been executed in the transaction that is known
from then on. -/
theorem Sound.ends_executed
    (h : Sound isDml s)
    {i : Nat} {id : TransactionId}
    (hlive : s.client.live i = true)
    (hanswered : s.answeredAt i = true)
    (hnumbered : s.isNumbered isDml i = true)
    (hid :
      s.client.id = some id ∨
        s.client.id = none ∧ (some i, id) ∈ B.begun s.backend) :
    ∃ n, (n, i) ∈ B.log s.backend id := by
  obtain ⟨u, hu, q, hq, hcontains⟩ :
      ∃ u, s.client.statements[i]? = some u ∧
        ∃ q, u.reqOpts = some q ∧ (i, q) ∈ B.answered s.backend := by
    simpa [answeredAt, Option.any_eq_true] using hanswered
  have hnumber : ∃ n, Backend.number isDml i q = some n := by
    simpa [isNumbered, hu, hq, Option.isSome_iff_exists] using hnumbered
  obtain ⟨n, hn⟩ := hnumber
  obtain ⟨⟨r, hr, hcall, rfl⟩, hdone⟩ := h.answered i q hcontains
  rcases hdone with hbegin | ⟨t, ht, hlog⟩
  · have hbegun : (some i, id) ∈ B.begun s.backend := by
      rcases hid with hid | ⟨-, hbegun⟩
      · rw [← hcall]
        exact h.known id hid r hr hbegin (hcall ▸ hlive)
      · exact hbegun
    obtain ⟨r', hr', hcall', -, hlog⟩ := h.begun i id hbegun
    obtain ⟨hdml, hseqno⟩ := number_eq_some.mp hn
    refine ⟨n, hlog n (number_eq_some.mpr ⟨hdml, ?_⟩)⟩
    rw [← hseqno]
    exact h.same r' hr' r hr (hcall'.trans hcall.symm)
  · have hknown := (h.apart.begun.statement i u hu).known _ t hq ht
    rcases hid with hid | ⟨hnone, -⟩
    · obtain rfl := Option.some.inj (hid.symm.trans hknown)
      exact ⟨n, hlog n hn⟩
    · rw [hnone] at hknown
      cases hknown

section Client

variable {p : Transaction} {e : Event}

theorem brings_begun
    (hadmits : s.admits e = true) :
    ∀ x ∈ e.brings, (some x.1, x.2) ∈ B.begun s.backend := by
  simp only [admits, Bool.and_eq_true, List.all_eq_true] at hadmits
  intro x hx
  simpa using hadmits.1 x hx

/-- What ends has been answered. -/
theorem ends_cases
    {c : Nat}
    (hadmits : s.admits e = true)
    (hstep : Transaction.step s.client e = some p)
    (hc : c ∈ s.ends isDml p e) :
    p.id.isSome = true ∧ s.isNumbered isDml c = true ∧
      s.answeredAt c = true ∧ s.client.live c = true ∧
        (∀ x ∈ e.brings, x.1 = c) ∧ ∀ id token, e ≠ .onBegin id token := by
  cases e with
  | ended i =>
      obtain ⟨u, hu, hrunning, -⟩ := atStatement_some hstep
      simp only [ends, List.mem_ite_nil_right, Bool.and_eq_true,
        List.mem_singleton] at hc
      obtain ⟨⟨hid, hnumbered⟩, rfl⟩ := hc
      simp only [Statement.running, Bool.and_eq_true, beq_iff_eq] at hrunning
      refine ⟨hid, hnumbered, ?_, live_iff.mpr ⟨u, hu, ?_⟩, ?_, ?_⟩
      · simpa [admits, Event.brings] using hadmits
      · rw [hrunning.1.2]
        decide
      · intro x hx
        cases hx
      · intro id token heq
        cases heq
  | batchResponse i transactions precommitToken =>
      obtain ⟨u, hu, hguard, -⟩ := atStatement_some hstep
      simp only [ends, List.mem_ite_nil_right, Bool.and_eq_true,
        List.mem_singleton] at hc
      obtain ⟨⟨hid, hnumbered⟩, rfl⟩ := hc
      simp only [Bool.and_eq_true, beq_iff_eq] at hguard
      refine ⟨hid, hnumbered, ?_, live_iff.mpr ⟨u, hu, ?_⟩, ?_, ?_⟩
      · simp only [admits, Bool.and_eq_true] at hadmits
        exact hadmits.2
      · rw [hguard.2]
        decide
      · intro x hx
        obtain ⟨id, -, rfl⟩ := List.mem_map.mp hx
        rfl
      · intro id token heq
        cases heq
  | _ => cases hc

theorem Logged.client
    (h : Logged isDml s)
    (hrenumbers : s.client.renumbers e = false)
    (hstep : Transaction.step s.client e = some p) :
    Logged isDml
      { s with
        client := p
        ended := s.ended ++ s.ends isDml p e } := by
  obtain ⟨hnumbered, hsame⟩ := step_numbered h.numbered hstep
  exact
    { numbered := hnumbered
      same := (hsame h.same).mpr hrenumbers
      sent := by
        intro id x hx
        obtain ⟨r, hr, hx⟩ := h.sent id x hx
        exact ⟨r, step_requests_subset hstep hr, hx⟩
      increasing := h.increasing }

/-- The call that has begun and is not over has begun the transaction known after the
step. -/
theorem Sound.begun_known
    (h : Sound isDml s)
    (hadmits : s.admits e = true)
    (hstep : Transaction.step s.client e = some p)
    {id : TransactionId}
    (hsome : p.id = some id)
    {r : Request}
    (hr : r ∈ s.client.requests)
    (hbegin : r.isBegin = true)
    (hlive : s.client.live r.call = true) :
    (some r.call, id) ∈ B.begun s.backend := by
  rcases step_id hstep with heq | ⟨-, x, hx, heq, hxlive⟩ | ⟨hpos, -⟩
  · exact h.known id (heq.symm.trans hsome) r hr hbegin hlive
  · -- The call that has brought the id is the one that has begun.
    obtain rfl := Option.some.inj (heq.symm.trans hsome)
    have hbrought := brings_begun hadmits x hx
    obtain ⟨r', hr', hcall, hbegin', -⟩ := h.begun _ _ hbrought
    rw [← hcall] at hxlive
    rw [h.apart.unique r hr r' hr' hbegin hbegin' hlive hxlive, hcall]
    exact hbrought
  · rw [(h.apart.exclusive hpos).2 r hr hbegin] at hlive
    cases hlive

/-- A call that ends has been executed in the transaction known after the step. -/
theorem Sound.ended_known
    (h : Sound isDml s)
    (hadmits : s.admits e = true)
    (hstep : Transaction.step s.client e = some p)
    {c : Nat}
    (hc : c ∈ s.ends isDml p e) :
    ∃ id n, p.id = some id ∧ (n, c) ∈ B.log s.backend id := by
  obtain ⟨hsome, hnumbered, hanswered, hlive, hbrought, hbegin⟩ :=
    ends_cases hadmits hstep hc
  obtain ⟨id, hsome⟩ := Option.isSome_iff_exists.mp hsome
  have hid :
      s.client.id = some id ∨
        s.client.id = none ∧ (some c, id) ∈ B.begun s.backend := by
    rcases step_id hstep with
      heq | ⟨hnone, x, hx, heq, -⟩ | ⟨-, id', precommitToken, heq, -⟩
    · exact Or.inl (heq.symm.trans hsome)
    · obtain rfl := Option.some.inj (heq.symm.trans hsome)
      refine Or.inr ⟨hnone, ?_⟩
      rw [← hbrought x hx]
      exact brings_begun hadmits x hx
    · exact absurd heq (hbegin id' precommitToken)
  obtain ⟨n, hlog⟩ := h.ends_executed hlive hanswered hnumbered hid
  exact ⟨id, n, hsome, hlog⟩

/-- The transaction takes a step that the backend admits. -/
theorem Sound.client
    (h : Sound isDml s)
    (hadmits : s.admits e = true)
    (hrenumbers : s.client.renumbers e = false)
    (hapart : s.client.beginsApart e = true)
    (hstep : Transaction.step s.client e = some p) :
    Sound isDml
      { s with
        client := p
        ended := s.ended ++ s.ends isDml p e } := by
  have hbrings :
      ∀ x ∈ e.brings,
        ∃ r ∈ s.client.requests, r.call = x.1 ∧ r.isBegin = true := by
    intro x hx
    obtain ⟨r, hr, hcall, hbegin, -⟩ :=
      h.begun _ _ (brings_begun hadmits x hx)
    exact ⟨r, hr, hcall, hbegin⟩
  obtain ⟨hstays, hadvances⟩ :=
    step_apart h.numbered h.apart hapart hbrings hstep
  have hkept {P : Request → Prop}
      (hr : ∃ r ∈ s.client.requests, P r) : ∃ r ∈ p.requests, P r := by
    obtain ⟨r, hr, hP⟩ := hr
    exact ⟨r, step_requests_subset hstep hr, hP⟩
  refine
    { h.toLogged.client hrenumbers hstep with
      apart := hstays
      begun := fun c id hx => hkept (h.begun c id hx)
      answered := fun c q hx =>
        ⟨hkept (h.answered c q hx).1, (h.answered c q hx).2⟩
      known := ?_
      ended := ?_ }
  · intro id hsome r hr hbegin hlive
    have hr : r ∈ s.client.requests := by
      rcases hadvances.begins r hr hbegin with hr | hnone
      · exact hr
      · exact absurd (hsome.symm.trans hnone) (by simp)
    exact
      h.begun_known hadmits hstep hsome hr hbegin
        (hadvances.live r hr hbegin hlive)
  · intro c hc
    rcases List.mem_append.mp hc with hc | hc
    · obtain ⟨id, n, hsome, hlog⟩ := h.ended c hc
      exact ⟨id, n, h.apart.id_stays hstep hsome, hlog⟩
    · exact h.ended_known hadmits hstep hc

end Client

/-- The event gives no query a second number. -/
def keepsNumbers
    (s : Exchange B) : ExchangeEvent → Prop
  | .client e => s.client.renumbers e = false
  | _ => True

/-- The event begins no server transaction while another begin is outstanding, nor
by `begin` when the id is known. -/
def keepsApart
    (s : Exchange B) : ExchangeEvent → Prop
  | .client e => s.client.beginsApart e = true
  | _ => True

/-- The parts of an event. -/
theorem step_cases
    {t : Exchange B} {e : ExchangeEvent}
    (hstep : step isDml s e = some t) :
    (∃ e' p, e = .client e' ∧ s.admits e' = true ∧
        Transaction.step s.client e' = some p ∧
          t =
            { s with
              client := p
              ended := s.ended ++ s.ends isDml p e' }) ∨
      (∃ r ∈ s.client.requests, ∃ id b,
        B.receive s.backend id r = some b ∧ t = { s with backend := b }) ∨
      ∃ id b,
        B.receiveBegin s.backend id = some b ∧ t = { s with backend := b } := by
  cases e with
  | client e =>
      simp only [step] at hstep
      split at hstep
      · rename_i hadmits
        obtain ⟨p, hp, rfl⟩ := Option.map_eq_some_iff.mp hstep
        exact Or.inl ⟨e, p, rfl, hadmits, hp, rfl⟩
      · cases hstep
  | receive k id =>
      simp only [step] at hstep
      split at hstep
      · cases hstep
      · rename_i r hr
        obtain ⟨b, hb, rfl⟩ := Option.map_eq_some_iff.mp hstep
        exact
          Or.inr (Or.inl ⟨r, List.mem_of_getElem? hr, id, b, hb, rfl⟩)
  | receiveBegin id =>
      obtain ⟨b, hb, rfl⟩ := Option.map_eq_some_iff.mp hstep
      exact Or.inr (Or.inr ⟨id, b, hb, rfl⟩)

/-- A `BeginTransaction` executes nothing. -/
theorem Logged.receivesBegin
    (hB : B.Replays isDml)
    (h : Logged isDml s)
    {id : TransactionId} {b : B.State}
    (hb : B.receiveBegin s.backend id = some b) :
    Logged isDml { s with backend := b } := by
  obtain ⟨-, -, hlog⟩ := hB.receiveBegin _ _ _ hb
  exact
    { numbered := h.numbered
      same := h.same
      sent := fun t x hx => h.sent t x (hlog ▸ hx)
      increasing := fun t => by
        rw [hlog]
        exact h.increasing t }

theorem Sound.receivesBegin
    (hB : B.Replays isDml)
    (h : Sound isDml s)
    {id : TransactionId} {b : B.State}
    (hb : B.receiveBegin s.backend id = some b) :
    Sound isDml { s with backend := b } := by
  obtain ⟨hbegun, hanswered, hlog⟩ := hB.receiveBegin _ _ _ hb
  exact
    { h.toLogged.receivesBegin hB hb with
      apart := h.apart
      begun := by
        intro c t hx
        rw [hlog]
        refine h.begun c t ?_
        rw [hbegun] at hx
        simpa using hx
      answered := by
        intro c q hx
        rw [hlog]
        exact h.answered c q (hanswered ▸ hx)
      known := by
        intro t ht r hr hbegin hlive
        rw [hbegun]
        exact List.mem_append_left _ (h.known t ht r hr hbegin hlive)
      ended := by
        intro c hc
        rw [hlog]
        exact h.ended c hc }

theorem step_logged
    {t : Exchange B} {e : ExchangeEvent}
    (hB : B.Replays isDml)
    (h : Logged isDml s)
    (hnumbers : s.keepsNumbers e)
    (hstep : step isDml s e = some t) :
    Logged isDml t := by
  rcases step_cases hstep with
    ⟨e, p, rfl, -, hp, rfl⟩ | ⟨r, hr, id, b, hb, rfl⟩ | ⟨id, b, hb, rfl⟩
  · exact h.client hnumbers hp
  · exact h.receives hr (hB.receive _ _ _ _ hb)
  · exact h.receivesBegin hB hb

theorem step_sound
    {t : Exchange B} {e : ExchangeEvent}
    (hB : B.Replays isDml)
    (h : Sound isDml s)
    (hnumbers : s.keepsNumbers e)
    (hapart : s.keepsApart e)
    (hstep : step isDml s e = some t) :
    Sound isDml t := by
  rcases step_cases hstep with
    ⟨e, p, rfl, hadmits, hp, rfl⟩ | ⟨r, hr, id, b, hb, rfl⟩ | ⟨id, b, hb, rfl⟩
  · exact h.client hadmits hnumbers hapart hp
  · exact h.receives hr (hB.receive _ _ _ _ hb)
  · exact h.receivesBegin hB hb

/-- A read/write transaction before its first call. -/
def opened
    (B : Backend)
    (isMuxEnabledForRW : Bool) (previous : Option TransactionId)
    (useInRunner : Bool) : Exchange B where
  client := new .readWrite isMuxEnabledForRW previous useInRunner

theorem opened_sound
    (hB : B.Replays isDml)
    (isMuxEnabledForRW : Bool) (previous : Option TransactionId)
    (useInRunner : Bool) :
    Sound isDml (opened B isMuxEnabledForRW previous useInRunner) where
  numbered := new_numbered _ _ _ _
  same := fun _ hr => absurd hr List.not_mem_nil
  apart :=
    { begun :=
        { known := fun _ hr => absurd hr List.not_mem_nil
          unwrapped := fun _ hr => absurd hr List.not_mem_nil
          statement := fun _ _ hs => by cases hs }
      unique := fun _ hr => absurd hr List.not_mem_nil
      exclusive := fun hpos => absurd hpos (Nat.lt_irrefl 0)
      one := Nat.zero_le 1 }
  sent := by
    intro id x hx
    rw [opened, hB.startLog] at hx
    cases hx
  increasing := by
    intro id
    rw [opened, hB.startLog]
    exact List.Pairwise.nil
  begun := by
    intro c id hx
    rw [opened, hB.startBegun] at hx
    cases hx
  answered := by
    intro c q hx
    rw [opened, hB.startAnswered] at hx
    cases hx
  known := fun _ _ _ hr => absurd hr List.not_mem_nil
  ended := fun _ hc => absurd hc List.not_mem_nil

/-- No call is executed twice in one server transaction. -/
theorem Logged.nodup
    (h : Logged isDml s)
    (id : TransactionId) :
    ((B.log s.backend id).map Prod.snd).Nodup := by
  refine (h.increasing id).nodup_of_numbered fun x hx y hy heq => ?_
  obtain ⟨r, hr, hcall, hn⟩ := h.sent id x hx
  obtain ⟨r', hr', hcall', hn'⟩ := h.sent id y hy
  have hseqno : r.reqOpts.seqno = r'.reqOpts.seqno :=
    h.same r hr r' hr' (hcall.trans (heq.trans hcall'.symm))
  rw [(number_eq_some.mp hn).2, (number_eq_some.mp hn').2] at hseqno
  exact Option.some.inj hseqno

/-- Of a backend that the numbers make safe to replay: if no query gets a second
number, only what has been sent is executed, once in each server transaction at
most.  If moreover no begin is sent while another is outstanding, nor by `begin`
when the id is known, a DML call that has ended has been executed once in the
transaction that the client knows. -/
theorem executed_once
    (isDml : Nat → Bool) {B : Backend}
    (hB : B.Replays isDml)
    (isMuxEnabledForRW : Bool) (previous : Option TransactionId)
    (useInRunner : Bool)
    (es : List ExchangeEvent) (s : Exchange B)
    (hrun :
      run (step isDml) (opened B isMuxEnabledForRW previous useInRunner) es =
        some s)
    (hnumbers :
      Meets (step isDml) keepsNumbers
        (opened B isMuxEnabledForRW previous useInRunner) es) :
    (∀ id,
      ((B.log s.backend id).map Prod.snd).Nodup ∧
        ∀ x ∈ B.log s.backend id,
          ∃ r ∈ s.client.requests,
            r.call = x.2 ∧ isDml r.call = true ∧
              r.reqOpts.seqno = some x.1) ∧
      (Meets (step isDml) keepsApart
          (opened B isMuxEnabledForRW previous useInRunner) es →
        ∀ c ∈ s.ended,
          ∃ id,
            s.client.id = some id ∧
              ((B.log s.backend id).map Prod.snd).count c = 1) := by
  have hopened :
      Sound isDml (opened B isMuxEnabledForRW previous useInRunner) :=
    opened_sound hB _ _ _
  have hlogged : Logged isDml s :=
    run_invariant_of_meets
      (fun _ _ _ h hnumbers hstep => step_logged hB h hnumbers hstep)
      hopened.toLogged hnumbers hrun
  refine ⟨fun id => ⟨hlogged.nodup id, fun x hx => ?_⟩, fun hapart c hc => ?_⟩
  · obtain ⟨r, hr, hcall, hn⟩ := hlogged.sent id x hx
    obtain ⟨hdml, hseqno⟩ := number_eq_some.mp hn
    exact ⟨r, hr, hcall, hdml, hseqno⟩
  · have hsound : Sound isDml s :=
      run_invariant_of_meets
        (fun _ _ _ h hkeeps hstep => step_sound hB h hkeeps.1 hkeeps.2 hstep)
        hopened (meets_and hnumbers hapart) hrun
    obtain ⟨id, n, hid, hlog⟩ := hsound.ended c hc
    have hmem : c ∈ (B.log s.backend id).map Prod.snd :=
      List.mem_map_of_mem hlog
    exact ⟨id, hid, List.count_eq_one_of_mem (hlogged.nodup id) hmem⟩

end Exchange

/-! ## A backend that keeps the numbers it has handled -/

/-- What the backend has done. -/
structure Ledger where
  begun : List (Option Nat × TransactionId) := []
  log : TransactionId → List (Nat × Nat) := fun _ => []
  answered : List (Nat × ReqOpts) := []

namespace Ledger

def knows
    (b : Ledger) (id : TransactionId) : Bool :=
  b.begun.any fun x => x.2 == id

/-- Handle a request in a server transaction. -/
def handle
    (isDml : Nat → Bool) (b : Ledger)
    (id : TransactionId) (r : Request) : Option Ledger :=
  let b := { b with answered := b.answered ++ [(r.call, r.reqOpts)] }
  match Backend.number isDml r.call r.reqOpts with
  | none => some b
  | some n =>
      (Replay.execute (b.log id) n r.call).map fun log =>
        { b with log := Function.update b.log id log }

def receive
    (isDml : Nat → Bool) (b : Ledger)
    (id : TransactionId) (r : Request) : Option Ledger :=
  match r.reqOpts.transaction with
  | .id known => if b.knows known then b.handle isDml known r else none
  | .begin _ =>
      if b.knows id then
        none
      else
        { b with begun := b.begun ++ [(some r.call, id)] }.handle isDml id r
  | .singleUse => none

def receiveBegin
    (b : Ledger) (id : TransactionId) : Option Ledger :=
  if b.knows id then none
  else some { b with begun := b.begun ++ [(none, id)] }

end Ledger

/-- The backend executes the numbers of a server transaction in their order, each at
most once. -/
def replaying
    (isDml : Nat → Bool) : Backend where
  State := Ledger
  start := {}
  receive := Ledger.receive isDml
  receiveBegin := Ledger.receiveBegin
  begun := Ledger.begun
  log := Ledger.log
  answered := Ledger.answered

section Ledger

variable {isDml : Nat → Bool} {b b' : Ledger} {r : Request}
variable {id : TransactionId}

/-- A request that is handled in its server transaction. -/
theorem receives_of_handle
    (begun : List (Option Nat × TransactionId))
    (hnamed :
      (∃ known, r.reqOpts.transaction = .id known) ∨ r.isBegin = true)
    (hbegun :
      begun =
        b.begun ++ (if r.isBegin then [(some r.call, id)] else []))
    (h :
      { b with begun := begun }.handle isDml (Backend.target r id) r =
        some b') :
    Backend.Receives isDml (replaying isDml) b r id b' := by
  unfold Ledger.handle at h
  dsimp only at h
  split at h
  · rename_i hnone
    obtain rfl := Option.some.inj h
    exact
      { named := hnamed
        begun := hbegun
        answered := rfl
        kept := fun _ _ hx => hx
        new := fun _ _ hx => Or.inl hx
        increasing := fun hlog => hlog
        handled := fun n hn => by rw [hnone] at hn; cases hn }
  · rename_i n hn
    obtain ⟨log, hlog, rfl⟩ := Option.map_eq_some_iff.mp h
    have hupdate (t : TransactionId) :
        t = Backend.target r id ∧
            Function.update b.log (Backend.target r id) log t = log ∨
          t ≠ Backend.target r id ∧
            Function.update b.log (Backend.target r id) log t = b.log t := by
      by_cases ht : t = Backend.target r id
      · exact Or.inl ⟨ht, by rw [ht, Function.update_self]⟩
      · exact Or.inr ⟨ht, Function.update_of_ne ht ..⟩
    refine
      { named := hnamed
        begun := hbegun
        answered := rfl
        kept := fun t x hx => ?_
        new := fun t x hx => ?_
        increasing := fun hall t => ?_
        handled := fun m hm => ?_ }
    · change x ∈ Function.update b.log _ log t
      rcases hupdate t with ⟨rfl, heq⟩ | ⟨-, heq⟩ <;> rw [heq]
      · exact Replay.mem_execute hlog hx
      · exact hx
    · change x ∈ Function.update b.log _ log t at hx
      rcases hupdate t with ⟨rfl, heq⟩ | ⟨-, heq⟩ <;> rw [heq] at hx
      · refine (Replay.mem_of_mem_execute hlog hx).imp_right fun hx => ?_
        rw [hx]
        exact ⟨rfl, hn⟩
      · exact Or.inl hx
    · change Replay.Increasing (Function.update b.log _ log t)
      rcases hupdate t with ⟨rfl, heq⟩ | ⟨-, heq⟩ <;> rw [heq]
      · exact Replay.execute_increasing (hall _) hlog
      · exact hall t
    · obtain rfl := Option.some.inj (hn.symm.trans hm)
      obtain ⟨c, hc⟩ := Replay.exists_of_execute hlog
      refine ⟨c, ?_⟩
      change (n, c) ∈ Function.update b.log _ log (Backend.target r id)
      rwa [Function.update_self]

theorem receives_of_receive
    (h : b.receive isDml id r = some b') :
    Backend.Receives isDml (replaying isDml) b r id b' := by
  unfold Ledger.receive at h
  split at h
  · rename_i known hknown
    have hbegin : r.isBegin = false := by
      rw [Request.isBegin, hknown]
      rfl
    split at h
    · refine receives_of_handle b.begun (Or.inl ⟨known, hknown⟩) ?_ ?_
      · simp [hbegin]
      · rw [Exchange.target_of_id hknown]
        exact h
    · cases h
  · rename_i previous hprevious
    have hbegin : r.isBegin = true := by
      rw [Request.isBegin, hprevious]
      rfl
    split at h
    · cases h
    · refine
        receives_of_handle (b.begun ++ [(some r.call, id)]) (Or.inr hbegin)
          ?_ ?_
      · simp [hbegin]
      · rw [Exchange.target_of_isBegin hbegin]
        exact h
  · cases h

end Ledger

theorem replaying_replays
    (isDml : Nat → Bool) :
    (replaying isDml).Replays isDml where
  startBegun := rfl
  startLog := fun _ => rfl
  startAnswered := rfl
  receive := fun _ _ _ _ h => receives_of_receive h
  receiveBegin := by
    intro b id b' h
    change b.receiveBegin id = some b' at h
    unfold Ledger.receiveBegin at h
    split at h
    · cases h
    · obtain rfl := Option.some.inj h
      exact ⟨rfl, rfl, rfl⟩

namespace Exchange

/-- A backend for which every call is DML. -/
abbrev dmlBackend : Backend :=
  replaying fun _ => true

/-- An insert begins the transaction twice, as its first request is slow, and a batch
that arrives twice follows it. -/
def slowBegin : List ExchangeEvent :=
  [.client (.runStream true), .client (.reading 0), .receive 0 5,
    .client (.interrupted 0), .client (.retry 0 none), .receive 1 6,
    .client (.response 0 (some 6) none), .client (.ended 0),
    .client (.batchUpdate 1 true), .receive 2 0, .receive 2 0,
    .client (.batchResponse 1 [none] none)]

theorem executed_once_slowBegin :
    ∃ s : Exchange dmlBackend,
      run (step fun _ => true) (opened dmlBackend false none false) slowBegin = some s ∧
        s.ended = [0, 1] ∧ s.client.id = some 6 ∧
        dmlBackend.log s.backend 5 = [(1, 0)] ∧
        ((dmlBackend.log s.backend 6).map Prod.snd).Nodup ∧
        ∀ c ∈ s.ended,
          ∃ id,
            s.client.id = some id ∧
              ((dmlBackend.log s.backend id).map Prod.snd).count c = 1 := by
  obtain ⟨s, hrun, hended, hid, hlog⟩ :
      ∃ s : Exchange dmlBackend,
        run (step fun _ => true) (opened dmlBackend false none false) slowBegin =
            some s ∧
          s.ended = [0, 1] ∧ s.client.id = some 6 ∧
          dmlBackend.log s.backend 5 = [(1, 0)] :=
    ⟨_, rfl, rfl, rfl, rfl⟩
  have hnumbers :
      Meets (step fun _ => true) keepsNumbers (opened dmlBackend false none false)
        slowBegin := by
    refine meets_of_step rfl rfl ?_
    refine meets_of_step rfl rfl ?_
    refine meets_of_step trivial rfl ?_
    refine meets_of_step rfl rfl ?_
    refine meets_of_step rfl rfl ?_
    refine meets_of_step trivial rfl ?_
    refine meets_of_step rfl rfl ?_
    refine meets_of_step rfl rfl ?_
    refine meets_of_step rfl rfl ?_
    refine meets_of_step trivial rfl ?_
    refine meets_of_step trivial rfl ?_
    exact meets_of_step rfl rfl (meets_nil _ _ _)
  have hapart :
      Meets (step fun _ => true) keepsApart (opened dmlBackend false none false)
        slowBegin := by
    refine meets_of_step rfl rfl ?_
    refine meets_of_step rfl rfl ?_
    refine meets_of_step trivial rfl ?_
    refine meets_of_step rfl rfl ?_
    refine meets_of_step rfl rfl ?_
    refine meets_of_step trivial rfl ?_
    refine meets_of_step rfl rfl ?_
    refine meets_of_step rfl rfl ?_
    refine meets_of_step rfl rfl ?_
    refine meets_of_step trivial rfl ?_
    refine meets_of_step trivial rfl ?_
    exact meets_of_step rfl rfl (meets_nil _ _ _)
  obtain ⟨honce, hexecuted⟩ :=
    executed_once (fun _ => true) (replaying_replays _) false none false
      slowBegin s hrun hnumbers
  exact ⟨s, hrun, hended, hid, hlog, (honce 6).1, hexecuted hapart⟩

/-- An insert that is sent again after its first answer has brought the id is
executed twice. -/
example :
    ∃ s : Exchange dmlBackend,
      run (step fun _ => true) (opened dmlBackend false none false)
          [.client (.runStream true), .client (.reading 0), .receive 0 5,
            .client (.response 0 (some 5) none), .client (.interrupted 0),
            .client (.retry 0 (some [1])), .receive 1 0,
            .client (.ended 0)] = some s ∧
        s.client.id = some 5 ∧ dmlBackend.log s.backend 5 = [(1, 0), (2, 0)] :=
  ⟨_, rfl, rfl, rfl⟩

/-- A batch and the stream before it begin a transaction each: the stream ends with
the id of the one that has not executed it. -/
example :
    ∃ s : Exchange dmlBackend,
      run (step fun _ => true) (opened dmlBackend false none false)
          [.client (.runStream true), .client (.reading 0),
            .client (.batchUpdate 1 true), .receive 0 5, .receive 1 6,
            .client (.batchResponse 1 [some 6] none),
            .client (.response 0 (some 5) none), .client (.ended 0)] =
        some s ∧
        s.ended = [1, 0] ∧ s.client.id = some 6 ∧
        dmlBackend.log s.backend 6 = [(2, 1)] :=
  ⟨_, rfl, rfl, rfl, rfl⟩

end Exchange

end Transaction
end SpannerClient
