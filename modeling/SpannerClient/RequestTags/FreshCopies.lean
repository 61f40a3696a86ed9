import SpannerClient.Machine.Containers
import SpannerClient.RequestTags.Isolation

/-!
# Fresh copies

The run in which every call is given a copy of its options of its own is
performed beside the run with the callers' objects.  It has the same requests in
the same places, and all of them carry the tags of their transactions.

`Copies` relates the states of the two runs: the streams are the same but for the
objects they refer to, and the objects of the second run are each of one call
(`OwnCopy`).  Every call keeps it (`step_copies`), and then a request is sent with the
same tag in both runs exactly if it carries its own in the first
(`Copies.sent_eq_iff`).

The main result is `tags_iff_undisturbed`: the tags sent are those of the run with
fresh copies if and only if no assignment disturbs a request.
-/

namespace SpannerClient
namespace RequestTags

open Machine

variable {transactions : Nat → Transaction}
variable {heap heap' : Heap} {c d : Client}

/-- The call with a copy of its options of its own. -/
def Event.withFreshCopy : Event → Event
  | .update i => .update i
  | .createReadStream i _ => .createReadStream i none
  | .runStream i _ => .runStream i none
  | .makeRequest k => .makeRequest k
  | .batchUpdate i _ => .batchUpdate i none
  | .commit i _ => .commit i none
  | .prepareRequest k => .prepareRequest k

/-! ## Objects of one call -/

/-- The request is for the same transaction, and its object has been created for
it and has its tag. -/
structure OwnCopy
    (transactions : Nat → Transaction) (heap : Heap) (r r' : Request) :
    Prop where
  transaction : r'.transaction = r.transaction
  singleUse : r'.singleUse = r.singleUse
  requestOptions :
    ∃ n < heap.created, r'.requestOptions = .created n ∧
      tagOf (heap.objects (.created n)) =
        expectedTag transactions r.transaction r.singleUse

inductive SameStream
    (transactions : Nat → Transaction) (heap : Heap) :
    Stream → Stream → Prop
  | read
      {r r' : Request}
      (h : OwnCopy transactions heap r r') :
      SameStream transactions heap (.read r) (.read r')
  | waiting
      (i : Nat) (requestOptions : Option Nat) :
      SameStream transactions heap
        (.query i requestOptions none) (.query i none none)
  | query
      {r r' : Request}
      (i : Nat) (requestOptions : Option Nat) (hasId : Bool)
      (h : OwnCopy transactions heap r r') :
      SameStream transactions heap
        (.query i requestOptions (some (r, hasId)))
        (.query i none (some (r', hasId)))

/-- The objects that have been created are kept. -/
structure Extends
    (heap heap' : Heap) : Prop where
  created : heap.created ≤ heap'.created
  objects :
    ∀ n < heap.created,
      heap'.objects (.created n) = heap.objects (.created n)

theorem OwnCopy.mono
    {r r' : Request}
    (h : OwnCopy transactions heap r r') (hext : Extends heap heap') :
    OwnCopy transactions heap' r r' where
  transaction := h.transaction
  singleUse := h.singleUse
  requestOptions := by
    obtain ⟨n, hn, heq, htag⟩ := h.requestOptions
    exact
      ⟨n, Nat.lt_of_lt_of_le hn hext.created, heq,
        (congrArg tagOf (hext.objects n hn)).trans htag⟩

theorem SameStream.mono
    {stream stream' : Stream}
    (h : SameStream transactions heap stream stream')
    (hext : Extends heap heap') :
    SameStream transactions heap' stream stream' := by
  cases h with
  | read h =>
      exact .read (h.mono hext)
  | waiting i requestOptions =>
      exact .waiting i requestOptions
  | query i requestOptions hasId h =>
      exact .query i requestOptions hasId (h.mono hext)

/-- No object is used before it has been created. -/
def Untouched
    (heap : Heap) : Prop :=
  ∀ n, heap.created ≤ n → heap.objects (.created n) = none

/-- Options for a request of the transaction have been created. -/
structure Creates
    (transactions : Nat → Transaction) (i : Nat) (singleUse : Bool)
    (heap : Heap) (result : Heap × Object) : Prop where
  extends_ : Extends heap result.1
  untouched : Untouched result.1
  ownCopy :
    ∀ o, OwnCopy transactions result.1 ⟨i, singleUse, o⟩
      ⟨i, singleUse, result.2⟩

/-- A new object, without an assignment. -/
theorem creates_of_argument
    {i : Nat} {singleUse : Bool}
    (h : Untouched heap)
    (hnone : expectedTag transactions i singleUse = none) :
    Creates transactions i singleUse heap (heap.argument none) where
  extends_ := ⟨Nat.le_succ _, fun _ _ => rfl⟩
  untouched := fun n hn => h n (Nat.le_of_succ_le hn)
  ownCopy := by
    intro o
    refine ⟨rfl, rfl, heap.created, Nat.lt_succ_self _, rfl, ?_⟩
    rw [hnone]
    exact congrArg tagOf (h heap.created (Nat.le_refl _))

theorem creates_of_assign
    {i : Nat} {singleUse : Bool} {value : Option String}
    (h : Untouched heap)
    (hvalue :
      tagOf (some value) = expectedTag transactions i singleUse) :
    Creates transactions i singleUse heap
      ((heap.argument none).1.assign i (.created heap.created) value,
        .created heap.created) where
  extends_ := by
    refine ⟨Nat.le_succ _, ?_⟩
    intro n hn
    refine Function.update_of_ne ?_ _ _
    rintro heq
    exact absurd (Object.created.inj heq) (Nat.ne_of_lt hn)
  untouched := by
    intro n hn
    refine Eq.trans (Function.update_of_ne ?_ _ _)
      (h n (Nat.le_of_succ_le hn))
    rintro heq
    exact absurd (Object.created.inj heq) (Nat.ne_of_gt hn)
  ownCopy := by
    intro o
    refine ⟨rfl, rfl, heap.created, Nat.lt_succ_self _, rfl, ?_⟩
    rw [← hvalue]
    exact congrArg tagOf (Function.update_self _ _ _)

theorem creates_configureTagOptions
    (transactions : Nat → Transaction)
    (h : Untouched heap)
    (i : Nat) (singleUse : Bool) :
    Creates transactions i singleUse heap
      (heap.configureTagOptions transactions i singleUse none) := by
  unfold Heap.configureTagOptions
  cases singleUse with
  | true =>
      exact creates_of_argument h rfl
  | false =>
      cases htag : (transactions i).transactionTag with
      | none =>
          exact creates_of_argument h htag
      | some tag =>
          exact creates_of_assign h (tagOf_transactionTag htag)

theorem creates_assignOptions
    (transactions : Nat → Transaction)
    (h : Untouched heap)
    (i : Nat) :
    Creates transactions i false heap
      (heap.assignOptions transactions i none) := by
  rw [Heap.assignOptions]
  cases hvalue : (transactions i).requestOptions.join with
  | none =>
      refine creates_of_argument h ?_
      change tagOf _ = none
      rw [hvalue]
      rfl
  | some value =>
      refine creates_of_assign h ?_
      change _ = tagOf _
      rw [hvalue]

/-! ## The two runs -/

/-- The two clients, `d` the one whose calls have copies of their own. -/
structure Copies
    (transactions : Nat → Transaction) (c d : Client) : Prop where
  ids : d.ids = c.ids
  streams :
    List.Forall₂ (SameStream transactions d.heap) c.streams d.streams
  pending : List.Forall₂ (OwnCopy transactions d.heap) c.pending d.pending
  sent :
    d.sent =
      c.sent.map fun r =>
        { r with
          transactionTag :=
            expectedTag transactions r.transaction r.singleUse }
  untouched : Untouched d.heap

/-- Each side configures its own object. -/
theorem Copies.creates
    (heap' : Heap) {i : Nat} {singleUse : Bool} {result : Heap × Object}
    (h : Copies transactions c d)
    (hd : Creates transactions i singleUse d.heap result) :
    Copies transactions { c with heap := heap' }
      { d with heap := result.1 } where
  ids := h.ids
  streams := h.streams.imp fun _ _ hstream => hstream.mono hd.extends_
  pending := h.pending.imp fun _ _ hr => hr.mono hd.extends_
  sent := h.sent
  untouched := hd.untouched

theorem Copies.enqueue
    {r r' : Request}
    (h : Copies transactions c d)
    (hr : OwnCopy transactions d.heap r r') :
    Copies transactions (c.enqueue r) (d.enqueue r') where
  ids := h.ids
  streams := h.streams
  pending := forall₂_snoc h.pending hr
  sent := h.sent
  untouched := h.untouched

theorem Copies.isSingleUse
    (h : Copies transactions c d)
    (i : Nat) :
    d.isSingleUse transactions i = c.isSingleUse transactions i := by
  unfold Client.isSingleUse
  rw [h.ids]

theorem Copies.createReadStream
    (h : Copies transactions c d)
    (i : Nat) (requestOptions : Option Nat) :
    Copies transactions (c.createReadStream transactions i requestOptions)
      (d.createReadStream transactions i none) := by
  have hd :=
    creates_configureTagOptions transactions h.untouched i
      (c.isSingleUse transactions i)
  unfold Client.createReadStream
  rw [h.isSingleUse]
  have hcopies := h.creates c.heap hd
  exact
    ⟨hcopies.ids, forall₂_snoc hcopies.streams (.read (hd.ownCopy _)),
      hcopies.pending, hcopies.sent, hcopies.untouched⟩

theorem Copies.sanitizeRequest
    (h : Copies transactions c d)
    (k i : Nat) (requestOptions : Option Nat) :
    Copies transactions
      (c.sanitizeRequest transactions k i requestOptions)
      (d.sanitizeRequest transactions k i none) := by
  have hd :=
    creates_configureTagOptions transactions h.untouched i
      (c.isSingleUse transactions i)
  have hid : decide (i ∈ d.ids) = decide (i ∈ c.ids) := by rw [h.ids]
  unfold Client.sanitizeRequest
  rw [h.isSingleUse, hid]
  refine Copies.enqueue ?_ (hd.ownCopy _)
  have hcopies := h.creates c.heap hd
  exact
    ⟨hcopies.ids,
      forall₂_set hcopies.streams (.query i requestOptions _ (hd.ownCopy _)) k,
      hcopies.pending, hcopies.sent, hcopies.untouched⟩

theorem Copies.makeRequest
    {stream stream' : Stream}
    (h : Copies transactions c d)
    (hstream : SameStream transactions d.heap stream stream') (k : Nat) :
    Copies transactions (c.makeRequest transactions k stream)
      (d.makeRequest transactions k stream') := by
  cases hstream with
  | read hr =>
      exact h.enqueue hr
  | waiting i requestOptions =>
      exact h.sanitizeRequest k i requestOptions
  | query i requestOptions hasId hr =>
      rw [Client.makeRequest, Client.makeRequest, h.ids]
      split
      · exact h.sanitizeRequest k i requestOptions
      · exact h.enqueue hr

theorem Copies.commit
    (h : Copies transactions c d)
    (i : Nat) (requestOptions : Option Nat) :
    Copies transactions (c.commit transactions i requestOptions)
      (d.commit transactions i none) := by
  unfold Client.commit
  by_cases hsend : i ∈ c.ids ∨ !(transactions i).useInRunner
  · have hd :=
      creates_assignOptions transactions h.untouched i
    rw [if_pos hsend, if_pos (by rw [h.ids]; exact hsend)]
    exact (h.creates _ hd).enqueue (hd.ownCopy _)
  · rw [if_neg hsend, if_neg (by rw [h.ids]; exact hsend)]
    exact h

theorem Copies.prepareRequest
    {r r' : Request}
    (h : Copies transactions c d)
    (hr : OwnCopy transactions d.heap r r') (k : Nat) :
    Copies transactions (c.prepareRequest k r) (d.prepareRequest k r') where
  ids := h.ids
  streams := h.streams
  pending := forall₂_eraseIdx h.pending k
  sent := by
    obtain ⟨n, -, heq, htag⟩ := hr.requestOptions
    change d.sent ++ [_] = List.map _ (c.sent ++ [_])
    rw [List.map_append, h.sent, heq, htag, hr.transaction, hr.singleUse]
    rfl
  untouched := h.untouched

theorem step_copies
    {c' : Client} {e : Event}
    (h : Copies transactions c d)
    (hstep : step transactions c e = some c') :
    ∃ d', step transactions d e.withFreshCopy = some d' ∧
      Copies transactions c' d' := by
  cases e with
  | update i =>
      obtain rfl := Option.some.inj hstep
      refine ⟨_, rfl, ?_⟩
      exact
        ⟨congrArg (List.cons i) h.ids, h.streams, h.pending, h.sent,
          h.untouched⟩
  | createReadStream i requestOptions =>
      obtain rfl := Option.some.inj hstep
      exact ⟨_, rfl, h.createReadStream i requestOptions⟩
  | runStream i requestOptions =>
      obtain rfl := Option.some.inj hstep
      refine ⟨_, rfl, ?_⟩
      exact
        ⟨h.ids, forall₂_snoc h.streams (.waiting i requestOptions), h.pending,
          h.sent, h.untouched⟩
  | makeRequest k =>
      obtain ⟨stream, hk, rfl⟩ := Option.map_eq_some_iff.mp hstep
      obtain ⟨stream', hk', hstream⟩ := forall₂_getElem? h.streams hk
      refine ⟨d.makeRequest transactions k stream', ?_, h.makeRequest hstream k⟩
      exact congrArg (Option.map _) hk'
  | batchUpdate i requestOptions =>
      obtain ⟨hwrite, heq⟩ := Option.ite_none_right_eq_some.mp hstep
      obtain rfl := Option.some.inj heq
      refine ⟨d.batchUpdate transactions i none, if_pos hwrite, ?_⟩
      have hd :=
        creates_configureTagOptions transactions h.untouched
          i false
      exact (h.creates _ hd).enqueue (hd.ownCopy _)
  | commit i requestOptions =>
      obtain ⟨hwrite, heq⟩ := Option.ite_none_right_eq_some.mp hstep
      obtain rfl := Option.some.inj heq
      exact
        ⟨d.commit transactions i none, if_pos hwrite,
          h.commit i requestOptions⟩
  | prepareRequest k =>
      obtain ⟨r, hk, rfl⟩ := Option.map_eq_some_iff.mp hstep
      obtain ⟨r', hk', hr⟩ := forall₂_getElem? h.pending hk
      refine ⟨d.prepareRequest k r', ?_, h.prepareRequest hr k⟩
      exact congrArg (Option.map _) hk'

theorem run_copies
    {c' : Client} {es : List Event}
    (h : Copies transactions c d)
    (hrun : run (step transactions) c es = some c') :
    ∃ d', run (step transactions) d (es.map Event.withFreshCopy) = some d' ∧
      Copies transactions c' d' := by
  induction es generalizing c d with
  | nil =>
      obtain rfl := Option.some.inj hrun
      exact ⟨d, rfl, h⟩
  | cons e es ih =>
      obtain ⟨c₁, hstep, htail⟩ := run_cons_success hrun
      obtain ⟨d₁, hstep', h₁⟩ := step_copies h hstep
      obtain ⟨d', hrun', h'⟩ := ih h₁ htail
      refine ⟨d', ?_, h'⟩
      rw [List.map_cons, run_cons, hstep']
      exact hrun'

theorem new_copies :
    Copies transactions {} {} where
  ids := rfl
  streams := List.Forall₂.nil
  pending := List.Forall₂.nil
  sent := rfl
  untouched := fun _ _ => rfl

/-- The requests sent are those of the run with copies exactly if they carry the
tags of their transactions. -/
theorem Copies.sent_eq_iff
    (h : Copies transactions c d) :
    d.sent = c.sent ↔ OwnTags transactions c := by
  rw [h.sent]
  conv_lhs => rhs; rw [← List.map_id c.sent]
  rw [List.map_inj_left]
  refine forall₂_congr fun r _ => ?_
  constructor
  · intro heq
    exact (congrArg Sent.transactionTag heq).symm
  · intro htag
    rw [← htag]
    rfl

/-- The requests carry the tags of their transactions, as they do with copies of
the options, exactly if they are undisturbed. -/
theorem tags_iff_undisturbed
    (transactions : Nat → Transaction)
    (es : List Event) (c : Client)
    (hrun : run (step transactions) {} es = some c) :
    (OwnTags transactions c ↔
        Meets (step transactions) (Undisturbed transactions) {} es) ∧
      ∃ d, run (step transactions) {} (es.map Event.withFreshCopy) = some d ∧
        (d.sent = c.sent ↔
          Meets (step transactions) (Undisturbed transactions) {} es) := by
  have hown := ownTags_iff_undisturbed hrun
  obtain ⟨d, hfresh, hcopies⟩ := run_copies new_copies hrun
  exact ⟨hown, d, hfresh, hcopies.sent_eq_iff.trans hown⟩

/-- A transaction with a tag, and others without. -/
def oneTagged : Nat → Transaction
  | 0 => { readWrite := true, requestOptions := some (some (some "app=a")) }
  | _ => { readWrite := true }

/-- Both are given the same options; the first request is sent before the second
transaction's, which has a tag, is made. -/
def untaggedFirst : List Event :=
  [.update 0, .update 1, .batchUpdate 1 (some 0), .prepareRequest 0,
    .batchUpdate 0 (some 0), .prepareRequest 0]

theorem tags_iff_undisturbed_untaggedFirst :
    ∃ c, run (step oneTagged) {} untaggedFirst = some c ∧
      c.sent = [⟨1, false, none⟩, ⟨0, false, some "app=a"⟩] ∧
      (OwnTags oneTagged c ↔
        Meets (step oneTagged) (Undisturbed oneTagged) {} untaggedFirst) ∧
      ∃ d, run (step oneTagged) {} (untaggedFirst.map Event.withFreshCopy) =
          some d ∧
        (d.sent = c.sent ↔
          Meets (step oneTagged) (Undisturbed oneTagged) {}
            untaggedFirst) := by
  obtain ⟨c, hrun, hsent⟩ :
      ∃ c, run (step oneTagged) {} untaggedFirst = some c ∧
        c.sent = [⟨1, false, none⟩, ⟨0, false, some "app=a"⟩] :=
    ⟨_, rfl, by decide⟩
  exact
    ⟨c, hrun, hsent, tags_iff_undisturbed oneTagged untaggedFirst c hrun⟩

/-- The transaction with a tag comes first. -/
def taggedFirst : List Event :=
  [.update 0, .update 1, .batchUpdate 0 (some 0), .prepareRequest 0,
    .batchUpdate 1 (some 0), .prepareRequest 0]

/-- The tag stays in the options and is sent with the other transaction's
request. -/
theorem taggedFirst_not_ownTags :
    ¬∀ (transactions : Nat → Transaction) (es : List Event) (c : Client),
        run (step transactions) {} es = some c →
          OwnTags transactions c := by
  intro h
  obtain ⟨c, hrun, hsent⟩ :
      ∃ c, run (step oneTagged) {} taggedFirst = some c ∧
        ⟨1, false, some "app=a"⟩ ∈ c.sent :=
    ⟨_, rfl, by decide⟩
  have htag := h oneTagged taggedFirst c hrun _ hsent
  exact absurd htag (by decide)

end RequestTags
end SpannerClient
