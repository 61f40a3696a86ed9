import Mathlib.Data.List.Basic
import SpannerClient.RequestTags.Basic

/-!
# Tags and shared options

A request should carry the tag of its transaction, and none if it is single-use.
What it carries is what its object has when it is prepared, and that is the tag
of the transaction to which the last assignment belongs.  So the requests carry
their own tags exactly when every request is prepared while the last assignment
to its object is of a transaction with the same tag, or there is none and the
request has no tag either (`ownTags_iff_undisturbed`).

`Tagged` is the invariant of the objects, and `step_ownTags_iff` the step.  Requests that
have been sent are not looked at again (`sent_of_run`).
-/

namespace SpannerClient
namespace RequestTags

open Machine

variable {transactions : Nat → Transaction}

/-- The tag of a request of the transaction. -/
def expectedTag
    (transactions : Nat → Transaction) (i : Nat) (singleUse : Bool) :
    Option String :=
  if singleUse then none else (transactions i).transactionTag

/-- Every request that has been sent carries the tag of its transaction, and none
if it is single-use. -/
def OwnTags
    (transactions : Nat → Transaction) (c : Client) : Prop :=
  ∀ r ∈ c.sent,
    r.transactionTag = expectedTag transactions r.transaction r.singleUse

/-- The transaction whose tag was the last to be assigned to the object. -/
def Heap.lastTagging
    (heap : Heap) (o : Object) : Option Nat :=
  ((heap.taggings.filter fun tagging => tagging.1 = o).getLast?).map Prod.snd

/-- A request is prepared while the last assignment to its object, if any, is of
a transaction with the same tag. -/
def Undisturbed
    (transactions : Nat → Transaction) (c : Client) (e : Event) : Prop :=
  ∀ k r, e = .prepareRequest k → c.pending[k]? = some r →
    (c.heap.lastTagging r.requestOptions).bind
        (fun i => (transactions i).transactionTag) =
      expectedTag transactions r.transaction r.singleUse

variable {heap : Heap} {c d : Client}

/-! ## The objects -/

/-- Every object has the tag of its last assignment. -/
def Tagged
    (transactions : Nat → Transaction) (heap : Heap) : Prop :=
  ∀ o, tagOf (heap.objects o) =
    (heap.lastTagging o).bind fun i => (transactions i).transactionTag

theorem lastTagging_assign
    (heap : Heap) (i : Nat) (o o' : Object) (value : Option String) :
    (heap.assign i o value).lastTagging o' =
      if o' = o then some i else heap.lastTagging o' := by
  unfold Heap.lastTagging Heap.assign
  by_cases ho : o' = o
  · subst ho
    simp
  · have hne : o ≠ o' := fun heq => ho heq.symm
    simp [ho, hne]

theorem Tagged.assign
    (h : Tagged transactions heap)
    {i : Nat} {value : Option String}
    (hvalue : tagOf (some value) = (transactions i).transactionTag)
    (o : Object) :
    Tagged transactions (heap.assign i o value) := by
  intro o'
  rw [lastTagging_assign]
  by_cases ho : o' = o
  · subst ho
    rw [if_pos rfl, Option.bind_some, ← hvalue]
    simp [Heap.assign]
  · rw [if_neg ho, ← h o']
    simp [Heap.assign, ho]

theorem Tagged.argument
    (h : Tagged transactions heap)
    (requestOptions : Option Nat) :
    Tagged transactions (heap.argument requestOptions).1 := by
  cases requestOptions with
  | none =>
      exact h
  | some n =>
      exact h

/-- A tag that is assigned is not `''`. -/
theorem tagOf_transactionTag
    {t : Transaction} {tag : String}
    (htag : t.transactionTag = some tag) :
    tagOf (some (some tag)) = t.transactionTag := by
  rw [htag]
  have hne := (Option.filter_eq_some_iff.mp htag).2
  simpa [tagOf] using hne

theorem Tagged.configureTagOptions
    (h : Tagged transactions heap)
    (i : Nat) (singleUse : Bool) (requestOptions : Option Nat) :
    Tagged transactions
      (heap.configureTagOptions transactions i singleUse requestOptions).1 := by
  unfold Heap.configureTagOptions
  dsimp only
  split
  · rename_i htag
    exact (h.argument requestOptions).assign (tagOf_transactionTag htag) _
  · exact h.argument requestOptions

theorem Tagged.assignOptions
    (h : Tagged transactions heap)
    (i : Nat) (requestOptions : Option Nat) :
    Tagged transactions
      (heap.assignOptions transactions i requestOptions).1 := by
  unfold Heap.assignOptions
  dsimp only
  split
  · rename_i value hvalue
    refine (h.argument requestOptions).assign ?_ _
    rw [Transaction.transactionTag, hvalue]
  · exact h.argument requestOptions

theorem Tagged.makeRequest
    (h : Tagged transactions c.heap)
    (k : Nat) (stream : Stream) :
    Tagged transactions (c.makeRequest transactions k stream).heap := by
  cases stream with
  | read reqOpts =>
      exact h
  | query i requestOptions reqOpts =>
      cases reqOpts with
      | none =>
          exact h.configureTagOptions i _ requestOptions
      | some reqOpts =>
          rw [Client.makeRequest]
          split
          · exact h.configureTagOptions i _ requestOptions
          · exact h

theorem Tagged.commit
    (h : Tagged transactions c.heap)
    (i : Nat) (requestOptions : Option Nat) :
    Tagged transactions (c.commit transactions i requestOptions).heap := by
  rw [Client.commit]
  split
  · exact h.assignOptions i requestOptions
  · exact h

theorem step_tagged
    {e : Event}
    (h : Tagged transactions c.heap)
    (hstep : step transactions c e = some d) :
    Tagged transactions d.heap := by
  cases e with
  | update i =>
      obtain rfl := Option.some.inj hstep
      exact h
  | createReadStream i requestOptions =>
      obtain rfl := Option.some.inj hstep
      exact h.configureTagOptions i _ requestOptions
  | runStream i requestOptions =>
      obtain rfl := Option.some.inj hstep
      exact h
  | makeRequest k =>
      obtain ⟨stream, -, rfl⟩ := Option.map_eq_some_iff.mp hstep
      exact h.makeRequest k stream
  | batchUpdate i requestOptions =>
      obtain ⟨-, heq⟩ := Option.ite_none_right_eq_some.mp hstep
      obtain rfl := Option.some.inj heq
      exact h.configureTagOptions i false requestOptions
  | commit i requestOptions =>
      obtain ⟨-, heq⟩ := Option.ite_none_right_eq_some.mp hstep
      obtain rfl := Option.some.inj heq
      exact h.commit i requestOptions
  | prepareRequest k =>
      obtain ⟨r, -, rfl⟩ := Option.map_eq_some_iff.mp hstep
      exact h

/-! ## The requests that are sent -/

theorem makeRequest_sent
    (c : Client) (k : Nat) (stream : Stream) :
    (c.makeRequest transactions k stream).sent = c.sent := by
  cases stream with
  | read reqOpts =>
      rfl
  | query i requestOptions reqOpts =>
      cases reqOpts with
      | none =>
          rfl
      | some reqOpts =>
          rw [Client.makeRequest]
          split <;> rfl

theorem commit_sent
    (c : Client) (i : Nat) (requestOptions : Option Nat) :
    (c.commit transactions i requestOptions).sent = c.sent := by
  rw [Client.commit]
  split <;> rfl

/-- Only `prepareRequest` sends. -/
theorem step_sent
    {e : Event}
    (hstep : step transactions c e = some d) :
    (d.sent = c.sent ∧ ∀ k, e ≠ .prepareRequest k) ∨
      ∃ k r, e = .prepareRequest k ∧ c.pending[k]? = some r ∧
        d = c.prepareRequest k r := by
  cases e with
  | update i =>
      obtain rfl := Option.some.inj hstep
      exact .inl ⟨rfl, nofun⟩
  | createReadStream i requestOptions =>
      obtain rfl := Option.some.inj hstep
      exact .inl ⟨rfl, nofun⟩
  | runStream i requestOptions =>
      obtain rfl := Option.some.inj hstep
      exact .inl ⟨rfl, nofun⟩
  | makeRequest k =>
      obtain ⟨stream, -, rfl⟩ := Option.map_eq_some_iff.mp hstep
      exact .inl ⟨makeRequest_sent c k stream, nofun⟩
  | batchUpdate i requestOptions =>
      obtain ⟨-, heq⟩ := Option.ite_none_right_eq_some.mp hstep
      obtain rfl := Option.some.inj heq
      exact .inl ⟨rfl, nofun⟩
  | commit i requestOptions =>
      obtain ⟨-, heq⟩ := Option.ite_none_right_eq_some.mp hstep
      obtain rfl := Option.some.inj heq
      exact .inl ⟨commit_sent c i requestOptions, nofun⟩
  | prepareRequest k =>
      obtain ⟨r, hr, rfl⟩ := Option.map_eq_some_iff.mp hstep
      exact .inr ⟨k, r, rfl, hr, rfl⟩

/-- The request sent carries its own tag exactly if it is undisturbed. -/
theorem step_ownTags_iff
    {e : Event}
    (htagged : Tagged transactions c.heap)
    (hown : OwnTags transactions c)
    (hstep : step transactions c e = some d) :
    OwnTags transactions d ↔ Undisturbed transactions c e := by
  rcases step_sent hstep with ⟨hsent, hne⟩ | ⟨k, r, rfl, hr, rfl⟩
  · constructor
    · intro _ k r heq _
      exact absurd heq (hne k)
    · intro _ r hr
      rw [hsent] at hr
      exact hown r hr
  · constructor
    · intro hall k' r' heq hr'
      obtain rfl := Event.prepareRequest.inj heq
      obtain rfl := Option.some.inj (hr.symm.trans hr')
      rw [← htagged]
      exact hall _ (List.mem_append_right _ List.mem_cons_self)
    · intro hundisturbed r' hr'
      rcases List.mem_append.mp hr' with hold | hnew
      · exact hown r' hold
      · obtain rfl := List.mem_singleton.mp hnew
        exact (htagged _).trans (hundisturbed k r rfl hr)

/-- What has been sent stays sent. -/
theorem sent_of_run
    {es : List Event}
    (hrun : run (step transactions) c es = some d) :
    c.sent <+: d.sent := by
  refine
    run_invariant (I := fun t => c.sent <+: t.sent) ?_ (List.prefix_refl _)
      hrun
  intro s e t hs hstep
  rcases step_sent hstep with ⟨hsent, -⟩ | ⟨k, r, -, -, rfl⟩
  · rw [hsent]
    exact hs
  · exact hs.trans (List.prefix_append _ _)

theorem always_ownTags
    {es : List Event}
    (hrun : run (step transactions) c es = some d) :
    Always (step transactions) (OwnTags transactions) c es ↔
      OwnTags transactions d := by
  constructor
  · intro h
    exact h es (List.prefix_refl es) d hrun
  · rintro hown pre ⟨rest, rfl⟩ t hpre
    rw [run_append, hpre, Option.bind_some] at hrun
    intro r hr
    exact hown r ((sent_of_run hrun).subset hr)

/-- The requests carry their own tags exactly if they are undisturbed. -/
theorem ownTags_iff_undisturbed
    {es : List Event}
    (hrun : run (step transactions) {} es = some c) :
    OwnTags transactions c ↔
      Meets (step transactions) (Undisturbed transactions) {} es := by
  rw [← always_ownTags hrun]
  refine
    always_iff_meets (I := fun c => Tagged transactions c.heap)
      (fun _ _ _ h hstep => step_tagged h hstep)
      (fun _ _ _ htagged hown hstep => step_ownTags_iff htagged hown hstep)
      ?_ ?_ hrun
  · intro o
    rfl
  · intro r hr
    cases hr

end RequestTags
end SpannerClient
