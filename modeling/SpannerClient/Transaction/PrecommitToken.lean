import SpannerClient.Transaction.Events

/-!
# The precommit token of a transaction

Every response may carry a precommit token, and the transaction keeps one of
them.  Whatever the order of the responses, it is the one with the highest
`seqNum` received so far (`Highest`, kept by every event: `step_highest`).

An event changes the token in one way only, by `_updatePrecommitToken` with the
token that it brings (`Evolves`, `step_evolves`), so that the later modules need not
look at the events again.
-/

namespace SpannerClient
namespace Transaction

/-- The token kept is the highest of those received, if any was. -/
def Highest
    (latest : Option PrecommitToken) (received : List PrecommitToken) : Prop :=
  match latest with
  | none => received = []
  | some token =>
      token ∈ received ∧ ∀ other ∈ received, other.seqNum ≤ token.seqNum

theorem highest_updatePrecommitToken
    {latest : Option PrecommitToken} {received : List PrecommitToken}
    (h : Highest latest received)
    (precommitToken : Option PrecommitToken) :
    Highest (updatePrecommitToken latest precommitToken)
      (received ++ precommitToken.toList) := by
  cases latest with
  | none =>
      obtain rfl : received = [] := h
      cases precommitToken with
      | none => rfl
      | some token => simp [updatePrecommitToken, Highest]
  | some token =>
      obtain ⟨hmem, hmax⟩ := h
      cases precommitToken with
      | none => simpa [updatePrecommitToken, Highest] using ⟨hmem, hmax⟩
      | some other =>
          unfold updatePrecommitToken
          dsimp only
          split
          · rename_i hlt
            refine ⟨by simp, ?_⟩
            intro a ha
            rcases List.mem_append.mp ha with ha | ha
            · have hle := hmax a ha
              omega
            · obtain rfl := List.mem_singleton.mp ha
              omega
          · rename_i hle
            refine ⟨List.mem_append_left _ hmem, ?_⟩
            intro a ha
            rcases List.mem_append.mp ha with ha | ha
            · exact hmax a ha
            · obtain rfl := List.mem_singleton.mp ha
              omega

/-- The token of the response that an event processes. -/
def Event.precommitToken : Event → Option PrecommitToken
  | .response _ _ precommitToken => precommitToken
  | .batchResponse _ _ precommitToken => precommitToken
  | .onBegin _ precommitToken => precommitToken
  | _ => none

@[simp] theorem updatePrecommitToken_none
    (latest : Option PrecommitToken) :
    updatePrecommitToken latest none = latest := by
  cases latest <;> rfl

/-- What every event keeps or can only set. -/
structure Evolves
    (p t : Transaction) : Prop where
  mode : t.mode = p.mode
  useInRunner : t.useInRunner = p.useInRunner
  latestPreCommitToken : t.latestPreCommitToken = p.latestPreCommitToken
  id : p.id.isSome = true → t.id.isSome = true
  beginFailed : p.beginFailed = true → t.beginFailed = true

variable {p q t : Transaction}

theorem Evolves.refl
    (p : Transaction) :
    Evolves p p :=
  ⟨rfl, rfl, rfl, fun h => h, fun h => h⟩

theorem Evolves.trans
    (h : Evolves p q) (h' : Evolves q t) :
    Evolves p t where
  mode := h'.mode.trans h.mode
  useInRunner := h'.useInRunner.trans h.useInRunner
  latestPreCommitToken :=
    h'.latestPreCommitToken.trans h.latestPreCommitToken
  id := fun hid => h'.id (h.id hid)
  beginFailed := fun hfailed => h'.beginFailed (h.beginFailed hfailed)

theorem Untouched.evolves
    (h : Untouched p t)
    (hid : p.id.isSome = true → t.id.isSome = true) :
    Evolves p t :=
  ⟨h.mode, h.useInRunner, h.latestPreCommitToken, hid,
    fun hfailed => h.beginFailed.trans hfailed⟩

theorem update_evolves
    (p : Transaction) (id : TransactionId) :
    Evolves p (p.update id) := by
  obtain ⟨hid, -, h⟩ := update_frame p id
  refine h.evolves fun _ => ?_
  rw [hid]
  rfl

theorem updateOnce_evolves
    (p : Transaction) (transaction : Option TransactionId) :
    Evolves p (p.updateOnce transaction) := by
  cases transaction with
  | none =>
      exact Evolves.refl p
  | some id =>
      unfold updateOnce
      dsimp only
      split
      · exact update_evolves p id
      · exact Evolves.refl p

theorem foldl_updateOnce_evolves
    (transactions : List (Option TransactionId)) (p : Transaction) :
    Evolves p (transactions.foldl updateOnce p) := by
  induction transactions generalizing p with
  | nil =>
      exact Evolves.refl p
  | cons transaction transactions ih =>
      exact (updateOnce_evolves p transaction).trans (ih _)

theorem requestFn_evolves
    (p : Transaction) (i : Nat) (resumeToken : Option ResumeToken) :
    Evolves p (p.requestFn i resumeToken) := by
  rw [requestFn]
  split
  · exact Evolves.refl p
  · split
    · exact ⟨rfl, rfl, rfl, fun h => h, fun h => h⟩
    · obtain ⟨hid, -, h⟩ := (requested_makeRequest p i resumeToken).frame
      exact h.evolves fun hsome => hid ▸ hsome

theorem stop_evolves
    (p : Transaction) (i : Nat) (s : Statement)
    (phase : StreamPhase) (failed : Bool) :
    Evolves p (p.stop i s phase failed) :=
  ⟨rfl, rfl, rfl, fun h => h, fun h => by simp [stop, h]⟩

theorem onError_evolves
    (p : Transaction) (error : ServiceError) :
    Evolves p (p.onError error) := by
  rw [onError]
  split
  · exact ⟨rfl, rfl, rfl, fun h => h, fun h => h⟩
  · exact Evolves.refl p

theorem runStream_evolves
    (p : Transaction) (valid : Bool) :
    Evolves p (p.runStream valid) := by
  rw [runStream]
  rcases wrapWithIdWaiter_cases p with
    ⟨-, hp, -⟩ | ⟨-, hp, -⟩ | ⟨-, hp, -⟩ <;>
  · dsimp only
    rw [hp]
    exact ⟨rfl, rfl, rfl, fun h => h, fun h => h⟩

theorem createReadStream_evolves
    (p : Transaction) :
    Evolves p p.createReadStream := by
  rw [createReadStream]
  rcases wrapWithIdWaiter_cases p with
    ⟨-, hp, -⟩ | ⟨-, hp, -⟩ | ⟨-, hp, -⟩ <;>
  · dsimp only
    rw [hp]
    exact ⟨rfl, rfl, rfl, fun h => h, fun h => h⟩

theorem batchUpdate_evolves
    (p : Transaction) (queries : Nat) (valid : Bool) :
    Evolves p (p.batchUpdate queries valid) := by
  rw [batchUpdate]
  split
  · exact Evolves.refl p
  · exact ⟨rfl, rfl, rfl, fun h => h, fun h => h⟩

/-- Every event updates the token with the one it has received, and otherwise
only evolves the transaction. -/
theorem step_evolves
    {e : Event}
    (hstep : step p e = some t) :
    Evolves
      { p with
        latestPreCommitToken :=
          updatePrecommitToken p.latestPreCommitToken e.precommitToken }
      t := by
  have hquiet :
      e.precommitToken = none → Evolves p t →
        Evolves
          { p with
            latestPreCommitToken :=
              updatePrecommitToken p.latestPreCommitToken
                e.precommitToken }
          t := by
    intro hnone h
    rw [hnone, updatePrecommitToken_none]
    exact h
  cases e with
  | runStream valid =>
      obtain rfl := Option.some.inj hstep
      exact hquiet rfl (runStream_evolves p valid)
  | createReadStream =>
      obtain rfl := Option.some.inj hstep
      exact hquiet rfl (createReadStream_evolves p)
  | reading i =>
      obtain ⟨s, -, -, rfl⟩ := atStatement_some hstep
      exact hquiet rfl (requestFn_evolves p i none)
  | response i transaction precommitToken =>
      obtain ⟨s, -, -, rfl⟩ := atStatement_some hstep
      exact updateOnce_evolves _ transaction
  | interrupted i =>
      obtain ⟨s, -, -, rfl⟩ := atStatement_some hstep
      exact hquiet rfl (stop_evolves p i s _ _)
  | retry i resumeToken =>
      obtain ⟨s, -, -, rfl⟩ := atStatement_some hstep
      exact hquiet rfl (requestFn_evolves p i resumeToken)
  | failed i error =>
      obtain ⟨s, -, -, rfl⟩ := atStatement_some hstep
      exact
        hquiet rfl
          ((stop_evolves p i s .done true).trans (onError_evolves _ error))
  | ended i =>
      obtain ⟨s, -, -, rfl⟩ := atStatement_some hstep
      exact hquiet rfl (stop_evolves p i s _ _)
  | batchUpdate queries valid =>
      simp only [step] at hstep
      split at hstep
      · obtain rfl := Option.some.inj hstep
        exact hquiet rfl (batchUpdate_evolves p queries valid)
      · cases hstep
  | batchResponse i transactions precommitToken =>
      obtain ⟨s, -, -, rfl⟩ := atStatement_some hstep
      have hstop := stop_evolves p i s .done false
      have hfold :=
        foldl_updateOnce_evolves transactions
          { p.stop i s .done false with
            latestPreCommitToken :=
              updatePrecommitToken
                (p.stop i s .done false).latestPreCommitToken
                precommitToken }
      exact
        ⟨hfold.mode, hfold.useInRunner, hfold.latestPreCommitToken,
          hfold.id,
          fun hfailed => hfold.beginFailed (hstop.beginFailed hfailed)⟩
  | batchFailed i error =>
      obtain ⟨s, -, -, rfl⟩ := atStatement_some hstep
      exact hquiet rfl (stop_evolves p i s _ _)
  | begin =>
      obtain rfl := Option.some.inj hstep
      exact hquiet rfl ⟨rfl, rfl, rfl, fun h => h, fun h => h⟩
  | onBegin id precommitToken =>
      simp only [step] at hstep
      split at hstep
      · obtain rfl := Option.some.inj hstep
        have h :=
          update_evolves
            { p with
              begins := p.begins - 1
              latestPreCommitToken :=
                updatePrecommitToken p.latestPreCommitToken
                  precommitToken }
            id
        exact
          ⟨h.mode, h.useInRunner, h.latestPreCommitToken, h.id,
            h.beginFailed⟩
      · cases hstep
  | beginFailed error =>
      simp only [step] at hstep
      split at hstep
      · obtain rfl := Option.some.inj hstep
        exact hquiet rfl ⟨rfl, rfl, rfl, fun h => h, fun h => h⟩
      · cases hstep

/-- Whatever the order of the responses, the token kept is the highest. -/
theorem step_highest
    {e : Event} {received : List PrecommitToken}
    (h : Highest p.latestPreCommitToken received)
    (hstep : step p e = some t) :
    Highest t.latestPreCommitToken
      (received ++ e.precommitToken.toList) := by
  rw [(step_evolves hstep).latestPreCommitToken]
  exact highest_updatePrecommitToken h e.precommitToken

end Transaction
end SpannerClient
