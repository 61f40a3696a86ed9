import SpannerClient.MultiplexedSession.SingleFlight

/-!
# The session is refreshed

The interval is set by what follows a creation in `createSession`, and by
nothing else.  A session that `_getSession` has created alone, after the
creation at start-up failed, is stored without it.

`Refreshed` is what has to hold of every state.  `Maintains` says which of the
steps keep it: the promise of a successful creation must not be released with no
interval set and no call of `createSession` left that would set it.

While a creation with an outcome still holds the lock nothing can be told yet, so the
invariant is the weaker `Cared`; each method of the class keeps it.  The main result
is `refreshed_iff_maintains`, for every run.
-/

namespace SpannerClient
namespace MultiplexedSession

open Machine

variable {σ : Type} {s t : MultiplexedSession σ}

/-- The interval is set. -/
def Armed
    (s : MultiplexedSession σ) : Prop :=
  ∃ handle, s.refreshHandle = some handle ∧ handle ∈ s.intervals

/-- A call of `createSession` awaits a creation that has succeeded. -/
def Arming
    (s : MultiplexedSession σ) : Prop :=
  ∃ w ∈ s.waiters, w.caller = .createSession ∧
    ∃ c, s.creations[w.creation]? = some c ∧ c.succeeded = true

/-- The lock is set, or a call of `createSession` has yet to learn that its
creation has succeeded. -/
def CreationInFlight
    (s : MultiplexedSession σ) : Prop :=
  s.sharedMuxSessionWaitPromise.isSome = true ∨ Arming s

/-- With no creation in flight, a stored session is being refreshed. -/
def Refreshed
    (s : MultiplexedSession σ) : Prop :=
  ¬CreationInFlight s → s.multiplexedSession.isSome = true → Armed s

/-- A creation that brings a session ends with the interval set, or with a call
of `createSession` that will set it. -/
def Maintains
    (s : MultiplexedSession σ) : Event σ → Prop
  | .release k =>
      (∃ session, s.creations[k]? = some (.processed (.ok session))) →
        Armed s ∨ Arming s
  | _ => True

/-- A stored session is refreshed, will be, or its creation still holds the
lock. -/
def Cared
    (s : MultiplexedSession σ) : Prop :=
  s.multiplexedSession.isSome = true →
    Armed s ∨ Arming s ∨
      ∃ (k : Nat) (session : σ),
        s.creations[k]? = some (.processed (.ok session))

/-- A released lock belongs to no creation with an outcome. -/
theorem Cared.refreshed
    (hinv : Inv s)
    (h : Cared s) :
    Refreshed s := by
  intro hnot hsome
  rcases h hsome with harmed | harming | ⟨k, session, hk⟩
  · exact harmed
  · exact absurd (Or.inr harming) hnot
  · have hlock := hinv.locked k _ hk rfl
    exact absurd (Or.inl (by simp [hlock])) hnot

/-- Calls that only add to the waiters and the creations change nothing here. -/
theorem Cared.mono
    (h : Cared s)
    (hsession : t.multiplexedSession = s.multiplexedSession)
    (hhandle : t.refreshHandle = s.refreshHandle)
    (hintervals : t.intervals = s.intervals)
    (hwaiters : ∀ w ∈ s.waiters, w ∈ t.waiters)
    (hcreations :
      ∀ (k : Nat) c, s.creations[k]? = some c → c.succeeded = true →
        t.creations[k]? = some c) :
    Cared t := by
  intro hsome
  rw [hsession] at hsome
  rcases h hsome with ⟨handle, hset, hmem⟩ | ⟨w, hw, hcaller, c, hc, hok⟩ |
    ⟨k, session, hk⟩
  · exact Or.inl ⟨handle, hhandle ▸ hset, hintervals ▸ hmem⟩
  · exact
      Or.inr (Or.inl ⟨w, hwaiters w hw, hcaller, c, hcreations _ c hc hok, hok⟩)
  · exact Or.inr (Or.inr ⟨k, session, hcreations k _ hk rfl⟩)

theorem Cared.createSession
    (h : Cared s) (caller : Caller) :
    Cared (s.createSession caller) := by
  cases hlock : s.sharedMuxSessionWaitPromise with
  | some k =>
      rw [createSession_of_held hlock]
      exact h.mono rfl rfl rfl (fun w hw => List.mem_append_left _ hw)
        (fun k c hc _ => hc)
  | none =>
      rw [createSession_of_free hlock]
      refine h.mono rfl rfl rfl (fun w hw => List.mem_append_left _ hw) ?_
      intro k c hc _
      exact getElem?_snoc_of_some hc _

/-- `_maintain` sets the interval. -/
theorem armed_maintain
    (s : MultiplexedSession σ) :
    Armed s.maintain :=
  ⟨s.intervalsSet, rfl, by simp [maintain]⟩

theorem Cared.getSession
    (h : Cared s) (call : Nat) :
    Cared (s.getSession call) := by
  cases hsession : s.multiplexedSession with
  | some session =>
      rw [MultiplexedSession.getSession]
      rw [hsession]
      exact h.mono rfl rfl rfl (fun w hw => hw) (fun k c hc _ => hc)
  | none =>
      rw [getSession_of_none hsession]
      exact h.createSession (.getSession call)

theorem Cared.processResponse
    (h : Cared s)
    {k : Nat}
    (hk : s.creations[k]? = some .requested)
    (result : Except ServiceError σ) :
    Cared (s.processResponse k result) := by
  have hlt := (List.getElem?_eq_some_iff.mp hk).1
  cases result with
  | ok session =>
      intro _
      exact
        Or.inr (Or.inr
          ⟨k, session, by simp [MultiplexedSession.processResponse, hlt]⟩)
  | error error =>
      refine h.mono rfl rfl rfl (fun w hw => hw) ?_
      intro j c hc hok
      rw [MultiplexedSession.processResponse, List.getElem?_set_ne]
      · exact hc
      · rintro rfl
        rw [hk, Option.some.injEq] at hc
        subst hc
        cases hok

/-- Releasing the lock changes nothing for the calls that wait. -/
theorem arming_release
    {k : Nat} {result : Except ServiceError σ}
    (hk : s.creations[k]? = some (.processed result)) :
    Arming (s.release k result) ↔ Arming s := by
  have hlt := (List.getElem?_eq_some_iff.mp hk).1
  have hsame :
      (Creation.settled result).succeeded =
        (Creation.processed result).succeeded := by
    cases result <;> rfl
  constructor
  · rintro ⟨w, hw, hcaller, c, hc, hok⟩
    rcases getElem?_set_some hc with ⟨heq, rfl⟩ | ⟨-, hc⟩
    · exact ⟨w, hw, hcaller, _, by rw [heq]; exact hk, hsame ▸ hok⟩
    · exact ⟨w, hw, hcaller, c, hc, hok⟩
  · rintro ⟨w, hw, hcaller, c, hc, hok⟩
    refine ⟨w, hw, hcaller, ?_⟩
    by_cases heq : w.creation = k
    · rw [heq, hk, Option.some.injEq] at hc
      subst hc
      exact
        ⟨.settled result, by simp [MultiplexedSession.release, heq, hlt],
          hsame ▸ hok⟩
    · refine ⟨c, ?_, hok⟩
      rw [MultiplexedSession.release, List.getElem?_set_ne (Ne.symm heq)]
      exact hc

theorem Cared.release
    (hinv : Inv s)
    (h : Cared s)
    {k : Nat} {result : Except ServiceError σ}
    (hk : s.creations[k]? = some (.processed result))
    (hmaintains : Maintains s (.release k)) :
    Cared (s.release k result) := by
  intro hsome
  have hcare : Armed s ∨ Arming s := by
    cases result with
    | ok session => exact hmaintains ⟨session, hk⟩
    | error error =>
        rcases h hsome with harmed | harming | ⟨j, session, hj⟩
        · exact Or.inl harmed
        · exact Or.inr harming
        · have hlockj := hinv.locked j _ hj rfl
          have hlockk := hinv.locked k _ hk rfl
          rw [hlockj, Option.some.injEq] at hlockk
          subst hlockk
          rw [hk] at hj
          cases hj
  rcases hcare with harmed | harming
  · exact Or.inl harmed
  · exact Or.inr (Or.inl ((arming_release hk).2 harming))

theorem Cared.proceed
    (h : Cared s)
    {position : Nat} {w : Waiter} {result : Except ServiceError σ}
    (hw : s.waiters[position]? = some w)
    (hk : s.creations[w.creation]? = some (.settled result)) :
    Cared
      (proceed { s with waiters := s.waiters.eraseIdx position }
        w result) := by
  by_cases harms :
      w.caller = .createSession ∧ ∃ session, result = .ok session
  · obtain ⟨hcaller, session, rfl⟩ := harms
    intro _
    refine Or.inl ?_
    simp only [MultiplexedSession.proceed, hcaller]
    exact armed_maintain _
  · -- Another call goes on; those that will set the interval still wait.
    have hrest :
        Cared { s with waiters := s.waiters.eraseIdx position } := by
      intro hsome
      rcases h hsome with harmed | ⟨v, hv, hcaller, c, hc, hok⟩ | hprocessed
      · exact Or.inl harmed
      · refine Or.inr (Or.inl ⟨v, ?_, hcaller, c, hc, hok⟩)
        obtain ⟨j, hj⟩ := List.getElem?_of_mem hv
        refine List.mem_eraseIdx_iff_getElem?.mpr ⟨j, ?_, hj⟩
        rintro rfl
        rw [hw, Option.some.injEq] at hj
        subst hj
        rw [hk, Option.some.injEq] at hc
        subst hc
        cases result with
        | ok session => exact harms ⟨hcaller, session, rfl⟩
        | error error => cases hok
      · exact Or.inr (Or.inr hprocessed)
    cases hcaller : w.caller with
    | createSession =>
        cases result with
        | ok session => exact absurd ⟨hcaller, session, rfl⟩ harms
        | error error =>
            simpa only [MultiplexedSession.proceed, hcaller] using hrest
    | getSession call =>
        cases result <;>
          simp only [MultiplexedSession.proceed, hcaller] <;>
          exact hrest.mono rfl rfl rfl (fun _ hv => hv) (fun _ _ hc _ => hc)
    | interval =>
        cases result <;>
          simpa only [MultiplexedSession.proceed, hcaller] using hrest

theorem cared_step
    {e : Event σ}
    (hinv : Inv s)
    (h : Cared s)
    (hmaintains : Maintains s e)
    (hstep : step s e = some t) :
    Cared t := by
  cases steps_of_step hstep with
  | createSession => exact h.createSession .createSession
  | getSession call => exact h.getSession call
  | interval hset => exact h.createSession .interval
  | response result hk => exact h.processResponse hk result
  | release hk => exact h.release hinv hk hmaintains
  | resume hw hk => exact h.proceed hw hk

/-- A step that does not maintain leaves a session nobody will refresh. -/
theorem not_refreshed_step
    {e : Event σ}
    (hinv : Inv s)
    (hnot : ¬Maintains s e)
    (hstep : step s e = some t) :
    ¬Refreshed t := by
  cases e with
  | release k =>
      cases steps_of_step hstep with
      | @release _ result hk =>
          simp only [Maintains] at hnot
          push Not at hnot
          obtain ⟨⟨session, hsession⟩, hunarmed, hunarming⟩ := hnot
          intro hrefreshed
          refine hunarmed (hrefreshed ?_ (hinv.stored k _ hsession rfl))
          rintro (hlock | harming)
          · cases hlock
          · exact hunarming ((arming_release hk).1 harming)
  | _ => exact absurd trivial hnot

theorem cared_initial :
    Cared ({} : MultiplexedSession σ) := by
  intro hsome
  cases hsome

/--
A stored session is being refreshed in every state of a run in which no creation
is in flight, exactly when every creation that brings a session ends with the
interval set or awaited by a call of `createSession`.
-/
theorem refreshed_iff_maintains
    {es : List (Event σ)}
    (hrun : run step {} es = some s) :
    Always step Refreshed {} es ↔ Meets step Maintains {} es :=
  always_iff_meets_of_stronger
    (fun _ _ _ h hstep => inv_step h hstep)
    (fun _ _ _ hinv h hmaintains hstep => cared_step hinv h hmaintains hstep)
    (fun _ _ _ hinv _ hnot hstep => not_refreshed_step hinv hnot hstep)
    (fun _ hinv h => h.refreshed hinv)
    inv_initial cared_initial hrun

/-- The creation at start-up succeeds, and a call uses its session. -/
def startUp : List (Event Nat) :=
  [.createSession, .getSession 0, .response 0 (.ok 7), .release 0,
    .resume 1, .resume 0, .interval 0]

theorem refreshed_iff_maintains_startUp :
    Always step Refreshed ({} : MultiplexedSession Nat) startUp := by
  have hrun : run step {} startUp = some _ := rfl
  refine (refreshed_iff_maintains hrun).2 ?_
  refine meets_of_step trivial rfl ?_
  refine meets_of_step trivial rfl ?_
  refine meets_of_step trivial rfl ?_
  refine meets_of_step
    (fun _ => Or.inr ⟨⟨.createSession, 0⟩, by decide, rfl, _, rfl, rfl⟩)
    rfl ?_
  refine meets_of_step trivial rfl ?_
  refine meets_of_step trivial rfl ?_
  exact meets_of_step trivial rfl trivial

/-- The creation at start-up fails; the next call creates the session. -/
def lazyCreation : List (Event Nat) :=
  [.createSession, .response 0 (.error sessionNotFound), .release 0,
    .resume 0, .getSession 0, .response 1 (.ok 7), .release 1, .resume 0]

/-- Nothing is in flight, the session is stored and has been handed out, and no
interval has ever been set. -/
theorem lazyCreation_not_refreshed :
    ¬∀ (es : List (Event Nat)) (s : MultiplexedSession Nat),
      run step {} es = some s → Refreshed s := by
  intro hall
  have hrun : run step {} lazyCreation = some _ := rfl
  obtain ⟨handle, hhandle, -⟩ := hall _ _ hrun (by
    rintro (hlock | ⟨w, hw, -⟩)
    · cases hlock
    · cases hw) rfl
  cases hhandle

end MultiplexedSession
end SpannerClient
