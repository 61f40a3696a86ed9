import SpannerClient.Machine.Containers
import SpannerClient.MultiplexedSession.Basic

/-!
# Creation is single-flight

`Inv` is what holds between any two events: the lock is the promise of the one
creation that is not settled, every awaited promise belongs to a creation, and a
creation that succeeded has left its session in the slot.

Beside it, calls are counted: those that have been made are those that have been
answered and those that wait (`Accounted`), so when nothing is under way every call
has been answered (`drained_of_quiet`).  A session in the slot is replaced, never
taken out (`session_kept`).

The main result is `creation_single_flight`, for every order of the calls, the
responses and the turns of the timer.
-/

namespace SpannerClient
namespace MultiplexedSession

open Machine

variable {σ : Type}

/-- The promise of the creation is settled. -/
def Creation.isSettled : Creation σ → Bool
  | .settled _ => true
  | _ => false

/-- The creation has brought a session. -/
def Creation.succeeded : Creation σ → Bool
  | .processed (.ok _) => true
  | .settled (.ok _) => true
  | _ => false

/-- The callback has been given a session, or the error of the creation whose
promise the call has awaited. -/
def Outcome.Served
    (creations : List (Creation σ)) (o : Outcome σ) : Prop :=
  match o.result with
  | .ok session => session.isSome = true
  | .error error =>
      ∃ k, o.awaited = some k ∧
        creations[k]? = some (.settled (.error error))

structure Inv
    (s : MultiplexedSession σ) : Prop where
  /-- The lock belongs to a creation that is not settled. -/
  held :
    ∀ k, s.sharedMuxSessionWaitPromise = some k →
      ∃ c, s.creations[k]? = some c ∧ c.isSettled = false
  /-- A creation that is not settled holds the lock. -/
  locked :
    ∀ (k : Nat) c, s.creations[k]? = some c → c.isSettled = false →
      s.sharedMuxSessionWaitPromise = some k
  awaited : ∀ w ∈ s.waiters, w.creation < s.creations.length
  stored :
    ∀ (k : Nat) c, s.creations[k]? = some c → c.succeeded = true →
      s.multiplexedSession.isSome = true
  served : ∀ o ∈ s.outcomes, o.Served s.creations
  /-- One interval at most is set, and the handle is its. -/
  intervals : s.intervals = s.refreshHandle.toList

variable {s t : MultiplexedSession σ}

theorem inv_initial :
    Inv ({} : MultiplexedSession σ) where
  held := by simp
  locked := by simp
  awaited := by simp
  stored := by simp
  served := by simp
  intervals := rfl

/-- Settled promises stay settled, so what was served stays served. -/
theorem Outcome.Served.mono
    {creations creations' : List (Creation σ)} {o : Outcome σ}
    (h : o.Served creations)
    (hkept :
      ∀ (k : Nat) result, creations[k]? = some (.settled result) →
        creations'[k]? = some (.settled result)) :
    o.Served creations' := by
  rw [Outcome.Served] at h ⊢
  split
  · rename_i session hsession
    simpa only [hsession] using h
  · rename_i error herror
    simp only [herror] at h
    obtain ⟨k, hawaited, hk⟩ := h
    exact ⟨k, hawaited, hkept k _ hk⟩

/-- A session that is asked for in vain is created, by this call or another. -/
theorem getSession_of_none
    (hnone : s.multiplexedSession = none)
    (call : Nat) :
    s.getSession call = s.createSession (.getSession call) := by
  rw [getSession, createSession]
  rw [hnone]
  cases s.sharedMuxSessionWaitPromise <;> rfl

/-- Awaiting the promise of a creation under way. -/
theorem createSession_of_held
    {k : Nat}
    (hlock : s.sharedMuxSessionWaitPromise = some k)
    (caller : Caller) :
    s.createSession caller =
      { s with waiters := s.waiters ++ [⟨caller, k⟩] } := by
  simp only [createSession, hlock]

/-- Starting a creation. -/
theorem createSession_of_free
    (hlock : s.sharedMuxSessionWaitPromise = none)
    (caller : Caller) :
    s.createSession caller =
      { s with
        creations := s.creations ++ [.requested]
        sharedMuxSessionWaitPromise := some s.creations.length
        waiters := s.waiters ++ [⟨caller, s.creations.length⟩] } := by
  simp only [createSession, hlock]

namespace Inv

/-- While the lock is free, every creation is settled. -/
theorem all_settled
    (h : Inv s)
    (hlock : s.sharedMuxSessionWaitPromise = none)
    {k : Nat} {c : Creation σ}
    (hk : s.creations[k]? = some c) :
    c.isSettled = true := by
  by_contra hnot
  have hheld := h.locked k c hk (by simpa using hnot)
  rw [hlock] at hheld
  cases hheld

theorem createSession
    (h : Inv s) (caller : Caller) :
    Inv (s.createSession caller) := by
  cases hlock : s.sharedMuxSessionWaitPromise with
  | some k =>
      rw [createSession_of_held hlock]
      refine { h with awaited := ?_ }
      intro w hw
      rcases List.mem_append.mp hw with hw | hw
      · exact h.awaited w hw
      · obtain ⟨c, hc, -⟩ := h.held k hlock
        rw [List.mem_singleton] at hw
        subst hw
        exact (List.getElem?_eq_some_iff.mp hc).1
  | none =>
      rw [createSession_of_free hlock]
      constructor
      · intro k hk
        obtain rfl := Option.some.inj hk
        exact ⟨.requested, by simp, rfl⟩
      · intro k c hc hopen
        rcases getElem?_snoc_some hc with ⟨rfl, -⟩ | ⟨-, hc⟩
        · rfl
        · rw [h.all_settled hlock hc] at hopen
          cases hopen
      · intro w hw
        rw [List.length_append, List.length_singleton]
        rcases List.mem_append.mp hw with hw | hw
        · exact Nat.lt_succ_of_lt (h.awaited w hw)
        · rw [List.mem_singleton] at hw
          subst hw
          exact Nat.lt_succ_self _
      · intro k c hc hsucceeded
        rcases getElem?_snoc_some hc with ⟨-, rfl⟩ | ⟨-, hc⟩
        · cases hsucceeded
        · exact h.stored k c hc hsucceeded
      · intro o ho
        refine (h.served o ho).mono ?_
        intro k result hk
        exact getElem?_snoc_of_some hk _
      · exact h.intervals

theorem answer
    (h : Inv s) {o : Outcome σ}
    (ho : o.Served s.creations) :
    Inv (s.answer o) := by
  refine { h with served := ?_ }
  intro o' ho'
  rcases List.mem_append.mp ho' with ho' | ho'
  · exact h.served o' ho'
  · rw [List.mem_singleton] at ho'
    subst ho'
    exact ho

theorem getSession
    (h : Inv s) (call : Nat) :
    Inv (s.getSession call) := by
  cases hsession : s.multiplexedSession with
  | some session =>
      rw [MultiplexedSession.getSession]
      rw [hsession]
      exact h.answer rfl
  | none =>
      rw [getSession_of_none hsession]
      exact h.createSession (.getSession call)

theorem maintain
    (h : Inv s) :
    Inv s.maintain := by
  refine { h with intervals := ?_ }
  simp only [MultiplexedSession.maintain, h.intervals]
  cases s.refreshHandle <;> simp

/-- A creation that is not settled makes progress. -/
theorem advance
    (h : Inv s)
    {k : Nat} {c : Creation σ} (c' : Creation σ)
    {session : Option σ} {lock : Option Nat}
    (hk : s.creations[k]? = some c)
    (hopen : c.isSettled = false)
    (hlock : lock = if c'.isSettled then none else some k)
    (hsession :
      s.multiplexedSession.isSome = true → session.isSome = true)
    (hstored : c'.succeeded = true → session.isSome = true) :
    Inv
      { s with
        creations := s.creations.set k c'
        multiplexedSession := session
        sharedMuxSessionWaitPromise := lock } := by
  have hlt := (List.getElem?_eq_some_iff.mp hk).1
  have hheld := h.locked k c hk hopen
  constructor
  · intro j hj
    cases hc' : c'.isSettled with
    | true =>
        simp [hlock, hc'] at hj
    | false =>
        simp only [hlock, hc', Bool.false_eq_true, if_false,
          Option.some.injEq] at hj
        subst hj
        exact ⟨c', by simp [hlt], hc'⟩
  · intro j d hd hdopen
    rcases getElem?_set_some hd with ⟨rfl, rfl⟩ | ⟨hne, hd⟩
    · simp [hlock, hdopen]
    · have hj := h.locked j d hd hdopen
      rw [hheld] at hj
      exact absurd (Option.some.inj hj).symm hne
  · intro w hw
    rw [List.length_set]
    exact h.awaited w hw
  · intro j d hd hsucceeded
    rcases getElem?_set_some hd with ⟨-, rfl⟩ | ⟨-, hd⟩
    · exact hstored hsucceeded
    · exact hsession (h.stored j d hd hsucceeded)
  · intro o ho
    refine (h.served o ho).mono ?_
    intro j result hj
    rw [List.getElem?_set_ne]
    · exact hj
    · rintro rfl
      rw [hk, Option.some.injEq] at hj
      subst hj
      cases hopen
  · exact h.intervals

theorem processResponse
    (h : Inv s)
    {k : Nat}
    (hk : s.creations[k]? = some .requested)
    (result : Except ServiceError σ) :
    Inv (s.processResponse k result) := by
  have hheld := h.locked k .requested hk rfl
  unfold MultiplexedSession.processResponse
  cases result with
  | ok session =>
      exact h.advance (.processed (.ok session)) hk rfl hheld
        (fun _ => rfl) (fun _ => rfl)
  | error error =>
      exact h.advance (.processed (.error error)) hk rfl hheld
        id (fun hsucceeded => by cases hsucceeded)

theorem release
    (h : Inv s)
    {k : Nat} {result : Except ServiceError σ}
    (hk : s.creations[k]? = some (.processed result)) :
    Inv (s.release k result) := by
  rw [MultiplexedSession.release]
  refine h.advance (.settled result) hk rfl rfl id ?_
  intro hsucceeded
  refine h.stored k _ hk ?_
  cases result with
  | ok session => rfl
  | error error => cases hsucceeded

theorem proceed
    (h : Inv s)
    {position : Nat} {w : Waiter} {result : Except ServiceError σ}
    (hk : s.creations[w.creation]? = some (.settled result)) :
    Inv
      (proceed { s with waiters := s.waiters.eraseIdx position }
        w result) := by
  have hs : Inv { s with waiters := s.waiters.eraseIdx position } :=
    { h with
      awaited := fun v hv =>
        h.awaited v (List.mem_of_mem_eraseIdx hv) }
  cases result with
  | ok session =>
      have hsome := h.stored w.creation _ hk rfl
      cases hcaller : w.caller with
      | createSession =>
          simpa only [MultiplexedSession.proceed, hcaller] using hs.maintain
      | getSession call =>
          simp only [MultiplexedSession.proceed, hcaller]
          exact hs.answer hsome
      | interval =>
          simpa only [MultiplexedSession.proceed, hcaller] using hs
  | error error =>
      cases hcaller : w.caller with
      | createSession =>
          simpa only [MultiplexedSession.proceed, hcaller] using hs
      | getSession call =>
          simp only [MultiplexedSession.proceed, hcaller]
          exact hs.answer ⟨w.creation, rfl, hk⟩
      | interval =>
          simpa only [MultiplexedSession.proceed, hcaller] using hs

end Inv

theorem inv_step
    {e : Event σ}
    (h : Inv s)
    (hstep : step s e = some t) :
    Inv t := by
  cases steps_of_step hstep with
  | createSession => exact h.createSession .createSession
  | getSession call => exact h.getSession call
  | interval hset => exact h.createSession .interval
  | response result hk => exact h.processResponse hk result
  | release hk => exact h.release hk
  | resume hw hk => exact h.proceed hk

theorem inv_run
    {es : List (Event σ)}
    (hs : Inv s)
    (hrun : run step s es = some t) :
    Inv t :=
  run_invariant (fun _ _ _ h hstep => inv_step h hstep) hs hrun

/-! ## The session in the slot -/

/-- A session in the slot is replaced, never taken out. -/
theorem session_kept
    {e : Event σ}
    (hstep : step s e = some t)
    (hsome : s.multiplexedSession.isSome = true) :
    t.multiplexedSession.isSome = true := by
  cases steps_of_step hstep with
  | createSession =>
      cases hlock : s.sharedMuxSessionWaitPromise <;>
        simpa [createSession, hlock] using hsome
  | getSession call =>
      obtain ⟨session, hsession⟩ := Option.isSome_iff_exists.mp hsome
      simp [getSession, answer, hsession]
  | interval hset =>
      cases hlock : s.sharedMuxSessionWaitPromise <;>
        simpa [createSession, hlock] using hsome
  | response result hk =>
      cases result with
      | ok session => rfl
      | error error => exact hsome
  | release hk => exact hsome
  | @resume position w result hw hk =>
      cases result <;> cases hcaller : w.caller <;>
        simpa [proceed, maintain, answer, hcaller] using hsome

/-! ## Every call is answered -/

/-- The event is the call `call` of `getSession`. -/
def Event.asks
    (call : Nat) : Event σ → Bool
  | .getSession c => c == call
  | _ => false

/-- How often the callback of the call has been called. -/
def answers
    (s : MultiplexedSession σ) (call : Nat) : Nat :=
  s.outcomes.countP fun o => o.call == call

/-- How often the call is among those that wait. -/
def waits
    (s : MultiplexedSession σ) (call : Nat) : Nat :=
  s.waiters.countP fun w => w.caller == .getSession call

/-- The calls are the answers and those that wait. -/
def Accounted
    (call n : Nat) (s : MultiplexedSession σ) : Prop :=
  n = s.answers call + s.waits call

theorem beq_getSession
    (c call : Nat) :
    (Caller.getSession c == Caller.getSession call) = (c == call) := by
  rw [Bool.eq_iff_iff]
  simp

theorem waits_createSession
    (caller : Caller) (call : Nat) :
    (s.createSession caller).waits call =
      s.waits call + (caller == .getSession call).toNat := by
  cases hlock : s.sharedMuxSessionWaitPromise <;>
    simp only [waits, createSession, hlock, countP_snoc]

theorem answers_createSession
    (caller : Caller) (call : Nat) :
    (s.createSession caller).answers call = s.answers call := by
  cases hlock : s.sharedMuxSessionWaitPromise <;>
    simp [answers, createSession, hlock]

theorem answers_answer
    (o : Outcome σ) (call : Nat) :
    (s.answer o).answers call =
      s.answers call + (o.call == call).toNat := by
  simp only [answers, answer, countP_snoc]

/-- Going on answers the call that waited. -/
theorem answers_proceed
    (w : Waiter) (result : Except ServiceError σ) (call : Nat) :
    (proceed s w result).answers call =
      s.answers call + (w.caller == .getSession call).toNat := by
  cases hcaller : w.caller with
  | createSession => cases result <;> simp [proceed, hcaller, answers, maintain]
  | getSession c =>
      cases result <;>
        simp [proceed, hcaller, answers_answer, beq_getSession]
  | interval => cases result <;> simp [proceed, hcaller, answers]

theorem waits_proceed
    (w : Waiter) (result : Except ServiceError σ) (call : Nat) :
    (proceed s w result).waits call = s.waits call := by
  cases hcaller : w.caller <;> cases result <;>
    simp [proceed, hcaller, waits, maintain, answer]

theorem accounted_step
    {e : Event σ} {call n : Nat}
    (h : Accounted call n s)
    (hstep : step s e = some t) :
    Accounted call (n + (e.asks call).toNat) t := by
  rw [Accounted] at h ⊢
  cases steps_of_step hstep with
  | createSession =>
      rw [answers_createSession, waits_createSession, h]
      rfl
  | getSession c =>
      cases hsession : s.multiplexedSession with
      | some session =>
          have hanswer :
              s.getSession c = s.answer ⟨c, none, .ok (some session)⟩ := by
            simp only [getSession, hsession]
          have hwaits :
              (s.answer ⟨c, none, .ok (some session)⟩).waits call =
                s.waits call := rfl
          rw [hanswer, answers_answer, hwaits, h]
          simp only [Event.asks]
          omega
      | none =>
          rw [getSession_of_none hsession, answers_createSession,
            waits_createSession, beq_getSession, h]
          simp only [Event.asks]
          omega
  | interval hset =>
      rw [answers_createSession, waits_createSession, h]
      rfl
  | response result hk => exact h
  | release hk => exact h
  | resume hw hk =>
      have hsplit :=
        countP_eraseIdx_of_getElem?
          (fun w : Waiter => w.caller == .getSession call) hw
      rw [answers_proceed, waits_proceed]
      simp only [waits, answers, Event.asks, Bool.toNat_false] at h hsplit ⊢
      omega

/-- Nothing can happen but a new call or an interval. -/
def Quiet
    (s : MultiplexedSession σ) : Prop :=
  (∀ k result, step s (.response k result) = none) ∧
    (∀ k, step s (.release k) = none) ∧
    ∀ position, step s (.resume position) = none

/-- When nothing is under way, nobody waits and the lock is free. -/
theorem drained_of_quiet
    (h : Inv s)
    (hquiet : Quiet s) :
    s.waiters = [] ∧ s.sharedMuxSessionWaitPromise = none := by
  obtain ⟨hresponse, hrelease, hresume⟩ := hquiet
  have hsettled :
      ∀ (k : Nat) c, s.creations[k]? = some c →
        ∃ result, c = .settled result := by
    intro k c hk
    cases c with
    | requested =>
        have hno := hresponse k (.error sessionNotFound)
        simp [step, hk] at hno
    | processed result =>
        have hno := hrelease k
        simp [step, hk] at hno
    | settled result => exact ⟨result, rfl⟩
  constructor
  · by_contra hne
    obtain ⟨w, rest, hw⟩ := List.exists_cons_of_ne_nil hne
    have hlt := h.awaited w (by simp [hw])
    obtain ⟨result, hc⟩ := hsettled _ _ (List.getElem?_eq_getElem hlt)
    have hno := hresume 0
    simp [step, hw, List.getElem?_eq_getElem hlt, hc] at hno
  · cases hlock : s.sharedMuxSessionWaitPromise with
    | none => rfl
    | some k =>
        obtain ⟨c, hk, hopen⟩ := h.held k hlock
        obtain ⟨result, rfl⟩ := hsettled k c hk
        cases hopen

/-! ## The requests and the lock -/

/-- The `CreateSession` request of the creation is in flight. -/
def Creation.isRequested : Creation σ → Bool
  | .requested => true
  | _ => false

theorem isSettled_of_isRequested
    {c : Creation σ}
    (hc : c.isRequested = true) :
    c.isSettled = false := by
  cases c with
  | requested => rfl
  | processed result => cases hc
  | settled result => cases hc

structure SingleFlight
    (s : MultiplexedSession σ) : Prop where
  /-- At most one request is in flight. -/
  one : s.creations.countP Creation.isRequested ≤ 1
  /-- The lock is set by the creation that is not settled, and by no other. -/
  lock :
    ∀ k, s.sharedMuxSessionWaitPromise = some k ↔
      ∃ c, s.creations[k]? = some c ∧ c.isSettled = false
  /-- With the lock free and no session, the next call sends a request. -/
  retried :
    s.sharedMuxSessionWaitPromise = none →
      s.multiplexedSession = none →
        ∀ call, ∃ t, step s (.getSession call) = some t ∧
          t.creations = s.creations ++ [.requested] ∧
          t.sharedMuxSessionWaitPromise = some s.creations.length

/-- Two requests in flight would both hold the lock. -/
theorem Inv.singleFlight
    (h : Inv s) :
    SingleFlight s where
  one := by
    refine countP_le_one_of_unique ?_
    intro i j c d hi hc hj hd
    have hlocki := h.locked i c hi (isSettled_of_isRequested hc)
    have hlockj := h.locked j d hj (isSettled_of_isRequested hd)
    rw [hlocki] at hlockj
    exact Option.some.inj hlockj
  lock := fun k => ⟨h.held k, fun ⟨c, hk, hopen⟩ => h.locked k c hk hopen⟩
  retried := by
    intro hlock hnone call
    refine ⟨_, rfl, ?_⟩
    rw [getSession_of_none hnone, createSession_of_free hlock]
    exact ⟨rfl, rfl⟩

/--
Creation is single-flight, for every run: at most one request is in flight and
the lock is set exactly while a creation is not settled; every call of
`getSession` waits or has been answered, with a session or with the error of the
creation it has waited for, and none waits when nothing is under way; a session
in the slot stays.
-/
theorem creation_single_flight
    {es : List (Event σ)}
    (hrun : run step {} es = some s) :
    SingleFlight s ∧
      (∀ o ∈ s.outcomes, o.Served s.creations) ∧
      (∀ call,
        es.countP (Event.asks call) = s.answers call + s.waits call) ∧
      (Quiet s →
        s.waiters = [] ∧ s.sharedMuxSessionWaitPromise = none) ∧
      (s.multiplexedSession.isSome = true →
        ∀ fs t, run step s fs = some t →
          t.multiplexedSession.isSome = true) := by
  have hinv := inv_run inv_initial hrun
  refine ⟨hinv.singleFlight, hinv.served, ?_, drained_of_quiet hinv, ?_⟩
  · intro call
    have hzero : Accounted call 0 ({} : MultiplexedSession σ) := rfl
    have hcount :=
      run_counted (Event.asks call)
        (fun _ _ _ _ h hstep => accounted_step h hstep) hzero hrun
    simpa [Accounted] using hcount
  · intro hsome fs t hfs
    exact
      run_invariant
        (I := fun q => q.multiplexedSession.isSome = true)
        (fun _ _ _ h hstep => session_kept hstep h) hsome hfs

/-- The start-up creation fails, two calls share the next one, and an interval
asks for another. -/
def failedStart : List (Event Nat) :=
  [.createSession, .response 0 (.error sessionNotFound), .release 0,
    .getSession 0, .resume 0, .createSession, .getSession 1,
    .response 1 (.ok 7), .release 1, .resume 0, .resume 0, .resume 0,
    .interval 0]

theorem creation_single_flight_failedStart :
    ∃ s : MultiplexedSession Nat,
      run step {} failedStart = some s ∧
        SingleFlight s ∧
        (∀ fs t, run step s fs = some t →
          t.multiplexedSession.isSome = true) ∧
        s.outcomes.length = 2 ∧
        s.sharedMuxSessionWaitPromise = some 2 := by
  have hrun : run step {} failedStart = some _ := rfl
  obtain ⟨hflight, -, -, -, hstays⟩ := creation_single_flight hrun
  exact ⟨_, hrun, hflight, hstays rfl, rfl, rfl⟩

end MultiplexedSession
end SpannerClient
