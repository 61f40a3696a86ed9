import SpannerClient.SessionPool.Wakeup

/-!
# What a closed pool still does

`close` rejects the suspended acquire, issues a delete for every session it finds
and empties the inventory once the deletes have ended.  It does not look at the
acquires that are queued or about to succeed, at the creations in flight, nor at
the ping rounds that have yet to refill the pool.

`Quiet` lists what has to be absent when `close` is called.  From then on nothing
the pool was doing can serve an acquire or create a session (`Closed`, an
invariant of every later event, `step_closed`), and once all events are processed
nothing is left in the inventory.

The main result, `staysClosed_of_quiet`, is about any run that closes a quiet pool,
and about what follows.
-/

namespace SpannerClient
namespace SessionPool

open Machine

variable {σ : Type} [DecidableEq σ]
variable {options : SessionPoolOptions} {p q t : Pool σ}

namespace Pool

/-- The acquires that have succeeded. -/
def successes
    (p : Pool σ) : List (Nat × σ) :=
  p.outcomes.filterMap fun
    | (caller, .ok s) => some (caller, s)
    | (_, .error _) => none

/-- All outstanding events have been processed. -/
structure Drained
    (p : Pool σ) : Prop where
  queued : p.queued = []
  current : p.current = none
  resolved : p.resolved = []
  creating : p.creating = []
  immediates : p.immediates = []
  rounds : p.rounds = []
  pings : p.pings = []
  requests : p.requests = []
  closing : p.closing = false

/-- The running acquire, if any, cannot be served any more: it is going to be
rejected, or it has no time left and every session it may look at has expired. -/
def Doomed
    (options : SessionPoolOptions) (p : Pool σ) : Prop :=
  match p.current with
  | none => True
  | some (_, .waiting) => True
  | some (_, .woken (.error _)) => True
  | some (a, .woken (.ok _)) =>
      p.timedOut options a = true ∧
        (∀ s ∈ p.sessions, p.isValidSession s = false) ∧
        p.held = [] ∧ p.pings = []
  | some (_, .returned none) => True
  | some (a, .returned (some s)) =>
      p.timedOut options a = true ∧ p.isValidSession s = false

/-- Nothing is under way that could serve an acquire or create a session. -/
structure Quiet
    (options : SessionPoolOptions) (p : Pool σ) : Prop where
  queued : ∀ a ∈ p.queued, p.timedOut options a = true
  current : p.Doomed options
  resolved : p.resolved = []
  creating : p.creating = []
  immediates : p.immediates = []
  rounds : p.rounds = [] ∨ options.min = 0

/-- The running acquire of a closed pool, with what nobody can undo any more. -/
def Rejected
    (options : SessionPoolOptions) (p : Pool σ) : Prop :=
  match p.current with
  | none => True
  | some (_, .waiting) => False
  | some (_, .woken (.error _)) => True
  | some (a, .woken (.ok _)) =>
      p.timedOut options a = true ∧
        (∀ s ∈ p.sessions, p.isValidSession s = false) ∧
        p.held = [] ∧ p.pings = []
  | some (_, .returned none) => True
  | some (a, .returned (some s)) =>
      p.timedOut options a = true ∧ p.isValidSession s = false ∧
        s ∉ p.held.map Prod.snd ∧ s ∉ p.pings.map Prod.snd

end Pool

/-- What stays true of a pool that was quiet, in the state `p`, when it was
closed. -/
structure Closed
    (options : SessionPoolOptions) (p q : Pool σ) : Prop where
  isOpen : q.isOpen = false
  houseKeeping : q.houseKeeping = false
  queued : ∀ a ∈ q.queued, q.timedOut options a = true
  current : q.Rejected options
  resolved : q.resolved = []
  creating : q.creating = []
  immediates : q.immediates = []
  rounds : q.rounds = [] ∨ options.min = 0
  pending : q.pending = 0
  successes : q.successes = p.successes
  batchCreates : q.batchCreates = p.batchCreates
  created : q.created = p.created
  deletes : ∀ s ∈ p.inventory, s ∈ q.deletes
  emptied : q.closing = false → q.sessions = [] ∧ q.borrowed = []

section

omit [DecidableEq σ]

/-- A rejected acquire is not a success. -/
theorem successes_of_error
    {caller : Nat} {error : AcquireError σ}
    (houtcomes : q.outcomes = p.outcomes ++ [(caller, .error error)]) :
    q.successes = p.successes := by
  simp [Pool.successes, houtcomes]

theorem timedOut_mono
    {a : Acquire}
    (h : p.timedOut options a = true)
    (hnow : p.now ≤ q.now) :
    q.timedOut options a = true := by
  rw [Pool.timedOut] at h ⊢
  cases htimeout : options.acquireTimeout with
  | none =>
      simp [htimeout] at h
  | some timeout =>
      simp only [htimeout, decide_eq_true_eq] at h ⊢
      omega

theorem isValidSession_mono
    {s : σ}
    (h : p.isValidSession s = false)
    (hnow : p.now ≤ q.now)
    (hlastUsed : q.lastUsed s = p.lastUsed s) :
    q.isValidSession s = false := by
  rw [Pool.isValidSession] at h ⊢
  rw [hlastUsed]
  simp only [decide_eq_false_iff_not] at h ⊢
  omega

end

/-- An acquire without time left is rejected at once. -/
theorem attempt_of_timedOut
    {a : Acquire}
    (h : p.timedOut options a = true) :
    p.attempt options a = p.reject a .timeout := by
  rw [Pool.attempt]
  rw [if_pos h]

section

omit [DecidableEq σ]

/-- Steps that release nothing keep the running acquire rejected. -/
theorem rejected_of_frame
    (h : p.Rejected options)
    (hcurrent : q.current = p.current)
    (hnow : p.now ≤ q.now)
    (hlastUsed : q.lastUsed = p.lastUsed)
    (hsessions : ∀ s ∈ q.sessions, s ∈ p.sessions)
    (hheld : ∀ x ∈ q.held, x ∈ p.held)
    (hpings : ∀ x ∈ q.pings, x ∈ p.pings) :
    q.Rejected options := by
  rw [Pool.Rejected] at h ⊢
  rw [hcurrent]
  rcases hcur : p.current with _ | ⟨a, phase⟩
  · trivial
  · rw [hcur] at h
    cases phase with
    | waiting => exact h
    | woken result =>
        cases result with
        | error error => trivial
        | ok result =>
            obtain ⟨htime, hexpired, hnoHeld, hnoPing⟩ := h
            rw [hnoHeld] at hheld
            rw [hnoPing] at hpings
            exact
              ⟨timedOut_mono htime hnow,
                fun s hs =>
                  isValidSession_mono (hexpired s (hsessions s hs)) hnow
                    (congrFun hlastUsed s),
                List.eq_nil_iff_forall_not_mem.mpr fun x hx =>
                  List.not_mem_nil (hheld x hx),
                List.eq_nil_iff_forall_not_mem.mpr fun x hx =>
                  List.not_mem_nil (hpings x hx)⟩
    | returned s =>
        cases s with
        | none => trivial
        | some s =>
            obtain ⟨htime, hexpired, hnotHeld, hnotPing⟩ := h
            exact
              ⟨timedOut_mono htime hnow,
                isValidSession_mono hexpired hnow (congrFun hlastUsed s),
                fun hs => hnotHeld (List.map_subset _ hheld hs),
                fun hs => hnotPing (List.map_subset _ hpings hs)⟩

/-- Whoever has a session to give back has not given it to the running acquire,
which stays rejected. -/
theorem rejected_of_return
    (h : p.Rejected options)
    {r : σ}
    (hr : r ∈ p.held.map Prod.snd ∨ r ∈ p.pings.map Prod.snd)
    (hcurrent : q.current = p.current)
    (hnow : q.now = p.now)
    (hlastUsed : ∀ s, s ≠ r → q.lastUsed s = p.lastUsed s)
    (hheld : ∀ x ∈ q.held, x ∈ p.held)
    (hpings : ∀ x ∈ q.pings, x ∈ p.pings) :
    q.Rejected options := by
  rw [Pool.Rejected] at h ⊢
  rw [hcurrent]
  rcases hcur : p.current with _ | ⟨a, phase⟩
  · trivial
  · rw [hcur] at h
    cases phase with
    | waiting => exact h
    | woken result =>
        cases result with
        | error error => trivial
        | ok result =>
            obtain ⟨-, -, hnoHeld, hnoPing⟩ := h
            simp [hnoHeld, hnoPing] at hr
    | returned s =>
        cases s with
        | none => trivial
        | some s =>
            obtain ⟨htime, hexpired, hnotHeld, hnotPing⟩ := h
            have hne : s ≠ r := by
              rintro rfl
              rcases hr with hr | hr
              · exact hnotHeld hr
              · exact hnotPing hr
            exact
              ⟨timedOut_mono htime hnow.ge,
                isValidSession_mono hexpired hnow.ge (hlastUsed s hne),
                fun hs => hnotHeld (List.map_subset _ hheld hs),
                fun hs => hnotPing (List.map_subset _ hpings hs)⟩

theorem waiting_of_rejected
    (h : p.Rejected options) :
    p.waiting = false := by
  unfold Pool.Rejected at h
  rw [Pool.waiting]
  rcases hcur : p.current with _ | ⟨a, phase⟩
  · rfl
  · rw [hcur] at h
    cases phase with
    | waiting => exact absurd h id
    | woken result => rfl
    | returned s => rfl

/-- Waking a race that is settled, or that nobody waits for, changes nothing. -/
theorem wake_of_not_waiting
    (h : p.waiting = false)
    (result : Except (AcquireError σ) Unit) :
    p.wake result = p := by
  have hsame : (p.wake result).current = p.current := by
    unfold Pool.waiting at h
    rw [Pool.wake]
    rcases hcur : p.current with _ | ⟨a, phase⟩
    · rfl
    · rw [hcur] at h
      cases phase with
      | waiting => cases h
      | woken result => rfl
      | returned s => rfl
  calc
    p.wake result =
        { p with current := (p.wake result).current } := rfl
    _ = p := by rw [hsame]

end

/-- With nobody to wake, a release moves the session it gives back, or drops
it. -/
theorem release_shape
    {r : σ}
    (hr : r ∈ p.borrowed)
    (hwaiting : p.waiting = false) :
    ∃ sessions traces lastError,
      (p.release r).2 =
        { p with
          sessions := sessions
          borrowed := p.borrowed.erase r
          traces := traces
          lastUsed := Function.update p.lastUsed r p.now
          lastError := lastError } := by
  rw [Pool.release]
  rw [if_neg (by simpa using hr)]
  dsimp only
  split
  · exact ⟨p.sessions, p.traces.erase r, p.lastError, rfl⟩
  · refine
      ⟨p.sessions ++ [r], (p.traces.erase r).erase r,
        Function.update p.lastError r none, ?_⟩
    exact wake_of_not_waiting (by exact hwaiting) _

section Step

variable (hclosed : Closed options p q)
include hclosed

/-- Giving back a session to a closed pool; the ping it comes from, if any, is
already off the list. -/
theorem closed_release
    {r : σ}
    (hr : r ∈ q.borrowed)
    (pings : List (Nat × σ))
    (howner : r ∈ q.held.map Prod.snd ∨ r ∈ q.pings.map Prod.snd)
    (hpings : ∀ x ∈ pings, x ∈ q.pings) :
    Closed options p (Pool.release { q with pings := pings } r).2 := by
  have hwaiting := waiting_of_rejected hclosed.current
  obtain ⟨sessions, traces, lastError, heq⟩ :=
    release_shape (p := { q with pings := pings }) hr hwaiting
  rw [heq]
  refine
    { hclosed with
      current := ?_
      emptied := ?_ }
  · refine
      rejected_of_return hclosed.current howner rfl rfl ?_
        (fun _ hx => hx) hpings
    intro s hs
    exact Function.update_of_ne hs _ _
  · intro hclosing
    rw [(hclosed.emptied hclosing).2] at hr
    cases hr

theorem closed_resumeWaiter
    {a : Acquire} {result : Except (AcquireError σ) Unit}
    (hcur : q.current = some (a, .woken result)) :
    Closed options p (q.resumeWaiter a result) := by
  have hcurrent := hclosed.current
  unfold Pool.Rejected at hcurrent
  rw [hcur] at hcurrent
  unfold Pool.resumeWaiter
  cases result with
  | error error =>
      exact
        { hclosed with
          current := trivial
          successes :=
            (successes_of_error (p := q) rfl).trans hclosed.successes }
  | ok _ =>
      obtain ⟨htime, hexpired, hheld, hpings⟩ := hcurrent
      unfold Pool.borrowNextAvailableSession
      dsimp only
      cases hlast : q.sessions.getLast? with
      | none =>
          exact { hclosed with current := trivial }
      | some s =>
          have hs := List.mem_of_getLast? hlast
          refine
            { hclosed with
              current := ⟨htime, hexpired s hs, ?_, ?_⟩
              emptied := ?_ }
          · simp [hheld]
          · simp [hpings]
          · intro hclosing
            rw [(hclosed.emptied hclosing).1] at hs
            cases hs

theorem closed_checkSession
    {a : Acquire} {s : Option σ}
    (hcur : q.current = some (a, .returned s)) :
    Closed options p (q.checkSession options a s) := by
  have hcurrent := hclosed.current
  unfold Pool.Rejected at hcurrent
  rw [hcur] at hcurrent
  cases s with
  | none =>
      exact
        { hclosed with
          current := trivial
          successes :=
            (successes_of_error (p := q) rfl).trans hclosed.successes }
  | some s =>
      obtain ⟨htime, hexpired, -, -⟩ := hcurrent
      simp only [Pool.checkSession]
      have htime' :
          Pool.timedOut options
            { q with
              borrowed := q.borrowed.erase s
              current := none } a = true :=
        htime
      rw [if_neg (by simp [hexpired]), attempt_of_timedOut htime']
      refine
        { hclosed with
          current := trivial
          successes :=
            (successes_of_error (p := q) rfl).trans hclosed.successes
          emptied := ?_ }
      intro hclosing
      obtain ⟨hsessions, hborrowed⟩ := hclosed.emptied hclosing
      exact ⟨hsessions, by simp [Pool.reject, hborrowed]⟩

theorem closed_pingFailed
    (round : Nat) (s : σ) :
    Closed options p
      (Pool.pingFailed { q with pings := q.pings.erase (round, s) }
        round s) := by
  refine
    { hclosed with
      current :=
        rejected_of_frame hclosed.current rfl (Nat.le_refl _) rfl
          (fun _ hx => hx) (fun _ hx => hx)
          (fun _ hx => List.mem_of_mem_erase hx)
      deletes := fun r hr =>
        List.mem_append_left _ (hclosed.deletes r hr)
      emptied := ?_ }
  intro hclosing
  obtain ⟨hsessions, hborrowed⟩ := hclosed.emptied hclosing
  exact
    ⟨hsessions, by simp [Pool.pingFailed, Pool.destroy, hborrowed]⟩

/-- A queued acquire has no time left. -/
theorem closed_startAcquire
    {a : Acquire} {rest : List Acquire}
    (hqueued : q.queued = a :: rest) :
    Closed options p (Pool.attempt options { q with queued := rest } a) := by
  have ha : Pool.timedOut options { q with queued := rest } a = true :=
    hclosed.queued a (by rw [hqueued]; exact List.mem_cons_self)
  rw [attempt_of_timedOut ha]
  refine
    { hclosed with
      queued := ?_
      current := trivial
      successes :=
        (successes_of_error (p := q) rfl).trans hclosed.successes }
  intro b hb
  refine timedOut_mono (hclosed.queued b ?_) (Nat.le_refl _)
  rw [hqueued]
  exact List.mem_cons_of_mem a hb

/-- A caller gives its session back. -/
theorem closed_giveBack
    {caller : Nat} {s : σ}
    (hheld : (caller, s) ∈ q.held)
    (hs : s ∈ q.borrowed) :
    Closed options p
      { (q.release s).2 with
        held := (q.release s).2.held.erase (caller, s) } := by
  have hrelease :=
    closed_release hclosed hs q.pings (Or.inl (List.mem_map_of_mem hheld))
      (fun _ hx => hx)
  exact
    { hrelease with
      current :=
        rejected_of_frame hrelease.current rfl (Nat.le_refl _) rfl
          (fun _ hx => hx) (fun _ hx => List.mem_of_mem_erase hx)
          (fun _ hx => hx) }

/-- A session that has been pinged is released, unless `close` has emptied the
inventory. -/
theorem closed_pingSucceeded
    {round : Nat} {s : σ}
    (hping : (round, s) ∈ q.pings) :
    Closed options p
      (Pool.pingSucceeded { q with pings := q.pings.erase (round, s) }
        round s) := by
  by_cases hs : s ∈ q.borrowed
  · rw [pingSucceeded_of_mem round
      (p := { q with pings := q.pings.erase (round, s) }) hs]
    exact
      closed_release hclosed hs _ (Or.inr (List.mem_map_of_mem hping))
        (fun _ hx => List.mem_of_mem_erase hx)
  · have hrelease :=
      Pool.release_of_not_mem
        (p := { q with pings := q.pings.erase (round, s) }) hs
    rw [Pool.pingSucceeded]
    rw [hrelease]
    exact closed_pingFailed hclosed round s

omit [DecidableEq σ] in
/-- A round of pings that ends refills the pool to a `min` of zero. -/
theorem closed_pingsDone
    {round : Nat}
    (hdone : q.roundDone round = true) :
    Closed options p
      (Pool.fill options { q with rounds := q.rounds.erase round }) := by
  have hround : round ∈ q.rounds := by
    unfold Pool.roundDone at hdone
    simp only [Bool.and_eq_true, decide_eq_true_eq] at hdone
    exact hdone.1.1
  have hmin : options.min = 0 := by
    rcases hclosed.rounds with hrounds | hmin
    · rw [hrounds] at hround
      cases hround
    · exact hmin
  have hpending := hclosed.pending
  have hfill :
      Pool.fill options { q with rounds := q.rounds.erase round } =
        { q with rounds := q.rounds.erase round } := by
    rw [Pool.fill, Pool.size]
    dsimp only
    rw [if_pos (by omega)]
  rw [hfill]
  exact
    { hclosed with
      current :=
        rejected_of_frame hclosed.current rfl (Nat.le_refl _) rfl
          (fun _ hs => hs) (fun _ hx => hx) (fun _ hx => hx)
      rounds := Or.inr hmin }

omit [DecidableEq σ] in
/-- Time passes. -/
theorem closed_tick
    (milliseconds : Nat) :
    Closed options p { q with now := q.now + milliseconds } := by
  refine
    { hclosed with
      queued := ?_
      current :=
        rejected_of_frame hclosed.current rfl (Nat.le_add_right _ _) rfl
          (fun _ hs => hs) (fun _ hx => hx) (fun _ hx => hx) }
  intro a ha
  exact timedOut_mono (hclosed.queued a ha) (Nat.le_add_right _ _)

/-- The invariant of a closed pool is kept by every event. -/
theorem step_closed
    {e : Event σ}
    (hstep : step options q e = some t) :
    Closed options p t := by
  have hframe :
      ∀ {t : Pool σ},
        t.current = q.current → t.now = q.now →
        t.lastUsed = q.lastUsed → t.sessions = q.sessions →
        t.held = q.held → t.pings = q.pings →
        t.Rejected options := by
    intro t hcurrent hnow hlastUsed hsessions hheld hpings
    exact
      rejected_of_frame hclosed.current hcurrent hnow.ge hlastUsed
        (fun _ hs => hsessions ▸ hs) (fun _ hx => hheld ▸ hx)
        (fun _ hx => hpings ▸ hx)
  cases steps_of_step hstep with
  | acquire hopen =>
      rw [hclosed.isOpen] at hopen
      cases hopen
  | acquireClosed =>
      exact
        { hclosed with
          current := hframe rfl rfl rfl rfl rfl rfl
          successes :=
            (successes_of_error (p := q) rfl).trans hclosed.successes }
  | startAcquire hcur hqueued => exact closed_startAcquire hclosed hqueued
  | acquireTimeout hcur =>
      have hwaiting := waiting_of_rejected hclosed.current
      simp [Pool.waiting, hcur] at hwaiting
  | resumeWaiter hcur => exact closed_resumeWaiter hclosed hcur
  | checkSession hcur => exact closed_checkSession hclosed hcur
  | finishAcquire hresolved =>
      rw [hclosed.resolved] at hresolved
      cases hresolved
  | release hheld hs => exact closed_giveBack hclosed hheld hs
  | releaseUnknown => exact hclosed
  | setLastError =>
      exact
        { hclosed with current := hframe rfl rfl rfl rfl rfl rfl }
  | batchCreated hi =>
      simp [hclosed.creating] at hi
  | batchCreateFailed hi =>
      simp [hclosed.creating] at hi
  | deliver himmediates =>
      rw [hclosed.immediates] at himmediates
      cases himmediates
  | fill hopen =>
      rw [hclosed.isOpen] at hopen
      cases hopen
  | evictIdleSessions hhouse =>
      rw [hclosed.houseKeeping] at hhouse
      cases hhouse
  | pingIdleSessions hhouse =>
      rw [hclosed.houseKeeping] at hhouse
      cases hhouse
  | pingSucceeded hping => exact closed_pingSucceeded hclosed hping
  | @pingFailed round s hping => exact closed_pingFailed hclosed round s
  | pingsDone hdone => exact closed_pingsDone hclosed hdone
  | deleted =>
      exact
        { hclosed with current := hframe rfl rfl rfl rfl rfl rfl }
  | @tick milliseconds => exact closed_tick hclosed milliseconds
  | close hopen =>
      rw [hclosed.isOpen] at hopen
      cases hopen
  | finishClose =>
      exact
        { hclosed with
          current :=
            rejected_of_frame hclosed.current rfl (Nat.le_refl _) rfl
              (fun _ hs => absurd hs List.not_mem_nil) (fun _ hx => hx)
              (fun _ hx => hx)
          emptied := fun _ => ⟨rfl, rfl⟩ }

end Step

section

omit [DecidableEq σ]

/-- The deletes that `close` issues. -/
theorem destroys_eq
    (sessions : List σ) (p : Pool σ) :
    sessions.foldl (fun p s => p.destroy none s) p =
      { p with
        requests := p.requests ++ sessions.map (Prod.mk none)
        deletes := p.deletes ++ sessions } := by
  induction sessions generalizing p with
  | nil =>
      simp
  | cons s sessions ih =>
      rw [List.foldl_cons, ih]
      simp [Pool.destroy]

/-- A quiet pool is rejected for good by `close`. -/
theorem rejected_close
    (hinv : Inv options p) (howned : p.Owned)
    (h : p.Doomed options) :
    Pool.Rejected options
      (Pool.wake { p with isOpen := false, houseKeeping := false }
        (.error .closed)) := by
  have howners := owners_nodup hinv howned
  unfold Pool.owners Pool.currentSession at howners
  unfold Pool.Doomed at h
  rw [Pool.Rejected, Pool.wake]
  rcases hcur : p.current with _ | ⟨a, phase⟩
  · trivial
  · rw [hcur] at h
    cases phase with
    | waiting => trivial
    | woken result =>
        cases result with
        | error error => trivial
        | ok result => exact h
    | returned s =>
        cases s with
        | none => trivial
        | some s =>
            rw [hcur] at howners
            have hdisj := (List.nodup_append.mp howners).2.2
            refine ⟨h.1, h.2, ?_, ?_⟩
            · intro hs
              refine hdisj s (by simp) s ?_ rfl
              simp only [List.mem_append]
              exact Or.inr (Or.inl hs)
            · intro hs
              refine hdisj s (by simp) s ?_ rfl
              simp only [List.mem_append]
              exact Or.inr (Or.inr hs)

/-- Closing a quiet pool. -/
theorem closed_of_quiet
    (hinv : Inv options p) (howned : p.Owned)
    (hquiet : p.Quiet options) :
    Closed options p p.close := by
  have hpending : p.pending = 0 := by
    rw [hinv.pending, hquiet.creating, hquiet.immediates]
    rfl
  unfold Pool.close
  dsimp only
  rw [destroys_eq]
  refine
    { isOpen := rfl
      houseKeeping := rfl
      queued := fun a ha => hquiet.queued a ha
      current := rejected_close hinv howned hquiet.current
      resolved := hquiet.resolved
      creating := hquiet.creating
      immediates := hquiet.immediates
      rounds := hquiet.rounds
      pending := hpending
      successes := rfl
      batchCreates := rfl
      created := rfl
      deletes := ?_
      emptied := fun hclosing => by cases hclosing }
  intro s hs
  refine List.mem_append_right _ ?_
  simpa [Pool.inventory, hquiet.immediates] using hs

end

namespace Pool

/-- The later state `q` of a pool closed in the state `p`: no acquire has
succeeded since and no session has been asked for, and once all events are
processed every session the pool held or received has been deleted. -/
structure StaysClosed
    (p q : Pool σ) : Prop where
  noSuccess : q.successes = p.successes
  noCreate : q.batchCreates = p.batchCreates
  deleted :
    q.Drained →
      ∀ s, s ∈ p.inventory ∨ (s ∈ q.created ∧ s ∉ p.created) →
        s ∈ q.deletes
  emptied : q.Drained → q.inventory = []

end Pool

/-- A pool that is quiet when it is closed stays closed, whatever happens
afterwards. -/
theorem staysClosed_of_quiet
    (options : SessionPoolOptions) (before after : List (Event σ))
    (p q : Pool σ)
    (hbefore : runPool options before = some p)
    (hopen : p.isOpen = true)
    (hquiet : p.Quiet options.construct)
    (hafter : run (step options.construct) p (.close :: after) = some q) :
    p.StaysClosed q := by
  obtain ⟨-, hinv, howned⟩ := runPool_good hbefore hopen
  obtain ⟨r, hr, htail⟩ := run_cons_success hafter
  have hclose : r = p.close := by
    simpa [step, hopen] using hr.symm
  have hclosed : Closed options.construct p q := by
    refine
      run_invariant (I := fun q => Closed options.construct p q)
        (fun q e t hq hstep => step_closed hq hstep) ?_ htail
    rw [hclose]
    exact closed_of_quiet hinv howned hquiet
  refine
    { noSuccess := hclosed.successes
      noCreate := hclosed.batchCreates
      deleted := ?_
      emptied := ?_ }
  · rintro - s (hs | ⟨hs, hnew⟩)
    · exact hclosed.deletes s hs
    · rw [hclosed.created] at hs
      exact absurd hs hnew
  · intro hdrained
    obtain ⟨hsessions, hborrowed⟩ := hclosed.emptied hdrained.closing
    simp [Pool.inventory, hsessions, hborrowed, hclosed.immediates]

/-- Caller 8 is queued behind caller 7, whose session is being created.  `close`
rejects 7; the queue then starts 8, which gets the session. -/
theorem queued_acquire_reopens :
    ¬∀ (options : SessionPoolOptions) (before after : List (Event Nat))
        (p q : Pool Nat),
        runPool options before = some p → p.isOpen = true →
          run (step options.construct) p (.close :: after) = some q →
            p.StaysClosed q := by
  intro h
  obtain ⟨p, q, hbefore, hopen, hafter, hp, hq⟩ :
      ∃ p q : Pool Nat,
        runPool { min := 0, max := 1 }
            [.acquire 7, .startAcquire, .acquire 8] = some p ∧
          p.isOpen = true ∧
          run (step { min := 0, max := 1 }) p
              [.close, .finishClose, .resumeWaiter, .startAcquire,
                .batchCreated 0 [0], .deliver, .resumeWaiter, .checkSession,
                .finishAcquire] = some q ∧
          p.successes = [] ∧ q.successes = [(8, 0)] :=
    ⟨_, _, rfl, rfl, rfl, rfl, rfl⟩
  have hsame := (h _ _ _ p q hbefore hopen hafter).noSuccess
  rw [hp, hq] at hsame
  cases hsame

/-- Closing a pool whose only session is lent. -/
theorem staysClosed_of_quiet_lent :
    ∃ p q : Pool Nat,
      run (step { min := 0, max := 1 }) p
          [.close, .deleted none 0, .finishClose] = some q ∧
        p.borrowed = [0] ∧ q.deletes = [0] ∧ p.StaysClosed q := by
  obtain ⟨p, q, hbefore, hopen, hafter, hborrowed, hdeletes, hqueued,
      hcurrent, hresolved, hcreating, himmediates, hrounds⟩ :
      ∃ p q : Pool Nat,
        runPool { min := 0, max := 1 }
            [.acquire 7, .startAcquire, .batchCreated 0 [0], .deliver,
              .resumeWaiter, .checkSession, .finishAcquire] = some p ∧
          p.isOpen = true ∧
          run (step { min := 0, max := 1 }) p
            [.close, .deleted none 0, .finishClose] = some q ∧
          p.borrowed = [0] ∧ q.deletes = [0] ∧ p.queued = [] ∧
          p.current = none ∧ p.resolved = [] ∧ p.creating = [] ∧
          p.immediates = [] ∧ p.rounds = [] :=
    ⟨_, _, rfl, rfl, rfl, rfl, rfl, rfl, rfl, rfl, rfl, rfl, rfl⟩
  have hquiet : p.Quiet { min := 0, max := 1 } :=
    { queued := by simp [hqueued]
      current := by simp [Pool.Doomed, hcurrent]
      resolved := hresolved
      creating := hcreating
      immediates := himmediates
      rounds := Or.inl hrounds }
  exact
    ⟨p, q, hafter, hborrowed, hdeletes,
      staysClosed_of_quiet { min := 0, max := 1 } _ _ p q hbefore hopen
        hquiet hafter⟩

end SessionPool
end SpannerClient
