import SpannerClient.Machine.Containers
import SpannerClient.RequestId.Basic

/-!
# Uniqueness of the request ids

The header tells the numbers it is made of, and nothing else of the request.
None of them stands for the database, the number of the client is looked for
under a name that a `Database` does not have, and the counters have 32 bits.  So
two headers are equal exactly when the requests have the same place in the counts
of their databases, up to 32 bits, their attempts the same number, and their
clients are not shown or are the same (`Alike`).

That the counts are those of the objects made and the requests sent is an invariant
(`Counted`, `step_counted`), and the numbers can be read off a header again
(`craftRequestId_injective`).  The main result is `unique_iff_not_alike`.
-/

namespace SpannerClient
namespace RequestId

open Machine

/-! ## The header -/

def hexDigits : List Char :=
  "0123456789abcdefABCDEF".toList

theorem mem_hexDigits_of_mem_toDigits
    {n : Nat} {c : Char}
    (hc : c ∈ Nat.toDigits 16 n) :
    c ∈ hexDigits := by
  have hdigit : ∀ d < 16, Nat.digitChar d ∈ hexDigits := by decide
  induction n using Nat.strongRecOn with
  | ind n ih =>
      by_cases hlt : n < 16
      · rw [Nat.toDigits_of_lt_base hlt] at hc
        rw [List.mem_singleton.mp hc]
        exact hdigit n hlt
      · rw [Nat.toDigits_of_base_le (by decide) (by omega)] at hc
        rcases List.mem_append.mp hc with hc | hc
        · exact ih (n / 16) (by omega) hc
        · rw [List.mem_singleton.mp hc]
          exact hdigit _ (Nat.mod_lt n (by decide))

/-- The number of the process is a hexadecimal string. -/
theorem mem_hexDigits_of_mem_rand
    {n : UInt32} {c : Char}
    (hc : c ∈ randIdForProcess n) :
    c ∈ hexDigits := by
  rcases List.mem_append.mp hc with hzero | hdigit
  · rw [List.eq_of_mem_replicate hzero]
    decide
  · exact mem_hexDigits_of_mem_toDigits hdigit

theorem dot_not_mem_rand
    (n : UInt32) :
    '.' ∉ randIdForProcess n := by
  intro hmem
  exact absurd (mem_hexDigits_of_mem_rand hmem) (by decide)

/-- The header tells its numbers. -/
theorem craftRequestId_injective
    {n : UInt32} {client channel nth attempt : Nat}
    {client' channel' nth' attempt' : Nat}
    (h :
      craftRequestId (randIdForProcess n) client channel nth attempt =
        craftRequestId (randIdForProcess n) client' channel' nth' attempt') :
    client = client' ∧ channel = channel' ∧ nth = nth' ∧
      attempt = attempt' := by
  have hdots :
      ∀ client channel nth attempt : Nat,
        ∀ part ∈
          [Nat.toDigits 10 REQUEST_HEADER_VERSION, randIdForProcess n,
            Nat.toDigits 10 client, Nat.toDigits 10 channel,
            Nat.toDigits 10 nth, Nat.toDigits 10 attempt],
          '.' ∉ part := by
    intro client channel nth attempt
    have hdigits := not_mem_toDigits (x := '.') (by decide)
    simp [hdigits, dot_not_mem_rand]
  have hparts :=
    intercalate_injective (hdots client channel nth attempt)
      (hdots client' channel' nth' attempt') (by simp) (by simp)
      (String.ofList_inj.mp h)
  simp only [List.cons.injEq, and_true, true_and] at hparts
  obtain ⟨hclient, hchannel, hnth, hattempt⟩ := hparts
  exact
    ⟨toDigits_injective hclient, toDigits_injective hchannel,
      toDigits_injective hnth, toDigits_injective hattempt⟩

/-- The number of the client as the header shows it: clients are counted from 1,
and a call through a session always shows 1. -/
def Sent.clientNumber
    (s : Sent) : Nat :=
  if s.ofDatabase then orOne (some ((s.spanner + 1) % 2 ^ 32)) else 1

/-- The call goes through a session, or its client is the first one, up to
32 bits. -/
def Sent.ShowsFirst
    (s : Sent) : Prop :=
  s.ofDatabase = true → (s.spanner + 1) % 2 ^ 32 ≤ 1

/-- Nothing in the header tells the two apart: they have the same place in the
counts of their databases, they are attempts of the same number, and their
clients either are not shown or are the same. -/
structure Alike
    (s t : Sent) : Prop where
  place : s.nthRequest.added % 2 ^ 32 = t.nthRequest.added % 2 ^ 32
  attempt :
    s.attempt = t.attempt ∨ 2 ^ 53 ≤ s.attempt ∧ 2 ^ 53 ≤ t.attempt
  client :
    s.ShowsFirst ∧ t.ShowsFirst ∨
      s.ofDatabase = true ∧ t.ofDatabase = true ∧
        s.spanner % 2 ^ 32 = t.spanner % 2 ^ 32

theorem attemptNumber_eq_iff
    {m n : Nat} :
    attemptNumber m = attemptNumber n ↔
      m = n ∨ 2 ^ 53 ≤ m ∧ 2 ^ 53 ≤ n := by
  unfold attemptNumber
  omega

theorem clientNumber_eq_iff
    {s t : Sent} :
    s.clientNumber = t.clientNumber ↔
      s.ShowsFirst ∧ t.ShowsFirst ∨
        s.ofDatabase = true ∧ t.ofDatabase = true ∧
          s.spanner % 2 ^ 32 = t.spanner % 2 ^ 32 := by
  unfold Sent.clientNumber Sent.ShowsFirst orOne
  cases hs : s.ofDatabase <;> cases ht : t.ofDatabase <;>
    simp only [reduceCtorEq, false_implies, true_implies, if_false, if_true,
      true_and, false_and, and_false, and_true, or_false]
  · split <;> omega
  · split <;> omega
  · split <;> split <;> omega

/-- The headers of different attempts are different. -/
def Unique
    (p : Process) : Prop :=
  ∀ s ∈ p.sent, ∀ t ∈ p.sent,
    (s.database, s.request, s.attempt) ≠ (t.database, t.request, t.attempt) →
      s.header ≠ t.header

/-! ## What every header is made of -/

/-- The clients are counted, and a database knows the number of its own. -/
structure Counted
    (p : Process) : Prop where
  added : p.nthClientId.added = p.spanners.length
  spanners :
    ∀ (k : Nat) n, p.spanners[k]? = some n → n = (k + 1) % 2 ^ 32
  databases :
    ∀ (i : Nat) database, p.databases[i]? = some database →
      database.clientId = (database.spanner + 1) % 2 ^ 32
  sent :
    ∀ s ∈ p.sent,
      s.header =
        craftRequestId p.rand s.clientNumber 1 s.nthRequest.value
          (attemptNumber s.attempt)

variable {p q : Process}

/-- A number is drawn: the client of the database stays the same. -/
theorem nextNthRequest_client
    (database : Database) :
    database.nextNthRequest.2.spanner = database.spanner ∧
      database.nextNthRequest.2.clientId = database.clientId :=
  ⟨rfl, rfl⟩

theorem injectedNthRequest_client
    (database : Database) (nthRequest : Option AtomicCounter) :
    (injectedNthRequest database nthRequest).2.spanner = database.spanner ∧
      (injectedNthRequest database nthRequest).2.clientId =
        database.clientId := by
  unfold injectedNthRequest
  split
  · exact nextNthRequest_client database
  · split
    · exact nextNthRequest_client database
    · exact ⟨rfl, rfl⟩

/-- A header sent through a session never shows the client. -/
theorem sessionHeader_header
    (i request attempt : Nat) (database : Database)
    (nthRequest : AtomicCounter) :
    (p.sessionHeader i request attempt database nthRequest).header =
      craftRequestId p.rand
        (p.sessionHeader i request attempt database nthRequest).clientNumber
        1 nthRequest.value (attemptNumber attempt) := by
  rfl

theorem databaseHeader_header
    {database : Database}
    (hclient : database.clientId = (database.spanner + 1) % 2 ^ 32)
    (i request : Nat) (nthRequest : AtomicCounter) :
    (p.databaseHeader i request database nthRequest).header =
      craftRequestId p.rand
        (p.databaseHeader i request database nthRequest).clientNumber 1
        nthRequest.value (attemptNumber 1) := by
  simp [Process.databaseHeader, Database.metadataWithRequestId,
    Sent.clientNumber, hclient]

/-- A call keeps the counts, if its headers are made as they should. -/
theorem Counted.record
    (h : Counted p)
    {i : Nat} {database database' : Database}
    (hi : p.databases[i]? = some database)
    (hspanner : database'.spanner = database.spanner)
    (hclientId : database'.clientId = database.clientId)
    (request : Request)
    {sent : List Sent}
    (hsent :
      ∀ s ∈ sent,
        s.header =
          craftRequestId p.rand s.clientNumber 1 s.nthRequest.value
            (attemptNumber s.attempt)) :
    Counted (p.record i database' request sent) where
  added := h.added
  spanners := h.spanners
  databases := by
    intro j other hj
    rcases getElem?_set_some hj with ⟨-, rfl⟩ | ⟨-, hj⟩
    · rw [hspanner, hclientId]
      exact h.databases i database hi
    · exact h.databases j other hj
  sent := by
    intro s hs
    rcases List.mem_append.mp hs with hold | hnew
    · exact h.sent s hold
    · exact hsent s hnew

theorem call_counted
    (h : Counted p)
    {i : Nat} {database : Database}
    (hi : p.databases[i]? = some database)
    (method : Method) :
    Counted (p.call i database method) := by
  have hnone : ∀ s ∈ ([] : List Sent), s.header =
      craftRequestId p.rand s.clientNumber 1 s.nthRequest.value
        (attemptNumber s.attempt) := by
    simp
  have hone :
      ∀ (database' : Database) (nthRequest : AtomicCounter),
        ∀ s ∈ [p.sessionHeader i p.requests.length 1 database' nthRequest],
          s.header =
            craftRequestId p.rand s.clientNumber 1 s.nthRequest.value
              (attemptNumber s.attempt) := by
    intro database' nthRequest s hs
    obtain rfl := List.mem_singleton.mp hs
    exact sessionHeader_header i _ 1 database' nthRequest
  cases method with
  | database =>
      obtain ⟨hspanner, hclientId⟩ := nextNthRequest_client database
      refine h.record hi hspanner hclientId _ ?_
      intro s hs
      obtain rfl := List.mem_singleton.mp hs
      exact databaseHeader_header (h.databases i database hi) i _ _
  | session =>
      obtain ⟨hspanner, hclientId⟩ :=
        injectedNthRequest_client database.nextNthRequest.2
          (some database.nextNthRequest.1)
      exact h.record hi hspanner hclientId _ (hone _ _)
  | begin =>
      obtain ⟨hspanner, hclientId⟩ := injectedNthRequest_client database none
      exact h.record hi hspanner hclientId _ (hone _ _)
  | partition =>
      obtain ⟨hspanner, hclientId⟩ := injectedNthRequest_client database none
      obtain ⟨hspanner', hclientId'⟩ :=
        injectedNthRequest_client (injectedNthRequest database none).2 none
      exact
        h.record hi (hspanner'.trans hspanner) (hclientId'.trans hclientId) _
          (hone _ _)
  | getMetadata =>
      obtain ⟨hspanner, hclientId⟩ := nextNthRequest_client database
      exact h.record hi hspanner hclientId _ hnone
  | stream =>
      obtain ⟨hspanner, hclientId⟩ := nextNthRequest_client database
      exact h.record hi hspanner hclientId _ hnone

theorem makeRequest_counted
    (h : Counted p)
    {k : Nat} {request : Request} {database : Database}
    (hi : p.databases[request.database]? = some database) :
    Counted (p.makeRequest k request database) := by
  obtain ⟨hspanner, hclientId⟩ :=
    injectedNthRequest_client database (some request.nthRequest)
  have hdatabases :
      (p.makeRequest k request database).databases =
        p.databases.set request.database
          (injectedNthRequest database (some request.nthRequest)).2 := by
    rfl
  refine ⟨h.added, h.spanners, ?_, ?_⟩
  · rw [hdatabases]
    intro j other hj
    rcases getElem?_set_some hj with ⟨-, heq⟩ | ⟨-, hj⟩
    · rw [heq, hspanner, hclientId]
      exact h.databases request.database database hi
    · exact h.databases j other hj
  · intro s hs
    rcases List.mem_append.mp hs with hold | hnew
    · exact h.sent s hold
    · obtain rfl := List.mem_singleton.mp hnew
      exact sessionHeader_header request.database k _ _ _

theorem newSpanner_counted
    (h : Counted p) :
    Counted p.newSpanner where
  added := by
    simp [Process.newSpanner, AtomicCounter.increment, h.added]
  spanners := by
    intro k n hk
    rcases getElem?_snoc_some hk with ⟨rfl, rfl⟩ | ⟨-, hk⟩
    · simp [AtomicCounter.increment, AtomicCounter.value, h.added]
    · exact h.spanners k n hk
  databases := h.databases
  sent := h.sent

theorem newDatabase_counted
    (h : Counted p)
    {spanner nthClientId : Nat}
    (hspanner : p.spanners[spanner]? = some nthClientId) :
    Counted (p.newDatabase spanner nthClientId) where
  added := h.added
  spanners := h.spanners
  databases := by
    intro i database hi
    rcases getElem?_snoc_some hi with ⟨-, rfl⟩ | ⟨-, hi⟩
    · exact h.spanners spanner nthClientId hspanner
    · exact h.databases i database hi
  sent := h.sent

/-- Every event keeps the counts, and the number of the process. -/
theorem step_counted
    {e : Event}
    (h : Counted p)
    (hstep : step p e = some q) :
    Counted q := by
  cases e with
  | newSpanner =>
      obtain rfl := Option.some.inj hstep
      exact newSpanner_counted h
  | newDatabase spanner =>
      obtain ⟨nthClientId, hspanner, rfl⟩ := Option.map_eq_some_iff.mp hstep
      exact newDatabase_counted h hspanner
  | call i method =>
      obtain ⟨database, hi, rfl⟩ := Option.map_eq_some_iff.mp hstep
      exact call_counted h hi method
  | makeRequest k =>
      simp only [step] at hstep
      split at hstep
      · cases hstep
      · split at hstep
        · obtain ⟨database, hi, rfl⟩ := Option.map_eq_some_iff.mp hstep
          exact makeRequest_counted h hi
        · cases hstep

theorem new_counted
    (random : UInt32) :
    Counted { random := random } where
  added := rfl
  spanners := fun _ _ hk => by cases hk
  databases := fun _ _ hi => by cases hi
  sent := fun _ hs => by cases hs

/-- Two headers are equal exactly when nothing in them tells them apart. -/
theorem Counted.header_eq_iff
    (h : Counted p)
    {s t : Sent}
    (hs : s ∈ p.sent) (ht : t ∈ p.sent) :
    s.header = t.header ↔ Alike s t := by
  rw [h.sent s hs, h.sent t ht]
  constructor
  · intro heq
    obtain ⟨hclient, -, hnth, hattempt⟩ := craftRequestId_injective heq
    exact
      ⟨hnth, attemptNumber_eq_iff.mp hattempt,
        clientNumber_eq_iff.mp hclient⟩
  · rintro ⟨hnth, hattempt, hclient⟩
    rw [clientNumber_eq_iff.mpr hclient, attemptNumber_eq_iff.mpr hattempt,
      AtomicCounter.value, hnth, ← AtomicCounter.value]

/-- The request ids of a process are different exactly when no two attempts are
alike in all that the header shows. -/
theorem unique_iff_not_alike
    (random : UInt32) (es : List Event) (p : Process)
    (hrun : run step { random := random } es = some p) :
    Unique p ↔
      ∀ s ∈ p.sent, ∀ t ∈ p.sent,
        (s.database, s.request, s.attempt) ≠
            (t.database, t.request, t.attempt) →
          ¬Alike s t := by
  have hcounted :=
    run_invariant (fun _ _ _ h hstep => step_counted h hstep)
      (new_counted random) hrun
  refine forall₂_congr fun s hs => forall₂_congr fun t ht => ?_
  refine imp_congr_right fun _ => ?_
  exact not_congr (hcounted.header_eq_iff hs ht)

/-- One client with two databases, each of which creates a session. -/
def twoDatabases : List Event :=
  [.newSpanner, .newDatabase 0, .newDatabase 0, .call 0 .database,
    .call 1 .database]

/-- The two requests have the same id. -/
theorem twoDatabases_not_unique :
    ¬∀ (random : UInt32) (es : List Event) (p : Process),
        run step { random := random } es = some p → Unique p := by
  intro h
  obtain ⟨p, hrun, s, t, hs, ht, hne, heq⟩ :
      ∃ p, run step { random := 0 } twoDatabases = some p ∧
        ∃ s t, s ∈ p.sent ∧ t ∈ p.sent ∧
          (s.database, s.request, s.attempt) ≠
            (t.database, t.request, t.attempt) ∧
          s.header = t.header :=
    ⟨_, rfl, _, _, List.mem_cons_self,
      List.mem_cons_of_mem _ List.mem_cons_self, by decide, rfl⟩
  exact h 0 twoDatabases p hrun s hs t ht hne heq

/-- One database: a session, and a query that is sent twice. -/
def oneDatabase : List Event :=
  [.newSpanner, .newDatabase 0, .call 0 .database, .call 0 .stream,
    .makeRequest 1, .makeRequest 1]

theorem unique_iff_not_alike_oneDatabase :
    ∃ p : Process,
      run step { random := 0 } oneDatabase = some p ∧
        p.sent.map Sent.header =
          ["1.00000000.1.1.1.1", "1.00000000.1.1.2.1",
            "1.00000000.1.1.2.2"] ∧
        (Unique p ↔
          ∀ s ∈ p.sent, ∀ t ∈ p.sent,
            (s.database, s.request, s.attempt) ≠
                (t.database, t.request, t.attempt) →
              ¬Alike s t) := by
  obtain ⟨p, hrun, hheaders⟩ :
      ∃ p : Process,
        run step { random := 0 } oneDatabase = some p ∧
          p.sent.map Sent.header =
            ["1.00000000.1.1.1.1", "1.00000000.1.1.2.1",
              "1.00000000.1.1.2.2"] :=
    ⟨_, rfl, by decide⟩
  exact ⟨p, hrun, hheaders, unique_iff_not_alike 0 oneDatabase p hrun⟩

end RequestId
end SpannerClient
