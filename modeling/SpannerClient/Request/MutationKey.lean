import Mathlib.Algebra.Order.Floor.Semiring
import Mathlib.Data.List.Induction
import Mathlib.Data.Rat.Floor
import SpannerClient.Request.Rows

/-!
# The mutation key

A read-write transaction that only writes mutations begins with one of them.
`_setMutationKey` takes any that is not an `insert`, at random; among `insert`s it
keeps a running maximum of the numbers of rows, with the candidates that reach it.

The loop over the mutations is a fold of `partitionStep`; what it leaves is the list
of the mutations of high priority and the best candidates of the others
(`foldl_partitionStep`, `best_foldl`).  The random number is an argument, and the
index it is turned into is within the list (`RandomNumber.index_lt`).

The main result is `setMutationKey_wellChosen`, for every list of mutations and
every draw.
-/

namespace SpannerClient
namespace Request

open Codec

variable {ν : Type}

/-! ## The model -/

/-- What `Math.random` returns. -/
structure RandomNumber where
  value : ℚ
  nonneg : 0 ≤ value
  lt_one : value < 1

/-- `Math.floor(Math.random() * length)`. -/
def RandomNumber.index
    (random : RandomNumber) (length : Nat) : Nat :=
  ⌊random.value * length⌋₊

def Operation.method : Operation → String
  | .insert => "insert"
  | .update => "update"
  | .insertOrUpdate => "insertOrUpdate"
  | .replace => "replace"

/-- `Object.keys(mutation)[0]`. -/
def Mutation.key : Mutation ν → String
  | .write operation _ _ _ => operation.method
  | .delete _ _ => "delete"

def highPriorityKeys : List String :=
  ["delete", "update", "replace", "insertOrUpdate"]

def lowPriorityKey : String :=
  "insert"

/-- The mutations of high and of low priority so far, and one more. -/
def partitionStep
    (acc : List (Mutation ν) × List (Mutation ν)) (mutation : Mutation ν) :
    List (Mutation ν) × List (Mutation ν) :=
  if highPriorityKeys.contains mutation.key then
    (acc.1 ++ [mutation], acc.2)
  else if mutation.key = lowPriorityKey then
    (acc.1, acc.2 ++ [mutation])
  else
    acc

/-- `mutation.insert?.values?.length || 0`. -/
def Mutation.insertSize : Mutation ν → Nat
  | .write .insert _ _ values => values.length
  | _ => 0

structure Candidates (ν : Type) where
  maxSize : Int := -1
  bestCandidates : List (Mutation ν) := []

/-- The best candidates so far, and one more mutation. -/
def Candidates.step
    (acc : Candidates ν) (mutation : Mutation ν) : Candidates ν :=
  if acc.maxSize < mutation.insertSize then
    { maxSize := mutation.insertSize, bestCandidates := [mutation] }
  else if mutation.insertSize = acc.maxSize then
    { acc with bestCandidates := acc.bestCandidates ++ [mutation] }
  else
    acc

/-- `_setMutationKey`: the key afterwards, from the key before. -/
def setMutationKey
    (random : RandomNumber) (mutations : List (Mutation ν))
    (mutationKey : Option (Mutation ν)) : Option (Mutation ν) :=
  if mutations.length = 0 then
    mutationKey
  else
    let (highPriority, lowPriority) := mutations.foldl partitionStep ([], [])
    if 0 < highPriority.length then
      highPriority[random.index highPriority.length]?
    else if 0 < lowPriority.length then
      let { bestCandidates, .. } := lowPriority.foldl Candidates.step {}
      bestCandidates[random.index bestCandidates.length]?
    else
      none

/-! ## The choice -/

theorem RandomNumber.index_lt
    (random : RandomNumber) {length : Nat}
    (h : 0 < length) :
    random.index length < length := by
  have hlength : (0 : ℚ) < length := Nat.cast_pos.mpr h
  refine (Nat.floor_lt (mul_nonneg random.nonneg hlength.le)).mpr ?_
  calc
    random.value * length < 1 * length :=
      mul_lt_mul_of_pos_right random.lt_one hlength
    _ = length := one_mul _

/-- Whatever the random number, an element of the list is chosen. -/
theorem exists_chosen
    (random : RandomNumber) {mutations : List (Mutation ν)}
    (h : mutations ≠ []) :
    ∃ mutation ∈ mutations,
      mutations[random.index mutations.length]? = some mutation := by
  have hindex := random.index_lt (List.length_pos_iff.mpr h)
  exact ⟨_, List.getElem_mem hindex, List.getElem?_eq_getElem hindex⟩

/-! ## The partition -/

/-- The mutation does something else than inserting rows. -/
def Mutation.IsHighPriority : Mutation ν → Prop
  | .write operation _ _ _ => operation ≠ .insert
  | .delete _ _ => True

instance (mutation : Mutation ν) :
    Decidable mutation.IsHighPriority :=
  match mutation with
  | .write operation _ _ _ => inferInstanceAs (Decidable (operation ≠ .insert))
  | .delete _ _ => inferInstanceAs (Decidable True)

theorem contains_key_iff
    (mutation : Mutation ν) :
    highPriorityKeys.contains mutation.key ↔ mutation.IsHighPriority := by
  cases mutation with
  | write operation table columns values =>
      cases operation <;>
        simp [highPriorityKeys, Mutation.key, Operation.method,
          Mutation.IsHighPriority]
  | delete table keySet =>
      simp [highPriorityKeys, Mutation.key, Mutation.IsHighPriority]

/-- What is not of high priority is an `insert`: no mutation is left out. -/
theorem key_eq_lowPriorityKey
    {mutation : Mutation ν}
    (h : ¬ mutation.IsHighPriority) :
    mutation.key = lowPriorityKey := by
  cases mutation with
  | write operation table columns values =>
      rw [Mutation.IsHighPriority, not_not] at h
      rw [h]
      rfl
  | delete table keySet => exact absurd trivial h

theorem foldl_partitionStep
    (mutations : List (Mutation ν)) :
    mutations.foldl partitionStep ([], []) =
      (mutations.filter fun mutation => mutation.IsHighPriority,
        mutations.filter fun mutation => ¬ mutation.IsHighPriority) := by
  induction mutations using List.reverseRecOn with
  | nil => rfl
  | append_singleton mutations mutation ih =>
      rw [List.foldl_concat, ih, partitionStep]
      by_cases h : mutation.IsHighPriority
      · rw [if_pos ((contains_key_iff mutation).mpr h)]
        simp [h]
      · rw [if_neg (mt (contains_key_iff mutation).mp h),
          if_pos (key_eq_lowPriorityKey h)]
        simp [h]

/-! ## The running maximum -/

/-- What is known of the candidates after the mutations seen. -/
structure Best
    (seen : List (Mutation ν)) (acc : Candidates ν) : Prop where
  mem : ∀ mutation ∈ acc.bestCandidates, mutation ∈ seen
  size :
    ∀ mutation ∈ acc.bestCandidates,
      (mutation.insertSize : Int) = acc.maxSize
  bound : ∀ mutation ∈ seen, (mutation.insertSize : Int) ≤ acc.maxSize
  started : acc.maxSize = -1 ∨ acc.bestCandidates ≠ []

theorem best_nil :
    Best ([] : List (Mutation ν)) {} where
  mem := by simp
  size := by simp
  bound := by simp
  started := .inl rfl

theorem Best.step
    {seen : List (Mutation ν)} {acc : Candidates ν}
    (h : Best seen acc) (mutation : Mutation ν) :
    Best (seen ++ [mutation]) (acc.step mutation) := by
  rw [Candidates.step]
  split
  · rename_i hlarger
    refine ⟨by simp, by simp, ?_, .inr (by simp)⟩
    intro other hother
    rcases List.mem_append.mp hother with hseen | hnew
    · have hbound := h.bound other hseen
      simp only
      omega
    · rw [List.mem_singleton.mp hnew]
  · rename_i hbounded
    have hbound :
        ∀ other ∈ seen ++ [mutation],
          (other.insertSize : Int) ≤ acc.maxSize := by
      intro other hother
      rcases List.mem_append.mp hother with hseen | hnew
      · exact h.bound other hseen
      · rw [List.mem_singleton.mp hnew]
        omega
    split
    · rename_i hequal
      refine ⟨?_, ?_, hbound, .inr (by simp)⟩
      · intro other hother
        rcases List.mem_append.mp hother with hbest | hnew
        · exact List.mem_append_left _ (h.mem other hbest)
        · exact List.mem_append_right _ hnew
      · intro other hother
        rcases List.mem_append.mp hother with hbest | hnew
        · exact h.size other hbest
        · rw [List.mem_singleton.mp hnew]
          exact hequal
    · exact
        ⟨fun other hother => List.mem_append_left _ (h.mem other hother),
          h.size, hbound, h.started⟩

theorem best_foldl
    (mutations : List (Mutation ν)) :
    Best mutations (mutations.foldl Candidates.step {}) := by
  induction mutations using List.reverseRecOn with
  | nil => exact best_nil
  | append_singleton mutations mutation ih =>
      rw [List.foldl_concat]
      exact ih.step mutation

/-- A mutation has been seen, and its size is more than the one to begin with. -/
theorem Best.bestCandidates_ne_nil
    {seen : List (Mutation ν)} {acc : Candidates ν}
    (h : Best seen acc)
    (hseen : seen ≠ []) :
    acc.bestCandidates ≠ [] := by
  obtain ⟨mutation, hmutation⟩ := List.exists_mem_of_ne_nil seen hseen
  have hbound := h.bound mutation hmutation
  rcases h.started with hmaxSize | hcandidates
  · omega
  · exact hcandidates

/-! ## The key -/

/-- The rows that the mutation writes. -/
def Mutation.rows : Mutation ν → List (List (ProtoValue ν))
  | .write _ _ _ values => values
  | .delete _ _ => []

theorem insertSize_of_not_isHighPriority
    {mutation : Mutation ν}
    (h : ¬ mutation.IsHighPriority) :
    mutation.insertSize = mutation.rows.length := by
  cases mutation with
  | write operation table columns values =>
      rw [Mutation.IsHighPriority, not_not] at h
      rw [h]
      rfl
  | delete table keySet => exact absurd trivial h

/-- One of the mutations, of high priority if there is one, and otherwise an
`insert` with the most rows. -/
structure WellChosen
    (mutations : List (Mutation ν)) (key : Mutation ν) : Prop where
  mem : key ∈ mutations
  highPriority :
    (∃ mutation ∈ mutations, mutation.IsHighPriority) → key.IsHighPriority
  largest :
    (¬ ∃ mutation ∈ mutations, mutation.IsHighPriority) →
      key.key = lowPriorityKey ∧
        ∀ mutation ∈ mutations, mutation.rows.length ≤ key.rows.length

/-- Whatever the mutations and the random number, the key is well chosen. -/
theorem setMutationKey_wellChosen
    (random : RandomNumber) (mutations : List (Mutation ν))
    (mutationKey : Option (Mutation ν))
    (h : mutations ≠ []) :
    ∃ key, setMutationKey random mutations mutationKey = some key ∧
      WellChosen mutations key := by
  have hlength : mutations.length ≠ 0 := mt List.length_eq_zero_iff.mp h
  rw [setMutationKey, if_neg hlength, foldl_partitionStep]
  by_cases hhigh : ∃ mutation ∈ mutations, mutation.IsHighPriority
  · have hne :
        (mutations.filter fun mutation => mutation.IsHighPriority) ≠ [] := by
      obtain ⟨mutation, hmutation, hpriority⟩ := hhigh
      exact
        List.ne_nil_of_mem
          (List.mem_filter.mpr ⟨hmutation, decide_eq_true hpriority⟩)
    obtain ⟨key, hkey, hchosen⟩ := exists_chosen random hne
    have hmem := List.mem_filter.mp hkey
    refine ⟨key, ?_, hmem.1, fun _ => of_decide_eq_true hmem.2, ?_⟩
    · simp only [List.length_pos_iff.mpr hne, if_true, hchosen]
    · exact fun hlow => absurd hhigh hlow
  · have hlow :
        ∀ mutation ∈ mutations, ¬ mutation.IsHighPriority := by
      simpa using hhigh
    have hhighEmpty :
        (mutations.filter fun mutation => mutation.IsHighPriority) = [] := by
      simpa [List.filter_eq_nil_iff] using hlow
    have hall :
        (mutations.filter fun mutation => ¬ mutation.IsHighPriority) =
          mutations := by
      simpa [List.filter_eq_self] using hlow
    have hbest := best_foldl mutations
    obtain ⟨key, hkey, hchosen⟩ :=
      exists_chosen random (hbest.bestCandidates_ne_nil h)
    have hmem := hbest.mem key hkey
    refine
      ⟨key, ?_, hmem, fun h => absurd h hhigh,
        fun _ => ⟨key_eq_lowPriorityKey (hlow key hmem), ?_⟩⟩
    · rw [hhighEmpty, hall]
      simp only [List.length_nil, lt_irrefl, if_false,
        List.length_pos_iff.mpr h, if_true, hchosen]
    · intro mutation hmutation
      have hbound := hbest.bound mutation hmutation
      rw [← hbest.size key hkey,
        insertSize_of_not_isHighPriority (hlow mutation hmutation),
        insertSize_of_not_isHighPriority (hlow key hmem)] at hbound
      exact Int.ofNat_le.mp hbound

/-- An `insert` without rows, and one with a row. -/
def twoInserts : List (Mutation Nat) :=
  [.write .insert "Singers" ["SingerId"] [],
    .write .insert "Albums" ["AlbumId"] [[.nullValue]]]

theorem setMutationKey_wellChosen_twoInserts :
    twoInserts ≠ [] ∧
      ∃ key,
        setMutationKey ⟨1 / 2, by norm_num, by norm_num⟩ twoInserts none =
            some key ∧
          WellChosen twoInserts key :=
  ⟨by simp [twoInserts],
    setMutationKey_wellChosen _ twoInserts none (by simp [twoInserts])⟩

end Request
end SpannerClient
