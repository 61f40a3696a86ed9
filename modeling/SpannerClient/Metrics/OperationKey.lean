import SpannerClient.Metrics.Isolation
import SpannerClient.RequestId.Uniqueness

/-!
# The keys of the operations

The factory looks tracers up by what is left of a request id without its attempt
number.  The parts of an id have no dots in them, so that it tells them apart.

The parts are the version, the random number of the process, which is a hexadecimal
string, and four naturals in decimal digits.  In the code these are numbers that
are counted up from one and stay below 2^53; from 10^21 on a number would be printed
with an exponent, and the parts would not be digits.

The main result is `operationKey_identifiesRequests`: the key of a request is not
empty, does not depend on the attempt, and is another one for every other request.
-/

namespace SpannerClient
namespace Metrics

open Machine
open RequestId (craftRequestId hexDigits randIdForProcess
  REQUEST_HEADER_VERSION)

/-- The number of a process: a hexadecimal string. -/
structure Hexadecimal
    (rand : List Char) : Prop where
  ne_nil : rand ≠ []
  digits : ∀ c ∈ rand, c ∈ hexDigits

theorem hexadecimal_randIdForProcess
    (n : UInt32) :
    Hexadecimal (randIdForProcess n) where
  ne_nil := List.append_ne_nil_of_right_ne_nil _ Nat.toDigits_ne_nil
  digits _ hc := RequestId.mem_hexDigits_of_mem_rand hc

theorem isAlphanumeric_of_hexadecimal
    {rand : List Char}
    (h : Hexadecimal rand) :
    isAlphanumeric rand = true := by
  have hhex : hexDigits.all Char.isAlphanum = true := by decide
  have hall : rand.all Char.isAlphanum = true :=
    List.all_eq_true.mpr fun c hc =>
      List.all_eq_true.mp hhex c (h.digits c hc)
  have hne : rand.isEmpty = false := List.isEmpty_eq_false_iff.mpr h.ne_nil
  rw [isAlphanumeric, hall, hne]
  rfl

theorem isDigits_toDigits
    (n : Nat) :
    isDigits (Nat.toDigits 10 n) = true := by
  have hdigits := digits_toDigits n
  have hall : (Nat.toDigits 10 n).all Char.isDigit = true :=
    List.all_eq_true.mpr hdigits.isDigit
  have hne : (Nat.toDigits 10 n).isEmpty = false :=
    List.isEmpty_eq_false_iff.mpr hdigits.ne_nil
  rw [isDigits, hall, hne]
  rfl

/-- The parts of a request id without the attempt number. -/
def operationParts
    (rand : List Char) (nthClientId channelId nthRequest : Nat) :
    List (List Char) :=
  [Nat.toDigits 10 REQUEST_HEADER_VERSION, rand, Nat.toDigits 10 nthClientId,
    Nat.toDigits 10 channelId, Nat.toDigits 10 nthRequest]

/-- The key of a request: its id without the attempt number. -/
def operationKey
    (rand : List Char) (nthClientId channelId nthRequest attempt : Nat) :
    String :=
  extractOperationRequest
    (some (craftRequestId rand nthClientId channelId nthRequest attempt))

section Key

variable {rand : List Char}

theorem dot_not_mem_operationParts
    (h : Hexadecimal rand) (nthClientId channelId nthRequest : Nat) :
    ∀ part ∈ operationParts rand nthClientId channelId nthRequest,
      '.' ∉ part := by
  have hnumber (n : Nat) := not_mem_of_isDigits (isDigits_toDigits n)
  have hrand := not_mem_of_isAlphanumeric (isAlphanumeric_of_hexadecimal h)
  simp [operationParts, hnumber, hrand]

theorem operationKey_eq
    (h : Hexadecimal rand)
    (nthClientId channelId nthRequest attempt : Nat) :
    operationKey rand nthClientId channelId nthRequest attempt =
      String.ofList
        (['.'].intercalate
          (operationParts rand nthClientId channelId nthRequest)) := by
  have hparts :
      (craftRequestId rand nthClientId channelId nthRequest
          attempt).toList.splitOn '.' =
        operationParts rand nthClientId channelId nthRequest ++
          [Nat.toDigits 10 attempt] := by
    rw [craftRequestId, String.toList_ofList]
    refine List.splitOn_intercalate '.' ?_ (by simp)
    intro part hpart
    change
      part ∈ operationParts rand nthClientId channelId nthRequest ++
        [Nat.toDigits 10 attempt] at hpart
    rcases List.mem_append.mp hpart with hpart | hpart
    · exact dot_not_mem_operationParts h _ _ _ part hpart
    · rw [List.mem_singleton.mp hpart]
      exact not_mem_of_isDigits (isDigits_toDigits attempt)
  have hne :
      craftRequestId rand nthClientId channelId nthRequest attempt ≠ "" := by
    intro hempty
    rw [hempty] at hparts
    simp [operationParts] at hparts
  rw [operationKey, extractOperationRequest]
  simp only [if_neg hne, matchOperationRequest, hparts, operationParts,
    List.cons_append, List.nil_append, isDigits_toDigits,
    isAlphanumeric_of_hexadecimal h, Bool.and_self, if_true]

end Key

/-- Keys identify requests. -/
structure IdentifiesRequests
    (rand : List Char) : Prop where
  ne_empty :
    ∀ nthClientId channelId nthRequest attempt,
      operationKey rand nthClientId channelId nthRequest attempt ≠ ""
  attempts :
    ∀ nthClientId channelId nthRequest attempt attempt',
      operationKey rand nthClientId channelId nthRequest attempt =
        operationKey rand nthClientId channelId nthRequest attempt'
  injective :
    ∀ nthClientId channelId nthRequest attempt nthClientId' channelId'
        nthRequest' attempt',
      operationKey rand nthClientId channelId nthRequest attempt =
          operationKey rand nthClientId' channelId' nthRequest' attempt' →
        nthClientId = nthClientId' ∧ channelId = channelId' ∧
          nthRequest = nthRequest'

/-- Whatever the numbers of the request and the hexadecimal string of the
process. -/
theorem operationKey_identifiesRequests
    (rand : List Char)
    (h : Hexadecimal rand) :
    IdentifiesRequests rand where
  ne_empty nthClientId channelId nthRequest attempt := by
    rw [operationKey_eq h]
    intro hempty
    have hlist := String.ofList_injective (hempty.trans String.ofList_nil.symm)
    simp [operationParts, List.intercalate] at hlist
  attempts nthClientId channelId nthRequest attempt attempt' := by
    rw [operationKey_eq h, operationKey_eq h]
  injective nthClientId channelId nthRequest attempt nthClientId' channelId'
      nthRequest' attempt' hkeys := by
    rw [operationKey_eq h, operationKey_eq h] at hkeys
    have hparts :=
      intercalate_injective
        (dot_not_mem_operationParts h nthClientId channelId nthRequest)
        (dot_not_mem_operationParts h nthClientId' channelId' nthRequest')
        (by simp [operationParts]) (by simp [operationParts])
        (String.ofList_injective hkeys)
    simp only [operationParts, List.cons.injEq, and_true, true_and] at hparts
    exact
      ⟨toDigits_injective hparts.1, toDigits_injective hparts.2.1,
        toDigits_injective hparts.2.2⟩

/-- For the string that the process makes of its random number. -/
theorem operationKey_identifiesRequests_random :
    Hexadecimal (randIdForProcess 0xC0FFEE) ∧
      IdentifiesRequests (randIdForProcess 0xC0FFEE) :=
  ⟨hexadecimal_randIdForProcess 0xC0FFEE,
    operationKey_identifiesRequests (randIdForProcess 0xC0FFEE)
      (hexadecimal_randIdForProcess 0xC0FFEE)⟩

end Metrics
end SpannerClient
