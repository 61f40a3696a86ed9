import SpannerClient.Machine.Decimal

/-!
# Integral JavaScript numbers

A JavaScript number is a double.  The ones that occur in an interval are
integers, and an integer is its own double as long as it is safe; a numeral
beyond that is rounded by `parseInt` to the double next to it.

The other way round, a number is printed with the fewest digits that are read
as the same double again, filled up with zeros; `Big` of a number reads this
text.  A large number is therefore printed, and comes into `Big`, as a multiple
of a power of ten that need not be its exact value: 216172782113783808 is
printed as 216172782113783800.

The definitions are

* `roundNat`, the double next to a natural number, and `parseInt`;
* `decimalAt`, the multiple of a given power of ten that stands for a double;
* `printedNat` and `bigOf`, what a number is as it is printed.

What is printed is read as the same double (`roundNat_printedNat`).  Safe
integers stay as they are (`parseInt_of_safe`, `bigOf_of_safe`), and what is
above them is not rounded to one of them (`lt_roundNat`).
-/

namespace SpannerClient
namespace Codec
namespace Interval

open Machine

/-- `Number.MAX_SAFE_INTEGER`. -/
def MAX_SAFE_INTEGER : Nat := 9007199254740991

/-- The double next to a natural number, ties to even. -/
def roundNat
    (n : Nat) : Nat :=
  if n ≤ MAX_SAFE_INTEGER then
    n
  else
    let unit := 2 ^ (n.log2 - 52)
    let quotient := n / unit
    let remainder := n % unit
    if 2 * remainder > unit ∨ 2 * remainder = unit ∧ quotient % 2 = 1 then
      (quotient + 1) * unit
    else
      quotient * unit

/-- `parseInt` of a numeral; `none` is an infinity, which the callers reject. -/
def parseInt
    (n : Int) : Option Int :=
  if (roundNat n.natAbs).log2 < 1024 then
    some (signed (decide (n < 0)) (roundNat n.natAbs))
  else
    none

/-- The multiple of `10 ^ k` that is read as the double `n`, if there is one: the
one closer to `n`, the even one if both neighbours are as close. -/
def decimalAt
    (n k : Nat) : Option Nat :=
  let unit := 10 ^ k
  let quotient := n / unit
  let remainder := n % unit
  let below := quotient * unit
  let above := (quotient + 1) * unit
  if roundNat below = n then
    if roundNat above = n ∧
        (2 * remainder > unit ∨ 2 * remainder = unit ∧ quotient % 2 = 1) then
      some above
    else
      some below
  else if roundNat above = n then
    some above
  else
    none

/-- The largest power of ten up to `10 ^ k` leaves the fewest digits. -/
def printedFrom
    (n : Nat) : Nat → Nat
  | 0 => n
  | k + 1 => (decimalAt n (k + 1)).getD (printedFrom n k)

/-- The value of the text that `String` makes of a double. -/
def printedNat
    (n : Nat) : Nat :=
  printedFrom n (Nat.toDigits 10 n).length

/-- `Big` of a number, which reads the text of the number. -/
def bigOf
    (n : Int) : Int :=
  signed (decide (n < 0)) (printedNat n.natAbs)

example : printedNat 216172782113783808 = 216172782113783800 := by decide

/-! ## Safe integers -/

theorem roundNat_of_safe
    {n : Nat}
    (hn : n ≤ MAX_SAFE_INTEGER) :
    roundNat n = n := by
  rw [roundNat, if_pos hn]

theorem parseInt_of_safe
    {n : Int}
    (hn : n.natAbs ≤ MAX_SAFE_INTEGER) :
    parseInt n = some n := by
  have hlog : n.natAbs.log2 < 1024 := by
    by_cases hzero : n.natAbs = 0
    · rw [hzero]
      decide
    · have hlt : n.natAbs < 2 ^ 53 := Nat.lt_of_le_of_lt hn (by decide)
      have hfits := (Nat.log2_lt hzero).mpr hlt
      omega
  rw [parseInt, roundNat_of_safe hn]
  rw [if_pos hlog, signed_natAbs]

/-- What is above the safe integers is not rounded to one of them. -/
theorem lt_roundNat
    {n : Nat}
    (hn : MAX_SAFE_INTEGER < n) :
    MAX_SAFE_INTEGER < roundNat n := by
  have hsafe : MAX_SAFE_INTEGER = 2 ^ 53 - 1 := by decide
  have hne : n ≠ 0 := by omega
  have hlog : 53 ≤ n.log2 := by
    rw [Nat.le_log2 hne]
    omega
  have hunit : 0 < 2 ^ (n.log2 - 52) := Nat.two_pow_pos _
  have hquotient : 2 ^ 52 ≤ n / 2 ^ (n.log2 - 52) := by
    rw [Nat.le_div_iff_mul_le hunit, ← Nat.pow_add,
      show 52 + (n.log2 - 52) = n.log2 by omega]
    exact Nat.log2_self_le hne
  have hproduct :
      2 ^ 53 ≤ n / 2 ^ (n.log2 - 52) * 2 ^ (n.log2 - 52) := by
    calc
      2 ^ 53 ≤ 2 ^ n.log2 := Nat.pow_le_pow_right (by decide) hlog
      _ = 2 ^ 52 * 2 ^ (n.log2 - 52) := by
        rw [← Nat.pow_add, show 52 + (n.log2 - 52) = n.log2 by omega]
      _ ≤ n / 2 ^ (n.log2 - 52) * 2 ^ (n.log2 - 52) :=
        Nat.mul_le_mul_right _ hquotient
  rw [roundNat, if_neg (Nat.not_le.mpr hn)]
  dsimp only
  split
  · rw [Nat.succ_mul]
    omega
  · omega

/-- Only a safe integer itself is rounded to it. -/
theorem eq_of_roundNat_eq
    {m n : Nat}
    (hn : n ≤ MAX_SAFE_INTEGER)
    (h : roundNat m = n) :
    m = n := by
  have hm : m ≤ MAX_SAFE_INTEGER := by
    by_contra hbeyond
    have hround := lt_roundNat (Nat.not_le.mp hbeyond)
    omega
  rw [← h, roundNat_of_safe hm]

/-! ## What is printed -/

/-- What stands for a double is read as this double. -/
theorem roundNat_of_decimalAt
    {n k d : Nat}
    (h : decimalAt n k = some d) :
    roundNat d = n := by
  rw [decimalAt] at h
  split at h
  · rename_i hbelow
    split at h
    · rename_i habove
      rw [← Option.some.inj h]
      exact habove.1
    · rw [← Option.some.inj h]
      exact hbelow
  · split at h
    · rename_i habove
      rw [← Option.some.inj h]
      exact habove
    · cases h

theorem roundNat_printedFrom
    {n : Nat}
    (hn : roundNat n = n) (k : Nat) :
    roundNat (printedFrom n k) = n := by
  induction k with
  | zero => exact hn
  | succ k ih =>
      rw [printedFrom]
      cases hd : decimalAt n (k + 1) with
      | none => exact ih
      | some d => exact roundNat_of_decimalAt hd

/-- The text of a double is read as this double. -/
theorem roundNat_printedNat
    {n : Nat}
    (hn : roundNat n = n) :
    roundNat (printedNat n) = n :=
  roundNat_printedFrom hn _

/-- A safe integer is printed exactly. -/
theorem bigOf_of_safe
    {n : Int}
    (hn : n.natAbs ≤ MAX_SAFE_INTEGER) :
    bigOf n = n := by
  have hprinted :=
    eq_of_roundNat_eq hn (roundNat_printedNat (roundNat_of_safe hn))
  rw [bigOf, hprinted, signed_natAbs]

end Interval
end Codec
end SpannerClient
