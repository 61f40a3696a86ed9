import SpannerClient.Machine.Decimal

/-!
# Base64

Three bytes are written as four characters; one or two bytes at the end as two or
three characters and padding.  A text is read four characters at a time; one that
has another length, another character or misplaced padding is none.

* What has been written is read again (`unbase64_base64`), so that a field of bytes
  may be passed on as a text and sent as the same bytes.
* The text of a single byte is no decimal number (`base64_singleton_ne_repr`).
-/

namespace SpannerClient
namespace Machine

def base64Alphabet : List Char :=
  "ABCDEFGHIJKLMNOPQRSTUVWXYZabcdefghijklmnopqrstuvwxyz0123456789+/".toList

/-- The character of six bits. -/
def base64Char
    (n : Nat) : Char :=
  base64Alphabet.getD n '='

def base64Chars : List Nat → List Char
  | [] => []
  | [a] => [base64Char (a / 4), base64Char (a % 4 * 16), '=', '=']
  | [a, b] =>
      [base64Char (a / 4), base64Char (a % 4 * 16 + b / 16),
        base64Char (b % 16 * 4), '=']
  | a :: b :: c :: bytes =>
      base64Char (a / 4) :: base64Char (a % 4 * 16 + b / 16) ::
        base64Char (b % 16 * 4 + c / 64) :: base64Char (c % 64) ::
          base64Chars bytes

/-- The base64 text of bytes. -/
def base64
    (bytes : List UInt8) : String :=
  String.ofList (base64Chars (bytes.map UInt8.toNat))

/-- The six bits that a character stands for. -/
def sixBits
    (c : Char) : Option Nat :=
  base64Alphabet.idxOf? c

/-- Read characters, four at a time. -/
def unbase64Chars : List Char → Option (List Nat)
  | [] => some []
  | c₀ :: c₁ :: c₂ :: c₃ :: chars =>
      if c₃ = '=' then
        if chars = [] then
          if c₂ = '=' then
            match sixBits c₀, sixBits c₁ with
            | some x, some y => some [x * 4 + y / 16]
            | _, _ => none
          else
            match sixBits c₀, sixBits c₁, sixBits c₂ with
            | some x, some y, some z =>
                some [x * 4 + y / 16, y % 16 * 16 + z / 4]
            | _, _, _ => none
        else
          none
      else
        match sixBits c₀, sixBits c₁, sixBits c₂, sixBits c₃ with
        | some x, some y, some z, some w =>
            (unbase64Chars chars).map fun bytes =>
              (x * 4 + y / 16) :: (y % 16 * 16 + z / 4) :: (z % 4 * 64 + w) ::
                bytes
        | _, _, _, _ => none
  | _ => none

/-- The bytes of a base64 text. -/
def unbase64
    (text : String) : Option (List UInt8) :=
  (unbase64Chars text.toList).map fun bytes => bytes.map UInt8.ofNat

theorem sixBits_base64Char
    {n : Nat}
    (h : n < 64) :
    sixBits (base64Char n) = some n ∧ base64Char n ≠ '=' := by
  have hall :
      ∀ m < 64, sixBits (base64Char m) = some m ∧ base64Char m ≠ '=' := by
    decide +kernel
  exact hall n h

/-- Bytes are read as they have been written. -/
theorem unbase64Chars_base64Chars
    {bytes : List Nat}
    (h : ∀ b ∈ bytes, b < 256) :
    unbase64Chars (base64Chars bytes) = some bytes := by
  induction bytes using base64Chars.induct with
  | case1 => rfl
  | case2 a =>
      have ha := h a (by simp)
      obtain ⟨hx, -⟩ := sixBits_base64Char (n := a / 4) (by omega)
      obtain ⟨hy, -⟩ := sixBits_base64Char (n := a % 4 * 16) (by omega)
      simp only [base64Chars, unbase64Chars, if_true, hx, hy,
        Option.some.injEq, List.cons.injEq, and_true]
      omega
  | case3 a b =>
      have ha := h a (by simp)
      have hb := h b (by simp)
      obtain ⟨hx, -⟩ := sixBits_base64Char (n := a / 4) (by omega)
      obtain ⟨hy, -⟩ :=
        sixBits_base64Char (n := a % 4 * 16 + b / 16) (by omega)
      obtain ⟨hz, hne⟩ := sixBits_base64Char (n := b % 16 * 4) (by omega)
      simp only [base64Chars, unbase64Chars, if_true, hne, if_false, hx, hy, hz,
        Option.some.injEq, List.cons.injEq, and_true]
      omega
  | case4 a b c bytes ih =>
      have ha := h a (by simp)
      have hb := h b (by simp)
      have hc := h c (by simp)
      have hrest := ih fun d hd => h d (by simp [hd])
      obtain ⟨hx, -⟩ := sixBits_base64Char (n := a / 4) (by omega)
      obtain ⟨hy, -⟩ :=
        sixBits_base64Char (n := a % 4 * 16 + b / 16) (by omega)
      obtain ⟨hz, -⟩ :=
        sixBits_base64Char (n := b % 16 * 4 + c / 64) (by omega)
      obtain ⟨hw, hne⟩ := sixBits_base64Char (n := c % 64) (by omega)
      simp only [base64Chars, unbase64Chars, hne, if_false, hx, hy, hz, hw,
        hrest, Option.map_some, Option.some.injEq, List.cons.injEq, and_true]
      omega

theorem unbase64_base64
    (bytes : List UInt8) :
    unbase64 (base64 bytes) = some bytes := by
  have hbytes : ∀ b ∈ bytes.map UInt8.toNat, b < 256 := by
    intro b hb
    obtain ⟨byte, -, rfl⟩ := List.mem_map.mp hb
    exact byte.toNat_lt
  simp [unbase64, base64, unbase64Chars_base64Chars hbytes,
    Function.comp_def]

/-- The text of one byte is padded, so it is not the text of a number. -/
theorem base64_singleton_ne_repr
    (byte : UInt8) (n : Nat) :
    base64 [byte] ≠ n.repr := by
  intro h
  have hchars := congrArg String.toList h
  have hpad : '=' ∈ (base64 [byte]).toList := by
    simp [base64, base64Chars]
  rw [hchars, Nat.toList_repr] at hpad
  exact not_mem_toDigits (by decide) n hpad

example : base64 [72, 105, 33, 10] = "SGkhCg==" := by decide

end Machine
end SpannerClient
