import Mathlib.Data.List.Infix

/-!
# Matching text

A regular expression is matched from the left, by what is left of the text after
each of its parts.  `.+` takes as much of the line as it can and gives characters
back until what comes after it matches, and the first place where the whole
expression matches is the one that counts.

`literal`, `dot` and `dotPlus` are the parts, each with what comes after it as an
argument, and `search` tries the places of a text in order.

* `dotPlus_append` says what `.+` takes where the text after it can be matched in
  one place only, and `dotPlus_eq_none` when it does not match.
* `search_append` is the search in a text whose beginning has no match.
-/

namespace SpannerClient
namespace Machine

universe u

variable {β : Type u}

/-- The characters that `.` does not match. -/
def lineTerminators : List Char :=
  ['\n', '\r', '\u2028', '\u2029']

/-- A literal text: what is left after it. -/
def literal
    (text cs : List Char) : Option (List Char) :=
  if text <+: cs then some (cs.drop text.length) else none

/-- `.` -/
def dot : List Char → Option (List Char)
  | [] => none
  | c :: cs => if c ∈ lineTerminators then none else some cs

/-- `.+`, and what comes after it. -/
def dotPlus
    (after : List Char → Option β) : List Char → Option (List Char × β)
  | [] => none
  | c :: cs =>
      if c ∈ lineTerminators then
        none
      else
        match dotPlus after cs with
        | some (taken, b) => some (c :: taken, b)
        | none => (after cs).map fun b => ([c], b)

/-- The first match in the text. -/
def search
    (expression : List Char → Option β) : List Char → Option β
  | [] => expression []
  | c :: cs =>
      match expression (c :: cs) with
      | some b => some b
      | none => search expression cs

/-! ## Literal texts -/

theorem literal_append
    (text cs : List Char) :
    literal text (text ++ cs) = some cs := by
  rw [literal, if_pos (List.prefix_append text cs), List.drop_left]

theorem literal_eq_none
    {text cs : List Char}
    (h : ¬ text <+: cs) :
    literal text cs = none :=
  if_neg h

/-! ## One or more characters -/

/-- A text that `.+` matches. -/
structure LineText
    (cs : List Char) : Prop where
  ne_nil : cs ≠ []
  terminators : ∀ c ∈ cs, c ∉ lineTerminators

/-- Nothing that follows a character of the text matches. -/
theorem dotPlus_eq_none
    {after : List Char → Option β} {cs : List Char}
    (h : ∀ taken rest, taken ≠ [] → cs = taken ++ rest → after rest = none) :
    dotPlus after cs = none := by
  induction cs with
  | nil => rfl
  | cons c cs ih =>
      have hrest : dotPlus after cs = none := by
        refine ih fun taken rest _ htaken => h (c :: taken) rest (by simp) ?_
        rw [htaken, List.cons_append]
      rw [dotPlus, hrest, h [c] cs (by simp) rfl]
      split <;> rfl

/-- `.+` takes the line, if what comes after matches there and nowhere further. -/
theorem dotPlus_append
    {after : List Char → Option β} {line cs : List Char} {b : β}
    (hline : LineText line)
    (hafter : after cs = some b)
    (hlast :
      ∀ taken rest, taken ≠ [] → cs = taken ++ rest → after rest = none) :
    dotPlus after (line ++ cs) = some (line, b) := by
  obtain ⟨hne, hterminators⟩ := hline
  induction line with
  | nil => exact absurd rfl hne
  | cons c line ih =>
      rw [List.forall_mem_cons] at hterminators
      rw [List.cons_append, dotPlus, if_neg hterminators.1]
      by_cases hnil : line = []
      · subst hnil
        rw [List.nil_append, dotPlus_eq_none hlast, hafter]
        rfl
      · rw [ih hnil hterminators.2]

/-! ## The first match -/

theorem search_of_some
    {expression : List Char → Option β} {cs : List Char} {b : β}
    (h : expression cs = some b) :
    search expression cs = some b := by
  cases cs with
  | nil => exact h
  | cons c cs => rw [search, h]

/-- Nothing matches that begins in the first part of the text. -/
theorem search_append
    {expression : List Char → Option β} {before cs : List Char}
    (h :
      ∀ skipped rest, rest ≠ [] → before = skipped ++ rest →
        expression (rest ++ cs) = none) :
    search expression (before ++ cs) = search expression cs := by
  induction before with
  | nil => rfl
  | cons c before ih =>
      have hhere := h [] (c :: before) (by simp) rfl
      rw [List.cons_append] at hhere ⊢
      rw [search, hhere]
      refine ih fun skipped rest hne hrest => h (c :: skipped) rest hne ?_
      rw [hrest, List.cons_append]

end Machine
end SpannerClient
