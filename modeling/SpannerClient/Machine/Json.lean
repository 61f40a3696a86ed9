import Mathlib.Data.List.Basic
import Mathlib.Tactic.SplitIfs

/-!
# JSON texts

`JSON.stringify` without white space, and what a reader of brackets and quotes
sees of it.  An array ends where its first bracket is closed, so of two texts that
begin with an array and are equal the arrays are equal, and the rests: arrays can
be written one after the other and told apart again.

How numbers are printed is a parameter (`NumberPrinter`); what matters is that a
number has no quotes and brackets.  `Reader` is the depth of brackets and
whether the reader is inside a string.

The main results are `IsArrayText.append_injective`, for one array and what follows,
and `flatMap_arrayTexts_injective`, for a sequence of arrays; both rest on
`read_stringify`, that a value is read without leaving the brackets around it.
-/

namespace SpannerClient
namespace Machine

universe u

inductive Json (ν : Type u) where
  | null
  | boolean (b : Bool)
  | number (x : ν)
  | string (s : String)
  | array (values : List (Json ν))
  | object (fields : List (String × Json ν))

/-- A quote or a bracket. -/
def isDelimiter
    (c : Char) : Bool :=
  c == '"' || c == '[' || c == ']' || c == '{' || c == '}'

/-- Numbers are printed without quotes and brackets. -/
structure NumberPrinter (ν : Type u) where
  print : ν → String
  plain : ∀ x, ∀ c ∈ (print x).toList, isDelimiter c = false

/-- A character in a quoted text. -/
def quoteChar
    (c : Char) : List Char :=
  if c = '"' then ['\\', '"']
  else if c = '\\' then ['\\', '\\']
  else if c.toNat = 8 then ['\\', 'b']
  else if c.toNat = 9 then ['\\', 't']
  else if c.toNat = 10 then ['\\', 'n']
  else if c.toNat = 12 then ['\\', 'f']
  else if c.toNat = 13 then ['\\', 'r']
  else if c.toNat < 32 then
    ['\\', 'u', '0', '0', Nat.digitChar (c.toNat / 16),
      Nat.digitChar (c.toNat % 16)]
  else [c]

def quote
    (s : String) : List Char :=
  '"' :: (s.toList.flatMap quoteChar ++ ['"'])

section Stringify

variable {ν : Type u} (P : NumberPrinter ν)

mutual

/-- `JSON.stringify`. -/
def Json.stringify : Json ν → List Char
  | .null => ['n', 'u', 'l', 'l']
  | .boolean true => ['t', 'r', 'u', 'e']
  | .boolean false => ['f', 'a', 'l', 's', 'e']
  | .number x => (P.print x).toList
  | .string s => quote s
  | .array values => '[' :: ([','].intercalate (elementTexts values) ++ [']'])
  | .object fields => '{' :: ([','].intercalate (memberTexts fields) ++ ['}'])

def elementTexts : List (Json ν) → List (List Char)
  | [] => []
  | value :: values => value.stringify :: elementTexts values

def memberTexts : List (String × Json ν) → List (List Char)
  | [] => []
  | (name, value) :: fields =>
      (quote name ++ ':' :: value.stringify) :: memberTexts fields

end

end Stringify

/-! ## Reading brackets and quotes -/

/-- Where the reader is: in so many brackets, in a quoted text there, behind a
backslash of it, or past the last bracket. -/
inductive Reader where
  | inside (depth : Nat)
  | quoted (depth : Nat)
  | escaped (depth : Nat)
  | done
deriving DecidableEq

def Reader.next : Reader → Char → Reader
  | .inside depth, c =>
      if c = '"' then .quoted depth
      else if c = '[' ∨ c = '{' then .inside (depth + 1)
      else if c = ']' ∨ c = '}' then
        if depth ≤ 1 then .done else .inside (depth - 1)
      else .inside depth
  | .quoted depth, c =>
      if c = '"' then .inside depth
      else if c = '\\' then .escaped depth
      else .quoted depth
  | .escaped depth, _ => .quoted depth
  | .done, _ => .done

/-- Read a text. -/
def Reader.read
    (r : Reader) (cs : List Char) : Reader :=
  cs.foldl Reader.next r

@[simp] theorem read_nil
    (r : Reader) :
    r.read [] = r := by
  rfl

@[simp] theorem read_cons
    (r : Reader) (c : Char) (cs : List Char) :
    r.read (c :: cs) = (r.next c).read cs := by
  rfl

@[simp] theorem read_append
    (r : Reader) (cs ds : List Char) :
    r.read (cs ++ ds) = (r.read cs).read ds :=
  List.foldl_append

/-- Past the last bracket the reader stays. -/
@[simp] theorem read_done
    (cs : List Char) :
    Reader.done.read cs = .done := by
  induction cs with
  | nil => rfl
  | cons c cs ih => exact ih

theorem next_inside_of_plain
    {c : Char}
    (hc : isDelimiter c = false)
    (depth : Nat) :
    (Reader.inside depth).next c = .inside depth := by
  simp only [isDelimiter, Bool.or_eq_false_iff, beq_eq_false_iff_ne] at hc
  obtain ⟨⟨⟨⟨hquote, hopen⟩, hclose⟩, hopen'⟩, hclose'⟩ := hc
  simp [Reader.next, hquote, hopen, hclose, hopen', hclose']

theorem read_plain
    {cs : List Char}
    (hcs : ∀ c ∈ cs, isDelimiter c = false)
    (depth : Nat) :
    (Reader.inside depth).read cs = .inside depth := by
  induction cs with
  | nil => rfl
  | cons c cs ih =>
      rw [read_cons, next_inside_of_plain (hcs c List.mem_cons_self)]
      exact ih fun d hd => hcs d (List.mem_cons_of_mem _ hd)

theorem next_quoted_of_ne
    {c : Char}
    (hquote : c ≠ '"') (hescape : c ≠ '\\')
    (depth : Nat) :
    (Reader.quoted depth).next c = .quoted depth := by
  simp [Reader.next, hquote, hescape]

/-- A quoted character does not end the text. -/
theorem read_quoteChar
    (c : Char) (depth : Nat) :
    (Reader.quoted depth).read (quoteChar c) = .quoted depth := by
  have hhex : ∀ d < 16, Nat.digitChar d ≠ '"' ∧ Nat.digitChar d ≠ '\\' := by
    decide
  rw [quoteChar]
  split_ifs with hquote hescape _ _ _ _ _ hlt
  · simp [Reader.next]
  · simp [Reader.next]
  · simp [Reader.next]
  · simp [Reader.next]
  · simp [Reader.next]
  · simp [Reader.next]
  · simp [Reader.next]
  · have hhigh := hhex (c.toNat / 16) (by omega)
    have hlow := hhex (c.toNat % 16) (by omega)
    simp [Reader.next, hhigh, hlow]
  · rw [read_cons, next_quoted_of_ne hquote hescape]
    rfl

theorem read_quote
    (s : String) (depth : Nat) :
    (Reader.inside depth).read (quote s) = .inside depth := by
  have hchars :
      ∀ cs : List Char,
        (Reader.quoted depth).read (cs.flatMap quoteChar) =
          .quoted depth := by
    intro cs
    induction cs with
    | nil => rfl
    | cons c cs ih =>
        rw [List.flatMap_cons, read_append, read_quoteChar]
        exact ih
  rw [quote, read_cons, read_append]
  change ((Reader.quoted depth).read _).read _ = _
  rw [hchars]
  simp [Reader.next]

/-- Texts that leave the reader where it is, with commas between them. -/
theorem read_intercalate
    {depth : Nat} {texts : List (List Char)}
    (htexts :
      ∀ text ∈ texts, (Reader.inside depth).read text = .inside depth) :
    (Reader.inside depth).read ([','].intercalate texts) =
      .inside depth := by
  induction texts with
  | nil => rfl
  | cons text texts ih =>
      have htext := htexts text List.mem_cons_self
      have hrest := ih fun t ht => htexts t (List.mem_cons_of_mem _ ht)
      cases texts with
      | nil => simpa using htext
      | cons next texts =>
          rw [List.intercalate_cons_cons, read_append, read_append, htext]
          change (Reader.inside depth).read _ = _
          exact hrest

section

variable {ν : Type u} {P : NumberPrinter ν}

/-- Brackets around a text that leaves the reader where it is. -/
theorem read_bracketed
    {depth : Nat} {opening closing : Char} {text : List Char}
    (hopening : opening = '[' ∨ opening = '{')
    (hclosing : closing = ']' ∨ closing = '}')
    (htext :
      (Reader.inside (depth + 1)).read text = .inside (depth + 1)) :
    (Reader.inside depth).read (opening :: (text ++ [closing])) =
      if depth = 0 then .done else .inside depth := by
  have hopen :
      (Reader.inside depth).next opening = .inside (depth + 1) := by
    rcases hopening with rfl | rfl <;> simp [Reader.next]
  have hclose :
      (Reader.inside (depth + 1)).next closing =
        if depth = 0 then .done else .inside depth := by
    rcases hclosing with rfl | rfl <;> simp [Reader.next]
  rw [read_cons, hopen, read_append, htext, read_cons, hclose, read_nil]

mutual

/-- Inside of a bracket a value leaves the reader where it is. -/
theorem read_stringify
    (v : Json ν) (depth : Nat) :
    (Reader.inside (depth + 1)).read (v.stringify P) =
      .inside (depth + 1) := by
  cases v with
  | null =>
      rw [Json.stringify]
      exact read_plain (by simp [isDelimiter]) _
  | boolean b =>
      cases b with
      | false =>
          rw [Json.stringify]
          exact read_plain (by simp [isDelimiter]) _
      | true =>
          rw [Json.stringify]
          exact read_plain (by simp [isDelimiter]) _
  | number x => rw [Json.stringify]; exact read_plain (P.plain x) _
  | string s => rw [Json.stringify]; exact read_quote s _
  | array values =>
      rw [Json.stringify, read_bracketed (Or.inl rfl) (Or.inl rfl)
        (read_intercalate (read_elementTexts values _))]
      simp
  | object fields =>
      rw [Json.stringify, read_bracketed (Or.inr rfl) (Or.inr rfl)
        (read_intercalate (read_memberTexts fields _))]
      simp

theorem read_elementTexts
    (values : List (Json ν)) (depth : Nat) :
    ∀ text ∈ elementTexts P values,
      (Reader.inside (depth + 1)).read text = .inside (depth + 1) := by
  cases values with
  | nil => simp [elementTexts]
  | cons v values =>
      rw [elementTexts, List.forall_mem_cons]
      exact ⟨read_stringify v depth, read_elementTexts values depth⟩

theorem read_memberTexts
    (fields : List (String × Json ν)) (depth : Nat) :
    ∀ text ∈ memberTexts P fields,
      (Reader.inside (depth + 1)).read text = .inside (depth + 1) := by
  match fields with
  | [] => simp [memberTexts]
  | (name, v) :: fields =>
      rw [memberTexts, List.forall_mem_cons]
      refine ⟨?_, read_memberTexts fields depth⟩
      rw [read_append, read_quote, read_cons,
        next_inside_of_plain (by decide)]
      exact read_stringify v depth

end

/-- The text of an array. -/
def IsArrayText
    (P : NumberPrinter ν) (text : List Char) : Prop :=
  ∃ values, text = (Json.array values).stringify P

/-- An array ends with its last character and not before. -/
theorem IsArrayText.ends
    {text : List Char}
    (h : IsArrayText P text) :
    ∃ body, text = body ++ [']'] ∧ (Reader.inside 0).read body = .inside 1 ∧
      (Reader.inside 0).read text = .done := by
  obtain ⟨values, rfl⟩ := h
  have hinner :
      (Reader.inside 1).read ([','].intercalate (elementTexts P values)) =
        .inside 1 :=
    read_intercalate (read_elementTexts values 0)
  refine ⟨'[' :: [','].intercalate (elementTexts P values), ?_, ?_, ?_⟩
  · rw [Json.stringify, List.cons_append]
  · rw [read_cons]
    exact hinner
  · rw [Json.stringify, read_bracketed (Or.inl rfl) (Or.inl rfl) hinner]
    simp

/-- An array is not the beginning of a longer one. -/
theorem IsArrayText.eq_nil_of_append
    {text rest : List Char}
    (h : IsArrayText P text) (happend : IsArrayText P (text ++ rest)) :
    rest = [] := by
  obtain ⟨-, -, -, hdone⟩ := h.ends
  obtain ⟨body, heq, hbody, -⟩ := happend.ends
  rcases List.eq_nil_or_concat rest with rfl | ⟨init, c, rfl⟩
  · rfl
  · -- the whole text would be done before its last character
    rw [List.concat_eq_append, ← List.append_assoc] at heq
    have hinit : text ++ init = body := (List.append_inj' heq rfl).1
    rw [← hinit, read_append, hdone, read_done] at hbody
    cases hbody

/-- What begins with an array is taken apart in one way. -/
theorem IsArrayText.append_injective
    {text text' rest rest' : List Char}
    (h : IsArrayText P text) (h' : IsArrayText P text')
    (heq : text ++ rest = text' ++ rest') :
    text = text' ∧ rest = rest' := by
  rcases List.append_eq_append_iff.mp heq with
    ⟨more, rfl, hrest⟩ | ⟨more, rfl, hrest⟩
  · obtain rfl := h.eq_nil_of_append h'
    simpa using hrest
  · obtain rfl := h'.eq_nil_of_append h
    simpa using hrest.symm

/-- Arrays written one after the other, each behind a separator. -/
theorem flatMap_arrayTexts_injective
    {x : Char} {texts texts' : List (List Char)}
    (h : ∀ text ∈ texts, IsArrayText P text)
    (h' : ∀ text ∈ texts', IsArrayText P text)
    (heq :
      (texts.flatMap fun text => x :: text) =
        texts'.flatMap fun text => x :: text) :
    texts = texts' := by
  induction texts generalizing texts' with
  | nil =>
      cases texts' with
      | nil => rfl
      | cons text' texts' => simp at heq
  | cons text texts ih =>
      cases texts' with
      | nil => simp at heq
      | cons text' texts' =>
          simp only [List.flatMap_cons, List.cons_append, List.cons.injEq,
            true_and] at heq
          obtain ⟨rfl, hrest⟩ :=
            (h text List.mem_cons_self).append_injective
              (h' text' List.mem_cons_self) heq
          rw [ih (fun t ht => h t (List.mem_cons_of_mem _ ht))
            (fun t ht => h' t (List.mem_cons_of_mem _ ht)) hrest]

end

end Machine
end SpannerClient
