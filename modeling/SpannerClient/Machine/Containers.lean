import Mathlib.Algebra.BigOperators.Group.List.Basic
import Mathlib.Algebra.Ring.Int.Defs
import Mathlib.Data.List.AList
import Mathlib.Data.List.Forall2
import Mathlib.Data.List.Perm.Subperm

/-!
# JavaScript containers

Insertion-ordered sets and arrays as lists, with the operations the modelled
programs use on them: `set.add` (`setAdd`) and
`array.splice(array.indexOf(x), 1)` (`spliceOut`).  The lemmas relate the contents
before and after an operation up to permutation, which is all that partition and
conservation arguments need.

The rest is about lists that a machine keeps its parties in, at fixed places: what
becomes of a count or a sum when one element is replaced or removed, and of two
lists that are related element by element when both change at one place
(`forall₂_set`, `forall₂_eraseIdx`, `forall₂_snoc`).  Loops that may fail are
`mapM`; `forall₂_of_mapM_ok` and its siblings say what the elements of their results
are.
-/

namespace SpannerClient
namespace Machine

universe u v w

/-- Moving an element to the end of a list keeps the contents. -/
theorem dropLast_append_getLast_perm
    {α : Type u} {xs : List α} {x : α}
    (hx : xs.getLast? = some x) :
    (x :: xs.dropLast).Perm xs := by
  obtain ⟨ys, rfl⟩ := List.getLast?_eq_some_iff.mp hx
  simpa using (List.perm_append_singleton x ys).symm

/-- Giving up the element that comes first. -/
theorem erase_perm_of_perm_cons
    {α : Type u} [DecidableEq α] {xs ys : List α} {x : α}
    (h : xs.Perm (x :: ys)) :
    (xs.erase x).Perm ys := by
  have herase := h.erase x
  rw [List.erase_cons_head] at herase
  exact herase

section Sets

variable {α : Type u} [DecidableEq α]

/-- `set.add(x)` on an insertion-ordered set. -/
def setAdd
    (xs : List α) (x : α) : List α :=
  if x ∈ xs then xs else xs ++ [x]

/-- `xs.splice(xs.indexOf(x), 1)`: an index of -1 removes the last element. -/
def spliceOut
    (xs : List α) (x : α) : List α :=
  if x ∈ xs then xs.erase x else xs.dropLast

@[simp] theorem mem_setAdd
    {xs : List α} {x y : α} :
    y ∈ setAdd xs x ↔ y ∈ xs ∨ y = x := by
  rw [setAdd]
  split
  · constructor
    · exact Or.inl
    · rintro (hy | rfl) <;> assumption
  · simp

theorem setAdd_of_not_mem
    {xs : List α} {x : α}
    (hx : x ∉ xs) :
    setAdd xs x = xs ++ [x] := by
  simp [setAdd, hx]

/-- A set made of a list has the elements of the list. -/
theorem mem_foldl_setAdd
    {xs ys : List α} {y : α} :
    y ∈ xs.foldl setAdd ys ↔ y ∈ ys ∨ y ∈ xs := by
  induction xs generalizing ys with
  | nil => simp
  | cons x xs ih =>
      rw [List.foldl_cons, ih, mem_setAdd, List.mem_cons, or_assoc]

theorem nodup_foldl_setAdd
    (xs : List α) {ys : List α}
    (h : ys.Nodup) :
    (xs.foldl setAdd ys).Nodup := by
  induction xs generalizing ys with
  | nil => exact h
  | cons x xs ih =>
      refine ih ?_
      by_cases hx : x ∈ ys
      · rwa [setAdd, if_pos hx]
      · rw [setAdd_of_not_mem hx, ← List.concat_eq_append]
        exact h.concat hx

theorem setAdd_perm
    {xs : List α} {x : α}
    (hx : x ∉ xs) :
    (setAdd xs x).Perm (x :: xs) := by
  rw [setAdd_of_not_mem hx]
  exact List.perm_append_singleton x xs

theorem spliceOut_of_mem
    {xs : List α} {x : α}
    (hx : x ∈ xs) :
    spliceOut xs x = xs.erase x := by
  simp [spliceOut, hx]

/-- Whatever the index, splicing only removes. -/
theorem spliceOut_sublist
    (xs : List α) (x : α) :
    (spliceOut xs x).Sublist xs := by
  rw [spliceOut]
  split
  · exact List.erase_sublist
  · exact List.dropLast_sublist xs

end Sets

section Pairs

variable {κ : Type v} {α : Type u} [DecidableEq κ] [DecidableEq α]

/-- Erasing a listed pair erases its second component. -/
theorem map_snd_perm_cons_erase
    {xs : List (κ × α)} {k : κ} {x : α}
    (hx : (k, x) ∈ xs) :
    (xs.map Prod.snd).Perm (x :: (xs.erase (k, x)).map Prod.snd) := by
  simpa using (List.perm_cons_erase hx).map Prod.snd

end Pairs

section Sums

/-- Replacing one summand. -/
theorem sum_set_of_getElem?
    {xs : List Int} {i : Nat} {a b : Int}
    (hi : xs[i]? = some a) :
    (xs.set i b).sum = xs.sum - a + b := by
  obtain ⟨hlt, ha⟩ := List.getElem?_eq_some_iff.mp hi
  rw [List.sum_set', dif_pos hlt, ha]
  omega

/-- Removing one summand. -/
theorem sum_eraseIdx_of_getElem?
    {xs : List Int} {i : Nat} {a : Int}
    (hi : xs[i]? = some a) :
    (xs.eraseIdx i).sum = xs.sum - a := by
  induction xs generalizing i with
  | nil =>
      simp at hi
  | cons x xs ih =>
      cases i with
      | zero =>
          simp only [List.getElem?_cons_zero, Option.some.injEq] at hi
          subst hi
          simp
      | succ i =>
          have htail := ih (by simpa using hi)
          simp only [List.eraseIdx_cons_succ, List.sum_cons, htail]
          omega

end Sums

/-- Adding one element to what is counted. -/
theorem countP_snoc
    {α : Type*}
    (p : α → Bool) (xs : List α) (x : α) :
    (xs ++ [x]).countP p = xs.countP p + (p x).toNat := by
  rw [List.countP_append, List.countP_singleton]
  cases p x <;> rfl

/-- Removing one element from what is counted. -/
theorem countP_eraseIdx_of_getElem?
    {α : Type*}
    {xs : List α} {i : Nat} {x : α}
    (p : α → Bool)
    (hi : xs[i]? = some x) :
    xs.countP p = (xs.eraseIdx i).countP p + (p x).toNat := by
  obtain ⟨hlt, rfl⟩ := List.getElem?_eq_some_iff.mp hi
  rw [← (List.getElem_cons_eraseIdx_perm hlt).countP_eq p,
    List.countP_cons]
  cases p xs[i] <;> rfl

/-- What is found at one position only is counted once at most. -/
theorem countP_le_one_of_unique
    {α : Type*}
    {xs : List α} {p : α → Bool}
    (hunique :
      ∀ (i j : Nat) x y, xs[i]? = some x → p x = true →
        xs[j]? = some y → p y = true → i = j) :
    xs.countP p ≤ 1 := by
  induction xs with
  | nil => simp
  | cons x xs ih =>
      rw [List.countP_cons]
      split
      · rename_i hx
        have hnone : xs.countP p = 0 := by
          rw [List.countP_eq_zero]
          intro y hy hpy
          obtain ⟨j, hj⟩ := List.getElem?_of_mem hy
          have heq := hunique 0 (j + 1) x y rfl hx hj hpy
          omega
        omega
      · refine ih ?_
        intro i j y z hi hy hj hz
        have heq := hunique (i + 1) (j + 1) y z hi hy hj hz
        omega

/-- Where an element of an updated list comes from. -/
theorem getElem?_set_some
    {α : Type*}
    {xs : List α} {i j : Nat} {a b : α}
    (h : (xs.set i a)[j]? = some b) :
    (j = i ∧ b = a) ∨ (j ≠ i ∧ xs[j]? = some b) := by
  rw [List.getElem?_set] at h
  split at h
  · rename_i hij
    split at h
    · exact Or.inl ⟨hij.symm, (Option.some.inj h).symm⟩
    · cases h
  · rename_i hij
    exact Or.inr ⟨Ne.symm hij, h⟩

/-- An element is where it was after the list has been extended. -/
theorem getElem?_snoc_of_some
    {α : Type*}
    {xs : List α} {i : Nat} {x : α}
    (hi : xs[i]? = some x) (y : α) :
    (xs ++ [y])[i]? = some x := by
  rw [List.getElem?_append_left (List.getElem?_eq_some_iff.mp hi).1, hi]

/-- Where an element of an extended list comes from. -/
theorem getElem?_snoc_some
    {α : Type*}
    {xs : List α} {j : Nat} {a b : α}
    (h : (xs ++ [a])[j]? = some b) :
    (j = xs.length ∧ b = a) ∨ (j < xs.length ∧ xs[j]? = some b) := by
  rcases Nat.lt_trichotomy j xs.length with hlt | heq | hgt
  · rw [List.getElem?_append_left hlt] at h
    exact Or.inr ⟨hlt, h⟩
  · subst heq
    simp at h
    exact Or.inl ⟨rfl, h.symm⟩
  · rw [List.getElem?_eq_none (by simp; omega)] at h
    cases h

theorem modify_length_snoc
    {α : Type*}
    (xs : List α) (x : α) (f : α → α) :
    (xs ++ [x]).modify xs.length f = xs ++ [f x] := by
  induction xs with
  | nil => simp
  | cons y xs ih => simp [ih]

section Splits

variable {α : Type u} {xs ys a b : List α} {x : α}

/-- An element that is not in the second part of a list is in the first. -/
theorem split_left_of_not_mem
    (h : xs ++ ys = a ++ x :: b) (hx : x ∉ ys) :
    ∃ b', xs = a ++ x :: b' ∧ b = b' ++ ys := by
  rcases List.append_eq_append_iff.mp h with ⟨c, rfl, hys⟩ | ⟨c, rfl, hb⟩
  · refine absurd ?_ hx
    rw [hys]
    exact List.mem_append_right _ List.mem_cons_self
  · cases c with
    | nil =>
        refine absurd ?_ hx
        rw [List.nil_append] at hb
        rw [← hb]
        exact List.mem_cons_self
    | cons y c =>
        obtain ⟨rfl, rfl⟩ := List.cons.inj hb
        exact ⟨c, rfl, rfl⟩

/-- An element of an extended list is its last one or in the list. -/
theorem split_snoc
    {y : α}
    (h : xs ++ [y] = a ++ x :: b) :
    (xs = a ∧ y = x) ∨ ∃ b', xs = a ++ x :: b' := by
  rcases List.eq_nil_or_concat b with rfl | ⟨c, z, rfl⟩
  · exact Or.inl (List.append_singleton_inj.mp h)
  · refine Or.inr ⟨c, ?_⟩
    rw [List.concat_eq_append, ← List.cons_append, ← List.append_assoc] at h
    exact (List.append_singleton_inj.mp h).1

end Splits

section Related

variable {α : Type u} {β : Type v} {R : α → β → Prop}
variable {xs : List α} {ys : List β}

/-- Lists related element by element stay so when one is replaced. -/
theorem forall₂_set
    (h : List.Forall₂ R xs ys)
    {x : α} {y : β}
    (hxy : R x y) (k : Nat) :
    List.Forall₂ R (xs.set k x) (ys.set k y) := by
  induction h generalizing k with
  | nil =>
      exact List.Forall₂.nil
  | cons hhead htail ih =>
      cases k with
      | zero => exact List.Forall₂.cons hxy htail
      | succ k => exact List.Forall₂.cons hhead (ih k)

theorem forall₂_eraseIdx
    (h : List.Forall₂ R xs ys) (k : Nat) :
    List.Forall₂ R (xs.eraseIdx k) (ys.eraseIdx k) := by
  induction h generalizing k with
  | nil =>
      exact List.Forall₂.nil
  | cons hhead htail ih =>
      cases k with
      | zero => exact htail
      | succ k => exact List.Forall₂.cons hhead (ih k)

theorem forall₂_snoc
    (h : List.Forall₂ R xs ys)
    {x : α} {y : β}
    (hxy : R x y) :
    List.Forall₂ R (xs ++ [x]) (ys ++ [y]) :=
  List.rel_append h (List.Forall₂.cons hxy List.Forall₂.nil)

/-- The element at the same place. -/
theorem forall₂_getElem?
    (h : List.Forall₂ R xs ys)
    {k : Nat} {x : α}
    (hx : xs[k]? = some x) :
    ∃ y, ys[k]? = some y ∧ R x y := by
  induction h generalizing k with
  | nil =>
      cases hx
  | cons hhead htail ih =>
      cases k with
      | zero =>
          obtain rfl := Option.some.inj hx
          exact ⟨_, rfl, hhead⟩
      | succ k =>
          exact ih hx

/-- Two lists that agree place by place under `f` and `g`. -/
theorem map_eq_map_of_getElem?
    {γ : Type w} {f : α → γ} {g : β → γ}
    (hlength : xs.length = ys.length)
    (h : ∀ (k : Nat) x y, xs[k]? = some x → ys[k]? = some y → f x = g y) :
    xs.map f = ys.map g := by
  induction xs generalizing ys with
  | nil =>
      cases ys with
      | nil => rfl
      | cons y ys => cases hlength
  | cons x xs ih =>
      cases ys with
      | nil => cases hlength
      | cons y ys =>
          have hhead : f x = g y := h 0 x y rfl rfl
          have htail : xs.map f = ys.map g := by
            refine ih (Nat.succ.inj hlength) ?_
            intro k x' y' hx hy
            exact h (k + 1) x' y' hx hy
          rw [List.map_cons, List.map_cons, hhead, htail]

/-- A list is mapped by a function that may fail to one that is related to it
exactly if every element is. -/
theorem exists_mapM_iff
    {f : α → Option β} :
    (∃ ys, xs.mapM f = some ys ∧ List.Forall₂ R xs ys) ↔
      ∀ x ∈ xs, ∃ y, f x = some y ∧ R x y := by
  induction xs with
  | nil => simp
  | cons x xs ih =>
      rw [List.forall_mem_cons, ← ih]
      constructor
      · rintro ⟨ys, hys, hR⟩
        cases hR with
        | cons hhead htail =>
            simp only [List.mapM_cons, Option.bind_eq_bind,
              Option.bind_eq_some_iff, Option.pure_def, Option.some.injEq,
              List.cons.injEq] at hys
            obtain ⟨y, hy, rest, hrest, rfl, rfl⟩ := hys
            exact ⟨⟨_, hy, hhead⟩, _, hrest, htail⟩
      · rintro ⟨⟨y, hy, hhead⟩, ys, hys, htail⟩
        exact
          ⟨y :: ys, by simp [hy, hys], List.Forall₂.cons hhead htail⟩

/-- What a list is mapped to by a function that may fail. -/
theorem forall₂_of_mapM_some
    {f : α → Option β} {xs : List α} {ys : List β}
    (h : xs.mapM f = some ys) :
    List.Forall₂ (fun x y => f x = some y) xs ys := by
  induction xs generalizing ys with
  | nil =>
      cases h
      exact .nil
  | cons x xs ih =>
      simp only [List.mapM_cons, Option.bind_eq_bind,
        Option.bind_eq_some_iff, Option.pure_def, Option.some.injEq] at h
      obtain ⟨y, hy, rest, hrest, rfl⟩ := h
      exact .cons hy (ih hrest)

end Related

section Loops

variable {α : Type*} {β ε : Type u} {f : α → Except ε β}

/-- A loop that ends has mapped every element. -/
theorem forall₂_of_mapM_ok
    {xs : List α} {ys : List β}
    (h : xs.mapM f = .ok ys) :
    List.Forall₂ (fun x y => f x = .ok y) xs ys := by
  induction xs generalizing ys with
  | nil =>
      cases h
      exact .nil
  | cons x xs ih =>
      rw [List.mapM_cons] at h
      cases hx : f x with
      | error err =>
          rw [hx] at h
          cases h
      | ok y =>
          cases hxs : xs.mapM f with
          | error err =>
              rw [hx, hxs] at h
              cases h
          | ok ys' =>
              rw [hx, hxs] at h
              cases h
              exact .cons hx (ih hxs)

/-- What a loop throws, it throws for an element. -/
theorem exists_of_mapM_error
    {xs : List α} {err : ε}
    (h : xs.mapM f = .error err) :
    ∃ x ∈ xs, f x = .error err := by
  induction xs with
  | nil => cases h
  | cons x xs ih =>
      rw [List.mapM_cons] at h
      cases hx : f x with
      | error err' =>
          rw [hx] at h
          cases h
          exact ⟨x, List.mem_cons_self, hx⟩
      | ok y =>
          cases hxs : xs.mapM f with
          | error err' =>
              rw [hx, hxs] at h
              cases h
              obtain ⟨x', hx', herr⟩ := ih hxs
              exact ⟨x', List.mem_cons_of_mem _ hx', herr⟩
          | ok ys =>
              rw [hx, hxs] at h
              cases h

/-- An element and its place in a list of the same length. -/
theorem exists_zip_of_mem
    {α β : Type*} {xs : List α} {ys : List β} {x : α}
    (hlength : xs.length = ys.length)
    (hx : x ∈ xs) :
    ∃ y, (x, y) ∈ xs.zip ys := by
  obtain ⟨i, hi, rfl⟩ := List.getElem_of_mem hx
  have hi' : i < ys.length := hlength ▸ hi
  have hzip : i < (xs.zip ys).length := by
    rw [List.length_zip]
    omega
  exact ⟨ys[i], List.mem_iff_getElem.mpr ⟨i, hzip, by simp⟩⟩

end Loops

section Maps

variable {κ : Type u} [DecidableEq κ] {β : Type v} {xs : AList fun _ : κ => β}

/-- Where an entry of an extended map comes from. -/
theorem lookup_insert_some
    {key a : κ} {x b : β}
    (h : (xs.insert a b).lookup key = some x) :
    (key = a ∧ x = b) ∨ (key ≠ a ∧ xs.lookup key = some x) := by
  by_cases heq : key = a
  · subst heq
    rw [AList.lookup_insert] at h
    exact Or.inl ⟨rfl, (Option.some.inj h).symm⟩
  · exact Or.inr ⟨heq, (AList.lookup_insert_ne heq).symm.trans h⟩

/-- An entry stays when one is added that was not there. -/
theorem lookup_insert_of_some
    {key a : κ} {x : β}
    (hnone : xs.lookup a = none)
    (hkey : xs.lookup key = some x) (b : β) :
    (xs.insert a b).lookup key = some x := by
  have hne : key ≠ a := by
    rintro rfl
    rw [hnone] at hkey
    cases hkey
  exact (AList.lookup_insert_ne hne).trans hkey

/-- A map without entries. -/
theorem eq_empty_of_lookup
    (h : ∀ key, xs.lookup key = none) :
    xs = ∅ := by
  refine AList.ext ?_
  cases hentries : xs.entries with
  | nil => rfl
  | cons x rest =>
      have hmem : x.1 ∈ xs := by
        rw [AList.mem_keys, AList.keys, hentries]
        simp
      exact absurd hmem (AList.lookup_eq_none.mp (h x.1))

end Maps

end Machine
end SpannerClient
