import Mathlib.Data.Finset.Card
import Mathlib.Logic.Function.Basic
import SpannerClient.Machine.History

/-!
# Lending

A lender has a stock of things and lends each of them to one borrower at a time.
Its state carries that everything lent is in stock and that the stock stays
within the capacity.  The stock may change at any time, as long as this holds.

The loans that a performance shows are in order (`orderly_of_performs`): between
two loans of a thing lies its return by the first borrower, only what has been
lent is given back, by whom it was lent to, and never are more things out than
the capacity allows.
-/

namespace SpannerClient
namespace Machine

universe u v

variable {κ : Type u} {σ : Type v}

/-- A loan is made, or ended. -/
inductive Loan (κ : Type u) (σ : Type v) where
  | lend (borrower : κ) (thing : σ)
  | giveBack (borrower : κ) (thing : σ)
deriving DecidableEq

/-- What a lender does. -/
inductive LenderAction (κ : Type u) (σ : Type v) where
  | restock
  | loan (l : Loan κ σ)

def LenderAction.visible : LenderAction κ σ → Option (Loan κ σ)
  | .restock => none
  | .loan l => some l

structure Lender (κ : Type u) (σ : Type v) (capacity : Nat) where
  stock : Finset σ
  /-- Who has borrowed the thing. -/
  holder : σ → Option κ
  lent_mem : ∀ s, holder s ≠ none → s ∈ stock
  card_le : stock.card ≤ capacity

variable {capacity : Nat}
/-- A history of loans is in order. -/
structure Orderly
    (capacity : Nat) (loans : List (Loan κ σ)) : Prop where
  /-- A thing is given back before it is lent again. -/
  exclusive :
    ∀ before k s between k' after,
      loans = before ++ .lend k s :: (between ++ .lend k' s :: after) →
        .giveBack k s ∈ between
  /-- Only the borrower gives a thing back, and once. -/
  returned :
    ∀ before k s after,
      loans = before ++ .giveBack k s :: after →
        ∃ earlier between,
          before = earlier ++ .lend k s :: between ∧
            .giveBack k s ∉ between
  /-- The things that are out, after each part of the history. -/
  within :
    ∀ before after,
      loans = before ++ after →
        before.countP (fun l => l matches .lend _ _) ≤
          before.countP (fun l => l matches .giveBack _ _) + capacity

namespace Lender

/-- Nothing is lent, and nothing is in stock. -/
def empty : Lender κ σ capacity where
  stock := ∅
  holder _ := none
  lent_mem _ h := absurd rfl h
  card_le := Nat.zero_le _

/-- The things that are out. -/
def out
    (l : Lender κ σ capacity) : Finset σ :=
  l.stock.filter fun s => (l.holder s).isSome

theorem mem_out
    {l : Lender κ σ capacity} {s : σ} :
    s ∈ l.out ↔ ∃ k, l.holder s = some k := by
  rw [out, Finset.mem_filter, Option.isSome_iff_exists]
  constructor
  · exact fun h => h.2
  · rintro ⟨k, hk⟩
    exact ⟨l.lent_mem s (by simp [hk]), k, hk⟩

theorem out_card_le
    (l : Lender κ σ capacity) :
    l.out.card ≤ capacity :=
  (Finset.card_filter_le _ _).trans l.card_le

theorem out_congr
    {l m : Lender κ σ capacity}
    (hholder : m.holder = l.holder) :
    m.out = l.out := by
  ext t
  rw [mem_out, mem_out, hholder]

end Lender

variable [DecidableEq σ]

/-- The actions of a lender. -/
inductive Lends :
    Lender κ σ capacity → LenderAction κ σ → Lender κ σ capacity → Prop
  | restock {l m : Lender κ σ capacity}
      (hholder : m.holder = l.holder) :
      Lends l .restock m
  | lend {l m : Lender κ σ capacity} {k : κ} {s : σ}
      (hfree : l.holder s = none)
      (hholder : m.holder = Function.update l.holder s (some k)) :
      Lends l (.loan (.lend k s)) m
  | giveBack {l m : Lender κ σ capacity} {k : κ} {s : σ}
      (hlent : l.holder s = some k)
      (hholder : m.holder = Function.update l.holder s none) :
      Lends l (.loan (.giveBack k s)) m

namespace Lender

/-- One more thing is out after a loan. -/
theorem out_of_lend
    {l m : Lender κ σ capacity} {k : κ} {s : σ}
    (hfree : l.holder s = none)
    (hholder : m.holder = Function.update l.holder s (some k)) :
    m.out.card = l.out.card + 1 := by
  have hs : s ∉ l.out := by
    rw [mem_out]
    simp [hfree]
  have hout : m.out = insert s l.out := by
    ext t
    rw [Finset.mem_insert, mem_out, mem_out, hholder]
    by_cases hts : t = s
    · simp [hts]
    · simp [hts]
  rw [hout, Finset.card_insert_of_notMem hs]

/-- One thing less is out after a return. -/
theorem out_of_giveBack
    {l m : Lender κ σ capacity} {k : κ} {s : σ}
    (hlent : l.holder s = some k)
    (hholder : m.holder = Function.update l.holder s none) :
    l.out.card = m.out.card + 1 := by
  have hs : s ∈ l.out := mem_out.mpr ⟨k, hlent⟩
  have hout : m.out = l.out.erase s := by
    ext t
    rw [Finset.mem_erase, mem_out, mem_out, hholder]
    by_cases hts : t = s
    · simp [hts]
    · simp [hts]
  rw [hout, Finset.card_erase_add_one hs]

end Lender

open Lender

/-- A borrower that does not give a thing back has it. -/
theorem holder_of_performs
    {l m : Lender κ σ capacity} {acts : List (LenderAction κ σ)}
    {k : κ} {s : σ}
    (hlent : l.holder s = some k)
    (hkept : .giveBack k s ∉ acts.filterMap LenderAction.visible)
    (h : Performs Lends l acts m) :
    m.holder s = some k := by
  refine h.invariant (I := fun l => l.holder s = some k) ?_ hlent
  intro a act b hact ha htrans
  cases htrans with
  | restock hholder =>
      rw [hholder]
      exact ha
  | @lend _ k' t hfree hholder =>
      have hne : s ≠ t := by
        rintro rfl
        rw [hfree] at ha
        cases ha
      rw [hholder, Function.update_of_ne hne]
      exact ha
  | @giveBack _ k' t hgiven hholder =>
      have hne : s ≠ t := by
        rintro rfl
        obtain rfl : k' = k := Option.some.inj (hgiven.symm.trans ha)
        exact hkept (List.mem_filterMap.mpr ⟨_, hact, rfl⟩)
      rw [hholder, Function.update_of_ne hne]
      exact ha

/-- Who has a thing at the end has had it from the start, or has borrowed it on the
way; and has not given it back since. -/
theorem lent_of_performs
    {l m : Lender κ σ capacity} {acts : List (LenderAction κ σ)}
    {k : κ} {s : σ}
    (h : Performs Lends l acts m)
    (hlent : m.holder s = some k) :
    (l.holder s = some k ∧
        .giveBack k s ∉ acts.filterMap LenderAction.visible) ∨
      ∃ earlier between,
        acts.filterMap LenderAction.visible =
            earlier ++ .lend k s :: between ∧
          .giveBack k s ∉ between := by
  induction h with
  | nil a =>
      exact Or.inl ⟨hlent, List.not_mem_nil⟩
  | @cons a b c act acts first rest ih =>
      rw [List.filterMap_cons]
      rcases ih hlent with ⟨hb, hkept⟩ | ⟨earlier, between, heq, hkept⟩
      · cases first with
        | restock hholder =>
            rw [hholder] at hb
            exact Or.inl ⟨hb, hkept⟩
        | @lend _ k' t hfree hholder =>
            rw [hholder] at hb
            by_cases hst : s = t
            · subst hst
              obtain rfl : k' = k := by simpa using hb
              exact Or.inr ⟨[], _, rfl, hkept⟩
            · rw [Function.update_of_ne hst] at hb
              exact Or.inl ⟨hb, by simpa [LenderAction.visible] using hkept⟩
        | @giveBack _ k' t hgiven hholder =>
            rw [hholder] at hb
            have hst : s ≠ t := by
              rintro rfl
              simp at hb
            rw [Function.update_of_ne hst] at hb
            refine Or.inl ⟨hb, ?_⟩
            simpa [LenderAction.visible, hst] using hkept
      · right
        rw [heq]
        cases act with
        | restock =>
            exact ⟨earlier, between, rfl, hkept⟩
        | loan loan =>
            exact ⟨loan :: earlier, between, rfl, hkept⟩

/-- A part of what is visible is a part of the performance. -/
theorem split_of_visible
    {l m : Lender κ σ capacity} {acts : List (LenderAction κ σ)}
    {before after : List (Loan κ σ)}
    (h : Performs Lends l acts m)
    (hvisible : acts.filterMap LenderAction.visible = before ++ after) :
    ∃ b acts₁ acts₂,
      Performs Lends l acts₁ b ∧ Performs Lends b acts₂ m ∧
        acts₁.filterMap LenderAction.visible = before ∧
        acts₂.filterMap LenderAction.visible = after := by
  obtain ⟨acts₁, acts₂, rfl, h₁, h₂⟩ :=
    List.filterMap_eq_append_iff.mp hvisible
  obtain ⟨b, hfirst, hrest⟩ := h.split
  exact ⟨b, acts₁, acts₂, hfirst, hrest, h₁, h₂⟩

/-- The first visible action is taken in a state that differs from the first one in
what is hidden. -/
theorem first_of_visible
    {l m : Lender κ σ capacity} {acts : List (LenderAction κ σ)}
    {loan : Loan κ σ} {after : List (Loan κ σ)}
    (h : Performs Lends l acts m)
    (hvisible : acts.filterMap LenderAction.visible = loan :: after) :
    ∃ a b acts',
      a.holder = l.holder ∧ Lends a (.loan loan) b ∧
        Performs Lends b acts' m ∧
        acts'.filterMap LenderAction.visible = after := by
  induction h with
  | nil a =>
      cases hvisible
  | @cons a b c act acts first rest ih =>
      cases act with
      | restock =>
          obtain ⟨a', b', acts', hholder, hloan, hrest, hafter⟩ :=
            ih hvisible
          cases first with
          | restock hsame =>
              exact
                ⟨a', b', acts', hholder.trans hsame, hloan, hrest, hafter⟩
      | loan loan' =>
          obtain ⟨rfl, hafter⟩ := List.cons.inj hvisible
          exact ⟨a, b, acts, rfl, first, rest, hafter⟩

/-- What is out at the end are the loans without the returns. -/
theorem out_card_of_performs
    {l m : Lender κ σ capacity} {acts : List (LenderAction κ σ)}
    (h : Performs Lends l acts m) :
    l.out.card +
        (acts.filterMap LenderAction.visible).countP
          (fun l => l matches .lend _ _) =
      m.out.card +
        (acts.filterMap LenderAction.visible).countP
          (fun l => l matches .giveBack _ _) := by
  induction h with
  | nil a =>
      rfl
  | @cons a b c act acts first rest ih =>
      cases first with
      | restock hholder =>
          rw [out_congr hholder] at ih
          exact ih
      | lend hfree hholder =>
          have hout := out_of_lend hfree hholder
          simp only [List.filterMap_cons, LenderAction.visible,
            List.countP_cons]
          simp only [if_true, Bool.false_eq_true, if_false]
          omega
      | giveBack hlent hholder =>
          have hout := out_of_giveBack hlent hholder
          simp only [List.filterMap_cons, LenderAction.visible,
            List.countP_cons]
          simp only [if_true, Bool.false_eq_true, if_false]
          omega

/-- The loans of every performance of a lender are in order. -/
theorem orderly_of_performs
    {m : Lender κ σ capacity} {acts : List (LenderAction κ σ)}
    (h : Performs Lends empty acts m) :
    Orderly capacity (acts.filterMap LenderAction.visible) where
  exclusive before k s between k' after hloans := by
    obtain ⟨b, acts₁, acts₂, -, hrest, -, hvisible⟩ :=
      split_of_visible h hloans
    obtain ⟨a, c, acts₃, -, hlend, hrest, hvisible⟩ :=
      first_of_visible hrest hvisible
    obtain ⟨d, acts₄, acts₅, hbetween, hrest, hgiven, hvisible⟩ :=
      split_of_visible hrest hvisible
    obtain ⟨e, f, acts₆, hsame, hlend', -, -⟩ :=
      first_of_visible hrest hvisible
    by_contra hkept
    have hheld : c.holder s = some k := by
      cases hlend with
      | lend hfree hholder => simp [hholder]
    have hstill := holder_of_performs hheld (hgiven ▸ hkept) hbetween
    cases hlend' with
    | lend hfree hholder =>
        rw [hsame, hstill] at hfree
        cases hfree
  returned before k s after hloans := by
    obtain ⟨b, acts₁, acts₂, hbefore, hrest, hgiven, hvisible⟩ :=
      split_of_visible h hloans
    obtain ⟨a, c, acts₃, hsame, hgive, -, -⟩ :=
      first_of_visible hrest hvisible
    have hlent : b.holder s = some k := by
      cases hgive with
      | giveBack hlent hholder =>
          rw [← hsame]
          exact hlent
    rcases lent_of_performs hbefore hlent with ⟨hnone, -⟩ | hearlier
    · cases hnone
    · rw [hgiven] at hearlier
      exact hearlier
  within before after hloans := by
    obtain ⟨b, acts₁, acts₂, hbefore, -, hgiven, -⟩ :=
      split_of_visible h hloans
    have hcount := out_card_of_performs hbefore
    have hcard := b.out_card_le
    have hempty : (empty : Lender κ σ capacity).out.card = 0 := rfl
    rw [hgiven] at hcount
    omega

end Machine
end SpannerClient
