import Mathlib.Logic.Relation
import Mathlib.Tactic.Choose

/-!
# Cycles in graphs

A graph is the relation between a node and the nodes it refers to.  Following
references without entering a node twice, one can come back to a node that has
been entered (`ComesBack`); a cycle can be reached from a node if one comes back
somewhere on a way from it (`LeadsToCycle`).

* Where no cycle can be reached, one only comes back to the nodes that one came from
  (`ComesBack.mem_or_leadsToCycle`).
* From a node from which a cycle can be reached there is an edge to another such
  node (`LeadsToCycle.exists_edge`), and so a walk without an end (`exists_walk`).
-/

namespace SpannerClient
namespace Machine

universe u

open Relation (ReflTransGen TransGen)

variable {N : Type u} {r : N → N → Prop}

/-- A node on a cycle can be reached. -/
def LeadsToCycle
    (r : N → N → Prop) (a : N) : Prop :=
  ∃ b, ReflTransGen r a b ∧ TransGen r b b

theorem LeadsToCycle.of_reach
    {a b : N}
    (hb : LeadsToCycle r b)
    (h : ReflTransGen r a b) :
    LeadsToCycle r a := by
  obtain ⟨c, hreach, hcycle⟩ := hb
  exact ⟨c, h.trans hreach, hcycle⟩

theorem LeadsToCycle.exists_edge
    {a : N}
    (h : LeadsToCycle r a) :
    ∃ b, r a b ∧ LeadsToCycle r b := by
  obtain ⟨c, hreach, hcycle⟩ := h
  rcases ReflTransGen.cases_head hreach with rfl | ⟨b, hedge, hreach⟩
  · obtain ⟨b, hedge, hback⟩ := TransGen.head'_iff.mp hcycle
    exact ⟨b, hedge, _, hback, hcycle⟩
  · exact ⟨b, hedge, c, hreach, hcycle⟩

/-- With the nodes of the path entered, and at a node, one can come back to a node:
one goes on from nodes that have not been entered. -/
inductive ComesBack
    (r : N → N → Prop) : List N → N → N → Prop
  | here {path : List N} {a : N}
      (hmem : a ∈ path) :
      ComesBack r path a a
  | step {path : List N} {a b c : N}
      (hmem : a ∉ path)
      (hedge : r a b)
      (rest : ComesBack r (a :: path) b c) :
      ComesBack r path a c

/-- One comes back to a node of the path that can be reached, or there is a
cycle. -/
theorem ComesBack.mem_or_leadsToCycle
    {path : List N} {a c : N}
    (h : ComesBack r path a c) :
    c ∈ path ∧ ReflTransGen r a c ∨ LeadsToCycle r a := by
  induction h with
  | here hmem => exact .inl ⟨hmem, .refl⟩
  | @step path a b c hmem hedge rest ih =>
      rcases ih with ⟨hc, hreach⟩ | hcycle
      · rcases List.mem_cons.mp hc with rfl | hc
        · exact .inr ⟨c, .refl, TransGen.head' hedge hreach⟩
        · exact .inl ⟨hc, .head hedge hreach⟩
      · exact .inr (hcycle.of_reach (.single hedge))

/-- Where every node of a kind has a next one of the kind, there is a walk without
an end. -/
theorem exists_walk
    {next : N → N → Prop} {P : N → Prop}
    (hnext : ∀ a, P a → ∃ b, next a b ∧ P b)
    {a : N}
    (ha : P a) :
    ∃ w : Nat → N, w 0 = a ∧ ∀ i, next (w i) (w (i + 1)) ∧ P (w i) := by
  choose f hf using hnext
  let w : Nat → { b // P b } :=
    Nat.rec ⟨a, ha⟩ fun _ b => ⟨f b.1 b.2, (hf b.1 b.2).2⟩
  exact ⟨fun i => (w i).1, rfl, fun i => ⟨(hf (w i).1 (w i).2).1, (w i).2⟩⟩

end Machine
end SpannerClient
