import SpannerClient.ObjectConversion.Paths

/-!
# Walks to a cycle

Without `removeCircular` the converter goes through the entries of a node in order.
What comes before the first reference that leads to a cycle is converted; then the
converter goes there and does not return.  It throws when it comes to an object
that it is in, and until then it goes on.

`FirstToCycle` is the reference it takes at a node, and `Walked` a part of the walk
from the root.  If the walk comes back to an object the conversion throws the error
(`exists_convert_circular`), and if it never does no depth of calls is enough
(`convert_none`).
-/

namespace SpannerClient
namespace ObjectConversion

open Machine

variable {N ν β : Type} {g : Graph N ν β} {options : Options}

/-! ## The first way to a cycle -/

/-- Of the references among the entries this is the first that leads to a
cycle. -/
def FirstIn
    (g : Graph N ν β) (entries : List (String × Held N ν β)) (n : N) : Prop :=
  ∃ before prop after,
    entries = before ++ (prop, .ref n) :: after ∧
      LeadsToCycle (Edge g) n ∧
      ∀ prop k, (prop, .ref k) ∈ before → ¬ LeadsToCycle (Edge g) k

/-- The first reference of the node that leads to a cycle. -/
def FirstToCycle
    (g : Graph N ν β) (m n : N) : Prop :=
  FirstIn g (g m).entries n

theorem FirstIn.defined
    {entries : List (String × Held N ν β)} {n : N}
    (h : FirstIn g entries n) :
    FirstIn g (defined entries) n := by
  obtain ⟨before, prop, after, rfl, hcycle, hbefore⟩ := h
  refine
    ⟨ObjectConversion.defined before, prop, ObjectConversion.defined after,
      ?_, hcycle,
      fun prop k hk => hbefore prop k (List.mem_of_mem_filter hk)⟩
  simp [ObjectConversion.defined, Held.isUndefined]

theorem FirstToCycle.leadsToCycle
    {m n : N}
    (h : FirstToCycle g m n) :
    LeadsToCycle (Edge g) m := by
  obtain ⟨before, prop, after, hentries, hcycle, -⟩ := h
  have hedge : Edge g m n := by
    refine ⟨prop, ?_⟩
    rw [hentries]
    simp
  exact hcycle.of_reach (.single hedge)

/-- A node that leads to a cycle has such a reference. -/
theorem exists_firstToCycle
    {m : N}
    (h : LeadsToCycle (Edge g) m) :
    ∃ n, FirstToCycle g m n ∧ LeadsToCycle (Edge g) n := by
  classical
  let leads (entry : String × Held N ν β) : Prop :=
    ∃ k, entry.2 = .ref k ∧ LeadsToCycle (Edge g) k
  obtain ⟨k, ⟨prop, hk⟩, hcycle⟩ := h.exists_edge
  have hsome : ((g m).entries.find? fun entry => leads entry).isSome := by
    rw [List.find?_isSome]
    exact ⟨_, hk, decide_eq_true ⟨k, rfl, hcycle⟩⟩
  obtain ⟨⟨first, value⟩, hfirst⟩ := Option.isSome_iff_exists.mp hsome
  rw [List.find?_eq_some_iff_append] at hfirst
  obtain ⟨hleads, before, after, hentries, hbefore⟩ := hfirst
  obtain ⟨n, rfl, hn⟩ := of_decide_eq_true hleads
  refine ⟨n, ⟨before, first, after, hentries, hn, ?_⟩, hn⟩
  intro prop k hk hkcycle
  have hnot := hbefore _ hk
  rw [Bool.not_eq_true', decide_eq_false_iff_not] at hnot
  exact hnot ⟨k, rfl, hkcycle⟩

/-- From a node that leads to no cycle one cannot come back to nodes that do. -/
theorem backToObjects_of_acyclic
    {path : List N} {k : N}
    (hpath : ∀ n ∈ path, LeadsToCycle (Edge g) n)
    (hk : ¬ LeadsToCycle (Edge g) k) :
    BackToObjects g options path k := by
  intro n hn
  rcases hn.mem_or_leadsToCycle with ⟨hmem, hreach⟩ | hcycle
  · exact absurd ((hpath n hmem).of_reach hreach) hk
  · exact absurd hcycle hk

/-- The nodes that a walk has entered: the objects among them have been seen. -/
structure Walked
    (g : Graph N ν β) (w : Nat → N) (i : Nat) (seenObjects : List N) :
    Prop where
  nodup : seenObjects.Nodup
  cyclic : ∀ n ∈ seenObjects, LeadsToCycle (Edge g) n
  objects :
    ∀ n, (g n).isObject = true → (n ∈ seenObjects ↔ ∃ j < i, w j = n)

variable {w : Nat → N} {i : Nat} {seenObjects : List N}

theorem Walked.enter_array
    (h : Walked g w i seenObjects)
    (harray : (g (w i)).isObject = false) :
    Walked g w (i + 1) seenObjects where
  nodup := h.nodup
  cyclic := h.cyclic
  objects := by
    intro n hn
    rw [h.objects n hn]
    constructor
    · rintro ⟨j, hj, hw⟩
      exact ⟨j, by omega, hw⟩
    · rintro ⟨j, hj, hw⟩
      refine ⟨j, ?_, hw⟩
      by_contra hle
      have heq : j = i := by omega
      rw [heq] at hw
      rw [hw, hn] at harray
      cases harray

section Converter

variable [DecidableEq N]

theorem Walked.enter_object
    (h : Walked g w i seenObjects)
    (hcycle : LeadsToCycle (Edge g) (w i))
    (hnot : w i ∉ seenObjects) :
    Walked g w (i + 1) (setAdd seenObjects (w i)) where
  nodup := (setAdd_perm hnot).nodup_iff.mpr (h.nodup.cons hnot)
  cyclic := by
    intro n hn
    rcases mem_setAdd.mp hn with hn | rfl
    · exact h.cyclic n hn
    · exact hcycle
  objects := by
    intro n hn
    rw [mem_setAdd, h.objects n hn]
    constructor
    · rintro (⟨j, hj, hw⟩ | rfl)
      · exact ⟨j, by omega, hw⟩
      · exact ⟨i, by omega, rfl⟩
    · rintro ⟨j, hj, hw⟩
      by_cases heq : j = i
      · exact .inr (heq ▸ hw.symm)
      · exact .inl ⟨j, by omega, hw⟩

/-- At the root, which is put into the set whatever it is. -/
theorem walked_root
    (hcycle : LeadsToCycle (Edge g) (w 0)) :
    Walked g w 1 (setAdd [] (w 0)) where
  nodup := by simp [setAdd]
  cyclic := by
    intro n hn
    obtain rfl : n = w 0 := by simpa [setAdd] using hn
    exact hcycle
  objects := by
    intro n hn
    simp [setAdd, eq_comm]

/-! ## The calls -/

/-- What comes before the first way to a cycle is converted. -/
theorem encodeEntries_before
    [Fintype N]
    (hrecognized : Recognized g options.stringify)
    {seenObjects : List N} {before : List (String × Held N ν β)}
    (hnodup : seenObjects.Nodup)
    (hcyclic : ∀ n ∈ seenObjects, LeadsToCycle (Edge g) n)
    {fuel : Nat}
    (hfuel : Fintype.card N < fuel)
    (hleaves : RecognizedIn options.stringify before)
    (hbefore :
      ∀ prop k, (prop, .ref k) ∈ before → ¬ LeadsToCycle (Edge g) k) :
    ∃ fields,
      encodeEntries (encodeValue_ g options fuel) before seenObjects =
        some (.ok (fields, seenObjects)) := by
  obtain ⟨fields, hfields, -⟩ :=
    encodeEntries_of_back hrecognized hnodup
      (Nat.lt_add_right seenObjects.length hfuel) (fun _ _ => Iff.rfl) hleaves
      fun prop k hk => backToObjects_of_acyclic hcyclic (hbefore prop k hk)
  exact ⟨fields, hfields⟩

/-- The error of the first way to a cycle is the error of the entries. -/
theorem encodeEntries_error
    [Fintype N]
    (hrecognized : Recognized g options.stringify)
    (h : Walked g w i seenObjects)
    {fuel : Nat} {entries : List (String × Held N ν β)} {n : N}
    {message : String}
    (hfuel : Fintype.card N < fuel)
    (hleaves : RecognizedIn options.stringify entries)
    (hfirst : FirstIn g entries n)
    (herror :
      encodeValue_ g options fuel seenObjects (.ref n) =
        some (.error message)) :
    encodeEntries (encodeValue_ g options fuel) entries seenObjects =
      some (.error message) := by
  obtain ⟨before, prop, after, rfl, -, hbefore⟩ := hfirst
  obtain ⟨fields, hfields⟩ :=
    encodeEntries_before hrecognized h.nodup h.cyclic hfuel
      (fun prop l hl => hleaves prop l (List.mem_append_left _ hl)) hbefore
  rw [encodeEntries_append, hfields, ok_andThen, encodeEntries, herror]
  rfl

/-- Without an end on the first way to a cycle there is none to the entries. -/
theorem encodeEntries_none
    [Fintype N]
    (hrecognized : Recognized g options.stringify)
    (h : Walked g w i seenObjects)
    {fuel : Nat} {entries : List (String × Held N ν β)} {n : N}
    (hleaves : RecognizedIn options.stringify entries)
    (hfirst : FirstIn g entries n)
    (hnone : encodeValue_ g options fuel seenObjects (.ref n) = none) :
    encodeEntries (encodeValue_ g options fuel) entries seenObjects =
      none := by
  obtain ⟨before, prop, after, rfl, -, hbefore⟩ := hfirst
  have hfuel : Fintype.card N < fuel + (Fintype.card N + 1) := by omega
  have hle : fuel ≤ fuel + (Fintype.card N + 1) := by omega
  obtain ⟨fields, hfields⟩ :=
    encodeEntries_before hrecognized h.nodup h.cyclic hfuel
      (fun prop l hl => hleaves prop l (List.mem_append_left _ hl)) hbefore
  have hrefines :
      Refines
        (encodeEntries (encodeValue_ g options fuel) before seenObjects)
        (some (.ok (fields, seenObjects))) := by
    rw [← hfields]
    exact
      encodeEntries_refines (encodeValue_refines_of_le hle) before seenObjects
  rw [encodeEntries_append]
  cases hresult :
      encodeEntries (encodeValue_ g options fuel) before seenObjects with
  | none => rfl
  | some result =>
      cases hrefines result hresult
      rw [ok_andThen, encodeEntries, hnone]
      rfl

/-- The walk never comes back to an object: the calls go on for ever. -/
theorem encodeValue_none
    [Fintype N]
    (hrecognized : Recognized g options.stringify)
    (hwalk : ∀ i, FirstToCycle g (w i) (w (i + 1)))
    (hcycle : ∀ i, LeadsToCycle (Edge g) (w i))
    (hnever : ∀ j i, j < i → w j = w i → (g (w i)).isObject = false)
    (h : Walked g w i seenObjects)
    (fuel : Nat) :
    encodeValue_ g options fuel seenObjects (.ref (w i)) = none := by
  induction fuel generalizing i seenObjects with
  | zero => rfl
  | succ fuel ih =>
      by_cases hobject : (g (w i)).isObject = true
      · have hnot : w i ∉ seenObjects := by
          intro hmem
          obtain ⟨j, hj, hw⟩ := (h.objects _ hobject).mp hmem
          rw [hnever j i hj hw] at hobject
          cases hobject
        have hnext := h.enter_object (hcycle i) hnot
        rw [encodeValue_, if_pos hobject, if_neg hnot, convertWith,
          encodeEntries_none hrecognized hnext (hrecognized.defined (w i))
            (hwalk i).defined (ih hnext)]
        rfl
      · have harray : (g (w i)).isObject = false := by simpa using hobject
        have hnext := h.enter_array harray
        rw [encodeValue_, if_neg hobject,
          encodeEntries_none hrecognized hnext (hrecognized.entries harray)
            (hwalk i) (ih hnext)]
        rfl

/-- The walk comes back to an object: the call for it throws, and with it all that
are waiting for it. -/
theorem encodeValue_circular
    [Fintype N]
    (hrecognized : Recognized g options.stringify)
    (hoption : options.removeCircular = false)
    (hwalk : ∀ i, FirstToCycle g (w i) (w (i + 1)))
    (hcycle : ∀ i, LeadsToCycle (Edge g) (w i))
    {last : Nat}
    (hlast : (g (w last)).isObject = true ∧ ∃ j < last, w j = w last)
    (hbefore :
      ∀ i < last, (g (w i)).isObject = true → ¬ ∃ j < i, w j = w i)
    (h : Walked g w i seenObjects)
    {calls fuel : Nat}
    (hcalls : i + calls = last)
    (hfuel : Fintype.card N + calls < fuel) :
    encodeValue_ g options fuel seenObjects (.ref (w i)) =
      some (.error circularMessage) := by
  induction calls generalizing i seenObjects fuel with
  | zero =>
      obtain rfl : i = last := by omega
      obtain ⟨fuel, rfl⟩ := Nat.exists_eq_add_one.mpr (Nat.zero_lt_of_lt hfuel)
      have hmem := (h.objects _ hlast.1).mpr hlast.2
      rw [encodeValue_, if_pos hlast.1, if_pos hmem, hoption]
      rfl
  | succ calls ih =>
      obtain ⟨fuel, rfl⟩ := Nat.exists_eq_add_one.mpr (Nat.zero_lt_of_lt hfuel)
      have hlt : i < last := by omega
      have hcard : Fintype.card N < fuel := by omega
      by_cases hobject : (g (w i)).isObject = true
      · have hnot : w i ∉ seenObjects :=
          mt (h.objects _ hobject).mp (hbefore i hlt hobject)
        have hnext := h.enter_object (hcycle i) hnot
        rw [encodeValue_, if_pos hobject, if_neg hnot, convertWith,
          encodeEntries_error hrecognized hnext hcard
            (hrecognized.defined (w i)) (hwalk i).defined
            (ih hnext (by omega) (by omega))]
        rfl
      · have harray : (g (w i)).isObject = false := by simpa using hobject
        have hnext := h.enter_array harray
        rw [encodeValue_, if_neg hobject,
          encodeEntries_error hrecognized hnext hcard
            (hrecognized.entries harray) (hwalk i)
            (ih hnext (by omega) (by omega))]
        rfl

/-- A walk that never comes back to an object: there is no outcome. -/
theorem convert_none
    [Fintype N]
    (hrecognized : Recognized g options.stringify)
    (hwalk : ∀ i, FirstToCycle g (w i) (w (i + 1)))
    (hnever : ∀ j i, j < i → w j = w i → (g (w i)).isObject = false)
    (fuel : Nat) :
    convert g options fuel (w 0) = none := by
  have hcycle (i : Nat) := (hwalk i).leadsToCycle
  have hroot := walked_root (hcycle 0)
  rw [convert, convertWith,
    encodeEntries_none hrecognized hroot (hrecognized.defined (w 0))
      (hwalk 0).defined
      (encodeValue_none hrecognized hwalk hcycle hnever hroot fuel)]
  rfl

/-- A walk that comes back to an object: it is the first such object that the
error is for. -/
theorem exists_convert_circular
    [Fintype N]
    (hrecognized : Recognized g options.stringify)
    (hoption : options.removeCircular = false)
    (hwalk : ∀ i, FirstToCycle g (w i) (w (i + 1)))
    (hreturn : ∃ i, (g (w i)).isObject = true ∧ ∃ j < i, w j = w i) :
    ∃ fuel,
      convert g options fuel (w 0) = some (.error circularMessage) := by
  classical
  have hcycle (i : Nat) := (hwalk i).leadsToCycle
  have hlast := Nat.find_spec hreturn
  have hpos : 1 ≤ Nat.find hreturn := by
    obtain ⟨-, j, hj, -⟩ := hlast
    omega
  have hbefore :
      ∀ i < Nat.find hreturn, (g (w i)).isObject = true →
        ¬ ∃ j < i, w j = w i :=
    fun i hi hobject hback => Nat.find_min hreturn hi ⟨hobject, hback⟩
  have hroot := walked_root (hcycle 0)
  have hcalls : 1 + (Nat.find hreturn - 1) = Nat.find hreturn :=
    Nat.add_sub_of_le hpos
  have hfirst :
      encodeValue_ g options (Fintype.card N + Nat.find hreturn)
          (setAdd [] (w 0)) (.ref (w 1)) =
        some (.error circularMessage) :=
    encodeValue_circular hrecognized hoption hwalk hcycle hlast hbefore hroot
      hcalls (by omega)
  refine ⟨Fintype.card N + Nat.find hreturn, ?_⟩
  rw [convert, convertWith,
    encodeEntries_error hrecognized hroot (by omega)
      (hrecognized.defined (w 0)) (hwalk 0).defined hfirst]
  rfl

end Converter

end ObjectConversion
end SpannerClient
