import Mathlib.Data.Fintype.Card
import SpannerClient.ObjectConversion.Basic

/-!
# Paths of a conversion

The set of seen objects is the path from the root, but without the arrays on it
(`SeesObjects`).  Every call puts it back as it was (`encodeEntries_restores`,
`encodeValue_restores`).

As long as one can only come back to objects (`BackToObjects`), every call is in one
more node and the conversion is what the graph unfolds to (`encodeEntries_unfolds`,
`encodeEntries_of_back`).  More fuel changes no outcome (`encodeValue_refines`), so
that the depth the graph allows is enough.
-/

namespace SpannerClient
namespace ObjectConversion

open Machine

variable {N ν β : Type} {g : Graph N ν β} {options : Options}

/-! ## Outcomes -/

theorem andThen_eq_ok
    {α γ : Type} {o : Outcome N α} {f : α → List N → Outcome N γ} {c : γ}
    {seenObjects : List N}
    (h : o.andThen f = some (.ok (c, seenObjects))) :
    ∃ a before, o = some (.ok (a, before)) ∧
      f a before = some (.ok (c, seenObjects)) := by
  cases o with
  | none => cases h
  | some result =>
      cases result with
      | error message => cases h
      | ok value => exact ⟨value.1, value.2, rfl, h⟩

theorem ok_andThen
    {α γ : Type} (a : α) (seenObjects : List N)
    (f : α → List N → Outcome N γ) :
    Outcome.andThen (some (.ok (a, seenObjects))) f = f a seenObjects := by
  rfl

theorem andThen_ok
    {α : Type} (o : Outcome N α) :
    (o.andThen fun a seenObjects => some (.ok (a, seenObjects))) = o := by
  rcases o with - | - | - <;> rfl

theorem andThen_assoc
    {α γ δ : Type} (o : Outcome N α) (f : α → List N → Outcome N γ)
    (f' : γ → List N → Outcome N δ) :
    (o.andThen f).andThen f' =
      o.andThen fun a seenObjects => (f a seenObjects).andThen f' := by
  rcases o with - | - | - <;> rfl

/-- The second outcome is the first one, if there is a first one. -/
def Refines
    {α : Type} (o o' : Outcome N α) : Prop :=
  ∀ result, o = some result → o' = some result

theorem Refines.andThen
    {α γ : Type} {o o' : Outcome N α} {f f' : α → List N → Outcome N γ}
    (h : Refines o o')
    (hf : ∀ a seenObjects, Refines (f a seenObjects) (f' a seenObjects)) :
    Refines (o.andThen f) (o'.andThen f') := by
  intro result hresult
  cases o with
  | none => cases hresult
  | some first =>
      rw [h first rfl]
      cases first with
      | error message => exact hresult
      | ok value => exact hf value.1 value.2 result hresult

theorem refines_self
    {α : Type} (o : Outcome N α) :
    Refines o o :=
  fun _ h => h

theorem encodeEntries_refines
    {encode encode' : List N → Held N ν β → Outcome N (Encoded ν β)}
    (h :
      ∀ seenObjects value,
        Refines (encode seenObjects value) (encode' seenObjects value))
    (entries : List (String × Held N ν β)) (seenObjects : List N) :
    Refines (encodeEntries encode entries seenObjects)
      (encodeEntries encode' entries seenObjects) := by
  induction entries generalizing seenObjects with
  | nil => exact refines_self _
  | cons entry entries ih =>
      obtain ⟨prop, value⟩ := entry
      refine (h seenObjects value).andThen fun x seenObjects => ?_
      exact (ih seenObjects).andThen fun _ _ => refines_self _

/-- The entries leave the set as it was, if every value does. -/
theorem encodeEntries_restores
    {encode : List N → Held N ν β → Outcome N (Encoded ν β)}
    (h :
      ∀ {seenObjects value x after},
        encode seenObjects value = some (.ok (x, after)) →
          after = seenObjects)
    {entries : List (String × Held N ν β)} {seenObjects after : List N}
    {fields : List (String × Encoded ν β)}
    (hfields :
      encodeEntries encode entries seenObjects = some (.ok (fields, after))) :
    after = seenObjects := by
  induction entries generalizing seenObjects fields with
  | nil =>
      cases hfields
      rfl
  | cons entry entries ih =>
      obtain ⟨x, between, hvalue, hrest⟩ := andThen_eq_ok hfields
      obtain ⟨rest, last, hentries, hdone⟩ := andThen_eq_ok hrest
      cases hdone
      rw [ih hentries, h hvalue]

theorem encodeEntries_append
    (encode : List N → Held N ν β → Outcome N (Encoded ν β))
    (before after : List (String × Held N ν β)) (seenObjects : List N) :
    encodeEntries encode (before ++ after) seenObjects =
      (encodeEntries encode before seenObjects).andThen fun fields seen =>
        (encodeEntries encode after seen).andThen fun rest seen =>
          some (.ok (fields ++ rest, seen)) := by
  induction before generalizing seenObjects with
  | nil =>
      rw [List.nil_append, encodeEntries, ok_andThen]
      exact (andThen_ok _).symm
  | cons entry before ih =>
      simp only [List.cons_append, encodeEntries, ih, andThen_assoc, ok_andThen]

/-! ## Leaves, objects and ways back -/

/-- The converter takes the leaf. -/
def Leaf.Recognized
    (stringify : Bool) (l : Leaf ν β) : Prop :=
  ∃ x, l.encode stringify = .ok x

/-- The converter takes all leaves among the entries. -/
def RecognizedIn
    (stringify : Bool) (entries : List (String × Held N ν β)) : Prop :=
  ∀ prop l, (prop, .leaf l) ∈ entries → l.Recognized stringify

/-- What the converter goes through: it skips undefined properties. -/
def Node.visited
    (node : Node N ν β) : List (String × Held N ν β) :=
  if node.isObject then defined node.entries else node.entries

/-- The converter takes all leaves that it comes to. -/
def Recognized
    (g : Graph N ν β) (stringify : Bool) : Prop :=
  ∀ n, RecognizedIn stringify (g n).visited

theorem Recognized.defined
    {stringify : Bool}
    (h : Recognized g stringify) (n : N) :
    RecognizedIn stringify (defined (g n).entries) := by
  have hn := h n
  rw [Node.visited] at hn
  split at hn
  · exact hn
  · exact fun prop l hl => hn prop l (List.mem_of_mem_filter hl)

theorem Recognized.entries
    {stringify : Bool}
    (h : Recognized g stringify) {n : N}
    (hn : (g n).isObject = false) :
    RecognizedIn stringify (g n).entries := by
  have hvisited := h n
  rwa [Node.visited, hn] at hvisited

/-- Entries that are converted one by one. -/
theorem encodeEntries_unfolds
    {encode : List N → Held N ν β → Outcome N (Encoded ν β)}
    {stringify : Bool} {seenObjects path : List N}
    {entries : List (String × Held N ν β)}
    (h :
      ∀ prop value, (prop, value) ∈ entries →
        ∃ x, encode seenObjects value = some (.ok (x, seenObjects)) ∧
          Unfolds g stringify path value x) :
    ∃ fields,
      encodeEntries encode entries seenObjects =
          some (.ok (fields, seenObjects)) ∧
        UnfoldsAll g stringify path entries fields := by
  induction entries with
  | nil => exact ⟨[], rfl, .nil⟩
  | cons entry entries ih =>
      obtain ⟨prop, value⟩ := entry
      obtain ⟨x, hencode, hvalue⟩ := h prop value List.mem_cons_self
      obtain ⟨fields, hentries, hall⟩ :=
        ih fun prop value hmem => h prop value (List.mem_cons_of_mem _ hmem)
      refine ⟨(prop, x) :: fields, ?_, .cons hvalue hall⟩
      rw [encodeEntries, hencode, Outcome.andThen, hentries]
      rfl

/-- The set has the objects of the path. -/
def SeesObjects
    (g : Graph N ν β) (seenObjects path : List N) : Prop :=
  ∀ n, (g n).isObject = true → (n ∈ seenObjects ↔ n ∈ path)

theorem SeesObjects.enter_array
    {seenObjects path : List N} {n : N}
    (h : SeesObjects g seenObjects path)
    (hn : (g n).isObject = false) :
    SeesObjects g seenObjects (n :: path) := by
  intro k hk
  have hne : k ≠ n := by
    rintro rfl
    rw [hn] at hk
    cases hk
  rw [h k hk, List.mem_cons, or_iff_right hne]

/-- From the node one can only come back to objects, and such references are to
be replaced. -/
def BackToObjects
    (g : Graph N ν β) (options : Options) (path : List N) (k : N) : Prop :=
  ∀ n, ComesBack (Edge g) path k n →
    options.removeCircular = true ∧ (g n).isObject = true

section Converter

variable [DecidableEq N]

/-! ## The depth of the calls and the set -/

theorem convertWith_refines
    {encode encode' : List N → Held N ν β → Outcome N (Encoded ν β)}
    (h :
      ∀ seenObjects value,
        Refines (encode seenObjects value) (encode' seenObjects value))
    (seenObjects : List N) (obj : N) :
    Refines (convertWith g encode seenObjects obj)
      (convertWith g encode' seenObjects obj) :=
  (encodeEntries_refines h _ _).andThen fun _ _ => refines_self _

/-- More fuel does not change the outcome. -/
theorem encodeValue_refines
    (fuel : Nat) (seenObjects : List N) (value : Held N ν β) :
    Refines (encodeValue_ g options fuel seenObjects value)
      (encodeValue_ g options (fuel + 1) seenObjects value) := by
  induction fuel generalizing seenObjects value with
  | zero =>
      intro result h
      cases h
  | succ fuel ih =>
      cases value with
      | leaf l => exact refines_self _
      | ref n =>
          rw [encodeValue_, encodeValue_]
          split
          · split
            · exact refines_self _
            · exact
                (convertWith_refines ih seenObjects n).andThen
                  fun _ _ => refines_self _
          · exact
              (encodeEntries_refines ih _ _).andThen fun _ _ => refines_self _

theorem encodeValue_refines_of_le
    {fuel fuel' : Nat}
    (h : fuel ≤ fuel')
    (seenObjects : List N) (value : Held N ν β) :
    Refines (encodeValue_ g options fuel seenObjects value)
      (encodeValue_ g options fuel' seenObjects value) := by
  induction h with
  | refl => exact refines_self _
  | step _ ih =>
      exact fun result hresult =>
        encodeValue_refines _ _ _ result (ih result hresult)

theorem erase_setAdd
    {seenObjects : List N} {n : N}
    (hn : n ∉ seenObjects) :
    (setAdd seenObjects n).erase n = seenObjects := by
  rw [setAdd_of_not_mem hn, List.erase_append_right _ hn]
  simp

/-- What has been added to the set on entry is removed on exit. -/
theorem encodeValue_restores
    {fuel : Nat} {seenObjects after : List N} {value : Held N ν β}
    {x : Encoded ν β}
    (h :
      encodeValue_ g options fuel seenObjects value =
        some (.ok (x, after))) :
    after = seenObjects := by
  induction fuel generalizing seenObjects value x after with
  | zero => cases h
  | succ fuel ih =>
      cases value with
      | leaf l =>
          rw [encodeValue_] at h
          cases hl : l.encode options.stringify with
          | error message => simp [hl, Except.map] at h
          | ok x => simp_all [Except.map]
      | ref n =>
          rw [encodeValue_] at h
          split at h
          · split at h
            · split at h
              · cases h
              · cases h
                rfl
            · rename_i hn
              obtain ⟨fields, between, hconvert, hdone⟩ := andThen_eq_ok h
              obtain ⟨_, last, hentries, herase⟩ := andThen_eq_ok hconvert
              cases hdone
              cases herase
              rw [encodeEntries_restores ih hentries, erase_setAdd hn]
          · obtain ⟨fields, between, hentries, hdone⟩ := andThen_eq_ok h
            cases hdone
            exact encodeEntries_restores ih hentries

/-! ## Without a way back -/

theorem SeesObjects.enter_object
    {seenObjects path : List N}
    (h : SeesObjects g seenObjects path) (n : N) :
    SeesObjects g (setAdd seenObjects n) (n :: path) := by
  intro k hk
  rw [mem_setAdd, h k hk, List.mem_cons, or_comm]

/-- The entries of a path are converted, if one can only come back to objects.
Every call is in one more node, and there are only so many. -/
theorem encodeEntries_of_back
    [Fintype N]
    (hrecognized : Recognized g options.stringify)
    {fuel : Nat} {seenObjects path : List N}
    {entries : List (String × Held N ν β)}
    (hpath : path.Nodup)
    (hfuel : Fintype.card N < fuel + path.length)
    (hseen : SeesObjects g seenObjects path)
    (hleaves : RecognizedIn options.stringify entries)
    (hback :
      ∀ prop k, (prop, .ref k) ∈ entries → BackToObjects g options path k) :
    ∃ fields,
      encodeEntries (encodeValue_ g options fuel) entries seenObjects =
          some (.ok (fields, seenObjects)) ∧
        UnfoldsAll g options.stringify path entries fields := by
  induction fuel generalizing seenObjects path entries with
  | zero =>
      have hlength := hpath.length_le_card
      omega
  | succ fuel ih =>
      refine encodeEntries_unfolds fun prop value hvalue => ?_
      cases value with
      | leaf l =>
          obtain ⟨x, hx⟩ := hleaves prop l hvalue
          refine ⟨x, ?_, .leaf hx⟩
          rw [encodeValue_, hx]
          rfl
      | ref n =>
          have hn := hback prop n hvalue
          by_cases hmem : n ∈ path
          · obtain ⟨hremove, hobject⟩ := hn n (.here hmem)
            refine ⟨_, ?_, .circular hmem⟩
            rw [encodeValue_, if_pos hobject,
              if_pos ((hseen n hobject).mpr hmem), hremove]
            rfl
          · have hcons : (n :: path).Nodup := hpath.cons hmem
            have hfuel' : Fintype.card N < fuel + (n :: path).length := by
              rw [List.length_cons]
              omega
            have hrest (prop : String) (k : N)
                (hk : (prop, .ref k) ∈ (g n).entries) :
                BackToObjects g options (n :: path) k :=
              fun c hc => hn c (.step hmem ⟨prop, hk⟩ hc)
            by_cases hobject : (g n).isObject = true
            · have hnot : n ∉ seenObjects := mt (hseen n hobject).mp hmem
              obtain ⟨fields, hfields, hall⟩ :=
                ih hcons hfuel' (hseen.enter_object n)
                  (hrecognized.defined n)
                  fun prop k hk => hrest prop k (List.mem_of_mem_filter hk)
              refine ⟨.structValue fields, ?_, .object hmem hobject hall⟩
              rw [encodeValue_, if_pos hobject, if_neg hnot, convertWith,
                hfields]
              simp only [Outcome.andThen, erase_setAdd hnot]
            · have harray : (g n).isObject = false := by simpa using hobject
              obtain ⟨fields, hfields, hall⟩ :=
                ih hcons hfuel' (hseen.enter_array harray)
                  (hrecognized.entries harray) hrest
              refine
                ⟨.listValue (fields.map Prod.snd), ?_,
                  .array hmem harray hall⟩
              rw [encodeValue_, if_neg hobject, hfields]
              rfl

end Converter

end ObjectConversion
end SpannerClient
