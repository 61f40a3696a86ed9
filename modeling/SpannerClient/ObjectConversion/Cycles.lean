import SpannerClient.ObjectConversion.Walks

/-!
# Cycles in converted objects

A reference back to an object is found; one back to an array goes on, until it
comes to an object that is being converted or for ever.

`ConvertsExactly` is what is demanded of the conversion of a graph: that some depth
of calls is enough, that the error is thrown if and only if a cycle can be reached
and `removeCircular` is not set, and that otherwise the outcome is the one the graph
unfolds to.

The cases are those of `convertsExactly_iff_of_removeCircular`, where every way back
is looked at, and of `convertsExactly_iff_of_cycle` and
`convertsExactly_of_acyclic`, where only the walk to the first cycle is taken.  The
main result, `convertsExactly_iff`, puts them together.
-/

namespace SpannerClient
namespace ObjectConversion

open Machine

variable {N ν β : Type} {g : Graph N ν β} {options : Options}

/-! ## Coming back to an array -/

/-- What the entries are converted to and what they unfold to are made of what
their values are converted and unfold to. -/
theorem exists_value_of_entries
    {encode : List N → Held N ν β → Outcome N (Encoded ν β)}
    (hrestores :
      ∀ {seenObjects value x after},
        encode seenObjects value = some (.ok (x, after)) →
          after = seenObjects)
    {stringify : Bool} {seenObjects after path : List N}
    {entries : List (String × Held N ν β)}
    {fields fields' : List (String × Encoded ν β)}
    (hencode :
      encodeEntries encode entries seenObjects = some (.ok (fields, after)))
    (hunfolds : UnfoldsAll g stringify path entries fields')
    (hsame : fields.map Prod.snd = fields'.map Prod.snd)
    {prop : String} {value : Held N ν β}
    (hvalue : (prop, value) ∈ entries) :
    ∃ x, encode seenObjects value = some (.ok (x, seenObjects)) ∧
      Unfolds g stringify path value x := by
  induction entries generalizing seenObjects fields fields' with
  | nil => cases hvalue
  | cons entry entries ih =>
      obtain ⟨x, between, hfirst, hrest⟩ := andThen_eq_ok hencode
      obtain ⟨rest, last, hentries, hdone⟩ := andThen_eq_ok hrest
      cases hdone
      cases hunfolds with
      | cons hunfold hunfolds =>
          simp only [List.map_cons, List.cons.injEq] at hsame
          obtain rfl := hrestores hfirst
          rcases List.mem_cons.mp hvalue with heq | hvalue
          · cases heq
            exact ⟨x, hfirst, hsame.1 ▸ hunfold⟩
          · exact ih hentries hunfolds hsame.2 hvalue

section Converter

variable [DecidableEq N]

/-- A reference back to an array is not replaced. -/
theorem not_unfolds_of_comesBack
    {path : List N} {k n : N}
    (h : ComesBack (Edge g) path k n)
    (harray : (g n).isObject = false)
    {seenObjects : List N}
    (hseen : SeesObjects g seenObjects path)
    {fuel : Nat} {x : Encoded ν β} {after : List N}
    (hencode :
      encodeValue_ g options fuel seenObjects (.ref k) =
        some (.ok (x, after))) :
    ¬ Unfolds g options.stringify path (.ref k) x := by
  intro hunfolds
  induction h generalizing seenObjects fuel x after with
  | @here path k hmem =>
      cases hunfolds with
      | circular _ =>
          cases fuel with
          | zero => cases hencode
          | succ fuel =>
              rw [encodeValue_, if_neg (by simp [harray])] at hencode
              obtain ⟨fields, between, -, hdone⟩ := andThen_eq_ok hencode
              cases hdone
      | object hnot _ _ => exact hnot hmem
      | array hnot _ _ => exact hnot hmem
  | @step path k m n hnot hedge rest ih =>
      obtain ⟨prop, hm⟩ := hedge
      cases fuel with
      | zero => cases hencode
      | succ fuel =>
          cases hunfolds with
          | circular hmem => exact hnot hmem
          | object _ hobject hall =>
              have hnotSeen : k ∉ seenObjects := mt (hseen k hobject).mp hnot
              rw [encodeValue_, if_pos hobject, if_neg hnotSeen] at hencode
              obtain ⟨fields, between, hconvert, hdone⟩ :=
                andThen_eq_ok hencode
              obtain ⟨_, last, hentries, herase⟩ := andThen_eq_ok hconvert
              cases hdone
              cases herase
              have hdefined : (prop, .ref m) ∈ defined (g k).entries :=
                List.mem_filter.mpr ⟨hm, rfl⟩
              obtain ⟨y, hy, hunfold⟩ :=
                exists_value_of_entries encodeValue_restores hentries hall rfl
                  hdefined
              exact ih harray (hseen.enter_object k) hy hunfold
          | array _ hkarray hall =>
              rw [encodeValue_, if_neg (by simp [hkarray])] at hencode
              obtain ⟨fields, between, hentries, hdone⟩ :=
                andThen_eq_ok hencode
              simp only [Option.some.injEq, Except.ok.injEq, Prod.mk.injEq,
                Encoded.listValue.injEq] at hdone
              obtain ⟨y, hy, hunfold⟩ :=
                exists_value_of_entries encodeValue_restores hentries hall
                  hdone.1 hm
              exact ih harray (hseen.enter_array hkarray) hy hunfold

/-! ## The conversion -/

/-- How a conversion is to end. -/
structure Ends
    (g : Graph N ν β) (options : Options) (root : N)
    (outcome : Except String (List (String × Encoded ν β) × List N)) :
    Prop where
  circular :
    options.removeCircular = false →
      (outcome = .error circularMessage ↔ LeadsToCycle (Edge g) root)
  converted :
    options.removeCircular = true ∨ ¬ LeadsToCycle (Edge g) root →
      ∃ fields, outcome = .ok (fields, []) ∧
        UnfoldsAll g options.stringify [root] (defined (g root).entries) fields

/-- The conversion ends, and as it is to. -/
def ConvertsExactly
    (g : Graph N ν β) (options : Options) (root : N) : Prop :=
  ∃ fuel outcome, convert g options fuel root = some outcome ∧
    Ends g options root outcome

/-- With `removeCircular`: a path that comes back, comes back to an object.
Without: the walk that always takes the first way to a cycle comes back to an
object. -/
def ThroughObjects
    (g : Graph N ν β) (options : Options) (root : N) : Prop :=
  if options.removeCircular then
    ∀ n, ComesBack (Edge g) [] root n → (g n).isObject = true
  else
    ∀ w : Nat → N, w 0 = root → (∀ i, FirstToCycle g (w i) (w (i + 1))) →
      ∃ i j, i < j ∧ w i = w j ∧ (g (w i)).isObject = true

theorem seesObjects_root
    (root : N) :
    SeesObjects g (setAdd [] root) [root] := by
  intro n _
  simp [setAdd]

/-- A conversion from which one can only come back to objects. -/
theorem convert_of_back
    [Fintype N]
    (hrecognized : Recognized g options.stringify)
    {root : N}
    (hback :
      ∀ k, Edge g root k → BackToObjects g options [root] k)
    {fuel : Nat}
    (hfuel : Fintype.card N < fuel) :
    ∃ fields,
      convert g options fuel root = some (.ok (fields, [])) ∧
        UnfoldsAll g options.stringify [root] (defined (g root).entries)
          fields := by
  obtain ⟨fields, hfields, hall⟩ :=
    encodeEntries_of_back hrecognized (List.nodup_singleton root)
      (Nat.lt_add_right 1 hfuel) (seesObjects_root root)
      (hrecognized.defined root)
      fun prop k hk => hback k ⟨prop, List.mem_of_mem_filter hk⟩
  refine ⟨fields, ?_, hall⟩
  rw [convert, convertWith, hfields, ok_andThen,
    erase_setAdd (List.not_mem_nil (a := root))]

/-- A conversion that replaces references. -/
theorem convertsExactly_iff_of_removeCircular
    [Fintype N]
    (hrecognized : Recognized g options.stringify)
    (hoption : options.removeCircular = true)
    (root : N) :
    ConvertsExactly g options root ↔
      ∀ n, ComesBack (Edge g) [] root n → (g n).isObject = true := by
  constructor
  · rintro ⟨fuel, outcome, hconvert, hends⟩ n hback
    obtain ⟨fields, rfl, hall⟩ := hends.converted (.inl hoption)
    cases hback with
    | here hmem => cases hmem
    | @step _ _ k _ _ hedge hback =>
        obtain ⟨prop, hk⟩ := hedge
        by_contra hnot
        have harray : (g n).isObject = false := by simpa using hnot
        obtain ⟨_, last, hentries, herase⟩ := andThen_eq_ok hconvert
        simp only [Option.some.injEq, Except.ok.injEq, Prod.mk.injEq] at herase
        obtain ⟨rfl, -⟩ := herase
        have hdefined : (prop, .ref k) ∈ defined (g root).entries :=
          List.mem_filter.mpr ⟨hk, rfl⟩
        obtain ⟨y, hy, hunfold⟩ :=
          exists_value_of_entries encodeValue_restores hentries hall rfl
            hdefined
        exact
          not_unfolds_of_comesBack hback harray (seesObjects_root root) hy
            hunfold
  · intro hcondition
    obtain ⟨fields, hconvert, hall⟩ :=
      convert_of_back hrecognized
        (fun k hk n hn =>
          ⟨hoption, hcondition n (.step List.not_mem_nil hk hn)⟩)
        (Nat.lt_succ_self _)
    refine ⟨_, _, hconvert, ?_, fun _ => ⟨fields, rfl, hall⟩⟩
    intro hfalse
    rw [hoption] at hfalse
    cases hfalse

/-- Without a cycle nothing is seen twice. -/
theorem convertsExactly_of_acyclic
    [Fintype N]
    (hrecognized : Recognized g options.stringify)
    {root : N}
    (hacyclic : ¬ LeadsToCycle (Edge g) root) :
    ConvertsExactly g options root := by
  have hback (k : N) (hk : Edge g root k) :
      BackToObjects g options [root] k := by
    intro n hn
    rcases hn.mem_or_leadsToCycle with ⟨hmem, hreach⟩ | hcycle
    · rw [List.mem_singleton.mp hmem] at hreach
      exact absurd ⟨root, .refl, .head' hk hreach⟩ hacyclic
    · exact absurd (hcycle.of_reach (.single hk)) hacyclic
  obtain ⟨fields, hconvert, hall⟩ :=
    convert_of_back hrecognized hback (Nat.lt_succ_self _)
  refine ⟨_, _, hconvert, fun _ => ?_, fun _ => ⟨fields, rfl, hall⟩⟩
  simp [hacyclic]

/-- A conversion that throws at a cycle. -/
theorem convertsExactly_iff_of_cycle
    [Fintype N]
    (hrecognized : Recognized g options.stringify)
    (hoption : options.removeCircular = false)
    {root : N}
    (hcycle : LeadsToCycle (Edge g) root) :
    ConvertsExactly g options root ↔
      ∀ w : Nat → N, w 0 = root → (∀ i, FirstToCycle g (w i) (w (i + 1))) →
        ∃ i j, i < j ∧ w i = w j ∧ (g (w i)).isObject = true := by
  constructor
  · rintro ⟨fuel, outcome, hconvert, -⟩ w rfl hwalk
    by_contra hnever
    have harray (j i : Nat) (hlt : j < i) (heq : w j = w i) :
        (g (w i)).isObject = false := by
      rw [← heq]
      by_contra hobject
      exact hnever ⟨j, i, hlt, heq, by simpa using hobject⟩
    rw [convert_none hrecognized hwalk harray] at hconvert
    cases hconvert
  · intro hcondition
    obtain ⟨w, rfl, hwalk⟩ :=
      exists_walk (fun m => exists_firstToCycle (g := g) (m := m)) hcycle
    obtain ⟨j, i, hlt, heq, hobject⟩ :=
      hcondition w rfl fun i => (hwalk i).1
    obtain ⟨fuel, hcircular⟩ :=
      exists_convert_circular hrecognized hoption (fun i => (hwalk i).1)
        ⟨i, heq ▸ hobject, j, hlt, heq⟩
    refine ⟨fuel, _, hcircular, fun _ => by simp [hcycle], ?_⟩
    rintro (hremove | hacyclic)
    · rw [hoption] at hremove
      cases hremove
    · exact absurd hcycle hacyclic

/-- The conversion terminates and finds exactly the cycles, if it comes to them
through objects. -/
theorem convertsExactly_iff
    [Fintype N]
    (g : Graph N ν β) (options : Options) (root : N)
    (hrecognized : Recognized g options.stringify) :
    ConvertsExactly g options root ↔ ThroughObjects g options root := by
  by_cases hoption : options.removeCircular = true
  · rw [ThroughObjects, if_pos hoption]
    exact convertsExactly_iff_of_removeCircular hrecognized hoption root
  · rw [ThroughObjects, if_neg hoption]
    rw [Bool.not_eq_true] at hoption
    by_cases hcycle : LeadsToCycle (Edge g) root
    · exact convertsExactly_iff_of_cycle hrecognized hoption hcycle
    · refine
        iff_of_true (convertsExactly_of_acyclic hrecognized hcycle) ?_
      intro w hroot hwalk
      have hfirst := (hwalk 0).leadsToCycle
      rw [hroot] at hfirst
      exact absurd hfirst hcycle

end Converter

/-- An object with an array that refers back to the object. -/
def throughObject : Graph Bool Nat Nat
  | false =>
      .object { entries := [("list", .ref true)], nodup := by simp }
        (by simp [PlainObject.keys])
  | true => .array [.ref false]

/-- An object with an array that has itself as an element. -/
def throughArray : Graph Bool Nat Nat
  | false =>
      .object { entries := [("list", .ref true)], nodup := by simp }
        (by simp [PlainObject.keys])
  | true => .array [.ref true]

theorem throughObject_recognized :
    Recognized throughObject false := by
  intro n prop l hl
  cases n <;>
    simp [Node.visited, Node.isObject, throughObject, Node.entries,
      ObjectConversion.defined, Held.isUndefined] at hl

theorem convertsExactly_iff_throughObject :
    Recognized throughObject false ∧
      (ConvertsExactly throughObject {} false ↔
        ThroughObjects throughObject {} false) :=
  ⟨throughObject_recognized,
    convertsExactly_iff throughObject {} false throughObject_recognized⟩

theorem throughArray_recognized :
    Recognized throughArray false := by
  intro n prop l hl
  cases n <;>
    simp [Node.visited, Node.isObject, throughArray, Node.entries,
      ObjectConversion.defined, Held.isUndefined] at hl

/-- However deep the calls may be, they are not deep enough. -/
theorem convert_throughArray
    (options : Options) (fuel : Nat) :
    convert throughArray options fuel false = none := by
  have hnone :
      encodeValue_ throughArray options fuel [false] (.ref true) = none := by
    induction fuel with
    | zero => rfl
    | succ fuel ih =>
        rw [encodeValue_, if_neg (by simp [throughArray, Node.isObject])]
        change
          Outcome.andThen
              (Outcome.andThen
                (encodeValue_ throughArray options fuel [false] (.ref true))
                _) _ =
            none
        rw [ih]
        rfl
  change
    Outcome.andThen
        (Outcome.andThen
          (encodeValue_ throughArray options fuel [false] (.ref true)) _) _ =
      none
  rw [hnone]
  rfl

/-- It has no outcome, with `removeCircular` or without. -/
theorem throughArray_not_convertsExactly :
    Recognized throughArray false ∧
      ¬ ConvertsExactly throughArray {} false ∧
      ¬ ConvertsExactly throughArray { removeCircular := true } false := by
  refine ⟨throughArray_recognized, ?_, ?_⟩
  · rintro ⟨fuel, outcome, hconvert, -⟩
    rw [convert_throughArray] at hconvert
    cases hconvert
  · rintro ⟨fuel, outcome, hconvert, -⟩
    rw [convert_throughArray] at hconvert
    cases hconvert

end ObjectConversion
end SpannerClient
