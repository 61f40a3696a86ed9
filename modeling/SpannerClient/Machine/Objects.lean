import Mathlib.Data.List.Nodup

/-!
# JavaScript objects

A plain object is the list of its own properties, in the order they were made
in.  Reading a property that it does not have finds one of `Object.prototype`,
if there is one of the name, and assigning to `__proto__` makes no property.
JavaScript lists a new property last unless its name is an array index; here it is
always last, and no result depends on the place of a property that is added.

The second part is about loops that assign to one object what they make of each
property of another (`assignAll`), where some properties are passed over:

* a property has the value that was made of its last entry, if there is one
  (`get_assignAll_of_mem`), and keeps its own otherwise
  (`get_assignAll_of_not_mem`);
* the loop leaves the object as it is exactly if every entry assigns what is there
  (`assignAll_eq_self_iff`);
* the result depends on the loop's function only at the entries
  (`assignAll_congr`).
-/

namespace SpannerClient
namespace Machine

universe u v

/-- The names of the properties of `Object.prototype`; all of them are truthy. -/
def inheritedNames : List String :=
  ["constructor", "__defineGetter__", "__defineSetter__", "hasOwnProperty",
    "__lookupGetter__", "__lookupSetter__", "isPrototypeOf",
    "propertyIsEnumerable", "toString", "valueOf", "__proto__",
    "toLocaleString"]

/-- The own properties of a plain object. -/
@[ext]
structure PlainObject (α : Type u) where
  entries : List (String × α)
  nodup : (entries.map Prod.fst).Nodup

namespace PlainObject

variable {α : Type u} {β : Type v}

/-- `{}`. -/
def empty : PlainObject α where
  entries := []
  nodup := List.nodup_nil

/-- The value of an own property. -/
def get
    (o : PlainObject α) (name : String) : Option α :=
  o.entries.lookup name

/-- `Object.keys`. -/
def keys
    (o : PlainObject α) : List String :=
  o.entries.map Prod.fst

/-- A property is set in its place, a new one at the end. -/
def setEntry
    (name : String) (x : α) : List (String × α) → List (String × α)
  | [] => [(name, x)]
  | entry :: entries =>
      if entry.1 = name then (name, x) :: entries
      else entry :: setEntry name x entries

theorem mem_setEntry_names
    {name other : String} {x : α} {entries : List (String × α)}
    (h : other ∈ (setEntry name x entries).map Prod.fst) :
    other = name ∨ other ∈ entries.map Prod.fst := by
  induction entries with
  | nil => simpa [setEntry] using h
  | cons entry entries ih =>
      by_cases hname : entry.1 = name
      · rw [setEntry, if_pos hname, List.map_cons, List.mem_cons] at h
        rcases h with h | h
        · exact Or.inl h
        · exact Or.inr (List.mem_cons_of_mem _ h)
      · rw [setEntry, if_neg hname, List.map_cons, List.mem_cons] at h
        rcases h with h | h
        · exact Or.inr (h ▸ List.mem_cons_self)
        · exact (ih h).imp id (List.mem_cons_of_mem _)

theorem setEntry_nodup
    (name : String) (x : α) {entries : List (String × α)}
    (h : (entries.map Prod.fst).Nodup) :
    ((setEntry name x entries).map Prod.fst).Nodup := by
  induction entries with
  | nil => simp [setEntry]
  | cons entry entries ih =>
      rw [List.map_cons, List.nodup_cons] at h
      by_cases hname : entry.1 = name
      · rw [setEntry, if_pos hname, List.map_cons, List.nodup_cons, ← hname]
        exact h
      · rw [setEntry, if_neg hname, List.map_cons, List.nodup_cons]
        refine ⟨?_, ih h.2⟩
        intro hmem
        rcases mem_setEntry_names hmem with heq | hmem
        · exact hname heq
        · exact h.1 hmem

def set
    (o : PlainObject α) (name : String) (x : α) : PlainObject α where
  entries := setEntry name x o.entries
  nodup := setEntry_nodup name x o.nodup

/-- `o[name] = x`. -/
def assign
    (o : PlainObject α) (name : String) (x : α) : PlainObject α :=
  if name = "__proto__" ∧ o.get name = none then o else o.set name x

/-- `o[name]` is truthy. -/
def truthyAt
    (truthy : α → Bool) (o : PlainObject α) (name : String) : Bool :=
  match o.get name with
  | some x => truthy x
  | none => inheritedNames.contains name

@[simp] theorem get_empty
    (name : String) :
    (empty : PlainObject α).get name = none := by
  rfl

theorem lookup_entry
    (name : String) (entry : String × α) (entries : List (String × α)) :
    (entry :: entries).lookup name =
      if name = entry.1 then some entry.2 else entries.lookup name := by
  obtain ⟨n, x⟩ := entry
  by_cases h : name = n
  · simp [h]
  · rw [List.lookup_cons, beq_eq_false_iff_ne.mpr h, if_neg h]

theorem get_set
    (o : PlainObject α) (name other : String) (x : α) :
    (o.set name x).get other =
      if other = name then some x else o.get other := by
  have hentries :
      ∀ entries : List (String × α),
        (setEntry name x entries).lookup other =
          if other = name then some x else entries.lookup other := by
    intro entries
    induction entries with
    | nil => simp [setEntry, lookup_entry]
    | cons entry entries ih =>
        by_cases hname : entry.1 = name
        · rw [setEntry, if_pos hname, lookup_entry, lookup_entry, hname]
          by_cases h : other = name <;> simp [h]
        · rw [setEntry, if_neg hname, lookup_entry, lookup_entry, ih]
          by_cases h : other = entry.1
          · simp [h, hname]
          · simp [h]
  exact hentries o.entries

/-- Setting a property to what it is. -/
theorem set_eq_self
    {o : PlainObject α} {name : String} {x : α}
    (h : o.get name = some x) :
    o.set name x = o := by
  have hentries :
      ∀ entries : List (String × α), entries.lookup name = some x →
        setEntry name x entries = entries := by
    intro entries hx
    induction entries with
    | nil => cases hx
    | cons entry entries ih =>
        rw [lookup_entry] at hx
        by_cases hname : entry.1 = name
        · rw [if_pos hname.symm] at hx
          rw [setEntry, if_pos hname, ← hname, ← Option.some.inj hx]
        · rw [if_neg (Ne.symm hname)] at hx
          rw [setEntry, if_neg hname, ih hx]
  exact PlainObject.ext (hentries o.entries h)

/-- An assignment to `__proto__` that makes no property. -/
def lost
    (o : PlainObject α) (name : String) : Prop :=
  name = "__proto__" ∧ o.get name = none

theorem assign_of_lost
    {o : PlainObject α} {name : String}
    (h : o.lost name) (x : α) :
    o.assign name x = o :=
  if_pos h

theorem assign_of_not_lost
    {o : PlainObject α} {name : String}
    (h : ¬ o.lost name) (x : α) :
    o.assign name x = o.set name x :=
  if_neg h

/-- Reading what an assignment would lose finds what all objects inherit. -/
theorem truthyAt_of_lost
    {o : PlainObject α} {name : String}
    (h : o.lost name) (truthy : α → Bool) :
    o.truthyAt truthy name = true := by
  obtain ⟨rfl, hnone⟩ := h
  simp [truthyAt, hnone, inheritedNames]

theorem get_assign_of_ne
    (o : PlainObject α) {name other : String}
    (h : other ≠ name) (x : α) :
    (o.assign name x).get other = o.get other := by
  by_cases hlost : o.lost name
  · rw [assign_of_lost hlost]
  · rw [assign_of_not_lost hlost, get_set, if_neg h]

theorem get_assign
    (o : PlainObject α) {name : String}
    (h : ¬ o.lost name) (x : α) :
    (o.assign name x).get name = some x := by
  rw [assign_of_not_lost h, get_set, if_pos rfl]

/-- An assignment that changes nothing. -/
theorem assign_eq_self_iff
    (o : PlainObject α) (name : String) (x : α) :
    o.assign name x = o ↔ o.lost name ∨ o.get name = some x := by
  by_cases hlost : o.lost name
  · simp [assign_of_lost hlost, hlost]
  · constructor
    · intro h
      exact Or.inr (h ▸ get_assign o hlost x)
    · rintro (h | h)
      · exact absurd h hlost
      · rw [assign_of_not_lost hlost, set_eq_self h]

/-! ## Loops over the properties of an object -/

/-- What `f` makes of a property is assigned, if it makes anything of it. -/
def assignOne
    (f : String → α → Option β) (o : PlainObject β) (entry : String × α) :
    PlainObject β :=
  match f entry.1 entry.2 with
  | none => o
  | some y => o.assign entry.1 y

def assignAll
    (f : String → α → Option β) (entries : List (String × α))
    (o : PlainObject β) : PlainObject β :=
  entries.foldl (assignOne f) o

variable {f : String → α → Option β} {entries : List (String × α)}

theorem assignOne_of_none
    {entry : String × α}
    (h : f entry.1 entry.2 = none) (o : PlainObject β) :
    assignOne f o entry = o := by
  rw [assignOne, h]

theorem assignOne_of_some
    {entry : String × α} {y : β}
    (h : f entry.1 entry.2 = some y) (o : PlainObject β) :
    assignOne f o entry = o.assign entry.1 y := by
  rw [assignOne, h]

theorem assignOne_eq_self_iff
    (o : PlainObject β) (entry : String × α) :
    assignOne f o entry = o ↔
      ∀ y, f entry.1 entry.2 = some y →
        o.lost entry.1 ∨ o.get entry.1 = some y := by
  cases h : f entry.1 entry.2 with
  | none => simp [assignOne_of_none h]
  | some y => simp [assignOne_of_some h, assign_eq_self_iff]

theorem get_assignOne_of_ne
    (o : PlainObject β) {entry : String × α} {name : String}
    (h : name ≠ entry.1) :
    (assignOne f o entry).get name = o.get name := by
  cases hf : f entry.1 entry.2 with
  | none => rw [assignOne_of_none hf]
  | some y =>
      rw [assignOne_of_some hf]
      exact get_assign_of_ne o h y

/-- The property depends on nothing but what it was. -/
theorem get_assignOne_congr
    {o o' : PlainObject β} {entry : String × α}
    (h : o.get entry.1 = o'.get entry.1) :
    (assignOne f o entry).get entry.1 =
      (assignOne f o' entry).get entry.1 := by
  cases hf : f entry.1 entry.2 with
  | none => rw [assignOne_of_none hf, assignOne_of_none hf, h]
  | some y =>
      rw [assignOne_of_some hf, assignOne_of_some hf]
      by_cases hlost : o.lost entry.1
      · have hlost' : o'.lost entry.1 := ⟨hlost.1, h ▸ hlost.2⟩
        rw [assign_of_lost hlost, assign_of_lost hlost', h]
      · have hlost' : ¬ o'.lost entry.1 := fun hl =>
          hlost ⟨hl.1, h ▸ hl.2⟩
        rw [get_assign o hlost, get_assign o' hlost']

theorem assignAll_congr
    {g : String → α → Option β}
    (h : ∀ entry ∈ entries, f entry.1 entry.2 = g entry.1 entry.2)
    (o : PlainObject β) :
    assignAll f entries o = assignAll g entries o := by
  induction entries generalizing o with
  | nil => rfl
  | cons entry entries ih =>
      have hhead : assignOne f o entry = assignOne g o entry := by
        rw [assignOne, assignOne, h entry List.mem_cons_self]
      have htail : ∀ e ∈ entries, f e.1 e.2 = g e.1 e.2 := fun e he =>
        h e (List.mem_cons_of_mem _ he)
      rw [assignAll, assignAll, List.foldl_cons, List.foldl_cons, hhead]
      exact ih htail (assignOne g o entry)

/-- A property that no entry has stays. -/
theorem get_assignAll_of_not_mem
    (o : PlainObject β) {name : String}
    (h : name ∉ entries.map Prod.fst) :
    (assignAll f entries o).get name = o.get name := by
  induction entries generalizing o with
  | nil => rfl
  | cons entry entries ih =>
      rw [List.map_cons, List.mem_cons, not_or] at h
      exact (ih (assignOne f o entry) h.2).trans (get_assignOne_of_ne o h.1)

/-- A property that an entry has is as if that were the only one. -/
theorem get_assignAll_of_mem
    (hnodup : (entries.map Prod.fst).Nodup)
    (o : PlainObject β) {entry : String × α}
    (h : entry ∈ entries) :
    (assignAll f entries o).get entry.1 =
      (assignOne f o entry).get entry.1 := by
  induction entries generalizing o with
  | nil => cases h
  | cons head entries ih =>
      rw [List.map_cons, List.nodup_cons] at hnodup
      rcases List.mem_cons.mp h with rfl | hrest
      · exact get_assignAll_of_not_mem _ hnodup.1
      · have hne : entry.1 ≠ head.1 := by
          intro heq
          exact hnodup.1 (heq ▸ List.mem_map_of_mem hrest)
        exact
          (ih hnodup.2 (assignOne f o head) hrest).trans
            (get_assignOne_congr (get_assignOne_of_ne o hne))

/-- A loop changes nothing if and only if none of its assignments does. -/
theorem assignAll_eq_self_iff
    (hnodup : (entries.map Prod.fst).Nodup)
    (o : PlainObject β) :
    assignAll f entries o = o ↔
      ∀ entry ∈ entries, assignOne f o entry = o := by
  constructor
  · intro h entry hentry
    have hget := get_assignAll_of_mem (f := f) hnodup o hentry
    rw [h] at hget
    rw [assignOne_eq_self_iff]
    intro y hy
    by_cases hlost : o.lost entry.1
    · exact Or.inl hlost
    · rw [assignOne_of_some hy] at hget
      exact Or.inr (hget.trans (get_assign o hlost y))
  · intro h
    induction entries with
    | nil => rfl
    | cons head entries ih =>
        rw [List.map_cons, List.nodup_cons] at hnodup
        rw [assignAll, List.foldl_cons, h head List.mem_cons_self]
        exact
          ih hnodup.2 fun entry hentry =>
            h entry (List.mem_cons_of_mem _ hentry)

/-- An entry is what a lookup finds. -/
theorem mem_entries_iff
    (o : PlainObject α) (name : String) (x : α) :
    (name, x) ∈ o.entries ↔ o.get name = some x := by
  obtain ⟨entries, hnodup⟩ := o
  change (name, x) ∈ entries ↔ entries.lookup name = some x
  induction entries with
  | nil => simp
  | cons entry entries ih =>
      rw [List.map_cons, List.nodup_cons] at hnodup
      rw [lookup_entry, List.mem_cons, ih hnodup.2]
      by_cases h : name = entry.1
      · have hnot : entries.lookup name ≠ some x := by
          intro hx
          have hmem := (ih hnodup.2).mpr hx
          exact hnodup.1 (h ▸ List.mem_map_of_mem hmem)
        rw [if_pos h]
        constructor
        · rintro (rfl | hx)
          · rfl
          · exact absurd hx hnot
        · intro hx
          exact Or.inl (Prod.ext h (Option.some.inj hx).symm)
      · rw [if_neg h]
        constructor
        · rintro (rfl | hx)
          · exact absurd rfl h
          · exact hx
        · exact Or.inr

/-- A part of the entries has an entry exactly if it has the name of it. -/
theorem mem_sublist_iff
    {o : PlainObject α} {entries : List (String × α)}
    (h : entries.Sublist o.entries) (name : String) (x : α) :
    (name, x) ∈ entries ↔
      name ∈ entries.map Prod.fst ∧ o.get name = some x := by
  constructor
  · intro hmem
    exact
      ⟨List.mem_map_of_mem hmem, (mem_entries_iff o name x).mp (h.subset hmem)⟩
  · rintro ⟨hname, hget⟩
    obtain ⟨⟨_, y⟩, hmem, rfl⟩ := List.mem_map.mp hname
    have hy := (mem_entries_iff o _ y).mp (h.subset hmem)
    rw [hget] at hy
    rw [Option.some.inj hy]
    exact hmem

section Loops

variable {m : PlainObject α} {o : PlainObject β} {name : String}

/-- A loop over the properties of an object, seen at one of them. -/
theorem get_assignAll_of_get
    {x : α}
    (h : m.get name = some x) :
    (assignAll f m.entries o).get name =
      (assignOne f o (name, x)).get name :=
  get_assignAll_of_mem m.nodup o ((mem_entries_iff m name x).mpr h)

theorem get_assignAll_of_some
    {x : α} {y : β}
    (h : m.get name = some x) (hf : f name x = some y)
    (hlost : ¬ o.lost name) :
    (assignAll f m.entries o).get name = some y := by
  rw [get_assignAll_of_get h, assignOne_of_some hf]
  exact get_assign o hlost y

theorem get_assignAll_of_none
    {x : α}
    (h : m.get name = some x) (hf : f name x = none) :
    (assignAll f m.entries o).get name = o.get name := by
  rw [get_assignAll_of_get h, assignOne_of_none hf]

theorem get_assignAll_of_lost
    {x : α} {y : β}
    (h : m.get name = some x) (hf : f name x = some y)
    (hlost : o.lost name) :
    (assignAll f m.entries o).get name = none := by
  rw [get_assignAll_of_get h, assignOne_of_some hf, assign_of_lost hlost]
  exact hlost.2

/-- It does not change what is no property of the object. -/
theorem get_assignAll_of_get_none
    (h : m.get name = none) :
    (assignAll f m.entries o).get name = o.get name := by
  refine get_assignAll_of_not_mem o ?_
  intro hmem
  obtain ⟨entry, hentry, rfl⟩ := List.mem_map.mp hmem
  have hget := (mem_entries_iff m entry.1 entry.2).mp hentry
  rw [h] at hget
  cases hget

end Loops

/-- The keys are the names of the own properties. -/
theorem mem_keys_iff
    (o : PlainObject α) (name : String) :
    name ∈ o.keys ↔ o.get name ≠ none := by
  rw [Option.ne_none_iff_exists']
  constructor
  · intro h
    obtain ⟨entry, hentry, rfl⟩ := List.mem_map.mp h
    exact ⟨entry.2, (mem_entries_iff o _ _).mp hentry⟩
  · rintro ⟨x, hx⟩
    exact List.mem_map_of_mem ((mem_entries_iff o name x).mpr hx)

end PlainObject

end Machine
end SpannerClient
