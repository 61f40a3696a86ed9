import Mathlib.Logic.Function.Basic
import SpannerClient.Request.Parameters

/-!
# Maps that requests share

`encodeParams` adds the types it infers to the map `types` that it is given, and
the types it sends to the map `paramTypes`.  Both may be the caller's, since a
query object is copied only at its surface, and the caller may use them for other
requests.

The caller's maps are numbered (`Maps`), a query object has the numbers of its
own (`Query`), and `encodeIn` is what an encoding makes of the maps, be it one
that throws: what has been written up to there stays.

`Quiet` says of a request and its maps alone that there is nothing to be added:
`typeMap_kept_iff` and `paramTypes_kept_iff` for one map each, put together in
`encodeIn_eq_self_iff`.  The main result is `isolated_iff_quiet`, for two query
objects that may share either map, both or none.
-/

namespace SpannerClient
namespace Request

open Codec
open Machine
open PlainObject

variable {L : Leaves}

/-- The maps of the caller. -/
@[ext]
structure Maps where
  types : Nat → TypeMap
  paramTypes : Nat → PlainObject SpannerType

/-- A query object of the caller, with the numbers of its maps. -/
structure Query (L : Leaves) where
  params : Option (Params L) := none
  types : Option Nat := none
  paramTypes : Option Nat := none

/-- What `encodeParams` finds in the query object. -/
def Query.request
    (query : Query L) (maps : Maps) : ExecuteSqlRequest L where
  params := query.params
  types := query.types.map maps.types
  paramTypes := query.paramTypes.map maps.paramTypes

/-- A map that is replaced by what has been made of it. -/
def replaceMap
    {α : Type} (maps : Nat → α) (x : α) : Option Nat → Nat → α
  | none => maps
  | some n => Function.update maps n x

/-- The maps after the query has been encoded, be it by `runStream`, by
`batchUpdate` or by `createQueryPartitions`. -/
def encodeIn
    (I : Inference L) (maps : Maps) (query : Query L) : Maps where
  types :=
    replaceMap maps.types (encodeParams I (query.request maps)).typeMap query.types
  paramTypes :=
    replaceMap maps.paramTypes (encodeParams I (query.request maps)).paramTypes
      query.paramTypes

/-- The two queries leave the maps as they were, and the second is encoded as if
the first had not been. -/
structure Isolated
    (I : Inference L) (maps : Maps) (first second : Query L) : Prop where
  firstKeeps : encodeIn I maps first = maps
  secondKeeps : encodeIn I maps second = maps
  same :
    sanitizeRequest I (second.request (encodeIn I maps first)) =
      sanitizeRequest I (second.request maps)

/-! ## What is added to the maps -/

/-- The parameters that the request has in a map that is taken for one. -/
def ExecuteSqlRequest.plainParams
    (request : ExecuteSqlRequest L) : PlainObject (Value L) :=
  match request.params with
  | some (.plain params) =>
      if (givenFields params).isNone then params else .empty
  | _ => .empty

/-- The types that the request supplies. -/
def ExecuteSqlRequest.typeMap
    (request : ExecuteSqlRequest L) : TypeMap :=
  request.types.getD .empty

/-- Every parameter can be encoded, so that the loop over the types begins. -/
def ExecuteSqlRequest.EncodesAll
    (request : ExecuteSqlRequest L) : Prop :=
  ∀ param ∈ request.plainParams.entries, (Codec.encode param.2).isSome

/-- The supplied types before the first that throws, which has no parameter to
get another type from. -/
def ExecuteSqlRequest.typesReached
    (I : Inference L) (request : ExecuteSqlRequest L) :
    List (String × TypeEntry) :=
  request.typeMap.entries.takeWhile fun entry =>
    !(noChild I entry.2 && (request.plainParams.get entry.1).isNone)

/-- The loop over the types comes to the name; the types that are inferred are
behind those that are supplied. -/
def ExecuteSqlRequest.Reaches
    (I : Inference L) (request : ExecuteSqlRequest L) (param : String) :
    Prop :=
  param ∈ (request.typesReached I).map Prod.fst ∨
    request.typeMap.get param = none ∧
      request.typesReached I = request.typeMap.entries

/-- The type is sent under the name, if the loop comes to it: the one that counts
for a parameter, or one that is supplied without a parameter. -/
inductive Sends
    (I : Inference L) (request : ExecuteSqlRequest L) :
    String → SpannerType → Prop where
  | param {param : String} {value : Value L} {type : SpannerType}
      (hvalue : request.plainParams.get param = some value)
      (hown : request.typeMap.get param ≠ none ∨ param ∉ inheritedNames)
      (hsent :
        sentType I (.type (friendlyTypeOf I request.typeMap param value)) =
          some type) :
      Sends I request param type
  | supplied {param : String} {entry : TypeEntry} {type : SpannerType}
      (hvalue : request.plainParams.get param = none)
      (htype : request.typeMap.get param = some entry)
      (hsent : sentType I entry = some type) :
      Sends I request param type

/-- Whatever is to be added to a map of the caller is there already: a type for
each parameter up to the first that cannot be encoded, and, if all can be, each
type that is sent up to the first that throws. -/
structure Quiet
    (I : Inference L) (request : ExecuteSqlRequest L) : Prop where
  types :
    ∀ types, request.types = some types →
      ∀ param ∈ reached request.plainParams.entries,
        types.truthyAt TypeEntry.truthy param.1 = true
  paramTypes :
    ∀ paramTypes, request.paramTypes = some paramTypes →
      request.EncodesAll →
        ∀ param type, request.Reaches I param → Sends I request param type →
          paramTypes.lost param ∨ paramTypes.get param = some type

theorem reached_nodup
    (params : PlainObject (Value L)) :
    ((reached params.entries).map Prod.fst).Nodup :=
  params.nodup.sublist ((reached_sublist params.entries).map Prod.fst)

/-- The loop over the types does not change them. -/
theorem encodeParams_typeMap_eq
    (I : Inference L) (request : ExecuteSqlRequest L) :
    (encodeParams I request).typeMap =
      (encodeGiven I request.typeMap request.params).1 := by
  simp only [encodeParams, ExecuteSqlRequest.typeMap]
  rcases encodeGiven I (request.types.getD .empty) request.params with
    ⟨typeMap, _ | params⟩
  · rfl
  · rfl

/-- The types after inference. -/
theorem encodeParams_typeMap
    (I : Inference L) (request : ExecuteSqlRequest L) :
    (encodeParams I request).typeMap =
      assignAll (inferred I request.typeMap)
        (reached request.plainParams.entries) request.typeMap := by
  rw [encodeParams_typeMap_eq]
  obtain ⟨params, types, paramTypes⟩ := request
  cases params with
  | none => rfl
  | some params =>
      cases params with
      | struct fields => rfl
      | plain params =>
          simp only [encodeGiven, ExecuteSqlRequest.plainParams]
          cases givenFields params with
          | some value => rfl
          | none => exact encodeEach_types I params.nodup _ _

/-- The loop over the parameters comes to its end if it can encode them all. -/
theorem encodeGiven_isSome_iff
    (I : Inference L) (request : ExecuteSqlRequest L) :
    (encodeGiven I request.typeMap request.params).2.isSome ↔
      request.EncodesAll := by
  obtain ⟨params, types, paramTypes⟩ := request
  have hempty :
      ∀ param ∈ (empty : PlainObject (Value L)).entries,
        (Codec.encode param.2).isSome :=
    fun param hparam => absurd hparam List.not_mem_nil
  cases params with
  | none => exact iff_of_true rfl hempty
  | some params =>
      cases params with
      | struct fields => exact iff_of_true rfl hempty
      | plain params =>
          simp only [encodeGiven, ExecuteSqlRequest.EncodesAll,
            ExecuteSqlRequest.plainParams]
          cases givenFields params with
          | some value => exact iff_of_true rfl hempty
          | none =>
              simp only [Option.isNone_none, if_true, Option.isSome_map]
              constructor
              · exact encodable_of_fields
              · intro h
                rw [encodeEach_fields I h]
                rfl

/-- The types that have been sent: those up to the first that throws, if all
parameters can be encoded. -/
theorem encodeParams_paramTypes
    (I : Inference L) (request : ExecuteSqlRequest L)
    (h : request.EncodesAll) :
    (encodeParams I request).paramTypes =
      assignAll (fun _ type => sentType I type)
        ((encodeParams I request).typeMap.entries.takeWhile
          fun entry => !noChild I entry.2)
        (request.paramTypes.getD .empty) := by
  have hsome := (encodeGiven_isSome_iff I request).mpr h
  rw [ExecuteSqlRequest.typeMap] at hsome
  simp only [encodeParams]
  rcases hgiven : encodeGiven I (request.types.getD .empty) request.params with
    ⟨typeMap, params⟩
  rw [hgiven] at hsome
  cases params with
  | none => cases hsome
  | some params => simp only [sendEach_eq]

theorem encodeParams_paramTypes_of_throw
    (I : Inference L) (request : ExecuteSqlRequest L)
    (h : ¬ request.EncodesAll) :
    (encodeParams I request).paramTypes =
      request.paramTypes.getD .empty := by
  have hnone := (encodeGiven_isSome_iff I request).not.mpr h
  rw [ExecuteSqlRequest.typeMap] at hnone
  simp only [encodeParams]
  rcases hgiven : encodeGiven I (request.types.getD .empty) request.params with
    ⟨typeMap, params⟩
  rw [hgiven] at hnone
  cases params with
  | none => rfl
  | some params => simp at hnone

/-! ## What is kept -/

section Kept

variable (I : Inference L) (request : ExecuteSqlRequest L)

/-- Inference adds a type exactly where none is found. -/
theorem assignOne_inferred_iff
    (types : TypeMap) (param : String × Value L) :
    assignOne (inferred I types) types param = types ↔
      types.truthyAt TypeEntry.truthy param.1 = true := by
  rw [assignOne_eq_self_iff]
  by_cases htruthy : types.truthyAt TypeEntry.truthy param.1 = true
  · simp [inferred_of_truthyAt htruthy, htruthy]
  · refine iff_of_false ?_ htruthy
    intro h
    rcases h _ (inferred_of_not_truthyAt htruthy) with hlost | htype
    · exact htruthy (truthyAt_of_lost hlost TypeEntry.truthy)
    · simp [truthyAt, htype, TypeEntry.truthy,
        TypeEntry.friendlyType] at htruthy

theorem typeMap_kept_iff :
    (encodeParams I request).typeMap = request.typeMap ↔
      ∀ param ∈ reached request.plainParams.entries,
        request.typeMap.truthyAt TypeEntry.truthy param.1 = true := by
  rw [encodeParams_typeMap, assignAll_eq_self_iff (reached_nodup _)]
  simp only [assignOne_inferred_iff]

/-- The types that are sent are those of the map after inference. -/
theorem sends_iff
    (hencodes : request.EncodesAll)
    (param : String) (type : SpannerType) :
    Sends I request param type ↔
      ∃ entry,
        (encodeParams I request).typeMap.get param = some entry ∧
          sentType I entry = some type := by
  rw [encodeParams_typeMap, reached_of_encodable hencodes]
  constructor
  · intro h
    cases h with
    | param hvalue hown hsent =>
        exact ⟨_, get_inferred hvalue hown, hsent⟩
    | supplied hvalue htype hsent =>
        exact
          ⟨_, (get_assignAll_of_get_none hvalue).trans htype, hsent⟩
  · rintro ⟨entry, htype, hsent⟩
    cases hvalue : request.plainParams.get param with
    | none =>
        rw [get_assignAll_of_get_none hvalue] at htype
        exact .supplied hvalue htype hsent
    | some value =>
        by_cases hown :
            request.typeMap.get param ≠ none ∨ param ∉ inheritedNames
        · rw [get_inferred hvalue hown] at htype
          obtain rfl := Option.some.inj htype
          exact .param hvalue hown hsent
        · rw [not_or, not_not, not_not] at hown
          rw [get_inferred_inherited hvalue hown.1 hown.2] at htype
          cases htype

/-- What is taken of two lists from the front by conditions that agree on it. -/
theorem takeWhile_eq_of_forall
    {α : Type} {p q : α → Bool} {l : List α}
    (h : ∀ x ∈ l, p x = q x) :
    l.takeWhile p = l.takeWhile q := by
  induction l with
  | nil => rfl
  | cons x l ih =>
      rw [List.takeWhile_cons, List.takeWhile_cons,
        h x List.mem_cons_self,
        ih fun y hy => h y (List.mem_cons_of_mem _ hy)]

/-- No type of a map that is kept belongs to a parameter and throws. -/
theorem typesReached_of_kept
    (hencodes : request.EncodesAll)
    (hkept : (encodeParams I request).typeMap = request.typeMap) :
    request.typesReached I =
      request.typeMap.entries.takeWhile fun entry =>
        !noChild I entry.2 := by
  rw [typeMap_kept_iff, reached_of_encodable hencodes] at hkept
  refine takeWhile_eq_of_forall ?_
  rintro ⟨name, entry⟩ hentry
  have hget := (mem_entries_iff _ _ _).mp hentry
  cases hvalue : request.plainParams.get name with
  | none => simp
  | some value =>
      have htruthy :=
        hkept (name, value) ((mem_entries_iff _ _ _).mpr hvalue)
      cases entry with
      | type friendlyType => simp [noChild_of_type]
      | _ =>
          simp [truthyAt, hget, TypeEntry.truthy,
            TypeEntry.friendlyType] at htruthy

/-- The loop over the types of a map that is kept, or that is the request's own,
comes to what it reaches. -/
theorem mem_takeWhile_iff
    (hencodes : request.EncodesAll)
    (hkept :
      request.types = none ∨
        (encodeParams I request).typeMap = request.typeMap)
    (param : String) (entry : TypeEntry) :
    (param, entry) ∈ (encodeParams I request).typeMap.entries.takeWhile
        (fun entry => !noChild I entry.2) ↔
      request.Reaches I param ∧
        (encodeParams I request).typeMap.get param = some entry := by
  rcases hkept with hnone | hkept
  · -- every type has been inferred
    have hmap : request.typeMap = .empty := by
      rw [ExecuteSqlRequest.typeMap, hnone, Option.getD_none]
    have hchildren : HasChildren I request.plainParams request.typeMap := by
      rw [hasChildren_iff, hmap]
      intro name type htype
      cases htype
    have hreaches : request.Reaches I param := by
      rw [ExecuteSqlRequest.Reaches, ExecuteSqlRequest.typesReached, hmap]
      exact Or.inr ⟨rfl, rfl⟩
    have hall :
        ∀ entry ∈ (encodeParams I request).typeMap.entries,
          (!noChild I entry.2) = true := by
      intro entry hentry
      rw [encodeParams_typeMap, reached_of_encodable hencodes] at hentry
      rw [hchildren entry hentry, Bool.not_false]
    rw [List.takeWhile_eq_self_iff.mpr hall, mem_entries_iff]
    exact (and_iff_right hreaches).symm
  · have hsub :
        (request.typesReached I).Sublist request.typeMap.entries :=
      List.takeWhile_sublist _
    rw [hkept, ← typesReached_of_kept I request hencodes hkept,
      mem_sublist_iff hsub, ExecuteSqlRequest.Reaches]
    refine and_congr_left fun hget => ?_
    simp [hget]

/-- The types that are sent leave a map as it is exactly if it has them. -/
theorem paramTypes_kept_iff
    (hkept :
      request.types = none ∨
        (encodeParams I request).typeMap = request.typeMap) :
    (encodeParams I request).paramTypes =
        request.paramTypes.getD .empty ↔
      (request.EncodesAll →
        ∀ param type, request.Reaches I param →
          Sends I request param type →
            (request.paramTypes.getD .empty).lost param ∨
              (request.paramTypes.getD .empty).get param = some type) := by
  by_cases hencodes : request.EncodesAll
  · have hnodup :=
      (encodeParams I request).typeMap.nodup.sublist
        ((List.takeWhile_sublist fun entry => !noChild I entry.2).map
          Prod.fst)
    rw [encodeParams_paramTypes I request hencodes,
      assignAll_eq_self_iff hnodup]
    simp only [assignOne_eq_self_iff, sends_iff I request hencodes,
      hencodes, true_imp_iff]
    constructor
    · rintro h param type hreaches ⟨entry, hget, htype⟩
      exact
        h (param, entry)
          ((mem_takeWhile_iff I request hencodes hkept param entry).mpr
            ⟨hreaches, hget⟩)
          type htype
    · rintro h ⟨param, entry⟩ hentry type htype
      obtain ⟨hreaches, hget⟩ :=
        (mem_takeWhile_iff I request hencodes hkept param entry).mp hentry
      exact h param type hreaches ⟨entry, hget, htype⟩
  · simp only [hencodes, false_imp_iff, iff_true]
    exact encodeParams_paramTypes_of_throw I request hencodes

/-- The request is quiet if its maps are what the encoding makes of them. -/
theorem quiet_iff :
    Quiet I request ↔
      (∀ types, request.types = some types →
        (encodeParams I request).typeMap = types) ∧
      ∀ paramTypes, request.paramTypes = some paramTypes →
        (encodeParams I request).paramTypes = paramTypes := by
  have htypes :
      ∀ types, request.types = some types →
        ((encodeParams I request).typeMap = types ↔
          ∀ param ∈ reached request.plainParams.entries,
            types.truthyAt TypeEntry.truthy param.1 = true) := by
    intro types hsome
    have hsame : request.typeMap = types := by
      rw [ExecuteSqlRequest.typeMap, hsome, Option.getD_some]
    rw [← hsame]
    exact typeMap_kept_iff I request
  have hkept :
      (∀ types, request.types = some types →
        (encodeParams I request).typeMap = types) →
      (request.types = none ∨
        (encodeParams I request).typeMap = request.typeMap) := by
    intro h
    cases hsome : request.types with
    | none => exact Or.inl rfl
    | some types =>
        refine Or.inr ?_
        rw [h types hsome, ExecuteSqlRequest.typeMap, hsome,
          Option.getD_some]
  have hparamTypes :
      (request.types = none ∨
        (encodeParams I request).typeMap = request.typeMap) →
      ∀ paramTypes, request.paramTypes = some paramTypes →
        ((encodeParams I request).paramTypes = paramTypes ↔
          (request.EncodesAll →
            ∀ param type, request.Reaches I param →
              Sends I request param type →
                paramTypes.lost param ∨
                  paramTypes.get param = some type)) := by
    intro hkept paramTypes hsome
    have hiff := paramTypes_kept_iff I request hkept
    rw [hsome, Option.getD_some] at hiff
    exact hiff
  constructor
  · intro h
    have htypesKept :
        ∀ types, request.types = some types →
          (encodeParams I request).typeMap = types :=
      fun types hsome => (htypes types hsome).mpr (h.types types hsome)
    refine ⟨htypesKept, ?_⟩
    intro paramTypes hsome
    exact
      (hparamTypes (hkept htypesKept) paramTypes hsome).mpr
        (h.paramTypes paramTypes hsome)
  · rintro ⟨htypesKept, hparamTypesKept⟩
    refine ⟨?_, ?_⟩
    · intro types hsome
      exact (htypes types hsome).mp (htypesKept types hsome)
    · intro paramTypes hsome
      exact
        (hparamTypes (hkept htypesKept) paramTypes hsome).mp
          (hparamTypesKept paramTypes hsome)

end Kept

theorem replaceMap_eq_self_iff
    {α : Type} (maps : Nat → α) (x : α) (n : Option Nat) :
    replaceMap maps x n = maps ↔ ∀ y, n.map maps = some y → x = y := by
  cases n with
  | none => simp [replaceMap]
  | some n => simp [replaceMap, Function.update_eq_self_iff]

/-- A query leaves the maps of the caller as they are exactly if it is quiet. -/
theorem encodeIn_eq_self_iff
    (I : Inference L) (maps : Maps) (query : Query L) :
    encodeIn I maps query = maps ↔ Quiet I (query.request maps) := by
  rw [Maps.ext_iff]
  have htypes :
      (encodeIn I maps query).types = maps.types ↔
        ∀ types, (query.request maps).types = some types →
          (encodeParams I (query.request maps)).typeMap = types :=
    replaceMap_eq_self_iff _ _ _
  have hparamTypes :
      (encodeIn I maps query).paramTypes = maps.paramTypes ↔
        ∀ paramTypes, (query.request maps).paramTypes = some paramTypes →
          (encodeParams I (query.request maps)).paramTypes = paramTypes :=
    replaceMap_eq_self_iff _ _ _
  rw [htypes, hparamTypes]
  exact (quiet_iff I (query.request maps)).symm

/--
Two queries leave the maps of the caller alone, and the second does not depend on
the first, exactly if both of them are quiet.
-/
theorem isolated_iff_quiet
    (I : Inference L) (maps : Maps) (first second : Query L) :
    Isolated I maps first second ↔
      Quiet I (first.request maps) ∧ Quiet I (second.request maps) := by
  rw [← encodeIn_eq_self_iff, ← encodeIn_eq_self_iff]
  constructor
  · intro h
    exact ⟨h.firstKeeps, h.secondKeeps⟩
  · rintro ⟨hfirst, hsecond⟩
    exact ⟨hfirst, hsecond, by rw [hfirst]⟩

/-- An empty map of types, and one of types that have been sent. -/
def sharedMaps : Maps where
  types := fun _ => .empty
  paramTypes := fun _ => .empty

/-- A query with the parameter `p` and the map of types 0. -/
def queryOf
    (value : Value textLeaves) : Query textLeaves where
  params := some (.plain { entries := [("p", value)], nodup := by simp })
  types := some 0

/-- The type that is sent for the parameter `p`. -/
def sentWithP
    (request : ExecuteSqlRequest textLeaves) : Option SpannerType :=
  (sanitizeRequest textInference request).bind fun prepared =>
    prepared.paramTypes.bind fun paramTypes => paramTypes.get "p"

/-- The type of the first value is sent with the second. -/
theorem sharedTypes_not_isolated :
    ¬ ∀ (maps : Maps) (first second : Query textLeaves),
      Isolated textInference maps first second := by
  intro h
  have hsame :=
    (h sharedMaps (queryOf (.boolean true)) (queryOf (.string "x"))).same
  have hafter :
      sentWithP
          ((queryOf (.string "x")).request
            (encodeIn textInference sharedMaps (queryOf (.boolean true)))) =
        some (.ofCode .BOOL) := by
    rfl
  have halone :
      sentWithP ((queryOf (.string "x")).request sharedMaps) =
        some (.ofCode .STRING) := by
    rfl
  rw [sentWithP, hsame] at hafter
  rw [sentWithP, hafter] at halone
  cases halone

end Request
end SpannerClient
