import SpannerClient.Machine.Containers
import SpannerClient.ObjectCache.Basic

/-!
# Transparency of the caches

A cached object is the right one for a call if it was constructed from arguments
equal to those of the call.  The key has the last segment of the name and the
JSON texts of the options that are not empty, and they can be read off it again
(`databaseKey_eq_iff`); it has nothing of the rest of the name and of the role,
and not which of two texts is whose.  So the caches are transparent exactly when
calls that agree in the last segment and in the texts have equal arguments.

`Cached` is the invariant of the two maps: every call has been given the object of
its key, and every object was constructed by a call with its key.  The main result is
`transparent_iff_compatible`, for every run of calls.
-/

namespace SpannerClient
namespace ObjectCache

open Codec
open Machine

variable {ν : Type} {N : Numbers ν}

/-! ## Equal arguments -/

/-- The pool has the same class or the same options, in whatever order; no
options are empty options. -/
structure PoolOptions.Same
    (a b : PoolOptions ν) : Prop where
  entries : a.entries.Perm b.entries
  poolClass : ∀ n, a = .poolClass n ↔ b = .poolClass n

/-- The arguments of two calls of `database` of the instance are equal. -/
structure SameArguments
    (instanceName : String) (a b : DatabaseArguments ν) : Prop where
  fullName :
    formatDatabaseName instanceName a.name =
      formatDatabaseName instanceName b.name
  poolOptions : a.poolOptions.Same b.poolOptions
  queryOptions : (a.queryOptions.getD []).Perm (b.queryOptions.getD [])
  databaseRole : a.databaseRole = b.databaseRole

theorem SameArguments.symm
    {instanceName : String} {a b : DatabaseArguments ν}
    (h : SameArguments instanceName a b) :
    SameArguments instanceName b a where
  fullName := h.fullName.symm
  poolOptions :=
    ⟨h.poolOptions.entries.symm, fun n => (h.poolOptions.poolClass n).symm⟩
  queryOptions := h.queryOptions.symm
  databaseRole := h.databaseRole.symm

theorem SameArguments.trans
    {instanceName : String} {a b c : DatabaseArguments ν}
    (h : SameArguments instanceName a b)
    (h' : SameArguments instanceName b c) :
    SameArguments instanceName a c where
  fullName := h.fullName.trans h'.fullName
  poolOptions :=
    ⟨h.poolOptions.entries.trans h'.poolOptions.entries,
      fun n => (h.poolOptions.poolClass n).trans (h'.poolOptions.poolClass n)⟩
  queryOptions := h.queryOptions.trans h'.queryOptions
  databaseRole := h.databaseRole.trans h'.databaseRole

/-! ## The keys -/

/-- The texts of the options that are not empty. -/
def optionTexts
    (N : Numbers ν) (args : DatabaseArguments ν) : List (List Char) :=
  ([args.poolOptions.entries, args.queryOptions.getD []].filter
    fun entries => entries.length > 0).map (optionsText N)

theorem isArrayText_of_mem_optionTexts
    {args : DatabaseArguments ν} {text : List Char}
    (h : text ∈ optionTexts N args) :
    IsArrayText N.toNumberPrinter text := by
  obtain ⟨entries, -, rfl⟩ := List.mem_map.mp h
  exact ⟨_, rfl⟩

theorem optionsKey_eq
    (args : DatabaseArguments ν) :
    optionsKey N args =
      (optionTexts N args).flatMap fun text => '/' :: text := by
  rw [optionsKey, optionTexts]
  by_cases hpool : args.poolOptions.entries.length > 0 <;>
    by_cases hquery : (args.queryOptions.getD []).length > 0 <;>
    simp [hpool, hquery]

theorem not_mem_lastSegment
    (name : String) :
    '/' ∉ lastSegment name := by
  have hne := List.splitOn_ne_nil '/' name.toList
  have hmem : lastSegment name ∈ name.toList.splitOn '/' := by
    rw [lastSegment, List.getLastD_eq_getLast?,
      List.getLast?_eq_some_getLast hne]
    exact List.getLast_mem hne
  exact not_mem_of_mem_splitOn hmem

/-- The key tells the last segment and the texts, and nothing else. -/
theorem databaseKey_eq_iff
    {a b : DatabaseArguments ν} :
    databaseKey N a = databaseKey N b ↔
      lastSegment a.name = lastSegment b.name ∧
        optionTexts N a = optionTexts N b := by
  have hsegment :
      ∀ args : DatabaseArguments ν,
        (lastSegment args.name ++ optionsKey N args).takeWhile
            (fun c => c != '/') =
          lastSegment args.name := by
    intro args
    have hall : ∀ c ∈ lastSegment args.name, (c != '/') = true := by
      intro c hc
      simp only [bne_iff_ne]
      rintro rfl
      exact not_mem_lastSegment args.name hc
    rw [List.takeWhile_append_of_pos hall, optionsKey_eq]
    cases optionTexts N args <;> simp
  unfold databaseKey
  rw [String.ofList_inj]
  constructor
  · intro heq
    have hlast : lastSegment a.name = lastSegment b.name := by
      rw [← hsegment a, heq, hsegment b]
    refine ⟨hlast, ?_⟩
    rw [hlast, List.append_cancel_left_eq, optionsKey_eq, optionsKey_eq] at heq
    exact
      flatMap_arrayTexts_injective
        (fun _ htext => isArrayText_of_mem_optionTexts htext)
        (fun _ htext => isArrayText_of_mem_optionTexts htext) heq
  · rintro ⟨hlast, htexts⟩
    rw [hlast, optionsKey_eq, optionsKey_eq, htexts]

theorem instanceKey_eq_iff
    {a b : String} :
    instanceKey a = instanceKey b ↔ lastSegment a = lastSegment b :=
  String.ofList_inj

/-! ## The caches -/

/-- Every call has been given an object constructed from arguments equal to its
own. -/
structure Transparent
    (s : Spanner ν) : Prop where
  instance_ :
    ∀ name k, .instance_ name k ∈ s.calls →
      ∃ inst, s.instances[k]? = some inst ∧
        inst.formattedName_ = formatInstanceName s.projectId name
  database :
    ∀ i args k, .database i args k ∈ s.calls →
      ∃ parent db, s.instances[i]? = some parent ∧
        s.databases[k]? = some db ∧ db.parent = i ∧
        SameArguments parent.formattedName_ db.args args

/-- Calls that agree in the last segment of the name and in the texts of the
options have equal arguments. -/
structure Compatible
    (N : Numbers ν) (s : Spanner ν) : Prop where
  instance_ :
    ∀ name k name' k',
      .instance_ name k ∈ s.calls → .instance_ name' k' ∈ s.calls →
        lastSegment name = lastSegment name' →
          formatInstanceName s.projectId name =
            formatInstanceName s.projectId name'
  database :
    ∀ i parent a k a' k', s.instances[i]? = some parent →
      .database i a k ∈ s.calls → .database i a' k' ∈ s.calls →
        lastSegment a.name = lastSegment a'.name →
          optionTexts N a = optionTexts N a' →
            SameArguments parent.formattedName_ a a'

/-- Every call has been given the object of its key, and every object has been
constructed by a call with its key. -/
structure Cached
    (N : Numbers ν) (s : Spanner ν) : Prop where
  instance_ :
    ∀ name k, .instance_ name k ∈ s.calls →
      s.instances_.lookup (instanceKey name) = some k
  instances :
    ∀ key k, s.instances_.lookup key = some k →
      ∃ inst name, s.instances[k]? = some inst ∧
        .instance_ name k ∈ s.calls ∧ instanceKey name = key ∧
        inst.formattedName_ = formatInstanceName s.projectId name
  database :
    ∀ i args k, .database i args k ∈ s.calls →
      ∃ parent, s.instances[i]? = some parent ∧
        parent.databases_.lookup (databaseKey N args) = some k
  databases :
    ∀ (i : Nat) (parent : Instance) key k,
      s.instances[i]? = some parent →
        parent.databases_.lookup key = some k →
          ∃ db, s.databases[k]? = some db ∧ db.parent = i ∧
            databaseKey N db.args = key ∧ .database i db.args k ∈ s.calls

variable {s t : Spanner ν}

theorem Cached.addCall
    (h : Cached N s)
    {call : Call ν}
    (hinstance :
      ∀ name k, call = .instance_ name k →
        s.instances_.lookup (instanceKey name) = some k)
    (hdatabase :
      ∀ i args k, call = .database i args k →
        ∃ parent, s.instances[i]? = some parent ∧
          parent.databases_.lookup (databaseKey N args) = some k) :
    Cached N (s.addCall call) where
  instance_ := by
    intro name k hcall
    rcases List.mem_append.mp hcall with hold | hnew
    · exact h.instance_ name k hold
    · exact hinstance name k (List.mem_singleton.mp hnew).symm
  instances := by
    intro key k hkey
    obtain ⟨inst, name, hk, hcall, hrest⟩ := h.instances key k hkey
    exact ⟨inst, name, hk, List.mem_append_left _ hcall, hrest⟩
  database := by
    intro i args k hcall
    rcases List.mem_append.mp hcall with hold | hnew
    · exact h.database i args k hold
    · exact hdatabase i args k (List.mem_singleton.mp hnew).symm
  databases := by
    intro i parent key k hi hkey
    obtain ⟨db, hk, hparent, hdb, hcall⟩ := h.databases i parent key k hi hkey
    exact ⟨db, hk, hparent, hdb, List.mem_append_left _ hcall⟩

/-- A call of `instance` finds an object or constructs one. -/
theorem Cached.callInstance
    (h : Cached N s)
    (name : String) :
    Cached N (s.instance_ name) := by
  rw [Spanner.instance_]
  split
  · rename_i k hkey
    refine h.addCall ?_ (fun _ _ _ heq => by cases heq)
    intro name' k' heq
    obtain ⟨rfl, rfl⟩ := Call.instance_.inj heq
    exact hkey
  · rename_i hkey
    refine ⟨?_, ?_, ?_, ?_⟩
    · intro name' k hcall
      rcases List.mem_append.mp hcall with hold | hnew
      · exact lookup_insert_of_some hkey (h.instance_ name' k hold) _
      · obtain ⟨rfl, rfl⟩ := Call.instance_.inj (List.mem_singleton.mp hnew)
        exact AList.lookup_insert _
    · intro key k hlookup
      rcases lookup_insert_some hlookup with ⟨rfl, rfl⟩ | ⟨-, hlookup⟩
      · exact
          ⟨_, name, List.getElem?_concat_length,
            List.mem_append_right _ List.mem_cons_self, rfl, rfl⟩
      · obtain ⟨inst, name', hk, hcall, hrest⟩ := h.instances key k hlookup
        exact
          ⟨inst, name', getElem?_snoc_of_some hk _,
            List.mem_append_left _ hcall, hrest⟩
    · intro i args k hcall
      rcases List.mem_append.mp hcall with hold | hnew
      · obtain ⟨parent, hi, hlookup⟩ := h.database i args k hold
        exact ⟨parent, getElem?_snoc_of_some hi _, hlookup⟩
      · cases List.mem_singleton.mp hnew
    · intro i parent key k hi hlookup
      rcases getElem?_snoc_some hi with ⟨-, rfl⟩ | ⟨-, hi⟩
      · rw [AList.lookup_empty] at hlookup
        cases hlookup
      · obtain ⟨db, hk, hparent, hdb, hcall⟩ :=
          h.databases i parent key k hi hlookup
        exact ⟨db, hk, hparent, hdb, List.mem_append_left _ hcall⟩

/-- A call of `database` finds an object or constructs one. -/
theorem Cached.callDatabase
    (h : Cached N s)
    {i : Nat} {parent : Instance}
    (hi : s.instances[i]? = some parent)
    (args : DatabaseArguments ν) :
    Cached N (s.database N i parent args) := by
  have hlt := (List.getElem?_eq_some_iff.mp hi).1
  rw [Spanner.database]
  split
  · rename_i k hkey
    refine h.addCall (fun _ _ heq => by cases heq) ?_
    intro i' args' k' heq
    obtain ⟨rfl, rfl, rfl⟩ := Call.database.inj heq
    exact ⟨parent, hi, hkey⟩
  · rename_i hkey
    refine ⟨?_, ?_, ?_, ?_⟩
    · intro name k hcall
      rcases List.mem_append.mp hcall with hold | hnew
      · exact h.instance_ name k hold
      · cases List.mem_singleton.mp hnew
    · intro key k hlookup
      obtain ⟨inst, name, hk, hcall, hname, hformat⟩ :=
        h.instances key k hlookup
      by_cases heq : i = k
      · subst heq
        obtain rfl := Option.some.inj (hi.symm.trans hk)
        exact
          ⟨_, name, List.getElem?_set_self hlt, List.mem_append_left _ hcall,
            hname, hformat⟩
      · exact
          ⟨inst, name, (List.getElem?_set_ne heq).trans hk,
            List.mem_append_left _ hcall, hname, hformat⟩
    · intro j args' k hcall
      rcases List.mem_append.mp hcall with hold | hnew
      · obtain ⟨parent', hj, hlookup⟩ := h.database j args' k hold
        by_cases heq : i = j
        · subst heq
          obtain rfl := Option.some.inj (hi.symm.trans hj)
          exact
            ⟨_, List.getElem?_set_self hlt,
              lookup_insert_of_some hkey hlookup _⟩
        · exact ⟨parent', (List.getElem?_set_ne heq).trans hj, hlookup⟩
      · obtain ⟨rfl, rfl, rfl⟩ :=
          Call.database.inj (List.mem_singleton.mp hnew)
        exact
          ⟨_, List.getElem?_set_self hlt, AList.lookup_insert _⟩
    · intro j parent' key k hj hlookup
      have hold :
          ∀ parent'' : Instance, s.instances[j]? = some parent'' →
            parent''.databases_.lookup key = some k →
              ∃ db, (s.databases ++ [⟨i, args⟩])[k]? = some db ∧
                db.parent = j ∧ databaseKey N db.args = key ∧
                .database j db.args k ∈
                  s.calls ++ [.database i args s.databases.length] := by
        intro parent'' hj hlookup
        obtain ⟨db, hk, hparent, hdb, hcall⟩ :=
          h.databases j parent'' key k hj hlookup
        exact
          ⟨db, getElem?_snoc_of_some hk _, hparent, hdb,
            List.mem_append_left _ hcall⟩
      rcases getElem?_set_some hj with ⟨rfl, rfl⟩ | ⟨-, hj⟩
      · rcases lookup_insert_some hlookup with ⟨rfl, rfl⟩ | ⟨-, hlookup⟩
        · exact
            ⟨_, List.getElem?_concat_length, rfl, rfl,
              List.mem_append_right _ List.mem_cons_self⟩
        · exact hold parent hi hlookup
      · exact hold parent' hj hlookup

theorem step_cached
    {e : Event ν}
    (h : Cached N s)
    (hstep : step N s e = some t) :
    Cached N t := by
  cases e with
  | instance_ name =>
      simp only [step] at hstep
      split at hstep
      · obtain rfl := Option.some.inj hstep
        exact h
      · obtain rfl := Option.some.inj hstep
        exact h.callInstance name
  | database i args =>
      obtain ⟨parent, hi, heq⟩ := Option.map_eq_some_iff.mp hstep
      split at heq
      · obtain rfl := heq
        exact h
      · obtain rfl := heq
        exact h.callDatabase hi args

theorem new_cached
    (projectId : String) :
    Cached N { projectId := projectId } where
  instance_ := fun _ _ hcall => by cases hcall
  instances := fun _ _ hkey => by cases hkey
  database := fun _ _ _ hcall => by cases hcall
  databases := fun _ _ _ _ hi => by cases hi

theorem Cached.transparent
    (h : Cached N s) (hcompatible : Compatible N s) :
    Transparent s where
  instance_ := by
    intro name k hcall
    obtain ⟨inst, name', hk, hcall', hkey, hformat⟩ :=
      h.instances _ k (h.instance_ name k hcall)
    refine ⟨inst, hk, hformat.trans ?_⟩
    exact
      hcompatible.instance_ name' k name k hcall' hcall
        (instanceKey_eq_iff.mp hkey)
  database := by
    intro i args k hcall
    obtain ⟨parent, hi, hlookup⟩ := h.database i args k hcall
    obtain ⟨db, hk, hparent, hkey, hcall'⟩ :=
      h.databases i parent _ k hi hlookup
    obtain ⟨hlast, htexts⟩ := databaseKey_eq_iff.mp hkey
    exact
      ⟨parent, db, hi, hk, hparent,
        hcompatible.database i parent db.args k args k hi hcall' hcall hlast
          htexts⟩

theorem Cached.compatible
    (h : Cached N s) (htransparent : Transparent s) :
    Compatible N s where
  instance_ := by
    intro name k name' k' hcall hcall' hlast
    have hk := h.instance_ name k hcall
    rw [instanceKey_eq_iff.mpr hlast, h.instance_ name' k' hcall'] at hk
    obtain rfl := Option.some.inj hk
    obtain ⟨inst, hinst, hformat⟩ := htransparent.instance_ name _ hcall
    obtain ⟨inst', hinst', hformat'⟩ := htransparent.instance_ name' _ hcall'
    obtain rfl := Option.some.inj (hinst.symm.trans hinst')
    exact hformat.symm.trans hformat'
  database := by
    intro i parent a k a' k' hi hcall hcall' hlast htexts
    obtain ⟨p, hp, hk⟩ := h.database i a k hcall
    obtain ⟨p', hp', hk'⟩ := h.database i a' k' hcall'
    obtain rfl := Option.some.inj (hp.symm.trans hp')
    rw [databaseKey_eq_iff.mpr ⟨hlast, htexts⟩, hk'] at hk
    obtain rfl := Option.some.inj hk
    obtain ⟨q, db, hq, hdb, -, hsame⟩ := htransparent.database i a _ hcall
    obtain ⟨q', db', hq', hdb', -, hsame'⟩ :=
      htransparent.database i a' _ hcall'
    obtain rfl := Option.some.inj (hi.symm.trans hq)
    obtain rfl := Option.some.inj (hi.symm.trans hq')
    obtain rfl := Option.some.inj (hdb.symm.trans hdb')
    exact hsame.symm.trans hsame'

/-- The caches are transparent exactly when the calls are compatible. -/
theorem transparent_iff_compatible
    (N : Numbers ν) (projectId : String)
    (es : List (Event ν)) (s : Spanner ν)
    (hrun : run (step N) { projectId := projectId } es = some s) :
    Transparent s ↔ Compatible N s := by
  have hcached :=
    run_invariant (fun _ _ _ h hstep => step_cached h hstep)
      (new_cached projectId) hrun
  exact ⟨hcached.compatible, hcached.transparent⟩

theorem isDelimiter_of_isDigit
    {c : Char}
    (hc : c.isDigit = true) :
    isDelimiter c = false := by
  rw [Bool.eq_false_iff]
  intro hdelimiter
  simp only [isDelimiter, Bool.or_eq_true, beq_iff_eq] at hdelimiter
  rcases hdelimiter with (((rfl | rfl) | rfl) | rfl) | rfl <;>
    exact absurd hc (by decide)

/-- The numbers that are natural. -/
def naturalNumbers : Numbers Nat where
  print := fun n => n.repr
  plain := by
    intro n c hc
    rw [Nat.toList_repr] at hc
    exact
      isDelimiter_of_isDigit
        (Nat.isDigit_of_mem_toDigits (by decide) (by decide) hc)
  isFinite := fun _ => true

/-- Two callers of a database, with a role each. -/
def twoRoles : List (Event Nat) :=
  [.instance_ "my-instance",
    .database 0 { name := "my-database", databaseRole := some "admin" },
    .database 0 { name := "my-database", databaseRole := some "reader" }]

/-- The second caller is given the database of the first one's role. -/
theorem twoRoles_not_transparent :
    ¬∀ (N : Numbers Nat) (projectId : String) (es : List (Event Nat))
        (s : Spanner Nat),
        run (step N) { projectId := projectId } es = some s →
          Transparent s := by
  intro h
  obtain ⟨s, hrun, hcall, hrole⟩ :
      ∃ s, run (step naturalNumbers) { projectId := "my-project" } twoRoles =
            some s ∧
          .database 0
              { name := "my-database", databaseRole := some "reader" } 0 ∈
            s.calls ∧
          s.databases.map (fun db => db.args.databaseRole) = [some "admin"] :=
    ⟨_, rfl, List.mem_cons_of_mem _ (List.mem_cons_of_mem _
      List.mem_cons_self), rfl⟩
  obtain ⟨parent, db, -, hdb, -, hsame⟩ :=
    (h naturalNumbers "my-project" twoRoles s hrun).database _ _ _ hcall
  have hadmin : db.args.databaseRole = some "admin" := by
    have hget := congrArg (fun roles => roles[0]?) hrole
    simpa [hdb] using hget
  exact absurd (hadmin.symm.trans hsame.databaseRole) (by decide)

/-- The same options in two orders, and an instance by its full name. -/
def sameOptions : List (Event Nat) :=
  [.instance_ "my-instance",
    .instance_ "projects/my-project/instances/my-instance",
    .database 0
      { name := "my-database"
        poolOptions := .object [("min", .number 1), ("max", .number 5)] },
    .database 0
      { name := "my-database"
        poolOptions := .object [("max", .number 5), ("min", .number 1)] }]

theorem transparent_iff_compatible_sameOptions :
    ∃ s : Spanner Nat,
      run (step naturalNumbers) { projectId := "my-project" } sameOptions =
          some s ∧
        s.instances.length = 1 ∧ s.databases.length = 1 ∧
        (Transparent s ↔ Compatible naturalNumbers s) := by
  obtain ⟨s, hrun, hinstances, hdatabases⟩ :
      ∃ s : Spanner Nat,
        run (step naturalNumbers) { projectId := "my-project" } sameOptions =
            some s ∧
          s.instances.length = 1 ∧ s.databases.length = 1 :=
    ⟨_, rfl, by decide, by decide⟩
  exact
    ⟨s, hrun, hinstances, hdatabases,
      transparent_iff_compatible naturalNumbers "my-project" sameOptions s
        hrun⟩

end ObjectCache
end SpannerClient
