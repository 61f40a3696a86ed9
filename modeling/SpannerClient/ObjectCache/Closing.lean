import SpannerClient.ObjectCache.Transparency

/-!
# Closing a database

`Database.close` deletes an entry of the cache of its instance.  The key it
deletes is the last segment of the name, and the key under which `database` has
stored the object has the texts of the options too.  So `close` evicts the
object, and only it, exactly when it was constructed without options and is
cached, or when it is not cached and no object is under the shorter key
(`evicts_iff_closes_own`).

Whether an object is evicted is asked of the later calls: what a call with given
arguments returns (`Returns`) depends on the entry of its key alone, and calls evict
nothing (`run_cached`).  `Stored` is what holds of every object after any run.
-/

namespace SpannerClient
namespace ObjectCache

open Codec
open Machine

variable {ν : Type} {N : Numbers ν}

/-- The key that `close` deletes. -/
def closeKey
    (db : Database ν) : String :=
  String.ofList (lastSegment db.args.name)

/-- `Database.close`, without the pool. -/
def Spanner.close
    (s : Spanner ν) (db : Database ν) : Spanner ν :=
  { s with
    instances :=
      s.instances.modify db.parent fun parent =>
        { parent with databases_ := parent.databases_.erase (closeKey db) } }

inductive LifeEvent (ν : Type) where
  | call (e : Event ν)
  | close (k : Nat)

/-- A call, or `close` on an object that a call has returned. -/
def lifeStep
    (N : Numbers ν) (s : Spanner ν) :
    LifeEvent ν → Option (Spanner ν)
  | .call e => step N s e
  | .close k => s.databases[k]?.map fun db => s.close db

/-! ## The entries -/

/-- The object that the cache of the instance `i` has under the key. -/
def Spanner.cached
    (s : Spanner ν) (i : Nat) (key : String) : Option Nat :=
  s.instances[i]?.bind fun parent => parent.databases_.lookup key

variable {s t : Spanner ν}

@[simp] theorem cached_addCall
    (s : Spanner ν) (call : Call ν) (i : Nat) (key : String) :
    (s.addCall call).cached i key = s.cached i key := by
  rfl

theorem cached_eq
    {i : Nat} {parent : Instance}
    (hi : s.instances[i]? = some parent)
    (key : String) :
    s.cached i key = parent.databases_.lookup key := by
  rw [Spanner.cached, hi, Option.bind_some]

theorem cached_instance
    (s : Spanner ν) (name : String) (i : Nat) (key : String) :
    (s.instance_ name).cached i key = s.cached i key := by
  rw [Spanner.instance_]
  split
  · rfl
  · rw [cached_addCall, Spanner.cached, Spanner.cached]
    by_cases hlt : i < s.instances.length
    · rw [List.getElem?_append_left hlt]
    · rw [List.getElem?_eq_none (Nat.le_of_not_lt hlt)]
      rcases Nat.eq_or_lt_of_le (Nat.le_of_not_lt hlt) with rfl | hgt
      · rw [List.getElem?_concat_length]
        exact AList.lookup_empty key
      · rw [List.getElem?_eq_none]
        rw [List.length_append]
        exact hgt

theorem cached_close
    (s : Spanner ν) (db : Database ν) (i : Nat) (key : String) :
    (s.close db).cached i key =
      if i = db.parent ∧ key = closeKey db then
        none
      else
        s.cached i key := by
  rw [Spanner.cached, Spanner.close, List.getElem?_modify, Spanner.cached]
  cases hget : s.instances[i]? with
  | none =>
      simp
  | some parent =>
      by_cases hi : db.parent = i
      · subst hi
        by_cases hkey : key = closeKey db
        · subst hkey
          simp [AList.lookup_erase]
        · simp [hkey, AList.lookup_erase_ne]
      · have hne : i ≠ db.parent := fun heq => hi heq.symm
        simp [hi, hne]

/-- What a call does to the entries: nothing, or it constructs an object. -/
theorem step_call_cases
    {e : Event ν}
    (hstep : step N s e = some t) :
    s.instances.length ≤ t.instances.length ∧
      ((t.databases = s.databases ∧
          ∀ j key, t.cached j key = s.cached j key) ∨
        ∃ i args, args.name ≠ "" ∧ i < s.instances.length ∧
          s.cached i (databaseKey N args) = none ∧
          t.databases = s.databases ++ [{ parent := i, args := args }] ∧
          ∀ j key, t.cached j key =
            if j = i ∧ key = databaseKey N args then
              some s.databases.length
            else
              s.cached j key) := by
  cases e with
  | instance_ name =>
      simp only [step] at hstep
      split at hstep
      · obtain rfl := Option.some.inj hstep
        exact ⟨Nat.le_refl _, .inl ⟨rfl, fun _ _ => rfl⟩⟩
      · obtain rfl := Option.some.inj hstep
        refine ⟨?_, .inl ⟨?_, cached_instance s name⟩⟩
        · rw [Spanner.instance_]
          split <;> simp [Spanner.addCall]
        · rw [Spanner.instance_]
          split <;> rfl
  | database i args =>
      obtain ⟨parent, hi, heq⟩ := Option.map_eq_some_iff.mp hstep
      have hlt := (List.getElem?_eq_some_iff.mp hi).1
      split at heq
      · obtain rfl := heq
        exact ⟨Nat.le_refl _, .inl ⟨rfl, fun _ _ => rfl⟩⟩
      · rename_i hname
        unfold Spanner.database at heq
        split at heq
        · obtain rfl := heq
          exact ⟨Nat.le_refl _, .inl ⟨rfl, fun _ _ => rfl⟩⟩
        · rename_i hkey
          obtain rfl := heq
          refine ⟨by simp [Spanner.addCall], .inr ⟨i, args, hname, hlt, ?_⟩⟩
          refine ⟨(cached_eq hi _).trans hkey, rfl, ?_⟩
          intro j key
          rw [cached_addCall, Spanner.cached]
          by_cases hj : j = i
          · subst hj
            rw [cached_eq hi, List.getElem?_set_self hlt, Option.bind_some]
            by_cases heq : key = databaseKey N args
            · subst heq
              simp [AList.lookup_insert]
            · simp [heq, AList.lookup_insert_ne]
          · rw [List.getElem?_set_ne fun heq => hj heq.symm]
            simp [hj, Spanner.cached]

/-! ## Later calls -/

/-- A call with the arguments returns the object `k`. -/
def Returns
    (N : Numbers ν) (s : Spanner ν) (i : Nat) (args : DatabaseArguments ν)
    (k : Nat) : Prop :=
  ∃ t, step N s (.database i args) = some t ∧
    t.calls = s.calls ++ [.database i args k]

theorem returns_iff
    {i : Nat} {args : DatabaseArguments ν} {k : Nat} :
    Returns N s i args k ↔
      args.name ≠ "" ∧ i < s.instances.length ∧
        (s.cached i (databaseKey N args)).getD s.databases.length = k := by
  rw [Returns]
  by_cases hlt : i < s.instances.length
  · have hi := List.getElem?_eq_getElem hlt
    rw [cached_eq hi]
    by_cases hname : args.name = ""
    · simp [step, hi, hname]
    · simp only [step, hi, Option.map_some, if_neg hname]
      rw [Spanner.database]
      cases hkey : s.instances[i].databases_.lookup (databaseKey N args) <;>
        simp [Spanner.addCall, hname, hlt]
  · simp [step, hlt]

/-- The object `k` has been evicted, and only it: no later call returns it, and
every other object that has been returned for its own arguments still is. -/
structure EvictsOnly
    (N : Numbers ν) (s : Spanner ν) (k : Nat) (t : Spanner ν) : Prop where
  closed :
    ∀ es u, run (lifeStep N) t es = some u →
      ∀ i args, ¬Returns N u i args k
  others :
    ∀ k' db, k' ≠ k → s.databases[k']? = some db →
      Returns N s db.parent db.args k' →
        ∀ es u, run (step N) t es = some u →
          Returns N u db.parent db.args k'

/-- The object is cached, and has been constructed without options; or it is not
cached, and no object is under the last segment of its name. -/
def ClosesOwn
    (N : Numbers ν) (s : Spanner ν) (k : Nat) : Prop :=
  ∀ db, s.databases[k]? = some db →
    (s.cached db.parent (databaseKey N db.args) = some k →
        db.args.poolOptions.entries = [] ∧
          db.args.queryOptions.getD [] = []) ∧
      (s.cached db.parent (databaseKey N db.args) ≠ some k →
        s.cached db.parent (closeKey db) = none)

/-- Without options the two keys are one. -/
theorem databaseKey_eq_closeKey_iff
    (db : Database ν) :
    databaseKey N db.args = closeKey db ↔
      db.args.poolOptions.entries = [] ∧
        db.args.queryOptions.getD [] = [] := by
  rw [databaseKey, closeKey]
  rw [String.ofList_inj, List.append_right_eq_self, optionsKey_eq]
  rw [optionTexts]
  cases db.args.poolOptions.entries <;>
    cases db.args.queryOptions.getD [] <;> simp

/-! ## The invariant -/

/-- Every object has been constructed by a call that did not throw, and is under
no key but its own. -/
structure Stored
    (N : Numbers ν) (s : Spanner ν) : Prop where
  constructed :
    ∀ (k : Nat) db, s.databases[k]? = some db →
      db.args.name ≠ "" ∧ db.parent < s.instances.length
  entries :
    ∀ i key k, s.cached i key = some k →
      ∃ db, s.databases[k]? = some db ∧ db.parent = i ∧
        databaseKey N db.args = key

theorem Stored.call
    (h : Stored N s)
    {e : Event ν}
    (hstep : step N s e = some t) :
    Stored N t := by
  obtain ⟨hlen, ⟨hdatabases, hcached⟩ |
    ⟨i, args, hname, hi, -, hdatabases, hcached⟩⟩ := step_call_cases hstep
  · refine ⟨?_, ?_⟩
    · intro k db hk
      rw [hdatabases] at hk
      obtain ⟨hname, hparent⟩ := h.constructed k db hk
      exact ⟨hname, Nat.lt_of_lt_of_le hparent hlen⟩
    · intro i key k hkey
      rw [hcached] at hkey
      rw [hdatabases]
      exact h.entries i key k hkey
  · refine ⟨?_, ?_⟩
    · intro k db hk
      rw [hdatabases] at hk
      rcases getElem?_snoc_some hk with ⟨-, rfl⟩ | ⟨-, hk⟩
      · exact ⟨hname, Nat.lt_of_lt_of_le hi hlen⟩
      · obtain ⟨hname, hparent⟩ := h.constructed k db hk
        exact ⟨hname, Nat.lt_of_lt_of_le hparent hlen⟩
    · intro j key k hkey
      rw [hcached] at hkey
      rw [hdatabases]
      split at hkey
      · rename_i heq
        obtain ⟨rfl, rfl⟩ := heq
        obtain rfl := Option.some.inj hkey
        exact ⟨_, List.getElem?_concat_length, rfl, rfl⟩
      · obtain ⟨db, hk, hrest⟩ := h.entries j key k hkey
        exact ⟨db, getElem?_snoc_of_some hk _, hrest⟩

theorem Stored.close
    (h : Stored N s)
    (db : Database ν) :
    Stored N (s.close db) where
  constructed := by
    intro k db' hk
    obtain ⟨hname, hparent⟩ := h.constructed k db' hk
    refine ⟨hname, ?_⟩
    rw [Spanner.close, List.length_modify]
    exact hparent
  entries := by
    intro i key k hkey
    rw [cached_close] at hkey
    split at hkey
    · cases hkey
    · exact h.entries i key k hkey

theorem lifeStep_stored
    {e : LifeEvent ν}
    (h : Stored N s)
    (hstep : lifeStep N s e = some t) :
    Stored N t := by
  cases e with
  | call e =>
      exact h.call hstep
  | close k =>
      obtain ⟨db, -, rfl⟩ := Option.map_eq_some_iff.mp hstep
      exact h.close db

theorem new_stored
    (projectId : String) :
    Stored N { projectId := projectId } where
  constructed := fun _ _ hk => by cases hk
  entries := fun _ _ _ hkey => by cases hkey

/-! ## Exactness -/

/-- An object that is in no cache. -/
structure Evicted
    (k : Nat) (s : Spanner ν) : Prop where
  existing : k < s.databases.length
  notCached : ∀ i key, s.cached i key ≠ some k

theorem lifeStep_evicted
    {k : Nat} {e : LifeEvent ν}
    (h : Evicted k s)
    (hstep : lifeStep N s e = some t) :
    Evicted k t := by
  cases e with
  | call e =>
      obtain ⟨-, ⟨hdatabases, hcached⟩ |
        ⟨i, args, -, -, -, hdatabases, hcached⟩⟩ := step_call_cases hstep
      · refine ⟨by rw [hdatabases]; exact h.existing, ?_⟩
        intro j key
        rw [hcached]
        exact h.notCached j key
      · refine ⟨?_, ?_⟩
        · rw [hdatabases, List.length_append]
          exact Nat.lt_add_right _ h.existing
        · intro j key
          rw [hcached]
          split
          · intro heq
            exact absurd (Option.some.inj heq) (Nat.ne_of_gt h.existing)
          · exact h.notCached j key
  | close k' =>
      obtain ⟨db, -, rfl⟩ := Option.map_eq_some_iff.mp hstep
      refine ⟨h.existing, ?_⟩
      intro i key
      rw [cached_close]
      split
      · exact nofun
      · exact h.notCached i key

/-- No call returns an object that is in no cache: a new one is another. -/
theorem Evicted.not_returns
    {k : Nat}
    (h : Evicted k s)
    (i : Nat) (args : DatabaseArguments ν) :
    ¬Returns N s i args k := by
  rw [returns_iff]
  rintro ⟨-, -, hk⟩
  cases hkey : s.cached i (databaseKey N args) with
  | none =>
      rw [hkey] at hk
      exact absurd hk (Nat.ne_of_gt h.existing)
  | some k' =>
      rw [hkey] at hk
      exact h.notCached i _ (hkey.trans (congrArg some hk))

/-- Calls evict nothing. -/
theorem run_cached
    {es : List (Event ν)} {i : Nat} {key : String} {k : Nat}
    (hrun : run (step N) s es = some t)
    (hi : i < s.instances.length)
    (hkey : s.cached i key = some k) :
    i < t.instances.length ∧ t.cached i key = some k := by
  refine run_invariant ?_
    (I := fun t => i < t.instances.length ∧ t.cached i key = some k)
    ⟨hi, hkey⟩ hrun
  rintro s e t ⟨hi, hkey⟩ hstep
  obtain ⟨hlen, ⟨-, hcached⟩ | ⟨j, args, -, -, hnone, -, hcached⟩⟩ :=
    step_call_cases hstep
  · exact ⟨Nat.lt_of_lt_of_le hi hlen, (hcached i key).trans hkey⟩
  · refine ⟨Nat.lt_of_lt_of_le hi hlen, ?_⟩
    rw [hcached, if_neg]
    · exact hkey
    · rintro ⟨rfl, rfl⟩
      rw [hkey] at hnone
      cases hnone

/-- An existing object is returned from the cache. -/
theorem Returns.cached
    {i : Nat} {args : DatabaseArguments ν} {k : Nat}
    (h : Returns N s i args k)
    (hk : k < s.databases.length) :
    s.cached i (databaseKey N args) = some k := by
  obtain ⟨-, -, hret⟩ := returns_iff.mp h
  cases hkey : s.cached i (databaseKey N args) with
  | none =>
      rw [hkey] at hret
      exact absurd hret (Nat.ne_of_gt hk)
  | some k' =>
      rw [hkey] at hret
      exact congrArg some hret

theorem close_evictsOnly
    {k : Nat} {db : Database ν}
    (h : Stored N s)
    (hk : s.databases[k]? = some db)
    (hown : ClosesOwn N s k) :
    EvictsOnly N s k (s.close db) := by
  obtain ⟨hcached, hnot⟩ := hown db hk
  refine ⟨?_, ?_⟩
  · have hevicted : Evicted k (s.close db) := by
      refine ⟨(List.getElem?_eq_some_iff.mp hk).1, ?_⟩
      intro i key heq
      rw [cached_close] at heq
      split at heq
      · cases heq
      · rename_i hkey
        obtain ⟨db', hk', rfl, rfl⟩ := h.entries i key k heq
        obtain rfl := Option.some.inj (hk.symm.trans hk')
        exact
          hkey ⟨rfl, (databaseKey_eq_closeKey_iff db).mpr (hcached heq)⟩
    intro es u hrun i args
    exact
      (run_invariant (fun _ _ _ h hstep => lifeStep_evicted h hstep) hevicted
        hrun).not_returns i args
  · intro k' db' hne hk' hret es u hrun
    obtain ⟨hname, hparent, -⟩ := returns_iff.mp hret
    have hkey := hret.cached (List.getElem?_eq_some_iff.mp hk').1
    have hkept :
        (s.close db).cached db'.parent (databaseKey N db'.args) =
          some k' := by
      rw [cached_close, if_neg]
      · exact hkey
      · rintro ⟨hsame, heq⟩
        rw [hsame, heq] at hkey
        by_cases hcase :
            s.cached db.parent (databaseKey N db.args) = some k
        · rw [(databaseKey_eq_closeKey_iff db).mpr (hcached hcase),
            hkey] at hcase
          exact hne (Option.some.inj hcase)
        · rw [hnot hcase] at hkey
          cases hkey
    have hlt : db'.parent < (s.close db).instances.length := by
      rw [Spanner.close, List.length_modify]
      exact hparent
    obtain ⟨hparent', hkey'⟩ := run_cached hrun hlt hkept
    exact returns_iff.mpr ⟨hname, hparent', by rw [hkey', Option.getD_some]⟩

theorem EvictsOnly.closesOwn
    {k : Nat} {db : Database ν}
    (h : Stored N s)
    (hk : s.databases[k]? = some db)
    (hevicts : EvictsOnly N s k (s.close db)) :
    ClosesOwn N s k := by
  intro db' hk'
  obtain rfl := Option.some.inj (hk.symm.trans hk')
  obtain ⟨hname, hparent⟩ := h.constructed k db hk
  constructor
  · intro hcached
    rw [← databaseKey_eq_closeKey_iff (N := N)]
    by_contra hkey
    refine hevicts.closed [] _ rfl db.parent db.args (returns_iff.mpr ?_)
    refine ⟨hname, ?_, ?_⟩
    · rw [Spanner.close, List.length_modify]
      exact hparent
    · rw [cached_close, if_neg fun hsame => hkey hsame.2, hcached,
        Option.getD_some]
  · intro hcached
    cases hkey : s.cached db.parent (closeKey db) with
    | none =>
        rfl
    | some k' =>
        obtain ⟨db', hdb, hsame, heq⟩ := h.entries _ _ k' hkey
        have hne : k' ≠ k := by
          rintro rfl
          obtain rfl := Option.some.inj (hk.symm.trans hdb)
          rw [heq] at hcached
          exact hcached hkey
        have hret : Returns N s db'.parent db'.args k' := by
          obtain ⟨hname', hparent'⟩ := h.constructed k' db' hdb
          refine returns_iff.mpr ⟨hname', hparent', ?_⟩
          rw [hsame, heq, hkey, Option.getD_some]
        have hgone :=
          (hevicts.others k' db' hne hdb hret [] _ rfl).cached
            (List.getElem?_eq_some_iff.mp hdb).1
        rw [cached_close, if_pos ⟨hsame, heq⟩] at hgone
        cases hgone

/-- `close` evicts the object and only it, throughout a run, exactly when every
`close` of the run deletes the entry of its own object or none. -/
theorem evicts_iff_closes_own
    (N : Numbers ν) (projectId : String)
    (es : List (LifeEvent ν)) (s : Spanner ν)
    (hrun : run (lifeStep N) { projectId := projectId } es = some s) :
    Throughout (lifeStep N)
        (fun s e t => ∀ k, e = .close k → EvictsOnly N s k t)
        { projectId := projectId } es ↔
      Meets (lifeStep N)
        (fun s e => ∀ k, e = .close k → ClosesOwn N s k)
        { projectId := projectId } es := by
  refine
    throughout_iff_meets (I := Stored N) (J := fun _ => True)
      (fun _ _ _ h hstep => lifeStep_stored h hstep) ?_ ?_
      (new_stored projectId) trivial hrun
  · intro s e t h _ hown hstep
    refine ⟨trivial, ?_⟩
    rintro k rfl
    obtain ⟨db, hk, rfl⟩ := Option.map_eq_some_iff.mp hstep
    exact close_evictsOnly h hk (hown k rfl)
  · intro s e t h _ hnot hstep hevicts
    refine hnot ?_
    rintro k rfl
    obtain ⟨db, hk, rfl⟩ := Option.map_eq_some_iff.mp hstep
    exact (hevicts k rfl).closesOwn h hk

/-- A database without options is closed, constructed again and closed again. -/
def closedTwice : List (LifeEvent Nat) :=
  [.call (.instance_ "my-instance"),
    .call (.database 0 { name := "my-database" }),
    .close 0,
    .call (.database 0 { name := "my-database" }),
    .close 1]

theorem evicts_iff_closes_own_closedTwice :
    ∃ s : Spanner Nat,
      run (lifeStep naturalNumbers) { projectId := "my-project" } closedTwice =
          some s ∧
        s.databases.length = 2 ∧
        (Throughout (lifeStep naturalNumbers)
            (fun s e t => ∀ k, e = .close k → EvictsOnly naturalNumbers s k t)
            { projectId := "my-project" } closedTwice ↔
          Meets (lifeStep naturalNumbers)
            (fun s e => ∀ k, e = .close k → ClosesOwn naturalNumbers s k)
            { projectId := "my-project" } closedTwice) := by
  obtain ⟨s, hrun, hdatabases⟩ :
      ∃ s : Spanner Nat,
        run (lifeStep naturalNumbers) { projectId := "my-project" }
            closedTwice = some s ∧
          s.databases.length = 2 :=
    ⟨_, rfl, by decide⟩
  exact
    ⟨s, hrun, hdatabases,
      evicts_iff_closes_own naturalNumbers "my-project" closedTwice s hrun⟩

/-- The arguments of a database with pool options. -/
def pooledArguments : DatabaseArguments Nat where
  name := "my-database"
  poolOptions := .object [("max", .number 5)]

/-- A database with pool options is closed. -/
def closedWithOptions : List (LifeEvent Nat) :=
  [.call (.instance_ "my-instance"), .call (.database 0 pooledArguments),
    .close 0]

/-- The next call with the options returns the closed database. -/
theorem closedWithOptions_not_evicted :
    ¬∀ (N : Numbers Nat) (projectId : String) (es : List (LifeEvent Nat))
        (s : Spanner Nat),
        run (lifeStep N) { projectId := projectId } es = some s →
          Throughout (lifeStep N)
            (fun s e t => ∀ k, e = .close k → EvictsOnly N s k t)
            { projectId := projectId } es := by
  intro h
  obtain ⟨-, hcall⟩ :=
    h naturalNumbers "my-project" closedWithOptions _ rfl _ rfl
  obtain ⟨-, hclose⟩ := hcall _ rfl
  obtain ⟨hevicts, -⟩ := hclose _ rfl
  exact
    (hevicts 0 rfl).closed [] _ rfl 0 pooledArguments ⟨_, rfl, rfl⟩

end ObjectCache
end SpannerClient
