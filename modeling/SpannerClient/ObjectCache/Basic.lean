import Mathlib.Data.List.AList
import Mathlib.Data.List.Lex
import Mathlib.Data.List.Sort
import SpannerClient.Codec.Basic
import SpannerClient.Machine.Json
import SpannerClient.Machine.Run

/-!
# The object caches

`Spanner.instance` and `Instance.database` construct an object once for a key and
return it again for every later call with that key.  The key of an instance is
the last segment of its name; that of a database is the last segment followed by
the JSON texts of the options that were given, their entries sorted.

The model has the arguments of the calls as far as the constructors look at them
(`DatabaseArguments`), the keys as texts of UTF-16 code units, and the objects with
the call that has constructed them.  `step` is one call; the numbers that JSON
prints are a parameter.
-/

namespace SpannerClient
namespace ObjectCache

open Codec
open Machine

/-- How numbers are printed, and which have a JSON text of their own. -/
structure Numbers (ν : Type) extends NumberPrinter ν where
  isFinite : ν → Bool

/-- The class of a pool, or options for the pool. -/
inductive PoolOptions (ν : Type) where
  /-- `undefined` or `null`. -/
  | absent
  | object (entries : List (String × Raw ν))
  /-- A `SessionPoolConstructor`. -/
  | poolClass (n : Nat)

/-- `Object.entries`. -/
def PoolOptions.entries
    {ν : Type} : PoolOptions ν → List (String × Raw ν)
  | .absent => []
  | .object entries => entries
  | .poolClass _ => []

/-- The arguments of `Instance.database`. -/
structure DatabaseArguments (ν : Type) where
  name : String
  poolOptions : PoolOptions ν := .absent
  queryOptions : Option (List (String × Raw ν)) := none
  databaseRole : Option String := none

/-! ## The key -/

/-- The UTF-16 code units of a character. -/
def utf16
    (c : Char) : List Nat :=
  if c.toNat < 0x10000 then
    [c.toNat]
  else
    [0xD800 + (c.toNat - 0x10000) / 0x400, 0xDC00 + (c.toNat - 0x10000) % 0x400]

section Key

variable {ν : Type} (N : Numbers ν)

/-- The code units by which `sort` compares an entry. -/
def entryUnits
    (entry : String × Raw ν) : List Nat :=
  (((Raw.list [.string entry.1, entry.2]).toString N.print).getD
    "").toList.flatMap utf16

/-- `Object.entries(options).sort()`. -/
def sortEntries
    (entries : List (String × Raw ν)) : List (String × Raw ν) :=
  entries.insertionSort fun a b => entryUnits N a ≤ entryUnits N b

mutual

/-- The value that `JSON.stringify` writes, if any. -/
def toJson : Raw ν → Option (Json ν)
  | .undefined => none
  | .null => some .null
  | .boolean b => some (.boolean b)
  | .number x => some (if N.isFinite x then .number x else .null)
  | .string s => some (.string s)
  | .list values => some (.array (toElements values))
  | .object fields => some (.object (toMembers fields))

/-- In an array `undefined` is written as `null`. -/
def toElements : List (Raw ν) → List (Json ν)
  | [] => []
  | value :: values => (toJson value).getD .null :: toElements values

/-- In an object `undefined` is left out. -/
def toMembers : List (String × Raw ν) → List (String × Json ν)
  | [] => []
  | (name, value) :: fields =>
      match toJson value with
      | none => toMembers fields
      | some value => (name, value) :: toMembers fields

end

/-- `JSON.stringify(Object.entries(options).sort())`. -/
def optionsText
    (entries : List (String × Raw ν)) : List Char :=
  (Json.array
    ((sortEntries N entries).map fun entry =>
      .array [.string entry.1, (toJson N entry.2).getD .null])).stringify
    N.toNumberPrinter

/-- `name.split('/').pop()`. -/
def lastSegment
    (name : String) : List Char :=
  (name.toList.splitOn '/').getLastD []

/-- `optionsKey` of `database`. -/
def optionsKey
    (args : DatabaseArguments ν) : List Char :=
  let queryOptions := args.queryOptions.getD []
  let optionsKey :=
    if args.poolOptions.entries.length > 0 then
      '/' :: optionsText N args.poolOptions.entries
    else
      []
  if queryOptions.length > 0 then
    optionsKey ++ '/' :: optionsText N queryOptions
  else
    optionsKey

/-- The key of `database`. -/
def databaseKey
    (args : DatabaseArguments ν) : String :=
  String.ofList (lastSegment args.name ++ optionsKey N args)

/-- The key of `instance`. -/
def instanceKey
    (name : String) : String :=
  String.ofList (lastSegment name)

end Key

/-! ## The objects -/

/-- `Instance.formatName_`. -/
def formatInstanceName
    (projectId name : String) : String :=
  if '/' ∈ name.toList then
    name
  else
    "projects/" ++ projectId ++ "/instances/" ++
      String.ofList (lastSegment name)

/-- `Database.formatName_`. -/
def formatDatabaseName
    (instanceName name : String) : String :=
  if '/' ∈ name.toList then
    name
  else
    instanceName ++ "/databases/" ++ String.ofList (lastSegment name)

structure Instance where
  formattedName_ : String
  databases_ : AList fun _ : String => Nat := ∅

/-- A `Database`, by what it was constructed from. -/
structure Database (ν : Type) where
  parent : Nat
  args : DatabaseArguments ν

/-- A call that has returned, with the number of the object it returned. -/
inductive Call (ν : Type) where
  | instance_ (name : String) (returned : Nat)
  | database (parent : Nat) (args : DatabaseArguments ν) (returned : Nat)

/-- A client, with the instances and databases constructed by it. -/
structure Spanner (ν : Type) where
  projectId : String
  instances_ : AList fun _ : String => Nat := ∅
  instances : List Instance := []
  databases : List (Database ν) := []
  calls : List (Call ν) := []

section Calls

variable {ν : Type}

/-- A call returns. -/
def Spanner.addCall
    (s : Spanner ν) (call : Call ν) : Spanner ν :=
  { s with calls := s.calls ++ [call] }

/-- `Spanner.instance` with a name. -/
def Spanner.instance_
    (s : Spanner ν) (name : String) : Spanner ν :=
  match s.instances_.lookup (instanceKey name) with
  | some k => s.addCall (.instance_ name k)
  | none =>
      let k := s.instances.length
      Spanner.addCall
        { s with
          instances :=
            s.instances ++
              [{ formattedName_ := formatInstanceName s.projectId name }]
          instances_ := s.instances_.insert (instanceKey name) k }
        (.instance_ name k)

/-- `Instance.database` with a name. -/
def Spanner.database
    (N : Numbers ν) (s : Spanner ν) (i : Nat) (parent : Instance)
    (args : DatabaseArguments ν) : Spanner ν :=
  match parent.databases_.lookup (databaseKey N args) with
  | some k => s.addCall (.database i args k)
  | none =>
      let k := s.databases.length
      Spanner.addCall
        { s with
          databases := s.databases ++ [{ parent := i, args := args }]
          instances :=
            s.instances.set i
              { parent with
                databases_ :=
                  parent.databases_.insert (databaseKey N args) k } }
        (.database i args k)

end Calls

inductive Event (ν : Type) where
  | instance_ (name : String)
  | database (parent : Nat) (args : DatabaseArguments ν)

/-- One call; it throws if it has no name. -/
def step
    {ν : Type} (N : Numbers ν) (s : Spanner ν) :
    Event ν → Option (Spanner ν)
  | .instance_ name =>
      if name = "" then some s else some (s.instance_ name)
  | .database i args =>
      s.instances[i]?.map fun parent =>
        if args.name = "" then s else s.database N i parent args

end ObjectCache
end SpannerClient
