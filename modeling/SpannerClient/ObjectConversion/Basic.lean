import SpannerClient.Machine.Containers
import SpannerClient.Machine.Graphs
import SpannerClient.Machine.Objects

/-!
# Converting objects

`ObjectToStructConverter` turns an object into a protobuf `Struct`.  Objects and
arrays refer to each other by reference: what they make up is a graph, in which a
node can be shared and can be in itself.  The converter keeps a set of the objects
that it is converting; it does not put arrays into it.

* `encodeValue_` and `convert` are the converter, with the depth of the calls as
  fuel: an outcome says that the calls have returned or thrown, or that they go
  deeper.
* `Unfolds` says what the conversion is to be: what is there when one follows the
  references from the root, with `[Circular]` for a reference to a node that encloses
  it.
-/

namespace SpannerClient
namespace ObjectConversion

open Machine

variable {N ν β : Type}

/-! ## Graphs of objects and arrays -/

/-- A value that refers to nothing. -/
inductive Leaf (ν β : Type) where
  | undefined
  | null
  | number (x : ν)
  | string (s : String)
  | boolean (b : Bool)
  | buffer (b : β)
  /-- Anything else: its type and its text. -/
  | other (typeof text : String)

/-- What a property or an element holds. -/
inductive Held (N ν β : Type) where
  | leaf (l : Leaf ν β)
  | ref (n : N)

/-- A plain object or an array. -/
inductive Node (N ν β : Type) where
  /-- A property `__proto__` would not be one of the struct. -/
  | object (props : PlainObject (Held N ν β)) (hproto : "__proto__" ∉ props.keys)
  | array (values : List (Held N ν β))

/-- The nodes by their references. -/
abbrev Graph (N ν β : Type) := N → Node N ν β

def Node.isObject : Node N ν β → Bool
  | .object _ _ => true
  | .array _ => false

/-- What `for (const prop in obj)` goes through. -/
def Node.entries : Node N ν β → List (String × Held N ν β)
  | .object props _ => props.entries
  | .array values => values.zipIdx.map fun value => (value.2.repr, value.1)

/-- One node refers to the other. -/
def Edge
    (g : Graph N ν β) (m n : N) : Prop :=
  ∃ name, (name, .ref n) ∈ (g m).entries

/-! ## The converter -/

/-- `google.protobuf.Value`, with what the converter makes of a buffer. -/
inductive Encoded (ν β : Type) where
  | nullValue
  | numberValue (x : ν)
  | stringValue (s : String)
  | boolValue (b : Bool)
  | blobValue (b : β)
  | structValue (fields : List (String × Encoded ν β))
  | listValue (values : List (Encoded ν β))

structure Options where
  removeCircular : Bool := false
  stringify : Bool := false

def circularMessage : String :=
  " ".intercalate
    ["This object contains a circular reference. To automatically",
      "remove it, set the `removeCircular` option to true."]

def notRecognizedMessage
    (typeof : String) : String :=
  "Value of type " ++ typeof ++ " not recognized."

/-- A value and `seenObjects`, or the message of what has been thrown; `none`
without enough fuel. -/
abbrev Outcome (N α : Type) := Option (Except String (α × List N))

def Outcome.andThen
    {α γ : Type} (o : Outcome N α) (f : α → List N → Outcome N γ) :
    Outcome N γ :=
  match o with
  | none => none
  | some (.error message) => some (.error message)
  | some (.ok (a, seenObjects)) => f a seenObjects

/-- `encodeValue_` of a value that is neither an object nor an array. -/
def Leaf.encode
    (stringify : Bool) : Leaf ν β → Except String (Encoded ν β)
  | .null => .ok .nullValue
  | .number x => .ok (.numberValue x)
  | .string s => .ok (.stringValue s)
  | .boolean b => .ok (.boolValue b)
  | .buffer b => .ok (.blobValue b)
  | .undefined =>
      if stringify then .ok (.stringValue "undefined")
      else .error (notRecognizedMessage "undefined")
  | .other typeof text =>
      if stringify then .ok (.stringValue text)
      else .error (notRecognizedMessage typeof)

/-- `isUndefined(value)`. -/
def Held.isUndefined : Held N ν β → Bool
  | .leaf .undefined => true
  | _ => false

/-- The properties that `convert` does not skip. -/
def defined
    (entries : List (String × Held N ν β)) : List (String × Held N ν β) :=
  entries.filter fun entry => !entry.2.isUndefined

/-- The entries one after the other. -/
def encodeEntries
    (encodeValue_ : List N → Held N ν β → Outcome N (Encoded ν β)) :
    List (String × Held N ν β) → List N →
      Outcome N (List (String × Encoded ν β))
  | [], seenObjects => some (.ok ([], seenObjects))
  | (prop, value) :: entries, seenObjects =>
      (encodeValue_ seenObjects value).andThen fun x seenObjects =>
        (encodeEntries encodeValue_ entries seenObjects).andThen
          fun fields seenObjects => some (.ok ((prop, x) :: fields, seenObjects))

section Converter

variable [DecidableEq N]

/-- The body of `convert`. -/
def convertWith
    (g : Graph N ν β)
    (encodeValue_ : List N → Held N ν β → Outcome N (Encoded ν β))
    (seenObjects : List N) (obj : N) :
    Outcome N (List (String × Encoded ν β)) :=
  (encodeEntries encodeValue_ (defined (g obj).entries)
      (setAdd seenObjects obj)).andThen
    fun fields seenObjects => some (.ok (fields, seenObjects.erase obj))

/-- `encodeValue_`, up to a depth of calls. -/
def encodeValue_
    (g : Graph N ν β) (options : Options) :
    Nat → List N → Held N ν β → Outcome N (Encoded ν β)
  | 0, _, _ => none
  | _ + 1, seenObjects, .leaf l =>
      some ((l.encode options.stringify).map fun x => (x, seenObjects))
  | fuel + 1, seenObjects, .ref n =>
      if (g n).isObject then
        if n ∈ seenObjects then
          if !options.removeCircular then
            some (.error circularMessage)
          else
            some (.ok (.stringValue "[Circular]", seenObjects))
        else
          (convertWith g (encodeValue_ g options fuel) seenObjects n).andThen
            fun fields seenObjects =>
              some (.ok (.structValue fields, seenObjects))
      else
        (encodeEntries (encodeValue_ g options fuel) (g n).entries
            seenObjects).andThen
          fun fields seenObjects =>
            some (.ok (.listValue (fields.map Prod.snd), seenObjects))

/-- `new ObjectToStructConverter(options).convert(obj)`. -/
def convert
    (g : Graph N ν β) (options : Options) (fuel : Nat) (obj : N) :
    Outcome N (List (String × Encoded ν β)) :=
  convertWith g (encodeValue_ g options fuel) [] obj

end Converter

/-! ## What the conversion is to be -/

section Unfolding

variable (g : Graph N ν β) (stringify : Bool)

mutual

/-- A value unfolds in the nodes that enclose it: a reference to one of them is
`[Circular]`, and any other to what it refers to. -/
inductive Unfolds : List N → Held N ν β → Encoded ν β → Prop
  | leaf {path : List N} {l : Leaf ν β} {x : Encoded ν β}
      (h : l.encode stringify = .ok x) :
      Unfolds path (.leaf l) x
  | circular {path : List N} {n : N}
      (hmem : n ∈ path) :
      Unfolds path (.ref n) (.stringValue "[Circular]")
  | object {path : List N} {n : N} {fields : List (String × Encoded ν β)}
      (hmem : n ∉ path)
      (hobject : (g n).isObject = true)
      (h : UnfoldsAll (n :: path) (defined (g n).entries) fields) :
      Unfolds path (.ref n) (.structValue fields)
  | array {path : List N} {n : N} {fields : List (String × Encoded ν β)}
      (hmem : n ∉ path)
      (harray : (g n).isObject = false)
      (h : UnfoldsAll (n :: path) (g n).entries fields) :
      Unfolds path (.ref n) (.listValue (fields.map Prod.snd))

inductive UnfoldsAll :
    List N → List (String × Held N ν β) → List (String × Encoded ν β) → Prop
  | nil {path : List N} : UnfoldsAll path [] []
  | cons {path : List N} {prop : String} {value : Held N ν β}
      {entries : List (String × Held N ν β)} {x : Encoded ν β}
      {fields : List (String × Encoded ν β)}
      (hvalue : Unfolds path value x)
      (h : UnfoldsAll path entries fields) :
      UnfoldsAll path ((prop, value) :: entries) ((prop, x) :: fields)

end

end Unfolding

end ObjectConversion
end SpannerClient
