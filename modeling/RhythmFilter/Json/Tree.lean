import RhythmFilter.Json.Number

/-!
# JSON values

`Tree σ ν` is a JSON value whose strings are of type `σ`, whose numbers are of type `ν`, and whose
objects keep their members in order, repeated keys included. Two instances matter. A `Document` is what
a text spells: a string is `none` if its escapes leave half of a surrogate pair, and a number is `none`
if it is too large, because a reader may pass over these but cannot use them. A `Json` value has proper
strings and numbers everywhere.

`canonical` makes an object a finite map: members in the order of their keys, and of a repeated key
the last.
-/

namespace RhythmFilter.Json

inductive Tree (σ ν : Type) where
  | null
  | bool (b : Bool)
  | number (n : ν)
  | string (s : σ)
  | array (items : List (Tree σ ν))
  | object (members : List (σ × Tree σ ν))

end RhythmFilter.Json

namespace RhythmFilter

abbrev Json := Json.Tree String Json.Number

namespace Json

abbrev Document := Tree (Option String) (Option Number)

abbrev Members := List (String × Json)

mutual

/-- The value with its strings and numbers, if all of them are proper. -/
def Tree.proper? : Document → Option Json
  | .null => some .null
  | .bool b => some (.bool b)
  | .number n => n.map .number
  | .string s => s.map .string
  | .array items => (properItems? items).map .array
  | .object members => (properMembers? members).map .object

def properItems? : List Document → Option (List Json)
  | [] => some []
  | x :: xs =>
    match x.proper?, properItems? xs with
    | some x, some xs => some (x :: xs)
    | _, _ => none

def properMembers? : List (Option String × Document) → Option Members
  | [] => some []
  | (k, v) :: ms =>
    match k, v.proper?, properMembers? ms with
    | some k, some v, some ms => some ((k, v) :: ms)
    | _, _, _ => none

end

def insertMember (key : String) (value : Json) : Members → Members
  | [] => [(key, value)]
  | (k, v) :: ms =>
    if key < k then (key, value) :: (k, v) :: ms
    else if key = k then (key, value) :: ms
    else (k, v) :: insertMember key value ms

/-- The members by their keys; of a repeated key the last. -/
def sortMembers (ms : Members) : Members :=
  ms.foldl (fun sorted m => insertMember m.1 m.2 sorted) []

mutual

def Tree.canonical : Json → Json
  | .null => .null
  | .bool b => .bool b
  | .number n => .number n
  | .string s => .string s
  | .array items => .array (canonicalItems items)
  | .object members => .object (sortMembers (canonicalMembers members))

def canonicalItems : List Json → List Json
  | [] => []
  | x :: xs => x.canonical :: canonicalItems xs

def canonicalMembers : Members → Members
  | [] => []
  | (k, v) :: ms => (k, v.canonical) :: canonicalMembers ms

end

/-- The value of a member; `none` if the value is no object or has no such key. -/
def Tree.member? (key : String) : Json → Option Json
  | .object ms => ms.lookup key
  | _ => none

end Json

end RhythmFilter
