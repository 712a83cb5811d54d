import RhythmFilter.Json.Quoted
import RhythmFilter.Json.Tree

/-!
# Writing JSON texts

`compact` uses no space at all. `pretty` gives every item and every member a line of its own, two
spaces deeper than the line that opens the array or object; an empty one stays on its line.
-/

namespace RhythmFilter.Json

open Text

def writeText (s : String) : List Char := quote s.toList

def writeBool (b : Bool) : List Char := if b then "true".toList else "false".toList

mutual

def compactChars : Json → List Char
  | .null => "null".toList
  | .bool b => writeBool b
  | .number n => n.write
  | .string s => writeText s
  | .array items => '[' :: compactItems items ++ [']']
  | .object members => '{' :: compactMembers members ++ ['}']

def compactItems : List Json → List Char
  | [] => []
  | [x] => compactChars x
  | x :: y :: xs => compactChars x ++ ',' :: compactItems (y :: xs)

def compactMembers : Members → List Char
  | [] => []
  | [(k, v)] => writeText k ++ ':' :: compactChars v
  | (k, v) :: m :: ms => writeText k ++ ':' :: compactChars v ++ ',' :: compactMembers (m :: ms)

end

def newLine (depth : Nat) : List Char := '\n' :: List.replicate (2 * depth) ' '

mutual

def prettyChars (depth : Nat) : Json → List Char
  | .null => "null".toList
  | .bool b => writeBool b
  | .number n => n.write
  | .string s => writeText s
  | .array [] => "[]".toList
  | .array (x :: xs) =>
    '[' :: newLine (depth + 1) ++ prettyItems (depth + 1) (x :: xs) ++ newLine depth ++ [']']
  | .object [] => "\x7b\x7d".toList
  | .object (m :: ms) =>
    '{' :: newLine (depth + 1) ++ prettyMembers (depth + 1) (m :: ms) ++ newLine depth ++ ['}']

def prettyItems (depth : Nat) : List Json → List Char
  | [] => []
  | [x] => prettyChars depth x
  | x :: y :: xs => prettyChars depth x ++ ',' :: newLine depth ++ prettyItems depth (y :: xs)

def prettyMembers (depth : Nat) : Members → List Char
  | [] => []
  | [(k, v)] => writeText k ++ ": ".toList ++ prettyChars depth v
  | (k, v) :: m :: ms =>
    writeText k ++ ": ".toList ++ prettyChars depth v ++ ',' :: newLine depth ++
      prettyMembers depth (m :: ms)

end

def Tree.compact (j : Json) : String := String.ofList (compactChars j)

def Tree.pretty (j : Json) : String := String.ofList (prettyChars 0 j)

end RhythmFilter.Json
