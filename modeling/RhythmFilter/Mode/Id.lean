import RhythmFilter.Json.Tree
import RhythmFilter.Refusal

/-!
# Naming a mode

A caller names a mode by its name, by its ordinal as a number, or by its ordinal as one digit of text.
In a JSON value a mode is its name, or an object whose one member has that name as key and holds null.
-/

namespace RhythmFilter

inductive ModeId where
  | name (text : String)
  | ordinal (number : Int)
  deriving DecidableEq, Repr

def ModeId.text : ModeId → String
  | .name text => text
  | .ordinal number => String.ofList (Text.writeInt number)

namespace Mode

def ofId? : ModeId → Option Mode
  | .name text =>
    all.find? fun m => m.name = text ∨ String.singleton (Text.digitChar m.ordinal) = text
  | .ordinal number => all.find? fun m => (m.ordinal : Int) = number

def resolve (id : ModeId) : Except Refusal Mode :=
  match ofId? id with
  | some m => .ok m
  | none => .error (.unknownMode id.text)

def toJson (m : Mode) : Json := .string m.name

def ofJson? : Json → Option Mode
  | .string s => ofName? s
  | .object [(key, .null)] => ofName? key
  | _ => none

end Mode

end RhythmFilter
