import RhythmFilter.Json.Reading
import RhythmFilter.Json.Writing
import RhythmFilter.Mode.Id

/-!
# Preferences

What a user prefers where a command does not say: a mode, and whether output is JSON. Preferences are
written as a JSON object with the members `default_mode` and `json`. They may also be read from an
array of the two. A missing one has its default, other members do not matter, and a member that
matters may stand there once only.
-/

namespace RhythmFilter

open Json (Document)

structure Preferences where
  mode : Mode := .osu
  json : Bool := false
  deriving DecidableEq, Repr

namespace Preferences

inductive Failure where
  | unreadable
  | malformed
  deriving DecidableEq, Repr

def mode? (d : Document) : Option Mode := d.proper?.bind Mode.ofJson?

def flag? : Document → Option Bool
  | .bool b => some b
  | _ => none

/-- The value of a member that may stand there once. -/
def member? {α : Type} (key : String) (read : Document → Option α) (absent : α)
    (ms : List (Option String × Document)) : Option α :=
  match ms.filter fun m => m.1 = some key with
  | [] => some absent
  | [m] => read m.2
  | _ => none

def ofMembers? (ms : List (Option String × Document)) : Option Preferences :=
  if ms.all fun m => m.1.isSome then do
    let mode ← member? "default_mode" mode? .osu ms
    let json ← member? "json" flag? false ms
    return ⟨mode, json⟩
  else none

def ofDocument? : Document → Option Preferences
  | .object ms => ofMembers? ms
  | .array [] => some {}
  | .array [mode] => do return ⟨← mode? mode, false⟩
  | .array [mode, json] => do return ⟨← mode? mode, ← flag? json⟩
  | _ => none

def ofText? (text : String) : Option Preferences := (Document.ofText? text).bind ofDocument?

def toJson (p : Preferences) : Json :=
  .object [("default_mode", p.mode.toJson), ("json", .bool p.json)]

def toText (p : Preferences) : String := p.toJson.pretty

/-- Preferences from the content of a file, which must be a UTF-8 text; `none` stands for a file that
cannot be read. -/
def ofContent : Option ByteArray → Except Failure Preferences
  | none => .error .unreadable
  | some content =>
    match String.fromUTF8? content with
    | none => .error .unreadable
    | some text =>
      match ofText? text with
      | none => .error .malformed
      | some p => .ok p

def ofContentOrDefault (content : Option ByteArray) : Preferences :=
  match ofContent content with
  | .ok p => p
  | .error _ => {}

end Preferences

end RhythmFilter
