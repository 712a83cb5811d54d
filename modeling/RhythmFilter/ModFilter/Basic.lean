import RhythmFilter.Json.Tree
import RhythmFilter.Text.Case
import RhythmFilter.Text.Pieces

/-!
# Mod filters

A mod filter asks for scores with exactly the mods of a list, or for scores that satisfy every one of
a list of demands. Its meaning is given on the stored line of mods: an exact filter compares the whole
line, and a demand looks for its acronym in the line, in any letter case.
-/

namespace RhythmFilter

open Text

inductive Demand where
  | wanted (acronym : String)
  | unwanted (acronym : String)
  deriving DecidableEq, Repr

namespace Demand

def acronym : Demand → String
  | .wanted a => a
  | .unwanted a => a

/-- The acronym stands somewhere in the line once the line is in upper case. -/
def occurs (acronym line : String) : Bool := occursIn acronym.toList (upper line.toList)

def accepts (line : String) : Demand → Bool
  | .wanted a => occurs a line
  | .unwanted a => !occurs a line

def text : Demand → String
  | .wanted a => "+" ++ a
  | .unwanted a => "-" ++ a

def toJson : Demand → Json
  | .wanted a => .object [("kind", .string "include"), ("acronym", .string a)]
  | .unwanted a => .object [("kind", .string "exclude"), ("acronym", .string a)]

end Demand

inductive ModFilter where
  | exact (acronyms : List String)
  | demands (ds : List Demand)
  deriving DecidableEq, Repr

namespace ModFilter

def empty : ModFilter := .demands []

def isEmpty : ModFilter → Bool
  | .exact _ => false
  | .demands ds => ds.isEmpty

def exactLine? : ModFilter → Option String
  | .exact acronyms => some (" ".intercalate acronyms)
  | .demands _ => none

def accepts (line : String) : ModFilter → Bool
  | .exact acronyms => line = " ".intercalate acronyms
  | .demands ds => ds.all (·.accepts line)

def render : ModFilter → String
  | .exact acronyms => "!" ++ String.join acronyms
  | .demands ds => String.join (ds.map Demand.text)

def toJson : ModFilter → Json
  | .exact acronyms =>
    .object [("kind", .string "exact"), ("mods", .array (acronyms.map .string))]
  | .demands ds => .object [("kind", .string "constraints"), ("mods", .array (ds.map Demand.toJson))]

end ModFilter

end RhythmFilter
