import RhythmFilter.Json.Writing
import RhythmFilter.ModFilter.Basic
import RhythmFilter.Query.Predicate

/-!
# Reports

What a command finds, and how it is shown: as lines for people to read, or as JSON. Either form ends
in a line end.
-/

namespace RhythmFilter

inductive Report where
  | predicates (ps : List Predicate)
  | modFilter (f : ModFilter)
  | arranged (mode : Mode) (acronyms : List String)

namespace Report

def line (text : String) : String := text ++ "\n"

/-- The lines of a listing; a listing of nothing says so. -/
def listing : List String → String
  | [] => line "No filters"
  | texts => String.join (texts.map line)

def demandText : Demand → String
  | .wanted a => "enabled_mods contains " ++ a
  | .unwanted a => "enabled_mods does not contain " ++ a

def text : Report → String
  | .predicates ps => listing (ps.map Predicate.text)
  | .modFilter (.exact acronyms) => line ("enabled_mods = \"" ++ " ".intercalate acronyms ++ "\"")
  | .modFilter (.demands ds) => listing (ds.map demandText)
  | .arranged mode acronyms => line (mode.title ++ ": " ++ " ".intercalate acronyms)

/-- The members of arranged acronyms stand in the order of their keys, on one line. -/
def jsonText : Report → String
  | .predicates ps => line (Json.Tree.pretty (.array (ps.map Predicate.toJson)))
  | .modFilter f => line f.toJson.pretty
  | .arranged mode acronyms =>
    line (Json.Tree.compact (.object [
      ("mod_string", .string (" ".intercalate acronyms)),
      ("mode", .string mode.name),
      ("mods", .array (acronyms.map .string))]))

def render (json : Bool) (r : Report) : String := if json then r.jsonText else r.text

end Report

end RhythmFilter
