import RhythmFilter.Json.Tree
import RhythmFilter.Mode.Basic
import RhythmFilter.Query.Field
import RhythmFilter.Query.Operator

/-!
# Predicates

What a filter text asks of stored records: a column of a table is compared with one text, or with each
of a list of texts. A list of predicates asks for all of them.
-/

namespace RhythmFilter

/-- A field in its table. The scores of each mode have a table of their own. -/
inductive Handle where
  | score (mode : Mode) (field : ScoreField)
  | beatmap (field : BeatmapField)
  | beatmapset (field : BeatmapsetField)
  deriving DecidableEq, Repr

namespace Handle

def table : Handle → String
  | .score mode _ => mode.scoreTable
  | .beatmap _ => "beatmaps"
  | .beatmapset _ => "beatmapsets"

def column : Handle → String
  | .score _ field => FieldList.column field
  | .beatmap field => FieldList.column field
  | .beatmapset field => FieldList.column field

def fieldName : Handle → String
  | .score _ field => FieldList.name field
  | .beatmap field => FieldList.name field
  | .beatmapset field => FieldList.name field

def text (h : Handle) : String := h.table ++ "." ++ h.column

def toJson (h : Handle) : Json := .object [("table", .string h.table), ("column", .string h.column)]

end Handle

/-- What a column is compared with. Texts stay as they are given. -/
inductive Operand where
  | single (text : String)
  | list (entries : List String)
  deriving DecidableEq, Repr

namespace Operand

def single? : Operand → Option String
  | .single text => some text
  | .list _ => none

def list? : Operand → Option (List String)
  | .single _ => none
  | .list entries => some entries

def text : Operand → String
  | .single text => text
  | .list entries => "[" ++ ", ".intercalate entries ++ "]"

def toJson : Operand → Json
  | .single text => .string text
  | .list entries => .array (entries.map .string)

def filterText : Operand → String
  | .single text => text
  | .list entries => ",".intercalate entries

end Operand

structure Predicate where
  handle : Handle
  operator : Operator
  operand : Operand
  deriving DecidableEq, Repr

namespace Predicate

def compare (handle : Handle) (operator : Operator) (text : String) : Predicate :=
  ⟨handle, operator, .single text⟩

def oneOf (handle : Handle) (entries : List String) : Predicate := ⟨handle, .oneOf, .list entries⟩

def text (p : Predicate) : String := p.handle.text ++ " " ++ p.operator.symbol ++ " " ++ p.operand.text

def toJson (p : Predicate) : Json := .object [
  ("field", p.handle.toJson), ("op", .string p.operator.name), ("value", p.operand.toJson)]

def render (ps : List Predicate) : String :=
  " ".intercalate (ps.map fun p => p.handle.fieldName ++ p.operator.symbol ++ p.operand.filterText)

end Predicate

end RhythmFilter
