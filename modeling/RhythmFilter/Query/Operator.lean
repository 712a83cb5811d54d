import RhythmFilter.Entity

/-!
# Operators

A filter text compares a field with a value, or, with a slash, asks for one of several values. The
characters of an entity's operators cannot stand in its fields and values.
-/

namespace RhythmFilter

inductive Operator where
  | eq
  | ne
  | gt
  | lt
  | ge
  | le
  | oneOf
  deriving DecidableEq, Repr

namespace Operator

def all : List Operator := [.eq, .ne, .gt, .lt, .ge, .le, .oneOf]

def symbol : Operator → String
  | .eq => "="
  | .ne => "!="
  | .gt => ">"
  | .lt => "<"
  | .ge => ">="
  | .le => "<="
  | .oneOf => "/"

/-- How the operator is called in JSON output. -/
def name : Operator → String
  | .eq => "eq"
  | .ne => "ne"
  | .gt => "gt"
  | .lt => "lt"
  | .ge => "ge"
  | .le => "le"
  | .oneOf => "contains_list"

def ofSymbol? (symbol : String) : Option Operator := all.find? fun o => o.symbol = symbol

theorem mem_all (o : Operator) : o ∈ all := by cases o <;> decide

theorem ofSymbol?_symbol (o : Operator) : ofSymbol? o.symbol = some o := by cases o <;> decide

end Operator

namespace Entity

def operatorChars (e : Entity) : List Char :=
  if e.hasLists then ['<', '>', '=', '!', '/'] else ['<', '>', '=', '!']

def isOperatorChar (e : Entity) (c : Char) : Bool := e.operatorChars.contains c

def allows (e : Entity) (o : Operator) : Bool := o ≠ .oneOf || e.hasLists

end Entity

end RhythmFilter
