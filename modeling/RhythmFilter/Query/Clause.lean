import RhythmFilter.Query.Operator
import RhythmFilter.Refusal
import RhythmFilter.Text.Case
import RhythmFilter.Text.Pieces

/-!
# Clauses

A filter text is a row of words with blanks between them, read in lower case. Each word is a clause: a
field, an operator and a value, none of them empty, where field and value hold no character that
operators are made of.
-/

namespace RhythmFilter

open Text

structure Clause where
  field : String
  operator : Operator
  value : String
  deriving DecidableEq, Repr

namespace Clause

def text (c : Clause) : String := c.field ++ c.operator.symbol ++ c.value

/-- Reads a word. The field ends where the first operator character stands, and the operator where the
next other character stands. -/
def ofWord (e : Entity) (word : List Char) : Except Refusal Clause :=
  let field := word.takeWhile fun c => !e.isOperatorChar c
  let rest := word.dropWhile fun c => !e.isOperatorChar c
  let symbol := rest.takeWhile e.isOperatorChar
  let value := rest.dropWhile e.isOperatorChar
  let refuse (reason : Reason) : Except Refusal Clause :=
    .error (.malformed (String.ofList word) reason)
  if rest = [] then refuse .noOperator
  else if field = [] then refuse .missingField
  else if value = [] then refuse .missingValue
  else if value.any e.isOperatorChar then refuse .secondOperator
  else
    match (Operator.ofSymbol? (String.ofList symbol)).filter e.allows with
    | some operator => .ok ⟨String.ofList field, operator, String.ofList value⟩
    | none => refuse (.unknownOperator (String.ofList symbol))

/-- The clauses of a filter text; refuses the first word that is no clause. -/
def ofText (e : Entity) (text : String) : Except Refusal (List Clause) :=
  (words (lower text.toList)).mapM (ofWord e)

def render (cs : List Clause) : String := " ".intercalate (cs.map text)

end Clause

end RhythmFilter
