/-!
# Ranks

The grades of a score. A text may name several in a row; what names none is passed over. Silver ranks
end in `H`, so `X` and `S` name the silver rank if an `H` follows.
-/

namespace RhythmFilter

inductive Rank where
  | silverX
  | silverS
  | x
  | s
  | a
  | b
  | c
  | d
  deriving DecidableEq, Repr

namespace Rank

/-- Silver ranks come first, so that the first code that fits a text is the longest. -/
def all : List Rank := [.silverX, .silverS, .x, .s, .a, .b, .c, .d]

def code : Rank → String
  | .silverX => "XH"
  | .silverS => "SH"
  | .x => "X"
  | .s => "S"
  | .a => "A"
  | .b => "B"
  | .c => "C"
  | .d => "D"

def atFront? (text : List Char) : Option Rank := all.find? fun r => r.code.toList.isPrefixOf text

/-- The ranks that the text names, from left to right. Codes do not overlap: `H` begins none. -/
def scan : List Char → List Rank
  | [] => []
  | first :: text => (atFront? (first :: text)).toList ++ scan text

end Rank

end RhythmFilter
