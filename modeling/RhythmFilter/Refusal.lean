import RhythmFilter.Entity
import RhythmFilter.Mode.Basic

/-!
# Refusals

Why an input is not accepted. Every refusal names what is wrong in the input; `message` is its
wording.
-/

namespace RhythmFilter

inductive Reason where
  | noOperator
  | missingField
  | missingValue
  | secondOperator
  | unknownOperator (symbol : String)
  | listOutsideRank
  | noRank
  | emptyList
  | signInExact
  | oddLength (run : String)
  | notRuns
  deriving DecidableEq, Repr

def Reason.message : Reason → String
  | .noOperator => "no comparison operator"
  | .missingField => "missing field name"
  | .missingValue => "missing value"
  | .secondOperator => "more than one operator"
  | .unknownOperator symbol => "unrecognized operator '" ++ symbol ++ "'"
  | .listOutsideRank => "list filters only apply to rank"
  | .noRank => "no rank letters (XH, SH, X, S, A, B, C, D)"
  | .emptyList => "empty value list"
  | .signInExact => "exact mod filters cannot be combined with +/- runs"
  | .oddLength run => "'" ++ run ++ "' is not a sequence of two-letter acronyms"
  | .notRuns => "expected runs of +MODS or -MODS"

inductive Refusal where
  | unknownMode (text : String)
  | unknownAcronym (mode : Mode) (acronym : String)
  | unknownField (entity : Entity) (field : String)
  | malformed (part : String) (reason : Reason)
  deriving DecidableEq, Repr

def Refusal.message : Refusal → String
  | .unknownMode text => "Unknown game mode: " ++ text
  | .unknownAcronym mode acronym =>
    "Unknown mod acronym '" ++ acronym ++ "' for mode " ++ mode.name
  | .unknownField entity field => "Unknown " ++ entity.name ++ " field: " ++ field
  | .malformed part reason => "Malformed filter '" ++ part ++ "': " ++ reason.message

end RhythmFilter
