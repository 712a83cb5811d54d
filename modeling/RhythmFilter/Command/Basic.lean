import RhythmFilter.Text.Case
import RhythmFilter.Text.Integer
import RhythmFilter.Text.Pieces

/-!
# Commands

What a user can ask for on the command line. A command is named by its first word; how the other words
make up what it is about depends on the command.
-/

namespace RhythmFilter

open Text

inductive Verb where
  | score
  | beatmap
  | beatmapset
  | mods
  | sort
  | users
  deriving DecidableEq, Repr

namespace Verb

def all : List Verb := [.score, .beatmap, .beatmapset, .mods, .sort, .users]

def name : Verb → String
  | .score => "score"
  | .beatmap => "beatmap"
  | .beatmapset => "beatmapset"
  | .mods => "mods"
  | .sort => "sort"
  | .users => "users"

def ofName? (text : String) : Option Verb := all.find? fun v => v.name = text

end Verb

inductive Command where
  | score (filters : String)
  | beatmap (filters : String)
  | beatmapset (filters : String)
  | mods (filter : String)
  | sort (acronyms : List String)
  | users (ids : List Int)
  deriving DecidableEq, Repr

/-- What may be said besides the command. A verbose run keeps a log, which is no part of its
outcome. -/
structure Options where
  mode : Option String := none
  json : Bool := false
  verbose : Bool := false
  deriving DecidableEq, Repr

inductive UsageFault where
  | modeWithoutValue
  | unknownCommand (argument : String)
  | noCommand
  | invalidUserId (text : String)
  deriving DecidableEq, Repr

def UsageFault.message : UsageFault → String
  | .modeWithoutValue => "--mode requires a value"
  | .unknownCommand argument => "Unknown command: " ++ argument
  | .noCommand => "No command specified. Use: score, beatmap, beatmapset, mods, sort, or users"
  | .invalidUserId text => "Invalid user ID: " ++ text

/-- The acronyms in words that may hold several, separated by commas, in upper case. -/
def acronymsOfWords (ws : List String) : List String :=
  ((ws.flatMap fun w => commaPieces w.toList).filter (· ≠ [])).map fun a => String.ofList (upper a)

def userId (piece : List Char) : Except UsageFault Int :=
  match readInt64? piece with
  | some id => .ok id
  | none => .error (.invalidUserId (String.ofList piece))

def userIds (text : String) : Except UsageFault (List Int) :=
  (((commaPieces text.toList).map trim).filter (· ≠ [])).mapM userId

namespace Command

def ofWords (ws : List String) : Verb → Except UsageFault Command
  | .score => .ok (.score (" ".intercalate ws))
  | .beatmap => .ok (.beatmap (" ".intercalate ws))
  | .beatmapset => .ok (.beatmapset (" ".intercalate ws))
  | .mods => .ok (.mods (String.join ws))
  | .sort => .ok (.sort (acronymsOfWords ws))
  | .users => (userIds (",".intercalate ws)).map .users

end Command

end RhythmFilter
