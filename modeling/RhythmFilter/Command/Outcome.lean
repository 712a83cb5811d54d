import RhythmFilter.Command.Arguments
import RhythmFilter.Command.Help
import RhythmFilter.Command.Report
import RhythmFilter.ModFilter.Reading
import RhythmFilter.Preferences.Basic
import RhythmFilter.Query.Request

/-!
# Outcomes

What one run of the program leaves behind: an exit code and two texts. Options come before
preferences. A mode that is given must exist, also for a command that does not use it.
-/

namespace RhythmFilter

namespace Command

/-- The mode of a run: the given one, or the preferred one. -/
def effectiveMode (preferred : Preferences) (options : Options) : Except Refusal Mode :=
  match options.mode with
  | some text => Mode.resolve (.name text)
  | none => .ok preferred.mode

def report (m : Mode) : Command → Except Refusal Report
  | .score filters => (scoreFilters m filters).map .predicates
  | .beatmap filters => (beatmapFilters filters).map .predicates
  | .beatmapset filters => (beatmapsetFilters filters).map .predicates
  | .users ids => .ok (.predicates (userFilters m ids))
  | .mods filter => (ModFilter.ofText m filter).map .modFilter
  | .sort acronyms => (m.arrange acronyms).map (.arranged m)

def run (preferred : Preferences) (command : Command) (options : Options) :
    Except Refusal String := do
  let m ← effectiveMode preferred options
  let report ← command.report m
  return report.render (options.json || preferred.json)

end Command

structure Outcome where
  exitCode : Nat
  output : String
  errors : String
  deriving DecidableEq, Repr

namespace Outcome

def success (output : String) : Outcome := ⟨0, output, ""⟩

def refused (refusal : Refusal) : Outcome := ⟨1, "", "Error: " ++ refusal.message ++ "\n"⟩

/-- Arguments that make up no command are answered with the help text. -/
def misused (fault : UsageFault) : Outcome := ⟨1, helpText, "Error: " ++ fault.message ++ "\n\n"⟩

def asksForHelp (args : List String) : Bool :=
  args.isEmpty || args.any fun arg => arg = "--help" ∨ arg = "-h"

def ofArguments (preferred : Preferences) (args : List String) : Outcome :=
  if asksForHelp args then success helpText
  else
    match readArguments args with
    | .error fault => misused fault
    | .ok (command, options) =>
      match command.run preferred options with
      | .error refusal => refused refusal
      | .ok output => success output

end Outcome

end RhythmFilter
