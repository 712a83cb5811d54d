import RhythmFilter.Command.Outcome
import RhythmFilter.Preferences.Store

/-!
# The program

Reads the user's preferences, works out the outcome and prints it.
-/

namespace RhythmFilter

def readContent (path : String) : IO (Option ByteArray) := do
  try
    return some (← IO.FS.readBinFile path)
  catch _ =>
    return none

def preferences : IO Preferences := do
  match ← IO.getEnv "HOME" with
  | none => return {}
  | some home =>
    let settings ← IO.getEnv "XDG_CONFIG_HOME"
    return .ofContentOrDefault (← readContent (Preferences.location settings home))

end RhythmFilter

def main (args : List String) : IO UInt32 := do
  let outcome := RhythmFilter.Outcome.ofArguments (← RhythmFilter.preferences) args
  IO.print outcome.output
  IO.eprint outcome.errors
  return outcome.exitCode.toUInt32
