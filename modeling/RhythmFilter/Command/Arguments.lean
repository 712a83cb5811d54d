import RhythmFilter.Command.Basic

/-!
# Arguments

Arguments are read from left to right. Options may stand anywhere; `--mode` takes the argument behind
it, whatever that is. The first other argument must be the word of a command, and all that follow are
words of that command, also if they look like a command or an option of another kind.
-/

namespace RhythmFilter

structure Draft where
  verb : Option Verb := none
  words : List String := []
  options : Options := {}
  deriving DecidableEq, Repr

namespace Draft

def setMode (d : Draft) (mode : String) : Draft := { d with options.mode := some mode }

def addWord (d : Draft) (arg : String) : Except UsageFault Draft :=
  match d.verb with
  | some _ => .ok { d with words := d.words ++ [arg] }
  | none =>
    match Verb.ofName? arg with
    | some v => .ok { d with verb := some v }
    | none => .error (.unknownCommand arg)

/-- The draft with one more argument; `--mode` is not met here. -/
def add (d : Draft) (arg : String) : Except UsageFault Draft :=
  if arg = "--json" then .ok { d with options.json := true }
  else if arg = "--verbose" ∨ arg = "-v" then .ok { d with options.verbose := true }
  else d.addWord arg

def read (d : Draft) : List String → Except UsageFault Draft
  | [] => .ok d
  | arg :: args =>
    if arg = "--mode" then
      match args with
      | [] => .error .modeWithoutValue
      | mode :: args => (d.setMode mode).read args
    else do
      let d ← d.add arg
      d.read args

def command (d : Draft) : Except UsageFault Command :=
  match d.verb with
  | some v => Command.ofWords d.words v
  | none => .error .noCommand

end Draft

def readArguments (args : List String) : Except UsageFault (Command × Options) := do
  let d ← Draft.read {} args
  let command ← d.command
  return (command, d.options)

end RhythmFilter
