import RhythmFilter.Text.WordTable

/-!
# Runs of mods

A run is a sign and one or more word characters. `isRuns` says whether a text is a row of runs and
nothing else; `runs` finds the runs in any text.
-/

namespace RhythmFilter

open Text

inductive Sign where
  | plus
  | minus
  deriving DecidableEq, Repr

namespace Sign

def char : Sign → Char
  | .plus => '+'
  | .minus => '-'

def ofChar? (c : Char) : Option Sign :=
  if c = '+' then some .plus else if c = '-' then some .minus else none

end Sign

structure Run where
  sign : Sign
  mods : List Char
  deriving DecidableEq, Repr

def Run.text (r : Run) : List Char := r.sign.char :: r.mods

inductive RunState where
  | start
  | sign
  | word
  deriving DecidableEq, Repr

namespace RunState

def step? : RunState → Char → Option RunState
  | .sign, c => if isWordChar c then some .word else none
  | .start, c => (Sign.ofChar? c).map fun _ => .sign
  | .word, c => if isWordChar c then some .word else (Sign.ofChar? c).map fun _ => .sign

/-- The text completes a row of runs of which the part read so far ends in this state. -/
def completes : RunState → List Char → Bool
  | state, [] => state = .word
  | state, c :: s =>
    match state.step? c with
    | some next => next.completes s
    | none => false

end RunState

def isRuns (s : List Char) : Bool := RunState.start.completes s

/-- The word characters at the front of the text, and the runs behind them. A sign with no word
character behind it begins no run. -/
def scanRuns : List Char → List Char × List Run
  | [] => ([], [])
  | c :: s =>
    let (word, found) := scanRuns s
    if isWordChar c then (c :: word, found)
    else
      match Sign.ofChar? c with
      | some sign => ([], if word = [] then found else ⟨sign, word⟩ :: found)
      | none => ([], found)

/-- The runs in a text, from left to right, each as long as it can be. -/
def runs (s : List Char) : List Run := (scanRuns s).2

end RhythmFilter
