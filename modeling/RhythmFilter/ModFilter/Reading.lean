import RhythmFilter.ModFilter.Basic
import RhythmFilter.ModFilter.Run
import RhythmFilter.Mode.Id
import RhythmFilter.Mode.Order

/-!
# Reading mod filters

Letter case and blanks do not matter. Behind an exclamation mark stand the acronyms of an exact
filter; otherwise the text is a row of runs, `+` before wanted mods and `-` before unwanted ones. The
acronyms of a filter text have two characters each, without anything between them, and the mode must
know them all.
-/

namespace RhythmFilter

open Text

def Sign.demand : Sign → String → Demand
  | .plus, a => .wanted a
  | .minus, a => .unwanted a

namespace ModFilter

def normalize (text : String) : List Char := squeeze (upper text.toList)

def refuse {α : Type} (part : List Char) (reason : Reason) : Except Refusal α :=
  .error (.malformed (String.ofList part) reason)

/-- The acronyms of a run of the text `part`. A run of odd length is a fault of the whole text. -/
def acronymsOf (part run : List Char) : Except Refusal (List String) :=
  if run.length % 2 = 0 then .ok ((pairs run).map String.ofList)
  else refuse part (.oddLength (String.ofList run))

def readExact (m : Mode) (part run : List Char) : Except Refusal ModFilter :=
  if run.any (['+', '-', '!'].contains ·) then refuse part .signInExact
  else do
    let acronyms ← acronymsOf part run
    let arranged ← m.arrange acronyms
    return .exact arranged

def readRun (m : Mode) (part : List Char) (r : Run) : Except Refusal (List Demand) := do
  let acronyms ← acronymsOf part r.mods
  match acronyms.find? fun a => !m.knows a with
  | some a => .error (.unknownAcronym m a)
  | none => .ok (acronyms.map r.sign.demand)

def readRuns (m : Mode) (part : List Char) : Except Refusal ModFilter :=
  if isRuns part then do
    let ds ← (runs part).mapM (readRun m part)
    return .demands ds.flatten
  else refuse part .notRuns

def ofNormal (m : Mode) (part : List Char) : Except Refusal ModFilter :=
  match part with
  | [] => .ok empty
  | '!' :: run => readExact m part run
  | _ => readRuns m part

def ofText (m : Mode) (text : String) : Except Refusal ModFilter := ofNormal m (normalize text)

def ofText? (m : Mode) : Option String → Except Refusal ModFilter
  | none => .ok empty
  | some text => ofText m text

/-- A filter that a caller gives for a mode. The mode is looked at first. -/
def request (mode : ModeId) (text : Option String) : Except Refusal ModFilter := do
  let m ← Mode.resolve mode
  ofText? m text

end ModFilter

end RhythmFilter
