import RhythmFilter.ModFilter.Reading
import RhythmFilter.Modifier.Line

/-!
# Sessions

A session keeps a mode, a stored line of mods and a mod filter, and changes them step by step. The line
can be made an exact filter, and the acronyms of an exact filter the line. A step that is refused
changes nothing.
-/

namespace RhythmFilter

structure Session where
  mode : Mode
  line : ModLine
  filter : ModFilter

namespace Session

def start : Session := ⟨.osu, .empty, .empty⟩

inductive Step where
  | mode (id : ModeId)
  | list (modifiers : List Modifier)
  | sort
  | filter (text : Option String)
  | ask
  | exactOfLine
  | lineOfExact

inductive Reply where
  | done
  | answer (accepted : Bool)
  | refused (refusal : Refusal)
  deriving DecidableEq, Repr

/-- Changes the session by the result of an attempt, if it succeeds. -/
def attempt {α : Type} (s : Session) (change : α → Session) : Except Refusal α → Reply × Session
  | .ok a => (.done, change a)
  | .error refusal => (.refused refusal, s)

def step (s : Session) : Step → Reply × Session
  | .mode id => s.attempt (fun m => { s with mode := m }) (Mode.resolve id)
  | .list modifiers => (.done, { s with line := .ofModifiers modifiers })
  | .sort => s.attempt (fun l => { s with line := l }) (s.line.canonicalize s.mode)
  | .filter text =>
    s.attempt (fun f => { s with filter := f }) (ModFilter.ofText? s.mode text)
  | .ask => (.answer (s.filter.accepts s.line.mods), s)
  | .exactOfLine =>
    s.attempt (fun f => { s with filter := f }) (ModFilter.ofText s.mode ("!" ++ s.line.mods))
  | .lineOfExact =>
    match s.filter with
    | .exact acronyms => (.done, { s with line := .ofModifiers (acronyms.map (⟨·, none⟩)) })
    | .demands _ => (.done, s)

def run (s : Session) (steps : List Step) : Session := steps.foldl (fun s step => (s.step step).2) s

end Session

end RhythmFilter
