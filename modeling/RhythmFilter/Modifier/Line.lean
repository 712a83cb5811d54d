import RhythmFilter.Mode.Order
import RhythmFilter.Modifier.Basic
import RhythmFilter.Text.Pieces

/-!
# Mod lines

The form in which a score's mods are stored: the acronyms in one line of text, joined by spaces and
without blanks at its ends, and beside it the settings of the mods that have some. Reading the line
back cuts it at its blanks.
-/

namespace RhythmFilter

open Text

structure ModLine where
  mods : String
  settings : Option (List (String × Json.Members))

namespace ModLine

def empty : ModLine := ⟨"", none⟩

/-- The acronyms and settings of the modifiers that have settings, if any has. -/
def gatherSettings (ms : List Modifier) : Option (List (String × Json.Members)) :=
  match ms.filterMap fun m => m.settings.map fun s => (m.acronym, s) with
  | [] => none
  | gathered => some gathered

def ofModifiers (ms : List Modifier) : ModLine where
  mods := String.ofList (trim (" ".intercalate (ms.map Modifier.acronym)).toList)
  settings := gatherSettings ms

def acronyms (l : ModLine) : List String := (words l.mods.toList).map String.ofList

def isNomod (l : ModLine) : Bool := l.mods.isEmpty

/-- The line with its acronyms in the order of a mode that knows them all. -/
def canonicalize (m : Mode) (l : ModLine) : Except Refusal ModLine :=
  (m.arrange l.acronyms).map fun acronyms => { l with mods := " ".intercalate acronyms }

end ModLine

end RhythmFilter
