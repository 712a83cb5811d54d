/-!
# Game modes

The four ways to play. A mode has a name, a number, a table that holds its scores, and a title for
people to read.
-/

namespace RhythmFilter

inductive Mode where
  | osu
  | taiko
  | fruits
  | mania
  deriving DecidableEq, Repr

namespace Mode

/-- The modes by their ordinals. -/
def all : List Mode := [.osu, .taiko, .fruits, .mania]

def name : Mode → String
  | .osu => "osu"
  | .taiko => "taiko"
  | .fruits => "fruits"
  | .mania => "mania"

def ordinal : Mode → Nat
  | .osu => 0
  | .taiko => 1
  | .fruits => 2
  | .mania => 3

def scoreTable : Mode → String
  | .osu => "osu_scores"
  | .taiko => "taiko_scores"
  | .fruits => "catch_scores"
  | .mania => "mania_scores"

def title : Mode → String
  | .osu => "osu!"
  | .taiko => "osu!taiko"
  | .fruits => "osu!catch"
  | .mania => "osu!mania"

theorem mem_all (m : Mode) : m ∈ all := by cases m <;> decide

def ofName? (text : String) : Option Mode := all.find? fun m => m.name = text

theorem ofName?_name (m : Mode) : ofName? m.name = some m := by cases m <;> decide

end Mode

end RhythmFilter
