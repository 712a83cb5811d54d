/-!
# Entities

What a filter text can be about. Only beatmaps have no lists: in their texts a slash is an ordinary
character.
-/

namespace RhythmFilter

inductive Entity where
  | score
  | beatmap
  | beatmapset
  deriving DecidableEq, Repr

namespace Entity

def all : List Entity := [.score, .beatmap, .beatmapset]

def name : Entity → String
  | .score => "score"
  | .beatmap => "beatmap"
  | .beatmapset => "beatmapset"

/-- Filter texts of the entity may ask for one of several values. -/
def hasLists : Entity → Bool
  | .beatmap => false
  | _ => true

end Entity

end RhythmFilter
