import RhythmFilter.Refusal

/-!
# Fields

The fields that filter texts may name, one closed list for each entity. A field has a name, used in
filter texts, and a column, which stores it. Most columns are called like their fields; where one is
not, filter texts still take the name of the field only.
-/

namespace RhythmFilter

/-- A closed list of fields of one entity. No two of them share a name or a column. -/
class FieldList (F : Type) where
  entity : Entity
  all : List F
  name : F → String
  column : F → String
  mem_all (f : F) : f ∈ all
  nodup_names : (all.map name).Nodup
  nodup_columns : (all.map column).Nodup

namespace FieldList

def find {F : Type} [FieldList F] (name : String) : Except Refusal F :=
  match (all (F := F)).find? fun f => FieldList.name f = name with
  | some f => .ok f
  | none => .error (.unknownField (entity F) name)

end FieldList

inductive ScoreField where
  | userId
  | date
  | accuracy
  | pp
  | rank
  | perfect
  | maxCombo
  | replay
  | stableScore
  | lazerScore
  | classicScore
  | count50
  | count100
  | count300
  | countMiss
  deriving DecidableEq, Repr

namespace ScoreField

def all : List ScoreField := [
  .userId, .date, .accuracy, .pp, .rank, .perfect, .maxCombo, .replay, .stableScore, .lazerScore,
  .classicScore, .count50, .count100, .count300, .countMiss]

def name : ScoreField → String
  | .userId => "user_id"
  | .date => "date"
  | .accuracy => "accuracy"
  | .pp => "pp"
  | .rank => "rank"
  | .perfect => "perfect"
  | .maxCombo => "max_combo"
  | .replay => "replay"
  | .stableScore => "stable_score"
  | .lazerScore => "lazer_score"
  | .classicScore => "classic_score"
  | .count50 => "count_50"
  | .count100 => "count_100"
  | .count300 => "count_300"
  | .countMiss => "count_miss"

def column : ScoreField → String
  | .maxCombo => "maxcombo"
  | .count50 => "count50"
  | .count100 => "count100"
  | .count300 => "count300"
  | .countMiss => "countmiss"
  | f => f.name

instance : FieldList ScoreField where
  entity := .score
  all := all
  name := name
  column := column
  mem_all f := by cases f <;> decide
  nodup_names := by decide
  nodup_columns := by decide

end ScoreField

inductive BeatmapField where
  | beatmapId
  | beatmapsetId
  | mapperId
  | totalLength
  | hitLength
  | countTotal
  | countNormal
  | countSlider
  | countSpinner
  | hp
  | cs
  | od
  | ar
  | status
  | stars
  | bpm
  | maxCombo
  deriving DecidableEq, Repr

namespace BeatmapField

def all : List BeatmapField := [
  .beatmapId, .beatmapsetId, .mapperId, .totalLength, .hitLength, .countTotal, .countNormal,
  .countSlider, .countSpinner, .hp, .cs, .od, .ar, .status, .stars, .bpm, .maxCombo]

def name : BeatmapField → String
  | .beatmapId => "beatmap_id"
  | .beatmapsetId => "beatmapset_id"
  | .mapperId => "mapper_id"
  | .totalLength => "total_length"
  | .hitLength => "hit_length"
  | .countTotal => "count_total"
  | .countNormal => "count_normal"
  | .countSlider => "count_slider"
  | .countSpinner => "count_spinner"
  | .hp => "hp"
  | .cs => "cs"
  | .od => "od"
  | .ar => "ar"
  | .status => "status"
  | .stars => "stars"
  | .bpm => "bpm"
  | .maxCombo => "max_combo"

/-- The status of a beatmap is stored under an older name. -/
def column : BeatmapField → String
  | .status => "approved"
  | f => f.name

instance : FieldList BeatmapField where
  entity := .beatmap
  all := all
  name := name
  column := column
  mem_all f := by cases f <;> decide
  nodup_names := by decide
  nodup_columns := by decide

end BeatmapField

inductive BeatmapsetField where
  | beatmapsetId
  | ownerId
  | artist
  | artistUnicode
  | title
  | titleUnicode
  | tags
  | bpm
  | versionsAvailable
  | approvedDate
  | submitDate
  | lastUpdate
  | genreId
  | languageId
  | nsfw
  deriving DecidableEq, Repr

namespace BeatmapsetField

def all : List BeatmapsetField := [
  .beatmapsetId, .ownerId, .artist, .artistUnicode, .title, .titleUnicode, .tags, .bpm,
  .versionsAvailable, .approvedDate, .submitDate, .lastUpdate, .genreId, .languageId, .nsfw]

def name : BeatmapsetField → String
  | .beatmapsetId => "beatmapset_id"
  | .ownerId => "owner_id"
  | .artist => "artist"
  | .artistUnicode => "artist_unicode"
  | .title => "title"
  | .titleUnicode => "title_unicode"
  | .tags => "tags"
  | .bpm => "bpm"
  | .versionsAvailable => "versions_available"
  | .approvedDate => "approved_date"
  | .submitDate => "submit_date"
  | .lastUpdate => "last_update"
  | .genreId => "genre_id"
  | .languageId => "language_id"
  | .nsfw => "nsfw"

instance : FieldList BeatmapsetField where
  entity := .beatmapset
  all := all
  name := name
  column := name
  mem_all f := by cases f <;> decide
  nodup_names := by decide
  nodup_columns := by decide

end BeatmapsetField

end RhythmFilter
