import RhythmFilter.Mode.Id
import RhythmFilter.Query.Clause
import RhythmFilter.Query.Predicate
import RhythmFilter.Query.Rank

/-!
# Requests

A request asks for the records of one entity that satisfy a filter text. Its predicates stand in the
order of the clauses. The whole text is read as clauses first; then the first clause is refused whose
field the entity does not have or whose list cannot be read.
-/

namespace RhythmFilter

open Text

namespace Clause

def refuseList (c : Clause) (reason : Reason) : Except Refusal Predicate :=
  .error (.malformed (c.field ++ "/" ++ c.value) reason)

/-- The ranks that a value names in any letter case, without repeats. -/
def ranks (c : Clause) : List Rank := (Rank.scan (upper c.value.toList)).eraseDups

def scorePredicate (m : Mode) (c : Clause) : Except Refusal Predicate := do
  let field ← FieldList.find c.field
  if c.operator ≠ .oneOf then .ok (.compare (.score m field) c.operator c.value)
  else if field ≠ .rank then c.refuseList .listOutsideRank
  else if c.ranks = [] then c.refuseList .noRank
  else .ok (.oneOf (.score m field) (c.ranks.map Rank.code))

def beatmapPredicate (c : Clause) : Except Refusal Predicate := do
  let field ← FieldList.find c.field
  return .compare (.beatmap field) c.operator c.value

/-- The parts of a value between commas, without the blanks at their ends; empty parts do not count. -/
def entries (c : Clause) : List String :=
  (((commaPieces c.value.toList).map trim).filter (· ≠ [])).map String.ofList

def beatmapsetPredicate (c : Clause) : Except Refusal Predicate := do
  let field ← FieldList.find c.field
  if c.operator ≠ .oneOf then .ok (.compare (.beatmapset field) c.operator c.value)
  else if c.entries = [] then c.refuseList .emptyList
  else .ok (.oneOf (.beatmapset field) c.entries)

end Clause

def readFilters (e : Entity) (predicate : Clause → Except Refusal Predicate) (text : String) :
    Except Refusal (List Predicate) := do
  let clauses ← Clause.ofText e text
  clauses.mapM predicate

def scoreFilters (m : Mode) (text : String) : Except Refusal (List Predicate) :=
  readFilters .score (Clause.scorePredicate m) text

def beatmapFilters (text : String) : Except Refusal (List Predicate) :=
  readFilters .beatmap Clause.beatmapPredicate text

def beatmapsetFilters (text : String) : Except Refusal (List Predicate) :=
  readFilters .beatmapset Clause.beatmapsetPredicate text

/-- The scores of these users; of all users if none is given. -/
def userFilters (m : Mode) (ids : List Int) : List Predicate :=
  if ids = [] then []
  else [.oneOf (.score m .userId) (ids.map fun id => String.ofList (writeInt id))]

/-- What a caller asks for. A filter text may be missing; a mode is looked at before anything else. -/
inductive Request where
  | scores (mode : ModeId) (filters : Option String)
  | beatmaps (filters : Option String)
  | beatmapsets (filters : Option String)
  | users (mode : ModeId) (ids : List Int)
  deriving DecidableEq, Repr

namespace Request

def ofFilters (read : String → Except Refusal (List Predicate)) :
    Option String → Except Refusal (List Predicate)
  | none => .ok []
  | some text => read text

def predicates : Request → Except Refusal (List Predicate)
  | .scores mode filters => do
    let m ← Mode.resolve mode
    ofFilters (scoreFilters m) filters
  | .beatmaps filters => ofFilters beatmapFilters filters
  | .beatmapsets filters => ofFilters beatmapsetFilters filters
  | .users mode ids => do
    let m ← Mode.resolve mode
    return userFilters m ids

end Request

end RhythmFilter
