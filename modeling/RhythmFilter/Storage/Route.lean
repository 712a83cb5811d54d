import RhythmFilter.Text.Pieces

/-!
# Routes

A route is a path as it is written: pieces with slashes between them, to be followed from the root. An
empty piece and a single dot are idle and lead nowhere, two dots lead back to the folder above, and
any other piece is the name of an entry. Idle pieces still matter in two ways: they count when a route
is too long, and only a route whose very last piece is a name can lead to a file.
-/

namespace RhythmFilter

inductive Part where
  | name (text : String)
  | up
  deriving DecidableEq, Repr

namespace Part

def ofPiece? (piece : String) : Option Part :=
  if piece = "" ∨ piece = "." then none
  else if piece = ".." then some .up
  else some (.name piece)

def name? : Part → Option String
  | .name text => some text
  | .up => none

end Part

def hasNull (text : String) : Bool := text.toList.contains '\x00'

def isEntryName (name : String) : Bool := !hasNull name && decide (name.utf8ByteSize ≤ 255)

/-- The pieces up to the last one that is not idle. -/
def dropIdleEnd (pieces : List String) : List String :=
  (pieces.reverse.dropWhile fun p => (Part.ofPiece? p).isNone).reverse

structure Route where
  pieces : List String
  deriving DecidableEq, Repr

namespace Route

def ofText (text : String) : Route := ⟨(Text.pieces (· = '/') text.toList).map String.ofList⟩

def parts (r : Route) : List Part := r.pieces.filterMap Part.ofPiece?

/-- The bytes of the written route, with one that marks its end. -/
def size (r : Route) : Nat := r.pieces.foldl (fun n p => n + (p.utf8ByteSize + 1)) 0

/-- The route can be followed at all: it holds no null character and is not too long. -/
def isPassable (r : Route) : Bool := r.pieces.all (!hasNull ·) && decide (r.size ≤ 4096)

def folder (r : Route) : Route := ⟨dropIdleEnd (dropIdleEnd r.pieces).dropLast⟩

def fileName? (r : Route) : Option String := (r.pieces.getLast?.bind Part.ofPiece?).bind Part.name?

def endsInDot (r : Route) : Bool := (r.pieces.reverse.dropWhile (· = "")).head? = some "."

end Route

end RhythmFilter
