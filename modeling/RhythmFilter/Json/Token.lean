import RhythmFilter.Json.Tree

/-!
# Tokens of JSON values

Every value has exactly one row of tokens: `tokens` writes it and `ofTokens?` reads it. Reading
goes through the row once, and keeps in `Frame`s the arrays and objects that are still open.
-/

namespace RhythmFilter.Json

inductive Token (σ ν : Type) where
  | null
  | bool (b : Bool)
  | number (n : ν)
  | string (s : σ)
  | openArray
  | closeArray
  | openObject
  | closeObject
  | comma
  | colon
  deriving DecidableEq

variable {σ ν : Type}

mutual

def Tree.tokens : Tree σ ν → List (Token σ ν)
  | .null => [.null]
  | .bool b => [.bool b]
  | .number n => [.number n]
  | .string s => [.string s]
  | .array items => .openArray :: itemTokens items ++ [.closeArray]
  | .object members => .openObject :: memberTokens members ++ [.closeObject]

def itemTokens : List (Tree σ ν) → List (Token σ ν)
  | [] => []
  | [x] => x.tokens
  | x :: y :: xs => x.tokens ++ .comma :: itemTokens (y :: xs)

def memberTokens : List (σ × Tree σ ν) → List (Token σ ν)
  | [] => []
  | [(k, v)] => .string k :: .colon :: v.tokens
  | (k, v) :: m :: ms => .string k :: .colon :: v.tokens ++ .comma :: memberTokens (m :: ms)

end

/-- A value that is still open: what it holds so far, the last first. -/
inductive Frame (σ ν : Type) where
  | array (before : List (Tree σ ν))
  | object (before : List (σ × Tree σ ν)) (key : σ)

/-- What the row read so far leaves to come next. -/
inductive Expect (σ ν : Type) where
  | value
  | firstItem
  | firstKey
  | nextKey (before : List (σ × Tree σ ν))
  | colon (before : List (σ × Tree σ ν)) (key : σ)
  | after (value : Tree σ ν)

/-- A reader of tokens: what it expects, and the open values around that, the innermost first. -/
structure Reader (σ ν : Type) where
  expect : Expect σ ν
  frames : List (Frame σ ν)

namespace Reader

def begin? (frames : List (Frame σ ν)) : Token σ ν → Option (Reader σ ν)
  | .null => some ⟨.after .null, frames⟩
  | .bool b => some ⟨.after (.bool b), frames⟩
  | .number n => some ⟨.after (.number n), frames⟩
  | .string s => some ⟨.after (.string s), frames⟩
  | .openArray => some ⟨.firstItem, frames⟩
  | .openObject => some ⟨.firstKey, frames⟩
  | _ => none

def continue? (v : Tree σ ν) : List (Frame σ ν) → Token σ ν → Option (Reader σ ν)
  | .array before :: frames, .comma => some ⟨.value, .array (v :: before) :: frames⟩
  | .array before :: frames, .closeArray => some ⟨.after (.array (v :: before).reverse), frames⟩
  | .object before k :: frames, .comma => some ⟨.nextKey ((k, v) :: before), frames⟩
  | .object before k :: frames, .closeObject =>
    some ⟨.after (.object ((k, v) :: before).reverse), frames⟩
  | _, _ => none

def step? (r : Reader σ ν) (t : Token σ ν) : Option (Reader σ ν) :=
  match r.expect, t with
  | .value, t => begin? r.frames t
  | .firstItem, .closeArray => some ⟨.after (.array []), r.frames⟩
  | .firstItem, t => begin? (.array [] :: r.frames) t
  | .firstKey, .closeObject => some ⟨.after (.object []), r.frames⟩
  | .firstKey, .string k => some ⟨.colon [] k, r.frames⟩
  | .nextKey before, .string k => some ⟨.colon before k, r.frames⟩
  | .colon before k, .colon => some ⟨.value, .object before k :: r.frames⟩
  | .after v, t => continue? v r.frames t
  | _, _ => none

def steps? (r : Reader σ ν) : List (Token σ ν) → Option (Reader σ ν)
  | [] => some r
  | t :: ts =>
    match r.step? t with
    | some r => r.steps? ts
    | none => none

end Reader

def ofTokens? (ts : List (Token σ ν)) : Option (Tree σ ν) :=
  match Reader.steps? ⟨.value, []⟩ ts with
  | some ⟨.after v, []⟩ => some v
  | _ => none

end RhythmFilter.Json
