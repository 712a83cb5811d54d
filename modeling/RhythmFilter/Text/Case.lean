import RhythmFilter.Text.CaseTable
import RhythmFilter.Text.CasedTable

/-!
# Lower and upper case

Both mappings may turn one character into several. `upper` works character by character. `lower`
does too, but for capital sigma, whose small form depends on its neighbours: at the end of a word it
is `ς` and elsewhere `σ`.
-/

namespace RhythmFilter.Text

def mapCode (runs : List CaseRun) (n : Nat) : Nat := (runs.findSome? (·.imageOf? n)).getD n

def lowerChar (c : Char) : List Char :=
  if c = 'İ' then ['i', '\u0307'] else [Char.ofNat (mapCode lowerRuns c.toNat)]

def upperChar (c : Char) : List Char :=
  match upperExpansions.lookup c.toNat with
  | some image => image.map Char.ofNat
  | none => [Char.ofNat (mapCode upperRuns c.toNat)]

/-- The first character that is not case-ignorable is cased. -/
def meetsCased (s : List Char) : Bool :=
  match s.dropWhile isCaseIgnorable with
  | [] => false
  | c :: _ => isCased c

/-- The small form of capital sigma, between the text before it (read backwards) and the text after
it: final if a cased letter precedes and none follows. -/
def lowerSigma (before after : List Char) : Char :=
  if meetsCased before && !meetsCased after then 'ς' else 'σ'

/-- Lower case of a text that stands after `before`, which is given backwards. -/
def lowerAfter (before : List Char) : List Char → List Char
  | [] => []
  | c :: s =>
    (if c = 'Σ' then [lowerSigma before s] else lowerChar c) ++ lowerAfter (c :: before) s

def lower (s : List Char) : List Char := lowerAfter [] s

def upper (s : List Char) : List Char := s.flatMap upperChar

theorem upper_append (s t : List Char) : upper (s ++ t) = upper s ++ upper t := by
  simp [upper]

end RhythmFilter.Text
