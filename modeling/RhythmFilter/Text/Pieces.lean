import RhythmFilter.Text.Blank

/-!
# Cutting a text

`pieces` cuts at every separator and keeps what lies between, empty or not; `words` are the maximal
runs without blanks; `pairs` cuts into twos. `occursIn` looks for a text inside another.
-/

namespace RhythmFilter.Text

def growFirst (c : Char) : List (List Char) → List (List Char)
  | [] => [[c]]
  | p :: ps => (c :: p) :: ps

/-- What lies between the separators: one piece more than there are separators. -/
def pieces (isSeparator : Char → Bool) : List Char → List (List Char)
  | [] => [[]]
  | c :: s => if isSeparator c then [] :: pieces isSeparator s else growFirst c (pieces isSeparator s)

/-- The maximal runs of characters that are not blank. -/
def words (s : List Char) : List (List Char) := (pieces isBlank s).filter (· ≠ [])

def commaPieces (s : List Char) : List (List Char) := pieces (· = ',') s

/-- The characters two by two; a last one by itself is left out. -/
def pairs : List Char → List (List Char)
  | a :: b :: s => [a, b] :: pairs s
  | _ => []

def occursIn (part : List Char) : List Char → Bool
  | [] => part.isEmpty
  | c :: s => part.isPrefixOf (c :: s) || occursIn part s

section
variable (sep : Char → Bool)

theorem pieces_ne_nil (s : List Char) : pieces sep s ≠ [] := by
  cases s with
  | nil => simp [pieces]
  | cons c s =>
    simp only [pieces]
    split
    · simp
    · cases pieces sep s <;> simp [growFirst]

theorem growFirst_append (c : Char) {ps : List (List Char)} (h : ps ≠ []) (qs : List (List Char)) :
    growFirst c (ps ++ qs) = growFirst c ps ++ qs := by
  cases ps with
  | nil => exact absurd rfl h
  | cons p ps => rfl

theorem pieces_append_cons (s t : List Char) {c : Char} (h : sep c = true) :
    pieces sep (s ++ c :: t) = pieces sep s ++ pieces sep t := by
  induction s with
  | nil => simp [pieces, h]
  | cons d s ih =>
    simp only [List.cons_append, pieces]
    split
    · simp [ih]
    · rw [ih, growFirst_append d (pieces_ne_nil sep s)]

theorem pieces_of_none {s : List Char} (h : ∀ c ∈ s, sep c = false) : pieces sep s = [s] := by
  induction s with
  | nil => rfl
  | cons c s ih =>
    have hc : sep c = false := h c List.mem_cons_self
    rw [pieces, ih fun d hd => h d (List.mem_cons_of_mem _ hd)]
    simp [hc, growFirst]

end

theorem words_append_blank (s t : List Char) {c : Char} (h : isBlank c = true) :
    words (s ++ c :: t) = words s ++ words t := by
  simp [words, pieces_append_cons isBlank s t h]

end RhythmFilter.Text
