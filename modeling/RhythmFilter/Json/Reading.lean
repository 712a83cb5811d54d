import RhythmFilter.Json.Numeral
import RhythmFilter.Json.Quoted
import RhythmFilter.Json.Token

/-!
# Reading JSON texts

A text is cut into tokens, with spaces, tabs and line ends between them, and the tokens must be those
of one value. Nothing else may stand before, between or behind them.
-/

namespace RhythmFilter.Json

abbrev SpelledToken := Token (Option String) (Option Number)

def isSpace (c : Char) : Bool := c = ' ' || c = '\t' || c = '\n' || c = '\r'

def marks : List (Char × SpelledToken) := [
  ('[', .openArray), (']', .closeArray), ('{', .openObject), ('}', .closeObject), (',', .comma),
  (':', .colon)]

def keywords : List (List Char × SpelledToken) := [
  ("null".toList, .null), ("true".toList, .bool true), ("false".toList, .bool false)]

def keyword? (s : List Char) : Option (SpelledToken × List Char) :=
  (keywords.find? fun k => k.1.isPrefixOf s).map fun k => (k.2, s.drop k.1.length)

def token? (s : List Char) : Option (SpelledToken × List Char) :=
  match s with
  | [] => none
  | c :: rest =>
    match marks.lookup c with
    | some t => some (t, rest)
    | none =>
      if c = '"' then
        (quotedPieces? rest).map fun p => (.string ((pieceText? p.1).map String.ofList), p.2)
      else
        match keyword? (c :: rest) with
        | some p => some p
        | none => (numeral? (c :: rest)).map fun p => (.number p.1, p.2)

theorem keyword_length_pos : ∀ k ∈ keywords, 0 < k.1.length := by
  simp [keywords]

theorem keyword?_shorter {s rest : List Char} {t : SpelledToken}
    (h : keyword? s = some (t, rest)) : rest.length < s.length := by
  obtain ⟨k, hk, he⟩ := Option.map_eq_some_iff.mp h
  have hp := List.find?_some hk
  have hm := List.mem_of_find?_eq_some hk
  have hle := (List.isPrefixOf_iff_prefix.mp hp).length_le
  have := keyword_length_pos k hm
  simp only [Prod.mk.injEq] at he
  rw [← he.2, List.length_drop]
  omega

theorem token?_shorter {s rest : List Char} {t : SpelledToken}
    (h : token? s = some (t, rest)) : rest.length < s.length := by
  unfold token? at h
  split at h
  · simp at h
  · next c s =>
    split at h
    · simp_all
    · split at h
      · obtain ⟨p, hp, he⟩ := Option.map_eq_some_iff.mp h
        have := quotedPieces?_shorter hp
        simp only [Prod.mk.injEq] at he
        simp only [List.length_cons, ← he.2]
        omega
      · split at h
        · next p hp =>
          rw [h] at hp
          exact keyword?_shorter hp
        · obtain ⟨p, hp, he⟩ := Option.map_eq_some_iff.mp h
          have := numeral?_shorter hp
          simp only [Prod.mk.injEq] at he
          rwa [← he.2]

/-- The tokens of a text; `none` if something in it begins no token. -/
def tokens? (s : List Char) : Option (List SpelledToken) :=
  if s.dropWhile isSpace = [] then some []
  else
    match _h : token? (s.dropWhile isSpace) with
    | none => none
    | some (t, rest) => (tokens? rest).map (t :: ·)
termination_by s.length
decreasing_by
  have := token?_shorter _h
  have := (List.dropWhile_sublist isSpace (l := s)).length_le
  omega

def Document.ofText? (s : String) : Option Document := (tokens? s.toList).bind ofTokens?

/-- The value that a text spells, its objects being maps. -/
def ofText? (s : String) : Option Json :=
  (Document.ofText? s).bind fun d => d.proper?.map Tree.canonical

end RhythmFilter.Json
