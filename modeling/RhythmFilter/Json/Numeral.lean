import RhythmFilter.Json.Number

/-!
# Numerals in JSON texts

A numeral is a minus sign or none, a whole part without a leading zero, and then, each if it is there,
a point with digits and a power of ten. Each part is read as far as it goes.
-/

namespace RhythmFilter.Json

open Text

def digitRun? (s : List Char) : Option (List Char × List Char) :=
  if s.takeWhile isDigit = [] then none else some (s.takeWhile isDigit, s.dropWhile isDigit)

def signPart (s : List Char) : Bool × List Char :=
  match s with
  | '-' :: s => (true, s)
  | s => (false, s)

/-- Zero by itself, or digits of which the first is not zero. -/
def wholePart? (s : List Char) : Option (List Char × List Char) :=
  match s with
  | '0' :: s => some (['0'], s)
  | s => digitRun? s

/-- Digits behind a point; a point must have some. -/
def fractionPart? (s : List Char) : Option (Option (List Char) × List Char) :=
  match s with
  | '.' :: s => (digitRun? s).map fun p => (some p.1, p.2)
  | s => some (none, s)

def signedPower? (s : List Char) : Option (Int × List Char) :=
  match s with
  | '+' :: s => (digitRun? s).map fun p => ((natOfDigits p.1 : Int), p.2)
  | '-' :: s => (digitRun? s).map fun p => (-(natOfDigits p.1 : Int), p.2)
  | s => (digitRun? s).map fun p => ((natOfDigits p.1 : Int), p.2)

/-- A power of ten behind `e`; an `e` must have one. -/
def powerPart? (s : List Char) : Option (Option Int × List Char) :=
  match s with
  | 'e' :: s => (signedPower? s).map fun p => (some p.1, p.2)
  | 'E' :: s => (signedPower? s).map fun p => (some p.1, p.2)
  | s => some (none, s)

/-- The number at the front of the text, `none` in its place if it is too large, and the rest. -/
def numeral? (s : List Char) : Option (Option Number × List Char) :=
  let (negative, s) := signPart s
  match wholePart? s with
  | none => none
  | some (whole, s) =>
    match fractionPart? s with
    | none => none
    | some (fraction, s) =>
      match powerPart? s with
      | none => none
      | some (power, s) => some (Number.ofNumeral? negative whole fraction power, s)

theorem digitRun?_shorter {s ds rest : List Char} (h : digitRun? s = some (ds, rest)) :
    rest.length < s.length := by
  unfold digitRun? at h
  split at h
  · simp at h
  · next hne =>
    simp only [Option.some.injEq, Prod.mk.injEq] at h
    obtain ⟨rfl, rfl⟩ := h
    have hlen := congrArg List.length (List.takeWhile_append_dropWhile (p := isDigit) (l := s))
    have := List.length_pos_iff.mpr hne
    simp only [List.length_append] at hlen
    omega

theorem signPart_length (s : List Char) : (signPart s).2.length ≤ s.length := by
  unfold signPart
  split <;> simp

theorem wholePart?_shorter {s ds rest : List Char} (h : wholePart? s = some (ds, rest)) :
    rest.length < s.length := by
  unfold wholePart? at h
  split at h
  · simp_all
  · exact digitRun?_shorter h

theorem fractionPart?_length {s rest : List Char} {f : Option (List Char)}
    (h : fractionPart? s = some (f, rest)) : rest.length ≤ s.length := by
  unfold fractionPart? at h
  split at h
  · obtain ⟨p, hp, he⟩ := Option.map_eq_some_iff.mp h
    have := digitRun?_shorter hp
    simp only [Prod.mk.injEq] at he
    simp only [List.length_cons, ← he.2]
    omega
  · simp_all

theorem signedPower?_length {s rest : List Char} {e : Int} (h : signedPower? s = some (e, rest)) :
    rest.length ≤ s.length := by
  unfold signedPower? at h
  split at h <;>
  · obtain ⟨p, hp, he⟩ := Option.map_eq_some_iff.mp h
    have := digitRun?_shorter hp
    simp only [Prod.mk.injEq] at he
    simp only [List.length_cons, ← he.2]
    omega

theorem powerPart?_length {s rest : List Char} {e : Option Int}
    (h : powerPart? s = some (e, rest)) : rest.length ≤ s.length := by
  unfold powerPart? at h
  split at h
  case h_3 => simp_all
  all_goals
    obtain ⟨p, hp, he⟩ := Option.map_eq_some_iff.mp h
    have := signedPower?_length hp
    simp only [Prod.mk.injEq] at he
    simp only [List.length_cons, ← he.2]
    omega

theorem numeral?_shorter {s rest : List Char} {n : Option Number} (h : numeral? s = some (n, rest)) :
    rest.length < s.length := by
  unfold numeral? at h
  have hsign := signPart_length s
  split at h
  rename_i negative s₁ hs
  split at h
  · simp at h
  · next whole s₂ hw =>
    split at h
    · simp at h
    · next fraction s₃ hf =>
      split at h
      · simp at h
      · next power s₄ hp =>
        simp only [Option.some.injEq, Prod.mk.injEq] at h
        have := wholePart?_shorter hw
        have := fractionPart?_length hf
        have := powerPart?_length hp
        rw [hs] at hsign
        rw [← h.2]
        simp only at hsign
        omega

end RhythmFilter.Json
