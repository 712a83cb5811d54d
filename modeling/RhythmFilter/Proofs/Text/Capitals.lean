import RhythmFilter.Text.Case
import RhythmFilter.Text.Blank
import RhythmFilter.Text.WordTable

/-!
# What upper case leaves alone

A character of few ranges can be checked code point by code point. Blanks have no other case, and
neither have the capital letters and digits that acronyms are written in.
-/

namespace RhythmFilter.Text

def codes (ranges : List CodeRange) : List Nat := ranges.flatMap fun r => List.range' r.1 (r.2 + 1 - r.1)

theorem mem_codes_of_covers {ranges : List CodeRange} {n : Nat} (h : covers ranges n = true) :
    n ∈ codes ranges := by
  obtain ⟨r, hr, hn⟩ := List.any_eq_true.mp h
  simp only [Bool.and_eq_true, decide_eq_true_eq] at hn
  refine List.mem_flatMap.mpr ⟨r, hr, ?_⟩
  rw [List.mem_range'_1]
  omega

/-- What a code point is checked for to be its own capital. -/
def IsOwnCapital (n : Nat) : Prop := upperExpansions.lookup n = none ∧ mapCode upperRuns n = n

instance (n : Nat) : Decidable (IsOwnCapital n) := inferInstanceAs (Decidable (_ ∧ _))

theorem upperChar_of_isOwnCapital {c : Char} (h : IsOwnCapital c.toNat) : upperChar c = [c] := by
  rw [upperChar, h.1]
  simp [h.2, Char.ofNat_toNat]

theorem upper_eq_self {s : List Char} (h : ∀ c ∈ s, upperChar c = [c]) : upper s = s := by
  induction s with
  | nil => rfl
  | cons c s ih =>
    have hs : upper s = s := ih fun d hd => h d (List.mem_cons_of_mem _ hd)
    rw [upper, List.flatMap_cons, h c List.mem_cons_self, ← upper, hs]
    rfl

theorem upperChar_blank {c : Char} (h : isBlank c = true) : upperChar c = [c] := by
  have : ∀ n ∈ codes blankRanges, IsOwnCapital n := by decide +kernel
  exact upperChar_of_isOwnCapital (this _ (mem_codes_of_covers h))

/-! ## Capital letters and digits -/

def capitalRanges : List CodeRange := [(0x30, 0x39), (0x41, 0x5A)]

def isCapital (c : Char) : Bool := covers capitalRanges c.toNat

section
variable {c : Char} (h : isCapital c = true)
include h

theorem upperChar_capital : upperChar c = [c] := by
  have : ∀ n ∈ codes capitalRanges, IsOwnCapital n := by decide +kernel
  exact upperChar_of_isOwnCapital (this _ (mem_codes_of_covers h))

theorem isBlank_capital : isBlank c = false := by
  have : ∀ n ∈ codes capitalRanges, covers blankRanges n = false := by decide +kernel
  exact this _ (mem_codes_of_covers h)

theorem isWordChar_capital : isWordChar c = true := by
  have : ∀ n ∈ codes capitalRanges, covers wordRanges n = true := by decide +kernel
  exact this _ (mem_codes_of_covers h)

end

end RhythmFilter.Text
