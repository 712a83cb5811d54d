import RhythmFilter.ModFilter.Reading
import RhythmFilter.Proofs.Text.LetterCase

/-!
# The layout of mod filters

A mod filter is read in capitals and without blanks. Blanks have no other case, so it makes no difference
whether they are taken out before or behind upper case, and a filter text can be spelled with blanks at any
place and with Latin letters of either case.
-/

namespace RhythmFilter.ModFilter

open Text

theorem squeeze_cons_blank {c : Char} (h : isBlank c = true) (s : List Char) :
    squeeze (c :: s) = squeeze s := by
  rw [squeeze, List.filter_cons_of_neg (by simp [h]), squeeze]

theorem squeeze_cons_plain {c : Char} (h : isBlank c = false) (s : List Char) :
    squeeze (c :: s) = c :: squeeze s := by
  rw [squeeze, List.filter_cons_of_pos (by simp [h]), squeeze]

theorem squeeze_upper_squeeze (s : List Char) : squeeze (upper (squeeze s)) = squeeze (upper s) := by
  induction s with
  | nil => rfl
  | cons c s ih =>
    have hupper : ∀ t, upper (c :: t) = upperChar c ++ upper t := fun t => List.flatMap_cons
    by_cases hc : isBlank c = true
    · rw [squeeze_cons_blank hc, ih, hupper, upperChar_blank hc, List.singleton_append, squeeze_cons_blank hc]
    · rw [squeeze_cons_plain (by simpa using hc), hupper, hupper, squeeze_append, squeeze_append, ih]

theorem normalize_eq (s : String) : normalize s = squeeze (upper (latinUpper (squeeze s.toList))) := by
  rw [upper_latinUpper, squeeze_upper_squeeze, normalize]

section
variable {s t : String} (h : latinUpper (squeeze s.toList) = latinUpper (squeeze t.toList))
include h

theorem ofText_eq_of_squeeze (m : Mode) : ofText m s = ofText m t := by
  rw [ofText, normalize_eq, h, ← normalize_eq, ofText]

theorem request_eq_of_squeeze (id : ModeId) : request id (some s) = request id (some t) := by
  have hread : ∀ m, ofText? m (some s) = ofText? m (some t) := ofText_eq_of_squeeze h
  simp only [request, hread]

end

theorem squeeze_append_gap {gap : List Char} (h : IsGap gap) (a b : List Char) :
    squeeze (a ++ (gap ++ b)) = squeeze (a ++ b) := by
  have hgap : squeeze gap = [] := List.filter_eq_nil_iff.mpr fun c hc => by simp [h c hc]
  rw [squeeze_append, squeeze_append, hgap, List.nil_append, squeeze_append]

/-- Two filter texts that are the same without blanks and with their Latin letters as capitals are the same
filter for every mode, or are refused alike. So blanks can stand anywhere, also inside an acronym. -/
theorem request_ignores_blanks_and_case (id : ModeId) :
    (∀ s t : String, latinUpper (squeeze s.toList) = latinUpper (squeeze t.toList) →
      request id (some s) = request id (some t)) ∧
    ∀ a gap b : String, IsGap gap.toList → request id (some (a ++ gap ++ b)) = request id (some (a ++ b)) := by
  refine ⟨fun s t h => request_eq_of_squeeze h id, fun a gap b h => request_eq_of_squeeze ?_ id⟩
  rw [String.toList_append, String.toList_append, String.toList_append, List.append_assoc, squeeze_append_gap h]

theorem request_ignores_blanks_and_case_sharp :
    request (.name "osu") (some "\u2003!h D\tß") = request (.name "osu") (some "! Hdß") ∧
      request (.name "osu") (some "! Hdß") = .error (.unknownAcronym .osu "SS") ∧
      request (.name "osu") (some ("+h" ++ "\u3000" ++ "d-nf")) =
      request (.name "osu") (some ("+h" ++ "d-nf")) ∧
      request (.name "osu") (some ("+h" ++ "d-nf")) = .ok (.demands [.wanted "HD", .unwanted "NF"]) := by
  obtain ⟨hsame, hgap⟩ := request_ignores_blanks_and_case (.name "osu")
  have hblank : IsGap "\u3000".toList := forall_of_all (by decide +kernel)
  exact ⟨hsame _ _ (by decide +kernel), by decide +kernel, hgap _ _ _ hblank, by decide +kernel⟩

end RhythmFilter.ModFilter
