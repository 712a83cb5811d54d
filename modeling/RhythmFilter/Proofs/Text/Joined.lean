import RhythmFilter.Proofs.Text.Words

/-!
# Texts made of strings

Strings with spaces between them, and strings in a row, as lists of characters; and texts cut at any other
separator.
-/

namespace RhythmFilter.Text

theorem map_ofList_toList (as : List String) : (as.map String.toList).map String.ofList = as := by
  induction as with
  | nil => rfl
  | cons a as ih => simp only [List.map_cons, ih, String.ofList_toList]

theorem map_toList_ofList (ps : List (List Char)) : (ps.map String.ofList).map String.toList = ps := by
  induction ps with
  | nil => rfl
  | cons p ps ih => simp only [List.map_cons, ih, String.toList_ofList]

theorem toList_joined (as : List String) :
    (" ".intercalate as).toList = [' '].intercalate (as.map String.toList) := by
  rw [String.toList_intercalate]
  rfl

section
variable {as : List String} (h : ∀ a ∈ as, IsWord a.toList)
include h

theorem isWord_of_mem_map {w : List Char} (hw : w ∈ as.map String.toList) : IsWord w := by
  obtain ⟨a, ha, rfl⟩ := List.mem_map.mp hw
  exact h a ha

theorem words_joined : words (" ".intercalate as).toList = as.map String.toList := by
  rw [toList_joined]
  exact words_intercalate fun w hw => isWord_of_mem_map h hw

theorem trim_joined : trim (" ".intercalate as).toList = (" ".intercalate as).toList := by
  rw [toList_joined]
  exact trim_eq_self (trimmed_intercalate fun w hw => isWord_of_mem_map h hw)

end

/-- Parts that do not hold the separator are found again between the separators. -/
theorem pieces_intercalate (d : Char) : ∀ {ps : List (List Char)}, ps ≠ [] → (∀ p ∈ ps, d ∉ p) →
    pieces (· = d) ([d].intercalate ps) = ps
  | [], hne, _ => absurd rfl hne
  | p :: ps, _, h => by
    obtain ⟨hp, hps⟩ := List.forall_mem_cons.mp h
    have hnone : ∀ c ∈ p, decide (c = d) = false := by
      intro c hc
      have : c ≠ d := fun e => hp (e ▸ hc)
      simpa using this
    have hpiece : pieces (· = d) p = [p] := pieces_of_none _ hnone
    cases ps with
    | nil => rw [List.intercalate_singleton, hpiece]
    | cons q qs =>
      rw [List.intercalate_cons_cons, List.append_assoc, List.singleton_append,
        pieces_append_cons _ _ _ (by simp), hpiece, pieces_intercalate d (List.cons_ne_nil q qs) hps,
        List.singleton_append]

theorem joined_injective {as bs : List String} (ha : ∀ a ∈ as, IsWord a.toList) (hb : ∀ b ∈ bs, IsWord b.toList)
    (h : " ".intercalate as = " ".intercalate bs) : as = bs := by
  rw [← map_ofList_toList as, ← words_joined ha, h, words_joined hb, map_ofList_toList]

end RhythmFilter.Text
