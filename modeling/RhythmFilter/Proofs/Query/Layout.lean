import RhythmFilter.Proofs.Query.ClauseText
import RhythmFilter.Proofs.Query.Subject
import RhythmFilter.Proofs.Text.LetterCase

/-!
# The layout of filter texts

Which blanks keep the words of a filter text apart does not matter, nor the case of their Latin letters. The
clauses that are read from some text are those that are read back wherever they are written down, with any
blanks around them.
-/

namespace RhythmFilter

open Text

namespace Clause

def layOut (items : List (String × Clause)) (last : String) : String :=
  String.join (items.map fun i => i.1 ++ i.2.text) ++ last

theorem toList_layOut (items : List (String × Clause)) (last : String) :
    (layOut items last).toList = laidOut (items.map fun i => (i.1.toList, i.2.text.toList)) last.toList := by
  rw [layOut, String.toList_append, String.toList_join, List.flatMap_map, laidOut, List.flatMap_map]
  simp only [String.toList_append]

section
variable {e : Entity}

/-! ## Clauses read back -/

theorem isTerm_iff {s : String} : IsTerm e s.toList ↔
    s ≠ "" ∧ (∀ d ∈ s.toList, isBlank d = false ∧ e.isOperatorChar d = false) ∧ lower s.toList = s.toList := by
  have hnil : s.toList ≠ [] ↔ s ≠ "" := not_congr String.toList_eq_nil_iff
  rw [lower_eq_self_iff, ← hnil]
  refine ⟨fun h => ⟨h.nonempty, fun d hd => ⟨h.no_blank d hd, h.plain d hd⟩, h.small⟩, fun h => ?_⟩
  obtain ⟨hne, hplain, hsmall⟩ := h
  exact ⟨⟨hne, fun d hd => (hplain d hd).2⟩, fun d hd => (hplain d hd).1, hsmall⟩

theorem Proper.lower_text {c : Clause} (h : c.Proper e) : lower c.text.toList = c.text.toList := by
  rw [lower_eq_self_iff, toList_text]
  intro d hd
  rcases List.mem_append.mp hd with hd | hd
  · exact h.field.small d hd
  · rcases List.mem_append.mp hd with hd | hd
    · exact (isSmall_symbol _ d hd).1
    · exact h.value.small d hd

section
variable {cs : List Clause} (h : ∀ c ∈ cs, c.Proper e)
include h

theorem ofText_of_spaced {s : String} (hs : Spaced (cs.map fun c => c.text.toList) s.toList) :
    ofText e s = .ok cs := by
  refine ofText_of_words h ?_
  rw [words_lower, words_of_spaced hs, List.map_map]
  exact List.map_congr_left fun c hc => (h c hc).lower_text

theorem ofText_render : ofText e (render cs) = .ok cs := by
  have hwords : ∀ w ∈ cs.map fun c => c.text.toList, IsWord w := by
    intro w hw
    obtain ⟨c, hc, e⟩ := List.mem_map.mp hw
    exact e ▸ (h c hc).isWord_text
  apply ofText_of_spaced h
  rw [← words_eq_iff, render, toList_joined, List.map_map]
  exact words_intercalate hwords

end

theorem ofText_layOut {items : List (String × Clause)} {last : String}
    (h : ∀ i ∈ items, IsGap i.1.toList ∧ i.2.Proper e) (hbetween : ∀ i ∈ items.tail, i.1 ≠ "")
    (hlast : IsGap last.toList) : ofText e (layOut items last) = .ok (items.map Prod.snd) := by
  have hproper : ∀ c ∈ items.map Prod.snd, c.Proper e := by
    intro c hc
    obtain ⟨i, hi, e⟩ := List.mem_map.mp hc
    exact e ▸ (h i hi).2
  apply ofText_of_spaced hproper
  rw [toList_layOut]
  have hitems : ∀ i ∈ items.map (fun i => (i.1.toList, i.2.text.toList)), IsGap i.1 ∧ IsWord i.2 := by
    intro j hj
    obtain ⟨i, hi, e⟩ := List.mem_map.mp hj
    exact e ▸ ⟨(h i hi).1, (h i hi).2.isWord_text⟩
  have hgaps : ∀ i ∈ (items.map fun i => (i.1.toList, i.2.text.toList)).tail, i.1 ≠ [] := by
    intro j hj
    rw [← List.map_tail] at hj
    obtain ⟨i, hi, e⟩ := List.mem_map.mp hj
    rw [← e]
    exact fun hnil => hbetween i hi (String.toList_eq_nil_iff.mp hnil)
  have hspaced := spaced_laidOut hitems hgaps hlast
  rw [List.map_map] at hspaced ⊢
  exact hspaced

/-! ## A field and any value -/

theorem ofText_field_value {field value : String} {o : Operator} (hfield : IsTerm e field.toList)
    (ho : e.allows o = true) (hvalue : IsTerm e (lower value.toList)) :
    ofText e (field ++ o.symbol ++ value) = .ok [⟨field, o, String.ofList (lower value.toList)⟩] := by
  have hproper : Proper e ⟨field, o, String.ofList (lower value.toList)⟩ :=
    ⟨hfield, by rwa [String.toList_ofList], ho⟩
  refine ofText_of_words (List.forall_mem_singleton.mpr hproper) ?_
  have htext : lower (field ++ o.symbol ++ value).toList =
      (⟨field, o, String.ofList (lower value.toList)⟩ : Clause).text.toList := by
    rw [toList_text, String.toList_ofList, String.toList_append, String.toList_append, List.append_assoc,
      lower_append_symbol hfield.small]
  rw [htext, words_of_isWord hproper.isWord_text, List.map_singleton]

end

/-- Clauses whose fields and values are not empty, have no blank and no character of an operator, and are left
alone by lower case, are read back wherever they are written down with blanks around them, some between each
two. All clauses that are read from a text are of this kind. -/
theorem laid_out_read_back (e : Entity) :
    (∀ c : Clause, c.Proper e ↔ e.allows c.operator = true ∧ ∀ s ∈ [c.field, c.value], s ≠ "" ∧
      (∀ d ∈ s.toList, isBlank d = false ∧ e.isOperatorChar d = false) ∧ lower s.toList = s.toList) ∧
    (∀ (items : List (String × Clause)) (last : String), (∀ i ∈ items, IsGap i.1.toList ∧ i.2.Proper e) →
      (∀ i ∈ items.tail, i.1 ≠ "") → IsGap last.toList →
      ofText e (layOut items last) = .ok (items.map Prod.snd)) ∧
    ∀ s cs, ofText e s = .ok cs → (∀ c ∈ cs, c.Proper e) ∧ ofText e (render cs) = .ok cs := by
  refine ⟨fun c => ?_, fun items last h hbetween hlast => ofText_layOut h hbetween hlast, fun s cs h => ?_⟩
  · simp only [List.forall_mem_cons, ← isTerm_iff]
    exact ⟨fun h => ⟨h.allowed, h.field, h.value, by simp⟩, fun h => ⟨h.2.1, h.2.2.1, h.1⟩⟩
  · have hproper := proper_of_ofText h
    exact ⟨hproper, ofText_render hproper⟩

theorem laid_out_read_back_slashes :
    ofText .beatmap "a/b>=ος\u3000\tς=1/2 " = .ok [⟨"a/b", .ge, "ος"⟩, ⟨"ς", .eq, "1/2"⟩] := by
  obtain ⟨hproper, hread, _⟩ := laid_out_read_back .beatmap
  have hfirst : Proper .beatmap ⟨"a/b", .ge, "ος"⟩ := by
    refine (hproper _).mpr ⟨rfl, List.forall_mem_cons.mpr ⟨?_, List.forall_mem_singleton.mpr ?_⟩⟩
    all_goals exact ⟨by decide, forall_of_all (by decide +kernel), by decide +kernel⟩
  have hsecond : Proper .beatmap ⟨"ς", .eq, "1/2"⟩ := by
    refine (hproper _).mpr ⟨rfl, List.forall_mem_cons.mpr ⟨?_, List.forall_mem_singleton.mpr ?_⟩⟩
    all_goals exact ⟨by decide, forall_of_all (by decide +kernel), by decide +kernel⟩
  have hgap : IsGap "\u3000\t".toList := forall_of_all (by decide +kernel)
  have hlast : IsGap " ".toList := forall_of_all (by decide +kernel)
  have htext : layOut [("", ⟨"a/b", .ge, "ος"⟩), ("\u3000\t", ⟨"ς", .eq, "1/2"⟩)] " " =
      "a/b>=ος\u3000\tς=1/2 " := by
    decide +kernel
  rw [← htext]
  refine hread _ _ ?_ ?_ hlast
  · exact List.forall_mem_cons.mpr ⟨⟨by simp [IsGap], hfirst⟩, List.forall_mem_singleton.mpr ⟨hgap, hsecond⟩⟩
  · exact List.forall_mem_singleton.mpr (by decide)

end Clause

/-! ## Texts with the same words -/

theorem map_lower_latinUpper (ws : List (List Char)) : (ws.map latinUpper).map lower = ws.map lower := by
  rw [List.map_map]
  exact List.map_congr_left fun w _ => lower_latinUpper w

/-- Two texts whose words differ in the case of Latin letters only are read alike, or refused alike, whatever
blanks stand around the words and whatever other letters stand in them. -/
theorem filters_ignore_blanks_and_case {s t : String} {ws vs : List (List Char)} (hs : Spaced ws s.toList)
    (ht : Spaced vs t.toList) (h : ws.map latinUpper = vs.map latinUpper) :
    (∀ e, Clause.ofText e s = Clause.ofText e t) ∧ (∀ u : Subject, u.filters s = u.filters t) ∧
      ∀ id, (Request.scores id (some s)).predicates = (Request.scores id (some t)).predicates := by
  have hwords : words (lower s.toList) = words (lower t.toList) := by
    calc words (lower s.toList) = ws.map lower := by rw [words_lower, words_of_spaced hs]
      _ = (ws.map latinUpper).map lower := (map_lower_latinUpper ws).symm
      _ = (vs.map latinUpper).map lower := by rw [h]
      _ = vs.map lower := map_lower_latinUpper vs
      _ = words (lower t.toList) := by rw [words_lower, words_of_spaced ht]
  have hclauses : ∀ e, Clause.ofText e s = Clause.ofText e t := by
    intro e
    rw [Clause.ofText, hwords, Clause.ofText]
  have hfilters : ∀ u : Subject, u.filters s = u.filters t := by
    intro u
    rw [Subject.filters_eq, hclauses, Subject.filters_eq]
  refine ⟨hclauses, hfilters, fun id => ?_⟩
  have hscores : ∀ m, scoreFilters m s = scoreFilters m t := fun m => hfilters (.scores m)
  simp only [Request.predicates, Request.ofFilters, hscores]

theorem filters_ignore_blanks_and_case_sigma :
    (Subject.scores .osu).filters "\tDATE>aΣ\u3000Rank/xHs " =
    (Subject.scores .osu).filters "date>AΣ RANK/XhS" ∧
      (Subject.scores .osu).filters "date>AΣ RANK/XhS" =
        .ok [.compare (.score .osu .date) .gt "aς", .oneOf (.score .osu .rank) ["XH", "S"]] := by
  have hs : Spaced ["DATE>aΣ".toList, "Rank/xHs".toList] "\tDATE>aΣ\u3000Rank/xHs ".toList :=
    words_eq_iff.mp (by decide +kernel)
  have ht : Spaced ["date>AΣ".toList, "RANK/XhS".toList] "date>AΣ RANK/XhS".toList :=
    words_eq_iff.mp (by decide +kernel)
  exact ⟨(filters_ignore_blanks_and_case hs ht (by decide +kernel)).2.1 _, by decide +kernel⟩

end RhythmFilter
