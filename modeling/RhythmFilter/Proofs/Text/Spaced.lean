import RhythmFilter.Proofs.Text.Words

/-!
# Words with blanks around them

`Spaced ws s` says that the text `s` is the words `ws` with blanks between them, and perhaps before and
behind. Every text is made of words in one way, and these are the words that `words` finds. `laidOut` writes
texts in a row with given gaps.
-/

namespace RhythmFilter.Text

def IsGap (s : List Char) : Prop := ∀ c ∈ s, isBlank c = true

inductive Spaced : List (List Char) → List Char → Prop
  | blanks {gap : List Char} : IsGap gap → Spaced [] gap
  | word {gap w s : List Char} {ws : List (List Char)} : IsGap gap → IsWord w →
    (∀ c ∈ s.head?, isBlank c = true) → Spaced ws s → Spaced (w :: ws) (gap ++ (w ++ s))

theorem words_gap_append {gap : List Char} (h : IsGap gap) (s : List Char) : words (gap ++ s) = words s := by
  induction gap with
  | nil => rfl
  | cons c gap ih =>
    obtain ⟨hc, hgap⟩ := List.forall_mem_cons.mp h
    rw [List.cons_append, words_cons_blank hc, ih hgap]

theorem words_gap {gap : List Char} (h : IsGap gap) : words gap = [] := by
  have := words_gap_append h []
  rwa [List.append_nil, words_nil] at this

/-- A gap keeps the words on its two sides apart. -/
theorem words_append_gap_append {gap : List Char} (hne : gap ≠ []) (h : IsGap gap) (s t : List Char) :
    words (s ++ (gap ++ t)) = words s ++ words t := by
  obtain ⟨c, gap', e⟩ := List.exists_cons_of_ne_nil hne
  subst e
  obtain ⟨hc, hgap⟩ := List.forall_mem_cons.mp h
  rw [List.cons_append, words_append_blank _ _ hc, words_gap_append hgap]

theorem words_append_gap (s : List Char) {gap : List Char} (h : IsGap gap) : words (s ++ gap) = words s := by
  by_cases hne : gap = []
  · rw [hne, List.append_nil]
  · have := words_append_gap_append hne h s []
    rwa [List.append_nil, words_nil, List.append_nil] at this

theorem exists_trimmed (s : List Char) :
    ∃ before after, IsGap before ∧ IsGap after ∧ s = before ++ (trim s ++ after) := by
  refine ⟨s.takeWhile isBlank, ((s.dropWhile isBlank).reverse.takeWhile isBlank).reverse,
    fun c hc => List.mem_takeWhile_imp hc, fun c hc => List.mem_takeWhile_imp (List.mem_reverse.mp hc), ?_⟩
  rw [trim, ← List.reverse_append, List.takeWhile_append_dropWhile, List.reverse_reverse,
    List.takeWhile_append_dropWhile]

theorem words_trim (s : List Char) : words (trim s) = words s := by
  obtain ⟨before, after, hbefore, hafter, hs⟩ := exists_trimmed s
  conv_rhs => rw [hs]
  rw [words_gap_append hbefore, words_append_gap _ hafter]

theorem words_of_spaced {ws : List (List Char)} {s : List Char} (h : Spaced ws s) : words s = ws := by
  induction h with
  | blanks hgap => exact words_gap hgap
  | word hgap hw hs _ ih => rw [words_gap_append hgap, words_append_of_head hw hs, ih]

theorem exists_spaced (s : List Char) : ∃ ws, Spaced ws s := by
  obtain ⟨gap, t, hs, hgap, ht⟩ := exists_span isBlank s
  cases t with
  | nil =>
    rw [hs, List.append_nil]
    exact ⟨[], .blanks hgap⟩
  | cons c t =>
    obtain ⟨w, u, hwu, hw, hu⟩ := exists_front (c :: t)
    have hc : isBlank c = false := ht c rfl
    -- the word takes the character behind the gap at least, so less of the text is left
    have hne : w ≠ [] := by
      intro e
      rw [e, List.nil_append] at hwu
      have := hu c (by rw [← hwu]; rfl)
      rw [hc] at this
      cases this
    have hlen : u.length < s.length := by
      have := List.length_pos_iff.mpr hne
      rw [hs, hwu, List.length_append, List.length_append]
      omega
    obtain ⟨ws, hws⟩ := exists_spaced u
    rw [hs, hwu]
    exact ⟨w :: ws, .word hgap ⟨hne, hw⟩ hu hws⟩
termination_by s.length

theorem words_eq_iff {ws : List (List Char)} {s : List Char} : words s = ws ↔ Spaced ws s := by
  refine ⟨fun h => ?_, words_of_spaced⟩
  obtain ⟨vs, hvs⟩ := exists_spaced s
  rw [← h, words_of_spaced hvs]
  exact hvs

/-! ## Texts in a row -/

def laidOut (items : List (List Char × List Char)) (last : List Char) : List Char :=
  items.flatMap (fun i => i.1 ++ i.2) ++ last

theorem laidOut_cons (gap w : List Char) (items : List (List Char × List Char)) (last : List Char) :
    laidOut ((gap, w) :: items) last = gap ++ (w ++ laidOut items last) := by
  rw [laidOut, List.flatMap_cons, List.append_assoc, List.append_assoc]
  rfl

theorem head?_laidOut {items : List (List Char × List Char)} {last : List Char}
    (h : ∀ i ∈ items, IsGap i.1 ∧ i.1 ≠ []) (hlast : IsGap last) :
    ∀ c ∈ (laidOut items last).head?, isBlank c = true := by
  cases items with
  | nil => exact fun c hc => hlast c (List.mem_of_mem_head? hc)
  | cons i items =>
    obtain ⟨gap, w⟩ := i
    obtain ⟨hgap, hne⟩ := h (gap, w) List.mem_cons_self
    rw [laidOut_cons, List.head?_append_of_ne_nil _ hne]
    exact fun c hc => hgap c (List.mem_of_mem_head? hc)

/-- The first word needs no gap in front of it. -/
theorem spaced_laidOut : ∀ {items : List (List Char × List Char)} {last : List Char},
    (∀ i ∈ items, IsGap i.1 ∧ IsWord i.2) → (∀ i ∈ items.tail, i.1 ≠ []) → IsGap last →
      Spaced (items.map Prod.snd) (laidOut items last)
  | [], _, _, _, hlast => .blanks hlast
  | (gap, w) :: items, last, h, hbetween, hlast => by
    obtain ⟨⟨hgap, hw⟩, hitems⟩ := List.forall_mem_cons.mp h
    have hrest : Spaced (items.map Prod.snd) (laidOut items last) :=
      spaced_laidOut hitems (fun i hi => hbetween i (List.mem_of_mem_tail hi)) hlast
    have hhead : ∀ c ∈ (laidOut items last).head?, isBlank c = true :=
      head?_laidOut (fun i hi => ⟨(hitems i hi).1, hbetween i hi⟩) hlast
    rw [laidOut_cons]
    exact .word hgap hw hhead hrest

end RhythmFilter.Text
