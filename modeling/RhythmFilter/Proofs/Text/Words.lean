import Mathlib.Data.List.Basic
import Mathlib.Data.List.TakeWhile
import RhythmFilter.Text.Pieces

/-!
# Words

What `words` finds in a text, and how it undoes writing words with spaces between them. The last part
looks at a word that stands somewhere in a text: it lies inside one of the text's words, so no
occurrence reaches across a blank.
-/

namespace RhythmFilter.Text

theorem forall_of_all {P : Char → Prop} [DecidablePred P] {s : List Char}
    (h : (s.all fun c => decide (P c)) = true) : ∀ c ∈ s, P c := by
  simpa using h

def IsWord (w : List Char) : Prop := w ≠ [] ∧ ∀ c ∈ w, isBlank c = false

section
variable (sep : Char → Bool)

theorem growFirst_flatten (c : Char) (ps : List (List Char)) : (growFirst c ps).flatten = c :: ps.flatten := by
  cases ps with
  | nil => rfl
  | cons p ps => simp [growFirst]

/-- Only the separators get lost. -/
theorem pieces_flatten : ∀ s : List Char, (pieces sep s).flatten = s.filter fun c => !sep c
  | [] => rfl
  | c :: s => by
    unfold pieces
    by_cases hc : sep c = true
    · simp [hc, pieces_flatten s]
    · simp [hc, growFirst_flatten, pieces_flatten s]

theorem sep_of_mem_growFirst {c : Char} {s : List Char} (hc : sep c = false)
    (h : ∀ p ∈ pieces sep s, ∀ d ∈ p, sep d = false) :
    ∀ p ∈ growFirst c (pieces sep s), ∀ d ∈ p, sep d = false := by
  obtain ⟨q, qs, hq⟩ := List.exists_cons_of_ne_nil (pieces_ne_nil sep s)
  rw [hq] at h ⊢
  intro p hp
  rcases List.mem_cons.mp hp with e | hp
  · subst e
    exact List.forall_mem_cons.mpr ⟨hc, h q List.mem_cons_self⟩
  · exact h p (List.mem_cons_of_mem _ hp)

theorem sep_of_mem_pieces : ∀ {s p : List Char}, p ∈ pieces sep s → ∀ c ∈ p, sep c = false
  | [], p, hp => by
    have : p = [] := by simpa [pieces] using hp
    simp [this]
  | c :: s, p, hp => by
    have ih : ∀ q ∈ pieces sep s, ∀ d ∈ q, sep d = false := fun q hq => sep_of_mem_pieces hq
    unfold pieces at hp
    by_cases hc : sep c = true
    · simp only [hc, ite_true] at hp
      rcases List.mem_cons.mp hp with e | hp
      · simp [e]
      · exact ih p hp
    · simp only [hc] at hp
      exact sep_of_mem_growFirst sep (by simpa using hc) ih p hp

end

@[simp] theorem words_nil : words [] = [] := rfl

theorem isWord_of_mem_words {s w : List Char} (h : w ∈ words s) : IsWord w := by
  obtain ⟨hp, hne⟩ := List.mem_filter.mp h
  exact ⟨by simpa using hne, sep_of_mem_pieces isBlank hp⟩

theorem words_flatten (s : List Char) : (words s).flatten = squeeze s := by
  rw [words, List.flatten_filter_ne_nil, pieces_flatten, squeeze]

theorem words_of_isWord {w : List Char} (h : IsWord w) : words w = [w] := by
  rw [words, pieces_of_none isBlank h.2]
  simp [h.1]

theorem words_cons_blank {c : Char} (h : isBlank c = true) (s : List Char) : words (c :: s) = words s := by
  simpa using words_append_blank [] s h

/-! ## Words with spaces between them -/

theorem isBlank_space : isBlank ' ' = true := by decide

/-- The spaces keep the words of the texts apart, whatever the texts are. -/
theorem words_intercalate_flatMap : ∀ ts : List (List Char), words ([' '].intercalate ts) = ts.flatMap words
  | [] => rfl
  | [t] => by rw [List.intercalate_singleton, List.flatMap_singleton]
  | t :: u :: ts => by
    rw [List.intercalate_cons_cons, List.append_assoc, List.singleton_append,
      words_append_blank _ _ isBlank_space, words_intercalate_flatMap (u :: ts)]
    rfl

theorem words_intercalate {ws : List (List Char)} (h : ∀ w ∈ ws, IsWord w) :
    words ([' '].intercalate ws) = ws := by
  have hwords : ∀ w ∈ ws, words w = [w] := fun w hw => words_of_isWord (h w hw)
  rw [words_intercalate_flatMap, List.flatMap_congr hwords]
  exact List.flatMap_singleton' ws

theorem intercalate_ne_nil {sep w : List Char} (h : w ≠ []) (ws : List (List Char)) :
    sep.intercalate (w :: ws) ≠ [] := by
  cases ws with
  | nil => simpa using h
  | cons v vs => simp [List.intercalate_cons_cons, h]

/-! ## The ends of a text -/

def Trimmed (s : List Char) : Prop :=
  (∀ c ∈ s.head?, isBlank c = false) ∧ ∀ c ∈ s.getLast?, isBlank c = false

theorem trimmed_of_plain {s : List Char} (h : ∀ c ∈ s, isBlank c = false) : Trimmed s :=
  ⟨fun c hc => h c (List.mem_of_mem_head? hc), fun c hc => h c (List.mem_of_mem_getLast? hc)⟩

theorem trimmed_of_isWord {w : List Char} (h : IsWord w) : Trimmed w := trimmed_of_plain h.2

theorem trimmed_intercalate : ∀ {ws : List (List Char)}, (∀ w ∈ ws, IsWord w) → Trimmed ([' '].intercalate ws)
  | [], _ => ⟨by simp, by simp⟩
  | [w], h => by
    rw [List.intercalate_singleton]
    exact trimmed_of_isWord (h w List.mem_cons_self)
  | w :: v :: ws, h => by
    have hw : IsWord w := h w List.mem_cons_self
    have hv : IsWord v := h v (by simp)
    have ih : Trimmed ([' '].intercalate (v :: ws)) :=
      trimmed_intercalate fun u hu => h u (List.mem_cons_of_mem _ hu)
    rw [List.intercalate_cons_cons]
    refine ⟨?_, ?_⟩
    · rw [List.append_assoc, List.head?_append_of_ne_nil _ hw.1]
      exact (trimmed_of_isWord hw).1
    · rw [List.getLast?_append_of_ne_nil _ (intercalate_ne_nil hv.1 ws)]
      exact ih.2

theorem dropWhile_eq_self {p : Char → Bool} {s : List Char} (h : ∀ c ∈ s.head?, p c = false) :
    s.dropWhile p = s := by
  cases s with
  | nil => rfl
  | cons c s => simp [h c rfl]

theorem trim_eq_self {s : List Char} (h : Trimmed s) : trim s = s := by
  have hlast : ∀ c ∈ s.reverse.head?, isBlank c = false := by
    rw [List.head?_reverse]
    exact h.2
  rw [trim, dropWhile_eq_self h.1, dropWhile_eq_self hlast, List.reverse_reverse]

theorem trimmed_nil : Trimmed [] := ⟨by simp, by simp⟩

theorem trimmed_trim (s : List Char) : Trimmed (trim s) := by
  -- what is cut off behind leaves the front as it is
  have hfront : trim s <+: s.dropWhile isBlank := by
    rw [← List.reverse_suffix, trim, List.reverse_reverse]
    exact List.dropWhile_suffix _
  refine ⟨fun c hc => ?_, fun c hc => ?_⟩
  · obtain ⟨t, ht⟩ := hfront
    have hc : c ∈ (s.dropWhile isBlank).head? := ht ▸ List.mem_head?_append_of_mem_head? hc
    have := List.head?_dropWhile_not isBlank s
    rwa [Option.mem_def.mp hc] at this
  · rw [trim, List.getLast?_reverse] at hc
    have := List.head?_dropWhile_not isBlank (s.dropWhile isBlank).reverse
    rwa [Option.mem_def.mp hc] at this

theorem words_eq_nil_iff {s : List Char} (h : Trimmed s) : words s = [] ↔ s = [] := by
  refine ⟨fun hs => ?_, fun hs => by rw [hs, words_nil]⟩
  have hsqueeze : squeeze s = [] := by rw [← words_flatten, hs, List.flatten_nil]
  cases s with
  | nil => rfl
  | cons c s =>
    have hc : isBlank c = false := h.1 c rfl
    simp [squeeze, hc] at hsqueeze

/-! ## A word inside a text -/

theorem occursIn_iff {part : List Char} : ∀ {s : List Char}, occursIn part s = true ↔ part <:+: s
  | [] => by simp [occursIn, List.infix_nil]
  | c :: s => by
    rw [occursIn, Bool.or_eq_true, List.isPrefixOf_iff_prefix, occursIn_iff, List.infix_cons_iff]

theorem head_piece_prefix : ∀ {s p : List Char} {ps : List (List Char)}, pieces isBlank s = p :: ps →
    p <+: s ∧ ∀ q ∈ ps, q <:+: s
  | [], p, ps, h => by
    have : [] = p ∧ [] = ps := by simpa [pieces] using h
    simp [← this.1, ← this.2]
  | c :: s, p, ps, h => by
    obtain ⟨q, qs, hq⟩ := List.exists_cons_of_ne_nil (pieces_ne_nil isBlank s)
    obtain ⟨hp, hps⟩ := head_piece_prefix hq
    have hgrow : ∀ r, r <:+: s → r <:+: c :: s := fun r hr => hr.trans (List.suffix_cons c s).isInfix
    unfold pieces at h
    by_cases hc : isBlank c = true
    · simp only [hc, ite_true, hq, List.cons.injEq] at h
      obtain ⟨h1, h2⟩ := h
      subst h1; subst h2
      exact ⟨List.nil_prefix, List.forall_mem_cons.mpr ⟨hgrow q hp.isInfix, fun r hr => hgrow r (hps r hr)⟩⟩
    · simp only [hc, hq, growFirst] at h
      obtain ⟨h1, h2⟩ := List.cons.inj h
      subst h1; subst h2
      exact ⟨List.cons_prefix_cons.mpr ⟨rfl, hp⟩, fun r hr => hgrow r (hps r hr)⟩

theorem infix_of_mem_words {s w : List Char} (h : w ∈ words s) : w <:+: s := by
  obtain ⟨q, qs, hq⟩ := List.exists_cons_of_ne_nil (pieces_ne_nil isBlank s)
  obtain ⟨hp, hps⟩ := head_piece_prefix hq
  have hw : w ∈ q :: qs := hq ▸ (List.mem_filter.mp h).1
  rcases List.mem_cons.mp hw with e | hw
  · exact e ▸ hp.isInfix
  · exact hps w hw

theorem exists_span (p : Char → Bool) (s : List Char) : ∃ w t, s = w ++ t ∧ (∀ c ∈ w, p c = true) ∧
    ∀ c ∈ t.head?, p c = false := by
  refine ⟨s.takeWhile p, s.dropWhile p, List.takeWhile_append_dropWhile.symm,
    fun c hc => List.mem_takeWhile_imp hc, fun c hc => ?_⟩
  have := List.head?_dropWhile_not p s
  rwa [Option.mem_def.mp hc] at this

theorem span_append {p : Char → Bool} {w t : List Char} (hw : ∀ c ∈ w, p c = true)
    (ht : ∀ c ∈ t.head?, p c = false) : (w ++ t).takeWhile p = w ∧ (w ++ t).dropWhile p = t := by
  have htake : t.takeWhile p = [] := by
    cases t with
    | nil => rfl
    | cons c t => simp [ht c rfl]
  refine ⟨?_, ?_⟩
  · rw [List.takeWhile_append_of_pos hw, htake, List.append_nil]
  · rw [List.dropWhile_append_of_pos hw, dropWhile_eq_self ht]

/-- A text is cut in one way only where a character stands for the first time. -/
theorem eq_of_append_cons {c : Char} {w w' r r' : List Char} (hw : c ∉ w) (hw' : c ∉ w')
    (h : w ++ c :: r = w' ++ c :: r') : w = w' ∧ r = r' := by
  have hfront : ∀ {v s : List Char}, c ∉ v → (v ++ c :: s).takeWhile (· ≠ c) = v := by
    intro v s hv
    refine (span_append (fun d hd => ?_) (by simp)).1
    have : d ≠ c := fun e => hv (e ▸ hd)
    simpa using this
  have hww : w = w' := by rw [← hfront hw, h, hfront hw']
  subst hww
  simpa using h

theorem exists_front (s : List Char) : ∃ w t, s = w ++ t ∧ (∀ c ∈ w, isBlank c = false) ∧
    ∀ c ∈ t.head?, isBlank c = true := by
  simpa using exists_span (fun c => !isBlank c) s

theorem exists_back (s : List Char) : ∃ t w, s = t ++ w ∧ (∀ c ∈ w, isBlank c = false) ∧
    ∀ c ∈ t.getLast?, isBlank c = true := by
  obtain ⟨w, t, hs, hw, ht⟩ := exists_front s.reverse
  refine ⟨t.reverse, w.reverse, ?_, by simpa using hw, ?_⟩
  · rw [← List.reverse_append, ← hs, List.reverse_reverse]
  · rw [List.getLast?_reverse]
    exact ht

theorem words_append_of_head {w t : List Char} (hw : IsWord w) (ht : ∀ c ∈ t.head?, isBlank c = true) :
    words (w ++ t) = w :: words t := by
  cases t with
  | nil => simp [words_of_isWord hw]
  | cons c t =>
    have hc : isBlank c = true := ht c rfl
    rw [words_append_blank _ _ hc, words_of_isWord hw, words_cons_blank hc]
    rfl

theorem words_append_of_getLast {s t : List Char} (hs : ∀ c ∈ s.getLast?, isBlank c = true) :
    words (s ++ t) = words s ++ words t := by
  rcases List.eq_nil_or_concat s with e | ⟨s', c, e⟩
  · subst e; rfl
  · subst e
    have hc : isBlank c = true := hs c (by simp)
    rw [List.concat_eq_append, List.append_assoc, List.singleton_append, words_append_blank _ _ hc,
      words_append_blank _ _ hc, words_nil, List.append_nil]

/-- Wherever a word stands in a text, a word of the text stands around it. If that is nothing but the
first word, there are blanks, or the ends of the text, on both sides. -/
theorem word_around {a : List Char} (ha : IsWord a) (u v : List Char) :
    ∃ x y, x ++ a ++ y ∈ words (u ++ a ++ v) ∧ (x = [] → ∀ c ∈ u.getLast?, isBlank c = true) ∧
      (y = [] → ∀ c ∈ v.head?, isBlank c = true) := by
  obtain ⟨u', x, hu, hx, hux⟩ := exists_back u
  obtain ⟨y, v', hv, hy, hvy⟩ := exists_front v
  subst hu; subst hv
  have hword : IsWord (x ++ a ++ y) := by
    refine ⟨by simp [ha.1], fun c hc => ?_⟩
    rcases List.mem_append.mp hc with hc | hc
    · exact (List.mem_append.mp hc).elim (hx c) (ha.2 c)
    · exact hy c hc
  refine ⟨x, y, ?_, fun e => by simpa [e] using hux, fun e => by simpa [e] using hvy⟩
  have : u' ++ x ++ a ++ (y ++ v') = u' ++ ((x ++ a ++ y) ++ v') := by simp
  rw [this, words_append_of_getLast hux, words_append_of_head hword hvy]
  simp

end RhythmFilter.Text
