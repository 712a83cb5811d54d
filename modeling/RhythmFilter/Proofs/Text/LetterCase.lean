import RhythmFilter.Proofs.Text.SmallLetters

/-!
# Letter case and the cuts of a text

Lower case turns no other character into a blank or a sign of an operator, so the words of a text in lower
case are the words of the text, each in lower case. Latin letters may be written small or as capitals: both
mappings, and the search for cased letters around a sigma, treat the two alike.
-/

namespace RhythmFilter.Text

/-! ## Bars come from bars -/

def standing (q : CodeRange) : CaseRun := ⟨q.1, q.2, 1, q.1⟩

theorem exists_standing {ranges : List CodeRange} {n : Nat} (h : covers ranges n = true) :
    ∃ q ∈ ranges, (standing q).imageOf? n = some n := by
  obtain ⟨q, hq, hn⟩ := List.any_eq_true.mp h
  simp only [Bool.and_eq_true, decide_eq_true_eq] at hn
  refine ⟨q, hq, ?_⟩
  rw [standing, CaseRun.imageOf?, if_pos ⟨hn.1, hn.2, Nat.mod_one _⟩, Nat.add_sub_cancel' hn.1]

theorem not_covers_image {r : CaseRun} {n m : Nat} (hr : r ∈ lowerRuns) (h : r.imageOf? n = some m) :
    covers barRanges m = false := by
  have hall : (lowerRuns.all fun r => barRanges.all fun q => r.avoids (standing q)) = true := by decide +kernel
  by_contra hm
  obtain ⟨q, hq, hqm⟩ := exists_standing (eq_true_of_ne_false hm)
  have havoids : r.avoids (standing q) = true := List.all_eq_true.mp (List.all_eq_true.mp hall r hr) q hq
  rw [CaseRun.imageOf?_of_avoids havoids h] at hqm
  cases hqm

theorem covers_ofNat {n : Nat} (h : covers barRanges (Char.ofNat n).toNat = true) :
    covers barRanges n = true := by
  unfold Char.ofNat at h
  by_cases hn : n.isValidChar
  · rwa [dif_pos hn] at h
  · rw [dif_neg hn] at h
    exact absurd h (by decide)

/-- A bar is the small form of nothing but itself. -/
theorem eq_of_mem_lowerChar {c d : Char} (h : d ∈ lowerChar c) (hd : covers barRanges d.toNat = true) :
    d = c := by
  by_cases hc : c = 'İ'
  · have hnone : ∀ d ∈ lowerChar 'İ', ¬ covers barRanges d.toNat = true := forall_of_all (by decide +kernel)
    exact absurd hd (hnone d (hc ▸ h))
  · rw [lowerChar, if_neg hc, List.mem_singleton] at h
    rcases mapCode_eq_self_or lowerRuns c.toNat with hn | ⟨r, hr, hm⟩
    · rw [h, hn, Char.ofNat_toNat]
    · rw [h] at hd
      have := covers_ofNat hd
      rw [not_covers_image hr hm] at this
      cases this

theorem not_covers_lowerSigma (before after : List Char) :
    covers barRanges (lowerSigma before after).toNat = false := by
  unfold lowerSigma
  split
  · decide +kernel
  · decide +kernel

theorem mem_of_mem_lowerAfter : ∀ {s before : List Char} {d : Char}, d ∈ lowerAfter before s →
    covers barRanges d.toNat = true → d ∈ s
  | [], _, d, h, _ => by simp [lowerAfter] at h
  | c :: s, before, d, h, hd => by
    unfold lowerAfter at h
    rcases List.mem_append.mp h with h | h
    · split at h
      · rw [List.mem_singleton.mp h, not_covers_lowerSigma] at hd
        cases hd
      · rw [eq_of_mem_lowerChar h hd]
        exact List.mem_cons_self
    · exact List.mem_cons_of_mem _ (mem_of_mem_lowerAfter h hd)

theorem mem_of_mem_lower {s : List Char} {d : Char} (h : d ∈ lower s) (hd : covers barRanges d.toNat = true) :
    d ∈ s := mem_of_mem_lowerAfter h hd

theorem lower_avoids {p : Char → Bool} (hp : ∀ d, p d = true → covers barRanges d.toNat = true) {s : List Char}
    (h : ∀ c ∈ s, p c = false) : ∀ d ∈ lower s, p d = false := by
  intro d hd
  by_contra hpd
  have hpd : p d = true := eq_true_of_ne_false hpd
  have := h d (mem_of_mem_lower hd (hp d hpd))
  rw [hpd] at this
  cases this

theorem lower_ne_nil {s : List Char} (h : s ≠ []) : lower s ≠ [] := by
  obtain ⟨c, t, e⟩ := List.exists_cons_of_ne_nil h
  rw [e, lower, lowerAfter]
  split
  · exact List.cons_ne_nil _ _
  · exact List.append_ne_nil_of_left_ne_nil (lowerChar_ne_nil c) _

theorem isWord_lower {w : List Char} (h : IsWord w) : IsWord (lower w) :=
  ⟨lower_ne_nil h.1, lower_avoids (fun _ => covers_bar_of_isBlank) h.2⟩

/-! ## Words -/

theorem lower_append_of_head {w s : List Char} (hs : ∀ c ∈ s.head?, isBlank c = true) :
    lower (w ++ s) = lower w ++ lower s := by
  cases s with
  | nil => rw [List.append_nil, lower, lower, lowerAfter, List.append_nil]
  | cons c s =>
    have hc : IsBar c := isBar_blank (hs c rfl)
    have hcs : lower (c :: s) = c :: lower s := lower_append_bar hc [] s
    rw [lower_append_bar hc, hcs]

theorem head?_lower {s : List Char} (hs : ∀ c ∈ s.head?, isBlank c = true) :
    ∀ c ∈ (lower s).head?, isBlank c = true := by
  cases s with
  | nil => exact hs
  | cons c s =>
    have hcs : lower (c :: s) = c :: lower s := lower_append_bar (isBar_blank (hs c rfl)) [] s
    rw [hcs]
    exact hs

theorem spaced_lower {ws : List (List Char)} {s : List Char} (h : Spaced ws s) :
    Spaced (ws.map lower) (lower s) := by
  induction h with
  | @blanks gap hgap =>
    have hlower : lower gap = gap := lower_eq_self_iff.mpr fun c hc => (isBar_blank (hgap c hc)).small
    rw [hlower]
    exact .blanks hgap
  | word hgap hw hs _ ih =>
    rw [lower_gap_append hgap, lower_append_of_head hs]
    exact .word hgap (isWord_lower hw) (head?_lower hs) ih

theorem words_lower (s : List Char) : words (lower s) = (words s).map lower :=
  words_of_spaced (spaced_lower (words_eq_iff.mp rfl))

/-! ## Latin letters -/

/-- The text with the letters `a` to `z` as capitals; other letters stay. -/
def latinUpper (s : List Char) : List Char := s.map Char.toUpper

def latinSmall : List CodeRange := [(0x61, 0x7A)]

theorem toUpper_eq_self {c : Char} (h : covers latinSmall c.toNat = false) : c.toUpper = c := by
  unfold Char.toUpper
  split
  · rename_i hc
    have : covers latinSmall c.toNat = true := by
      have h1 : 97 ≤ c.toNat := UInt32.le_iff_toNat_le.mp hc.1
      have h2 : c.toNat ≤ 122 := UInt32.le_iff_toNat_le.mp hc.2
      simp [covers, latinSmall, h1, h2]
    rw [h] at this
    cases this
  · rfl

/-- What treats the small Latin letters as their capitals does so with every character. -/
theorem apply_toUpper {α : Type} {f : Char → α}
    (h : ∀ n ∈ codes latinSmall, f (Char.ofNat n).toUpper = f (Char.ofNat n))
    (c : Char) : f c.toUpper = f c := by
  by_cases hc : covers latinSmall c.toNat = true
  · have := h c.toNat (mem_codes_of_covers hc)
    rwa [Char.ofNat_toNat] at this
  · rw [toUpper_eq_self (by simpa using hc)]

theorem upperChar_toUpper (c : Char) : upperChar c.toUpper = upperChar c := apply_toUpper (by decide +kernel) c

theorem lowerChar_toUpper (c : Char) : lowerChar c.toUpper = lowerChar c := apply_toUpper (by decide +kernel) c

theorem isCased_toUpper (c : Char) : isCased c.toUpper = isCased c := apply_toUpper (by decide +kernel) c

theorem isCaseIgnorable_toUpper (c : Char) : isCaseIgnorable c.toUpper = isCaseIgnorable c :=
  apply_toUpper (by decide +kernel) c

theorem toUpper_eq_sigma_iff (c : Char) : c.toUpper = 'Σ' ↔ c = 'Σ' :=
  decide_eq_decide.mp (apply_toUpper (f := fun c => decide (c = 'Σ')) (by decide +kernel) c)

theorem upper_latinUpper (s : List Char) : upper (latinUpper s) = upper s := by
  unfold upper latinUpper
  rw [List.flatMap_map]
  exact List.flatMap_congr fun c _ => upperChar_toUpper c

theorem meetsCased_latinUpper (s : List Char) : meetsCased (latinUpper s) = meetsCased s := by
  induction s with
  | nil => rfl
  | cons c s ih =>
    unfold meetsCased latinUpper at ih ⊢
    rw [List.map_cons, List.dropWhile_cons, List.dropWhile_cons, isCaseIgnorable_toUpper]
    by_cases hc : isCaseIgnorable c = true
    · simpa [hc] using ih
    · simp [hc, isCased_toUpper]

theorem lowerAfter_latinUpper : ∀ s before : List Char,
    lowerAfter (latinUpper before) (latinUpper s) = lowerAfter before s
  | [], _ => rfl
  | c :: s, before => by
    have ih : lowerAfter (c.toUpper :: latinUpper before) (latinUpper s) = lowerAfter (c :: before) s :=
      lowerAfter_latinUpper s (c :: before)
    have hsigma : lowerSigma (latinUpper before) (latinUpper s) = lowerSigma before s := by
      rw [lowerSigma, meetsCased_latinUpper, meetsCased_latinUpper, lowerSigma]
    have hcons : latinUpper (c :: s) = c.toUpper :: latinUpper s := rfl
    rw [hcons, lowerAfter, lowerAfter, ih, hsigma, lowerChar_toUpper]
    simp only [toUpper_eq_sigma_iff]

theorem lower_latinUpper (s : List Char) : lower (latinUpper s) = lower s := lowerAfter_latinUpper s []

end RhythmFilter.Text
