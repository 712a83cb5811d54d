import RhythmFilter.Proofs.Text.Capitals
import RhythmFilter.Proofs.Text.Spaced

/-!
# What lower case leaves alone

Lower case changes no text that it has made, since no run of capitals holds a small letter of a run. It
changes no blank either and no sign of an operator, and a sigma looks past neither, so a text can be put in
lower case piece by piece between them.
-/

namespace RhythmFilter.Text

/-! ## The runs of capitals -/

theorem CaseRun.imageOf?_eq_some {r : CaseRun} {n m : Nat} (h : r.imageOf? n = some m) :
    r.first ≤ n ∧ n ≤ r.last ∧ (n - r.first) % r.step = 0 ∧ m = r.image + (n - r.first) := by
  unfold imageOf? at h
  split at h
  · rename_i hn
    exact ⟨hn.1, hn.2.1, hn.2.2, (Option.some.inj h).symm⟩
  · cases h

/-- The images of the run are no code points of the other run: they lie before it or behind it, or
between its code points, where these are the odd ones and the images even, or the other way round. -/
def CaseRun.avoids (r q : CaseRun) : Bool :=
  Nat.ble (r.image + (r.last - r.first) + 1) q.first || Nat.ble (q.last + 1) r.image ||
    (Nat.beq q.step 2 && (Nat.beq r.step 2 || Nat.beq r.first r.last) && Nat.beq ((r.image + q.first) % 2) 1)

theorem CaseRun.imageOf?_of_avoids {r q : CaseRun} {n m : Nat} (ha : r.avoids q = true)
    (h : r.imageOf? n = some m) : q.imageOf? m = none := by
  obtain ⟨h1, h2, h3, hm⟩ := imageOf?_eq_some h
  by_contra hne
  obtain ⟨k, hk⟩ := Option.ne_none_iff_exists'.mp hne
  obtain ⟨k1, k2, k3, _⟩ := imageOf?_eq_some hk
  simp only [avoids, Bool.or_eq_true, Bool.and_eq_true, Nat.ble_eq, Nat.beq_eq] at ha
  rcases ha with (ha | ha) | ⟨⟨hq, hr⟩, hodd⟩
  · omega
  · omega
  · rw [hq] at k3
    rcases hr with hr | hr
    · rw [hr] at h3
      omega
    · omega

/-- Small letters are no capitals, and none of them is the dotted `İ`, which no run has. -/
theorem lowerRuns_avoid {r q : CaseRun} (hr : r ∈ lowerRuns) (hq : q ∈ ⟨0x130, 0x130, 1, 0x69⟩ :: lowerRuns) :
    r.avoids q = true := by
  have : (lowerRuns.all fun r => (⟨0x130, 0x130, 1, 0x69⟩ :: lowerRuns).all r.avoids) = true := by
    decide +kernel
  exact List.all_eq_true.mp (List.all_eq_true.mp this r hr) q hq

theorem mapCode_eq_self {runs : List CaseRun} {n : Nat} (h : ∀ r ∈ runs, r.imageOf? n = none) :
    mapCode runs n = n := by
  unfold mapCode
  rw [List.findSome?_eq_none_iff.mpr h]
  rfl

theorem mapCode_eq_self_or (runs : List CaseRun) (n : Nat) :
    mapCode runs n = n ∨ ∃ r ∈ runs, r.imageOf? n = some (mapCode runs n) := by
  unfold mapCode
  cases hf : runs.findSome? (·.imageOf? n) with
  | none => exact Or.inl rfl
  | some m => exact Or.inr (List.exists_of_findSome?_eq_some hf)

/-! ## Small characters -/

def IsOwnSmall (n : Nat) : Prop := n ≠ 0x130 ∧ mapCode lowerRuns n = n

instance (n : Nat) : Decidable (IsOwnSmall n) := inferInstanceAs (Decidable (_ ∧ _))

def IsSmall (c : Char) : Prop := lowerChar c = [c]

instance (c : Char) : Decidable (IsSmall c) := inferInstanceAs (Decidable (_ = _))

theorem isSmall_of_isOwnSmall {c : Char} (h : IsOwnSmall c.toNat) : IsSmall c := by
  have hc : c ≠ 'İ' := by
    intro e
    exact h.1 (by rw [e]; rfl)
  rw [IsSmall, lowerChar, if_neg hc, h.2, Char.ofNat_toNat]

theorem isOwnSmall_image {r : CaseRun} {n m : Nat} (hr : r ∈ lowerRuns) (h : r.imageOf? n = some m) :
    IsOwnSmall m := by
  refine ⟨fun hm => ?_, mapCode_eq_self fun q hq => ?_⟩
  · have := CaseRun.imageOf?_of_avoids (lowerRuns_avoid hr List.mem_cons_self) h
    rw [hm] at this
    exact absurd this (by decide)
  · exact CaseRun.imageOf?_of_avoids (lowerRuns_avoid hr (List.mem_cons_of_mem _ hq)) h

theorem isSmall_ofNat {n : Nat} (h : IsOwnSmall n) : IsSmall (Char.ofNat n) := by
  unfold Char.ofNat
  by_cases hn : n.isValidChar
  · rw [dif_pos hn]
    exact isSmall_of_isOwnSmall h
  · rw [dif_neg hn]
    decide +kernel

theorem isSmall_of_mem_lowerChar {c d : Char} (h : d ∈ lowerChar c) : IsSmall d := by
  by_cases hc : c = 'İ'
  · have : ∀ d ∈ lowerChar 'İ', IsSmall d := forall_of_all (by decide +kernel)
    exact this d (hc ▸ h)
  · have hd : d = Char.ofNat (mapCode lowerRuns c.toNat) := by
      rw [lowerChar, if_neg hc] at h
      exact List.mem_singleton.mp h
    rcases mapCode_eq_self_or lowerRuns c.toNat with hn | ⟨r, hr, hm⟩
    · rw [hn, Char.ofNat_toNat] at hd
      rw [hd, IsSmall, lowerChar, if_neg hc, hn, Char.ofNat_toNat]
    · rw [hd]
      exact isSmall_ofNat (isOwnSmall_image hr hm)

theorem isSmall_lowerSigma (before after : List Char) : IsSmall (lowerSigma before after) := by
  unfold lowerSigma
  split
  · decide +kernel
  · decide +kernel

theorem not_isSmall_sigma : ¬ IsSmall 'Σ' := by decide +kernel

theorem isSmall_of_mem_lowerAfter : ∀ {s before : List Char} {d : Char}, d ∈ lowerAfter before s → IsSmall d
  | [], _, d, h => by simp [lowerAfter] at h
  | c :: s, before, d, h => by
    unfold lowerAfter at h
    rcases List.mem_append.mp h with h | h
    · split at h
      · rw [List.mem_singleton.mp h]
        exact isSmall_lowerSigma before s
      · exact isSmall_of_mem_lowerChar h
    · exact isSmall_of_mem_lowerAfter h

theorem isSmall_of_mem_lower {s : List Char} {d : Char} (h : d ∈ lower s) : IsSmall d :=
  isSmall_of_mem_lowerAfter h

/-! ## Texts without capital sigma -/

theorem lowerAfter_eq_flatMap : ∀ {s : List Char} (before : List Char), 'Σ' ∉ s →
    lowerAfter before s = s.flatMap lowerChar
  | [], _, _ => rfl
  | c :: s, before, h => by
    have hc : c ≠ 'Σ' := fun e => h (e ▸ List.mem_cons_self)
    have hs : 'Σ' ∉ s := fun hs => h (List.mem_cons_of_mem _ hs)
    rw [lowerAfter, if_neg hc, lowerAfter_eq_flatMap _ hs, List.flatMap_cons]

theorem lower_eq_flatMap {s : List Char} (h : 'Σ' ∉ s) : lower s = s.flatMap lowerChar :=
  lowerAfter_eq_flatMap [] h

theorem lowerChar_ne_nil (c : Char) : lowerChar c ≠ [] := by
  unfold lowerChar
  split
  · exact List.cons_ne_nil _ _
  · exact List.cons_ne_nil _ _

theorem flatMap_lowerChar_eq_self {s : List Char} (h : ∀ c ∈ s, IsSmall c) : s.flatMap lowerChar = s := by
  induction s with
  | nil => rfl
  | cons c s ih =>
    obtain ⟨hc, hs⟩ := List.forall_mem_cons.mp h
    rw [List.flatMap_cons, hc, ih hs]
    rfl

theorem lower_eq_self_iff {s : List Char} : lower s = s ↔ ∀ c ∈ s, IsSmall c := by
  refine ⟨fun h c hc => ?_, fun h => ?_⟩
  · rw [← h] at hc
    exact isSmall_of_mem_lower hc
  · rw [lower_eq_flatMap fun hs => not_isSmall_sigma (h _ hs), flatMap_lowerChar_eq_self h]

/-! ## Between bars -/

/-- A character without another case that no sigma looks past. -/
structure IsBar (c : Char) : Prop where
  small : IsSmall c
  not_cased : isCased c = false
  not_ignorable : isCaseIgnorable c = false

section
variable {c : Char} (h : IsBar c)
include h

theorem meetsCased_append_bar (s t : List Char) : meetsCased (s ++ c :: t) = meetsCased s := by
  induction s with
  | nil => simp [meetsCased, h.not_cased, h.not_ignorable]
  | cons d s ih =>
    unfold meetsCased at ih ⊢
    by_cases hd : isCaseIgnorable d = true
    · simpa [hd] using ih
    · simp [hd]

theorem lowerAfter_bar_before (t : List Char) : ∀ s before : List Char,
    lowerAfter (before ++ c :: t) s = lowerAfter before s
  | [], _ => rfl
  | d :: s, before => by
    have ih := lowerAfter_bar_before t s (d :: before)
    rw [List.cons_append] at ih
    rw [lowerAfter, lowerAfter, ih, lowerSigma, meetsCased_append_bar h, lowerSigma]

theorem lowerAfter_append_bar (t : List Char) : ∀ s before : List Char,
    lowerAfter before (s ++ c :: t) = lowerAfter before s ++ c :: lower t
  | [], before => by
    have hc : c ≠ 'Σ' := fun e => not_isSmall_sigma (e ▸ h.small)
    have hbefore : lowerAfter (c :: before) t = lower t := lowerAfter_bar_before h before t []
    rw [List.nil_append, lowerAfter, lowerAfter, if_neg hc, h.small, hbefore]
    rfl
  | d :: s, before => by
    rw [List.cons_append, lowerAfter, lowerAfter, lowerAfter_append_bar t s, lowerSigma,
      meetsCased_append_bar h, lowerSigma, List.append_assoc]

theorem lower_append_bar (s t : List Char) : lower (s ++ c :: t) = lower s ++ c :: lower t :=
  lowerAfter_append_bar h t s []

end

/-- The blanks, and the signs `!`, `/`, `<`, `=` and `>`. -/
def barRanges : List CodeRange := blankRanges ++ [(0x21, 0x21), (0x2F, 0x2F), (0x3C, 0x3E)]

theorem isBar_of_covers {c : Char} (h : covers barRanges c.toNat = true) : IsBar c := by
  have : ∀ n ∈ codes barRanges,
      IsOwnSmall n ∧ covers casedRanges n = false ∧ covers caseIgnorableRanges n = false := by
    decide +kernel
  obtain ⟨hsmall, hcased, hignorable⟩ := this _ (mem_codes_of_covers h)
  exact ⟨isSmall_of_isOwnSmall hsmall, hcased, hignorable⟩

theorem covers_bar_of_isBlank {c : Char} (h : isBlank c = true) : covers barRanges c.toNat = true := by
  rw [covers, barRanges, List.any_append, Bool.or_eq_true]
  exact Or.inl h

theorem isBar_blank {c : Char} (h : isBlank c = true) : IsBar c := isBar_of_covers (covers_bar_of_isBlank h)

theorem lower_intercalate : ∀ ws : List (List Char),
    lower ([' '].intercalate ws) = [' '].intercalate (ws.map lower)
  | [] => rfl
  | [w] => by simp
  | w :: v :: ws => by
    have ih := lower_intercalate (v :: ws)
    rw [List.map_cons] at ih
    rw [List.intercalate_cons_cons, List.append_assoc, List.singleton_append,
      lower_append_bar (isBar_blank isBlank_space), ih,
      List.map_cons, List.map_cons, List.intercalate_cons_cons, List.append_assoc, List.singleton_append]

theorem lower_gap_append {gap : List Char} (h : IsGap gap) (t : List Char) :
    lower (gap ++ t) = gap ++ lower t := by
  induction gap with
  | nil => rfl
  | cons c gap ih =>
    obtain ⟨hc, hgap⟩ := List.forall_mem_cons.mp h
    have := lower_append_bar (isBar_blank hc) [] (gap ++ t)
    rw [List.nil_append, ih hgap] at this
    exact this

theorem lower_append_gap_append {gap : List Char} (hne : gap ≠ []) (h : IsGap gap) (s t : List Char) :
    lower (s ++ (gap ++ t)) = lower s ++ (gap ++ lower t) := by
  obtain ⟨c, gap', e⟩ := List.exists_cons_of_ne_nil hne
  subst e
  obtain ⟨hc, hgap⟩ := List.forall_mem_cons.mp h
  rw [List.cons_append, lower_append_bar (isBar_blank hc), lower_gap_append hgap]
  rfl

end RhythmFilter.Text
