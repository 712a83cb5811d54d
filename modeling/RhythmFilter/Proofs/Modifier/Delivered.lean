import RhythmFilter.Proofs.Mode.Positions
import RhythmFilter.Proofs.Modifier.Line
import RhythmFilter.Proofs.Text.Spaced

/-!
# Delivered acronyms

The acronyms of delivered modifiers are texts of any kind, and what they deliver are the words in them. The
line that holds the modifiers has just these words, so putting it into order depends on nothing else, and
changes nothing else about the line.
-/

namespace RhythmFilter.ModLine

open Text

/-- The acronyms of the modifiers are these words with blanks between them and around them. -/
def Delivers (ms : List Modifier) (ws : List String) : Prop :=
  ∃ cuts, List.Forall₂ (fun d cut => Spaced cut d.acronym.toList) ms cuts ∧ ws = cuts.flatten.map String.ofList

theorem words_ofModifiers (ms : List Modifier) :
    words (ofModifiers ms).mods.toList = ms.flatMap fun d => words d.acronym.toList := by
  rw [ofModifiers, String.toList_ofList, words_trim, toList_joined, words_intercalate_flatMap]
  simp only [List.flatMap_map]

theorem delivers_iff {ms : List Modifier} {ws : List String} :
    Delivers ms ws ↔ ws = (ofModifiers ms).acronyms := by
  have hcuts : ∀ cuts, List.Forall₂ (fun (d : Modifier) cut => Spaced cut d.acronym.toList) ms cuts ↔
      ms.map (fun d => words d.acronym.toList) = cuts := by
    intro cuts
    simp only [← words_eq_iff]
    rw [← List.forall₂_map_left_iff, List.forall₂_eq_eq_eq]
  unfold Delivers
  simp only [hcuts, exists_eq_left']
  rw [acronyms, words_ofModifiers, List.flatMap_def]

theorem canonicalize_isOk_iff {m : Mode} {l : ModLine} :
    (∃ q, l.canonicalize m = .ok q) ↔ ∀ a ∈ l.acronyms, a ∈ m.order := by
  rw [← Mode.arrange_isOk_iff]
  simp [canonicalize_ok_iff]

theorem canonicalize_error_iff {m : Mode} {l : ModLine} {e : Refusal} :
    l.canonicalize m = .error e ↔ ∃ a, m.FirstUnknown l.acronyms a ∧ e = .unknownAcronym m a := by
  rw [← Mode.arrange_error_iff, canonicalize]
  cases m.arrange l.acronyms with
  | error e => simp [Except.map]
  | ok as => simp [Except.map]

theorem isNomod_iff {l : ModLine} (h : Trimmed l.mods.toList) : l.isNomod = true ↔ l.acronyms = [] := by
  rw [isNomod, String.isEmpty_iff, mods_eq_empty_iff h]

theorem isNomod_of_canonicalize {m : Mode} {l q : ModLine} (hl : Trimmed l.mods.toList)
    (h : l.canonicalize m = .ok q) :
    q.isNomod = l.isNomod := by
  have hperm := acronyms_perm_of_canonicalize h
  have : q.acronyms = [] ↔ l.acronyms = [] := by
    rw [← List.length_eq_zero_iff, hperm.length_eq, List.length_eq_zero_iff]
  rw [Bool.eq_iff_iff, isNomod_iff (trimmed_of_canonicalize h), isNomod_iff hl, this]

theorem settings_of_canonicalize {m : Mode} {l q : ModLine} (h : l.canonicalize m = .ok q) :
    q.settings = l.settings := by
  obtain ⟨as, _, hq⟩ := canonicalize_ok_iff.mp h
  rw [hq]

theorem canonicalize_again {m : Mode} {l q : ModLine} (h : l.canonicalize m = .ok q) :
    q.canonicalize m = .ok q := by
  obtain ⟨harr, hmods⟩ := arrange_of_canonicalize h
  rw [canonicalize_ok_iff]
  refine ⟨q.acronyms, Mode.arrange_of_ascending (Mode.ascending_of_arrange harr), ?_⟩
  rw [← hmods]

theorem mods_eq_of_perm {m : Mode} {k l p q : ModLine} (hperm : k.acronyms.Perm l.acronyms)
    (hk : k.canonicalize m = .ok p) (hl : l.canonicalize m = .ok q) : p.mods = q.mods := by
  obtain ⟨hp, hpmods⟩ := arrange_of_canonicalize hk
  obtain ⟨hq, hqmods⟩ := arrange_of_canonicalize hl
  rw [hpmods, hqmods, (Mode.arrange_eq_iff hp hq).mpr hperm]

theorem canonicalize_of_perm {m : Mode} {k l : ModLine} (h : k.acronyms.Perm l.acronyms) :
    (∃ p q, k.canonicalize m = .ok p ∧ l.canonicalize m = .ok q ∧ p.mods = q.mods) ∨
      (∃ e, k.canonicalize m = .error e) ∧ ∃ e, l.canonicalize m = .error e := by
  have hok : (∃ p, k.canonicalize m = .ok p) ↔ ∃ q, l.canonicalize m = .ok q := by
    rw [canonicalize_isOk_iff, canonicalize_isOk_iff]
    simp only [h.mem_iff]
  cases hk : k.canonicalize m with
  | ok p =>
    obtain ⟨q, hq⟩ := hok.mp ⟨p, hk⟩
    exact Or.inl ⟨p, q, rfl, hq, mods_eq_of_perm h hk hq⟩
  | error e =>
    cases hl : l.canonicalize m with
    | ok q =>
      obtain ⟨p, hp⟩ := hok.mpr ⟨q, hl⟩
      rw [hk] at hp
      cases hp
    | error e' => exact Or.inr ⟨⟨e, rfl⟩, e', rfl⟩

/-- Which words the modifiers deliver settles whether the line can be put into order and what its acronyms are
then; the rest of the line stays. -/
theorem delivered_in_order (m : Mode) (ms : List Modifier) :
    ∃ ws, (∀ vs, Delivers ms vs ↔ vs = ws) ∧
      ((∃ q, (ofModifiers ms).canonicalize m = .ok q) ↔ ∀ a ∈ ws, a ∈ m.order) ∧
      (∀ e, (ofModifiers ms).canonicalize m = .error e ↔ ∃ a, m.FirstUnknown ws a ∧ e = .unknownAcronym m a) ∧
      (∀ q, (ofModifiers ms).canonicalize m = .ok q →
        ∃ as, m.arrange ws = .ok as ∧ q.mods = " ".intercalate as ∧ q.acronyms = as ∧
          q.settings = (ofModifiers ms).settings ∧ q.isNomod = (ofModifiers ms).isNomod ∧
          q.canonicalize m = .ok q) ∧
      ∀ ns vs, Delivers ns vs → vs.Perm ws →
        (∃ p q, (ofModifiers ns).canonicalize m = .ok p ∧ (ofModifiers ms).canonicalize m = .ok q ∧
          p.mods = q.mods) ∨
          (∃ e, (ofModifiers ns).canonicalize m = .error e) ∧
          ∃ e, (ofModifiers ms).canonicalize m = .error e := by
  refine ⟨(ofModifiers ms).acronyms, fun vs => delivers_iff, canonicalize_isOk_iff,
    fun e => canonicalize_error_iff,
    ?_, ?_⟩
  · intro q h
    obtain ⟨harr, hmods⟩ := arrange_of_canonicalize h
    have hnomod := isNomod_of_canonicalize (trimmed_ofModifiers ms) h
    exact ⟨q.acronyms, harr, hmods, rfl, settings_of_canonicalize h, hnomod, canonicalize_again h⟩
  · intro ns vs hvs hperm
    rw [delivers_iff.mp hvs] at hperm
    exact canonicalize_of_perm hperm

example : (ofModifiers [⟨"HD\u3000DT", none⟩, ⟨"", none⟩, ⟨" ", none⟩, ⟨"EZ", none⟩]).acronyms =
    ["HD", "DT", "EZ"] := by
  decide +kernel

end RhythmFilter.ModLine
