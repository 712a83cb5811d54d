import RhythmFilter.Modifier.Line
import RhythmFilter.Proofs.Mode.Acronyms
import RhythmFilter.Proofs.Text.Joined

/-!
# Lines of known mods

A line that some mode can put into order holds nothing but known acronyms and blanks: upper case leaves
it alone, and in order it is read back as the arranged acronyms.
-/

namespace RhythmFilter.ModLine

open Text

theorem words_eq_map_acronyms (l : ModLine) : words l.mods.toList = l.acronyms.map String.toList := by
  rw [acronyms, map_toList_ofList]

theorem exists_acronym_of_word {l : ModLine} {w : List Char} (h : w ∈ words l.mods.toList) :
    ∃ a ∈ l.acronyms, a.toList = w := by
  rw [words_eq_map_acronyms] at h
  exact List.mem_map.mp h

theorem squeeze_mods (l : ModLine) : squeeze l.mods.toList = l.acronyms.flatMap String.toList := by
  rw [← words_flatten, words_eq_map_acronyms, List.flatMap_def]

theorem acronyms_joined {as : List String} (h : ∀ a ∈ as, IsWord a.toList)
    (settings : Option (List (String × Json.Members))) : acronyms ⟨" ".intercalate as, settings⟩ = as := by
  rw [acronyms, words_joined h, map_ofList_toList]

theorem mods_ofModifiers {ms : List Modifier} (h : ∀ a ∈ ms.map Modifier.acronym, IsWord a.toList) :
    (ofModifiers ms).mods = " ".intercalate (ms.map Modifier.acronym) := by
  rw [ofModifiers, trim_joined h, String.ofList_toList]

theorem mods_ofModifiers_plain {as : List String} (h : ∀ a ∈ as, IsWord a.toList) :
    (ofModifiers (as.map (⟨·, none⟩))).mods = " ".intercalate as := by
  have hacronyms : (as.map fun a => (⟨a, none⟩ : Modifier)).map Modifier.acronym = as := by
    rw [List.map_map]
    exact List.map_id as
  rw [mods_ofModifiers fun a ha => h a (hacronyms ▸ ha), hacronyms]

theorem canonicalize_ok_iff {m : Mode} {l q : ModLine} : l.canonicalize m = .ok q ↔
    ∃ as, m.arrange l.acronyms = .ok as ∧ q = { l with mods := " ".intercalate as } := by
  unfold canonicalize
  cases m.arrange l.acronyms with
  | error e => simp [Except.map]
  | ok as => simp [Except.map, eq_comm]

theorem trimmed_ofModifiers (ms : List Modifier) : Trimmed (ofModifiers ms).mods.toList := by
  rw [ofModifiers, String.toList_ofList]
  exact trimmed_trim _

theorem mods_eq_empty_iff {l : ModLine} (h : Trimmed l.mods.toList) : l.mods = "" ↔ l.acronyms = [] := by
  rw [acronyms, List.map_eq_nil_iff, words_eq_nil_iff h, String.toList_eq_nil_iff]

theorem upper_mods {m : Mode} {l : ModLine} (h : ∀ a ∈ l.acronyms, a ∈ m.order) :
    upper l.mods.toList = l.mods.toList := by
  apply upper_eq_self
  intro c hc
  by_cases hb : isBlank c = true
  · exact upperChar_blank hb
  · have hs : c ∈ squeeze l.mods.toList := List.mem_filter.mpr ⟨hc, by simpa using hb⟩
    rw [squeeze_mods] at hs
    obtain ⟨a, ha, hca⟩ := List.mem_flatMap.mp hs
    exact upperChar_capital (Mode.isCapital_of_mem_order (h a ha) c hca)

section
variable {m : Mode} {l q : ModLine} (h : l.canonicalize m = .ok q)
include h

theorem known_of_canonicalize : ∀ a ∈ l.acronyms, a ∈ m.order := by
  obtain ⟨as, hs, _⟩ := canonicalize_ok_iff.mp h
  exact Mode.known_of_arrange hs

theorem arrange_of_canonicalize :
    m.arrange l.acronyms = .ok q.acronyms ∧ q.mods = " ".intercalate q.acronyms := by
  obtain ⟨as, hs, hq⟩ := canonicalize_ok_iff.mp h
  have : q.acronyms = as := by
    rw [hq]
    exact acronyms_joined (Mode.isWord_of_arrange hs) l.settings
  rw [this]
  exact ⟨hs, by rw [hq]⟩

theorem trimmed_of_canonicalize : Trimmed q.mods.toList := by
  obtain ⟨harr, hmods⟩ := arrange_of_canonicalize h
  rw [hmods, toList_joined]
  exact trimmed_intercalate fun w hw => isWord_of_mem_map (Mode.isWord_of_arrange harr) hw

theorem acronyms_perm_of_canonicalize : q.acronyms.Perm l.acronyms :=
  (Mode.arrange_ok_iff.mp (arrange_of_canonicalize h).1).2.1

end

/-- A line in order is in order already. -/
theorem canonicalize_joined {m : Mode} {as : List String} (h : m.arrange as = .ok as)
    (settings : Option (List (String × Json.Members))) :
    canonicalize m ⟨" ".intercalate as, settings⟩ = .ok ⟨" ".intercalate as, settings⟩ := by
  rw [canonicalize_ok_iff, acronyms_joined (Mode.isWord_of_arrange h)]
  exact ⟨as, h, rfl⟩

end RhythmFilter.ModLine
