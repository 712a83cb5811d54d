import RhythmFilter.Proofs.Modifier.Delivered

/-!
# What the line keeps

A line of mods keeps the words that the modifiers deliver, in order, and the settings of those modifiers
that have some, each beside its acronym as it was delivered. If the acronyms are words, the line keeps
them as they are.
-/

namespace RhythmFilter.ModLine

open Text

inductive Keeps : List Modifier → List (String × Json.Members) → Prop
  | nothing : Keeps [] []
  | bare {d : Modifier} {ms : List Modifier} {ps : List (String × Json.Members)} : d.settings = none →
    Keeps ms ps → Keeps (d :: ms) ps
  | changed {d : Modifier} {s : Json.Members} {ms : List Modifier} {ps : List (String × Json.Members)} :
    d.settings = some s → Keeps ms ps → Keeps (d :: ms) ((d.acronym, s) :: ps)

section
variable {ms : List Modifier}

theorem exists_keeps : ∀ ms : List Modifier, ∃ ps, Keeps ms ps
  | [] => ⟨[], .nothing⟩
  | d :: ms => by
    obtain ⟨ps, hps⟩ := exists_keeps ms
    cases hd : d.settings with
    | none => exact ⟨ps, .bare hd hps⟩
    | some s => exact ⟨_, .changed hd hps⟩

theorem gathered_of_keeps {ps : List (String × Json.Members)} (h : Keeps ms ps) :
    (ms.filterMap fun d => d.settings.map fun s => (d.acronym, s)) = ps := by
  induction h with
  | nothing => rfl
  | bare hd _ ih => rw [List.filterMap_cons, hd, Option.map_none, ih]
  | changed hd _ ih => rw [List.filterMap_cons, hd, Option.map_some, ih]

theorem keeps_unique {ps qs : List (String × Json.Members)} (h : Keeps ms ps) (h' : Keeps ms qs) : ps = qs :=
  (gathered_of_keeps h).symm.trans (gathered_of_keeps h')

theorem keeps_nil_iff : Keeps ms [] ↔ ∀ d ∈ ms, d.settings = none := by
  refine ⟨fun h => ?_, fun h => ?_⟩
  · have hgathered := gathered_of_keeps h
    rw [List.filterMap_eq_nil_iff] at hgathered
    exact fun d hd => Option.map_eq_none_iff.mp (hgathered d hd)
  · induction ms with
    | nil => exact .nothing
    | cons d ms ih =>
      obtain ⟨hd, hms⟩ := List.forall_mem_cons.mp h
      exact .bare hd (ih hms)

theorem settings_of_keeps {ps : List (String × Json.Members)} (h : Keeps ms ps) (hne : ps ≠ []) :
    (ofModifiers ms).settings = some ps := by
  obtain ⟨p, rest, e⟩ := List.exists_cons_of_ne_nil hne
  subst e
  rw [ofModifiers, gatherSettings, gathered_of_keeps h]

theorem settings_of_bare (h : ∀ d ∈ ms, d.settings = none) : (ofModifiers ms).settings = none := by
  rw [ofModifiers, gatherSettings, gathered_of_keeps (keeps_nil_iff.mpr h)]

theorem acronyms_ofModifiers (h : ∀ a ∈ ms.map Modifier.acronym, IsWord a.toList) :
    (ofModifiers ms).acronyms = ms.map Modifier.acronym := by
  have hmods := acronyms_joined h none
  rw [← mods_ofModifiers h] at hmods
  exact hmods

end

/-- The acronyms of the line are the words that the modifiers deliver, and the line is empty if there are
none. The settings are the delivered ones, beside the acronyms as they were delivered; empty settings are
settings. Modifiers whose acronyms are words are told apart by the line if their acronyms differ. -/
theorem line_keeps_delivered (ms : List Modifier) :
    (∃ ws, (∀ vs, Delivers ms vs ↔ vs = ws) ∧ (ofModifiers ms).acronyms = ws ∧
      ((ofModifiers ms).isNomod = true ↔ ws = [])) ∧
    Trimmed (ofModifiers ms).mods.toList ∧
    ((∀ d ∈ ms, d.settings = none) → (ofModifiers ms).settings = none) ∧
    ((∃ d ∈ ms, d.settings ≠ none) → ∃ ps, (∀ qs, Keeps ms qs ↔ qs = ps) ∧
      (ofModifiers ms).settings = some ps) ∧
    ((∀ d ∈ ms, IsWord d.acronym.toList) → (ofModifiers ms).acronyms = ms.map Modifier.acronym ∧
      (ofModifiers ms).mods = " ".intercalate (ms.map Modifier.acronym) ∧
      ∀ ns : List Modifier, (∀ d ∈ ns, IsWord d.acronym.toList) →
      (ofModifiers ms).mods = (ofModifiers ns).mods →
        ms.map Modifier.acronym = ns.map Modifier.acronym) := by
  refine ⟨⟨_, fun vs => delivers_iff, rfl, isNomod_iff (trimmed_ofModifiers ms)⟩, trimmed_ofModifiers ms,
    settings_of_bare, fun hset => ?_, fun hword => ?_⟩
  · obtain ⟨ps, hps⟩ := exists_keeps ms
    have hne : ps ≠ [] := by
      rintro rfl
      obtain ⟨d, hd, hset⟩ := hset
      exact hset (keeps_nil_iff.mp hps d hd)
    refine ⟨ps, fun qs => ⟨fun hqs => keeps_unique hqs hps, fun e => e ▸ hps⟩, settings_of_keeps hps hne⟩
  · have hms : ∀ a ∈ ms.map Modifier.acronym, IsWord a.toList := List.forall_mem_map.mpr hword
    refine ⟨acronyms_ofModifiers hms, mods_ofModifiers hms, fun ns hns e => ?_⟩
    have hns : ∀ a ∈ ns.map Modifier.acronym, IsWord a.toList := List.forall_mem_map.mpr hns
    rw [mods_ofModifiers hms, mods_ofModifiers hns] at e
    exact joined_injective hms hns e

theorem line_keeps_delivered_blank :
    (ofModifiers [⟨"HD\u3000EZ", none⟩, ⟨" ", some []⟩, ⟨"DT", none⟩]).settings = some [(" ", [])] ∧
      (ofModifiers [⟨"HD", some []⟩, ⟨"HD", none⟩, ⟨"D.T", none⟩]).mods = "HD HD D.T" := by
  obtain ⟨_, _, _, hsettings, _⟩ := line_keeps_delivered [⟨"HD\u3000EZ", none⟩, ⟨" ", some []⟩, ⟨"DT", none⟩]
  obtain ⟨ps, hkeeps, hps⟩ := hsettings ⟨_, List.mem_cons_of_mem _ List.mem_cons_self, by simp⟩
  have hpairs : [(" ", [])] = ps := (hkeeps _).mp (.bare rfl (.changed rfl (.bare rfl .nothing)))
  refine ⟨by rw [hps, ← hpairs], ?_⟩
  have hword : ∀ d ∈ [(⟨"HD", some []⟩ : Modifier), ⟨"HD", none⟩, ⟨"D.T", none⟩], IsWord d.acronym.toList := by
    have hhd : IsWord "HD".toList := ⟨by decide, forall_of_all (by decide)⟩
    have hdt : IsWord "D.T".toList := ⟨by decide, forall_of_all (by decide)⟩
    exact List.forall_mem_cons.mpr ⟨hhd, List.forall_mem_cons.mpr ⟨hhd, List.forall_mem_singleton.mpr hdt⟩⟩
  exact ((line_keeps_delivered _).2.2.2.2 hword).2.1

end RhythmFilter.ModLine
