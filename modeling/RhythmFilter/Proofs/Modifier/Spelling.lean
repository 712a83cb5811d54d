import Mathlib.Data.List.Forall2
import RhythmFilter.Modifier.Line
import RhythmFilter.Proofs.Json.Maps

/-!
# How modifiers are spelled

Modifiers can be written as JSON in several ways: each as an object with any other members or as an array,
and absent settings as nothing or as null. `Spells` says which ways there are, and a value that is written
otherwise is not accepted. One of the ways is written back, and it is read as the same modifiers again.
-/

namespace RhythmFilter

open Json (Counts IsMapOf)

namespace Modifier

inductive SpellsSettings : Option Json.Members → Json → Prop
  | null : SpellsSettings none .null
  | object {s ms : Json.Members} : IsMapOf s ms → SpellsSettings (some s) (.object ms)

inductive Spells : Modifier → Json → Prop
  | members {ms : Json.Members} {a : String} {s : Option Json.Members} {v : Json} :
    Counts ms "acronym" (.string a) → Counts ms "settings" v → SpellsSettings s v → Spells ⟨a, s⟩ (.object ms)
  | bare {ms : Json.Members} {a : String} : Counts ms "acronym" (.string a) → (∀ m ∈ ms, m.1 ≠ "settings") →
    Spells ⟨a, none⟩ (.object ms)
  | single {a : String} : Spells ⟨a, none⟩ (.array [.string a])
  | pair {a : String} {s : Option Json.Members} {v : Json} :
      SpellsSettings s v → Spells ⟨a, s⟩ (.array [.string a, v])

def SpellsAll (ms : List Modifier) (j : Json) : Prop := ∃ items, j = .array items ∧ List.Forall₂ Spells ms items

theorem settingsOfJson?_canonical_iff {s : Option Json.Members} {v : Json} :
    settingsOfJson? v.canonical = some s ↔ SpellsSettings s v := by
  refine ⟨fun h => ?_, fun h => ?_⟩
  · unfold settingsOfJson? at h
    split at h
    · rename_i hv
      rw [Json.canonical_eq_null_iff.mp hv, ← Option.some.inj h]
      exact .null
    · rename_i hv
      obtain ⟨ms, rfl, hmap⟩ := Json.canonical_eq_object_iff.mp hv
      rw [← Option.some.inj h]
      exact .object hmap
    · cases h
  · cases h with
    | null => rfl
    | object hmap => rw [Json.canonical_object_iff.mpr hmap, settingsOfJson?]

theorem ofMembers?_eq_some_iff {s : Json.Members} {d : Modifier} : ofMembers? s = some d ↔
    s.lookup "acronym" = some (.string d.acronym) ∧
      settingsOfJson? ((s.lookup "settings").getD .null) = some d.settings := by
  obtain ⟨acronym, settings⟩ := d
  unfold ofMembers?
  split
  · rename_i a ha
    simp [ha, and_comm, Option.map_eq_some_iff]
  · rename_i hno
    refine ⟨fun h => (nomatch h), fun h => absurd h.1 (hno _)⟩

theorem ofMembers?_iff_spells {s ms : Json.Members} (h : IsMapOf s ms) {d : Modifier} :
    ofMembers? s = some d ↔ Spells d (.object ms) := by
  have hacronym : s.lookup "acronym" = some (.string d.acronym) ↔ Counts ms "acronym" (.string d.acronym) := by
    rw [h.lookup_eq_some_iff]
    refine ⟨fun hv => ?_, fun hv => ⟨_, hv, rfl⟩⟩
    obtain ⟨v, hv, e⟩ := hv
    rwa [Json.canonical_eq_string_iff.mp e.symm] at hv
  rw [ofMembers?_eq_some_iff, hacronym]
  obtain ⟨acronym, settings⟩ := d
  rcases Json.counts_cases ms "settings" with ⟨v, hv⟩ | hno
  · rw [h.lookup_eq_some_iff.mpr ⟨v, hv, rfl⟩, Option.getD_some, settingsOfJson?_canonical_iff]
    refine ⟨fun hd => .members hd.1 hv hd.2, fun hd => ?_⟩
    cases hd with
    | members ha hw hs => exact ⟨ha, hv.unique hw ▸ hs⟩
    | bare _ hno => exact absurd rfl (hno _ hv.mem)
  · rw [h.lookup_eq_none hno, Option.getD_none, settingsOfJson?, Option.some.injEq]
    refine ⟨fun hd => ?_, fun hd => ?_⟩
    · obtain ⟨ha, rfl⟩ := hd
      exact .bare ha hno
    · cases hd with
      | members _ hw _ => exact absurd rfl (hno _ hw.mem)
      | bare ha _ => exact ⟨ha, rfl⟩

theorem ofJson?_array_iff {xs : List Json} {d : Modifier} : ofJson? (.array xs) = some d ↔
    (xs = [.string d.acronym] ∧ d.settings = none) ∨
      ∃ v, xs = [.string d.acronym, v] ∧ settingsOfJson? v = some d.settings := by
  obtain ⟨acronym, settings⟩ := d
  refine ⟨fun h => ?_, fun h => ?_⟩
  · unfold ofJson? at h
    split at h
    · rename_i e
      cases e
    · rename_i e
      cases e
      cases h
      exact Or.inl ⟨rfl, rfl⟩
    · rename_i v e
      cases e
      obtain ⟨s, hs, e⟩ := Option.map_eq_some_iff.mp h
      cases e
      exact Or.inr ⟨v, rfl, hs⟩
    · cases h
  · rcases h with ⟨rfl, rfl⟩ | ⟨v, rfl, hv⟩
    · rfl
    · rw [ofJson?, hv, Option.map_some]

theorem ofJson?_items_iff {items : List Json} {d : Modifier} :
    ofJson? (.array (items.map Json.Tree.canonical)) = some d ↔ Spells d (.array items) := by
  rw [ofJson?_array_iff]
  obtain ⟨acronym, settings⟩ := d
  refine ⟨fun h => ?_, fun h => ?_⟩
  · rcases h with ⟨h, rfl⟩ | ⟨w, h, hw⟩
    · obtain ⟨x, rfl, hx⟩ := List.map_eq_singleton_iff.mp h
      rw [Json.canonical_eq_string_iff.mp hx]
      exact .single
    · obtain ⟨x, rest, rfl, hx, hrest⟩ := List.map_eq_cons_iff.mp h
      obtain ⟨v, rfl, rfl⟩ := List.map_eq_singleton_iff.mp hrest
      rw [Json.canonical_eq_string_iff.mp hx]
      exact .pair (settingsOfJson?_canonical_iff.mp hw)
  · cases h with
    | single => exact Or.inl ⟨rfl, rfl⟩
    | pair hs => exact Or.inr ⟨_, rfl, settingsOfJson?_canonical_iff.mpr hs⟩

theorem ofJson?_canonical_iff {j : Json} {d : Modifier} : ofJson? j.canonical = some d ↔ Spells d j := by
  cases j with
  | object ms => exact ofMembers?_iff_spells (Json.isMapOf_sorted ms)
  | array items =>
    rw [Json.canonical_eq_array_iff.mpr ⟨items, rfl, rfl⟩]
    exact ofJson?_items_iff
  | null | bool | number | string => exact ⟨fun h => (nomatch h), fun h => (nomatch h)⟩

theorem mapM_ofJson?_iff {items : List Json} : ∀ {ms : List Modifier},
    (items.map Json.Tree.canonical).mapM ofJson? = some ms ↔ List.Forall₂ Spells ms items := by
  induction items with
  | nil => simp [eq_comm]
  | cons x items ih =>
    intro ms
    rw [List.map_cons, List.mapM_cons, Option.bind_eq_bind, Option.bind_eq_some_iff,
      List.forall₂_cons_right_iff]
    refine exists_congr fun d => ?_
    simp only [ofJson?_canonical_iff, Option.bind_eq_bind, Option.bind_eq_some_iff, ih, Option.pure_def,
      Option.some.injEq]
    refine ⟨fun h => ?_, fun h => ?_⟩
    · obtain ⟨hx, ds, hds, e⟩ := h
      exact ⟨ds, hx, hds, e.symm⟩
    · obtain ⟨ds, hx, hds, e⟩ := h
      exact ⟨hx, ds, hds, e.symm⟩

theorem listOfJson?_canonical_iff {j : Json} {ms : List Modifier} :
    listOfJson? j.canonical = some ms ↔ SpellsAll ms j := by
  cases j with
  | array items =>
    rw [Json.canonical_eq_array_iff.mpr ⟨items, rfl, rfl⟩, listOfJson?, mapM_ofJson?_iff]
    refine ⟨fun h => ⟨items, rfl, h⟩, fun h => ?_⟩
    obtain ⟨_, e, h⟩ := h
    cases e
    exact h
  | null | bool | number | string | object =>
    exact ⟨fun h => (nomatch h), fun ⟨_, e, _⟩ => (nomatch e)⟩

/-! ## Written back -/

theorem SpellsSettings.canonical {s : Option Json.Members} {v : Json} (h : SpellsSettings s v) :
    ∀ t ∈ s, (Json.Tree.object t : Json).canonical = .object t := by
  cases h with
  | null => exact nofun
  | object hmap =>
    intro t ht
    obtain rfl := Option.some.inj ht
    rw [← Json.canonical_object_iff.mpr hmap, Json.canonical_canonical]

theorem Spells.canonical_settings {d : Modifier} {j : Json} (h : Spells d j) :
    ∀ t ∈ d.settings, (Json.Tree.object t : Json).canonical = .object t := by
  cases h with
  | members _ _ hs => exact hs.canonical
  | bare _ _ => exact nofun
  | single => exact nofun
  | pair hs => exact hs.canonical

/-- What is written of a modifier is a map already. -/
theorem Spells.canonical_toJson {d : Modifier} {j : Json} (h : Spells d j) : d.toJson.canonical = d.toJson := by
  have hsettings := h.canonical_settings
  obtain ⟨acronym, settings⟩ := d
  cases settings with
  | none => exact Json.canonical_of_ascending (List.pairwise_singleton _ _) (List.forall_mem_singleton.mpr rfl)
  | some s =>
    have hkeys : Json.Ascending [("acronym", .string acronym), ("settings", .object s)] := by
      simp only [Json.Ascending, List.pairwise_pair]
      decide
    exact Json.canonical_of_ascending hkeys
      (List.forall_mem_cons.mpr ⟨rfl, List.forall_mem_singleton.mpr (hsettings s rfl)⟩)

theorem SpellsAll.canonical_listToJson {ms : List Modifier} {j : Json} (h : SpellsAll ms j) :
    (listToJson ms).canonical = listToJson ms := by
  obtain ⟨items, rfl, h⟩ := h
  rw [listToJson, Json.canonical_eq_array_iff.mpr ⟨_, rfl, rfl⟩, List.map_map]
  congr 1
  induction h with
  | nil => rfl
  | cons hd _ ih => rw [List.map_cons, List.map_cons, ih, Function.comp_apply, hd.canonical_toJson]

theorem SpellsAll.spells_listToJson {ms : List Modifier} {j : Json} (h : SpellsAll ms j) :
    SpellsAll ms (listToJson ms) := by
  rw [← listOfJson?_canonical_iff, h.canonical_listToJson, listOfJson?_listToJson]

theorem member?_toJson (d : Modifier) : d.toJson.member? "settings" = d.settings.map .object := by
  obtain ⟨acronym, settings⟩ := d
  cases settings with
  | none => rfl
  | some s => rfl

/-- Modifiers are read back from what is written of them; a member for settings is written if there are
settings, also if these are empty. A value is accepted as modifiers just when it spells them. What is
written of accepted modifiers is a value in canonical form and spells them as well, and all values that
spell them make the same line. -/
theorem spellings_make_one_line :
    (∀ ms, listOfJson? (listToJson ms) = some ms) ∧
    (∀ d : Modifier, d.toJson.member? "settings" = d.settings.map .object) ∧
    ∀ (ms : List Modifier) (j : Json), (listOfJson? j.canonical = some ms ↔ SpellsAll ms j) ∧
      (SpellsAll ms j → (listToJson ms).canonical = listToJson ms ∧ SpellsAll ms (listToJson ms) ∧
        ∀ k, SpellsAll ms k → (listOfJson? k.canonical).map ModLine.ofModifiers =
        some (ModLine.ofModifiers ms)) := by
  refine ⟨listOfJson?_listToJson, member?_toJson, fun ms j => ⟨listOfJson?_canonical_iff, fun h => ?_⟩⟩
  refine ⟨h.canonical_listToJson, h.spells_listToJson, fun k hk => ?_⟩
  rw [listOfJson?_canonical_iff.mpr hk, Option.map_some]

theorem spellings_make_one_line_mixed :
    SpellsAll [⟨"HD", none⟩, ⟨"DT", some [("a", .null), ("b", .object [])]⟩] (.array [
      .object [("id", .bool true), ("settings", .null), ("acronym", .string "HD")],
      .array [.string "DT", .object [("b", .object []), ("a", .null)]]]) ∧
    (listOfJson? (Json.Tree.canonical (.array [.array [.string "HD"],
      .object [("settings", .object [("a", .null), ("b", .object [])]), ("acronym", .string "DT")]]))).map
        ModLine.ofModifiers = some ⟨"HD DT", some [("DT", [("a", .null), ("b", .object [])])]⟩ := by
  obtain ⟨_, _, hspells⟩ := spellings_make_one_line
  have hplain : SpellsAll [⟨"HD", none⟩, ⟨"DT", some [("a", .null), ("b", .object [])]⟩]
      (.array [.array [.string "HD"],
      .object [("settings", .object [("a", .null), ("b", .object [])]), ("acronym", .string "DT")]]) :=
    (hspells _ _).1.mp rfl
  obtain ⟨_, _, hline⟩ := (hspells _ _).2 hplain
  refine ⟨(hspells _ _).1.mp rfl, ?_⟩
  rw [hline _ hplain]
  rfl

end Modifier

end RhythmFilter
