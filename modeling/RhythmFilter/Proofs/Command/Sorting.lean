import RhythmFilter.Proofs.Command.Rendering
import RhythmFilter.Proofs.Command.Words

/-!
# Sorted acronyms

The words behind `sort` may hold several acronyms each, in any letter case and any order. What is printed
depends on how often each acronym is given and on nothing else, and it is printed again if it is sorted.
-/

namespace RhythmFilter

open Text

/-- What the words hold between commas, but for empty parts, in upper case. -/
def AcronymsTyped (ws as : List String) : Prop :=
  ∃ cuts, List.Forall₂ (fun (w : String) parts => CommaCut w.toList parts) ws cuts ∧
    as = (cuts.flatten.filter (· ≠ [])).map fun p => String.ofList (upper p)

theorem acronymsOfWords_eq {ws as : List String} (h : AcronymsTyped ws as) : acronymsOfWords ws = as := by
  obtain ⟨cuts, hcuts, e⟩ := h
  have hmap : ws.map (fun w => commaPieces w.toList) = cuts := by
    rw [← List.forall₂_eq_eq_eq, List.forall₂_map_left_iff]
    exact hcuts.imp fun _ _ => commaPieces_eq_iff.mpr
  unfold acronymsOfWords
  rw [List.flatMap_def, hmap, e]

theorem runs_sort {preferred : Preferences} {o : Options} {m : Mode}
    (hm : Command.effectiveMode preferred o = .ok m)
    {ws as : List String} (hws : ∀ w ∈ ws, w ∉ optionWords) (has : acronymsOfWords ws = as) :
    Runs preferred (optionArguments o ++ Verb.sort.name :: ws)
      ((m.arrange as).map fun ys => (Report.arranged m ys).render (o.json || preferred.json)) := by
  have hwords : Command.ofWords ws .sort = .ok (.sort as) := by
    unfold Command.ofWords
    rw [has]
  have hruns := runs_words hm hws hwords
  have hreport : (Command.sort as).report m = (m.arrange as).map (.arranged m) := rfl
  rw [hreport] at hruns
  cases harr : m.arrange as with
  | error e => rwa [harr] at hruns
  | ok ys => rwa [harr] at hruns

/-! ## Known acronyms as words -/

section
variable {m : Mode} {ys : List String} (h : ∀ a ∈ ys, a ∈ m.order)
include h

theorem no_comma_of_known : ∀ p ∈ ys.map String.toList, ',' ∉ p := by
  intro p hp hc
  obtain ⟨a, ha, e⟩ := List.mem_map.mp hp
  subst e
  exact absurd (Mode.isCapital_of_mem_order (h a ha) ',' hc) (by decide)

theorem upper_known :
    ((ys.map String.toList).filter (· ≠ [])).map (fun p => String.ofList (upper p)) = ys := by
  have hne : ∀ p ∈ ys.map String.toList, decide (p ≠ []) = true := by
    intro p hp
    obtain ⟨a, ha, e⟩ := List.mem_map.mp hp
    subst e
    simpa using (Mode.isWord_of_mem_order (h a ha)).1
  rw [List.filter_eq_self.mpr hne, List.map_map]
  refine (List.map_congr_left fun a ha => ?_).trans (List.map_id ys)
  have hupper : upper a.toList = a.toList :=
    upper_eq_self fun c hc => upperChar_capital (Mode.isCapital_of_mem_order (h a ha) c hc)
  rw [Function.comp_apply, hupper, String.ofList_toList]
  rfl

theorem acronymsOfWords_known : acronymsOfWords ys = ys := by
  have hcut : ys.flatMap (fun a => commaPieces a.toList) = ys.map String.toList := by
    have hpiece : ∀ a ∈ ys, commaPieces a.toList = [a.toList] := by
      intro a ha
      have hcomma := no_comma_of_known h _ (List.mem_map_of_mem ha)
      exact commaPieces_eq_iff.mpr ⟨List.cons_ne_nil _ _, by simpa using hcomma, by simp⟩
    rw [List.flatMap_def, List.map_congr_left hpiece, ← List.flatMap_def]
    exact List.map_eq_flatMap.symm
  unfold acronymsOfWords
  rw [hcut]
  exact upper_known h

theorem acronymsOfWords_joined : acronymsOfWords [",".intercalate ys] = ys := by
  by_cases hne : ys = []
  · rw [hne]
    rfl
  have hcut : [",".intercalate ys].flatMap (fun a => commaPieces a.toList) = ys.map String.toList := by
    rw [List.flatMap_singleton, String.toList_intercalate]
    exact commaPieces_intercalate (by simpa using hne) (no_comma_of_known h)
  unfold acronymsOfWords
  rw [hcut]
  exact upper_known h

theorem known_not_option : (∀ a ∈ ys, a ∉ optionWords) ∧ ",".intercalate ys ∉ optionWords := by
  have hletter : ∀ a ∈ ys, 'o' ∉ a.toList ∧ 'v' ∉ a.toList := by
    intro a ha
    have hcapital := Mode.isCapital_of_mem_order (h a ha)
    exact ⟨fun hc => absurd (hcapital 'o' hc) (by decide), fun hc => absurd (hcapital 'v' hc) (by decide)⟩
  exact ⟨fun a ha => not_option (hletter a ha), joined_not_option hletter⟩

end

/-! ## The same acronyms in another order -/

section
variable {preferred : Preferences} {o : Options} {m : Mode} (hm : Command.effectiveMode preferred o = .ok m)
  {ws as : List String} (hws : ∀ w ∈ ws, w ∉ optionWords) (has : acronymsOfWords ws = as)
include hm hws has

theorem runs_sort_unknown {a : String} (ha : m.FirstUnknown as a) :
    Runs preferred (optionArguments o ++ Verb.sort.name :: ws) (.error (.unknownAcronym m a)) := by
  have hruns := runs_sort hm hws has
  rwa [Mode.arrange_error_iff.mpr ⟨a, ha, rfl⟩] at hruns

theorem runs_sort_known {ys : List String} (hknown : ∀ a ∈ as, a ∈ m.order) (hperm : ys.Perm as)
    (horder : m.InOrder ys) :
    Runs preferred (optionArguments o ++ Verb.sort.name :: ws)
      (.ok ((Report.arranged m ys).render (o.json || preferred.json))) := by
  have hruns := runs_sort hm hws has
  rwa [Mode.arrange_ok_iff.mpr ⟨hknown, hperm, horder⟩] at hruns

end

/-- Words that hold the same acronyms equally often come to the same: the first acronym of each that the
mode does not know is named, or both print the acronyms in the mode's order. These acronyms, by themselves
or in one word, make the program print the same once more. -/
theorem sorting_by_bag {preferred : Preferences} {o : Options} {m : Mode}
    (hm : Command.effectiveMode preferred o = .ok m) {ws vs as bs : List String}
    (hws : ∀ w ∈ ws, w ∉ optionWords) (hvs : ∀ w ∈ vs, w ∉ optionWords)
    (has : AcronymsTyped ws as) (hbs : AcronymsTyped vs bs) (hbag : as.Perm bs) :
    (∃ a b, m.FirstUnknown as a ∧ m.FirstUnknown bs b ∧
      Runs preferred (optionArguments o ++ Verb.sort.name :: ws) (.error (.unknownAcronym m a)) ∧
      Runs preferred (optionArguments o ++ Verb.sort.name :: vs) (.error (.unknownAcronym m b))) ∨
    ∃ ys out, (∀ a ∈ as, a ∈ m.order) ∧ ys.Perm as ∧ m.InOrder ys ∧
      (∀ us ∈ [ws, vs, ys, [",".intercalate ys]],
        Runs preferred (optionArguments o ++ Verb.sort.name :: us) (.ok out)) ∧
      ((o.json || preferred.json) = true → (Json.Document.ofText? out).bind Json.Tree.proper? =
        some (.object [("mod_string", .string (" ".intercalate ys)), ("mode", .string m.name),
          ("mods", .array (ys.map .string))])) ∧
      ((o.json || preferred.json) = false → out = m.title ++ ": " ++ " ".intercalate ys ++ "\n") := by
  have has := acronymsOfWords_eq has
  have hbs := acronymsOfWords_eq hbs
  by_cases hknown : ∀ a ∈ as, a ∈ m.order
  · right
    obtain ⟨ys, harr⟩ : ∃ ys, m.arrange as = .ok ys := ⟨_, Mode.arrange_of_known hknown⟩
    obtain ⟨_, hperm, horder⟩ := Mode.arrange_ok_iff.mp harr
    have hys := Mode.arranged_known harr
    obtain ⟨hplain, hjoined⟩ := known_not_option hys
    have hagain : ∀ us, (∀ u ∈ us, u ∉ optionWords) → acronymsOfWords us = ys →
        Runs preferred (optionArguments o ++ Verb.sort.name :: us)
          (.ok ((Report.arranged m ys).render (o.json || preferred.json))) :=
      fun us hus h => runs_sort_known hm hus h hys (.refl ys) horder
    refine ⟨ys, (Report.arranged m ys).render (o.json || preferred.json), hknown, hperm, horder, ?_,
      fun hjson => ?_, fun hjson => ?_⟩
    · refine List.forall_mem_cons.mpr ⟨runs_sort_known hm hws has hknown hperm horder, ?_⟩
      have hbknown : ∀ b ∈ bs, b ∈ m.order := fun b hb => hknown b (hbag.symm.subset hb)
      refine List.forall_mem_cons.mpr ⟨runs_sort_known hm hvs hbs hbknown (hperm.trans hbag) horder, ?_⟩
      refine List.forall_mem_cons.mpr ⟨hagain ys hplain (acronymsOfWords_known hys), ?_⟩
      exact List.forall_mem_singleton.mpr (hagain _ (by simpa using hjoined) (acronymsOfWords_joined hys))
    · rw [hjson]
      have hread := (Report.arranged m ys).ofText?_jsonText
      rw [Report.render, if_pos rfl, hread, Option.bind_some, Json.proper?_spelled]
      rfl
    · rw [hjson]
      rfl
  · left
    obtain ⟨a, ha⟩ := Mode.exists_firstUnknown hknown
    have hbknown : ¬ ∀ b ∈ bs, b ∈ m.order := fun h => hknown fun a ha => h a (hbag.subset ha)
    obtain ⟨b, hb⟩ := Mode.exists_firstUnknown hbknown
    exact ⟨a, b, ha, hb, runs_sort_unknown hm hws has ha, runs_sort_unknown hm hvs hbs hb⟩

theorem sorting_by_bag_ligature : Command.effectiveMode {} { mode := some "mania" } = .ok .mania ∧
    AcronymsTyped ["ﬁ,hd"] ["FI", "HD"] ∧ AcronymsTyped ["Hd", ",fI"] ["HD", "FI"] ∧
    ∀ us ∈ [["ﬁ,hd"], ["Hd", ",fI"], ["FI", "HD"], ["FI,HD"]],
      Runs {} (["--mode", "mania", "sort"] ++ us) (.ok "osu!mania: FI HD\n") := by
  have hm : Command.effectiveMode {} { mode := some "mania" } = .ok .mania := by decide
  have has : AcronymsTyped ["ﬁ,hd"] ["FI", "HD"] :=
    ⟨[_], .cons (commaPieces_eq_iff.mp rfl) .nil, by decide +kernel⟩
  have hbs : AcronymsTyped ["Hd", ",fI"] ["HD", "FI"] :=
    ⟨[_, _], .cons (commaPieces_eq_iff.mp rfl) (.cons (commaPieces_eq_iff.mp rfl) .nil), by decide +kernel⟩
  have harr : Mode.mania.arrange ["FI", "HD"] = .ok ["FI", "HD"] := by decide +kernel
  refine ⟨hm, has, hbs, ?_⟩
  rcases sorting_by_bag hm (by decide) (by decide) has hbs (.swap _ _ _) with h | h
  · obtain ⟨a, _, ha, _⟩ := h
    rw [Mode.arrange_error_iff.mpr ⟨a, ha, rfl⟩] at harr
    cases harr
  · obtain ⟨ys, out, hknown, hperm, horder, hruns, _, htext⟩ := h
    rw [Mode.arrange_ok_iff.mpr ⟨hknown, hperm, horder⟩, Except.ok.injEq] at harr
    have hout : out = "osu!mania: FI HD\n" := by
      rw [htext rfl, harr]
      decide +kernel
    rw [hout, harr] at hruns
    exact hruns

end RhythmFilter
