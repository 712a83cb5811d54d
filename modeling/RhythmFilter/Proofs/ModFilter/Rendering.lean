import RhythmFilter.Proofs.ModFilter.Membership

/-!
# Mod filters written back

The filters that can be read for a mode are those whose acronyms it knows, of two characters each, and
in order if the filter is exact. Such a filter is read back from its own text. The texts of two filters
of demands, one behind the other, demand both.
-/

namespace RhythmFilter

open Text

namespace ModFilter

/-- Some text for the mode is read as this filter. -/
def Readable (m : Mode) : ModFilter → Prop
  | .exact xs => (∀ a ∈ xs, a ∈ m.order ∧ a.length = 2) ∧ m.InOrder xs
  | .demands ds => ∀ d ∈ ds, d.acronym ∈ m.order ∧ d.acronym.length = 2

theorem readable_of_ofText {m : Mode} {s : String} {f : ModFilter} (h : ofText m s = .ok f) : f.Readable m := by
  cases f with
  | exact xs =>
    obtain ⟨run, as, _, _, hk, hxs⟩ := ofText_exact_iff.mp h
    obtain ⟨_, hperm, horder⟩ := Mode.arrange_ok_iff.mp hxs
    refine ⟨fun a ha => ?_, horder⟩
    have ha := hperm.subset ha
    exact ⟨hk.known a ha, hk.two a ha⟩
  | demands ds => exact fun d hd => known_demand h hd

end ModFilter

/-! ## What the text is made of -/

theorem squeeze_eq_self {s : List Char} (h : ∀ c ∈ s, isBlank c = false) : squeeze s = s := by
  unfold squeeze
  rw [List.filter_eq_self]
  intro c hc
  simp [h c hc]

theorem upperChar_mark {c : Char} (h : IsMark c) : upperChar c = [c] ∧ isBlank c = false := by
  rcases h with e | e | e
  all_goals
    subst e
    decide +kernel

theorem normalize_eq_self {s : String} (h : ∀ c ∈ s.toList, isCapital c = true ∨ IsMark c) :
    ModFilter.normalize s = s.toList := by
  have hc : ∀ c ∈ s.toList, upperChar c = [c] ∧ isBlank c = false := by
    intro c hc
    rcases h c hc with h | h
    · exact ⟨upperChar_capital h, isBlank_capital h⟩
    · exact upperChar_mark h
  unfold ModFilter.normalize
  rw [upper_eq_self fun c h => (hc c h).1, squeeze_eq_self fun c h => (hc c h).2]

theorem normalize_append (s t : String) :
    ModFilter.normalize (s ++ t) = ModFilter.normalize s ++ ModFilter.normalize t := by
  unfold ModFilter.normalize
  rw [String.toList_append, upper_append, squeeze_append]

namespace Demand

def sign : Demand → Sign
  | .wanted _ => .plus
  | .unwanted _ => .minus

def phrase (d : Demand) : Phrase := ⟨d.sign, [d.acronym]⟩

theorem text_phrase (d : Demand) : d.phrase.text = d.text.toList := by
  cases d with
  | wanted a => simp [phrase, Phrase.text, text, sign, acronym, Sign.char]
  | unwanted a => simp [phrase, Phrase.text, text, sign, acronym, Sign.char]

theorem demands_phrase (d : Demand) : d.phrase.demands = [d] := by
  cases d with
  | wanted a => rfl
  | unwanted a => rfl

theorem capital_or_mark {m : Mode} {d : Demand} (h : d.acronym ∈ m.order) :
    ∀ c ∈ d.text.toList, isCapital c = true ∨ IsMark c := by
  rw [← text_phrase, phrase, Phrase.text, List.flatMap_singleton]
  refine List.forall_mem_cons.mpr ⟨Or.inr ?_, fun c hc => Or.inl (Mode.isCapital_of_mem_order h c hc)⟩
  cases d.sign with
  | plus => exact Or.inl rfl
  | minus => exact Or.inr (Or.inl rfl)

end Demand

namespace ModFilter

theorem toList_render_exact (xs : List String) :
    (exact xs).render.toList = '!' :: xs.flatMap String.toList := by
  rw [render, String.toList_append, String.toList_join]
  rfl

theorem toList_render_demands (ds : List Demand) :
    (demands ds).render.toList = (ds.map Demand.phrase).flatMap Phrase.text := by
  rw [render, String.toList_join, List.flatMap_map, List.flatMap_map]
  exact List.flatMap_congr fun d _ => (Demand.text_phrase d).symm

theorem ofText_render_exact {m : Mode} {xs : List String} (h : (exact xs).Readable m) :
    ofText m (exact xs).render = .ok (exact xs) := by
  obtain ⟨hxs, horder⟩ := h
  have hknown : ∀ a ∈ xs, a ∈ m.order := fun a ha => (hxs a ha).1
  have hcut : KnownCut m (xs.flatMap String.toList) xs := ⟨⟨rfl, fun a ha => (hxs a ha).2⟩, hknown⟩
  have hnormal : normalize (exact xs).render = '!' :: xs.flatMap String.toList := by
    rw [← toList_render_exact]
    apply normalize_eq_self
    rw [toList_render_exact]
    refine List.forall_mem_cons.mpr ⟨Or.inr (Or.inr (Or.inr rfl)), fun c hc => ?_⟩
    obtain ⟨a, ha, hca⟩ := List.mem_flatMap.mp hc
    exact Or.inl (Mode.isCapital_of_mem_order (hknown a ha) c hca)
  rw [ofText_exact_iff]
  exact ⟨_, xs, hnormal, not_isMark_of_known hknown, hcut, Mode.arrange_ok_iff.mpr ⟨hknown, .refl xs, horder⟩⟩

theorem ofText_render_demands {m : Mode} {ds : List Demand} (h : (demands ds).Readable m) :
    ofText m (demands ds).render = .ok (demands ds) := by
  have hnormal : normalize (demands ds).render = (ds.map Demand.phrase).flatMap Phrase.text := by
    rw [← toList_render_demands]
    apply normalize_eq_self
    rw [render, String.toList_join]
    intro c hc
    obtain ⟨t, ht, hct⟩ := List.mem_flatMap.mp hc
    obtain ⟨d, hd, e⟩ := List.mem_map.mp ht
    subst e
    exact Demand.capital_or_mark (h d hd).1 c hct
  rw [ofText_demands_iff]
  refine ⟨ds.map Demand.phrase, fun p hp => ?_, hnormal, ?_⟩
  · obtain ⟨d, hd, e⟩ := List.mem_map.mp hp
    subst e
    obtain ⟨hk, h2⟩ := h d hd
    exact ⟨List.cons_ne_nil _ _, by simpa [Demand.phrase] using h2, by simpa [Demand.phrase] using hk⟩
  · rw [List.flatMap_map]
    simp [Demand.demands_phrase]

theorem ofText_render {m : Mode} {f : ModFilter} (h : f.Readable m) : ofText m f.render = .ok f := by
  cases f with
  | exact xs => exact ofText_render_exact h
  | demands ds => exact ofText_render_demands h

theorem ofText_append {m : Mode} {s t : String} {cs ds : List Demand} (hs : ofText m s = .ok (.demands cs))
    (ht : ofText m t = .ok (.demands ds)) : ofText m (s ++ t) = .ok (.demands (cs ++ ds)) := by
  obtain ⟨ps, hps, hn, e⟩ := ofText_demands_iff.mp hs
  obtain ⟨qs, hqs, hn', e'⟩ := ofText_demands_iff.mp ht
  rw [ofText_demands_iff]
  refine ⟨ps ++ qs, ?_, ?_, ?_⟩
  · intro p hp
    exact (List.mem_append.mp hp).elim (hps p) (hqs p)
  · rw [normalize_append, hn, hn', List.flatMap_append]
  · rw [e, e', List.flatMap_append]

/-- A filter that was read for a mode is read back from its text; so is every filter of demands, and
every exact filter in order, whose acronyms have two characters and are known. The texts of two filters
of demands make one text that demands both. -/
theorem render_reads_back (m : Mode) :
    (∀ s f, ofText m s = .ok f → ofText m f.render = .ok f) ∧
    (∀ ds : List Demand, (∀ d ∈ ds, d.acronym ∈ m.order ∧ d.acronym.length = 2) →
      ofText m (demands ds).render = .ok (demands ds)) ∧
    (∀ xs : List String, (∀ a ∈ xs, a ∈ m.order ∧ a.length = 2) → m.InOrder xs →
      ofText m (exact xs).render = .ok (exact xs)) ∧
    ∀ s t cs ds, ofText m s = .ok (.demands cs) → ofText m t = .ok (.demands ds) →
      ofText m (s ++ t) = .ok (.demands (cs ++ ds)) ∧
      ∀ line, (demands (cs ++ ds)).accepts line = ((demands cs).accepts line && (demands ds).accepts line) := by
  refine ⟨fun s f h => ofText_render (readable_of_ofText h), fun ds h => ofText_render_demands h,
    fun xs h ho => ofText_render_exact ⟨h, ho⟩, fun s t cs ds hs ht => ⟨ofText_append hs ht, fun line => ?_⟩⟩
  simp only [accepts, List.all_append]

theorem render_reads_back_joined :
    ofText .osu " +hd dt" = .ok (.demands [.wanted "HD", .wanted "DT"]) ∧
      ofText .osu "-n f+HR" = .ok (.demands [.unwanted "NF", .wanted "HR"]) ∧
      ofText .osu (" +hd dt" ++ "-n f+HR") =
        .ok (.demands [.wanted "HD", .wanted "DT", .unwanted "NF", .wanted "HR"]) ∧
      ofText .osu "+HD+DT" = .ok (.demands [.wanted "HD", .wanted "DT"]) := by
  have hs : ofText .osu " +hd dt" = .ok (.demands [.wanted "HD", .wanted "DT"]) := by decide +kernel
  have ht : ofText .osu "-n f+HR" = .ok (.demands [.unwanted "NF", .wanted "HR"]) := by decide +kernel
  have hrender : (demands [.wanted "HD", .wanted "DT"]).render = "+HD+DT" := by decide +kernel
  obtain ⟨hback, _, _, happend⟩ := render_reads_back .osu
  refine ⟨hs, ht, (happend _ _ _ _ hs ht).1, ?_⟩
  rw [← hrender]
  exact hback _ _ hs

end ModFilter

end RhythmFilter
