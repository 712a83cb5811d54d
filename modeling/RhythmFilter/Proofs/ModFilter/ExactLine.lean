import RhythmFilter.Proofs.ModFilter.Grammar
import RhythmFilter.Proofs.Modifier.Line

/-!
# Exact filters and lines in order

An exact filter and a line in order are both the arrangement of a list of acronyms, one cut from a
filter text and one read off delivered mods. So they meet when these lists rearrange each other. A line
behind an exclamation mark is an exact filter again, unless it holds a long acronym: the cut goes wrong
there, and the mode does not know what is cut off.
-/

namespace RhythmFilter

open Text

namespace ModFilter

def written (s : String) : List String := (pairs (normalize s).tail).map String.ofList

theorem written_spec {m : Mode} {s : String} {xs : List String} (h : ofText m s = .ok (.exact xs)) :
    normalize s = '!' :: (written s).flatMap String.toList ∧ (∀ a ∈ written s, a.length = 2) ∧
      m.arrange (written s) = .ok xs := by
  obtain ⟨run, as, hn, _, hk, hxs⟩ := ofText_exact_iff.mp h
  have has : written s = as := by
    rw [written, hn, (cut_iff.mp hk.toCut).2, List.tail_cons]
  rw [has, hn, hk.joined]
  exact ⟨rfl, hk.two, hxs⟩

theorem exact_accepts_iff {m : Mode} {l q : ModLine} {as xs : List String} (hq : l.canonicalize m = .ok q)
    (hxs : m.arrange as = .ok xs) : (exact xs).accepts q.mods = true ↔ l.acronyms.Perm as := by
  obtain ⟨harr, hmods⟩ := ModLine.arrange_of_canonicalize hq
  rw [← Mode.arrange_eq_iff harr hxs, accepts, decide_eq_true_eq, hmods]
  refine ⟨fun h => ?_, fun h => by rw [h]⟩
  exact joined_injective (Mode.isWord_of_arrange harr) (Mode.isWord_of_arrange hxs) h

/-- An exact filter accepts the line of delivered mods, put into order, just when the delivered acronyms
rearrange the written ones, and two exact filters are equal just when their written acronyms do. -/
theorem exact_accepts_iff_perm_written {m : Mode} {s : String} {xs : List String}
    (hs : ofText m s = .ok (.exact xs)) :
    normalize s = '!' :: (written s).flatMap String.toList ∧ (∀ a ∈ written s, a.length = 2) ∧
      (∀ (ms : List Modifier) (q : ModLine), (ModLine.ofModifiers ms).canonicalize m = .ok q →
        ((exact xs).accepts q.mods = true ↔ (ModLine.ofModifiers ms).acronyms.Perm (written s))) ∧
      ∀ (t : String) (ys : List String), ofText m t = .ok (.exact ys) →
        (exact xs = exact ys ↔ (written s).Perm (written t)) := by
  obtain ⟨hn, htwo, hxs⟩ := written_spec hs
  refine ⟨hn, htwo, fun ms q hq => exact_accepts_iff hq hxs, fun t ys ht => ?_⟩
  obtain ⟨_, _, hys⟩ := written_spec ht
  rw [exact.injEq, Mode.arrange_eq_iff hxs hys]

theorem exact_accepts_repeated :
    ofText .osu " !hd dthd" = .ok (.exact ["DT", "HD", "HD"]) ∧
      (ModLine.ofModifiers [⟨"HD", none⟩, ⟨"HD", none⟩, ⟨"DT", none⟩]).canonicalize .osu =
        .ok ⟨"DT HD HD", none⟩ ∧
      (exact ["DT", "HD", "HD"]).accepts "DT HD HD" = true := by
  have hs : ofText .osu " !hd dthd" = .ok (.exact ["DT", "HD", "HD"]) := by decide +kernel
  have hq : (ModLine.ofModifiers [⟨"HD", none⟩, ⟨"HD", none⟩, ⟨"DT", none⟩]).canonicalize .osu =
      .ok ⟨"DT HD HD", none⟩ :=
    ModLine.canonicalize_ok_iff.mpr ⟨["DT", "HD", "HD"], by decide +kernel, rfl⟩
  exact ⟨hs, hq, ((exact_accepts_iff_perm_written hs).2.2.1 _ _ hq).mpr (by decide +kernel)⟩

end ModFilter

/-! ## A line behind an exclamation mark -/

theorem normalize_marked {m : Mode} {l : ModLine} (h : ∀ a ∈ l.acronyms, a ∈ m.order) :
    ModFilter.normalize ("!" ++ l.mods) = '!' :: l.acronyms.flatMap String.toList := by
  have hmark : squeeze (upper "!".toList) = ['!'] := by decide +kernel
  rw [ModFilter.normalize, String.toList_append, upper_append, squeeze_append, ModLine.upper_mods h,
    ModLine.squeeze_mods, hmark, List.singleton_append]

theorem front_of_joined {a b : String} {as bs : List String} (ha : 2 ≤ a.toList.length) (hb : b.length = 2)
    (h : b.toList ++ bs.flatMap String.toList = a.toList ++ as.flatMap String.toList) :
    b.toList = a.toList.take 2 := by
  have hb' : b.toList.length = 2 := by rw [String.length_toList, hb]
  have := congrArg (List.take 2) h
  rwa [List.take_left' hb', List.take_append_of_le_length ha] at this

/-- Cutting known acronyms in a row goes wrong first at the front of a long one. -/
theorem firstUnknown_of_long {m : Mode} : ∀ {as bs : List String}, (∀ a ∈ as, a ∈ m.order) →
    (∃ a ∈ as, a ∈ Mode.longAcronyms) → Cut (as.flatMap String.toList) bs →
    ∃ a ∈ as, a ∈ Mode.longAcronyms ∧ m.FirstUnknown bs (String.ofList (a.toList.take 2))
  | [], _, _, hlong, _ => by simp at hlong
  | a :: as, [], hk, _, hcut => by
    have hnil : a.toList = [] := (List.append_eq_nil_iff.mp hcut.joined.symm).1
    exact absurd hnil (Mode.isWord_of_mem_order (hk a List.mem_cons_self)).1
  | a :: as, b :: bs, hk, hlong, hcut => by
    obtain ⟨ha, has⟩ := List.forall_mem_cons.mp hk
    obtain ⟨hb, hbs⟩ := List.forall_mem_cons.mp hcut.two
    have hjoin := hcut.joined
    rw [List.flatMap_cons, List.flatMap_cons] at hjoin
    have hfront := front_of_joined (Mode.two_le_length ha) hb hjoin
    rcases Mode.length_of_mem_order ha with h | h
    · -- a short acronym is cut off as it is, so the cut goes wrong in the rest
      have hab : b = a := by
        apply String.toList_injective
        rw [hfront, List.take_of_length_le (by rw [String.length_toList, h])]
      subst hab
      have hlong' : ∃ c ∈ as, c ∈ Mode.longAcronyms := by
        obtain ⟨c, hc, hcl⟩ := hlong
        rcases List.mem_cons.mp hc with e | hc
        · have := Mode.length_longAcronyms (e ▸ hcl)
          omega
        · exact ⟨c, hc, hcl⟩
      have hrest : Cut (as.flatMap String.toList) bs := ⟨List.append_cancel_left hjoin, hbs⟩
      obtain ⟨c, hc, hcl, before, after, hsplit, hbefore, hun⟩ := firstUnknown_of_long has hlong' hrest
      exact ⟨c, List.mem_cons_of_mem _ hc, hcl, b :: before, after, by rw [hsplit]; rfl,
        List.forall_mem_cons.mpr ⟨ha, hbefore⟩, hun⟩
    · refine ⟨a, List.mem_cons_self, h, [], bs, ?_, by simp, (Mode.unknown_in_long h m).1⟩
      rw [← hfront, String.ofList_toList, List.nil_append]

section
variable {m : Mode} {l : ModLine} (hl : ∀ a ∈ l.acronyms, a ∈ m.order)
include hl

theorem marked_line_ok {as : List String} (harr : m.arrange l.acronyms = .ok as)
    (h2 : ∀ a ∈ l.acronyms, a.length = 2) : ModFilter.ofText m ("!" ++ l.mods) = .ok (.exact as) := by
  rw [ModFilter.ofText_exact_iff]
  exact ⟨_, l.acronyms, normalize_marked hl, not_isMark_of_known hl, ⟨⟨rfl, h2⟩, hl⟩, harr⟩

theorem marked_line_error (h3 : ∃ a ∈ l.acronyms, a ∈ Mode.longAcronyms) :
    ∃ e, ModFilter.ofText m ("!" ++ l.mods) = .error e ∧
      ((∃ n run, e = .malformed n (.oddLength run)) ∨
        ∃ a ∈ l.acronyms, a ∈ Mode.longAcronyms ∧ e = .unknownAcronym m (String.ofList (a.toList.take 2))) := by
  have hfault : ∀ e, RunFault m ('!' :: l.acronyms.flatMap String.toList) (l.acronyms.flatMap String.toList) e →
      ModFilter.ofText m ("!" ++ l.mods) = .error e := by
    intro e he
    rw [ModFilter.ofText_iff, normalize_marked hl]
    exact .exactFault (not_isMark_of_known hl) he
  by_cases hodd : (l.acronyms.flatMap String.toList).length % 2 = 1
  · exact ⟨_, hfault _ (.odd hodd), Or.inl ⟨_, _, rfl⟩⟩
  · have hcut : Cut (l.acronyms.flatMap String.toList) _ := cut_iff.mpr ⟨by omega, rfl⟩
    obtain ⟨a, ha, hlong, hf⟩ := firstUnknown_of_long hl h3 hcut
    exact ⟨_, hfault _ (.unknown hcut hf), Or.inr ⟨a, ha, hlong, rfl⟩⟩

theorem two_of_marked_line_ok {f : ModFilter} (hf : ModFilter.ofText m ("!" ++ l.mods) = .ok f) :
    ∀ a ∈ l.acronyms, a.length = 2 := by
  intro a ha
  rcases Mode.length_of_mem_order (hl a ha) with h2 | hlong
  · exact h2
  · obtain ⟨e, he, _⟩ := marked_line_error hl ⟨a, ha, hlong⟩
    rw [hf] at he
    cases he

end

/-- The line of delivered mods that a mode knows, put behind an exclamation mark, is read for the mode
just when its acronyms have two characters. It is then the exact filter whose line is the line in order;
otherwise the run is refused for its length, or for the front of a long acronym. -/
theorem marked_line_ok_iff_two {m : Mode} {ms : List Modifier} {q : ModLine}
    (hq : (ModLine.ofModifiers ms).canonicalize m = .ok q) :
    ((∃ f, ModFilter.ofText m ("!" ++ (ModLine.ofModifiers ms).mods) = .ok f) ↔
      ∀ a ∈ (ModLine.ofModifiers ms).acronyms, a.length = 2) ∧
    (∀ f, ModFilter.ofText m ("!" ++ (ModLine.ofModifiers ms).mods) = .ok f →
      ∃ as, f = .exact as ∧ f.exactLine? = some q.mods ∧ f.accepts q.mods = true ∧
        (ModLine.ofModifiers (as.map (⟨·, none⟩))).mods = q.mods) ∧
    ((∃ a ∈ (ModLine.ofModifiers ms).acronyms, a.length = 3) →
      ∃ e, ModFilter.ofText m ("!" ++ (ModLine.ofModifiers ms).mods) = .error e ∧
        ((∃ n run, e = .malformed n (.oddLength run)) ∨ ∃ a ∈ (ModLine.ofModifiers ms).acronyms,
          a.length = 3 ∧ e = .unknownAcronym m (String.ofList (a.toList.take 2)))) := by
  have hl := ModLine.known_of_canonicalize hq
  obtain ⟨harr, hmods⟩ := ModLine.arrange_of_canonicalize hq
  refine ⟨⟨fun ⟨f, hf⟩ => two_of_marked_line_ok hl hf, fun h => ⟨_, marked_line_ok hl harr h⟩⟩, ?_, ?_⟩
  · intro f hf
    have hok := marked_line_ok hl harr (two_of_marked_line_ok hl hf)
    rw [hf, Except.ok.injEq] at hok
    subst hok
    refine ⟨q.acronyms, rfl, ?_, ?_, ?_⟩
    · rw [hmods, ModFilter.exactLine?]
    · rw [ModFilter.accepts, decide_eq_true_eq, hmods]
    · rw [ModLine.mods_ofModifiers_plain (Mode.isWord_of_arrange harr), hmods]
  · intro h3
    obtain ⟨a, ha, h3⟩ := h3
    have hlong := (Mode.length_of_mem_order (hl a ha)).resolve_left (by omega)
    obtain ⟨e, he, hwhy⟩ := marked_line_error hl ⟨a, ha, hlong⟩
    refine ⟨e, he, hwhy.imp_right fun ⟨b, hb, hbl, h⟩ => ?_⟩
    exact ⟨b, hb, Mode.length_longAcronyms hbl, h⟩

theorem marked_line_two_long :
    (ModLine.ofModifiers [⟨"10K", none⟩, ⟨"HD", none⟩, ⟨"SV2", none⟩]).canonicalize .mania =
        .ok ⟨"HD 10K SV2", none⟩ ∧
      ∃ e, ModFilter.ofText .mania ("!" ++
        (ModLine.ofModifiers [⟨"10K", none⟩, ⟨"HD", none⟩, ⟨"SV2", none⟩]).mods) = .error e := by
  have hq : (ModLine.ofModifiers [⟨"10K", none⟩, ⟨"HD", none⟩, ⟨"SV2", none⟩]).canonicalize .mania =
      .ok ⟨"HD 10K SV2", none⟩ :=
    ModLine.canonicalize_ok_iff.mpr ⟨["HD", "10K", "SV2"], by decide +kernel, rfl⟩
  obtain ⟨e, he, -⟩ := (marked_line_ok_iff_two hq).2.2 ⟨"10K", by decide +kernel, by decide⟩
  exact ⟨hq, e, he⟩

end RhythmFilter
