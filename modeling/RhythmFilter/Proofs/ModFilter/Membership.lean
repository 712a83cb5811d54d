import RhythmFilter.Proofs.ModFilter.Grammar
import RhythmFilter.Proofs.Modifier.Line

/-!
# Demands are about membership

A demand looks for its acronym anywhere in the upper case of a stored line. On a line of known mods the
acronym can only be found as a whole word, so the demand asks whether the mod is there.
-/

namespace RhythmFilter

open Text

/-! ## A known acronym in a line of known mods -/

section
variable {m n : Mode} {a : String} {l : ModLine} (ha : a ∈ m.order) (h2 : a.length = 2)
  (hl : ∀ b ∈ l.acronyms, b ∈ n.order)
include ha h2 hl

theorem eq_of_word_around {x y : List Char} (hw : x ++ a.toList ++ y ∈ words l.mods.toList) :
    x = [] ∧ y = [] ∧ a ∈ l.acronyms := by
  obtain ⟨b, hb, hbw⟩ := ModLine.exists_acronym_of_word hw
  have hab : a = b := Mode.eq_of_infix ha (hl b hb) h2 ⟨x, y, hbw.symm⟩
  subst hab
  have hlen := congrArg List.length hbw
  simp only [List.length_append] at hlen
  exact ⟨List.eq_nil_of_length_eq_zero (by omega), List.eq_nil_of_length_eq_zero (by omega), hb⟩

theorem occurs_iff_mem : Demand.occurs a l.mods = true ↔ a ∈ l.acronyms := by
  rw [Demand.occurs, ModLine.upper_mods hl, occursIn_iff]
  refine ⟨fun h => ?_, fun h => ?_⟩
  · obtain ⟨u, v, huv⟩ := h
    obtain ⟨x, y, hw, _⟩ := word_around (Mode.isWord_of_mem_order ha) u v
    rw [huv] at hw
    exact (eq_of_word_around ha h2 hl hw).2.2
  · apply infix_of_mem_words
    rw [ModLine.words_eq_map_acronyms]
    exact List.mem_map.mpr ⟨a, h, rfl⟩

theorem occurrence_delimited {u v : List Char} (huv : upper l.mods.toList = u ++ a.toList ++ v) :
    (∀ c ∈ u.getLast?, isBlank c = true) ∧ ∀ c ∈ v.head?, isBlank c = true := by
  rw [ModLine.upper_mods hl] at huv
  obtain ⟨x, y, hw, hu, hv⟩ := word_around (Mode.isWord_of_mem_order ha) u v
  rw [← huv] at hw
  obtain ⟨hx, hy, _⟩ := eq_of_word_around ha h2 hl hw
  exact ⟨hu hx, hv hy⟩

end

/-! ## The demands of a filter text -/

theorem Sign.acronym_demand (sign : Sign) (a : String) : (sign.demand a).acronym = a := by
  cases sign with
  | plus => rfl
  | minus => rfl

section
variable {m n : Mode} {s : String} {ds : List Demand} (hs : ModFilter.ofText m s = .ok (.demands ds))
include hs

theorem known_demand {d : Demand} (hd : d ∈ ds) : d.acronym ∈ m.order ∧ d.acronym.length = 2 := by
  obtain ⟨ps, hv, _, e⟩ := ModFilter.ofText_demands_iff.mp hs
  rw [e] at hd
  obtain ⟨p, hp, hdp⟩ := List.mem_flatMap.mp hd
  obtain ⟨a, ha, e⟩ := List.mem_map.mp hdp
  rw [← e, Sign.acronym_demand]
  exact ⟨(hv p hp).known a ha, (hv p hp).two a ha⟩

theorem demand_accepts_iff {l : ModLine} (hl : ∀ b ∈ l.acronyms, b ∈ n.order) {d : Demand} (hd : d ∈ ds) :
    d.accepts l.mods = true ↔ (∀ a, d = .wanted a → a ∈ l.acronyms) ∧
    ∀ a, d = .unwanted a → a ∉ l.acronyms := by
  obtain ⟨ha, h2⟩ := known_demand hs hd
  have hocc := occurs_iff_mem ha h2 hl
  cases d with
  | wanted a => simpa [Demand.accepts, Demand.acronym] using hocc
  | unwanted a => simpa [Demand.accepts, Demand.acronym] using not_congr hocc

theorem accepts_iff_members {l : ModLine} (hl : ∀ b ∈ l.acronyms, b ∈ n.order) :
    (ModFilter.demands ds).accepts l.mods = true ↔
      (∀ a, .wanted a ∈ ds → a ∈ l.acronyms) ∧ ∀ a, .unwanted a ∈ ds → a ∉ l.acronyms := by
  rw [ModFilter.accepts, List.all_eq_true]
  refine ⟨fun h => ⟨fun a ha => ?_, fun a ha => ?_⟩, fun h d hd => ?_⟩
  · exact ((demand_accepts_iff hs hl ha).mp (h _ ha)).1 a rfl
  · exact ((demand_accepts_iff hs hl ha).mp (h _ ha)).2 a rfl
  · exact (demand_accepts_iff hs hl hd).mpr ⟨fun a e => h.1 a (e ▸ hd), fun a e => h.2 a (e ▸ hd)⟩

end

/-- The demands of a filter text accept the line of delivered mods, if some mode knows them all, just
when the wanted acronyms are among the line's and the unwanted ones are not. The order of the line does
not matter, and an acronym is never found but between blanks. -/
theorem demands_accept_iff_members {m n : Mode} {s : String} {ds : List Demand}
    {ms : List Modifier} {q : ModLine}
    (hs : ModFilter.ofText m s = .ok (.demands ds)) (hq : (ModLine.ofModifiers ms).canonicalize n = .ok q) :
    ((ModFilter.demands ds).accepts (ModLine.ofModifiers ms).mods = true ↔
      (∀ a, .wanted a ∈ ds → a ∈ (ModLine.ofModifiers ms).acronyms) ∧
        ∀ a, .unwanted a ∈ ds → a ∉ (ModLine.ofModifiers ms).acronyms) ∧
      (ModFilter.demands ds).accepts (ModLine.ofModifiers ms).mods = (ModFilter.demands ds).accepts q.mods ∧
      ∀ d ∈ ds, ∀ u v, upper (ModLine.ofModifiers ms).mods.toList = u ++ d.acronym.toList ++ v →
        (∀ c ∈ u.getLast?, isBlank c = true) ∧ ∀ c ∈ v.head?, isBlank c = true := by
  have hl := ModLine.known_of_canonicalize hq
  have hperm := ModLine.acronyms_perm_of_canonicalize hq
  have hql : ∀ b ∈ q.acronyms, b ∈ n.order := fun b hb => hl b (hperm.subset hb)
  refine ⟨accepts_iff_members hs hl, ?_, fun d hd u v huv => ?_⟩
  · rw [Bool.eq_iff_iff, accepts_iff_members hs hl, accepts_iff_members hs hql]
    simp only [hperm.mem_iff]
  · obtain ⟨hd, h2⟩ := known_demand hs hd
    exact occurrence_delimited hd h2 hl huv

theorem demands_accept_ten_keys :
    ModFilter.ofText .osu "+hd-nf" = .ok (.demands [.wanted "HD", .unwanted "NF"]) ∧
      (ModLine.ofModifiers [⟨"10K", none⟩, ⟨" HD", none⟩]).canonicalize .mania = .ok ⟨"HD 10K", none⟩ ∧
      (ModFilter.demands [.wanted "HD", .unwanted "NF"]).accepts
        (ModLine.ofModifiers [⟨"10K", none⟩, ⟨" HD", none⟩]).mods = true := by
  have hs : ModFilter.ofText .osu "+hd-nf" = .ok (.demands [.wanted "HD", .unwanted "NF"]) := by decide +kernel
  have hq : (ModLine.ofModifiers [⟨"10K", none⟩, ⟨" HD", none⟩]).canonicalize .mania = .ok ⟨"HD 10K", none⟩ :=
    ModLine.canonicalize_ok_iff.mpr ⟨["HD", "10K"], by decide +kernel, rfl⟩
  have hline : (ModLine.ofModifiers [⟨"10K", none⟩, ⟨" HD", none⟩]).acronyms = ["10K", "HD"] := by
    decide +kernel
  refine ⟨hs, hq, (demands_accept_iff_members hs hq).1.mpr ⟨?_, ?_⟩⟩
  · simp [hline]
  · simp [hline]

end RhythmFilter
