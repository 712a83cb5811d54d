import RhythmFilter.Proofs.ModFilter.Cutting
import RhythmFilter.Proofs.ModFilter.Rows
import RhythmFilter.Proofs.Mode.Acronyms

/-!
# The grammar of mod filters

`Reads m n` gives the result of reading the normalized text `n` for the mode `m`, case by case and
without saying how it is found: what an accepted text is made of, and which fault of a refused text is
named. Reading a filter text agrees with it.
-/

namespace RhythmFilter

open Text

structure Phrase where
  sign : Sign
  acronyms : List String

namespace Phrase

def run (p : Phrase) : Run := ⟨p.sign, p.acronyms.flatMap String.toList⟩

def text (p : Phrase) : List Char := p.sign.char :: p.acronyms.flatMap String.toList

def demands (p : Phrase) : List Demand := p.acronyms.map p.sign.demand

structure Valid (m : Mode) (p : Phrase) : Prop where
  nonempty : p.acronyms ≠ []
  two : ∀ a ∈ p.acronyms, a.length = 2
  known : ∀ a ∈ p.acronyms, a ∈ m.order

theorem text_eq (ps : List Phrase) : ps.flatMap text = rowText (ps.map run) := by
  rw [rowText, List.flatMap_map]
  rfl

theorem Valid.knownCut {m : Mode} {p : Phrase} (h : p.Valid m) : KnownCut m p.run.mods p.acronyms :=
  ⟨⟨rfl, h.two⟩, h.known⟩

theorem Valid.isProper {m : Mode} {p : Phrase} (h : p.Valid m) : p.run.IsProper := by
  refine ⟨fun hn => ?_, fun c hc => ?_⟩
  · obtain ⟨a, as, has⟩ := List.exists_cons_of_ne_nil h.nonempty
    have ha : a ∈ p.acronyms := has ▸ List.mem_cons_self
    exact (Mode.isWord_of_mem_order (h.known a ha)).1 (List.flatMap_eq_nil_iff.mp hn a ha)
  · obtain ⟨a, ha, hca⟩ := List.mem_flatMap.mp hc
    exact isWordChar_capital (Mode.isCapital_of_mem_order (h.known a ha) c hca)

theorem isRow {m : Mode} {ps : List Phrase} (hne : ps ≠ []) (h : ∀ p ∈ ps, p.Valid m) :
    IsRow (ps.flatMap text) (ps.map run) := by
  refine ⟨by simpa using hne, fun r hr => ?_, text_eq ps⟩
  obtain ⟨p, hp, e⟩ := List.mem_map.mp hr
  exact e ▸ (h p hp).isProper

theorem exists_of_knownCut {m : Mode} {r : Run} {as : List String} (hr : r.IsProper)
    (h : KnownCut m r.mods as) :
    (⟨r.sign, as⟩ : Phrase).Valid m ∧ (⟨r.sign, as⟩ : Phrase).run = r := by
  obtain ⟨sign, mods⟩ := r
  refine ⟨⟨fun (hn : as = []) => hr.1 ?_, h.two, h.known⟩, ?_⟩
  · rw [← h.joined, hn, List.flatMap_nil]
  · rw [run, h.joined]

end Phrase

def IsMark (c : Char) : Prop := c = '+' ∨ c = '-' ∨ c = '!'

theorem not_isMark_of_isCapital {c : Char} (h : isCapital c = true) : ¬ IsMark c := by
  intro hm
  rcases hm with e | e | e
  all_goals
    subst e
    exact absurd h (by decide)

theorem not_isMark_of_known {m : Mode} {as : List String} (h : ∀ a ∈ as, a ∈ m.order) :
    ∀ c ∈ as.flatMap String.toList, ¬ IsMark c := by
  intro c hc
  obtain ⟨a, ha, hca⟩ := List.mem_flatMap.mp hc
  exact not_isMark_of_isCapital (Mode.isCapital_of_mem_order (h a ha) c hca)

inductive Reads (m : Mode) : List Char → Except Refusal ModFilter → Prop
  | nothing : Reads m [] (.ok .empty)
  | exact {run : List Char} {as xs : List String} : (∀ c ∈ run, ¬ IsMark c) → KnownCut m run as →
    xs.Perm as → m.InOrder xs → Reads m ('!' :: run) (.ok (.exact xs))
  | marked {run : List Char} : (∃ c ∈ run, IsMark c) →
    Reads m ('!' :: run) (.error (.malformed (String.ofList ('!' :: run)) .signInExact))
  | exactFault {run : List Char} {e : Refusal} : (∀ c ∈ run, ¬ IsMark c) → RunFault m ('!' :: run) run e →
    Reads m ('!' :: run) (.error e)
  | demands {ps : List Phrase} : ps ≠ [] → (∀ p ∈ ps, p.Valid m) →
    Reads m (ps.flatMap Phrase.text) (.ok (.demands (ps.flatMap Phrase.demands)))
  | noRow {n : List Char} : n ≠ [] → n.head? ≠ some '!' → (∀ rs, ¬ IsRow n rs) →
    Reads m n (.error (.malformed (String.ofList n) .notRuns))
  | runFault {n : List Char} {good later : List Run} {r : Run} {e : Refusal} : IsRow n (good ++ r :: later) →
    (∀ g ∈ good, ∃ as, KnownCut m g.mods as) → RunFault m n r.mods e → Reads m n (.error e)

theorem IsRow.head {n : List Char} {rs : List Run} (h : IsRow n rs) : n ≠ [] ∧ n.head? ≠ some '!' := by
  obtain ⟨r, rs', e⟩ := List.exists_cons_of_ne_nil h.nonempty
  rw [h.text_eq, e, rowText_cons, List.head?_cons]
  refine ⟨List.cons_ne_nil _ _, ?_⟩
  cases r.sign with
  | plus => decide
  | minus => decide

namespace ModFilter

section
variable {m : Mode} {part run : List Char}

theorem any_mark : run.any (['+', '-', '!'].contains ·) = true ↔ ∃ c ∈ run, IsMark c := by
  simp [IsMark]

theorem not_any_mark : ¬ run.any (['+', '-', '!'].contains ·) = true ↔ ∀ c ∈ run, ¬ IsMark c := by
  simp [IsMark]

theorem readExact_of_mark (h : ∃ c ∈ run, IsMark c) : readExact m part run = refuse part .signInExact := by
  unfold readExact
  rw [if_pos (any_mark.mpr h)]

theorem readExact_of_no_mark (h : ∀ c ∈ run, ¬ IsMark c) :
    readExact m part run = acronymsOf part run >>= fun as => m.arrange as >>= fun xs => .ok (exact xs) := by
  unfold readExact
  rw [if_neg (not_any_mark.mpr h)]
  rfl

theorem readExact_ok_iff {f : ModFilter} : readExact m part run = .ok f ↔ (∀ c ∈ run, ¬ IsMark c) ∧
    ∃ as xs, KnownCut m run as ∧ m.arrange as = .ok xs ∧ f = .exact xs := by
  by_cases hm : ∃ c ∈ run, IsMark c
  · rw [readExact_of_mark hm]
    obtain ⟨c, hc, hm⟩ := hm
    exact ⟨fun h => (nomatch h), fun h => absurd hm (h.1 c hc)⟩
  have hno : ∀ c ∈ run, ¬ IsMark c := fun c hc h => hm ⟨c, hc, h⟩
  rw [readExact_of_no_mark hno, bind_ok_iff, and_iff_right hno]
  refine exists_congr fun as => ?_
  rw [bind_ok_iff, acronymsOf_ok_iff]
  refine ⟨fun h => ?_, fun h => ?_⟩
  · obtain ⟨hc, xs, hxs, h⟩ := h
    exact ⟨xs, ⟨hc, Mode.known_of_arrange hxs⟩, hxs, (Except.ok.inj h).symm⟩
  · obtain ⟨xs, hk, hxs, e⟩ := h
    exact ⟨hk.toCut, xs, hxs, by rw [e]⟩

theorem readExact_error_iff {e : Refusal} : readExact m part run = .error e ↔
    ((∃ c ∈ run, IsMark c) ∧ e = .malformed (String.ofList part) .signInExact) ∨
      ((∀ c ∈ run, ¬ IsMark c) ∧ RunFault m part run e) := by
  by_cases hm : ∃ c ∈ run, IsMark c
  · rw [readExact_of_mark hm, and_iff_right hm]
    have : ¬ ∀ c ∈ run, ¬ IsMark c := fun h => hm.elim fun c hc => h c hc.1 hc.2
    rw [or_iff_left fun h => this h.1]
    exact ⟨fun h => (Except.error.inj h).symm, fun h => by rw [h, refuse]⟩
  have hno : ∀ c ∈ run, ¬ IsMark c := fun c hc h => hm ⟨c, hc, h⟩
  rw [readExact_of_no_mark hno, or_iff_right fun h => hm h.1, and_iff_right hno, runFault_iff, bind_error_iff]
  refine or_congr_right (exists_congr fun as => and_congr_right fun _ => ?_)
  rw [bind_error_iff, ← Mode.arrange_error_iff]
  refine or_iff_left fun h => ?_
  obtain ⟨xs, _, h⟩ := h
  cases h

theorem exists_phrases {rs : List Run} {dss : List (List Demand)} (hr : ∀ r ∈ rs, r.IsProper)
    (h : List.Forall₂ (fun r ds => readRun m part r = .ok ds) rs dss) :
    ∃ ps : List Phrase, (∀ p ∈ ps, p.Valid m) ∧ ps.map Phrase.run = rs ∧
      ps.flatMap Phrase.demands = dss.flatten := by
  induction h with
  | nil => exact ⟨[], by simp, rfl, rfl⟩
  | @cons r ds rs dss hrd _ ih =>
    obtain ⟨hr, hrest⟩ := List.forall_mem_cons.mp hr
    obtain ⟨as, hk, hds⟩ := readRun_ok_iff.mp hrd
    obtain ⟨hv, hrun⟩ := Phrase.exists_of_knownCut hr hk
    obtain ⟨ps, hps, hrs, hdss⟩ := ih hrest
    refine ⟨⟨r.sign, as⟩ :: ps, List.forall_mem_cons.mpr ⟨hv, hps⟩, ?_, ?_⟩
    · rw [List.map_cons, hrun, hrs]
    · rw [List.flatMap_cons, hdss, hds]
      rfl

theorem readRun_phrases {ps : List Phrase} (h : ∀ p ∈ ps, p.Valid m) :
    (ps.map Phrase.run).mapM (readRun m part) = .ok (ps.map Phrase.demands) := by
  rw [mapM_ok_iff, List.forall₂_map_left_iff, List.forall₂_map_right_iff, List.forall₂_same]
  exact fun p hp => readRun_ok_iff.mpr ⟨p.acronyms, (h p hp).knownCut, rfl⟩

theorem readRuns_of_isRow {rs : List Run} (h : IsRow part rs) :
    readRuns m part = rs.mapM (readRun m part) >>= fun dss => .ok (.demands dss.flatten) := by
  unfold readRuns
  rw [if_pos (isRuns_iff.mpr ⟨rs, h⟩), runs_of_isRow h]
  rfl

theorem readRuns_of_no_row (h : ∀ rs, ¬ IsRow part rs) : readRuns m part = refuse part .notRuns := by
  unfold readRuns
  rw [if_neg fun hr => (isRuns_iff.mp hr).elim h]

theorem readRuns_ok_iff {f : ModFilter} : readRuns m part = .ok f ↔ ∃ ps : List Phrase, ps ≠ [] ∧
    (∀ p ∈ ps, p.Valid m) ∧ part = ps.flatMap Phrase.text ∧ f = .demands (ps.flatMap Phrase.demands) := by
  refine ⟨fun h => ?_, fun h => ?_⟩
  · by_cases hrow : ∃ rs, IsRow part rs
    · obtain ⟨rs, hrs⟩ := hrow
      rw [readRuns_of_isRow hrs, bind_ok_iff] at h
      obtain ⟨dss, hdss, hf⟩ := h
      obtain ⟨ps, hps, hrun, hds⟩ := exists_phrases hrs.proper (mapM_ok_iff.mp hdss)
      refine ⟨ps, fun e => hrs.nonempty ?_, hps, ?_, ?_⟩
      · rw [← hrun, e, List.map_nil]
      · rw [hrs.text_eq, Phrase.text_eq, hrun]
      · rw [hds]
        exact (Except.ok.inj hf).symm
    · rw [readRuns_of_no_row fun rs hrs => hrow ⟨rs, hrs⟩] at h
      cases h
  · obtain ⟨ps, hne, hps, hpart, hf⟩ := h
    subst hpart; subst hf
    rw [readRuns_of_isRow (Phrase.isRow hne hps), readRun_phrases hps, List.flatMap_def]
    rfl

theorem readRun_isOk_iff {r : Run} : (∃ ds, readRun m part r = .ok ds) ↔ ∃ as, KnownCut m r.mods as := by
  simp only [readRun_ok_iff]
  exact ⟨fun ⟨_, as, hk, _⟩ => ⟨as, hk⟩, fun ⟨as, hk⟩ => ⟨_, as, hk, rfl⟩⟩

theorem readRuns_error_iff {e : Refusal} : readRuns m part = .error e ↔
    ((∀ rs, ¬ IsRow part rs) ∧ e = .malformed (String.ofList part) .notRuns) ∨
      ∃ good r later, IsRow part (good ++ r :: later) ∧ (∀ g ∈ good, ∃ as, KnownCut m g.mods as) ∧
        RunFault m part r.mods e := by
  by_cases hrow : ∃ rs, IsRow part rs
  · obtain ⟨rs, hrs⟩ := hrow
    rw [readRuns_of_isRow hrs, or_iff_right fun h => h.1 rs hrs, bind_error_iff, mapM_error_iff]
    simp only [readRun_isOk_iff, readRun_error_iff]
    refine ⟨fun h => ?_, fun h => ?_⟩
    · rcases h with ⟨good, r, later, e, hgood, hr⟩ | ⟨dss, _, h⟩
      · exact ⟨good, r, later, e ▸ hrs, hgood, hr⟩
      · cases h
    · obtain ⟨good, r, later, hrow, hgood, hr⟩ := h
      exact Or.inl ⟨good, r, later, isRow_unique hrs hrow, hgood, hr⟩
  · have hno : ∀ rs, ¬ IsRow part rs := fun rs hrs => hrow ⟨rs, hrs⟩
    rw [readRuns_of_no_row hno, and_iff_right hno, or_iff_left fun ⟨_, _, _, h, _⟩ => hno _ h]
    exact ⟨fun h => (Except.error.inj h).symm, fun h => by rw [h, refuse]⟩

theorem ofNormal_of_head {n : List Char} (hne : n ≠ []) (hhead : n.head? ≠ some '!') :
    ofNormal m n = readRuns m n := by
  obtain ⟨c, s, e⟩ := List.exists_cons_of_ne_nil hne
  subst e
  have hc : c ≠ '!' := fun e => hhead (by rw [e, List.head?_cons])
  unfold ofNormal
  split
  · contradiction
  · rename_i heq
    exact absurd (List.cons.inj heq).1 hc
  · rfl

theorem reads_exact (run : List Char) : Reads m ('!' :: run) (readExact m ('!' :: run) run) := by
  cases hr : readExact m ('!' :: run) run with
  | ok f =>
    obtain ⟨hno, as, xs, hk, hxs, e⟩ := readExact_ok_iff.mp hr
    obtain ⟨_, hp, ho⟩ := Mode.arrange_ok_iff.mp hxs
    exact e ▸ .exact hno hk hp ho
  | error e =>
    rcases readExact_error_iff.mp hr with ⟨hm, e⟩ | ⟨hno, hf⟩
    · exact e ▸ .marked hm
    · exact .exactFault hno hf

theorem reads_runs {n : List Char} (hne : n ≠ []) (hhead : n.head? ≠ some '!') : Reads m n (readRuns m n) := by
  cases hr : readRuns m n with
  | ok f =>
    obtain ⟨ps, hps, hv, hn, e⟩ := readRuns_ok_iff.mp hr
    subst hn; subst e
    exact .demands hps hv
  | error e =>
    rcases readRuns_error_iff.mp hr with ⟨hno, e⟩ | ⟨good, r, later, hrow, hgood, hf⟩
    · exact e ▸ .noRow hne hhead hno
    · exact .runFault hrow hgood hf

theorem reads_of_ofNormal (n : List Char) : Reads m n (ofNormal m n) := by
  by_cases hne : n = []
  · subst hne
    exact .nothing
  · by_cases hhead : n.head? = some '!'
    · obtain ⟨run, e⟩ := List.head?_eq_some_iff.mp hhead
      subst e
      exact reads_exact run
    · rw [ofNormal_of_head hne hhead]
      exact reads_runs hne hhead

theorem ofNormal_of_reads {n : List Char} {res : Except Refusal ModFilter} (h : Reads m n res) :
    ofNormal m n = res := by
  cases h with
  | nothing => rfl
  | exact hno hk hp ho =>
    exact readExact_ok_iff.mpr ⟨hno, _, _, hk, Mode.arrange_ok_iff.mpr ⟨hk.known, hp, ho⟩, rfl⟩
  | marked hm => exact readExact_error_iff.mpr (Or.inl ⟨hm, rfl⟩)
  | exactFault hno hf => exact readExact_error_iff.mpr (Or.inr ⟨hno, hf⟩)
  | demands hne hv =>
    obtain ⟨hn, hhead⟩ := (Phrase.isRow hne hv).head
    rw [ofNormal_of_head hn hhead]
    exact readRuns_ok_iff.mpr ⟨_, hne, hv, rfl, rfl⟩
  | noRow hne hhead hno =>
    rw [ofNormal_of_head hne hhead]
    exact readRuns_error_iff.mpr (Or.inl ⟨hno, rfl⟩)
  | runFault hrow hgood hf =>
    rw [ofNormal_of_head hrow.head.1 hrow.head.2]
    exact readRuns_error_iff.mpr (Or.inr ⟨_, _, _, hrow, hgood, hf⟩)

theorem ofText_iff {s : String} {res : Except Refusal ModFilter} :
    ofText m s = res ↔ Reads m (normalize s) res := by
  refine ⟨fun h => ?_, ofNormal_of_reads⟩
  exact h ▸ reads_of_ofNormal (normalize s)

theorem ofText_exact_iff {s : String} {xs : List String} : ofText m s = .ok (.exact xs) ↔
    ∃ run as, normalize s = '!' :: run ∧ (∀ c ∈ run, ¬ IsMark c) ∧ KnownCut m run as ∧
    m.arrange as = .ok xs := by
  rw [ofText_iff]
  refine ⟨fun h => ?_, fun h => ?_⟩
  · generalize hn : normalize s = n at h
    cases h with
    | exact hno hk hp ho => exact ⟨_, _, rfl, hno, hk, Mode.arrange_ok_iff.mpr ⟨hk.known, hp, ho⟩⟩
  · obtain ⟨run, as, hn, hno, hk, hxs⟩ := h
    obtain ⟨_, hp, ho⟩ := Mode.arrange_ok_iff.mp hxs
    rw [hn]
    exact .exact hno hk hp ho

/-- The empty text is the row of no phrases. -/
theorem ofText_demands_iff {s : String} {ds : List Demand} : ofText m s = .ok (.demands ds) ↔
    ∃ ps : List Phrase, (∀ p ∈ ps, p.Valid m) ∧ normalize s = ps.flatMap Phrase.text ∧
      ds = ps.flatMap Phrase.demands := by
  rw [ofText_iff]
  refine ⟨fun h => ?_, fun h => ?_⟩
  · generalize hn : normalize s = n at h
    cases h with
    | nothing => exact ⟨[], by simp, rfl, rfl⟩
    | demands _ hv => exact ⟨_, hv, rfl, rfl⟩
  · obtain ⟨ps, hv, hn, e⟩ := h
    rw [hn, e]
    by_cases hne : ps = []
    · subst hne
      exact .nothing
    · exact .demands hne hv

theorem request_of_resolve {id : ModeId} (hm : Mode.resolve id = .ok m) (s : String) :
    request id (some s) = ofText m s := by
  rw [request, hm]
  rfl

theorem isEmpty_iff {s : String} {f : ModFilter} (h : ofText m s = .ok f) :
    f.isEmpty = true ↔ normalize s = [] := by
  cases f with
  | exact xs =>
    obtain ⟨run, as, hn, _⟩ := ofText_exact_iff.mp h
    simp [isEmpty, hn]
  | demands ds =>
    obtain ⟨ps, hv, hn, e⟩ := ofText_demands_iff.mp h
    rw [hn, e, isEmpty, List.isEmpty_iff, List.flatMap_eq_nil_iff, List.flatMap_eq_nil_iff]
    refine ⟨fun hd p hp => ?_, fun ht p hp => ?_⟩
    · exact absurd (List.map_eq_nil_iff.mp (hd p hp)) (hv p hp).nonempty
    · exact absurd (ht p hp) (List.cons_ne_nil _ _)

end

/-- A filter text for a mode that can be resolved is read as the grammar says, and the filter is the
empty one only where nothing but blanks was given. -/
theorem request_eq_iff_reads {id : ModeId} {m : Mode} (hm : Mode.resolve id = .ok m) (s : String) :
    (∀ res, request id (some s) = res ↔ Reads m (normalize s) res) ∧
      ∀ f, request id (some s) = .ok f → (f.isEmpty = true ↔ normalize s = []) := by
  rw [request_of_resolve hm s]
  exact ⟨fun res => ofText_iff, fun f hf => isEmpty_iff hf⟩

/-- The unknown acronym in the first run is named, although the second run has odd length. -/
theorem reads_unknown_before_odd : Mode.resolve (.name "osu") = .ok .osu ∧
    Reads .osu (normalize " + hdxx -nff") (.error (.unknownAcronym .osu "XX")) :=
  have hm : Mode.resolve (.name "osu") = .ok .osu := by decide
  ⟨hm, ((request_eq_iff_reads hm " + hdxx -nff").1 _).mp (by decide +kernel)⟩

end ModFilter

end RhythmFilter
