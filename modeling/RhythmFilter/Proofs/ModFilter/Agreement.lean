import RhythmFilter.Proofs.ModFilter.Rendering

/-!
# One run behind three signs

A text without signs can stand behind an exclamation mark, a plus or a minus. It is cut into the same acronyms
behind each of them, and if it cannot be cut into known ones, it is refused alike.
-/

namespace RhythmFilter

open Text

theorem Cut.unique {run : List Char} {as bs : List String} (h : Cut run as) (h' : Cut run bs) : as = bs := by
  rw [(cut_iff.mp h).2, (cut_iff.mp h').2]

theorem KnownCut.chars {m : Mode} {run : List Char} {as : List String} (h : KnownCut m run as) :
    ∀ c ∈ run, isWordChar c = true := by
  intro c hc
  rw [← h.joined] at hc
  obtain ⟨a, ha, hca⟩ := List.mem_flatMap.mp hc
  exact isWordChar_capital (Mode.isCapital_of_mem_order (h.known a ha) c hca)

theorem RunFault.eq_odd {m : Mode} {text run : List Char} {e : Refusal} (h : RunFault m text run e)
    (hodd : run.length % 2 = 1) : e = .malformed (String.ofList text) (.oddLength (String.ofList run)) := by
  cases h with
  | odd _ => rfl
  | unknown hcut _ =>
    have heven := (cut_iff.mp hcut).1
    omega

theorem RunFault.eq_unknown {m : Mode} {text run : List Char} {e : Refusal} {as : List String} {a : String}
    (h : RunFault m text run e) (hcut : Cut run as) (hun : m.FirstUnknown as a) : e = .unknownAcronym m a := by
  cases h with
  | odd hodd =>
    have heven := (cut_iff.mp hcut).1
    omega
  | @unknown bs b hcut' hun' =>
    have hfind := Mode.find_unknown_some.mpr hun
    rw [hcut.unique hcut', Mode.find_unknown_some.mpr hun', Option.some.injEq] at hfind
    rw [hfind]

theorem RunFault.same {m : Mode} {text run : List Char} {e : Refusal} (h : RunFault m text run e) :
    (∃ a, ∀ text' e', RunFault m text' run e' → e' = .unknownAcronym m a) ∨
      ∃ reason, ∀ text' e', RunFault m text' run e' → e' = .malformed (String.ofList text') reason := by
  cases h with
  | odd hodd => exact Or.inr ⟨_, fun _ _ h' => h'.eq_odd hodd⟩
  | @unknown as a hcut hun => exact Or.inl ⟨a, fun _ _ h' => h'.eq_unknown hcut hun⟩

/-! ## One run as a row -/

theorem Sign.isMark_char (sign : Sign) : IsMark sign.char := by
  cases sign with
  | plus => exact Or.inl rfl
  | minus => exact Or.inr (Or.inl rfl)

theorem IsRow.chars {s : List Char} {rs : List Run} (h : IsRow s rs) :
    ∀ c ∈ s, isWordChar c = true ∨ IsMark c := by
  intro c hc
  rw [h.text_eq] at hc
  obtain ⟨r, hr, hcr⟩ := List.mem_flatMap.mp hc
  rcases List.mem_cons.mp hcr with e | hcr
  · exact Or.inr (e ▸ r.sign.isMark_char)
  · exact Or.inl ((h.proper r hr).2 c hcr)

theorem isRow_single (sign : Sign) {n : List Char} (hne : n ≠ []) (hword : ∀ c ∈ n, isWordChar c = true) :
    IsRow (sign.char :: n) [⟨sign, n⟩] := by
  refine ⟨List.cons_ne_nil _ _, List.forall_mem_singleton.mpr ⟨hne, hword⟩, ?_⟩
  rw [rowText_cons, rowText, List.flatMap_nil, List.append_nil]

namespace ModFilter

section
variable {m : Mode} {n : List Char}

theorem readRuns_signed (hne : n ≠ []) (hword : ∀ c ∈ n, isWordChar c = true) (sign : Sign) :
    readRuns m (sign.char :: n) = (readRun m (sign.char :: n) ⟨sign, n⟩).map .demands := by
  rw [readRuns_of_isRow (isRow_single sign hne hword), List.mapM_cons, List.mapM_nil]
  cases readRun m (sign.char :: n) ⟨sign, n⟩ with
  | error e => rfl
  | ok ds => simp [bind, Except.bind, pure, Except.pure, Except.map]

theorem readRuns_signed_ok_iff (hne : n ≠ []) (hno : ∀ c ∈ n, ¬ IsMark c) (sign : Sign) {f : ModFilter} :
    readRuns m (sign.char :: n) = .ok f ↔ ∃ as, KnownCut m n as ∧ f = .demands (as.map sign.demand) := by
  by_cases hword : ∀ c ∈ n, isWordChar c = true
  · rw [readRuns_signed hne hword, map_ok_iff]
    simp only [readRun_ok_iff]
    refine ⟨fun h => ?_, fun h => ?_⟩
    · obtain ⟨ds, ⟨as, hk, hds⟩, e⟩ := h
      exact ⟨as, hk, by rw [← e, hds]⟩
    · obtain ⟨as, hk, e⟩ := h
      exact ⟨_, ⟨as, hk, rfl⟩, e.symm⟩
  · -- no row at all: a row has word characters and signs only, and there are no signs here
    have hnone : ∀ rs, ¬ IsRow (sign.char :: n) rs := fun rs hrow => hword fun c hc =>
      (hrow.chars c (List.mem_cons_of_mem _ hc)).resolve_right (hno c hc)
    rw [readRuns_of_no_row hnone]
    refine ⟨fun h => (nomatch h), fun h => ?_⟩
    obtain ⟨as, hk, _⟩ := h
    exact absurd hk.chars hword

theorem runFault_of_readRuns_signed (hne : n ≠ []) (hword : ∀ c ∈ n, isWordChar c = true) (sign : Sign)
    {e : Refusal} (h : readRuns m (sign.char :: n) = .error e) : RunFault m (sign.char :: n) n e := by
  rw [readRuns_signed hne hword] at h
  cases hr : readRun m (sign.char :: n) ⟨sign, n⟩ with
  | error e' =>
    rw [hr] at h
    obtain rfl := Except.error.inj h
    exact readRun_error_iff.mp hr
  | ok ds =>
    rw [hr] at h
    cases h

theorem readExact_ok_iff_cut (hno : ∀ c ∈ n, ¬ IsMark c) {f : ModFilter} : readExact m ('!' :: n) n = .ok f ↔
    ∃ as xs, KnownCut m n as ∧ m.arrange as = .ok xs ∧ f = .exact xs := by
  rw [readExact_ok_iff, and_iff_right hno]

theorem runFault_of_readExact (hno : ∀ c ∈ n, ¬ IsMark c) {e : Refusal}
    (h : readExact m ('!' :: n) n = .error e) : RunFault m ('!' :: n) n e := by
  rcases readExact_error_iff.mp h with ⟨⟨c, hc, hm⟩, _⟩ | ⟨_, hf⟩
  · exact absurd hm (hno c hc)
  · exact hf

theorem readExact_isOk_iff (hno : ∀ c ∈ n, ¬ IsMark c) :
    (∃ f, readExact m ('!' :: n) n = .ok f) ↔ ∃ as, KnownCut m n as := by
  simp only [readExact_ok_iff_cut hno]
  refine ⟨fun h => ?_, fun h => ?_⟩
  · obtain ⟨_, as, _, hk, _⟩ := h
    exact ⟨as, hk⟩
  · obtain ⟨as, hk⟩ := h
    exact ⟨_, as, _, hk, Mode.arrange_of_known hk.known, rfl⟩

theorem readRuns_signed_isOk_iff (hne : n ≠ []) (hno : ∀ c ∈ n, ¬ IsMark c) (sign : Sign) :
    (∃ f, readRuns m (sign.char :: n) = .ok f) ↔ ∃ as, KnownCut m n as := by
  simp only [readRuns_signed_ok_iff hne hno]
  exact ⟨fun ⟨_, as, hk, _⟩ => ⟨as, hk⟩, fun ⟨as, hk⟩ => ⟨_, as, hk, rfl⟩⟩

end

/-! ## Requests -/

theorem normalize_mark {c : Char} (hc : IsMark c) (x : String) :
    normalize (String.singleton c ++ x) = c :: normalize x := by
  have hself : normalize (String.singleton c) = [c] := by
    rw [normalize_eq_self, String.toList_singleton]
    intro d hd
    rw [String.toList_singleton, List.mem_singleton] at hd
    exact Or.inr (hd ▸ hc)
  rw [normalize_append, hself, List.singleton_append]

section
variable {id : ModeId} {m : Mode} (hm : Mode.resolve id = .ok m) (x : String)
include hm

theorem request_exact : request id (some ("!" ++ x)) = readExact m ('!' :: normalize x) (normalize x) := by
  have hmark : normalize ("!" ++ x) = '!' :: normalize x := normalize_mark (Or.inr (Or.inr rfl)) x
  rw [request_of_resolve hm, ofText, hmark, ofNormal]

theorem request_sign (sign : Sign) : request id (some (String.singleton sign.char ++ x)) =
    readRuns m (sign.char :: normalize x) := by
  rw [request_of_resolve hm, ofText, normalize_mark sign.isMark_char]
  apply ofNormal_of_head (List.cons_ne_nil _ _)
  rw [List.head?_cons]
  cases sign with
  | plus => decide
  | minus => decide

end

/-- A text that is neither blank nor holds a sign is read behind an exclamation mark, behind a plus and behind
a minus, or behind none of them. The three filters hold the same acronyms, the exact one in the order of the
mode. Word characters are refused alike behind the three signs. -/
theorem signed_runs_agree {id : ModeId} {m : Mode} {x : String} (hm : Mode.resolve id = .ok m)
    (hne : normalize x ≠ []) (hno : ∀ c ∈ normalize x, ¬ IsMark c) :
    ((∃ f, request id (some ("!" ++ x)) = .ok f) ↔ ∃ f, request id (some ("+" ++ x)) = .ok f) ∧
    ((∃ f, request id (some ("+" ++ x)) = .ok f) ↔ ∃ f, request id (some ("-" ++ x)) = .ok f) ∧
    (∀ f g h, request id (some ("!" ++ x)) = .ok f → request id (some ("+" ++ x)) = .ok g →
      request id (some ("-" ++ x)) = .ok h → ∃ as xs, m.arrange as = .ok xs ∧ f = .exact xs ∧
        g = .demands (as.map .wanted) ∧ h = .demands (as.map .unwanted)) ∧
    ((∀ c ∈ normalize x, isWordChar c = true) → ∀ e e' e'', request id (some ("!" ++ x)) = .error e →
      request id (some ("+" ++ x)) = .error e' → request id (some ("-" ++ x)) = .error e'' →
      (∃ a, e = .unknownAcronym m a ∧ e' = .unknownAcronym m a ∧ e'' = .unknownAcronym m a) ∨
        ∃ reason, e = .malformed (String.ofList ('!' :: normalize x)) reason ∧
          e' = .malformed (String.ofList ('+' :: normalize x)) reason ∧
          e'' = .malformed (String.ofList ('-' :: normalize x)) reason) := by
  have hplus : request id (some ("+" ++ x)) = readRuns m ('+' :: normalize x) := request_sign hm x .plus
  have hminus : request id (some ("-" ++ x)) = readRuns m ('-' :: normalize x) := request_sign hm x .minus
  rw [request_exact hm, hplus, hminus]
  have hok := readExact_isOk_iff (m := m) hno
  have hok' := readRuns_signed_isOk_iff (m := m) hne hno
  refine ⟨hok.trans (hok' .plus).symm, (hok' .plus).trans (hok' .minus).symm, ?_, ?_⟩
  · intro f g h hf hg hh
    obtain ⟨as, xs, hk, hxs, e⟩ := (readExact_ok_iff_cut hno).mp hf
    obtain ⟨bs, hk', e'⟩ := (readRuns_signed_ok_iff hne hno .plus).mp hg
    obtain ⟨cs, hk'', e''⟩ := (readRuns_signed_ok_iff hne hno .minus).mp hh
    obtain rfl := hk'.unique hk.toCut
    obtain rfl := hk''.unique hk'.toCut
    exact ⟨_, xs, hxs, e, e', e''⟩
  · intro hword e e' e'' he he' he''
    have hf := runFault_of_readExact hno he
    have hf' := runFault_of_readRuns_signed hne hword .plus he'
    have hf'' := runFault_of_readRuns_signed hne hword .minus he''
    -- the fault depends on the run only, so the first text says what the other two are refused for
    rcases hf.same with ⟨a, h⟩ | ⟨reason, h⟩
    · exact Or.inl ⟨a, h _ _ hf, h _ _ hf', h _ _ hf''⟩
    · exact Or.inr ⟨reason, h _ _ hf, h _ _ hf', h _ _ hf''⟩

theorem signed_runs_agree_small_letters :
    (∃ f, request (.name "osu") (some ("-" ++ " hd dt")) = .ok f) ∧
      request (.name "osu") (some ("!" ++ "hdxxyy")) = .error (.unknownAcronym .osu "XX") ∧
      ∀ e, request (.name "osu") (some ("-" ++ "hdxxyy")) = .error e → e = .unknownAcronym .osu "XX" := by
  have hm : Mode.resolve (.name "osu") = .ok .osu := by decide
  have hn : normalize " hd dt" = "HDDT".toList := by decide +kernel
  have hn' : normalize "hdxxyy" = "HDXXYY".toList := by decide +kernel
  have hok : request (.name "osu") (some ("!" ++ " hd dt")) = .ok (.exact ["DT", "HD"]) := by decide +kernel
  have hbad : request (.name "osu") (some ("!" ++ "hdxxyy")) = .error (.unknownAcronym .osu "XX") := by
    decide +kernel
  have hbad' : request (.name "osu") (some ("+" ++ "hdxxyy")) = .error (.unknownAcronym .osu "XX") := by
    decide +kernel
  have hcapital : ∀ c ∈ "HDDT".toList ++ "HDXXYY".toList, isCapital c = true := forall_of_all (by decide)
  have agree := signed_runs_agree (x := " hd dt") hm (by rw [hn]; decide) fun c hc =>
    not_isMark_of_isCapital (hcapital c (List.mem_append_left _ (hn ▸ hc)))
  have agree' := signed_runs_agree (x := "hdxxyy") hm (by rw [hn']; decide) fun c hc =>
    not_isMark_of_isCapital (hcapital c (List.mem_append_right _ (hn' ▸ hc)))
  refine ⟨agree.2.1.mp (agree.1.mp ⟨_, hok⟩), hbad, fun e he => ?_⟩
  have hword : ∀ c ∈ normalize "hdxxyy", isWordChar c = true := fun c hc =>
    isWordChar_capital (hcapital c (List.mem_append_right _ (hn' ▸ hc)))
  rcases agree'.2.2.2 hword _ _ _ hbad hbad' he with ⟨a, ha, _, hea⟩ | ⟨_, h, _⟩
  · rw [hea, ← ha]
  · cases h

end ModFilter

end RhythmFilter
