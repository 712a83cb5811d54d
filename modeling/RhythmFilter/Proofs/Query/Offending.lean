import RhythmFilter.Proofs.Query.ClauseText
import RhythmFilter.Proofs.Query.Lists
import RhythmFilter.Proofs.Query.Resolving

/-!
# Clauses that offend

A clause is accepted when texts about the subject can name its field and, if it has the operator for lists,
its value lists something. Otherwise it offends: an unknown field comes before a list that cannot be read, and
a list is refused with the word that the clause stands in.
-/

namespace RhythmFilter

open Text

theorem Clause.Spells.listed_word {e : Entity} {w : List Char} {c : Clause} (h : Spells e w c)
    (hop : c.operator = .oneOf) : String.ofList w = c.field ++ "/" ++ c.value := by
  rw [h.word_eq, text, hop, String.ofList_toList]
  rfl

namespace Subject

def Names (t : Subject) (c : Clause) (h : Handle) : Prop := h ∈ t.handles ∧ h.fieldName = c.field

/-- Scores can be asked for several ranks, and a value holds ranks if their letters are in its upper case.
Beatmap sets can be asked for several texts of any field, between commas. -/
def Lists : Subject → Clause → Prop
  | .scores _, c => c.field = ScoreField.rank.name ∧ ∃ d ∈ upper c.value.toList, d ∈ Rank.initials
  | .beatmaps, _ => True
  | .beatmapsets, c => ∃ d ∈ c.value.toList, d ≠ ','

structure Accepts (t : Subject) (c : Clause) : Prop where
  known : ∃ h, t.Names c h
  lists : c.operator = .oneOf → t.Lists c

inductive ListFault : Subject → Clause → Reason → Prop
  | outsideRank {m : Mode} {c : Clause} :
      c.field ≠ ScoreField.rank.name → ListFault (.scores m) c .listOutsideRank
  | noRank {m : Mode} {c : Clause} : c.field = ScoreField.rank.name →
    (∀ d ∈ upper c.value.toList, d ∉ Rank.initials) → ListFault (.scores m) c .noRank
  | empty {c : Clause} : (∀ d ∈ c.value.toList, d = ',') → ListFault .beatmapsets c .emptyList

inductive Offends (t : Subject) (w : List Char) (c : Clause) : Refusal → Prop
  | unknownField : (∀ h, ¬ t.Names c h) → Offends t w c (.unknownField t.entity c.field)
  | list {h : Handle} {reason : Reason} : t.Names c h → c.operator = .oneOf → t.ListFault c reason →
    Offends t w c (.malformed (String.ofList w) reason)

section
variable {t : Subject} {c : Clause}

theorem lists_or_fault (t : Subject) (c : Clause) : t.Lists c ∨ ∃ reason, t.ListFault c reason := by
  cases t with
  | scores m =>
    by_cases hfield : c.field = ScoreField.rank.name
    · by_cases hrank : ∃ d ∈ upper c.value.toList, d ∈ Rank.initials
      · exact Or.inl ⟨hfield, hrank⟩
      · exact Or.inr ⟨_, .noRank hfield (by simpa using hrank)⟩
    · exact Or.inr ⟨_, .outsideRank hfield⟩
  | beatmaps => exact Or.inl trivial
  | beatmapsets =>
    by_cases hentry : ∃ d ∈ c.value.toList, d ≠ ','
    · exact Or.inl hentry
    · exact Or.inr ⟨_, .empty (by simpa using hentry)⟩

theorem accepts_or_offends (t : Subject) (w : List Char) (c : Clause) : t.Accepts c ∨ ∃ r, t.Offends w c r := by
  by_cases hknown : ∃ h, t.Names c h
  · by_cases hop : c.operator = .oneOf
    · rcases t.lists_or_fault c with hlists | ⟨reason, hfault⟩
      · exact Or.inl ⟨hknown, fun _ => hlists⟩
      · obtain ⟨h, hname⟩ := hknown
        exact Or.inr ⟨_, .list hname hop hfault⟩
    · exact Or.inl ⟨hknown, fun e => absurd e hop⟩
  · exact Or.inr ⟨_, .unknownField (by simpa using hknown)⟩

/-! ## Accepted clauses -/

theorem list_of_lists {h : Handle} (hc : c.Proper t.entity) (hname : t.Names c h) (hop : c.operator = .oneOf)
    (hlists : t.Lists c) : t.CanList h ∧ t.listed c ≠ [] := by
  obtain ⟨hh, hfield⟩ := hname
  cases t with
  | scores m =>
    obtain ⟨hrank, hletter⟩ := hlists
    obtain ⟨f, _, e⟩ := List.mem_map.mp hh
    subst e
    have hf : ScoreField.rank = f := FieldList.name_injective (hfield.trans hrank).symm
    refine ⟨by rw [CanList, hf], fun hnil => ?_⟩
    rw [listed, List.map_eq_nil_iff, Clause.ranks_eq_nil_iff] at hnil
    obtain ⟨d, hd, hinitial⟩ := hletter
    exact hnil d hd hinitial
  | beatmaps =>
    -- texts about beatmaps have no operator for lists
    have := hc.allowed
    rw [hop] at this
    cases this
  | beatmapsets =>
    obtain ⟨d, hd, hcomma⟩ := hlists
    refine ⟨trivial, fun hnil => hcomma ?_⟩
    exact (Clause.entries_eq_nil_iff hc.value.no_blank).mp hnil d hd

theorem exists_resolves (hc : c.Proper t.entity) (h : t.Accepts c) : ∃ p, t.Resolves c p := by
  obtain ⟨⟨x, hname⟩, hlists⟩ := h
  by_cases hop : c.operator = .oneOf
  · obtain ⟨hcan, hne⟩ := list_of_lists hc hname hop (hlists hop)
    exact ⟨_, .list hname.1 hname.2 hop hcan hne⟩
  · exact ⟨_, .compare hname.1 hname.2 hop⟩

theorem predicate_of_accepts (hc : c.Proper t.entity) (h : t.Accepts c) : ∃ p, t.predicate c = .ok p := by
  obtain ⟨p, hp⟩ := exists_resolves hc h
  exact ⟨p, (predicate_ok_iff hc.allowed).mpr hp⟩

/-! ## Refused clauses -/

theorem predicate_of_unknown (h : ∀ x, ¬ t.Names c x) :
    t.predicate c = .error (.unknownField t.entity c.field) := by
  cases t with
  | scores m =>
    have hfind := FieldList.find_of_unknown fun (f : ScoreField) hname =>
      h (.score m f) ⟨List.mem_map_of_mem (FieldList.mem_all f), hname⟩
    rw [predicate, Clause.scorePredicate, hfind]
    rfl
  | beatmaps =>
    have hfind := FieldList.find_of_unknown fun (f : BeatmapField) hname =>
      h (.beatmap f) ⟨List.mem_map_of_mem (FieldList.mem_all f), hname⟩
    rw [predicate, Clause.beatmapPredicate, hfind]
    rfl
  | beatmapsets =>
    have hfind := FieldList.find_of_unknown fun (f : BeatmapsetField) hname =>
      h (.beatmapset f) ⟨List.mem_map_of_mem (FieldList.mem_all f), hname⟩
    rw [predicate, Clause.beatmapsetPredicate, hfind]
    rfl

theorem predicate_of_listFault {h : Handle} {reason : Reason} (hc : c.Proper t.entity) (hname : t.Names c h)
    (hop : c.operator = .oneOf) (hfault : t.ListFault c reason) : t.predicate c = c.refuseList reason := by
  obtain ⟨hh, hfield⟩ := hname
  cases hfault with
  | outsideRank hne =>
    obtain ⟨f, _, rfl⟩ := List.mem_map.mp hh
    have hfind : FieldList.find c.field = .ok f := FieldList.find_ok_iff.mpr hfield
    have hrank : f ≠ .rank := by
      rintro rfl
      exact hne hfield.symm
    simp [predicate, Clause.scorePredicate, hfind, hop, hrank, bind, Except.bind]
  | noRank hrank hnone =>
    have hfind : FieldList.find c.field = .ok ScoreField.rank := FieldList.find_ok_iff.mpr hrank.symm
    simp [predicate, Clause.scorePredicate, hfind, hop, Clause.ranks_eq_nil_iff.mpr hnone, bind, Except.bind]
  | empty hcommas =>
    obtain ⟨f, _, rfl⟩ := List.mem_map.mp hh
    have hfind : FieldList.find c.field = .ok f := FieldList.find_ok_iff.mpr hfield
    have hnil := (Clause.entries_eq_nil_iff hc.value.no_blank).mpr hcommas
    simp [predicate, Clause.beatmapsetPredicate, hfind, hop, hnil, bind, Except.bind]

theorem predicate_of_offends {w : List Char} {r : Refusal} (hw : Clause.Spells t.entity w c)
    (hc : c.Proper t.entity)
    (h : t.Offends w c r) : t.predicate c = .error r := by
  cases h with
  | unknownField hnone => exact predicate_of_unknown hnone
  | list hname hop hfault =>
    rw [predicate_of_listFault hc hname hop hfault, Clause.refuseList, hw.listed_word hop]

theorem predicate_error_iff {w : List Char} {r : Refusal} (hw : Clause.Spells t.entity w c)
    (hc : c.Proper t.entity) :
    t.predicate c = .error r ↔ t.Offends w c r := by
  refine ⟨fun h => ?_, predicate_of_offends hw hc⟩
  rcases t.accepts_or_offends w c with hacc | ⟨r', hoff⟩
  · obtain ⟨p, hp⟩ := predicate_of_accepts hc hacc
    rw [hp] at h
    cases h
  · have := predicate_of_offends hw hc hoff
    rw [h, Except.error.injEq] at this
    exact this ▸ hoff

theorem predicate_isOk_iff (hc : c.Proper t.entity) : (∃ p, t.predicate c = .ok p) ↔ t.Accepts c := by
  refine ⟨fun h => ?_, predicate_of_accepts hc⟩
  rcases t.accepts_or_offends c.text.toList c with hacc | ⟨r, hoff⟩
  · exact hacc
  · obtain ⟨p, hp⟩ := h
    rw [predicate_of_offends hc.spells hc hoff] at hp
    cases hp

/-- What the predicate of a clause says: the operand is the value itself unless it is read as a list. -/
structure Answers (t : Subject) (c : Clause) (p : Predicate) : Prop where
  handle : t.Names c p.handle
  operator : p.operator = c.operator
  operand : p.operand = if c.operator = .oneOf then .list (t.listed c) else .single c.value

theorem answers_of_resolves {p : Predicate} (h : t.Resolves c p) : t.Answers c p := by
  cases h with
  | compare hh hname hop => exact ⟨⟨hh, hname⟩, rfl, (if_neg hop).symm⟩
  | list hh hname hop _ _ => exact ⟨⟨hh, hname⟩, hop.symm, (if_pos hop).symm⟩

end

/-! ## Texts -/

theorem exists_word_at {R : List Char → Clause → Prop} {c : Clause} {later : List Clause} :
    ∀ {good : List Clause} {ws : List (List Char)}, List.Forall₂ R ws (good ++ c :: later) →
      ∃ w, ws[good.length]? = some w ∧ R w c
  | [], ws, h => by
    obtain ⟨w, vs, hw, _, e⟩ := List.forall₂_cons_right_iff.mp h
    subst e
    exact ⟨w, rfl, hw⟩
  | d :: good, ws, h => by
    obtain ⟨v, vs, _, hrest, e⟩ := List.forall₂_cons_right_iff.mp h
    subst e
    have ih : ∃ w, vs[good.length]? = some w ∧ R w c := exists_word_at hrest
    exact ih

section
variable {t : Subject} {s : String} {cs : List Clause} (h : Clause.ofText t.entity s = .ok cs)
include h

theorem filters_of_clauses : t.filters s = cs.mapM t.predicate := by
  rw [filters_eq, h]
  rfl

theorem filters_isOk_iff : (∃ ps, t.filters s = .ok ps) ↔ ∀ c ∈ cs, t.Accepts c := by
  rw [filters_of_clauses h, mapM_isOk_iff]
  exact forall₂_congr fun c hc => predicate_isOk_iff (Clause.proper_of_ofText h c hc)

theorem answers_of_filters {ps : List Predicate} (hps : t.filters s = .ok ps) :
    List.Forall₂ t.Answers cs ps := by
  have hproper := Clause.proper_of_ofText h
  rw [filters_of_clauses h, mapM_ok_iff] at hps
  refine ((List.forall₂_and_left cs ps).mpr ⟨hproper, hps⟩).imp fun c p ⟨hc, hp⟩ => ?_
  exact answers_of_resolves ((predicate_ok_iff hc.allowed).mp hp)

theorem filters_error_iff {ws : List (List Char)} (hws : List.Forall₂ (Clause.Spells t.entity) ws cs)
    {r : Refusal} :
    t.filters s = .error r ↔ ∃ good c later w, cs = good ++ c :: later ∧ (∀ d ∈ good, t.Accepts d) ∧
      ws[good.length]? = some w ∧ t.Offends w c r := by
  have hproper := Clause.proper_of_ofText h
  rw [filters_of_clauses h, mapM_error_iff]
  refine exists_congr fun good => exists_congr fun c => exists_congr fun later => ?_
  rw [exists_and_left]
  refine and_congr_right fun hcs => ?_
  rw [hcs] at hproper hws
  have hgood : (∀ d ∈ good, ∃ p, t.predicate d = .ok p) ↔ ∀ d ∈ good, t.Accepts d :=
    forall₂_congr fun d hd => predicate_isOk_iff (hproper d (List.mem_append_left _ hd))
  have hc := hproper c (List.mem_append_right _ List.mem_cons_self)
  -- the word beside the clause spells it, so that the refusal names the clause as it stands in the text
  obtain ⟨w, hw, hspell⟩ := exists_word_at hws
  rw [hgood, exists_and_left, predicate_error_iff hspell hc]
  simp [hw]

end

end Subject

/-- A text that is no row of clauses is refused as such. Otherwise the filters answer the clauses one by one if
all are accepted, and refuse the first that is not, with its field or with the word that it stands in. -/
theorem filters_answer_or_refuse (t : Subject) (s : String) :
    ∃ ws, (∀ vs, Spaced vs (lower s.toList) ↔ vs = ws) ∧
      (∀ r, Clause.ofText t.entity s = .error r → t.filters s = .error r) ∧
      ∀ cs, Clause.ofText t.entity s = .ok cs → List.Forall₂ (Clause.Spells t.entity) ws cs ∧
        ((∃ ps, t.filters s = .ok ps) ↔ ∀ c ∈ cs, t.Accepts c) ∧
        (∀ ps, t.filters s = .ok ps → List.Forall₂ t.Answers cs ps) ∧
        ∀ r, t.filters s = .error r ↔ ∃ good c later w, cs = good ++ c :: later ∧ (∀ d ∈ good, t.Accepts d) ∧
          ws[good.length]? = some w ∧ t.Offends w c r := by
  refine ⟨words (lower s.toList), fun vs => ?_, fun r h => ?_, fun cs h => ?_⟩
  · rw [← words_eq_iff]
    exact eq_comm
  · rw [Subject.filters_eq, h]
    rfl
  · have hws := Clause.ofText_ok_iff.mp h
    exact ⟨hws, Subject.filters_isOk_iff h, fun ps => Subject.answers_of_filters h,
      fun r => Subject.filters_error_iff h hws⟩

example : (Subject.scores .osu).filters "Rank/Z1A count50/9 rank/zz" =
    .error (.unknownField .score "count50") := by
  decide +kernel

end RhythmFilter
