import RhythmFilter.Proofs.Query.Layout
import RhythmFilter.Proofs.Query.Offending

/-!
# Entries between commas

A filter for beatmap sets lists the parts of its value between commas, in lower case. Empty parts do not
count, so entries are read back whichever commas stand around them, some between each two. Other clauses
do not change what is listed.
-/

namespace RhythmFilter

open Text

namespace Text

/-- The parts of a text between commas that are not empty. -/
def filled (s : List Char) : List (List Char) := (commaPieces s).filter (· ≠ [])

theorem filled_append_comma (s t : List Char) : filled (s ++ ',' :: t) = filled s ++ filled t := by
  have hcut : commaPieces (s ++ ',' :: t) = commaPieces s ++ commaPieces t := pieces_append_cons _ s t (by simp)
  rw [filled, hcut, List.filter_append]
  rfl

theorem filled_commas_append (n : Nat) (s : List Char) : filled (List.replicate n ',' ++ s) = filled s := by
  induction n with
  | zero => rfl
  | succ n ih =>
    have hcomma := filled_append_comma [] (List.replicate n ',' ++ s)
    rwa [ih] at hcomma

def IsPart (w : List Char) : Prop := w ≠ [] ∧ ',' ∉ w

theorem filled_of_isPart {w : List Char} (h : IsPart w) : filled w = [w] := by
  have hcut : commaPieces w = [w] := commaPieces_eq_iff.mpr
    ⟨List.cons_ne_nil _ _, List.forall_mem_singleton.mpr h.2, (List.intercalate_singleton ..).symm⟩
  rw [filled, hcut, List.filter_cons_of_pos (by simpa using h.1), List.filter_nil]

theorem filled_part_append {w t : List Char} (hw : IsPart w) (ht : ∀ c ∈ t.head?, c = ',') :
    filled (w ++ t) = w :: filled t := by
  cases t with
  | nil => rw [List.append_nil, filled_of_isPart hw]; rfl
  | cons c t =>
    have hcomma := filled_append_comma [] t
    rw [ht c rfl, filled_append_comma, filled_of_isPart hw]
    rw [List.nil_append] at hcomma
    rw [hcomma]
    rfl

def commaLaid (items : List (Nat × List Char)) (last : Nat) : List Char :=
  laidOut (items.map fun i => (List.replicate i.1 ',', i.2)) (List.replicate last ',')

theorem commaLaid_cons (n : Nat) (w : List Char) (items : List (Nat × List Char)) (last : Nat) :
    commaLaid ((n, w) :: items) last = List.replicate n ',' ++ (w ++ commaLaid items last) :=
  laidOut_cons ..

theorem head?_commaLaid {items : List (Nat × List Char)} (h : ∀ i ∈ items, i.1 ≠ 0) (last : Nat) :
    ∀ c ∈ (commaLaid items last).head?, c = ',' := by
  have hcommas : ∀ n, ∀ c ∈ (List.replicate n ',').head?, c = ',' := fun n c hc =>
    (List.mem_replicate.mp (List.mem_of_mem_head? hc)).2
  cases items with
  | nil => exact hcommas last
  | cons i items =>
    obtain ⟨n, w⟩ := i
    have hn : n ≠ 0 := h (n, w) List.mem_cons_self
    rw [commaLaid_cons, List.head?_append_of_ne_nil _ (by simpa using hn)]
    exact hcommas n

theorem filled_commaLaid : ∀ {items : List (Nat × List Char)} (last : Nat), (∀ i ∈ items, IsPart i.2) →
    (∀ i ∈ items.tail, i.1 ≠ 0) → filled (commaLaid items last) = items.map Prod.snd
  | [], last, _, _ => by
    have hcommas := filled_commas_append last []
    rwa [List.append_nil] at hcommas
  | (n, w) :: items, last, h, hbetween => by
    obtain ⟨hw, hitems⟩ := List.forall_mem_cons.mp h
    have ih : filled (commaLaid items last) = items.map Prod.snd :=
      filled_commaLaid last hitems fun i hi => hbetween i (List.mem_of_mem_tail hi)
    have hhead : ∀ c ∈ (commaLaid items last).head?, c = ',' := head?_commaLaid hbetween last
    rw [commaLaid_cons, filled_commas_append, filled_part_append hw hhead, ih, List.map_cons]

theorem mem_commaLaid {items : List (Nat × List Char)} {last : Nat} {c : Char} (h : c ∈ commaLaid items last) :
    c = ',' ∨ ∃ i ∈ items, c ∈ i.2 := by
  rw [commaLaid, laidOut, List.flatMap_map, List.mem_append, List.mem_flatMap] at h
  rcases h with ⟨i, hi, h⟩ | h
  · exact (List.mem_append.mp h).imp (fun h => (List.mem_replicate.mp h).2) fun h => ⟨i, hi, h⟩
  · exact Or.inl (List.mem_replicate.mp h).2

/-! ## Commas in lower case -/

theorem code_of_ofNat {n : Nat} {c : Char} (hc : c.toNat ≠ 0) (h : c = Char.ofNat n) : n = c.toNat := by
  by_cases hn : n.isValidChar
  · rw [h, Char.ofNat, dif_pos hn]
    rfl
  · rw [Char.ofNat, dif_neg hn] at h
    exact absurd (congrArg Char.toNat h) hc

theorem eq_comma_of_mem_lowerChar {c : Char} (h : ',' ∈ lowerChar c) : c = ',' := by
  by_cases hc : c = 'İ'
  · have hnone : ',' ∉ lowerChar 'İ' := by decide +kernel
    exact absurd (hc ▸ h) hnone
  · rw [lowerChar, if_neg hc, List.mem_singleton] at h
    rcases mapCode_eq_self_or lowerRuns c.toNat with hn | ⟨r, hr, hm⟩
    · rw [h, hn, Char.ofNat_toNat]
    · -- no run of capitals has the comma among its small letters
      have hall : (lowerRuns.all fun r => r.avoids (standing (0x2C, 0x2C))) = true := by decide +kernel
      have havoids := CaseRun.imageOf?_of_avoids (List.all_eq_true.mp hall r hr) hm
      rw [code_of_ofNat (by decide) h] at havoids
      exact absurd havoids (by decide)

theorem commas_of_lowerAfter : ∀ {s before : List Char}, (∀ d ∈ lowerAfter before s, d = ',') → ∀ c ∈ s, c = ','
  | [], _, _ => by simp
  | c :: s, before, h => by
    rw [lowerAfter] at h
    obtain ⟨hfront, hrest⟩ := List.forall_mem_append.mp h
    refine List.forall_mem_cons.mpr ⟨?_, commas_of_lowerAfter hrest⟩
    by_cases hc : c = 'Σ'
    · rw [if_pos hc, List.forall_mem_singleton, lowerSigma] at hfront
      split at hfront
      · exact absurd hfront (by decide)
      · exact absurd hfront (by decide)
    · rw [if_neg hc] at hfront
      obtain ⟨d, hd⟩ := List.exists_mem_of_ne_nil _ (lowerChar_ne_nil c)
      exact eq_comma_of_mem_lowerChar (hfront d hd ▸ hd)

theorem isSmall_comma : IsSmall ',' := by decide +kernel

theorem lower_commas {s : List Char} (h : ∀ c ∈ s, c = ',') : lower s = s :=
  lower_eq_self_iff.mpr fun c hc => (h c hc).symm ▸ isSmall_comma

theorem exists_not_comma_lower {s : List Char} (h : ∃ c ∈ s, c ≠ ',') : ∃ c ∈ lower s, c ≠ ',' := by
  by_contra hnone
  have hcommas : ∀ d ∈ lowerAfter [] s, d = ',' := fun d hd => by_contra fun hne => hnone ⟨d, hd, hne⟩
  obtain ⟨c, hc, hne⟩ := h
  exact hne (commas_of_lowerAfter hcommas c hc)

end Text

/-! ## One clause -/

theorem Entity.not_operatorChar_beatmapset {c : Char} :
    Entity.beatmapset.isOperatorChar c = false ↔ c ∉ ['<', '>', '=', '!', '/'] := by
  rw [← Bool.not_eq_true, Entity.isOperatorChar_iff]
  simp [and_assoc]

theorem Clause.ofText_no_value {e : Entity} {field : String} {o : Operator} (hfield : IsTerm e field.toList)
    (ho : e.allows o = true) :
    ofText e (field ++ o.symbol) = .error (.malformed (field ++ o.symbol) .missingValue) := by
  have hparts : Parts e (field ++ o.symbol).toList field.toList o.symbol.toList [] :=
    ⟨by rw [String.toList_append, List.append_nil], hfield.plain, o.symbol_ne_nil,
      Entity.isOperatorChar_symbol ho, by simp⟩
  have hlower : lower (field ++ o.symbol).toList = (field ++ o.symbol).toList := by
    rw [lower_eq_self_iff, String.toList_append]
    exact fun d hd => (List.mem_append.mp hd).elim (hfield.small d) fun hd => (isSmall_symbol o d hd).1
  have hword : IsWord (field ++ o.symbol).toList := by
    rw [String.toList_append]
    refine ⟨List.append_ne_nil_of_left_ne_nil hfield.nonempty _, fun d hd => ?_⟩
    exact (List.mem_append.mp hd).elim (hfield.no_blank d) fun hd => (isSmall_symbol o d hd).2
  refine ofText_error_iff.mpr ⟨[], _, [], ?_, by simp, .missingValue, .missingValue hparts hfield.nonempty, ?_⟩
  · rw [hlower, words_of_isWord hword, List.nil_append]
  · rw [String.ofList_toList]

theorem BeatmapsetField.isTerm_name (f : BeatmapsetField) : Clause.IsTerm .beatmapset f.name.toList := by
  have hletters : ∀ d ∈ "_abcdefghijklmnopqrstuvwxyz".toList,
      Entity.beatmapset.isOperatorChar d = false ∧ isBlank d = false ∧ IsSmall d :=
    forall_of_all (by decide +kernel)
  have hname : ∀ d ∈ f.name.toList, d ∈ "_abcdefghijklmnopqrstuvwxyz".toList :=
    forall_of_all (by cases f <;> decide +kernel)
  exact ⟨⟨by cases f <;> decide, fun d hd => (hletters d (hname d hd)).1⟩,
    fun d hd => (hletters d (hname d hd)).2.1, fun d hd => (hletters d (hname d hd)).2.2⟩

def entryClause (f : BeatmapsetField) (v : String) : Clause := ⟨f.name, .oneOf, String.ofList (lower v.toList)⟩

theorem names_entryClause (f : BeatmapsetField) (v : String) :
    Subject.beatmapsets.Names (entryClause f v) (.beatmapset f) :=
  ⟨List.mem_map_of_mem (FieldList.mem_all f), rfl⟩

theorem entries_entryClause {f : BeatmapsetField} {v : String} (h : ∀ c ∈ lower v.toList, isBlank c = false) :
    (entryClause f v).entries = (filled (lower v.toList)).map String.ofList := by
  have htrim : ∀ p ∈ commaPieces (lower v.toList), trim p = p := fun p hp =>
    trim_eq_self (trimmed_of_plain fun d hd => h d (mem_of_mem_commaPieces hp hd).1)
  rw [Clause.entries, entryClause, String.toList_ofList, List.map_congr_left htrim, List.map_id', filled]

section
variable {f : BeatmapsetField} {v : String} (hv : Clause.IsTerm .beatmapset (lower v.toList))
include hv

theorem ofText_entries : Clause.ofText .beatmapset (f.name ++ "/" ++ v) = .ok [entryClause f v] :=
  Clause.ofText_field_value (o := .oneOf) f.isTerm_name rfl hv

theorem proper_entryClause : (entryClause f v).Proper Subject.beatmapsets.entity :=
  Clause.proper_of_ofText (ofText_entries hv) _ (List.mem_singleton_self _)

theorem beatmapsetFilters_entries : beatmapsetFilters (f.name ++ "/" ++ v) =
    [entryClause f v].mapM Subject.beatmapsets.predicate :=
  Subject.filters_of_clauses (t := .beatmapsets) (ofText_entries hv)

theorem beatmapsetFilters_of_commas (h : ∀ c ∈ lower v.toList, c = ',') :
    beatmapsetFilters (f.name ++ "/" ++ v) =
    .error (.malformed (f.name ++ "/" ++ String.ofList (lower v.toList)) .emptyList) := by
  have hfault : Subject.beatmapsets.ListFault (entryClause f v) .emptyList :=
    .empty (by rwa [entryClause, String.toList_ofList])
  have hrefused := Subject.predicate_of_listFault (proper_entryClause hv) (names_entryClause f v) rfl hfault
  rw [beatmapsetFilters_entries hv]
  exact mapM_error_iff.mpr ⟨[], _, [], rfl, by simp, hrefused⟩

theorem beatmapsetFilters_of_entry (h : ∃ c ∈ lower v.toList, c ≠ ',') :
    beatmapsetFilters (f.name ++ "/" ++ v) =
    .ok [.oneOf (.beatmapset f) ((filled (lower v.toList)).map String.ofList)] := by
  have hproper : (entryClause f v).Proper Subject.beatmapsets.entity := proper_entryClause hv
  have hname := names_entryClause f v
  have hlists : Subject.beatmapsets.Lists (entryClause f v) := by
    rwa [Subject.Lists, entryClause, String.toList_ofList]
  obtain ⟨hcan, hne⟩ := Subject.list_of_lists hproper hname rfl hlists
  have hpredicate : Subject.beatmapsets.predicate (entryClause f v) =
      .ok (.oneOf (.beatmapset f) (entryClause f v).entries) :=
    (Subject.predicate_ok_iff hproper.allowed).mpr (.list hname.1 hname.2 rfl hcan hne)
  rw [beatmapsetFilters_entries hv, mapM_ok_iff, ← entries_entryClause hv.no_blank]
  exact .cons hpredicate .nil

end

/-! ## A clause among others -/

/-- Only at the ends of a text may the blanks beside it be missing. -/
theorem Subject.filters_beside {t : Subject} {w : String} (hw : IsGap w.toList) {a b : String}
    (hends : w = "" → a = "" ∨ b = "") {rs : List Predicate} : t.filters (a ++ w ++ b) = .ok rs ↔
      ∃ ps qs, t.filters a = .ok ps ∧ t.filters b = .ok qs ∧ rs = ps ++ qs := by
  have hnothing : t.filters "" = .ok [] := by cases t <;> rfl
  by_cases hne : w = ""
  · rcases hends hne with e | e
    · rw [hne, e, String.append_empty, String.empty_append, hnothing]
      simp [eq_comm]
    · rw [hne, e, String.append_empty, String.append_empty, hnothing]
      simp [eq_comm]
  · exact Subject.filters_append_gap_ok_iff (fun e => hne (String.toList_eq_nil_iff.mp e)) hw a b t

theorem Subject.filters_among {t : Subject} {x a w w' b : String} {p : Predicate} (hx : t.filters x = .ok [p])
    (hw : IsGap w.toList) (hw' : IsGap w'.toList) (ha : w = "" → a = "") (hb : w' = "" → b = "")
    {rs : List Predicate} : t.filters (a ++ w ++ x ++ w' ++ b) = .ok rs ↔
      ∃ ps qs, t.filters a = .ok ps ∧ t.filters b = .ok qs ∧ rs = ps ++ p :: qs := by
  rw [filters_beside hw' fun e => Or.inr (hb e)]
  refine ⟨fun h => ?_, fun h => ?_⟩
  · obtain ⟨ps, qs, hps, hqs, e⟩ := h
    obtain ⟨ps', qs', hps', hqs', e'⟩ := (filters_beside hw fun e => Or.inl (ha e)).mp hps
    rw [hx, Except.ok.injEq] at hqs'
    exact ⟨ps', qs, hps', hqs, by rw [e, e', ← hqs', List.append_assoc, List.singleton_append]⟩
  · obtain ⟨ps, qs, hps, hqs, e⟩ := h
    refine ⟨ps ++ [p], qs, ?_, hqs, by rw [e, List.append_assoc, List.singleton_append]⟩
    exact (filters_beside hw fun e => Or.inl (ha e)).mpr ⟨ps, [p], hps, hx, rfl⟩

/-! ## Entries -/

def IsEntry (a : String) : Prop :=
  a ≠ "" ∧ lower a.toList = a.toList ∧ ∀ c ∈ a.toList, isBlank c = false ∧ c ∉ [',', '<', '>', '=', '!', '/']

/-- Each entry behind so many commas, and commas behind the last. -/
def entryText (items : List (Nat × String)) (last : Nat) : String :=
  String.ofList (commaLaid (items.map fun i => (i.1, i.2.toList)) last)

section
variable {items : List (Nat × String)} (h : ∀ i ∈ items, IsEntry i.2) (last : Nat)
include h

theorem mem_entryText {c : Char} (hc : c ∈ (entryText items last).toList) :
    IsSmall c ∧ isBlank c = false ∧ c ∉ ['<', '>', '=', '!', '/'] := by
  rw [entryText, String.toList_ofList] at hc
  rcases mem_commaLaid hc with e | ⟨j, hj, hc⟩
  · subst e
    exact ⟨isSmall_comma, by decide +kernel, by decide⟩
  · obtain ⟨i, hi, e⟩ := List.mem_map.mp hj
    subst e
    obtain ⟨_, hlower, hplain⟩ := h i hi
    obtain ⟨hblank, hsign⟩ := hplain c hc
    exact ⟨lower_eq_self_iff.mp hlower c hc, hblank, fun hmem => hsign (List.mem_cons_of_mem _ hmem)⟩

theorem lower_entryText : lower (entryText items last).toList = (entryText items last).toList :=
  lower_eq_self_iff.mpr fun _ hc => (mem_entryText h last hc).1

theorem filled_entryText (hbetween : ∀ i ∈ items.tail, i.1 ≠ 0) :
    (filled (entryText items last).toList).map String.ofList = items.map Prod.snd := by
  have hparts : ∀ j ∈ items.map (fun i => (i.1, i.2.toList)), IsPart j.2 := by
    intro j hj
    obtain ⟨i, hi, e⟩ := List.mem_map.mp hj
    subst e
    obtain ⟨hne, _, hplain⟩ := h i hi
    exact ⟨fun e => hne (String.toList_eq_nil_iff.mp e), fun hc => (hplain _ hc).2 List.mem_cons_self⟩
  have hgaps : ∀ j ∈ (items.map fun i => (i.1, i.2.toList)).tail, j.1 ≠ 0 := by
    intro j hj
    rw [← List.map_tail] at hj
    obtain ⟨i, hi, e⟩ := List.mem_map.mp hj
    exact e ▸ hbetween i hi
  rw [entryText, String.toList_ofList, filled_commaLaid last hparts hgaps, List.map_map, List.map_map]
  exact List.map_congr_left fun i _ => String.ofList_toList

theorem exists_not_comma_entryText (hne : items ≠ []) : ∃ c ∈ (entryText items last).toList, c ≠ ',' := by
  obtain ⟨i, rest, e⟩ := List.exists_cons_of_ne_nil hne
  subst e
  obtain ⟨hentry, _, hplain⟩ := h i List.mem_cons_self
  obtain ⟨c, hc⟩ := List.exists_mem_of_ne_nil i.2.toList fun e => hentry (String.toList_eq_nil_iff.mp e)
  refine ⟨c, ?_, fun e => (hplain c hc).2 (e ▸ List.mem_cons_self)⟩
  rw [entryText, String.toList_ofList, List.map_cons, commaLaid_cons]
  exact List.mem_append_right _ (List.mem_append_left _ hc)

end

/-- A value without blanks and operator characters lists its parts between commas that are not empty, in
lower case and in order; a value of commas only is refused, and so is a missing one. Entries in lower case
are read back from a row of them with commas, in which no two entries stand without a comma between them,
and the predicates of other clauses stay what they are. -/
theorem entry_lists_read_back (f : BeatmapsetField) :
    (∀ v : String, (∀ c ∈ v.toList, isBlank c = false ∧ c ∉ ['<', '>', '=', '!', '/']) →
      (v = "" → beatmapsetFilters (f.name ++ "/" ++ v) = .error (.malformed (f.name ++ "/") .missingValue)) ∧
      (v ≠ "" → (∀ c ∈ v.toList, c = ',') →
        beatmapsetFilters (f.name ++ "/" ++ v) = .error (.malformed (f.name ++ "/" ++ v) .emptyList)) ∧
      ((∃ c ∈ v.toList, c ≠ ',') → ∃ ps, (∀ qs, CommaCut (lower v.toList) qs ↔ qs = ps) ∧
        beatmapsetFilters (f.name ++ "/" ++ v) =
          .ok [.oneOf (.beatmapset f) ((ps.filter (· ≠ [])).map String.ofList)])) ∧
    ∀ (items : List (Nat × String)) (last : Nat), items ≠ [] → (∀ i ∈ items, IsEntry i.2) →
      (∀ i ∈ items.tail, i.1 ≠ 0) →
        beatmapsetFilters (f.name ++ "/" ++ entryText items last) =
          .ok [.oneOf (.beatmapset f) (items.map Prod.snd)] ∧
        ∀ a w w' b : String, IsGap w.toList → IsGap w'.toList → (w = "" → a = "") → (w' = "" → b = "") →
          ∀ rs, beatmapsetFilters (a ++ w ++ (f.name ++ "/" ++ entryText items last) ++ w' ++ b) = .ok rs ↔
            ∃ ps qs, beatmapsetFilters a = .ok ps ∧ beatmapsetFilters b = .ok qs ∧
              rs = ps ++ .oneOf (.beatmapset f) (items.map Prod.snd) :: qs := by
  have hterm : ∀ v : String, v.toList ≠ [] →
      (∀ c ∈ v.toList, isBlank c = false ∧ c ∉ ['<', '>', '=', '!', '/']) →
      Clause.IsTerm .beatmapset (lower v.toList) := fun v hne hplain => Clause.isTerm_lower hne fun c hc =>
    ⟨(hplain c hc).1, Entity.not_operatorChar_beatmapset.mpr (hplain c hc).2⟩
  refine ⟨fun v hplain => ⟨fun hv => ?_, fun hne hcommas => ?_, fun hentry => ?_⟩,
    fun items last hne h hbetween => ?_⟩
  · have hrefused : Clause.ofText .beatmapset (f.name ++ "/") =
        .error (.malformed (f.name ++ "/") .missingValue) :=
      Clause.ofText_no_value (o := .oneOf) f.isTerm_name rfl
    rw [hv, String.append_empty, beatmapsetFilters, readFilters, hrefused]
    rfl
  · have hv := hterm v (fun e => hne (String.toList_eq_nil_iff.mp e)) hplain
    have hlower := lower_commas hcommas
    have hrefused := beatmapsetFilters_of_commas (f := f) hv (by rwa [hlower])
    rwa [hlower, String.ofList_toList] at hrefused
  · have hv := hterm v (hentry.elim fun _ hc => List.ne_nil_of_mem hc.1) hplain
    refine ⟨commaPieces (lower v.toList), fun qs => ?_, ?_⟩
    · rw [← commaPieces_eq_iff]
      exact eq_comm
    · exact beatmapsetFilters_of_entry hv (exists_not_comma_lower hentry)
  · have hentry := exists_not_comma_entryText h last hne
    have hv := hterm (entryText items last) (hentry.elim fun _ hc => List.ne_nil_of_mem hc.1)
      fun c hc => (mem_entryText h last hc).2
    have hclause : beatmapsetFilters (f.name ++ "/" ++ entryText items last) =
        .ok [.oneOf (.beatmapset f) (items.map Prod.snd)] := by
      rw [beatmapsetFilters_of_entry hv (exists_not_comma_lower hentry), lower_entryText h,
        filled_entryText h last hbetween]
    exact ⟨hclause, fun a w w' b hw hw' ha hb rs =>
      Subject.filters_among (t := .beatmapsets) hclause hw hw' ha hb⟩

theorem entry_lists_read_back_repeated :
    beatmapsetFilters "tags/,,," = .error (.malformed "tags/,,," .emptyList) ∧
      beatmapsetFilters "artist/,aΣ,,B" = .ok [.oneOf (.beatmapset .artist) ["aς", "b"]] ∧
      beatmapsetFilters "nsfw=0\u3000tags/,ος,x,,ος, bpm>9" = .ok [.compare (.beatmapset .nsfw) .eq "0",
        .oneOf (.beatmapset .tags) ["ος", "x", "ος"], .compare (.beatmapset .bpm) .gt "9"] := by
  obtain ⟨htags, hitems⟩ := entry_lists_read_back .tags
  obtain ⟨hartist, _⟩ := entry_lists_read_back .artist
  refine ⟨?_, ?_, ?_⟩
  · have hplain : ∀ c ∈ ",,,".toList, isBlank c = false ∧ c ∉ ['<', '>', '=', '!', '/'] :=
      forall_of_all (by decide)
    exact (htags ",,," hplain).2.1 (by decide) (forall_of_all (by decide))
  · have hplain : ∀ c ∈ ",aΣ,,B".toList, isBlank c = false ∧ c ∉ ['<', '>', '=', '!', '/'] :=
      forall_of_all (by decide +kernel)
    obtain ⟨ps, hcut, hread⟩ := (hartist ",aΣ,,B" hplain).2.2 ⟨'a', by decide, by decide⟩
    have hparts : [[], "aς".toList, [], "b".toList] = ps :=
      (hcut _).mp (commaPieces_eq_iff.mp (by decide +kernel))
    have htext : "artist/,aΣ,,B" = BeatmapsetField.artist.name ++ "/" ++ ",aΣ,,B" := by decide +kernel
    rw [htext, hread, ← hparts]
    decide +kernel
  · have hentries : ∀ i ∈ [(1, "ος"), (1, "x"), (2, "ος")], IsEntry i.2 := by
      have hentry : IsEntry "ος" ∧ IsEntry "x" := by
        refine ⟨⟨by decide, by decide +kernel, forall_of_all (by decide +kernel)⟩, ?_⟩
        exact ⟨by decide, by decide +kernel, forall_of_all (by decide +kernel)⟩
      exact List.forall_mem_cons.mpr ⟨hentry.1, List.forall_mem_cons.mpr
        ⟨hentry.2, List.forall_mem_singleton.mpr hentry.1⟩⟩
    have hwide : IsGap "\u3000".toList := forall_of_all (by decide +kernel)
    have hspace : IsGap " ".toList := forall_of_all (by decide +kernel)
    have hamong := (hitems _ 1 (by decide) hentries (by decide)).2 "nsfw=0" "\u3000" " " "bpm>9" hwide hspace
      (fun e => absurd e (by decide)) (fun e => absurd e (by decide))
    exact (hamong _).mpr ⟨[.compare (.beatmapset .nsfw) .eq "0"], [.compare (.beatmapset .bpm) .gt "9"],
      by decide +kernel, by decide +kernel, rfl⟩

end RhythmFilter
