import RhythmFilter.Proofs.Query.ClauseText
import RhythmFilter.Proofs.Query.Lists
import RhythmFilter.Proofs.Query.Resolving

/-!
# Predicates written back

What a filter text asks for can be written as a filter text again: the name of the field, the symbol of
the operator, and the value, lists with commas. The codes of ranks are written in capitals, which lower
case takes back; everything else in a predicate is in lower case already.
-/

namespace RhythmFilter

open Text

def Operand.texts : Operand → List String
  | .single text => [text]
  | .list entries => entries

structure Predicate.Settled (t : Subject) (p : Predicate) : Prop where
  list_iff : (∃ entries, p.operand = .list entries) ↔ p.operator = .oneOf
  texts_nonempty : p.operand.texts ≠ [] ∧ ∀ a ∈ p.operand.texts, a ≠ ""
  plain : ∀ a ∈ p.operand.texts, ∀ c ∈ a.toList, isBlank c = false ∧ t.entity.isOperatorChar c = false
  no_comma : ∀ entries, p.operand = .list entries → ∀ a ∈ entries, ',' ∉ a.toList
  small : ∀ a ∈ p.operand.texts, lower a.toList = a.toList ∨
    (∃ m, p.handle = .score m .rank) ∧ p.operator = .oneOf ∧ ∃ r : Rank, a = r.code

/-- The clause as which the predicate is read back. -/
def Predicate.clause (p : Predicate) : Clause :=
  ⟨p.handle.fieldName, p.operator, String.ofList (lower p.operand.filterText.toList)⟩

theorem Operand.toList_filterText (o : Operand) :
    o.filterText.toList = [','].intercalate (o.texts.map String.toList) := by
  cases o with
  | single text => rw [filterText, texts, List.map_singleton, List.intercalate_singleton]
  | list entries =>
    rw [filterText, texts, String.toList_intercalate]
    rfl

theorem Rank.plain_code (r : Rank) : r.code ≠ "" ∧ ',' ∉ r.code.toList ∧
    ∀ d ∈ r.code.toList, isBlank d = false ∧ Entity.score.isOperatorChar d = false := by
  refine ⟨?_, ?_, forall_of_all ?_⟩
  all_goals cases r <;> decide +kernel

/-! ## Predicates of proper clauses -/

section
variable {t : Subject} {c : Clause} {p : Predicate} (hc : c.Proper t.entity)
include hc

theorem entry_of_listed {a : String} (h : a ∈ t.listed c) : a ≠ "" ∧ ',' ∉ a.toList ∧
    (∀ d ∈ a.toList, isBlank d = false ∧ t.entity.isOperatorChar d = false) ∧
    (lower a.toList = a.toList ∨ (∃ m, t = .scores m) ∧ ∃ r : Rank, a = r.code) := by
  cases t with
  | scores m =>
    obtain ⟨r, _, e⟩ := List.mem_map.mp h
    subst e
    obtain ⟨hne, hcomma, hplain⟩ := r.plain_code
    exact ⟨hne, hcomma, hplain, Or.inr ⟨⟨m, rfl⟩, r, rfl⟩⟩
  | beatmaps => cases h
  | beatmapsets =>
    obtain ⟨hne, hcomma, hvalue⟩ := Clause.entry_of_mem_entries h
    refine ⟨hne, hcomma, fun d hd => ⟨?_, ?_⟩, Or.inl (lower_eq_self_iff.mpr fun d hd => ?_)⟩
    · exact hc.value.no_blank d (hvalue d hd)
    · exact hc.value.plain d (hvalue d hd)
    · exact hc.value.small d (hvalue d hd)

theorem settled_of_resolves (h : t.Resolves c p) : p.Settled t := by
  cases h with
  | @compare h hh hname hop =>
    have hvalue : c.value ≠ "" := fun e => hc.value.nonempty (String.toList_eq_nil_iff.mpr e)
    have htexts : (Operand.single c.value).texts = [c.value] := rfl
    refine ⟨⟨fun ⟨_, e⟩ => (nomatch e), fun e => absurd e hop⟩, ?_, ?_, fun _ e => (nomatch e), ?_⟩
    · simpa [Predicate.compare, htexts] using hvalue
    · simp only [Predicate.compare, htexts, List.mem_singleton, forall_eq]
      exact fun d hd => ⟨hc.value.no_blank d hd, hc.value.plain d hd⟩
    · simp only [Predicate.compare, htexts, List.mem_singleton, forall_eq]
      exact Or.inl (lower_eq_self_iff.mpr hc.value.small)
  | @list h hh hname hop hcan hne =>
    refine ⟨⟨fun _ => rfl, fun _ => ⟨_, rfl⟩⟩, ⟨hne, ?_⟩, ?_, ?_, ?_⟩
    · exact fun a ha => (entry_of_listed hc ha).1
    · exact fun a ha => (entry_of_listed hc ha).2.2.1
    · intro entries e a ha
      obtain rfl : t.listed c = entries := Operand.list.inj e
      exact (entry_of_listed hc ha).2.1
    · intro a ha
      refine (entry_of_listed hc ha).2.2.2.imp_right fun hrank => ?_
      obtain ⟨⟨m, ht⟩, r, e⟩ := hrank
      subst ht
      exact ⟨⟨m, hcan⟩, rfl, r, e⟩

end

/-! ## The clause of a predicate -/

theorem lower_written {t : Subject} {p : Predicate}
    (hfield : Clause.IsTerm t.entity p.handle.fieldName.toList) :
    lower (p.handle.fieldName ++ p.operator.symbol ++ p.operand.filterText).toList = p.clause.text.toList := by
  rw [Clause.toList_text, Predicate.clause, String.toList_ofList, String.toList_append, String.toList_append,
    List.append_assoc, Clause.lower_append_symbol hfield.small]

section
variable {t : Subject} {p : Predicate} (hp : p.Settled t)
include hp

theorem plain_filterText : ∀ d ∈ p.operand.filterText.toList,
    isBlank d = false ∧ t.entity.isOperatorChar d = false := by
  intro d hd
  rw [Operand.toList_filterText] at hd
  rcases mem_intercalate hd with e | ⟨s, hs, hd⟩
  · rw [e]
    exact Rank.plain_letter (by decide) t.entity
  · obtain ⟨a, ha, e⟩ := List.mem_map.mp hs
    exact hp.plain a ha d (e ▸ hd)

theorem filterText_ne_nil : p.operand.filterText.toList ≠ [] := by
  obtain ⟨hne, htexts⟩ := hp.texts_nonempty
  obtain ⟨a, as, e⟩ := List.exists_cons_of_ne_nil hne
  rw [Operand.toList_filterText, e, List.map_cons]
  rw [e] at htexts
  exact intercalate_ne_nil (fun h => htexts a List.mem_cons_self (String.toList_eq_nil_iff.mp h)) _

theorem isTerm_lower_filterText : Clause.IsTerm t.entity (lower p.operand.filterText.toList) :=
  Clause.isTerm_lower (filterText_ne_nil hp) (plain_filterText hp)

theorem proper_clause (hfield : Clause.IsTerm t.entity p.handle.fieldName.toList)
    (hop : t.entity.allows p.operator = true) : p.clause.Proper t.entity := by
  refine ⟨hfield, ?_, hop⟩
  rw [Predicate.clause, String.toList_ofList]
  exact isTerm_lower_filterText hp

end

namespace Subject.Resolves
variable {t : Subject} {c : Clause} {p : Predicate}

theorem clause_eq (h : t.Resolves c p) : p.handle.fieldName = c.field ∧ p.operator = c.operator := by
  cases h with
  | compare _ hname _ => exact ⟨hname, rfl⟩
  | list _ hname hop _ _ => exact ⟨hname, hop.symm⟩

theorem listed_clause (hc : c.Proper t.entity) {h : Handle} :
    t.listed (Predicate.oneOf h (t.listed c)).clause = t.listed c := by
  cases t with
  | scores m =>
    have hvalue : (Predicate.oneOf h (c.ranks.map Rank.code)).clause.value.toList =
        lower ([','].intercalate (c.ranks.map fun r => r.code.toList)) := by
      rw [Predicate.clause, String.toList_ofList, Operand.toList_filterText, Predicate.oneOf,
        Operand.texts, List.map_map]
      rfl
    exact congrArg (List.map Rank.code) (Clause.ranks_of_codes c.nodup_ranks hvalue)
  | beatmaps => rfl
  | beatmapsets =>
    have hentry := fun a (ha : a ∈ c.entries) => Clause.entry_of_mem_entries ha
    have hsmall : ∀ d ∈ (",".intercalate c.entries).toList, IsSmall d := by
      intro d hd
      rw [String.toList_intercalate] at hd
      rcases mem_intercalate hd with e | ⟨s, hs, hd⟩
      · rw [e]
        decide +kernel
      · obtain ⟨a, ha, e⟩ := List.mem_map.mp hs
        exact hc.value.small d ((hentry a ha).2.2 d (e ▸ hd))
    refine Clause.entries_of_joined (fun a ha => ?_) ?_
    · obtain ⟨hne, hcomma, hvalue⟩ := hentry a ha
      exact ⟨hne, hcomma, fun d hd => hc.value.no_blank d (hvalue d hd)⟩
    · exact (congrArg String.ofList (lower_eq_self_iff.mpr hsmall)).trans (String.ofList_toList ..)

theorem of_clause (hc : c.Proper t.entity) (h : t.Resolves c p) : t.Resolves p.clause p := by
  cases h with
  | @compare h hh hname hop =>
    have hvalue : String.ofList (lower c.value.toList) = c.value := by
      rw [lower_eq_self_iff.mpr hc.value.small, String.ofList_toList]
    have hclause : (Predicate.compare h c.operator c.value).clause = c := by
      simp only [Predicate.clause, Predicate.compare, Operand.filterText, hname, hvalue]
    rw [hclause]
    exact .compare hh hname hop
  | @list h hh hname hop hcan hne =>
    have hlisted : t.listed (Predicate.oneOf h (t.listed c)).clause = t.listed c := listed_clause hc
    have hne' : t.listed (Predicate.oneOf h (t.listed c)).clause ≠ [] := by
      rw [hlisted]
      exact hne
    have hlist := Resolves.list (t := t) hh rfl rfl hcan hne'
    rwa [hlisted] at hlist

end Subject.Resolves

/-! ## Texts -/

theorem exists_clause_of_filters {t : Subject} {s : String} {ps : List Predicate} (h : t.filters s = .ok ps) :
    ∀ p ∈ ps, ∃ c, c.Proper t.entity ∧ t.Resolves c p := by
  obtain ⟨cs, hcs, hps⟩ := Subject.filters_ok_iff.mp h
  intro p hp
  obtain ⟨c, hc, hcp⟩ := exists_of_mem_mapM hps hp
  have hproper := Clause.proper_of_ofText hcs c hc
  exact ⟨c, hproper, (Subject.predicate_ok_iff hproper.allowed).mp hcp⟩

section
variable {t : Subject} {ps : List Predicate} (h : ∀ p ∈ ps, ∃ c, c.Proper t.entity ∧ t.Resolves c p)
include h

theorem lower_written_clause {p : Predicate} (hp : p ∈ ps) : p.clause.Proper t.entity ∧
    lower (p.handle.fieldName ++ p.operator.symbol ++ p.operand.filterText).toList = p.clause.text.toList := by
  obtain ⟨c, hc, hcp⟩ := h p hp
  obtain ⟨hname, hop⟩ := hcp.clause_eq
  have hsettled := settled_of_resolves hc hcp
  have hfield : Clause.IsTerm t.entity p.handle.fieldName.toList := hname ▸ hc.field
  exact ⟨proper_clause hsettled hfield (hop ▸ hc.allowed), lower_written hfield⟩

theorem words_lower_render :
    words (lower (Predicate.render ps).toList) = (ps.map Predicate.clause).map fun c => c.text.toList := by
  have hwords : ∀ w ∈ (ps.map Predicate.clause).map (fun c => c.text.toList), IsWord w := by
    intro w hw
    obtain ⟨c, hc, e⟩ := List.mem_map.mp hw
    obtain ⟨p, hp, e'⟩ := List.mem_map.mp hc
    subst e; subst e'
    exact (lower_written_clause h hp).1.isWord_text
  have hlower : (ps.map fun p =>
      lower (p.handle.fieldName ++ p.operator.symbol ++ p.operand.filterText).toList) =
      (ps.map Predicate.clause).map fun c => c.text.toList := by
    rw [List.map_map]
    exact List.map_congr_left fun p hp => (lower_written_clause h hp).2
  rw [Predicate.render, toList_joined, lower_intercalate, List.map_map, List.map_map]
  refine (congrArg words (congrArg _ hlower)).trans (words_intercalate hwords)

theorem filters_render : t.filters (Predicate.render ps) = .ok ps := by
  rw [Subject.filters_ok_iff]
  refine ⟨ps.map Predicate.clause, Clause.ofText_of_words (fun c hc => ?_) (words_lower_render h), ?_⟩
  · obtain ⟨p, hp, e⟩ := List.mem_map.mp hc
    subst e
    exact (lower_written_clause h hp).1
  · rw [mapM_ok_iff, List.forall₂_map_left_iff, List.forall₂_same]
    intro p hp
    obtain ⟨c, hc, hcp⟩ := h p hp
    exact (Subject.predicate_ok_iff (lower_written_clause h hp).1.allowed).mpr (hcp.of_clause hc)

end

/-- What a filter text asks for is settled, and written as a filter text it is read back. -/
theorem filters_read_back {t : Subject} {s : String} {ps : List Predicate} (h : t.filters s = .ok ps) :
    (∀ p ∈ ps, p.Settled t) ∧ t.filters (Predicate.render ps) = .ok ps := by
  have hclauses := exists_clause_of_filters h
  refine ⟨fun p hp => ?_, filters_render hclauses⟩
  obtain ⟨c, hc, hcp⟩ := hclauses p hp
  exact settled_of_resolves hc hcp

/-- The codes of ranks are written in capitals, each once, and lower case does not lose them. -/
theorem filters_read_back_ranks :
    (Subject.scores .mania).filters " Rank/sXhs  DATE>=ΟΣ" =
        .ok [.oneOf (.score .mania .rank) ["S", "XH"], .compare (.score .mania .date) .ge "ος"] ∧
      Predicate.render [.oneOf (.score .mania .rank) ["S", "XH"], .compare (.score .mania .date) .ge "ος"] =
        "rank/S,XH date>=ος" ∧
      (Subject.scores .mania).filters "rank/S,XH date>=ος" =
        .ok [.oneOf (.score .mania .rank) ["S", "XH"], .compare (.score .mania .date) .ge "ος"] := by
  have hs : (Subject.scores .mania).filters " Rank/sXhs  DATE>=ΟΣ" =
      .ok [.oneOf (.score .mania .rank) ["S", "XH"], .compare (.score .mania .date) .ge "ος"] := by
    decide +kernel
  have hrender : Predicate.render [.oneOf (.score .mania .rank) ["S", "XH"],
      .compare (.score .mania .date) .ge "ος"] = "rank/S,XH date>=ος" := by decide +kernel
  refine ⟨hs, hrender, ?_⟩
  rw [← hrender]
  exact (filters_read_back hs).2

end RhythmFilter
