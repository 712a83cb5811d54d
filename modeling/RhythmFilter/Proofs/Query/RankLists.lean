import RhythmFilter.Proofs.Query.Layout
import RhythmFilter.Proofs.Query.Offending

/-!
# Ranks in a value

`Rank.Reads` says which ranks are read from a text, and `Rank.scan` finds them. A filter for ranks asks
for those that are read from its value in capitals, each once.
-/

namespace RhythmFilter

open Text

/-! ## Each once, as they first stand -/

structure FirstsOf {α : Type} [BEq α] (xs ys : List α) : Prop where
  mem_iff : ∀ a, a ∈ xs ↔ a ∈ ys
  nodup : xs.Nodup
  ordered : xs.Pairwise fun a b => ys.idxOf a < ys.idxOf b

section
variable {α : Type} [BEq α] [LawfulBEq α]

theorem idxOf_lt_of_filter {p : α → Bool} {a b : α} (ha : p a = true) (hb : p b = true) {xs : List α}
    (h : (xs.filter p).idxOf a < (xs.filter p).idxOf b) : xs.idxOf a < xs.idxOf b := by
  induction xs with
  | nil => simp at h
  | cons x xs ih =>
    by_cases hx : p x = true
    · rw [List.filter_cons_of_pos hx] at h
      by_cases hxb : x = b
      · -- nothing stands before the first element
        rw [hxb, List.idxOf_cons_self] at h
        omega
      · by_cases hxa : x = a
        · rw [hxa, List.idxOf_cons_self, List.idxOf_cons_ne _ (hxa ▸ hxb)]
          omega
        · rw [List.idxOf_cons_ne _ hxa, List.idxOf_cons_ne _ hxb] at h ⊢
          have := ih (by omega)
          omega
    · have hxa : x ≠ a := fun e => hx (e ▸ ha)
      have hxb : x ≠ b := fun e => hx (e ▸ hb)
      rw [List.filter_cons_of_neg hx] at h
      rw [List.idxOf_cons_ne _ hxa, List.idxOf_cons_ne _ hxb]
      have := ih h
      omega

theorem ordered_eraseDups (ys : List α) : ys.eraseDups.Pairwise fun a b => ys.idxOf a < ys.idxOf b := by
  match ys with
  | [] => exact .nil
  | y :: ys =>
    have hne : ∀ a ∈ (ys.filter fun b => !b == y).eraseDups, y ≠ a ∧ (!a == y) = true := by
      intro a ha
      have := (List.mem_filter.mp (List.mem_eraseDups.mp ha)).2
      exact ⟨fun e => by simp [e] at this, this⟩
    rw [List.eraseDups_cons, List.pairwise_cons]
    refine ⟨fun a ha => ?_, ?_⟩
    · rw [List.idxOf_cons_self, List.idxOf_cons_ne _ (hne a ha).1]
      omega
    · refine (ordered_eraseDups (ys.filter fun b => !b == y)).imp_of_mem fun ha hb hlt => ?_
      rw [List.idxOf_cons_ne _ (hne _ ha).1, List.idxOf_cons_ne _ (hne _ hb).1]
      have := idxOf_lt_of_filter (p := fun b => !b == y) (hne _ ha).2 (hne _ hb).2 hlt
      omega
termination_by ys.length
decreasing_by
  have := List.length_filter_le (fun b => !b == y) ys
  simp only [List.length_cons]
  omega

theorem firstsOf_eraseDups (ys : List α) : FirstsOf ys.eraseDups ys :=
  ⟨fun _ => List.mem_eraseDups, nodup_eraseDups ys, ordered_eraseDups ys⟩

theorem FirstsOf.eq_eraseDups {xs ys : List α} (h : FirstsOf xs ys) : xs = ys.eraseDups := by
  have hperm : List.Perm xs ys.eraseDups :=
    (List.perm_ext_iff_of_nodup h.nodup (nodup_eraseDups ys)).mpr fun a => by rw [h.mem_iff, List.mem_eraseDups]
  refine hperm.eq_of_pairwise (fun a b _ _ hab hba => ?_) h.ordered (ordered_eraseDups ys)
  omega

end

namespace Rank

/-- The ranks that are read from a text from left to right: a code in front is read, as one letter only if it
fits what follows, and a character that begins no code is passed over. -/
inductive Reads : List Char → List Rank → Prop
  | nothing : Reads [] []
  | passed {c : Char} {text : List Char} {rs : List Rank} : c ∉ initials → Reads text rs → Reads (c :: text) rs
  | code {r : Rank} {text : List Char} {rs : List Rank} : r.Fits text → Reads text rs →
    Reads (r.code.toList ++ text) (r :: rs)

theorem scan_of_reads {text : List Char} {rs : List Rank} (h : Reads text rs) : scan text = rs := by
  induction h with
  | nothing => rfl
  | passed hc _ ih =>
    rw [scan, atFront?_eq_none_iff.mpr hc, ih]
    rfl
  | code hfit _ ih => rw [scan_code_append hfit, ih]

theorem exists_fits {first : Char} (h : first ∈ initials) (rest : List Char) :
    ∃ (r : Rank) (text : List Char), first :: rest = r.code.toList ++ text ∧ r.Fits text := by
  obtain ⟨r, hr⟩ := Option.ne_none_iff_exists'.mp (mt atFront?_eq_none_iff.mp (not_not.mpr h))
  have hprefix : r.code.toList <+: first :: rest := by simpa using List.find?_some hr
  obtain ⟨text, e⟩ := hprefix
  refine ⟨r, text, e.symm, fun hshort hhead => ?_⟩
  have hsilver : ∃ q : Rank, q ≠ r ∧ q.code.toList = r.code.toList ++ ['H'] ∧ ∀ rest, q.Fits rest := by
    rcases hshort with rfl | rfl
    · exact ⟨.silverX, by decide, by decide, by simp [Fits]⟩
    · exact ⟨.silverS, by decide, by decide, by simp [Fits]⟩
  obtain ⟨q, hne, hcode, hfit⟩ := hsilver
  obtain ⟨tail, htail⟩ := List.head?_eq_some_iff.mp hhead
  -- the longer code stands in front as well, and is found first
  have hfront : atFront? (q.code.toList ++ tail) = some q := atFront?_code (hfit tail)
  rw [hcode, List.append_assoc, List.singleton_append, ← htail, e, hr] at hfront
  exact hne (Option.some.inj hfront).symm

theorem reads_scan (text : List Char) : Reads text (scan text) := by
  match text with
  | [] => exact .nothing
  | first :: rest =>
    by_cases hfirst : first ∈ initials
    · obtain ⟨r, tail, e, hfit⟩ := exists_fits hfirst rest
      have hlen : tail.length < (first :: rest).length := by
        have := List.length_pos_iff.mpr r.code_tail.1
        rw [e, List.length_append]
        omega
      rw [e, scan_code_append hfit]
      exact .code hfit (reads_scan tail)
    · have hscan : scan (first :: rest) = scan rest := by
        rw [scan, atFront?_eq_none_iff.mpr hfirst]
        rfl
      rw [hscan]
      exact .passed hfirst (reads_scan rest)
termination_by text.length
decreasing_by
  · exact hlen
  · exact Nat.lt_succ_self _

theorem scan_eq_iff {text : List Char} {rs : List Rank} : scan text = rs ↔ Reads text rs :=
  ⟨fun h => h ▸ reads_scan text, scan_of_reads⟩

end Rank

/-! ## Filters for ranks -/

def rankClause (v : String) : Clause := ⟨"rank", .oneOf, String.ofList (lower v.toList)⟩

theorem ranks_rankClause (v : String) :
    (rankClause v).ranks = (Rank.scan (upper (lower v.toList))).eraseDups := by
  rw [Clause.ranks, rankClause, String.toList_ofList]

theorem names_rankClause (m : Mode) (v : String) : (Subject.scores m).Names (rankClause v) (.score m .rank) :=
  ⟨List.mem_map_of_mem (FieldList.mem_all ScoreField.rank), rfl⟩

section
variable {m : Mode} {v : String} (hv : Clause.IsTerm .score (lower v.toList))
include hv

theorem ofText_rank : Clause.ofText .score ("rank/" ++ v) = .ok [rankClause v] := by
  have hfield : Clause.IsTerm .score "rank".toList :=
    Clause.isTerm_iff.mpr ⟨by decide, forall_of_all (by decide +kernel), by decide +kernel⟩
  have hfront : "rank/" = "rank" ++ Operator.oneOf.symbol := by decide
  rw [hfront]
  exact Clause.ofText_field_value hfield rfl hv

theorem proper_rankClause (m : Mode) : (rankClause v).Proper (Subject.scores m).entity :=
  Clause.proper_of_ofText (ofText_rank hv) _ (List.mem_singleton_self _)

theorem scoreFilters_rank (m : Mode) :
    scoreFilters m ("rank/" ++ v) = [rankClause v].mapM (Subject.scores m).predicate :=
  Subject.filters_of_clauses (t := .scores m) (ofText_rank hv)

theorem scoreFilters_of_no_rank (h : ∀ c ∈ upper (lower v.toList), c ∉ Rank.initials) :
    scoreFilters m ("rank/" ++ v) =
    .error (.malformed ("rank/" ++ String.ofList (lower v.toList)) .noRank) := by
  have hfault : (Subject.scores m).ListFault (rankClause v) .noRank :=
    .noRank rfl (by rwa [rankClause, String.toList_ofList])
  have hrefused := Subject.predicate_of_listFault (proper_rankClause hv m) (names_rankClause m v) rfl hfault
  rw [scoreFilters_rank hv]
  exact mapM_error_iff.mpr ⟨[], _, [], rfl, by simp, hrefused⟩

theorem scoreFilters_of_rank (h : ∃ c ∈ upper (lower v.toList), c ∈ Rank.initials) :
    scoreFilters m ("rank/" ++ v) =
    .ok [.oneOf (.score m .rank) ((Rank.scan (upper (lower v.toList))).eraseDups.map Rank.code)] := by
  have hlists : (Subject.scores m).Lists (rankClause v) := ⟨rfl, by rwa [rankClause, String.toList_ofList]⟩
  have hname := names_rankClause m v
  obtain ⟨hcan, hne⟩ := Subject.list_of_lists (proper_rankClause hv m) hname rfl hlists
  have hpredicate := (Subject.predicate_ok_iff (proper_rankClause hv m).allowed).mpr
      (.list hname.1 hname.2 rfl hcan hne)
  rw [scoreFilters_rank hv, mapM_ok_iff, ← ranks_rankClause]
  exact .cons hpredicate .nil

end

/-- A value without blanks and operator characters lists the ranks that are read from it, in lower case
and then in capitals, from left to right, each once as it first stands there; a value in which no rank is
read is refused. So the codes of ranks are read back however often and in whichever letter case they are
written, with or without commas around them. -/
theorem rank_lists_read_through (m : Mode) :
    (∀ v : String, v ≠ "" → (∀ c ∈ v.toList, isBlank c = false ∧ Entity.score.isOperatorChar c = false) →
      ((∀ c ∈ upper (lower v.toList), c ∉ ['X', 'S', 'A', 'B', 'C', 'D']) → scoreFilters m ("rank/" ++ v) =
        .error (.malformed ("rank/" ++ String.ofList (lower v.toList)) .noRank)) ∧
      ((∃ c ∈ upper (lower v.toList), c ∈ ['X', 'S', 'A', 'B', 'C', 'D']) →
        ∃ rs xs, (∀ qs, Rank.Reads (upper (lower v.toList)) qs ↔ qs = rs) ∧ FirstsOf xs rs ∧ xs ≠ [] ∧
          scoreFilters m ("rank/" ++ v) = .ok [.oneOf (.score m .rank) (xs.map Rank.code)])) ∧
    ∀ (items : List (Nat × Rank)) (last : Nat) (v : String), items ≠ [] →
      latinUpper v.toList = Rank.layOut items last →
        scoreFilters m ("rank/" ++ v) =
          .ok [.oneOf (.score m .rank) ((items.map Prod.snd).eraseDups.map Rank.code)] := by
  refine ⟨fun v hne hplain => ?_, fun items last v hne hv => ?_⟩
  · have hterm : Clause.IsTerm .score (lower v.toList) :=
      Clause.isTerm_lower (fun e => hne (String.toList_eq_nil_iff.mp e)) hplain
    refine ⟨scoreFilters_of_no_rank hterm, fun h => ?_⟩
    refine ⟨_, _, fun qs => ?_, firstsOf_eraseDups _, ?_, scoreFilters_of_rank hterm h⟩
    · rw [← Rank.scan_eq_iff]
      exact eq_comm
    · rw [← ranks_rankClause, ne_eq, Clause.ranks_eq_nil_iff, rankClause, String.toList_ofList]
      obtain ⟨c, hc, hinitial⟩ := h
      exact fun hnone => hnone c hc hinitial
  · have hlower : lower v.toList = lower (Rank.layOut items last) := by rw [← hv, lower_latinUpper]
    have hletters : ∀ d ∈ Rank.layOut items last, d ∈ Rank.letters := fun d hd => Rank.mem_letters_of_layOut hd
    have hupper : upper (lower v.toList) = Rank.layOut items last := by rw [hlower, Rank.upper_lower hletters]
    have hterm : Clause.IsTerm .score (lower v.toList) := by
      rw [hlower]
      exact Clause.isTerm_lower (Rank.layOut_ne_nil hne last) fun d hd =>
        Rank.plain_letter (hletters d hd) .score
    have hrank : ∃ c ∈ upper (lower v.toList), c ∈ Rank.initials := by
      by_contra hnone
      have hscan : Rank.scan (upper (lower v.toList)) = [] :=
        Rank.scan_eq_nil_iff.mpr fun c hc hinitial => hnone ⟨c, hc, hinitial⟩
      rw [hupper, Rank.scan_layOut, List.map_eq_nil_iff] at hscan
      exact hne hscan
    rw [scoreFilters_of_rank hterm hrank, hupper, Rank.scan_layOut]

/-- In capitals `ß` is two letters, and the long `ſ` is an `S`: ranks are read from them as from any others. -/
theorem rank_lists_read_through_sharp :
    scoreFilters .taiko "rank/hï?E" = .error (.malformed "rank/hï?e" .noRank) ∧
      scoreFilters .taiko "rank/hßhxſH" = .ok [.oneOf (.score .taiko .rank) ["S", "SH", "X"]] ∧
      scoreFilters .taiko "rank/x,,sHX," = .ok [.oneOf (.score .taiko .rank) ["X", "SH"]] := by
  obtain ⟨hvalues, hcodes⟩ := rank_lists_read_through .taiko
  refine ⟨?_, ?_, ?_⟩
  · exact (hvalues "hï?E" (by decide) (forall_of_all (by decide +kernel))).1 (forall_of_all (by decide +kernel))
  · have hcapitals : upper (lower "hßhxſH".toList) = "HSSHXSH".toList := by decide +kernel
    have hreads : Rank.Reads "HSSHXSH".toList [.s, .silverS, .x, .silverS] :=
      Rank.scan_eq_iff.mp (by decide +kernel)
    obtain ⟨rs, xs, hread, hfirsts, _, hlisted⟩ :=
      (hvalues "hßhxſH" (by decide) (forall_of_all (by decide +kernel))).2 ⟨'S', by decide +kernel, by decide⟩
    rw [hcapitals] at hread
    rw [hfirsts.eq_eraseDups, ← (hread _).mp hreads] at hlisted
    exact hlisted
  · exact hcodes [(0, .x), (2, .silverS), (0, .x)] 1 "x,,sHX," (by decide) (by decide +kernel)

end RhythmFilter
