import RhythmFilter.Proofs.FirstRefusal
import RhythmFilter.Proofs.Text.SmallLetters
import RhythmFilter.Query.Request

/-!
# What filter texts are about

A filter text is about the scores of a mode, about beatmaps or about beatmap sets. Whichever it is, two
texts with blanks between them ask for what the first asks for and what the second asks for.
-/

namespace RhythmFilter

open Text

inductive Subject where
  | scores (mode : Mode)
  | beatmaps
  | beatmapsets
  deriving DecidableEq, Repr

namespace Subject

def entity : Subject → Entity
  | .scores _ => .score
  | .beatmaps => .beatmap
  | .beatmapsets => .beatmapset

def predicate : Subject → Clause → Except Refusal Predicate
  | .scores m => Clause.scorePredicate m
  | .beatmaps => Clause.beatmapPredicate
  | .beatmapsets => Clause.beatmapsetPredicate

def filters : Subject → String → Except Refusal (List Predicate)
  | .scores m => scoreFilters m
  | .beatmaps => beatmapFilters
  | .beatmapsets => beatmapsetFilters

theorem filters_eq (t : Subject) (s : String) :
    t.filters s = Clause.ofText t.entity s >>= fun cs => cs.mapM t.predicate := by
  cases t with
  | scores m => rfl
  | beatmaps => rfl
  | beatmapsets => rfl

theorem filters_ok_iff {t : Subject} {s : String} {ps : List Predicate} : t.filters s = .ok ps ↔
    ∃ cs, Clause.ofText t.entity s = .ok cs ∧ cs.mapM t.predicate = .ok ps := by
  rw [filters_eq, bind_ok_iff]

end Subject

/-! ## Blanks between two texts -/

section
variable {w : String} (hne : w.toList ≠ []) (hw : IsGap w.toList) (a b : String)
include hne hw

theorem lower_append_gap : lower (a ++ w ++ b).toList = lower a.toList ++ (w.toList ++ lower b.toList) := by
  rw [String.toList_append, String.toList_append, List.append_assoc]
  exact lower_append_gap_append hne hw _ _

theorem Clause.ofText_append_gap (e : Entity) : Clause.ofText e (a ++ w ++ b) = do
    let cs ← Clause.ofText e a
    let ds ← Clause.ofText e b
    return cs ++ ds := by
  unfold Clause.ofText
  rw [lower_append_gap hne hw, words_append_gap_append hne hw, List.mapM_append]

theorem Subject.filters_append_gap (t : Subject) : t.filters (a ++ w ++ b) = do
    let cs ← Clause.ofText t.entity a
    let ds ← Clause.ofText t.entity b
    let ps ← cs.mapM t.predicate
    let qs ← ds.mapM t.predicate
    return ps ++ qs := by
  rw [Subject.filters_eq, Clause.ofText_append_gap hne hw]
  simp only [bind_assoc, pure_bind, List.mapM_append]

theorem Subject.filters_append_gap_ok_iff (t : Subject) {rs : List Predicate} :
    t.filters (a ++ w ++ b) = .ok rs ↔
      ∃ ps qs, t.filters a = .ok ps ∧ t.filters b = .ok qs ∧ rs = ps ++ qs := by
  rw [Subject.filters_append_gap hne hw]
  simp only [bind_ok_iff, Subject.filters_ok_iff]
  refine ⟨fun h => ?_, fun h => ?_⟩
  · obtain ⟨cs, hcs, ds, hds, ps, hps, qs, hqs, h⟩ := h
    exact ⟨ps, qs, ⟨cs, hcs, hps⟩, ⟨ds, hds, hqs⟩, (Except.ok.inj h).symm⟩
  · obtain ⟨ps, qs, ⟨cs, hcs, hps⟩, ⟨ds, hds, hqs⟩, e⟩ := h
    exact ⟨cs, hcs, ds, hds, ps, hps, qs, hqs, by rw [e]; rfl⟩

theorem Subject.filters_append_gap_error_iff (t : Subject) {r : Refusal} :
    t.filters (a ++ w ++ b) = .error r ↔ Clause.ofText t.entity a = .error r ∨
      (∃ cs, Clause.ofText t.entity a = .ok cs) ∧ (Clause.ofText t.entity b = .error r ∨
        (∃ ds, Clause.ofText t.entity b = .ok ds) ∧ (t.filters a = .error r ∨
          (∃ ps, t.filters a = .ok ps) ∧ t.filters b = .error r)) := by
  rw [Subject.filters_append_gap hne hw, Subject.filters_eq, Subject.filters_eq]
  cases Clause.ofText t.entity a with
  | error e => simp [bind, Except.bind]
  | ok cs =>
    cases Clause.ofText t.entity b with
    | error e => simp [bind, Except.bind]
    | ok ds =>
      simp only [bind, Except.bind]
      cases cs.mapM t.predicate with
      | error e => simp
      | ok ps =>
        cases ds.mapM t.predicate with
        | error e => simp
        | ok qs => simp [pure, Except.pure]

end

/-- Blanks between two filter texts keep them apart: neither changes the other's lower case, their
clauses are read one after another, and so are their predicates. Of the two texts' refusals that of a
word comes before that of a clause, and then that of the first text before that of the second. -/
theorem filters_append_blanks {w : String} (hne : w ≠ "") (hw : ∀ c ∈ w.toList, isBlank c = true)
    (a b : String) :
    lower (a ++ w ++ b).toList = lower a.toList ++ (w.toList ++ lower b.toList) ∧
    (∀ e, Clause.ofText e (a ++ w ++ b) = do
      let cs ← Clause.ofText e a
      let ds ← Clause.ofText e b
      return cs ++ ds) ∧
    ∀ t : Subject,
      (∀ rs, t.filters (a ++ w ++ b) = .ok rs ↔
        ∃ ps qs, t.filters a = .ok ps ∧ t.filters b = .ok qs ∧ rs = ps ++ qs) ∧
      ∀ r, t.filters (a ++ w ++ b) = .error r ↔ Clause.ofText t.entity a = .error r ∨
        (∃ cs, Clause.ofText t.entity a = .ok cs) ∧ (Clause.ofText t.entity b = .error r ∨
          (∃ ds, Clause.ofText t.entity b = .ok ds) ∧ (t.filters a = .error r ∨
            (∃ ps, t.filters a = .ok ps) ∧ t.filters b = .error r)) := by
  have hne : w.toList ≠ [] := fun h => hne (String.toList_eq_nil_iff.mp h)
  refine ⟨lower_append_gap hne hw a b, Clause.ofText_append_gap hne hw a b,
    fun t => ⟨fun rs => ?_, fun r => ?_⟩⟩
  · exact Subject.filters_append_gap_ok_iff hne hw a b t
  · exact Subject.filters_append_gap_error_iff hne hw a b t

/-- The sigma before the blank ends its word, although a letter stands behind the blank. -/
theorem filters_append_sigma :
    (Subject.scores .osu).filters ("DATE>ΟΣ" ++ "\u3000" ++ "Rank/xh") =
      .ok [.compare (.score .osu .date) .gt "ος", .oneOf (.score .osu .rank) ["XH"]] := by
  have hw : ∀ c ∈ "\u3000".toList, isBlank c = true := forall_of_all (by decide +kernel)
  refine (((filters_append_blanks (by decide) hw "DATE>ΟΣ" "Rank/xh").2.2 (.scores .osu)).1 _).mpr ?_
  exact ⟨[.compare (.score .osu .date) .gt "ος"], [.oneOf (.score .osu .rank) ["XH"]],
    by decide +kernel, by decide +kernel, rfl⟩

end RhythmFilter
