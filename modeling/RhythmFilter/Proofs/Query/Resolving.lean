import Mathlib.Data.List.Nodup
import RhythmFilter.Proofs.Query.Subject

/-!
# The predicates of clauses

`Resolves t c p` says that a clause of a text about `t` asks for the predicate `p`: the column of the
field that the clause names is compared with its value, or with what its value lists if it has the
operator for lists.
-/

namespace RhythmFilter

namespace FieldList
variable {F : Type} [FieldList F] {f g : F} {s : String}

theorem name_injective (h : FieldList.name f = FieldList.name g) : f = g :=
  List.inj_on_of_nodup_map nodup_names (mem_all f) (mem_all g) h

theorem column_injective (h : column f = column g) : f = g :=
  List.inj_on_of_nodup_map nodup_columns (mem_all f) (mem_all g) h

theorem find_ok_iff : find s = .ok f ↔ FieldList.name f = s := by
  unfold find
  constructor
  · intro h
    split at h
    · rename_i g hg
      rw [← Except.ok.inj h]
      simpa using List.find?_some hg
    · cases h
  · intro h
    split
    · rename_i g hg
      have hname : FieldList.name g = s := by simpa using List.find?_some hg
      rw [name_injective (hname.trans h.symm)]
    · rename_i hnone
      have hne : FieldList.name f ≠ s := by simpa using List.find?_eq_none.mp hnone f (mem_all f)
      exact absurd h hne

theorem find_of_unknown (h : ∀ f : F, FieldList.name f ≠ s) :
    find (F := F) s = .error (.unknownField (entity F) s) := by
  unfold find
  split
  · rename_i f hf
    have hname : FieldList.name f = s := by simpa using List.find?_some hf
    exact absurd hname (h f)
  · rfl

end FieldList

namespace Subject

def handles : Subject → List Handle
  | .scores m => ScoreField.all.map (.score m)
  | .beatmaps => BeatmapField.all.map .beatmap
  | .beatmapsets => BeatmapsetField.all.map .beatmapset

/-- The field can be compared with a list. -/
def CanList : Subject → Handle → Prop
  | .scores m, h => h = .score m .rank
  | .beatmaps, _ => False
  | .beatmapsets, _ => True

def listed : Subject → Clause → List String
  | .scores _, c => c.ranks.map Rank.code
  | .beatmaps, _ => []
  | .beatmapsets, c => c.entries

inductive Resolves (t : Subject) (c : Clause) : Predicate → Prop
  | compare {h : Handle} : h ∈ t.handles → h.fieldName = c.field → c.operator ≠ .oneOf →
    Resolves t c (.compare h c.operator c.value)
  | list {h : Handle} : h ∈ t.handles → h.fieldName = c.field → c.operator = .oneOf → t.CanList h →
    t.listed c ≠ [] → Resolves t c (.oneOf h (t.listed c))

section
variable {c : Clause} {p : Predicate}

theorem scorePredicate_of_resolves {m : Mode} (h : Resolves (.scores m) c p) :
    Clause.scorePredicate m c = .ok p := by
  cases h with
  | compare hh hname hop =>
    obtain ⟨f, _, rfl⟩ := List.mem_map.mp hh
    have hfind : FieldList.find c.field = .ok f := FieldList.find_ok_iff.mpr hname
    simp [Clause.scorePredicate, hfind, hop, bind, Except.bind]
  | list hh hname hop hcan hne =>
    subst hcan
    have hfind : FieldList.find c.field = .ok ScoreField.rank := FieldList.find_ok_iff.mpr hname
    have hranks : c.ranks ≠ [] := fun e => hne (by rw [listed, e, List.map_nil])
    simp [Clause.scorePredicate, hfind, hop, hranks, listed, bind, Except.bind]

theorem resolves_of_scorePredicate {m : Mode} (h : Clause.scorePredicate m c = .ok p) :
    Resolves (.scores m) c p := by
  unfold Clause.scorePredicate at h
  obtain ⟨f, hf, h⟩ := bind_ok_iff.mp h
  have hh : Handle.score m f ∈ handles (.scores m) := List.mem_map_of_mem (FieldList.mem_all f)
  have hname : (Handle.score m f).fieldName = c.field := FieldList.find_ok_iff.mp hf
  split at h
  · rename_i hop
    exact Except.ok.inj h ▸ .compare hh hname hop
  · rename_i hop
    split at h
    · cases h
    · rename_i hrank
      split at h
      · cases h
      · rename_i hne
        have hop : c.operator = .oneOf := by simpa using hop
        have hrank : f = .rank := by simpa using hrank
        subst hrank
        exact Except.ok.inj h ▸ .list hh hname hop rfl (by simpa [listed] using hne)

theorem beatmapPredicate_of_resolves (h : Resolves .beatmaps c p) : Clause.beatmapPredicate c = .ok p := by
  cases h with
  | compare hh hname hop =>
    obtain ⟨f, _, rfl⟩ := List.mem_map.mp hh
    have hfind : FieldList.find c.field = .ok f := FieldList.find_ok_iff.mpr hname
    simp [Clause.beatmapPredicate, hfind, bind, Except.bind, pure, Except.pure]
  | list hh hname hop hcan hne => exact absurd hcan id

theorem resolves_of_beatmapPredicate (hop : c.operator ≠ .oneOf) (h : Clause.beatmapPredicate c = .ok p) :
    Resolves .beatmaps c p := by
  unfold Clause.beatmapPredicate at h
  obtain ⟨f, hf, h⟩ := bind_ok_iff.mp h
  have hh : Handle.beatmap f ∈ handles .beatmaps := List.mem_map_of_mem (FieldList.mem_all f)
  exact Except.ok.inj h ▸ .compare hh (FieldList.find_ok_iff.mp hf) hop

theorem beatmapsetPredicate_of_resolves (h : Resolves .beatmapsets c p) :
    Clause.beatmapsetPredicate c = .ok p := by
  cases h with
  | compare hh hname hop =>
    obtain ⟨f, _, rfl⟩ := List.mem_map.mp hh
    have hfind : FieldList.find c.field = .ok f := FieldList.find_ok_iff.mpr hname
    simp [Clause.beatmapsetPredicate, hfind, hop, bind, Except.bind]
  | list hh hname hop hcan hne =>
    obtain ⟨f, _, rfl⟩ := List.mem_map.mp hh
    have hfind : FieldList.find c.field = .ok f := FieldList.find_ok_iff.mpr hname
    have hentries : c.entries ≠ [] := hne
    simp [Clause.beatmapsetPredicate, hfind, hop, hentries, listed, bind, Except.bind]

theorem resolves_of_beatmapsetPredicate (h : Clause.beatmapsetPredicate c = .ok p) :
    Resolves .beatmapsets c p := by
  unfold Clause.beatmapsetPredicate at h
  obtain ⟨f, hf, h⟩ := bind_ok_iff.mp h
  have hh : Handle.beatmapset f ∈ handles .beatmapsets := List.mem_map_of_mem (FieldList.mem_all f)
  have hname : (Handle.beatmapset f).fieldName = c.field := FieldList.find_ok_iff.mp hf
  split at h
  · rename_i hop
    exact Except.ok.inj h ▸ .compare hh hname hop
  · rename_i hop
    split at h
    · cases h
    · rename_i hne
      have hop : c.operator = .oneOf := by simpa using hop
      exact Except.ok.inj h ▸ .list hh hname hop trivial hne

end

theorem predicate_ok_iff {t : Subject} {c : Clause} {p : Predicate} (h : t.entity.allows c.operator = true) :
    t.predicate c = .ok p ↔ t.Resolves c p := by
  cases t with
  | scores m => exact ⟨resolves_of_scorePredicate, scorePredicate_of_resolves⟩
  | beatmaps =>
    have hop : c.operator ≠ .oneOf := by simpa [entity, Entity.allows, Entity.hasLists] using h
    exact ⟨resolves_of_beatmapPredicate hop, beatmapPredicate_of_resolves⟩
  | beatmapsets => exact ⟨resolves_of_beatmapsetPredicate, beatmapsetPredicate_of_resolves⟩

end Subject

end RhythmFilter
