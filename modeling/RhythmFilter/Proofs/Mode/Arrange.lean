import Mathlib.Data.List.Basic
import RhythmFilter.Mode.Order

/-!
# Arranged acronyms

`arrange` rearranges known acronyms so that their places in the mode's order never decrease. A list
has only one such rearrangement, so two lists arrange to the same one just when they rearrange each
other.
-/

namespace RhythmFilter.Mode

def InOrder (m : Mode) (acronyms : List String) : Prop :=
  acronyms.Pairwise fun a b => m.order.idxOf a ≤ m.order.idxOf b

def FirstUnknown (m : Mode) (acronyms : List String) (a : String) : Prop :=
  ∃ before after, acronyms = before ++ a :: after ∧ (∀ b ∈ before, b ∈ m.order) ∧ a ∉ m.order

theorem not_knows_iff {m : Mode} {a : String} : (!m.knows a) = true ↔ a ∉ m.order := by
  simp [knows]

theorem find_unknown_none {m : Mode} {xs : List String} :
    (xs.find? fun a => !m.knows a) = none ↔ ∀ a ∈ xs, a ∈ m.order := by
  simp [List.find?_eq_none, knows]

theorem find_unknown_some {m : Mode} {xs : List String} {a : String} :
    (xs.find? fun a => !m.knows a) = some a ↔ m.FirstUnknown xs a := by
  rw [List.find?_eq_some_iff_append, not_knows_iff]
  have hb : ∀ b, (!!m.knows b) = true ↔ b ∈ m.order := by simp [knows]
  simp only [hb]
  refine ⟨fun h => ?_, fun h => ?_⟩
  · obtain ⟨ha, before, after, hxs, hbefore⟩ := h
    exact ⟨before, after, hxs, hbefore, ha⟩
  · obtain ⟨before, after, hxs, hbefore, ha⟩ := h
    exact ⟨ha, before, after, hxs, hbefore⟩

theorem exists_firstUnknown {m : Mode} {xs : List String} (h : ¬ ∀ a ∈ xs, a ∈ m.order) :
    ∃ a, m.FirstUnknown xs a := by
  cases hf : xs.find? fun a => !m.knows a with
  | none => exact absurd (find_unknown_none.mp hf) h
  | some a => exact ⟨a, find_unknown_some.mp hf⟩

theorem arrange_error_iff {m : Mode} {xs : List String} {e : Refusal} :
    m.arrange xs = .error e ↔ ∃ a, m.FirstUnknown xs a ∧ e = .unknownAcronym m a := by
  simp only [← find_unknown_some]
  unfold arrange
  cases xs.find? fun a => !m.knows a with
  | none => simp
  | some a => simp [eq_comm]

/-! ## The counting pass -/

theorem count_gathered (xs : List String) (b : String) : ∀ {ord : List String}, ord.Nodup →
    (ord.flatMap fun a => xs.filter (· = a)).count b = if b ∈ ord then xs.count b else 0
  | [], _ => by simp
  | a :: ord, h => by
    obtain ⟨ha, hord⟩ := List.nodup_cons.mp h
    rw [List.flatMap_cons, List.count_append, count_gathered xs b hord]
    by_cases hb : b = a
    · subst hb
      simp [ha, List.count_filter]
    · have : (xs.filter (· = a)).count b = 0 := List.count_eq_zero.mpr (by simp [hb])
      simp [this, hb]

theorem gathered_perm {m : Mode} {xs : List String} (h : ∀ a ∈ xs, a ∈ m.order) :
    (m.order.flatMap fun a => xs.filter (· = a)).Perm xs := by
  rw [List.perm_iff_count]
  intro b
  rw [count_gathered xs b m.order_nodup]
  by_cases hb : b ∈ m.order
  · simp [hb]
  · have : xs.count b = 0 := List.count_eq_zero.mpr fun hx => hb (h b hx)
    simp [hb, this]

theorem idxOf_pairwise {l : List String} (h : l.Nodup) : l.Pairwise fun a b => l.idxOf a ≤ l.idxOf b := by
  rw [List.pairwise_iff_getElem]
  intro i j hi hj hij
  rw [h.idxOf_getElem i hi, h.idxOf_getElem j hj]
  omega

theorem gathered_inOrder (m : Mode) (xs : List String) :
    m.InOrder (m.order.flatMap fun a => xs.filter (· = a)) := by
  have hmem : ∀ a x, x ∈ xs.filter (· = a) → x = a := fun a x hx => by simpa using (List.mem_filter.mp hx).2
  refine List.pairwise_flatMap.mpr ⟨fun a _ => ?_, ?_⟩
  · apply List.pairwise_of_forall_mem_list
    intro x hx y hy
    apply Nat.le_of_eq
    rw [hmem a x hx, hmem a y hy]
  · apply (idxOf_pairwise m.order_nodup).imp
    intro a b hab x hx y hy
    rw [hmem a x hx, hmem b y hy]
    exact hab

/-! ## The only arrangement -/

theorem eq_of_inOrder {m : Mode} {xs ys : List String} (hp : xs.Perm ys) (hknown : ∀ a ∈ xs, a ∈ m.order)
    (hx : m.InOrder xs) (hy : m.InOrder ys) : xs = ys := by
  refine List.Perm.eq_of_pairwise ?_ hx hy hp
  intro a b ha _ hab hba
  exact (List.idxOf_inj (hknown a ha)).mp (Nat.le_antisymm hab hba)

theorem arrange_of_known {m : Mode} {xs : List String} (h : ∀ a ∈ xs, a ∈ m.order) :
    m.arrange xs = .ok (m.order.flatMap fun a => xs.filter (· = a)) := by
  unfold arrange
  rw [find_unknown_none.mpr h]

theorem known_of_arrange {m : Mode} {xs ys : List String} (h : m.arrange xs = .ok ys) :
    ∀ a ∈ xs, a ∈ m.order := by
  rw [← find_unknown_none]
  unfold arrange at h
  cases hf : xs.find? fun a => !m.knows a with
  | none => rfl
  | some a =>
    rw [hf] at h
    cases h

theorem arrange_ok_iff {m : Mode} {xs ys : List String} :
    m.arrange xs = .ok ys ↔ (∀ a ∈ xs, a ∈ m.order) ∧ ys.Perm xs ∧ m.InOrder ys := by
  refine ⟨fun h => ?_, fun h => ?_⟩
  · have hk := known_of_arrange h
    rw [arrange_of_known hk] at h
    obtain rfl := Except.ok.inj h
    exact ⟨hk, gathered_perm hk, gathered_inOrder m xs⟩
  · obtain ⟨hk, hp, ho⟩ := h
    rw [arrange_of_known hk]
    refine congrArg Except.ok (eq_of_inOrder ((gathered_perm hk).trans hp.symm) ?_ (gathered_inOrder m xs) ho)
    exact fun a ha => hk a ((gathered_perm hk).subset ha)

theorem arranged_known {m : Mode} {xs ys : List String} (h : m.arrange xs = .ok ys) :
    ∀ a ∈ ys, a ∈ m.order := by
  obtain ⟨hk, hp, _⟩ := arrange_ok_iff.mp h
  exact fun a ha => hk a (hp.subset ha)

theorem arrange_eq_iff {m : Mode} {xs ys xs' ys' : List String} (hx : m.arrange xs = .ok xs')
    (hy : m.arrange ys = .ok ys') : xs' = ys' ↔ xs.Perm ys := by
  obtain ⟨_, hpx, hox⟩ := arrange_ok_iff.mp hx
  obtain ⟨_, hpy, hoy⟩ := arrange_ok_iff.mp hy
  refine ⟨fun h => ?_, fun h => ?_⟩
  · subst h
    exact hpx.symm.trans hpy
  · exact eq_of_inOrder (hpx.trans (h.trans hpy.symm)) (arranged_known hx) hox hoy

end RhythmFilter.Mode
