import RhythmFilter.Proofs.FirstRefusal
import RhythmFilter.Proofs.Mode.Arrange

/-!
# Positions

An acronym that a mode knows stands at one position of the mode's order, and no other stands there. Acronyms
ascend when each has a position and the positions never decrease; known acronyms have one ascending
arrangement.
-/

namespace RhythmFilter.Mode

theorem position_eq (m : Mode) (a : String) :
    m.position a = if a ∈ m.order then .ok (m.order.idxOf a) else .error (.unknownAcronym m a) := by
  rw [position, List.idxOf_eq_getD_idxOf?]
  cases h : m.order.idxOf? a with
  | none => rw [if_neg (List.idxOf?_eq_none_iff.mp h)]
  | some i =>
    have ha : a ∈ m.order := List.isSome_idxOf?.mp (by rw [h]; rfl)
    rw [if_pos ha]
    rfl

theorem position_ok_iff {m : Mode} {a : String} {i : Nat} :
    m.position a = .ok i ↔ a ∈ m.order ∧ m.order.idxOf a = i := by
  rw [position_eq]
  by_cases h : a ∈ m.order
  · simp [h]
  · simp [h]

/-- Every acronym has a position, and the positions never decrease. -/
def Ascending (m : Mode) (acronyms : List String) : Prop :=
  ∃ places, acronyms.mapM m.position = .ok places ∧ places.Pairwise (· ≤ ·)

theorem positions_ok_iff {m : Mode} {xs : List String} {places : List Nat} :
    xs.mapM m.position = .ok places ↔ (∀ a ∈ xs, a ∈ m.order) ∧ xs.map (m.order.idxOf ·) = places := by
  rw [mapM_ok_iff]
  simp only [position_ok_iff]
  rw [List.forall₂_and_left, ← List.forall₂_map_left_iff, List.forall₂_eq_eq_eq]

theorem ascending_iff {m : Mode} {xs : List String} :
    m.Ascending xs ↔ (∀ a ∈ xs, a ∈ m.order) ∧ m.InOrder xs := by
  unfold Ascending
  simp only [positions_ok_iff]
  refine ⟨fun h => ?_, fun h => ?_⟩
  · obtain ⟨places, ⟨hknown, hplaces⟩, hp⟩ := h
    rw [← hplaces, List.pairwise_map] at hp
    exact ⟨hknown, hp⟩
  · obtain ⟨hknown, ho⟩ := h
    exact ⟨_, ⟨hknown, rfl⟩, List.pairwise_map.mpr ho⟩

theorem arrange_ok_iff_ascending {m : Mode} {xs ys : List String} :
    m.arrange xs = .ok ys ↔ ys.Perm xs ∧ m.Ascending ys := by
  rw [arrange_ok_iff, ascending_iff]
  refine ⟨fun h => ?_, fun h => ?_⟩
  · obtain ⟨hknown, hp, ho⟩ := h
    exact ⟨hp, fun a ha => hknown a (hp.subset ha), ho⟩
  · obtain ⟨hp, hknown, ho⟩ := h
    exact ⟨fun a ha => hknown a (hp.symm.subset ha), hp, ho⟩

theorem arrange_isOk_iff {m : Mode} {xs : List String} :
    (∃ ys, m.arrange xs = .ok ys) ↔ ∀ a ∈ xs, a ∈ m.order :=
  ⟨fun ⟨_, h⟩ => known_of_arrange h, fun h => ⟨_, arrange_of_known h⟩⟩

theorem ascending_of_arrange {m : Mode} {xs ys : List String} (h : m.arrange xs = .ok ys) : m.Ascending ys :=
  (arrange_ok_iff_ascending.mp h).2

theorem arrange_of_ascending {m : Mode} {xs : List String} (h : m.Ascending xs) : m.arrange xs = .ok xs :=
  arrange_ok_iff_ascending.mpr ⟨.refl xs, h⟩

/-- The refusal names the first unknown acronym and the mode; an arrangement is the only ascending list with the
same acronyms, and it is the same for every list that has them. -/
theorem arranged_canonically (m : Mode) (xs : List String) :
    ((∃ ys, m.arrange xs = .ok ys) ↔ ∀ a ∈ xs, a ∈ m.order) ∧
    (∀ e, m.arrange xs = .error e ↔ ∃ a, m.FirstUnknown xs a ∧ e = .unknownAcronym m a ∧
      e.message = "Unknown mod acronym '" ++ a ++ "' for mode " ++ m.name) ∧
    (∀ ys, m.arrange xs = .ok ys →
      ys.Perm xs ∧ m.Ascending ys ∧ (∀ zs, zs.Perm xs → m.Ascending zs → zs = ys) ∧ m.arrange ys = .ok ys) ∧
    ∀ us ys vs, m.arrange xs = .ok ys → m.arrange us = .ok vs → (ys = vs ↔ xs.Perm us) := by
  refine ⟨arrange_isOk_iff, fun e => ?_, fun ys h => ?_, fun us ys vs => arrange_eq_iff⟩
  · rw [arrange_error_iff]
    refine exists_congr fun a => and_congr_right fun _ => ⟨fun he => ⟨he, ?_⟩, And.left⟩
    rw [he]
    rfl
  · obtain ⟨hp, hasc⟩ := arrange_ok_iff_ascending.mp h
    refine ⟨hp, hasc, fun zs hz hzasc => ?_, arrange_of_ascending hasc⟩
    have : m.arrange xs = .ok zs := arrange_ok_iff_ascending.mpr ⟨hz, hzasc⟩
    exact Except.ok.inj (this.symm.trans h)

end RhythmFilter.Mode
