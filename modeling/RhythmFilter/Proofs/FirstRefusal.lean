import Mathlib.Data.List.Forall2

/-!
# The first refusal

Attempts made one after another succeed together, or give the refusal of the first one that fails.
-/

namespace RhythmFilter

theorem bind_ok_iff {ε α β : Type} {x : Except ε α} {f : α → Except ε β} {b : β} :
    x >>= f = .ok b ↔ ∃ a, x = .ok a ∧ f a = .ok b := by
  cases x with
  | error e => simp [bind, Except.bind]
  | ok a => simp [bind, Except.bind]

theorem bind_error_iff {ε α β : Type} {x : Except ε α} {f : α → Except ε β} {e : ε} :
    x >>= f = .error e ↔ x = .error e ∨ ∃ a, x = .ok a ∧ f a = .error e := by
  cases x with
  | error e => simp [bind, Except.bind]
  | ok a => simp [bind, Except.bind]

theorem map_ok_iff {ε α β : Type} {x : Except ε α} {f : α → β} {b : β} :
    x.map f = .ok b ↔ ∃ a, x = .ok a ∧ f a = b := by
  cases x with
  | error e => simp [Except.map]
  | ok a => simp [Except.map]

section
variable {ε α β : Type} {f : α → Except ε β}

theorem mapM_ok_iff : ∀ {xs : List α} {ys : List β},
    xs.mapM f = .ok ys ↔ List.Forall₂ (fun x y => f x = .ok y) xs ys
  | [], ys => by
    simp only [List.mapM_nil, pure, Except.pure, Except.ok.injEq, List.forall₂_nil_left_iff]
    exact eq_comm
  | x :: xs, ys => by
    rw [List.mapM_cons, bind_ok_iff, List.forall₂_cons_left_iff]
    refine ⟨fun h => ?_, fun h => ?_⟩
    · obtain ⟨y, hy, h⟩ := h
      obtain ⟨ys', hys, h⟩ := bind_ok_iff.mp h
      exact ⟨y, ys', hy, mapM_ok_iff.mp hys, (Except.ok.inj h).symm⟩
    · obtain ⟨y, ys', hy, hys, e⟩ := h
      subst e
      exact ⟨y, hy, bind_ok_iff.mpr ⟨ys', mapM_ok_iff.mpr hys, rfl⟩⟩

theorem mapM_isOk_iff : ∀ {xs : List α}, (∃ ys, xs.mapM f = .ok ys) ↔ ∀ x ∈ xs, ∃ y, f x = .ok y
  | [] => by simp [pure, Except.pure]
  | x :: xs => by
    rw [List.forall_mem_cons, ← mapM_isOk_iff]
    simp only [mapM_ok_iff, List.forall₂_cons_left_iff]
    refine ⟨fun h => ?_, fun h => ?_⟩
    · obtain ⟨_, y, ys, hy, hys, _⟩ := h
      exact ⟨⟨y, hy⟩, ys, hys⟩
    · obtain ⟨⟨y, hy⟩, ys, hys⟩ := h
      exact ⟨y :: ys, y, ys, hy, hys, rfl⟩

theorem exists_of_mem_mapM {xs : List α} {ys : List β} (h : xs.mapM f = .ok ys) {y : β} (hy : y ∈ ys) :
    ∃ x ∈ xs, f x = .ok y := by
  induction mapM_ok_iff.mp h with
  | nil => cases hy
  | @cons x z xs ys hz hrest ih =>
    rcases List.mem_cons.mp hy with e | hy
    · exact ⟨x, List.mem_cons_self, e ▸ hz⟩
    · obtain ⟨v, hv, hvy⟩ := ih (mapM_ok_iff.mpr hrest) hy
      exact ⟨v, List.mem_cons_of_mem _ hv, hvy⟩

theorem mapM_error_iff {e : ε} : ∀ {xs : List α}, xs.mapM f = .error e ↔
    ∃ before x after, xs = before ++ x :: after ∧ (∀ y ∈ before, ∃ v, f y = .ok v) ∧ f x = .error e
  | [] => by simp [pure, Except.pure]
  | x :: xs => by
    rw [List.mapM_cons, bind_error_iff]
    refine ⟨fun h => ?_, fun h => ?_⟩
    · rcases h with hx | ⟨y, hy, h⟩
      · exact ⟨[], x, xs, rfl, by simp, hx⟩
      · rcases bind_error_iff.mp h with h | ⟨ys, _, h⟩
        · obtain ⟨before, z, after, hxs, hb, hz⟩ := mapM_error_iff.mp h
          exact ⟨x :: before, z, after, by rw [hxs]; rfl, List.forall_mem_cons.mpr ⟨⟨y, hy⟩, hb⟩, hz⟩
        · cases h
    · obtain ⟨before, z, after, hxs, hb, hz⟩ := h
      cases before with
      | nil =>
        obtain ⟨h1, _⟩ := List.cons.inj hxs
        exact Or.inl (h1 ▸ hz)
      | cons w before =>
        obtain ⟨h1, h2⟩ := List.cons.inj hxs
        obtain ⟨⟨y, hy⟩, hb⟩ := List.forall_mem_cons.mp hb
        have h : xs.mapM f = .error e := mapM_error_iff.mpr ⟨before, z, after, h2, hb, hz⟩
        exact Or.inr ⟨y, h1 ▸ hy, bind_error_iff.mpr (Or.inl h)⟩

end

end RhythmFilter
