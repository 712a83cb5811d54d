import RhythmFilter.Mode.Id

/-!
# What a mode is called

A mode is called by its name or by its ordinal in decimal, and by nothing else.
-/

namespace RhythmFilter.Mode

def IsCalled (m : Mode) (text : String) : Prop := text = m.name ∨ text = toString m.ordinal

instance (m : Mode) (text : String) : Decidable (m.IsCalled text) :=
  inferInstanceAs (Decidable (text = m.name ∨ text = toString m.ordinal))

theorem digitChar_ordinal (m : Mode) : String.singleton (Text.digitChar m.ordinal) = toString m.ordinal := by
  cases m <;> decide

theorem ofId?_name_eq_some_iff {m : Mode} {text : String} : ofId? (.name text) = some m ↔ m.IsCalled text := by
  refine ⟨fun h => ?_, fun h => ?_⟩
  · have hfound := List.find?_some h
    rw [decide_eq_true_eq, digitChar_ordinal] at hfound
    exact hfound.imp Eq.symm Eq.symm
  · rcases h with e | e
    · rw [e]
      cases m <;> decide
    · rw [e]
      cases m <;> decide

theorem resolve_name_ok_iff {m : Mode} {text : String} : resolve (.name text) = .ok m ↔ m.IsCalled text := by
  rw [← ofId?_name_eq_some_iff]
  unfold resolve
  cases ofId? (.name text) with
  | none => simp
  | some n => simp

theorem resolve_name_error_iff {text : String} {e : Refusal} :
    resolve (.name text) = .error e ↔ (∀ m : Mode, ¬ m.IsCalled text) ∧ e = .unknownMode text := by
  simp only [← ofId?_name_eq_some_iff]
  unfold resolve
  cases ofId? (.name text) with
  | none => simp [ModeId.text, eq_comm]
  | some n => simp

end RhythmFilter.Mode
