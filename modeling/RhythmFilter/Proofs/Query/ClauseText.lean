import RhythmFilter.Proofs.Query.Clauses
import RhythmFilter.Proofs.Text.Joined
import RhythmFilter.Proofs.Text.LetterCase

/-!
# Clauses written as words

The clauses of a filter text have fields and values without blanks, operator characters and capitals.
Written as words, such clauses are read back, whatever blanks stand around the words.
-/

namespace RhythmFilter

open Text

namespace Clause

/-- The text can be a field or a value of a clause that was read. -/
structure IsTerm (e : Entity) (s : List Char) : Prop extends IsSide e s where
  no_blank : ∀ c ∈ s, isBlank c = false
  small : ∀ c ∈ s, IsSmall c

structure Proper (e : Entity) (c : Clause) : Prop where
  field : IsTerm e c.field.toList
  value : IsTerm e c.value.toList
  allowed : e.allows c.operator = true

theorem covers_bar_of_isOperatorChar {e : Entity} {c : Char} (h : e.isOperatorChar c = true) :
    covers barRanges c.toNat = true := by
  have hsigns : ∀ d ∈ ['<', '>', '=', '!', '/'], covers barRanges d.toNat = true := forall_of_all (by decide)
  apply hsigns
  rcases Entity.isOperatorChar_iff.mp h with h | ⟨h, _⟩
  · exact List.mem_append_left ['/'] h
  · rw [h]
    decide

theorem isTerm_lower {e : Entity} {s : List Char} (hne : s ≠ [])
    (h : ∀ c ∈ s, isBlank c = false ∧ e.isOperatorChar c = false) : IsTerm e (lower s) where
  nonempty := lower_ne_nil hne
  plain := lower_avoids (fun _ => covers_bar_of_isOperatorChar) fun c hc => (h c hc).2
  no_blank := lower_avoids (fun _ => covers_bar_of_isBlank) fun c hc => (h c hc).1
  small := fun _ hd => isSmall_of_mem_lower hd

section
variable {e : Entity} {c : Clause}

theorem proper_of_spells {s w : List Char} (hw : w ∈ words (lower s)) (h : Spells e w c) : c.Proper e := by
  have hblank : ∀ d ∈ w, isBlank d = false := (isWord_of_mem_words hw).2
  have hsmall : ∀ d ∈ w, IsSmall d := fun d hd => isSmall_of_mem_lower ((infix_of_mem_words hw).subset hd)
  have hfield : ∀ d ∈ c.field.toList, d ∈ w := by
    intro d hd
    rw [h.word_eq, toList_text]
    exact List.mem_append_left _ hd
  have hvalue : ∀ d ∈ c.value.toList, d ∈ w := by
    intro d hd
    rw [h.word_eq, toList_text]
    exact List.mem_append_right _ (List.mem_append_right _ hd)
  exact ⟨⟨h.field, fun d hd => hblank d (hfield d hd), fun d hd => hsmall d (hfield d hd)⟩,
    ⟨h.value, fun d hd => hblank d (hvalue d hd), fun d hd => hsmall d (hvalue d hd)⟩, h.allowed⟩

theorem proper_of_ofText {s : String} {cs : List Clause} (h : ofText e s = .ok cs) : ∀ c ∈ cs, c.Proper e := by
  intro c hc
  obtain ⟨w, hw, hs⟩ := exists_of_mem_mapM h hc
  exact proper_of_spells hw (ofWord_ok_iff.mp hs)

theorem isSmall_symbol (o : Operator) : ∀ d ∈ o.symbol.toList, IsSmall d ∧ isBlank d = false := by
  refine forall_of_all ?_
  cases o <;> decide +kernel

theorem symbol_ends_in_bar (o : Operator) : ∃ front c, o.symbol.toList = front ++ [c] ∧ IsBar c := by
  have hbar : o.symbol.toList.getLast?.any (fun c => covers barRanges c.toNat) = true := by
    cases o <;> decide
  obtain ⟨c, hlast, hcovers⟩ := Option.any_eq_true _ _ |>.mp hbar
  obtain ⟨front, e⟩ := List.getLast?_eq_some_iff.mp hlast
  exact ⟨front, c, e, isBar_of_covers hcovers⟩

/-- No sigma of the value sees the field. -/
theorem lower_append_symbol {field : List Char} (h : ∀ d ∈ field, IsSmall d) (o : Operator)
    (value : List Char) :
    lower (field ++ (o.symbol.toList ++ value)) = field ++ (o.symbol.toList ++ lower value) := by
  obtain ⟨front, c, e, hc⟩ := symbol_ends_in_bar o
  have hfront : lower (field ++ front) = field ++ front := by
    rw [lower_eq_self_iff]
    intro d hd
    rcases List.mem_append.mp hd with hd | hd
    · exact h d hd
    · exact (isSmall_symbol o d (e ▸ List.mem_append_left _ hd)).1
  rw [e, List.append_assoc, List.singleton_append, ← List.append_assoc, lower_append_bar hc, hfront]
  simp only [List.append_assoc, List.singleton_append]

namespace Proper
variable (h : c.Proper e)
include h

theorem spells : Spells e c.text.toList c := ⟨rfl, h.field.toIsSide, h.value.toIsSide, h.allowed⟩

theorem isWord_text : IsWord c.text.toList := by
  rw [toList_text]
  refine ⟨List.append_ne_nil_of_left_ne_nil h.field.nonempty _, fun d hd => ?_⟩
  rcases List.mem_append.mp hd with hd | hd
  · exact h.field.no_blank d hd
  · rcases List.mem_append.mp hd with hd | hd
    · exact (isSmall_symbol _ d hd).2
    · exact h.value.no_blank d hd

end Proper

theorem ofText_of_words {s : String} {cs : List Clause} (h : ∀ c ∈ cs, c.Proper e)
    (hs : words (lower s.toList) = cs.map fun c => c.text.toList) : ofText e s = .ok cs := by
  rw [ofText_ok_iff, hs, List.forall₂_map_left_iff, List.forall₂_same]
  exact fun c hc => (h c hc).spells

end

end Clause

end RhythmFilter
