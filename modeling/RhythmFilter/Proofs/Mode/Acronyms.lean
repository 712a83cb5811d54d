import RhythmFilter.Proofs.Mode.Arrange
import RhythmFilter.Proofs.Text.Capitals
import RhythmFilter.Proofs.Text.Words

/-!
# The acronyms of the tables

What the four tables have in common: an acronym is written in capital letters and digits, and has two
characters or is one of two longer ones, no part of which is an acronym of any mode. These facts are
all that the rest of the theory knows about the tables.
-/

namespace RhythmFilter.Mode

open Text

theorem isCapital_of_mem_order {m : Mode} {a : String} (h : a ∈ m.order) :
    ∀ c ∈ a.toList, isCapital c = true := by
  have : m.order.all (fun b => b.toList.all isCapital) = true := by cases m <;> decide +kernel
  simp only [List.all_eq_true] at this
  exact this a h

def longAcronyms : List String := ["SV2", "10K"]

theorem length_of_mem_order {m : Mode} {a : String} (h : a ∈ m.order) : a.length = 2 ∨ a ∈ longAcronyms := by
  have : ∀ b ∈ m.order, b.length = 2 ∨ b ∈ longAcronyms := by cases m <;> decide +kernel
  exact this a h

theorem length_longAcronyms {a : String} (h : a ∈ longAcronyms) : a.length = 3 := by
  have : ∀ b ∈ longAcronyms, b.length = 3 := by decide
  exact this a h

/-- No mode knows two neighbouring characters of a long acronym. -/
theorem unknown_in_long {a : String} (h : a ∈ longAcronyms) (m : Mode) :
    String.ofList (a.toList.take 2) ∉ m.order ∧ String.ofList (a.toList.drop 1) ∉ m.order := by
  have : ∀ b ∈ longAcronyms, String.ofList (b.toList.take 2) ∉ m.order ∧
      String.ofList (b.toList.drop 1) ∉ m.order := by
    cases m <;> decide +kernel
  exact this a h

theorem two_le_length {m : Mode} {a : String} (h : a ∈ m.order) : 2 ≤ a.toList.length := by
  rw [String.length_toList]
  rcases length_of_mem_order h with h2 | hl
  · omega
  · have := length_longAcronyms hl
    omega

theorem isWord_of_mem_order {m : Mode} {a : String} (h : a ∈ m.order) : IsWord a.toList := by
  refine ⟨fun hn => ?_, fun c hc => isBlank_capital (isCapital_of_mem_order h c hc)⟩
  have := two_le_length h
  simp [hn] at this

theorem isWord_of_arrange {m : Mode} {xs ys : List String} (h : m.arrange xs = .ok ys) :
    ∀ a ∈ ys, IsWord a.toList := fun a ha => isWord_of_mem_order (arranged_known h a ha)

theorem infix_two_of_three {a b : List Char} (ha : a.length = 2) (hb : b.length = 3) (h : a <:+: b) :
    a = b.take 2 ∨ a = b.drop 1 := by
  obtain ⟨u, v, e⟩ := h
  subst e
  simp only [List.length_append] at hb
  by_cases hu : u = []
  · left
    rw [hu, List.nil_append, ← ha, List.take_left]
  · right
    have h1 : 0 < u.length := List.length_pos_iff.mpr hu
    have hv : v = [] := List.eq_nil_of_length_eq_zero (by omega)
    have h1 : u.length = 1 := by omega
    rw [hv, List.append_nil, ← h1, List.drop_left]

/-- An acronym of two characters that is part of an acronym, of whatever mode, is that acronym. -/
theorem eq_of_infix {m n : Mode} {a b : String} (ha : a ∈ m.order) (hb : b ∈ n.order) (h2 : a.length = 2)
    (h : a.toList <:+: b.toList) : a = b := by
  have ha2 : a.toList.length = 2 := by rw [String.length_toList, h2]
  rcases length_of_mem_order hb with hb2 | hl
  · apply String.toList_injective
    apply h.eq_of_length
    rw [ha2, String.length_toList, hb2]
  · exfalso
    have hb3 : b.toList.length = 3 := by rw [String.length_toList, length_longAcronyms hl]
    obtain ⟨hfront, hback⟩ := unknown_in_long hl m
    rcases infix_two_of_three ha2 hb3 h with he | he
    · rw [← he, String.ofList_toList] at hfront
      exact hfront ha
    · rw [← he, String.ofList_toList] at hback
      exact hback ha

end RhythmFilter.Mode
