import RhythmFilter.Json.Quoted

/-!
# Quoted strings read back

A quoted string is read back up to its closing quote, whatever stands behind it. Each character is
written in one of three ways: as itself, as a backslash and a letter, or as the digits of its unit.
-/

namespace RhythmFilter.Json

def readPiece (p : Piece) (read : Option (List Piece × List Char)) : Option (List Piece × List Char) :=
  read.map fun r => (p :: r.1, r.2)

section
variable {c d e : Char}

theorem quotedPieces?_plain (hquote : c ≠ '"') (hslash : c ≠ '\\') (hcontrol : ¬c < ' ') (s : List Char) :
    quotedPieces? (c :: s) = readPiece (.character c) (quotedPieces? s) := by
  rw [quotedPieces?.eq_def]
  simp only [if_neg hquote, if_neg hslash, if_neg hcontrol]
  cases quotedPieces? s with
  | none => rfl
  | some r => rfl

theorem quotedPieces?_escape (hu : e ≠ 'u') (h : escapes.lookup e = some d) (s : List Char) :
    quotedPieces? ('\\' :: e :: s) = readPiece (.character d) (quotedPieces? s) := by
  have hquote : '\\' ≠ '"' := by decide
  rw [quotedPieces?.eq_def]
  simp only [if_neg hquote, ite_true, if_neg hu, h]
  cases quotedPieces? s with
  | none => rfl
  | some r => rfl

theorem quotedPieces?_unit {h₁ h₂ h₃ h₄ : Char} {n : Nat} (h : unit? h₁ h₂ h₃ h₄ = some n) (s : List Char) :
    quotedPieces? ('\\' :: 'u' :: h₁ :: h₂ :: h₃ :: h₄ :: s) = readPiece (.ofUnit n) (quotedPieces? s) := by
  have hquote : '\\' ≠ '"' := by decide
  rw [quotedPieces?.eq_def]
  simp only [if_neg hquote, ite_true, h]
  cases quotedPieces? s with
  | none => rfl
  | some r => rfl

end

/-! ## Written characters -/

def lettered : List Char := ['"', '\\', '\x08', '\x0c', '\n', '\r', '\t']

theorem quoteChar_lettered {c : Char} (h : c ∈ lettered) :
    ∃ e, quoteChar c = ['\\', e] ∧ e ≠ 'u' ∧ escapes.lookup e = some c := by
  simp only [lettered, List.mem_cons, List.not_mem_nil, or_false] at h
  rcases h with e | e | e | e | e | e | e
  all_goals
    subst e
    exact ⟨_, rfl, by decide, rfl⟩

theorem shortEscape?_none {c : Char} (h : c ∉ lettered) : shortEscape? c = none := by
  rw [shortEscape?, List.lookup_eq_none_iff]
  intro p hp
  rw [bne_iff_ne]
  intro e
  subst e
  exact h (List.mem_map_of_mem (f := Prod.fst) hp)

/-- The units of control characters have two digits, and none is half of a pair. -/
theorem unit?_control : ∀ n < 32, unit? '0' '0' (hexDigit (n / 16)) (hexDigit (n % 16)) = some n ∧
    Piece.ofUnit n = .character (Char.ofNat n) := by
  decide +kernel

theorem quotedPieces?_quoteChar (c : Char) (s : List Char) :
    quotedPieces? (quoteChar c ++ s) = readPiece (.character c) (quotedPieces? s) := by
  by_cases hc : c ∈ lettered
  · obtain ⟨e, hquote, hu, he⟩ := quoteChar_lettered hc
    rw [hquote]
    exact quotedPieces?_escape hu he s
  · rw [quoteChar, shortEscape?_none hc]
    by_cases hcontrol : c < ' '
    · obtain ⟨hunit, hpiece⟩ := unit?_control c.toNat hcontrol
      rw [Char.ofNat_toNat] at hpiece
      simp only [hcontrol, ite_true]
      exact hpiece ▸ quotedPieces?_unit hunit s
    · have hquote : c ≠ '"' := fun e => hc (by simp [e, lettered])
      have hslash : c ≠ '\\' := fun e => hc (by simp [e, lettered])
      simp only [hcontrol, ite_false]
      exact quotedPieces?_plain hquote hslash hcontrol s

theorem quotedPieces?_quote (rest : List Char) : ∀ s : List Char,
    quotedPieces? (s.flatMap quoteChar ++ '"' :: rest) = some (s.map .character, rest)
  | [] => by
    rw [List.flatMap_nil, List.nil_append, quotedPieces?.eq_def]
    rfl
  | c :: s => by
    rw [List.flatMap_cons, List.append_assoc, quotedPieces?_quoteChar, quotedPieces?_quote rest s]
    rfl

theorem pieceText?_characters : ∀ s : List Char, pieceText? (s.map .character) = some s
  | [] => rfl
  | c :: s => by
    rw [List.map_cons, pieceText?, pieceText?_characters s]
    rfl

end RhythmFilter.Json
