import RhythmFilter.Proofs.Json.ReadBack

/-!
# Values on one line

A value without numbers is also read back from its text without spaces.
-/

namespace RhythmFilter.Json

theorem spells_compactItems : ∀ {xs : List Json}, (∀ x ∈ xs, Spells (compactChars x) x.spelled.tokens) →
    Spells (compactItems xs) (itemTokens (spelledItems xs))
  | [], _ => .spaces nofun
  | [x], h => h x List.mem_cons_self
  | x :: y :: xs, h => by
    obtain ⟨hx, hrest⟩ := List.forall_mem_cons.mp h
    have hitems := (hx.append .comma).append (spells_compactItems hrest)
    simpa [compactItems, spelledItems, itemTokens] using hitems

theorem spells_compactMember (k : String) {v : Json} (h : Spells (compactChars v) v.spelled.tokens) :
    Spells (writeText k ++ ':' :: compactChars v) (.string (some k) :: .colon :: v.spelled.tokens) := by
  have hcolon : Spells [':'] [.colon] := .mark rfl (by decide)
  simpa using ((Spells.writeText k).append hcolon).append h

theorem spells_compactMembers : ∀ {ms : Members}, (∀ m ∈ ms, Spells (compactChars m.2) m.2.spelled.tokens) →
    Spells (compactMembers ms) (memberTokens (spelledMembers ms))
  | [], _ => .spaces nofun
  | [(k, v)], h => spells_compactMember k (h (k, v) List.mem_cons_self)
  | (k, v) :: m :: ms, h => by
    obtain ⟨hv, hrest⟩ := List.forall_mem_cons.mp h
    have hmembers := ((spells_compactMember k hv).append .comma).append (spells_compactMembers hrest)
    simpa [compactMembers, spelledMembers, memberTokens] using hmembers

theorem spells_compact {j : Json} (h : Numberless j) : Spells (compactChars j) j.spelled.tokens := by
  induction h with
  | null => exact .null
  | bool b => exact .writeBool b
  | string s => exact .writeText s
  | @array items h ih =>
    have hopen : Spells ['['] [.openArray] := .mark rfl (by decide)
    have hclose : Spells [']'] [.closeArray] := .mark rfl (by decide)
    have hitems := (hopen.append (spells_compactItems ih)).append hclose
    cases items with
    | nil => exact hitems
    | cons x xs => simpa [compactChars, Tree.spelled, spelledItems, Tree.tokens] using hitems
  | @object members h ih =>
    have hopen : Spells ['{'] [.openObject] := .mark rfl (by decide)
    have hclose : Spells ['}'] [.closeObject] := .mark rfl (by decide)
    have hmembers := (hopen.append (spells_compactMembers ih)).append hclose
    cases members with
    | nil => exact hmembers
    | cons m ms => simpa [compactChars, Tree.spelled, spelledMembers, Tree.tokens] using hmembers

end RhythmFilter.Json
