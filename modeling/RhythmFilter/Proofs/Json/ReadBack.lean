import RhythmFilter.Json.Reading
import RhythmFilter.Json.Writing
import RhythmFilter.Proofs.Json.Quoted

/-!
# Written values read back

A value is read back from its row of tokens, and a value without numbers also from its text in lines:
cut into tokens, the text is the row of tokens of the value as a text spells it. Different values of
this kind therefore have different texts.
-/

namespace RhythmFilter.Json

/-! ## Rows of tokens -/

section
variable {σ ν : Type}

theorem Tree.tokens_eq_cons (j : Tree σ ν) : ∃ t ts, j.tokens = t :: ts ∧ t ≠ .closeArray := by
  cases j with
  | null => exact ⟨_, _, rfl, nofun⟩
  | bool b => exact ⟨_, _, rfl, nofun⟩
  | number n => exact ⟨_, _, rfl, nofun⟩
  | string s => exact ⟨_, _, rfl, nofun⟩
  | array items => exact ⟨_, _, rfl, nofun⟩
  | object members => exact ⟨_, _, rfl, nofun⟩

theorem itemTokens_eq_cons (x : Tree σ ν) (xs : List (Tree σ ν)) :
    ∃ t ts, itemTokens (x :: xs) = t :: ts ∧ t ≠ .closeArray := by
  obtain ⟨t, ts, e, ht⟩ := x.tokens_eq_cons
  cases xs with
  | nil => exact ⟨t, ts, e, ht⟩
  | cons y ys => exact ⟨t, ts ++ .comma :: itemTokens (y :: ys), by rw [itemTokens, e]; rfl, ht⟩

namespace Reader

/-- If an array does not end at once, its first item is read like any other. -/
theorem steps?_firstItem {t : Token σ ν} (h : t ≠ .closeArray) (frames : List (Frame σ ν))
    (ts : List (Token σ ν)) :
    steps? ⟨.firstItem, frames⟩ (t :: ts) = steps? ⟨.value, .array [] :: frames⟩ (t :: ts) := by
  cases t with
  | closeArray => exact absurd rfl h
  | _ => rfl

mutual

/-- Reading goes on behind the tokens of a value with that value. -/
theorem steps?_tokens (frames : List (Frame σ ν)) (ts : List (Token σ ν)) : ∀ j : Tree σ ν,
    steps? ⟨.value, frames⟩ (j.tokens ++ ts) = steps? ⟨.after j, frames⟩ ts
  | .null => rfl
  | .bool _ => rfl
  | .number _ => rfl
  | .string _ => rfl
  | .array [] => rfl
  | .array (x :: xs) => by
    have hitems := steps?_itemTokens [] frames ts (x :: xs) (List.cons_ne_nil _ _)
    obtain ⟨t, us, e, ht⟩ := itemTokens_eq_cons x xs
    rw [e] at hitems
    rw [Tree.tokens, e, List.append_assoc, List.cons_append]
    exact (steps?_firstItem ht frames _).trans hitems
  | .object [] => rfl
  | .object ((k, v) :: ms) => by
    rw [Tree.tokens, List.append_assoc, List.cons_append]
    have hmembers := steps?_memberTokens [] frames ts ((k, v) :: ms) (List.cons_ne_nil _ _)
    -- the first key is read like any other
    cases ms with
    | nil => exact hmembers
    | cons m ms => exact hmembers

theorem steps?_itemTokens (before : List (Tree σ ν)) (frames : List (Frame σ ν)) (ts : List (Token σ ν)) :
    ∀ xs : List (Tree σ ν), xs ≠ [] →
      steps? ⟨.value, .array before :: frames⟩ (itemTokens xs ++ .closeArray :: ts) =
        steps? ⟨.after (.array (before.reverse ++ xs)), frames⟩ ts
  | [], h => absurd rfl h
  | [x], _ => by
    rw [itemTokens, steps?_tokens _ _ x, ← List.reverse_cons]
    rfl
  | x :: y :: xs, _ => by
    have hrest := steps?_itemTokens (x :: before) frames ts (y :: xs) (List.cons_ne_nil _ _)
    rw [List.reverse_cons, List.append_assoc, List.singleton_append] at hrest
    rw [itemTokens, List.append_assoc, steps?_tokens _ _ x]
    exact hrest

theorem steps?_memberTokens (before : List (σ × Tree σ ν)) (frames : List (Frame σ ν)) (ts : List (Token σ ν)) :
    ∀ ms : List (σ × Tree σ ν), ms ≠ [] →
      steps? ⟨.nextKey before, frames⟩ (memberTokens ms ++ .closeObject :: ts) =
        steps? ⟨.after (.object (before.reverse ++ ms)), frames⟩ ts
  | [], h => absurd rfl h
  | [(k, v)], _ => by
    have hvalue := steps?_tokens (.object before k :: frames) (.closeObject :: ts) v
    rw [← List.reverse_cons]
    exact hvalue
  | (k, v) :: m :: ms, _ => by
    have hvalue := steps?_tokens (.object before k :: frames)
        (.comma :: (memberTokens (m :: ms) ++ .closeObject :: ts)) v
    have hrest := steps?_memberTokens ((k, v) :: before) frames ts (m :: ms) (List.cons_ne_nil _ _)
    rw [List.reverse_cons, List.append_assoc, List.singleton_append] at hrest
    rw [memberTokens, List.append_assoc]
    exact hvalue.trans hrest

end

end Reader

theorem ofTokens?_tokens (j : Tree σ ν) : ofTokens? j.tokens = some j := by
  have h := Reader.steps?_tokens [] [] j
  rw [List.append_nil] at h
  rw [ofTokens?, h]
  rfl

end

/-! ## Values as texts spell them -/

mutual

def Tree.spelled : Json → Document
  | .null => .null
  | .bool b => .bool b
  | .number n => .number (some n)
  | .string s => .string (some s)
  | .array items => .array (spelledItems items)
  | .object members => .object (spelledMembers members)

def spelledItems : List Json → List Document
  | [] => []
  | x :: xs => x.spelled :: spelledItems xs

def spelledMembers : Members → List (Option String × Document)
  | [] => []
  | (k, v) :: ms => (some k, v.spelled) :: spelledMembers ms

end

mutual

theorem proper?_spelled : ∀ j : Json, j.spelled.proper? = some j
  | .null => rfl
  | .bool _ => rfl
  | .number _ => rfl
  | .string _ => rfl
  | .array items => by rw [Tree.spelled, Tree.proper?, properItems?_spelled items]; rfl
  | .object members => by rw [Tree.spelled, Tree.proper?, properMembers?_spelled members]; rfl

theorem properItems?_spelled : ∀ xs : List Json, properItems? (spelledItems xs) = some xs
  | [] => rfl
  | x :: xs => by rw [spelledItems, properItems?, proper?_spelled x, properItems?_spelled xs]

theorem properMembers?_spelled : ∀ ms : Members, properMembers? (spelledMembers ms) = some ms
  | [] => rfl
  | (k, v) :: ms => by simp only [spelledMembers, properMembers?, proper?_spelled v, properMembers?_spelled ms]

end

/-! ## Texts cut into tokens -/

theorem tokens?_eq (s : List Char) : tokens? s = if s.dropWhile isSpace = [] then some [] else
    (token? (s.dropWhile isSpace)).bind fun p => (tokens? p.2).map (p.1 :: ·) := by
  rw [tokens?]
  split
  · rfl
  · split
    · rename_i h
      rw [h]
      rfl
    · rename_i h
      rw [h]
      rfl

/-- Whatever stands behind the text, it is cut into these tokens. -/
def Spells (s : List Char) (ts : List SpelledToken) : Prop :=
  ∀ rest, tokens? (s ++ rest) = (tokens? rest).map (ts ++ ·)

namespace Spells

theorem append {s u : List Char} {ts us : List SpelledToken} (hs : Spells s ts) (hu : Spells u us) :
    Spells (s ++ u) (ts ++ us) := by
  intro rest
  rw [List.append_assoc, hs, hu, Option.map_map]
  simp only [Function.comp_def, List.append_assoc]

theorem of_token {c : Char} {s : List Char} {t : SpelledToken} (hc : isSpace c = false)
    (h : ∀ rest, token? (c :: (s ++ rest)) = some (t, rest)) : Spells (c :: s) [t] := by
  intro rest
  have hdrop : (c :: s ++ rest).dropWhile isSpace = c :: (s ++ rest) := by simp [hc]
  rw [tokens?_eq, hdrop, if_neg (List.cons_ne_nil _ _), h]
  rfl

theorem spaces {gap : List Char} (h : ∀ c ∈ gap, isSpace c = true) : Spells gap [] := by
  intro rest
  rw [tokens?_eq, List.dropWhile_append_of_pos h, ← tokens?_eq]
  simp

theorem mark {c : Char} {t : SpelledToken} (h : marks.lookup c = some t) (hc : isSpace c = false) :
    Spells [c] [t] := by
  refine of_token hc fun rest => ?_
  simp [token?, h]

theorem comma : Spells [','] [.comma] := .mark rfl (by decide)

theorem colon : Spells ": ".toList [.colon] := by
  have hspace : Spells [' '] [] := .spaces (List.forall_mem_singleton.mpr rfl)
  exact append (mark (c := ':') rfl (by decide)) hspace

theorem newLine (depth : Nat) : Spells (newLine depth) [] := by
  refine spaces fun c hc => ?_
  rcases List.mem_cons.mp hc with e | hc
  · rw [e]; rfl
  · rw [List.eq_of_mem_replicate hc]; rfl

theorem enclosed {s u inside : List Char} {t : SpelledToken} {ts us : List SpelledToken} (hs : Spells s [t])
    (hu : Spells u us) (depth : Nat) (h : Spells inside ts) :
    Spells (s ++ Json.newLine (depth + 1) ++ inside ++ Json.newLine depth ++ u) (t :: ts ++ us) := by
  have hfront := (hs.append (newLine (depth + 1))).append h
  simpa using (hfront.append (newLine depth)).append hu

theorem writeText (s : String) : Spells (writeText s) [.string (some s)] := by
  have hread : ∀ rest, token? ('"' :: (s.toList.flatMap quoteChar ++ ['"'] ++ rest)) =
      some (.string (some s), rest) := by
    intro rest
    have hmark : marks.lookup '"' = none := rfl
    simp only [token?, hmark, ite_true, List.append_assoc, List.singleton_append, quotedPieces?_quote,
      Option.map_some, pieceText?_characters, String.ofList_toList]
  exact of_token (by decide) hread

theorem null : Spells "null".toList [.null] := of_token (by decide) fun _ => rfl

theorem writeBool (b : Bool) : Spells (writeBool b) [.bool b] := by
  cases b with
  | false => exact of_token (c := 'f') (by decide) fun _ => rfl
  | true => exact of_token (c := 't') (by decide) fun _ => rfl

end Spells

/-! ## Values in lines -/

inductive Numberless : Json → Prop
  | null : Numberless .null
  | bool (b : Bool) : Numberless (.bool b)
  | string (s : String) : Numberless (.string s)
  | array {items : List Json} : (∀ x ∈ items, Numberless x) → Numberless (.array items)
  | object {members : Members} : (∀ m ∈ members, Numberless m.2) → Numberless (.object members)

theorem spells_prettyItems :
    ∀ {xs : List Json}, (∀ x ∈ xs, ∀ depth, Spells (prettyChars depth x) x.spelled.tokens) →
    ∀ depth, Spells (prettyItems depth xs) (itemTokens (spelledItems xs))
  | [], _, _ => .spaces nofun
  | [x], h, depth => h x List.mem_cons_self depth
  | x :: y :: xs, h, depth => by
    obtain ⟨hx, hrest⟩ := List.forall_mem_cons.mp h
    have hitems := (((hx depth).append .comma).append (.newLine depth)).append (spells_prettyItems hrest depth)
    simpa [prettyItems, spelledItems, itemTokens] using hitems

theorem spells_prettyMembers : ∀ {ms : Members},
    (∀ m ∈ ms, ∀ depth, Spells (prettyChars depth m.2) m.2.spelled.tokens) →
    ∀ depth, Spells (prettyMembers depth ms) (memberTokens (spelledMembers ms))
  | [], _, _ => .spaces nofun
  | [(k, v)], h, depth => by
    simpa [prettyMembers, spelledMembers, memberTokens] using
      ((Spells.writeText k).append .colon).append (h (k, v) List.mem_cons_self depth)
  | (k, v) :: m :: ms, h, depth => by
    obtain ⟨hv, hrest⟩ := List.forall_mem_cons.mp h
    have hmembers := (((((Spells.writeText k).append .colon).append (hv depth)).append .comma).append
      (.newLine depth)).append (spells_prettyMembers hrest depth)
    simpa [prettyMembers, spelledMembers, memberTokens] using hmembers

theorem spells_pretty {j : Json} (h : Numberless j) :
    ∀ depth, Spells (prettyChars depth j) j.spelled.tokens := by
  induction h with
  | null => exact fun _ => .null
  | bool b => exact fun _ => .writeBool b
  | string s => exact fun _ => .writeText s
  | @array items h ih =>
    intro depth
    have hopen : Spells ['['] [.openArray] := .mark rfl (by decide)
    have hclose : Spells [']'] [.closeArray] := .mark rfl (by decide)
    cases items with
    | nil => exact hopen.append hclose
    | cons x xs => exact hopen.enclosed hclose depth (spells_prettyItems ih _)
  | @object members h ih =>
    intro depth
    have hopen : Spells ['{'] [.openObject] := .mark rfl (by decide)
    have hclose : Spells ['}'] [.closeObject] := .mark rfl (by decide)
    cases members with
    | nil => exact hopen.append hclose
    | cons m ms => exact hopen.enclosed hclose depth (spells_prettyMembers ih _)

theorem Document.ofText?_of_spells {s : List Char} {d : Document} (h : Spells s d.tokens) :
    Document.ofText? (String.ofList s) = some d := by
  have htokens := h []
  rw [List.append_nil] at htokens
  have hnil : tokens? [] = some [] := by rw [tokens?_eq]; rfl
  rw [Document.ofText?, String.toList_ofList, htokens, hnil]
  simpa using ofTokens?_tokens d

theorem Document.ofText?_pretty {j : Json} (h : Numberless j) : Document.ofText? j.pretty = some j.spelled :=
  Document.ofText?_of_spells (spells_pretty h 0)

theorem eq_of_pretty {j k : Json} (hj : Numberless j) (hk : Numberless k) (h : j.pretty = k.pretty) :
    j = k := by
  have hspelled : j.spelled = k.spelled :=
    Option.some.inj (by rw [← Document.ofText?_pretty hj, h, Document.ofText?_pretty hk])
  exact Option.some.inj (by rw [← proper?_spelled j, hspelled, proper?_spelled k])

theorem Tree.string_injective : Function.Injective (Tree.string : String → Json) :=
  fun _ _ h => Tree.string.inj h

end RhythmFilter.Json
