import Mathlib.Data.List.Chain
import RhythmFilter.Proofs.Json.Numerals
import RhythmFilter.Proofs.Json.Rows

/-!
# The grammar of JSON texts

`TokenText t w` says that `w` is a way to write the token `t`. A text is one JSON value if it is the
tokens of the value with any spaces around them, and it is read as a value in this case only. Numbers need
no space behind them, because in the row of a value nothing can follow on which a numeral would go on.
-/

namespace RhythmFilter.Json

open Text

inductive QuotedText : List Piece → List Char → Prop
  | nothing : QuotedText [] []
  | plain {c : Char} {ps : List Piece} {s : List Char} : c ≠ '"' → c ≠ '\\' → ¬ c < ' ' → QuotedText ps s →
    QuotedText (.character c :: ps) (c :: s)
  | escape {e d : Char} {ps : List Piece} {s : List Char} : escapes.lookup e = some d → QuotedText ps s →
    QuotedText (.character d :: ps) ('\\' :: e :: s)
  | unit {h₁ h₂ h₃ h₄ : Char} {n : Nat} {ps : List Piece} {s : List Char} : unit? h₁ h₂ h₃ h₄ = some n →
    QuotedText ps s → QuotedText (.ofUnit n :: ps) ('\\' :: 'u' :: h₁ :: h₂ :: h₃ :: h₄ :: s)

inductive TokenText : SpelledToken → List Char → Prop
  | mark {c : Char} {t : SpelledToken} : marks.lookup c = some t → TokenText t [c]
  | keyword {w : List Char} {t : SpelledToken} : (w, t) ∈ keywords → TokenText t w
  | string {ps : List Piece} {s : List Char} : QuotedText ps s →
    TokenText (.string ((pieceText? ps).map String.ofList)) ('"' :: (s ++ ['"']))
  | number {n : Option Number} {w : List Char} : NumeralText n w → TokenText (.number n) w

def IsSpaces (gap : List Char) : Prop := ∀ c ∈ gap, isSpace c = true

inductive CutInto : List SpelledToken → List Char → Prop
  | spaces {gap : List Char} : IsSpaces gap → CutInto [] gap
  | token {gap w s : List Char} {t : SpelledToken} {ts : List SpelledToken} : IsSpaces gap → TokenText t w →
    CutInto ts s → CutInto (t :: ts) (gap ++ (w ++ s))

/-- The text is one JSON value and nothing else. -/
def Document.IsText (d : Document) (text : String) : Prop := CutInto d.tokens text.toList

/-! ## Quoted strings -/

theorem quotedText_of_quotedPieces? {s : List Char} {ps : List Piece} {rest : List Char}
    (h : quotedPieces? s = some (ps, rest)) : ∃ w, QuotedText ps w ∧ s = w ++ '"' :: rest := by
  fun_induction quotedPieces? s generalizing ps rest with
  | case1 => cases h
  | case2 s =>
    obtain ⟨hps, hrest⟩ := Prod.mk.inj (Option.some.inj h)
    rw [← hps, ← hrest]
    exact ⟨[], .nothing, rfl⟩
  | case3 => cases h
  | case4 h₁ h₂ h₃ h₄ s n qs after hread hn _ ih =>
    obtain ⟨hps, hrest⟩ := Prod.mk.inj (Option.some.inj h)
    obtain ⟨w, hw, hs⟩ := ih hread
    rw [← hps, ← hrest, hs]
    exact ⟨_, .unit hn hw, rfl⟩
  | case5 => cases h
  | case6 => cases h
  | case7 e s _ d qs after hread he _ ih =>
    obtain ⟨hps, hrest⟩ := Prod.mk.inj (Option.some.inj h)
    obtain ⟨w, hw, hs⟩ := ih hread
    rw [← hps, ← hrest, hs]
    exact ⟨_, .escape he hw, rfl⟩
  | case8 => cases h
  | case9 => cases h
  | case10 c s hquote hslash hcontrol qs after hread ih =>
    obtain ⟨hps, hrest⟩ := Prod.mk.inj (Option.some.inj h)
    obtain ⟨w, hw, hs⟩ := ih hread
    rw [← hps, ← hrest, hs]
    exact ⟨_, .plain hquote hslash hcontrol hw, rfl⟩
  | case11 => cases h

theorem quotedPieces?_of_quotedText {ps : List Piece} {w : List Char} (h : QuotedText ps w) (rest : List Char) :
    quotedPieces? (w ++ '"' :: rest) = some (ps, rest) := by
  induction h with
  | nothing =>
    rw [List.nil_append, quotedPieces?.eq_def]
    rfl
  | plain hquote hslash hcontrol _ ih =>
    rw [List.cons_append, quotedPieces?_plain hquote hslash hcontrol, ih]
    rfl
  | @escape e d ps s he _ ih =>
    have hu : e ≠ 'u' := by
      rintro rfl
      cases he
    rw [List.cons_append, List.cons_append, quotedPieces?_escape hu he, ih]
    rfl
  | unit hn _ ih =>
    simp only [List.cons_append]
    rw [quotedPieces?_unit hn, ih]
    rfl

/-! ## Tokens -/

theorem token?_sound {s rest : List Char} {t : SpelledToken} (h : token? s = some (t, rest)) :
    ∃ w, TokenText t w ∧ s = w ++ rest := by
  unfold token? at h
  split at h
  · cases h
  · rename_i c s
    split at h
    · rename_i u hmark
      obtain ⟨ht, hrest⟩ := Prod.mk.inj (Option.some.inj h)
      rw [← ht, ← hrest]
      exact ⟨[c], .mark hmark, rfl⟩
    · split at h
      · rename_i hquote
        obtain ⟨p, hp, e⟩ := Option.map_eq_some_iff.mp h
        obtain ⟨ht, hrest⟩ := Prod.mk.inj e
        obtain ⟨w, hw, hs⟩ := quotedText_of_quotedPieces? hp
        rw [← ht, ← hrest, hquote, hs]
        refine ⟨_, .string hw, ?_⟩
        simp only [List.cons_append, List.append_assoc, List.nil_append]
      · split at h
        · rename_i p hp
          rw [h] at hp
          obtain ⟨k, hk, e⟩ := Option.map_eq_some_iff.mp hp
          obtain ⟨ht, hrest⟩ := Prod.mk.inj e
          have hfront : k.1 <+: c :: s := by simpa using List.find?_some hk
          rw [← ht, ← hrest]
          exact ⟨k.1, .keyword (List.mem_of_find?_eq_some hk), (List.prefix_iff_eq_append.mp hfront).symm⟩
        · obtain ⟨n, w, ht, hw, hs⟩ := takes_numeral.sound_map h
          rw [← ht]
          exact ⟨w, .number hw, hs⟩

theorem mem_of_lookup {c : Char} {t : SpelledToken} {table : List (Char × SpelledToken)}
    (h : table.lookup c = some t) :
    (c, t) ∈ table := by
  obtain ⟨before, after, e, _⟩ := List.lookup_eq_some_iff.mp h
  simp [e]

theorem NumeralText.exists_cons {n : Option Number} {w : List Char} (h : NumeralText n w) :
    ∃ c cs, w = c :: cs ∧ (c = '-' ∨ isDigit c = true) := by
  cases h with
  | parts hsign hwhole _ _ =>
    cases hsign with
    | absent =>
      obtain ⟨c, cs, e, hc⟩ := hwhole.exists_cons
      exact ⟨c, _, by rw [e]; rfl, Or.inr hc⟩
    | minus => exact ⟨_, _, rfl, Or.inl rfl⟩

theorem token?_numeral {c : Char} (hc : c = '-' ∨ isDigit c = true) (s : List Char) :
    token? (c :: s) = (numeral? (c :: s)).map fun p => (.number p.1, p.2) := by
  have hne : ∀ d, isDigit d = false → d ≠ '-' → c ≠ d := fun d hd hd' => by
    rcases hc with e | hc
    · exact fun e' => hd' (e' ▸ e)
    · exact ne_of_isDigit hc hd
  have hmark : marks.lookup c = none := by
    rw [List.lookup_eq_none_iff]
    have hmarks : ∀ p ∈ marks, isDigit p.1 = false ∧ p.1 ≠ '-' := by decide
    intro p hp
    simpa using hne p.1 (hmarks p hp).1 (hmarks p hp).2
  have hkeyword : keyword? (c :: s) = none := by
    rw [keyword?, Option.map_eq_none_iff, List.find?_eq_none]
    have hkeywords : ∀ k ∈ keywords, ∃ d w, k.1 = d :: w ∧ isDigit d = false ∧ d ≠ '-' := by
      simp [keywords, isDigit]
    intro k hk hfront
    obtain ⟨d, w, e, hd, hd'⟩ := hkeywords k hk
    rw [e, List.isPrefixOf_iff_prefix, List.cons_prefix_cons] at hfront
    exact hne d hd hd' hfront.1.symm
  have hquote : c ≠ '"' := hne _ (by decide) (by decide)
  simp only [token?, hmark, hquote, if_false, hkeyword]

theorem token?_append {t : SpelledToken} {w rest : List Char} (h : TokenText t w)
    (hrest : ∀ n, t = .number n → ∀ c ∈ rest.head?, goesOnNumeral c = false) :
    token? (w ++ rest) = some (t, rest) := by
  cases h with
  | @mark c t hmark => simp [token?, hmark]
  | keyword hk =>
    simp only [keywords, List.mem_cons, List.not_mem_nil, or_false] at hk
    rcases hk with e | e | e
    all_goals
      obtain ⟨hw, ht⟩ := Prod.mk.inj e
      rw [hw, ht]
      rfl
  | @string ps s hs =>
    have hmark : marks.lookup '"' = none := rfl
    simp only [token?, List.cons_append, List.append_assoc, List.nil_append, hmark, ite_true,
      quotedPieces?_of_quotedText hs, Option.map_some]
  | @number n w hw =>
    obtain ⟨c, cs, e, hc⟩ := hw.exists_cons
    have hread := takes_numeral.complete hw (hrest n rfl)
    rw [e, List.cons_append] at hread ⊢
    rw [token?_numeral hc, hread]
    rfl

theorem TokenText.exists_cons {t : SpelledToken} {w : List Char} (h : TokenText t w) :
    ∃ c cs, w = c :: cs ∧ isSpace c = false := by
  cases h with
  | @mark c t hmark =>
    have hmarks : ∀ p ∈ marks, isSpace p.1 = false := by decide
    exact ⟨c, [], rfl, hmarks _ (mem_of_lookup hmark)⟩
  | keyword hk =>
    have hkeywords : ∀ k ∈ keywords, ∃ d w, k.1 = d :: w ∧ isSpace d = false := by simp [keywords, isSpace]
    exact hkeywords _ hk
  | string => exact ⟨_, _, rfl, by decide⟩
  | number hw =>
    obtain ⟨c, cs, e, hc⟩ := hw.exists_cons
    refine ⟨c, cs, e, ?_⟩
    rcases hc with e | hc
    · rw [e]
      decide
    · simp only [isSpace, Bool.or_eq_false_iff, decide_eq_false_iff_not, and_assoc]
      exact ⟨ne_of_isDigit hc (by decide), ne_of_isDigit hc (by decide), ne_of_isDigit hc (by decide),
        ne_of_isDigit hc (by decide)⟩

/-! ## What follows a number -/

/-- The token can stand behind a number. -/
def Token.EndsNumber {σ ν : Type} : Token σ ν → Prop
  | .comma => True
  | .closeArray => True
  | .closeObject => True
  | _ => False

def Apart {σ ν : Type} (t u : Token σ ν) : Prop := ∀ n, t = .number n → u.EndsNumber

section
variable {σ ν : Type} {t u : Token σ ν} {ts us : List (Token σ ν)}

theorem isChain_cons_of_ne (ht : ∀ n, t ≠ .number n) (h : List.IsChain Apart ts) :
    List.IsChain Apart (t :: ts) :=
  List.isChain_cons.mpr ⟨fun _ _ n e => absurd e (ht n), h⟩

theorem isChain_append_of_ends (hts : List.IsChain Apart ts) (hu : u.EndsNumber)
    (hus : List.IsChain Apart (u :: us)) :
    List.IsChain Apart (ts ++ u :: us) := by
  refine List.isChain_append.mpr ⟨hts, hus, fun t _ v hv n _ => ?_⟩
  obtain rfl := Option.some.inj hv
  exact hu

mutual

theorem isChain_tokens : ∀ d : Tree σ ν, List.IsChain Apart d.tokens
  | .null => .singleton _
  | .bool _ => .singleton _
  | .number _ => .singleton _
  | .string _ => .singleton _
  | .array items => by
    rw [Tree.tokens]
    exact isChain_append_of_ends (isChain_cons_of_ne nofun (isChain_itemTokens items)) trivial (.singleton _)
  | .object members => by
    rw [Tree.tokens]
    exact isChain_append_of_ends (isChain_cons_of_ne nofun (isChain_memberTokens members)) trivial
      (.singleton _)

theorem isChain_itemTokens : ∀ xs : List (Tree σ ν), List.IsChain Apart (itemTokens xs)
  | [] => .nil
  | [x] => isChain_tokens x
  | x :: y :: xs => by
    have hrest := isChain_itemTokens (y :: xs)
    rw [itemTokens]
    exact isChain_append_of_ends (isChain_tokens x) trivial (isChain_cons_of_ne nofun hrest)

theorem isChain_memberTokens : ∀ ms : List (σ × Tree σ ν), List.IsChain Apart (memberTokens ms)
  | [] => .nil
  | [(_, v)] => isChain_cons_of_ne nofun (isChain_cons_of_ne nofun (isChain_tokens v))
  | (k, v) :: m :: ms => by
    have hmember : List.IsChain Apart (.string k :: .colon :: v.tokens) :=
      isChain_cons_of_ne nofun (isChain_cons_of_ne nofun (isChain_tokens v))
    have hrest := isChain_memberTokens (m :: ms)
    rw [memberTokens]
    exact isChain_append_of_ends hmember trivial (isChain_cons_of_ne nofun hrest)

end

end

theorem not_goesOnNumeral_of_isSpace {c : Char} (h : isSpace c = true) : goesOnNumeral c = false := by
  simp only [isSpace, Bool.or_eq_true, decide_eq_true_eq] at h
  rcases h with ((e | e) | e) | e
  all_goals
    rw [e]
    decide

theorem TokenText.head?_of_ends {t : SpelledToken} {w : List Char} (h : TokenText t w) (ht : t.EndsNumber) :
    ∀ c ∈ w.head?, goesOnNumeral c = false := by
  cases h with
  | @mark d t hmark =>
    have hmarks : ∀ p ∈ marks, goesOnNumeral p.1 = false := by decide
    intro c hc
    obtain rfl := Option.some.inj hc
    exact hmarks _ (mem_of_lookup hmark)
  | keyword hk =>
    simp only [keywords, List.mem_cons, List.not_mem_nil, or_false] at hk
    rcases hk with e | e | e
    all_goals
      rw [(Prod.mk.inj e).2] at ht
      exact absurd ht id
  | string => exact absurd ht id
  | number => exact absurd ht id

theorem CutInto.head?_of_ends {ts : List SpelledToken} {s : List Char} (h : CutInto ts s)
    (hts : ∀ t ∈ ts.head?, t.EndsNumber) : ∀ c ∈ s.head?, goesOnNumeral c = false := by
  cases h with
  | spaces hgap => exact fun c hc => not_goesOnNumeral_of_isSpace (hgap c (List.mem_of_mem_head? hc))
  | @token gap w s t ts hgap hw hs =>
    cases gap with
    | nil =>
      obtain ⟨c, cs, e, _⟩ := hw.exists_cons
      have hhead := hw.head?_of_ends (hts t rfl)
      rw [e] at hhead ⊢
      exact hhead
    | cons d gap =>
      intro c hc
      obtain rfl := Option.some.inj hc
      exact not_goesOnNumeral_of_isSpace (hgap _ List.mem_cons_self)

/-! ## Texts -/

theorem cutInto_of_tokens? {s : List Char} {ts : List SpelledToken} (h : tokens? s = some ts) :
    CutInto ts s := by
  obtain ⟨gap, u, hs, hgap, hu⟩ := exists_span isSpace s
  have hdrop : s.dropWhile isSpace = u := by rw [hs, (span_append hgap hu).2]
  rw [tokens?_eq, hdrop] at h
  split at h
  · rename_i hnil
    obtain rfl := Option.some.inj h
    rw [hs, hnil, List.append_nil]
    exact .spaces hgap
  · obtain ⟨⟨t, rest⟩, hread, h⟩ := Option.bind_eq_some_iff.mp h
    obtain ⟨us, hus, e⟩ := Option.map_eq_some_iff.mp h
    obtain ⟨w, hw, e'⟩ := token?_sound hread
    have hlen : rest.length < s.length := by
      have hshorter := token?_shorter hread
      rw [hs, List.length_append]
      omega
    rw [← e, hs, e']
    exact .token hgap hw (cutInto_of_tokens? hus)
termination_by s.length

theorem tokens?_of_cutInto {ts : List SpelledToken} {s : List Char} (h : CutInto ts s)
    (hts : List.IsChain Apart ts) :
    tokens? s = some ts := by
  induction h with
  | spaces hgap => rw [tokens?_eq, if_pos (List.dropWhile_eq_nil_iff.mpr hgap)]
  | @token gap w s t ts hgap hw hs ih =>
    obtain ⟨hhead, hrest⟩ := List.isChain_cons.mp hts
    obtain ⟨c, cs, e, hc⟩ := hw.exists_cons
    have hread : token? (w ++ s) = some (t, s) :=
      token?_append hw fun n hn => hs.head?_of_ends fun u hu => hhead u hu n hn
    have hdrop : (gap ++ (w ++ s)).dropWhile isSpace = w ++ s := by
      refine (span_append hgap fun d hd => ?_).2
      rw [e] at hd
      exact Option.some.inj hd ▸ hc
    rw [tokens?_eq, hdrop, if_neg (by simp [e]), hread, Option.bind_some, ih hrest, Option.map_some]

theorem Document.ofText?_eq_some_iff {text : String} {d : Document} :
    Document.ofText? text = some d ↔ d.IsText text := by
  rw [Document.ofText?, Option.bind_eq_some_iff, Document.IsText]
  simp only [ofTokens?_eq_some_iff]
  refine ⟨fun h => ?_, fun h => ?_⟩
  · obtain ⟨ts, hts, e⟩ := h
    exact e ▸ cutInto_of_tokens? hts
  · exact ⟨_, tokens?_of_cutInto h (isChain_tokens d), rfl⟩

end RhythmFilter.Json
