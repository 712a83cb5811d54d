import RhythmFilter.Proofs.FirstRefusal
import RhythmFilter.Proofs.Text.Spaced
import RhythmFilter.Query.Clause

/-!
# The grammar of clauses

`Spells e w c` says that the word `w` is the clause `c` written down: field, symbol and value, in a way
that texts about the entity `e` allow. A word spells one clause at most. What is wrong with a word that
spells none, `Fault` says; the faults are told apart by the first run of operator characters.
-/

namespace RhythmFilter

open Text

theorem Operator.ofSymbol?_eq_some_iff {s : String} {o : Operator} : ofSymbol? s = some o ↔ o.symbol = s := by
  refine ⟨fun h => ?_, fun h => ?_⟩
  · simpa using List.find?_some h
  · rw [← h, ofSymbol?_symbol]

theorem Operator.symbol_ne_nil (o : Operator) : o.symbol.toList ≠ [] := by
  cases o <;> decide

theorem Entity.isOperatorChar_symbol {e : Entity} {o : Operator} (h : e.allows o = true) :
    ∀ c ∈ o.symbol.toList, e.isOperatorChar c = true := by
  refine forall_of_all ?_
  revert h
  cases e <;> cases o <;> decide

theorem Entity.isOperatorChar_iff {e : Entity} {c : Char} :
    e.isOperatorChar c = true ↔ c ∈ ['<', '>', '=', '!'] ∨ c = '/' ∧ e ≠ .beatmap := by
  cases e <;> simp [isOperatorChar, operatorChars, hasLists, or_assoc]

theorem Entity.exists_allowed_symbol_iff {e : Entity} {s : String} :
    (∃ o, e.allows o = true ∧ o.symbol = s) ↔
      s ∈ ["=", "!=", ">", "<", ">=", "<="] ∨ s = "/" ∧ e ≠ .beatmap := by
  refine ⟨fun h => ?_, fun h => ?_⟩
  · obtain ⟨o, ho, hs⟩ := h
    subst hs
    revert ho
    cases e <;> cases o <;> decide
  · have hcompare : ∀ o ≠ Operator.oneOf, e.allows o = true := fun o ho => by simp [allows, ho]
    simp only [List.mem_cons, List.not_mem_nil, or_false] at h
    rcases h with (h | h | h | h | h | h) | ⟨h, he⟩
    · exact ⟨.eq, hcompare _ (by decide), h.symm⟩
    · exact ⟨.ne, hcompare _ (by decide), h.symm⟩
    · exact ⟨.gt, hcompare _ (by decide), h.symm⟩
    · exact ⟨.lt, hcompare _ (by decide), h.symm⟩
    · exact ⟨.ge, hcompare _ (by decide), h.symm⟩
    · exact ⟨.le, hcompare _ (by decide), h.symm⟩
    · refine ⟨.oneOf, ?_, h.symm⟩
      cases e with
      | score => rfl
      | beatmap => exact absurd rfl he
      | beatmapset => rfl

namespace Clause

theorem toList_text (c : Clause) :
    c.text.toList = c.field.toList ++ (c.operator.symbol.toList ++ c.value.toList) := by
  rw [text, String.toList_append, String.toList_append, List.append_assoc]

structure IsSide (e : Entity) (s : List Char) : Prop where
  nonempty : s ≠ []
  plain : ∀ c ∈ s, e.isOperatorChar c = false

structure Spells (e : Entity) (word : List Char) (c : Clause) : Prop where
  word_eq : word = c.text.toList
  field : IsSide e c.field.toList
  value : IsSide e c.value.toList
  allowed : e.allows c.operator = true

/-- The word is `field` up to its first operator character; there `run` stands, as long as it can be,
and then `rest`. -/
structure Parts (e : Entity) (word field run rest : List Char) : Prop where
  word_eq : word = field ++ (run ++ rest)
  field_plain : ∀ c ∈ field, e.isOperatorChar c = false
  run_nonempty : run ≠ []
  run_operator : ∀ c ∈ run, e.isOperatorChar c = true
  rest_head : ∀ c ∈ rest.head?, e.isOperatorChar c = false

/-- What is wrong with a word: of the faults that it has, the one that is looked for first. -/
inductive Fault (e : Entity) (word : List Char) : Reason → Prop
  | noOperator : (∀ c ∈ word, e.isOperatorChar c = false) → Fault e word .noOperator
  | missingField {run rest : List Char} : Parts e word [] run rest → Fault e word .missingField
  | missingValue {field run : List Char} : Parts e word field run [] → field ≠ [] →
    Fault e word .missingValue
  | secondOperator {field run rest : List Char} : Parts e word field run rest → field ≠ [] →
    (∃ c ∈ rest, e.isOperatorChar c = true) → Fault e word .secondOperator
  | unknownOperator {field run rest : List Char} : Parts e word field run rest → field ≠ [] →
    IsSide e rest → (∀ o, e.allows o = true → o.symbol.toList ≠ run) →
    Fault e word (.unknownOperator (String.ofList run))

section
variable {e : Entity} {word : List Char}

theorem exists_parts (h : ∃ c ∈ word, e.isOperatorChar c = true) :
    ∃ field run rest, Parts e word field run rest := by
  obtain ⟨field, tail, hword, hfield, htail⟩ := exists_span (fun c => !e.isOperatorChar c) word
  obtain ⟨run, rest, htr, hrun, hrest⟩ := exists_span e.isOperatorChar tail
  subst htr
  have hfield : ∀ c ∈ field, e.isOperatorChar c = false := by simpa using hfield
  refine ⟨field, run, rest, hword, hfield, fun hn => ?_, hrun, hrest⟩
  -- without a run the rest would have to be empty, and the word plain
  subst hn
  have hnil : rest = [] := by
    cases rest with
    | nil => rfl
    | cons d rest =>
      have h1 := hrest d rfl
      have h2 := htail d rfl
      simp [h1] at h2
  subst hnil
  obtain ⟨c, hc, hop⟩ := h
  rw [hword, List.append_nil, List.append_nil] at hc
  rw [hfield c hc] at hop
  cases hop

theorem ofWord_of_plain (h : ∀ c ∈ word, e.isOperatorChar c = false) :
    ofWord e word = .error (.malformed (String.ofList word) .noOperator) := by
  have hrest : word.dropWhile (fun c => !e.isOperatorChar c) = [] := by
    rw [List.dropWhile_eq_nil_iff]
    intro c hc
    simp [h c hc]
  unfold ofWord
  simp only [hrest, ite_true]

theorem ofWord_of_parts {field run rest : List Char} (h : Parts e word field run rest) :
    ofWord e word =
      if field = [] then .error (.malformed (String.ofList word) .missingField)
      else if rest = [] then .error (.malformed (String.ofList word) .missingValue)
      else if rest.any e.isOperatorChar then .error (.malformed (String.ofList word) .secondOperator)
      else
        ((Operator.ofSymbol? (String.ofList run)).filter e.allows).elim
          (.error (.malformed (String.ofList word) (.unknownOperator (String.ofList run))))
          fun o => .ok ⟨String.ofList field, o, String.ofList rest⟩ := by
  have hfield : ∀ c ∈ field, (!e.isOperatorChar c) = true := by simpa using h.field_plain
  have htail : ∀ c ∈ (run ++ rest).head?, (!e.isOperatorChar c) = false := by
    rw [List.head?_append_of_ne_nil _ h.run_nonempty]
    intro c hc
    simp [h.run_operator c (List.mem_of_mem_head? hc)]
  obtain ⟨h1, h2⟩ := span_append hfield htail
  obtain ⟨h3, h4⟩ := span_append h.run_operator h.rest_head
  have hne : run ++ rest ≠ [] := List.append_ne_nil_of_left_ne_nil h.run_nonempty rest
  -- the word is cut where the parts meet
  rw [← h.word_eq] at h1 h2
  unfold ofWord
  simp only [h1, h2, h3, h4, hne, ite_false]
  cases (Operator.ofSymbol? (String.ofList run)).filter e.allows with
  | none => rfl
  | some o => rfl

/-! ## Words that spell a clause -/

theorem Spells.parts {c : Clause} (h : Spells e word c) :
    Parts e word c.field.toList c.operator.symbol.toList c.value.toList := by
  refine ⟨?_, h.field.plain, c.operator.symbol_ne_nil, Entity.isOperatorChar_symbol h.allowed, fun d hd => ?_⟩
  · rw [h.word_eq, toList_text]
  · exact h.value.plain d (List.mem_of_mem_head? hd)

theorem not_any_operator {s : List Char} :
    ¬ s.any e.isOperatorChar = true ↔ ∀ c ∈ s, e.isOperatorChar c = false := by
  simp

theorem allowed_symbol_iff {run : List Char} {o : Operator} :
    (Operator.ofSymbol? (String.ofList run)).filter e.allows = some o ↔
      o.symbol.toList = run ∧ e.allows o = true := by
  rw [Option.filter_eq_some_iff, Operator.ofSymbol?_eq_some_iff]
  refine and_congr_left fun _ => ⟨fun h => ?_, fun h => ?_⟩
  · rw [h, String.toList_ofList]
  · rw [← h, String.ofList_toList]

theorem no_allowed_symbol_iff {run : List Char} :
    (Operator.ofSymbol? (String.ofList run)).filter e.allows = none ↔
      ∀ o, e.allows o = true → o.symbol.toList ≠ run := by
  rw [Option.eq_none_iff_forall_ne_some]
  refine forall_congr' fun o => ?_
  rw [ne_eq, allowed_symbol_iff]
  exact ⟨fun h ha hs => h ⟨hs, ha⟩, fun h hs => h hs.2 hs.1⟩

theorem ofWord_of_spells {c : Clause} (h : Spells e word c) : ofWord e word = .ok c := by
  have hsym : (Operator.ofSymbol? (String.ofList c.operator.symbol.toList)).filter e.allows = some c.operator :=
    allowed_symbol_iff.mpr ⟨rfl, h.allowed⟩
  rw [ofWord_of_parts h.parts, if_neg h.field.nonempty, if_neg h.value.nonempty,
    if_neg (not_any_operator.mpr h.value.plain), hsym, Option.elim_some]
  simp only [String.ofList_toList]

theorem ofWord_of_fault {reason : Reason} (h : Fault e word reason) :
    ofWord e word = .error (.malformed (String.ofList word) reason) := by
  cases h with
  | noOperator h => exact ofWord_of_plain h
  | missingField h => rw [ofWord_of_parts h, if_pos rfl]
  | missingValue h hf => rw [ofWord_of_parts h, if_neg hf, if_pos rfl]
  | secondOperator h hf hop =>
    obtain ⟨c, hc, hop⟩ := hop
    rw [ofWord_of_parts h, if_neg hf, if_neg (List.ne_nil_of_mem hc),
      if_pos (List.any_eq_true.mpr ⟨c, hc, hop⟩)]
  | unknownOperator h hf hr hsym =>
    rw [ofWord_of_parts h, if_neg hf, if_neg hr.nonempty, if_neg (not_any_operator.mpr hr.plain),
      no_allowed_symbol_iff.mpr hsym, Option.elim_none]

theorem spells_or_fault (e : Entity) (word : List Char) :
    (∃ c, Spells e word c) ∨ ∃ reason, Fault e word reason := by
  by_cases hop : ∃ c ∈ word, e.isOperatorChar c = true
  · obtain ⟨field, run, rest, h⟩ := exists_parts hop
    -- the faults in the order in which they are looked for
    by_cases hf : field = []
    · subst hf
      exact Or.inr ⟨_, .missingField h⟩
    by_cases hr : rest = []
    · subst hr
      exact Or.inr ⟨_, .missingValue h hf⟩
    by_cases h2 : ∃ c ∈ rest, e.isOperatorChar c = true
    · exact Or.inr ⟨_, .secondOperator h hf h2⟩
    have hrest : IsSide e rest := ⟨hr, by simpa using h2⟩
    cases hsym : (Operator.ofSymbol? (String.ofList run)).filter e.allows with
    | none => exact Or.inr ⟨_, .unknownOperator h hf hrest (no_allowed_symbol_iff.mp hsym)⟩
    | some o =>
      obtain ⟨hs, ha⟩ := allowed_symbol_iff.mp hsym
      refine Or.inl ⟨⟨String.ofList field, o, String.ofList rest⟩, ?_, ?_, ?_, ha⟩
      · simp only [text, String.toList_append, String.toList_ofList, hs, h.word_eq, List.append_assoc]
      · rw [String.toList_ofList]
        exact ⟨hf, h.field_plain⟩
      · rw [String.toList_ofList]
        exact hrest
  · refine Or.inr ⟨_, .noOperator ?_⟩
    simpa using hop

theorem ofWord_ok_iff {c : Clause} : ofWord e word = .ok c ↔ Spells e word c := by
  refine ⟨fun h => ?_, ofWord_of_spells⟩
  rcases spells_or_fault e word with ⟨d, hd⟩ | ⟨reason, hr⟩
  · rw [ofWord_of_spells hd, Except.ok.injEq] at h
    exact h ▸ hd
  · rw [ofWord_of_fault hr] at h
    cases h

theorem ofWord_error_iff {r : Refusal} : ofWord e word = .error r ↔
    ∃ reason, Fault e word reason ∧ r = .malformed (String.ofList word) reason := by
  refine ⟨fun h => ?_, fun h => ?_⟩
  · rcases spells_or_fault e word with ⟨d, hd⟩ | ⟨reason, hr⟩
    · rw [ofWord_of_spells hd] at h
      cases h
    · rw [ofWord_of_fault hr, Except.error.injEq] at h
      exact ⟨reason, hr, h.symm⟩
  · obtain ⟨reason, hr, e⟩ := h
    rw [ofWord_of_fault hr, e]

theorem spells_unique {c d : Clause} (hc : Spells e word c) (hd : Spells e word d) : c = d := by
  have := ofWord_of_spells hc
  rw [ofWord_of_spells hd, Except.ok.injEq] at this
  exact this.symm

theorem not_spells_of_fault {reason : Reason} (h : Fault e word reason) (c : Clause) : ¬ Spells e word c := by
  intro hc
  have := ofWord_of_spells hc
  rw [ofWord_of_fault h] at this
  cases this

end

/-! ## Texts -/

section
variable {e : Entity} {s : String}

theorem ofText_ok_iff {cs : List Clause} :
    ofText e s = .ok cs ↔ List.Forall₂ (Spells e) (words (lower s.toList)) cs := by
  rw [ofText, mapM_ok_iff]
  simp only [ofWord_ok_iff]

theorem ofText_isOk_iff : (∃ cs, ofText e s = .ok cs) ↔ ∀ w ∈ words (lower s.toList), ∃ c, Spells e w c := by
  unfold ofText
  rw [mapM_isOk_iff]
  simp only [ofWord_ok_iff]

theorem ofText_error_iff {r : Refusal} : ofText e s = .error r ↔
    ∃ good w later, words (lower s.toList) = good ++ w :: later ∧ (∀ g ∈ good, ∃ c, Spells e g c) ∧
      ∃ reason, Fault e w reason ∧ r = .malformed (String.ofList w) reason := by
  rw [ofText, mapM_error_iff]
  simp only [ofWord_ok_iff, ofWord_error_iff]

end

/-- A filter text is read when all its words, in lower case, spell clauses, and its clauses are these,
each word spelling one at most. Otherwise the first word that spells none is refused, for the first
fault that it has. Which characters operators are made of, and which operators there are, depends on
the entity. -/
theorem ofText_iff_spelled (e : Entity) (s : String) : ∃ ws, Spaced ws (lower s.toList) ∧
    (∀ vs, Spaced vs (lower s.toList) → vs = ws) ∧
    (∀ c, e.isOperatorChar c = true ↔ c ∈ ['<', '>', '=', '!'] ∨ c = '/' ∧ e ≠ .beatmap) ∧
    (∀ t, (∃ o, e.allows o = true ∧ o.symbol = t) ↔
      t ∈ ["=", "!=", ">", "<", ">=", "<="] ∨ t = "/" ∧ e ≠ .beatmap) ∧
    ((∃ cs, ofText e s = .ok cs) ↔ ∀ w ∈ ws, ∃ c, Spells e w c) ∧
    (∀ w c d, Spells e w c → Spells e w d → c = d) ∧
    (∀ cs, ofText e s = .ok cs ↔ List.Forall₂ (Spells e) ws cs) ∧
    ∀ r, ofText e s = .error r ↔ ∃ good w later, ws = good ++ w :: later ∧
      (∀ g ∈ good, ∃ c, Spells e g c) ∧ (∀ c, ¬ Spells e w c) ∧
      ∃ reason, Fault e w reason ∧ r = .malformed (String.ofList w) reason := by
  refine ⟨words (lower s.toList), words_eq_iff.mp rfl, fun vs h => (words_of_spaced h).symm,
    fun c => Entity.isOperatorChar_iff, fun t => Entity.exists_allowed_symbol_iff, ofText_isOk_iff,
    fun w c d => spells_unique, fun cs => ofText_ok_iff, fun r => ?_⟩
  rw [ofText_error_iff]
  refine exists_congr fun good => exists_congr fun w => exists_congr fun later =>
    and_congr_right fun _ => and_congr_right fun _ => ⟨fun h => ?_, fun h => h.2⟩
  obtain ⟨reason, hf, hr⟩ := h
  exact ⟨not_spells_of_fault hf, reason, hf, hr⟩

example : ofText .score "PP>1 pp=>1 pp" = .error (.malformed "pp=>1" (.unknownOperator "=>")) := by
  decide +kernel

end Clause

end RhythmFilter
