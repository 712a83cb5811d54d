import Mathlib.Data.List.Nodup
import RhythmFilter.Proofs.Json.ReadBack
import RhythmFilter.Proofs.Query.ReadBack

/-!
# Predicates as they are shown

A predicate is shown to people without quotes: its handle, its operator and its operand stand with
spaces between them, and the entries of a list with commas and spaces. The parts can be told apart if no
text that a column is compared with has a blank and no entry of a list has a comma, and this holds of
the predicates that filter texts and lists of users ask for. In JSON the parts of every predicate can be
told apart.
-/

namespace RhythmFilter

open Text

/-! ## Handles and operators -/

theorem Mode.scoreTable_injective {m n : Mode} (h : m.scoreTable = n.scoreTable) : m = n :=
  List.inj_on_of_nodup_map (f := scoreTable) (by decide : (all.map scoreTable).Nodup) m.mem_all n.mem_all h

theorem Mode.scoreTable_ne (m : Mode) : m.scoreTable ≠ "beatmaps" ∧ m.scoreTable ≠ "beatmapsets" := by
  cases m <;> decide

theorem Mode.plain_scoreTable (m : Mode) : ∀ c ∈ m.scoreTable.toList, isBlank c = false ∧ c ≠ '.' := by
  refine forall_of_all ?_
  cases m <;> decide +kernel

theorem ScoreField.plain_column (f : ScoreField) : ∀ c ∈ f.column.toList, isBlank c = false := by
  refine forall_of_all ?_
  cases f <;> decide +kernel

theorem BeatmapField.plain_column (f : BeatmapField) : ∀ c ∈ f.column.toList, isBlank c = false := by
  refine forall_of_all ?_
  cases f <;> decide +kernel

theorem BeatmapsetField.plain_name (f : BeatmapsetField) : ∀ c ∈ f.name.toList, isBlank c = false := by
  refine forall_of_all ?_
  cases f <;> decide +kernel

namespace Handle
variable {h k : Handle}

theorem eq_of_table_column (ht : h.table = k.table) (hc : h.column = k.column) : h = k := by
  cases h with
  | score m f =>
    cases k with
    | score n g => rw [Mode.scoreTable_injective ht, FieldList.column_injective hc]
    | beatmap g => exact absurd ht m.scoreTable_ne.1
    | beatmapset g => exact absurd ht m.scoreTable_ne.2
  | beatmap f =>
    cases k with
    | score n g => exact absurd ht.symm n.scoreTable_ne.1
    | beatmap g => rw [FieldList.column_injective hc]
    | beatmapset g => exact absurd ht (by decide : "beatmaps" ≠ "beatmapsets")
  | beatmapset f =>
    cases k with
    | score n g => exact absurd ht.symm n.scoreTable_ne.2
    | beatmap g => exact absurd ht.symm (by decide : "beatmaps" ≠ "beatmapsets")
    | beatmapset g => rw [FieldList.column_injective hc]

theorem plain_table (h : Handle) : ∀ c ∈ h.table.toList, isBlank c = false ∧ c ≠ '.' := by
  cases h with
  | score m f => exact m.plain_scoreTable
  | beatmap f => exact forall_of_all (s := "beatmaps".toList) (by decide +kernel)
  | beatmapset f => exact forall_of_all (s := "beatmapsets".toList) (by decide +kernel)

theorem plain_column (h : Handle) : ∀ c ∈ h.column.toList, isBlank c = false := by
  cases h with
  | score m f => exact f.plain_column
  | beatmap f => exact f.plain_column
  | beatmapset f => exact f.plain_name

theorem toList_text (h : Handle) : h.text.toList = h.table.toList ++ '.' :: h.column.toList := by
  rw [text, String.toList_append, String.toList_append, List.append_assoc]
  rfl

theorem plain_text (h : Handle) : ∀ c ∈ h.text.toList, isBlank c = false := by
  rw [toList_text]
  intro c hc
  rcases List.mem_append.mp hc with hc | hc
  · exact (h.plain_table c hc).1
  · rcases List.mem_cons.mp hc with e | hc
    · rw [e]; decide +kernel
    · exact h.plain_column c hc

theorem text_injective (e : h.text = k.text) : h = k := by
  have hpoint : ∀ h : Handle, '.' ∉ h.table.toList := fun h hc => (h.plain_table '.' hc).2 rfl
  have htext := congrArg String.toList e
  rw [toList_text, toList_text] at htext
  obtain ⟨ht, hc⟩ := eq_of_append_cons (hpoint h) (hpoint k) htext
  exact eq_of_table_column (String.toList_injective ht) (String.toList_injective hc)

theorem toJson_injective (e : h.toJson = k.toJson) : h = k := by
  simp only [toJson, Json.Tree.object.injEq, List.cons.injEq, Prod.mk.injEq, Json.Tree.string.injEq, true_and,
    and_true] at e
  exact eq_of_table_column e.1 e.2

end Handle

theorem Operator.symbol_injective {o o' : Operator} (h : o.symbol = o'.symbol) : o = o' :=
  Option.some.inj (by rw [← ofSymbol?_symbol o, h, ofSymbol?_symbol])

theorem Operator.name_injective {o o' : Operator} (h : o.name = o'.name) : o = o' :=
  List.inj_on_of_nodup_map (f := name) (by decide : (all.map name).Nodup) o.mem_all o'.mem_all h

theorem Operator.plain_symbol (o : Operator) : ∀ c ∈ o.symbol.toList, isBlank c = false :=
  fun c hc => (Clause.isSmall_symbol o c hc).2

/-! ## Predicates that can be told apart -/

/-- What stands in the predicate cannot be taken for what is written around it. -/
structure Predicate.Legible (p : Predicate) : Prop where
  list_iff : (∃ entries, p.operand = .list entries) ↔ p.operator = .oneOf
  texts_ne_nil : p.operand.texts ≠ []
  no_blank : ∀ a ∈ p.operand.texts, ∀ c ∈ a.toList, isBlank c = false
  no_comma : ∀ entries, p.operand = .list entries → ∀ a ∈ entries, ',' ∉ a.toList

theorem Predicate.Settled.legible {t : Subject} {p : Predicate} (h : p.Settled t) : p.Legible :=
  ⟨h.list_iff, h.texts_nonempty.1, fun a ha c hc => (h.plain a ha c hc).1, h.no_comma⟩

theorem legible_of_filters {t : Subject} {s : String} {ps : List Predicate} (h : t.filters s = .ok ps) :
    ∀ p ∈ ps, p.Legible := by
  intro p hp
  obtain ⟨c, hc, hcp⟩ := exists_clause_of_filters h p hp
  exact (settled_of_resolves hc hcp).legible

theorem isCapital_digitsOfNat (n : Nat) : ∀ c ∈ digitsOfNat n, isCapital c = true := by
  have hdigit : ∀ d < 10, isCapital (digitChar d) = true := by decide +kernel
  fun_induction digitsOfNat n with
  | case1 n hn => simpa using hdigit n hn
  | case2 n hn ih =>
    intro c hc
    rcases List.mem_append.mp hc with hc | hc
    · exact ih c hc
    · rw [List.mem_singleton.mp hc]
      exact hdigit _ (Nat.mod_lt _ (by decide))

theorem writeInt_plain (i : Int) : ∀ c ∈ writeInt i, isBlank c = false ∧ c ≠ ',' := by
  have hcapital : ∀ c, isCapital c = true → isBlank c = false ∧ c ≠ ',' :=
    fun c hc => ⟨isBlank_capital hc, fun e => absurd hc (by rw [e]; decide)⟩
  cases i with
  | ofNat n => exact fun c hc => hcapital c (isCapital_digitsOfNat n c hc)
  | negSucc n =>
    refine List.forall_mem_cons.mpr ⟨by decide +kernel, fun c hc => ?_⟩
    exact hcapital c (isCapital_digitsOfNat (n + 1) c hc)

theorem legible_of_users {m : Mode} {ids : List Int} : ∀ p ∈ userFilters m ids, p.Legible := by
  intro p hp
  unfold userFilters at hp
  split at hp
  · cases hp
  · rename_i hne
    rw [List.mem_singleton.mp hp]
    have hplain : ∀ a ∈ ids.map (fun id => String.ofList (writeInt id)),
        ∀ c ∈ a.toList, isBlank c = false ∧ c ≠ ',' := by
      intro a ha
      obtain ⟨i, _, e⟩ := List.mem_map.mp ha
      rw [← e, String.toList_ofList]
      exact writeInt_plain i
    refine ⟨⟨fun _ => rfl, fun _ => ⟨_, rfl⟩⟩, by simpa [Predicate.oneOf, Operand.texts] using hne, ?_, ?_⟩
    · exact fun a ha c hc => (hplain a ha c hc).1
    · intro entries e a ha hcomma
      exact (hplain a (Operand.list.inj e ▸ ha) ',' hcomma).2 rfl

/-! ## For people -/

/-- Entries with commas and spaces between them are entries with commas between them, all but the first
behind a space. -/
theorem intercalate_comma_space (p : List Char) : ∀ ps : List (List Char),
    [',', ' '].intercalate (p :: ps) = [','].intercalate (p :: ps.map (' ' :: ·))
  | [] => rfl
  | q :: ps => by
    rw [List.map_cons, List.intercalate_cons_cons, List.intercalate_cons_cons, intercalate_comma_space q ps]
    cases ps with
    | nil => simp
    | cons r rs => simp [List.intercalate_cons_cons]

theorem commaPieces_comma_space {p : List Char} {ps : List (List Char)} (h : ∀ q ∈ p :: ps, ',' ∉ q) :
    commaPieces ([',', ' '].intercalate (p :: ps)) = p :: ps.map (' ' :: ·) := by
  obtain ⟨hp, hps⟩ := List.forall_mem_cons.mp h
  rw [intercalate_comma_space]
  refine commaPieces_intercalate (List.cons_ne_nil _ _) (List.forall_mem_cons.mpr ⟨hp, fun q hq => ?_⟩)
  obtain ⟨r, hr, e⟩ := List.mem_map.mp hq
  rw [← e]
  simpa using hps r hr

theorem toList_listed (as : List String) :
    (", ".intercalate as).toList = [',', ' '].intercalate (as.map String.toList) := by
  rw [String.toList_intercalate]
  rfl

theorem listed_injective {as bs : List String} (hane : as ≠ []) (hbne : bs ≠ []) (ha : ∀ a ∈ as, ',' ∉ a.toList)
    (hb : ∀ b ∈ bs, ',' ∉ b.toList) (h : ", ".intercalate as = ", ".intercalate bs) : as = bs := by
  obtain ⟨a, as, e⟩ := List.exists_cons_of_ne_nil hane
  subst e
  obtain ⟨b, bs, e⟩ := List.exists_cons_of_ne_nil hbne
  subst e
  have hpieces := congrArg (fun s : String => commaPieces s.toList) h
  simp only [toList_listed, List.map_cons] at hpieces
  rw [commaPieces_comma_space (by simpa using ha), commaPieces_comma_space (by simpa using hb)] at hpieces
  obtain ⟨hfirst, hrest⟩ := List.cons.inj hpieces
  have hspaced : Function.Injective fun c : String => ' ' :: c.toList :=
    fun c d e => String.toList_injective (List.cons.inj e).2
  rw [List.map_map, List.map_map] at hrest
  rw [String.toList_injective hfirst, hspaced.list_map hrest]

theorem mem_listed {c : Char} {as : List String} (h : c ∈ (", ".intercalate as).toList) :
    c = ',' ∨ c = ' ' ∨ ∃ a ∈ as, c ∈ a.toList := by
  cases as with
  | nil => cases h
  | cons a as =>
    rw [toList_listed, List.map_cons, intercalate_comma_space] at h
    rcases mem_intercalate h with e | ⟨s, hs, hc⟩
    · exact Or.inl e
    · rcases List.mem_cons.mp hs with e | hs
      · exact Or.inr (Or.inr ⟨a, List.mem_cons_self, e ▸ hc⟩)
      · obtain ⟨t, ht, e⟩ := List.mem_map.mp hs
        obtain ⟨b, hb, e'⟩ := List.mem_map.mp ht
        subst e; subst e'
        exact Or.inr ((List.mem_cons.mp hc).imp_right fun hc => ⟨b, List.mem_cons_of_mem _ hb, hc⟩)

namespace Operand
variable {o o' : Operand}

theorem toList_text_list (entries : List String) :
    (list entries).text.toList = '[' :: ((", ".intercalate entries).toList ++ [']']) := by
  rw [text, String.toList_append, String.toList_append]
  rfl

theorem mem_text {c : Char} (h : c ∈ o.text.toList) :
    c ∈ ['[', ']', ',', ' '] ∨ ∃ a ∈ o.texts, c ∈ a.toList := by
  cases o with
  | single a => exact Or.inr ⟨a, List.mem_cons_self, h⟩
  | list as =>
    rw [toList_text_list] at h
    rcases List.mem_cons.mp h with e | h
    · exact Or.inl (by simp [e])
    · rcases List.mem_append.mp h with h | h
      · rcases mem_listed h with e | e | h
        · exact Or.inl (by simp [e])
        · exact Or.inl (by simp [e])
        · exact Or.inr h
      · exact Or.inl (by simp [List.mem_singleton.mp h])

theorem eq_of_text (hkind : (∃ as, o = .list as) ↔ ∃ bs, o' = .list bs) (hne : o.texts ≠ [])
    (hne' : o'.texts ≠ [])
    (hcomma : ∀ as, o = .list as → ∀ a ∈ as, ',' ∉ a.toList)
    (hcomma' : ∀ bs, o' = .list bs → ∀ b ∈ bs, ',' ∉ b.toList)
    (h : o.text = o'.text) : o = o' := by
  cases o with
  | single a =>
    cases o' with
    | single b => exact congrArg single h
    | list bs => simp at hkind
  | list as =>
    cases o' with
    | single b => simp at hkind
    | list bs =>
      have htext := congrArg String.toList h
      rw [toList_text_list, toList_text_list] at htext
      have hentries := String.toList_injective (List.append_cancel_right (List.cons.inj htext).2)
      exact congrArg list (listed_injective hne hne' (hcomma as rfl) (hcomma' bs rfl) hentries)

theorem toJson_injective (h : o.toJson = o'.toJson) : o = o' := by
  cases o with
  | single a =>
    cases o' with
    | single b => simpa [toJson] using h
    | list bs => cases h
  | list as =>
    cases o' with
    | single b => cases h
    | list bs =>
      rw [Json.Tree.string_injective.list_map (Json.Tree.array.inj h)]

end Operand

namespace Predicate
variable {p q : Predicate}

theorem toList_text (p : Predicate) : p.text.toList =
    p.handle.text.toList ++ ' ' :: (p.operator.symbol.toList ++ ' ' :: p.operand.text.toList) := by
  simp only [text, String.toList_append, List.append_assoc]
  rfl

theorem eq_of_parts (hh : p.handle = q.handle) (ho : p.operator = q.operator)
    (hoperand : p.operand = q.operand) :
    p = q := by
  cases p
  cases q
  simp_all

theorem no_space_handle (h : Handle) : ' ' ∉ h.text.toList :=
  fun hc => absurd (h.plain_text _ hc) (by decide +kernel)

theorem no_space_symbol (o : Operator) : ' ' ∉ o.symbol.toList :=
  fun hc => absurd (o.plain_symbol _ hc) (by decide +kernel)

theorem text_injective (hp : p.Legible) (hq : q.Legible) (h : p.text = q.text) : p = q := by
  have htext := congrArg String.toList h
  rw [toList_text, toList_text] at htext
  obtain ⟨hh, hrest⟩ := eq_of_append_cons (no_space_handle _) (no_space_handle _) htext
  obtain ⟨ho, hoperand⟩ := eq_of_append_cons (no_space_symbol _) (no_space_symbol _) hrest
  have ho := Operator.symbol_injective (String.toList_injective ho)
  have hkind : (∃ as, p.operand = .list as) ↔ ∃ bs, q.operand = .list bs := by rw [hp.list_iff, hq.list_iff, ho]
  refine eq_of_parts (Handle.text_injective (String.toList_injective hh)) ho ?_
  exact Operand.eq_of_text hkind hp.texts_ne_nil hq.texts_ne_nil hp.no_comma hq.no_comma
    (String.toList_injective hoperand)

theorem no_line_end (hp : p.Legible) : '\n' ∉ p.text.toList := by
  have hblank : isBlank '\n' = true := by decide +kernel
  rw [toList_text]
  intro h
  rcases List.mem_append.mp h with h | h
  · exact absurd (p.handle.plain_text _ h) (by simp [hblank])
  · rcases List.mem_cons.mp h with e | h
    · cases e
    · rcases List.mem_append.mp h with h | h
      · exact absurd (p.operator.plain_symbol _ h) (by simp [hblank])
      · rcases List.mem_cons.mp h with e | h
        · cases e
        · rcases Operand.mem_text h with h | ⟨a, ha, hc⟩
          · simp at h
          · exact absurd (hp.no_blank a ha _ hc) (by simp [hblank])

/-- A listing of nothing looks like no predicate: there is a point in front of the first space. -/
theorem text_ne_nothing (p : Predicate) : p.text ≠ "No filters" := by
  intro h
  have htext : p.handle.text.toList ++ ' ' :: (p.operator.symbol.toList ++ ' ' :: p.operand.text.toList) =
      "No".toList ++ ' ' :: "filters".toList := by
    rw [← toList_text, h]
    rfl
  obtain ⟨hhandle, _⟩ := eq_of_append_cons (no_space_handle _) (by decide) htext
  have hpoint : '.' ∈ p.handle.text.toList := by
    rw [Handle.toList_text]
    simp
  rw [hhandle] at hpoint
  exact absurd hpoint (by decide)

/-! ## In JSON -/

theorem numberless_toJson (p : Predicate) : Json.Numberless p.toJson := by
  have hhandle : Json.Numberless p.handle.toJson := .object (by simp [Json.Numberless.string])
  have hoperand : Json.Numberless p.operand.toJson := by
    cases p.operand with
    | single a => exact .string a
    | list as => exact .array (by simp [Json.Numberless.string])
  exact .object (by simp [hhandle, hoperand, Json.Numberless.string])

theorem toJson_injective (h : p.toJson = q.toJson) : p = q := by
  simp only [toJson, Json.Tree.object.injEq, List.cons.injEq, Prod.mk.injEq, Json.Tree.string.injEq, true_and,
    and_true] at h
  obtain ⟨hh, ho, hoperand⟩ := h
  exact eq_of_parts (Handle.toJson_injective hh) (Operator.name_injective ho)
    (Operand.toJson_injective hoperand)

end Predicate

end RhythmFilter
