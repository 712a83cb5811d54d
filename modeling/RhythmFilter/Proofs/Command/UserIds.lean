import RhythmFilter.Proofs.Command.Words
import RhythmFilter.Proofs.Query.Shown
import RhythmFilter.Proofs.Text.Decimal

/-!
# Numbers of users

The words behind `users` are numbers in decimal with commas between them. A number may be written with a
sign and with zeros in front; the predicate that asks for the users holds each number in its one canonical
text, from which the number is read again.
-/

namespace RhythmFilter

open Text

/-- The piece is this number in decimal, and the number fits into 64 bits with its sign. -/
def IsUserId (piece : List Char) (i : Int) : Prop := Denotes piece i ∧ -2 ^ 63 ≤ i ∧ i ≤ 2 ^ 63 - 1

/-- What stands between the commas, without the blanks at its ends; pieces of nothing but blanks do not
count. -/
def IdPieces (ws : List String) (pieces : List (List Char)) : Prop :=
  ∃ parts, CommaCut (",".intercalate ws).toList parts ∧ pieces = (parts.map trim).filter (· ≠ [])

theorem isInt64_iff {i : Int} : IsInt64 i ↔ -2 ^ 63 ≤ i ∧ i ≤ 2 ^ 63 - 1 := by
  unfold IsInt64
  omega

/-! ## Reading pieces -/

theorem readInt64?_eq_some {piece : List Char} {i : Int} : readInt64? piece = some i ↔ IsUserId piece i := by
  rw [readInt64?_eq_some_iff, isInt64_iff, IsUserId]

theorem userId_ok_iff {piece : List Char} {i : Int} : userId piece = .ok i ↔ IsUserId piece i := by
  rw [← readInt64?_eq_some]
  unfold userId
  cases readInt64? piece with
  | none => simp
  | some j => simp

theorem userId_error_iff {piece : List Char} {fault : UsageFault} :
    userId piece = .error fault ↔ (∀ i, ¬ IsUserId piece i) ∧ fault = .invalidUserId (String.ofList piece) := by
  simp only [← readInt64?_eq_some]
  unfold userId
  cases readInt64? piece with
  | none => simp [eq_comm]
  | some j => simp

theorem userIds_joined {ws : List String} {pieces : List (List Char)} (h : IdPieces ws pieces) :
    userIds (",".intercalate ws) = pieces.mapM userId := by
  obtain ⟨parts, hparts, e⟩ := h
  unfold userIds
  rw [commaPieces_eq_iff.mpr hparts, e]

section
variable {o : Options} {ws : List String} (hws : ∀ w ∈ ws, w ∉ optionWords) {pieces : List (List Char)}
  (hpieces : IdPieces ws pieces)
include hws hpieces

theorem readArguments_users :
    readArguments (optionArguments o ++ Verb.users.name :: ws) =
      (pieces.mapM userId).map fun ids => (.users ids, o) := by
  rw [readArguments_options o .users hws]
  unfold Command.ofWords
  rw [userIds_joined hpieces]
  cases pieces.mapM userId with
  | error fault => rfl
  | ok ids => rfl

theorem readArguments_users_ok_iff {ids : List Int} :
    readArguments (optionArguments o ++ Verb.users.name :: ws) = .ok (.users ids, o) ↔
      List.Forall₂ IsUserId pieces ids := by
  rw [readArguments_users hws hpieces, map_ok_iff]
  simp only [Prod.mk.injEq, Command.users.injEq, and_true, exists_eq_right, mapM_ok_iff, userId_ok_iff]

theorem readArguments_users_error_iff {fault : UsageFault} :
    readArguments (optionArguments o ++ Verb.users.name :: ws) = .error fault ↔
      ∃ before piece after, pieces = before ++ piece :: after ∧ (∀ p ∈ before, ∃ i, IsUserId p i) ∧
        (∀ i, ¬ IsUserId piece i) ∧ fault = .invalidUserId (String.ofList piece) := by
  have herror : readArguments (optionArguments o ++ Verb.users.name :: ws) = .error fault ↔
      pieces.mapM userId = .error fault := by
    rw [readArguments_users hws hpieces]
    cases pieces.mapM userId with
    | error e => simp [Except.map]
    | ok ids => simp [Except.map]
  simp only [herror, mapM_error_iff, userId_ok_iff, userId_error_iff]

end

/-! ## Canonical texts -/

theorem forall₂_canonical_iff {texts : List String} {ids : List Int} :
    List.Forall₂ (fun t i => Canonical t.toList i) texts ids ↔
    texts = ids.map fun i => String.ofList (writeInt i) := by
  have htext : ∀ (t : String) i, Canonical t.toList i ↔ t = String.ofList (writeInt i) := by
    intro t i
    rw [canonical_iff, ← String.toList_inj, String.toList_ofList]
  simp only [htext]
  rw [← List.forall₂_eq_eq_eq, List.forall₂_map_right_iff]

theorem writeInt_ne_nil (i : Int) : writeInt i ≠ [] := by
  cases i with
  | ofNat n => exact (isNumeral_digitsOfNat n).1
  | negSucc n => exact List.cons_ne_nil _ _

theorem digit_of_mem_writeInt (i : Int) : ∀ c ∈ writeInt i, isDigit c = true ∨ c = '-' := by
  intro c hc
  cases i with
  | ofNat n => exact Or.inl ((isNumeral_digitsOfNat n).2 c hc)
  | negSucc n =>
    rcases List.mem_cons.mp hc with e | hc
    · exact Or.inr e
    · exact Or.inl ((isNumeral_digitsOfNat (n + 1)).2 c hc)

section
variable {ids : List Int} {texts : List String} (h : List.Forall₂ (fun t i => Canonical t.toList i) texts ids)
include h

theorem written_of_mem : ∀ t ∈ texts, ∃ i, t.toList = writeInt i := by
  intro t ht
  rw [forall₂_canonical_iff.mp h] at ht
  obtain ⟨i, _, e⟩ := List.mem_map.mp ht
  exact ⟨i, by rw [← e, String.toList_ofList]⟩

theorem numbers_not_option : ",".intercalate texts ∉ optionWords := by
  apply joined_not_option
  intro t ht
  obtain ⟨i, e⟩ := written_of_mem h t ht
  rw [e]
  refine ⟨fun hc => ?_, fun hc => ?_⟩
  · exact absurd (digit_of_mem_writeInt i _ hc) (by decide)
  · exact absurd (digit_of_mem_writeInt i _ hc) (by decide)

theorem idPieces_joined : IdPieces [",".intercalate texts] (texts.map String.toList) := by
  refine ⟨_, commaPieces_eq_iff.mp rfl, ?_⟩
  rw [String.intercalate_singleton]
  refine (trimmed_commaPieces_joined fun t ht => ?_).symm
  obtain ⟨i, e⟩ := written_of_mem h t ht
  rw [e]
  refine ⟨fun hempty => ?_, fun hcomma => (writeInt_plain i ',' hcomma).2 rfl,
    fun c hc => (writeInt_plain i c hc).1⟩
  apply writeInt_ne_nil i
  rw [← e, hempty]
  rfl

theorem isUserId_of_canonical (hids : ∀ i ∈ ids, -2 ^ 63 ≤ i ∧ i ≤ 2 ^ 63 - 1) :
    List.Forall₂ (fun t i => Canonical t.toList i ∧ IsUserId t.toList i) texts ids := by
  induction h with
  | nil => exact .nil
  | cons ht _ ih =>
    obtain ⟨hi, hids⟩ := List.forall_mem_cons.mp hids
    exact .cons ⟨ht, ht.denotes, hi⟩ (ih hids)

theorem readArguments_joined (hids : ∀ i ∈ ids, -2 ^ 63 ≤ i ∧ i ≤ 2 ^ 63 - 1) (o : Options) :
    readArguments (optionArguments o ++ [Verb.users.name, ",".intercalate texts]) = .ok (.users ids, o) := by
  have hws : ∀ w ∈ [",".intercalate texts], w ∉ optionWords := by simpa using numbers_not_option h
  rw [readArguments_users_ok_iff hws (idPieces_joined h), List.forall₂_map_left_iff]
  exact (isUserId_of_canonical h hids).imp fun _ _ ht => ht.2

theorem userFilters_eq (m : Mode) :
    userFilters m ids = if ids = [] then [] else [.oneOf (.score m .userId) texts] := by
  rw [userFilters, forall₂_canonical_iff.mp h]

end

theorem bounds_of_pieces {pieces : List (List Char)} {ids : List Int} (h : List.Forall₂ IsUserId pieces ids) :
    ∀ i ∈ ids, -2 ^ 63 ≤ i ∧ i ≤ 2 ^ 63 - 1 := by
  induction h with
  | nil => simp
  | cons hi _ ih => exact List.forall_mem_cons.mpr ⟨hi.2, ih⟩

/-- The words behind `users` are read as the numbers that their pieces are, or the first piece that is none
is named. The numbers are asked for in one predicate, or in none if there is no number, and stand there in
canonical texts that are read as the same numbers; so are these texts with commas between them, for any
numbers of 64 bits. -/
theorem user_ids_arrive {preferred : Preferences} {o : Options} {m : Mode}
    (hm : Command.effectiveMode preferred o = .ok m) {ws : List String} (hws : ∀ w ∈ ws, w ∉ optionWords)
    {pieces : List (List Char)} (hpieces : IdPieces ws pieces) :
    (∀ ids, readArguments (optionArguments o ++ Verb.users.name :: ws) = .ok (.users ids, o) ↔
      List.Forall₂ IsUserId pieces ids) ∧
    (∀ fault, readArguments (optionArguments o ++ Verb.users.name :: ws) = .error fault ↔
      ∃ before piece after, pieces = before ++ piece :: after ∧ (∀ p ∈ before, ∃ i, IsUserId p i) ∧
        (∀ i, ¬ IsUserId piece i) ∧ fault = .invalidUserId (String.ofList piece)) ∧
    (∀ ids, List.Forall₂ IsUserId pieces ids →
      ∃ texts, List.Forall₂ (fun t i => Canonical t.toList i ∧ IsUserId t.toList i) texts ids ∧
        ∃ ps, ps = (if ids = [] then [] else [⟨.score m .userId, .oneOf, .list texts⟩]) ∧
          (Command.users ids).report m = .ok (.predicates ps) ∧
          Runs preferred (optionArguments o ++ Verb.users.name :: ws)
            (.ok ((Report.predicates ps).render (o.json || preferred.json)))) ∧
    ∀ ids : List Int, (∀ i ∈ ids, -2 ^ 63 ≤ i ∧ i ≤ 2 ^ 63 - 1) →
      ∀ texts : List String, List.Forall₂ (fun t i => Canonical t.toList i) texts ids →
        readArguments (optionArguments o ++ [Verb.users.name, ",".intercalate texts]) =
        .ok (.users ids, o) := by
  refine ⟨fun ids => readArguments_users_ok_iff hws hpieces,
    fun fault => readArguments_users_error_iff hws hpieces,
    fun ids hids => ?_, fun ids hids texts h => readArguments_joined h hids o⟩
  have hcanonical : List.Forall₂ (fun (t : String) i => Canonical t.toList i) _ ids :=
    forall₂_canonical_iff.mpr rfl
  have hreport : (Command.users ids).report m = .ok (.predicates _) :=
    congrArg (fun ps => Except.ok (Report.predicates ps)) (userFilters_eq hcanonical m)
  have hwords : Command.ofWords ws .users = .ok (.users ids) := by
    unfold Command.ofWords
    rw [userIds_joined hpieces, mapM_ok_iff.mpr (hids.imp fun _ _ => userId_ok_iff.mpr)]
    rfl
  have hruns := runs_words hm hws hwords
  rw [hreport] at hruns
  exact ⟨_, isUserId_of_canonical hcanonical (bounds_of_pieces hids), _, rfl, hreport, hruns⟩

theorem user_ids_arrive_extremes : Command.effectiveMode {} { mode := some "3" } = .ok .mania ∧
    readArguments ["--mode", "3", "users", " +007 ,,-9223372036854775808", "9223372036854775807"] =
      .ok (.users [7, -2 ^ 63, 2 ^ 63 - 1], { mode := some "3" }) ∧
    Runs {} ["--mode", "3", "users", " +007 ,,-9223372036854775808", "9223372036854775807"]
      (.ok "mania_scores.user_id / [7, -9223372036854775808, 9223372036854775807]\n") ∧
    readArguments ["--mode", "3", "users", "-0", "9223372036854775808", "x"] =
      .error (.invalidUserId "9223372036854775808") := by
  have hm : Command.effectiveMode {} { mode := some "3" } = .ok .mania := by decide
  have hws : ∀ w ∈ [" +007 ,,-9223372036854775808", "9223372036854775807"], w ∉ optionWords := by decide
  have hpieces : IdPieces [" +007 ,,-9223372036854775808", "9223372036854775807"]
      ["+007".toList, "-9223372036854775808".toList, "9223372036854775807".toList] :=
    ⟨_, commaPieces_eq_iff.mp rfl, by decide +kernel⟩
  have hids : List.Forall₂ IsUserId ["+007".toList, "-9223372036854775808".toList, "9223372036854775807".toList]
      [7, -2 ^ 63, 2 ^ 63 - 1] := by
    have hread : ∀ {t : String} {i : Int}, readInt64? t.toList = some i → IsUserId t.toList i :=
      readInt64?_eq_some.mp
    exact .cons (hread (by decide)) (.cons (hread (by decide)) (.cons (hread (by decide)) .nil))
  have hws' : ∀ w ∈ ["-0", "9223372036854775808", "x"], w ∉ optionWords := by decide
  have hpieces' : IdPieces ["-0", "9223372036854775808", "x"]
      ["-0".toList, "9223372036854775808".toList, "x".toList] :=
    ⟨_, commaPieces_eq_iff.mp rfl, by decide +kernel⟩
  obtain ⟨hok, _, hruns, _⟩ := user_ids_arrive hm hws hpieces
  obtain ⟨_, herror, _⟩ := user_ids_arrive hm hws' hpieces'
  obtain ⟨texts, htexts, ps, e, _, hruns⟩ := hruns _ hids
  refine ⟨hm, (hok _).mpr hids, ?_, (herror _).mpr ?_⟩
  · have hps : ps = [.oneOf (.score .mania .userId) ["7", "-9223372036854775808", "9223372036854775807"]] := by
      rw [e, forall₂_canonical_iff.mp (htexts.imp fun _ _ h => h.1)]
      decide +kernel
    have hout : (Report.predicates ps).render false =
        "mania_scores.user_id / [7, -9223372036854775808, 9223372036854775807]\n" := by
      rw [hps]
      decide +kernel
    rw [← hout]
    exact hruns
  · have hzero : ∃ i, IsUserId "-0".toList i := ⟨0, readInt64?_eq_some.mp (by decide)⟩
    have hnone : readInt64? "9223372036854775808".toList = none := by decide
    refine ⟨["-0".toList], _, ["x".toList], rfl, by simpa using hzero, fun i hi => ?_, by decide⟩
    have := readInt64?_eq_some.mpr hi
    rw [hnone] at this
    cases this

end RhythmFilter
