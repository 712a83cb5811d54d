import RhythmFilter.Preferences.Store
import RhythmFilter.Proofs.Command.Words
import RhythmFilter.Proofs.Mode.Naming

/-!
# Preferences as defaults

A file of preferences is there or not, and if it is there it says something or not. Whatever it says fills in
the options that are not given; nothing else of it reaches a command.
-/

namespace RhythmFilter

/-! ## What a file says -/

namespace Preferences

/-- What there is to be read says these preferences, or none: it cannot be read, it is no text in UTF-8, or it
is a text that spells no preferences. -/
inductive Says : Option ByteArray → Option Preferences → Prop
  | unreadable : Says none none
  | noText {content : ByteArray} : (∀ text : String, text.toUTF8 ≠ content) → Says (some content) none
  | malformed {text : String} : ofText? text = none → Says (some text.toUTF8) none
  | valid {text : String} {p : Preferences} : ofText? text = some p → Says (some text.toUTF8) (some p)

theorem fromUTF8?_eq_some_iff {content : ByteArray} {text : String} :
    String.fromUTF8? content = some text ↔ text.toUTF8 = content := by
  refine ⟨fun h => ?_, fun h => ?_⟩
  · unfold String.fromUTF8? at h
    split at h
    · rw [← Option.some.inj h]
      rfl
    · cases h
  · have hvalid : text.toUTF8.IsValidUTF8 := text.isValidUTF8
    rw [← h, String.fromUTF8?, dif_pos hvalid]
    rfl

theorem ofContent_toUTF8 (text : String) : (ofContent (some text.toUTF8)).toOption = ofText? text := by
  have htext : String.fromUTF8? text.toUTF8 = some text := fromUTF8?_eq_some_iff.mpr rfl
  simp only [ofContent, htext]
  cases ofText? text with
  | none => rfl
  | some p => rfl

theorem says_iff {content : Option ByteArray} {said : Option Preferences} :
    Says content said ↔ (ofContent content).toOption = said := by
  refine ⟨fun h => ?_, fun h => ?_⟩
  · cases h with
    | unreadable => rfl
    | @noText content hnone =>
      have : String.fromUTF8? content = none := by
        rw [Option.eq_none_iff_forall_ne_some]
        exact fun text ht => hnone text (fromUTF8?_eq_some_iff.mp ht)
      simp only [ofContent, this]
      rfl
    | malformed hnone => rw [ofContent_toUTF8, hnone]
    | valid hp => rw [ofContent_toUTF8, hp]
  · cases content with
    | none => exact h ▸ .unreadable
    | some content =>
      cases htext : String.fromUTF8? content with
      | none =>
        have hnone : (ofContent (some content)).toOption = none := by
          simp only [ofContent, htext]
          rfl
        rw [← h, hnone]
        refine .noText fun text e => ?_
        rw [fromUTF8?_eq_some_iff.mpr e] at htext
        cases htext
      | some text =>
        rw [← fromUTF8?_eq_some_iff.mp htext] at h ⊢
        rw [ofContent_toUTF8] at h
        cases said with
        | none => exact .malformed h
        | some p => exact .valid h

theorem ofContentOrDefault_of_says {content : Option ByteArray} {said : Option Preferences}
    (h : Says content said) :
    ofContentOrDefault content = said.getD {} := by
  rw [← says_iff.mp h, ofContentOrDefault]
  cases ofContent content with
  | error e => rfl
  | ok p => rfl

end Preferences

/-! ## The mode of a run -/

namespace Command

theorem effectiveMode_ok_iff {p : Preferences} {o : Options} {m : Mode} : effectiveMode p o = .ok m ↔
    (∃ text, o.mode = some text ∧ m.IsCalled text) ∨ o.mode = none ∧ p.mode = m := by
  unfold effectiveMode
  cases o.mode with
  | none => simp
  | some text => simp [Mode.resolve_name_ok_iff]

theorem effectiveMode_error_iff {p : Preferences} {o : Options} {e : Refusal} : effectiveMode p o = .error e ↔
    ∃ text, o.mode = some text ∧ (∀ m : Mode, ¬ m.IsCalled text) ∧ e = .unknownMode text := by
  unfold effectiveMode
  cases o.mode with
  | none => simp
  | some text => simp [Mode.resolve_name_error_iff]

theorem exists_effectiveMode {o : Options} (h : ∀ text ∈ o.mode, ∃ m : Mode, m.IsCalled text)
    (p : Preferences) :
    ∃ m, effectiveMode p o = .ok m := by
  cases hmode : o.mode with
  | none => exact ⟨p.mode, effectiveMode_ok_iff.mpr (Or.inr ⟨hmode, rfl⟩)⟩
  | some text =>
    obtain ⟨m, hm⟩ := h text hmode
    exact ⟨m, effectiveMode_ok_iff.mpr (Or.inl ⟨text, hmode, hm⟩)⟩

theorem run_congr {p p' : Preferences} {o o' : Options} (hmode : effectiveMode p o = effectiveMode p' o')
    (hjson : (o.json || p.json) = (o'.json || p'.json)) (c : Command) : c.run p o = c.run p' o' := by
  unfold run
  rw [hmode, hjson]

theorem run_modeless {c : Command} (hc : ∀ m n, c.report m = c.report n) {p p' : Preferences} {o o' : Options}
    {m n : Mode} (hm : effectiveMode p o = .ok m) (hn : effectiveMode p' o' = .ok n)
    (hjson : (o.json || p.json) = (o'.json || p'.json)) : c.run p o = c.run p' o' := by
  rw [run_of_effectiveMode hm, run_of_effectiveMode hn, hc m n, hjson]

end Command

/-! ## Options filled in -/

/-- The options, with what is said where they say nothing. -/
def Options.filledIn (o : Options) (said : Option Preferences) : Options where
  mode := some (o.mode.getD (said.elim "osu" fun p => p.mode.name))
  json := o.json || said.any fun p => p.json
  verbose := o.verbose

section
variable (o : Options) (said : Option Preferences)

theorem json_filledIn : (o.json || (said.getD {}).json) = (o.filledIn said).json := by
  cases said with
  | none => rfl
  | some p => rfl

theorem effectiveMode_filledIn :
    Command.effectiveMode (said.getD {}) o = Command.effectiveMode {} (o.filledIn said) := by
  cases hmode : o.mode with
  | some text =>
    unfold Command.effectiveMode Options.filledIn
    rw [hmode]
    rfl
  | none =>
    have hname : (o.filledIn said).mode = some (said.getD {}).mode.name := by
      unfold Options.filledIn
      rw [hmode]
      cases said with
      | none => rfl
      | some p => rfl
    rw [Command.effectiveMode_ok_iff.mpr (Or.inr ⟨hmode, rfl⟩)]
    exact (Command.effectiveMode_ok_iff.mpr (Or.inl ⟨_, hname, Or.inl rfl⟩)).symm

theorem run_filledIn (c : Command) : c.run (said.getD {}) o = c.run {} (o.filledIn said) := by
  apply Command.run_congr
  · exact effectiveMode_filledIn o said
  · rw [json_filledIn, Bool.or_false]

end

namespace Preferences

theorem loadOrDefault_of_says {t : FileTree} {r : Route} {said : Option Preferences}
    (h : Says (t.read? r) said) :
    loadOrDefault t r = said.getD {} := ofContentOrDefault_of_says h

/-- Whatever state the file is in, it says one thing, and a command comes to what it comes to without any file
if what is said is given as options where these say nothing. With a mode and JSON among the options the file
does not matter; a mode that there is not is refused, whatever the command; and what is found about beatmaps
and beatmap sets does not depend on the mode. -/
theorem preferences_fill_in (t : FileTree) (r : Route) : (∃! said, Says (t.read? r) said) ∧
    ∀ said, Says (t.read? r) said → ∀ (c : Command) (o : Options),
      (∀ t' r', t'.read? r' = none →
        c.run (loadOrDefault t r) o = c.run (loadOrDefault t' r') (o.filledIn said)) ∧
      (o.mode ≠ none → o.json = true → ∀ t' r', c.run (loadOrDefault t r) o = c.run (loadOrDefault t' r') o) ∧
      (∀ text, o.mode = some text → (∀ m : Mode, ¬ m.IsCalled text) →
        c.run (loadOrDefault t r) o = .error (.unknownMode text)) ∧
      ∀ filters, c = .beatmap filters ∨ c = .beatmapset filters →
        ∀ t' r' said' o', Says (FileTree.read? t' r') said' → (∀ text ∈ o.mode, ∃ m : Mode, m.IsCalled text) →
          (∀ text ∈ o'.mode, ∃ m : Mode, m.IsCalled text) → (o.filledIn said).json = (o'.filledIn said').json →
            c.run (loadOrDefault t r) o = c.run (loadOrDefault t' r') o' := by
  refine ⟨?_, fun said hsaid c o => ?_⟩
  · exact ⟨_, says_iff.mpr rfl, fun said h => (says_iff.mp h).symm⟩
  have hload := loadOrDefault_of_says hsaid
  refine ⟨fun t' r' hnone => ?_, fun hmode hjson t' r' => ?_, fun text htext hno => ?_,
    fun filters hc t' r' said' o' hsaid' hknown hknown' hjson => ?_⟩
  · have hnothing : Says (t'.read? r') none := hnone ▸ .unreadable
    rw [hload, loadOrDefault_of_says hnothing]
    exact run_filledIn o said c
  · obtain ⟨text, htext⟩ := Option.ne_none_iff_exists'.mp hmode
    apply Command.run_congr
    · unfold Command.effectiveMode
      rw [htext]
    · rw [hjson, Bool.true_or, Bool.true_or]
  · unfold Command.run
    rw [Command.effectiveMode_error_iff.mpr ⟨text, htext, hno, rfl⟩]
    rfl
  · have hreport : ∀ m n, c.report m = c.report n := by
      rcases hc with e | e
      · rw [e]
        exact fun _ _ => rfl
      · rw [e]
        exact fun _ _ => rfl
    obtain ⟨m, hm⟩ := Command.exists_effectiveMode hknown (loadOrDefault t r)
    obtain ⟨n, hn⟩ := Command.exists_effectiveMode hknown' (loadOrDefault t' r')
    refine Command.run_modeless hreport hm hn ?_
    rw [hload, loadOrDefault_of_says hsaid', json_filledIn, json_filledIn, hjson]

theorem preferences_fill_in_taiko : ∃ t : FileTree, ∃ r : Route, Says (t.read? r) (some ⟨.taiko, true⟩) ∧
    FileTree.empty.read? r = none ∧
    (∀ c : Command, c.run (loadOrDefault t r) {} = c.run (loadOrDefault .empty r) ⟨some "taiko", true, false⟩) ∧
    (∀ c : Command, c.run (loadOrDefault t r) ⟨some "3", true, false⟩ =
      c.run (loadOrDefault .empty r) ⟨some "3", true, false⟩) ∧
    (∀ c : Command, c.run (loadOrDefault t r) ⟨some "4", false, false⟩ = .error (.unknownMode "4")) ∧
    (Command.beatmap "ar>9").run (loadOrDefault t r) {} =
      (Command.beatmap "ar>9").run (loadOrDefault .empty r) ⟨some "mania", true, true⟩ := by
  let text := "\x7b\"default_mode\": \"taiko\", \"json\": true\x7d"
  let t := (FileTree.empty.put (Route.ofText "a/config.json") text.toUTF8).1
  have hsaid : Says (t.read? (Route.ofText "a/config.json")) (some ⟨.taiko, true⟩) := by
    rw [says_iff]
    decide +kernel
  have hnone : FileTree.empty.read? (Route.ofText "a/config.json") = none := by decide
  have hno : ∀ m : Mode, ¬ m.IsCalled "4" := by
    intro m
    cases m
    all_goals decide
  have h := (preferences_fill_in t (Route.ofText "a/config.json")).2 _ hsaid
  refine ⟨t, _, hsaid, hnone, fun c => ?_, fun c => ?_, fun c => ?_, ?_⟩
  · exact (h c {}).1 _ _ hnone
  · exact (h c ⟨some "3", true, false⟩).2.1 (by decide) rfl _ _
  · exact (h c ⟨some "4", false, false⟩).2.2.1 "4" rfl hno
  · have hmania : ∀ text ∈ some "mania", ∃ m : Mode, m.IsCalled text := by
      intro text htext
      exact ⟨.mania, Or.inl (Option.some.inj htext).symm⟩
    refine (h (.beatmap "ar>9") {}).2.2.2 "ar>9" (Or.inl rfl) .empty _ none _
      (hnone ▸ .unreadable) ?_ hmania rfl
    intro text htext
    cases htext

end Preferences

end RhythmFilter
