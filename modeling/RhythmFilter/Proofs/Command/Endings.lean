import RhythmFilter.Proofs.Command.Rendering
import RhythmFilter.Proofs.Preferences.Defaults

/-!
# How a run ends

A run ends in one of four ways. A call for help comes before everything else; then come arguments that make up
no command, then what the command refuses, and what it reports comes last. A report is printed in full or not
at all.
-/

namespace RhythmFilter

open Json (Document)

namespace Command

/-- What the command comes to in the mode that is called as given, or in the preferred one if none is given. -/
inductive Finds (c : Command) (p : Preferences) (o : Options) : Except Refusal Report → Prop
  | noMode {text : String} : o.mode = some text → (∀ m : Mode, ¬ m.IsCalled text) →
      Finds c p o (.error (.unknownMode text))
  | given {text : String} {m : Mode} : o.mode = some text → m.IsCalled text → Finds c p o (c.report m)
  | unsaid : o.mode = none → Finds c p o (c.report p.mode)

section
variable {c : Command} {p : Preferences} {o : Options} {x y : Except Refusal Report}

theorem finds_iff : c.Finds p o x ↔ effectiveMode p o >>= c.report = x := by
  refine ⟨fun h => ?_, fun h => ?_⟩
  · cases h with
    | noMode htext hno =>
      rw [effectiveMode_error_iff.mpr ⟨_, htext, hno, rfl⟩]
      rfl
    | given htext hm =>
      rw [effectiveMode_ok_iff.mpr (Or.inl ⟨_, htext, hm⟩)]
      rfl
    | unsaid hnone =>
      rw [effectiveMode_ok_iff.mpr (Or.inr ⟨hnone, rfl⟩)]
      rfl
  · rw [← h]
    cases hmode : effectiveMode p o with
    | error e =>
      obtain ⟨text, htext, hno, rfl⟩ := effectiveMode_error_iff.mp hmode
      exact .noMode htext hno
    | ok m =>
      rcases effectiveMode_ok_iff.mp hmode with ⟨text, htext, hm⟩ | ⟨hnone, rfl⟩
      · exact .given htext hm
      · exact .unsaid hnone

theorem Finds.unique (h : c.Finds p o x) (h' : c.Finds p o y) : x = y := by
  rw [← finds_iff.mp h, finds_iff.mp h']

theorem run_of_finds (h : c.Finds p o x) : c.run p o = x.map (Report.render (o.json || p.json)) := by
  rw [← finds_iff.mp h]
  cases hmode : effectiveMode p o with
  | error e =>
    unfold run
    rw [hmode]
    rfl
  | ok m => exact run_of_effectiveMode hmode c

end

end Command

/-- The output holds all of the report: a JSON value that says it, or every line of it. -/
def Report.Fills (json : Bool) (output : String) (r : Report) : Prop :=
  if json then (Document.ofText? output).bind (·.proper?) = some r.toJson
  else r.lines ≠ [] ∧ output = String.join (r.lines.map line)

theorem Report.fills_render (json : Bool) (r : Report) : r.Fills json (r.render json) := by
  unfold Fills
  cases json with
  | true =>
    have hproper := Json.proper?_spelled r.toJson
    rw [if_pos rfl, render, if_pos rfl, r.ofText?_jsonText, Option.bind_some, hproper]
  | false =>
    rw [if_neg Bool.false_ne_true]
    exact ⟨r.lines_ne_nil, r.text_eq_lines⟩

inductive Ending where
  | help
  | misuse (fault : UsageFault)
  | refusal (e : Refusal)
  | report (json : Bool) (r : Report)

namespace Outcome

def CallsForHelp (args : List String) : Prop := args = [] ∨ "--help" ∈ args ∨ "-h" ∈ args

instance (args : List String) : Decidable (CallsForHelp args) :=
  inferInstanceAs (Decidable (args = [] ∨ "--help" ∈ args ∨ "-h" ∈ args))

theorem asksForHelp_iff {args : List String} : asksForHelp args = true ↔ CallsForHelp args := by
  unfold asksForHelp CallsForHelp
  rw [Bool.or_eq_true, List.isEmpty_iff, List.any_eq_true]
  refine or_congr_right ⟨fun h => ?_, fun h => ?_⟩
  · obtain ⟨arg, harg, h⟩ := h
    rcases of_decide_eq_true h with rfl | rfl
    · exact Or.inl harg
    · exact Or.inr harg
  · rcases h with h | h
    · exact ⟨_, h, by simp⟩
    · exact ⟨_, h, by simp⟩

inductive EndsIn (p : Preferences) (args : List String) : Ending → Prop
  | help : CallsForHelp args → EndsIn p args .help
  | misuse {fault : UsageFault} :
      ¬ CallsForHelp args → readArguments args = .error fault → EndsIn p args (.misuse fault)
  | refusal {c : Command} {o : Options} {e : Refusal} : ¬ CallsForHelp args → readArguments args = .ok (c, o) →
    c.Finds p o (.error e) → EndsIn p args (.refusal e)
  | report {c : Command} {o : Options} {r : Report} : ¬ CallsForHelp args → readArguments args = .ok (c, o) →
    c.Finds p o (.ok r) → EndsIn p args (.report (o.json || p.json) r)

def LeftBy (outcome : Outcome) : Ending → Prop
  | .help => outcome = ⟨0, helpText, ""⟩
  | .misuse fault => outcome = ⟨1, helpText, "Error: " ++ fault.message ++ "\n\n"⟩
  | .refusal e => outcome = ⟨1, "", "Error: " ++ e.message ++ "\n"⟩
  | .report json r =>
    outcome = ⟨0, r.render json, ""⟩ ∧ r.Fills json outcome.output ∧ ∃ s, outcome.output = s ++ "\n"

section
variable {p : Preferences} {args : List String} {e e' : Ending}

theorem exists_endsIn (p : Preferences) (args : List String) : ∃ e, EndsIn p args e := by
  by_cases hhelp : CallsForHelp args
  · exact ⟨_, .help hhelp⟩
  cases hargs : readArguments args with
  | error fault => exact ⟨_, .misuse hhelp hargs⟩
  | ok pair =>
    obtain ⟨c, o⟩ := pair
    cases hx : Command.effectiveMode p o >>= c.report with
    | error e => exact ⟨_, .refusal hhelp hargs (Command.finds_iff.mpr hx)⟩
    | ok r => exact ⟨_, .report hhelp hargs (Command.finds_iff.mpr hx)⟩

theorem EndsIn.unique (h : EndsIn p args e) (h' : EndsIn p args e') : e = e' := by
  cases h with
  | help hhelp =>
    cases h' with
    | help => rfl
    | misuse hno => exact absurd hhelp hno
    | refusal hno => exact absurd hhelp hno
    | report hno => exact absurd hhelp hno
  | misuse hno hargs =>
    cases h' with
    | help hhelp => exact absurd hhelp hno
    | misuse _ hargs' => rw [Except.error.inj (hargs.symm.trans hargs')]
    | refusal _ hargs' => cases hargs.symm.trans hargs'
    | report _ hargs' => cases hargs.symm.trans hargs'
  | refusal hno hargs hx =>
    cases h' with
    | help hhelp => exact absurd hhelp hno
    | misuse _ hargs' => cases hargs.symm.trans hargs'
    | refusal _ hargs' hx' =>
      cases hargs.symm.trans hargs'
      cases hx.unique hx'
      rfl
    | report _ hargs' hx' =>
      cases hargs.symm.trans hargs'
      cases hx.unique hx'
  | report hno hargs hx =>
    cases h' with
    | help hhelp => exact absurd hhelp hno
    | misuse _ hargs' => cases hargs.symm.trans hargs'
    | refusal _ hargs' hx' =>
      cases hargs.symm.trans hargs'
      cases hx.unique hx'
    | report _ hargs' hx' =>
      cases hargs.symm.trans hargs'
      cases hx.unique hx'
      rfl

theorem EndsIn.leaves (h : EndsIn p args e) : (ofArguments p args).LeftBy e := by
  unfold ofArguments
  cases h with
  | help hhelp =>
    rw [if_pos (asksForHelp_iff.mpr hhelp)]
    rfl
  | misuse hno hargs =>
    rw [if_neg (mt asksForHelp_iff.mp hno), hargs]
    rfl
  | refusal hno hargs hx =>
    simp only [if_neg (mt asksForHelp_iff.mp hno), hargs, Command.run_of_finds hx]
    rfl
  | @report c o r hno hargs hx =>
    simp only [if_neg (mt asksForHelp_iff.mp hno), hargs, Command.run_of_finds hx]
    exact ⟨rfl, r.fills_render _, r.render_line_end _⟩

theorem LeftBy.whole {outcome : Outcome} (h : outcome.LeftBy e) :
    outcome.exitCode = 0 ∧ outcome.errors = "" ∨
      outcome.exitCode = 1 ∧ (outcome.output = "" ∨ outcome.output = helpText) := by
  cases e with
  | help =>
    rw [show outcome = _ from h]
    exact Or.inl ⟨rfl, rfl⟩
  | misuse fault =>
    rw [show outcome = _ from h]
    exact Or.inr ⟨rfl, Or.inr rfl⟩
  | refusal e =>
    rw [show outcome = _ from h]
    exact Or.inr ⟨rfl, Or.inl rfl⟩
  | report json r =>
    rw [h.1]
    exact Or.inl ⟨rfl, rfl⟩

end

/-- Whatever the arguments and the state of the file of preferences, a run ends in one way and leaves behind
what belongs to that way. If it fails, nothing of a report is printed. -/
theorem ends_one_way (t : FileTree) (r : Route) (args : List String) :
    (∃! e, EndsIn (Preferences.loadOrDefault t r) args e) ∧
    (∀ e, EndsIn (Preferences.loadOrDefault t r) args e →
      (ofArguments (Preferences.loadOrDefault t r) args).LeftBy e) ∧
    ((ofArguments (Preferences.loadOrDefault t r) args).exitCode = 0 ∧
        (ofArguments (Preferences.loadOrDefault t r) args).errors = "" ∨
      (ofArguments (Preferences.loadOrDefault t r) args).exitCode = 1 ∧
        ((ofArguments (Preferences.loadOrDefault t r) args).output = "" ∨
          (ofArguments (Preferences.loadOrDefault t r) args).output = helpText)) := by
  obtain ⟨e, he⟩ := exists_endsIn (Preferences.loadOrDefault t r) args
  refine ⟨⟨e, he, fun _ h => h.unique he⟩, fun _ h => h.leaves, he.leaves.whole⟩

/-- The word for help stands where a mode belongs, a mode is missing, there is no such mode, and all is well. -/
theorem ends_one_way_four : ∃ t : FileTree, ∃ r : Route, ∀ p, p = Preferences.loadOrDefault t r →
    (ofArguments p ["score", "--mode", "-h"]).LeftBy .help ∧
    (ofArguments p ["mods", "-HD", "--mode"]).LeftBy (.misuse .modeWithoutValue) ∧
    (ofArguments p ["beatmap", "stars>5", "--mode", "4"]).LeftBy (.refusal (.unknownMode "4")) ∧
    (ofArguments p ["sort", "hd", "--json", "dt"]).LeftBy (.report true (.arranged .osu ["DT", "HD"])) := by
  refine ⟨.empty, .ofText "config.json", fun p hp => ?_⟩
  have hdefault : p = {} := by
    rw [hp]
    decide
  have hno : ∀ m : Mode, ¬ m.IsCalled "4" := by
    intro m
    cases m
    all_goals decide
  have harranged : Mode.arrange .osu ["HD", "DT"] = .ok ["DT", "HD"] := by decide +kernel
  have hmode : Command.effectiveMode p { json := true } = .ok .osu := by
    rw [hdefault]
    rfl
  have hfound : (Command.sort ["HD", "DT"]).Finds p { json := true } (.ok (.arranged .osu ["DT", "HD"])) := by
    rw [Command.finds_iff, hmode]
    exact map_ok_iff.mpr ⟨_, harranged, rfl⟩
  have hleaves : ∀ args e, EndsIn p args e → (ofArguments p args).LeftBy e := by
    intro args
    rw [hp]
    exact (ends_one_way .empty (.ofText "config.json") args).2.1
  refine ⟨hleaves _ _ (.help (by decide)), hleaves _ _ (.misuse (by decide) (by decide +kernel)),
    hleaves _ _ ?_,
    hleaves _ _ ?_⟩
  · exact .refusal (c := .beatmap "stars>5") (o := { mode := some "4" }) (by decide)
      (by decide +kernel) (.noMode rfl hno)
  · exact .report (o := { json := true }) (by decide) (by decide +kernel) hfound

end Outcome

end RhythmFilter
