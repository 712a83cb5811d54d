import RhythmFilter.Proofs.Command.Listing
import RhythmFilter.Proofs.Command.Words

/-!
# What the output tells

A run that is not refused shows what it found. Whatever the arguments and preferences of two runs, if both
show predicates, or both a mod filter, in one form, and their outputs are the same, they found the same.
-/

namespace RhythmFilter

namespace Outcome

def Shows (preferred : Preferences) (args : List String) (json : Bool) (r : Report) : Prop :=
  asksForHelp args = false ∧ ∃ command options m, readArguments args = .ok (command, options) ∧
    Command.effectiveMode preferred options = .ok m ∧ command.report m = .ok r ∧
    json = (options.json || preferred.json)

section
variable {preferred : Preferences} {args : List String}

theorem ofArguments_of_shows {json : Bool} {r : Report} (h : Shows preferred args json r) :
    ofArguments preferred args = success (r.render json) := by
  obtain ⟨hhelp, c, o, m, hargs, hm, hr, e⟩ := h
  have hrun : c.run preferred o = .ok (r.render json) := by
    rw [Command.run_of_effectiveMode hm, hr, e]
    rfl
  simp only [ofArguments, hhelp, hargs, hrun, Bool.false_eq_true, ite_false]

theorem exists_shows_of_success (hhelp : asksForHelp args = false)
    (h : (ofArguments preferred args).exitCode = 0) :
    ∃ json r, Shows preferred args json r := by
  simp only [ofArguments, hhelp, Bool.false_eq_true, ite_false] at h
  cases hargs : readArguments args with
  | error fault => simp [hargs, misused] at h
  | ok p =>
    obtain ⟨c, o⟩ := p
    simp only [hargs] at h
    cases hrun : c.run preferred o with
    | error refusal => simp [hrun, refused] at h
    | ok output =>
      obtain ⟨m, hm, hreport⟩ := bind_ok_iff.mp hrun
      obtain ⟨r, hr, _⟩ := bind_ok_iff.mp hreport
      exact ⟨_, r, hhelp, c, o, m, hargs, hm, hr, rfl⟩

end

end Outcome

namespace Command
variable {c : Command} {m : Mode}

theorem legible_of_report {ps : List Predicate} (h : c.report m = .ok (.predicates ps)) :
    ∀ p ∈ ps, p.Legible := by
  cases c with
  | score s => exact legible_of_filters (t := .scores m) (map_predicates_ok_iff.mp h)
  | beatmap s => exact legible_of_filters (t := .beatmaps) (map_predicates_ok_iff.mp h)
  | beatmapset s => exact legible_of_filters (t := .beatmapsets) (map_predicates_ok_iff.mp h)
  | users ids => exact Report.predicates.inj (Except.ok.inj h) ▸ legible_of_users
  | mods s =>
    obtain ⟨f, _, e⟩ := map_ok_iff.mp h
    cases e
  | sort as =>
    obtain ⟨xs, _, e⟩ := map_ok_iff.mp h
    cases e

theorem readable_of_report {f : ModFilter} (h : c.report m = .ok (.modFilter f)) : f.Readable m := by
  cases c with
  | mods s =>
    obtain ⟨g, hg, e⟩ := map_ok_iff.mp h
    cases e
    exact ModFilter.readable_of_ofText hg
  | users ids => cases h
  | _ =>
    obtain ⟨a, _, e⟩ := map_ok_iff.mp h
    cases e

end Command

namespace Outcome

/-- A run that is not about help succeeds if and only if it has something to show, and then it prints just
that. If two runs print the same and both show predicates, or both a mod filter, and both as JSON or both
for people to read, they show the same predicates, or the same mod filter. -/
theorem output_lossless {preferred preferred' : Preferences} {args args' : List String} :
    (asksForHelp args = false →
      ((ofArguments preferred args).exitCode = 0 ↔ ∃ json r, Shows preferred args json r)) ∧
    (∀ json r, Shows preferred args json r → ofArguments preferred args = success (r.render json)) ∧
    ((ofArguments preferred args).output = (ofArguments preferred' args').output →
      (∀ json ps qs, Shows preferred args json (.predicates ps) → Shows preferred' args' json (.predicates qs) →
        ps = qs) ∧
      ∀ json f g, Shows preferred args json (.modFilter f) → Shows preferred' args' json (.modFilter g) →
      f = g) := by
  refine ⟨fun hhelp => ⟨exists_shows_of_success hhelp, ?_⟩, fun _ _ => ofArguments_of_shows, fun h => ⟨?_, ?_⟩⟩
  · intro hshows
    obtain ⟨json, r, hr⟩ := hshows
    rw [ofArguments_of_shows hr]
    rfl
  · intro json ps qs hps hqs
    rw [ofArguments_of_shows hps, ofArguments_of_shows hqs] at h
    obtain ⟨_, _, _, _, _, _, hreport, _⟩ := hps
    obtain ⟨_, _, _, _, _, _, hreport', _⟩ := hqs
    exact Report.predicates_eq_of_render (Command.legible_of_report hreport)
      (Command.legible_of_report hreport') h
  · intro json f g hf hg
    rw [ofArguments_of_shows hf, ofArguments_of_shows hg] at h
    obtain ⟨_, _, _, _, _, _, hreport, _⟩ := hf
    obtain ⟨_, _, _, _, _, _, hreport', _⟩ := hg
    exact Report.modFilter_eq_of_render (Command.readable_of_report hreport)
      (Command.readable_of_report hreport') h

theorem output_lossless_spellings :
    (ofArguments {} ["score", "Rank/sXh"]).output =
      (ofArguments ⟨.mania, false⟩ ["--mode", "0", "score", "RANK/s,xhs"]).output ∧
    (∃ ps, Shows {} ["score", "Rank/sXh"] false (.predicates ps) ∧
      ∃ qs, Shows ⟨.mania, false⟩ ["--mode", "0", "score", "RANK/s,xhs"] false (.predicates qs) ∧ ps = qs) ∧
    (ofArguments {} ["mods", "! hdDT", "--json"]).output =
      (ofArguments ⟨.taiko, true⟩ ["mods", "!dT", "Hd"]).output ∧
    ∃ f, Shows {} ["mods", "! hdDT", "--json"] true (.modFilter f) ∧
      ∃ g, Shows ⟨.taiko, true⟩ ["mods", "!dT", "Hd"] true (.modFilter g) ∧ f = g := by
  have hscore : (ofArguments {} ["score", "Rank/sXh"]).output =
      (ofArguments ⟨.mania, false⟩ ["--mode", "0", "score", "RANK/s,xhs"]).output := by
    decide +kernel
  have hps : scoreFilters .osu "Rank/sXh" = .ok [.oneOf (.score .osu .rank) ["S", "XH"]] := by decide +kernel
  have hqs : scoreFilters .osu "RANK/s,xhs" = .ok [.oneOf (.score .osu .rank) ["S", "XH"]] := by decide +kernel
  have hshow : Shows {} ["score", "Rank/sXh"] false (.predicates [.oneOf (.score .osu .rank) ["S", "XH"]]) :=
    ⟨by decide, .score "Rank/sXh", {}, .osu, by decide +kernel, rfl, map_predicates_ok_iff.mpr hps, rfl⟩
  have hshow' : Shows ⟨.mania, false⟩ ["--mode", "0", "score", "RANK/s,xhs"] false
      (.predicates [.oneOf (.score .osu .rank) ["S", "XH"]]) :=
    ⟨by decide, .score "RANK/s,xhs", { mode := some "0" }, .osu, by decide +kernel, by decide +kernel,
      map_predicates_ok_iff.mpr hqs, rfl⟩
  have hmods : (ofArguments {} ["mods", "! hdDT", "--json"]).output =
      (ofArguments ⟨.taiko, true⟩ ["mods", "!dT", "Hd"]).output := by
    decide +kernel
  have hf : ModFilter.ofText .osu "! hdDT" = .ok (.exact ["DT", "HD"]) := by decide +kernel
  have hg : ModFilter.ofText .taiko "!dTHd" = .ok (.exact ["DT", "HD"]) := by decide +kernel
  have hshowf : Shows {} ["mods", "! hdDT", "--json"] true (.modFilter (.exact ["DT", "HD"])) :=
    ⟨by decide, .mods "! hdDT", { json := true }, .osu, by decide +kernel, rfl,
      map_ok_iff.mpr ⟨_, hf, rfl⟩, rfl⟩
  have hshowg : Shows ⟨.taiko, true⟩ ["mods", "!dT", "Hd"] true (.modFilter (.exact ["DT", "HD"])) :=
    ⟨by decide, .mods "!dTHd", {}, .taiko, by decide +kernel, rfl, map_ok_iff.mpr ⟨_, hg, rfl⟩, rfl⟩
  refine ⟨hscore, ⟨_, hshow, _, hshow', ?_⟩, hmods, _, hshowf, _, hshowg, ?_⟩
  · exact (output_lossless.2.2 hscore).1 _ _ _ hshow hshow'
  · exact (output_lossless.2.2 hmods).2 _ _ _ hshowf hshowg

end Outcome

end RhythmFilter
