import RhythmFilter.Proofs.Json.ReadBack
import RhythmFilter.Proofs.Preferences.Defaults
import RhythmFilter.Proofs.Storage.Writing

/-!
# Saved preferences

Saved preferences are loaded as they were, whatever the file held before, until something else is written to the
file. Saving touches no other file, and makes no folder but those that the path needs.
-/

namespace RhythmFilter

inductive Access where
  | write (r : Route) (content : ByteArray)
  | makeFolders (r : Route)
  | save (r : Route) (preferences : Preferences)
  | load (r : Route)
  | loadOrDefault (r : Route)

namespace FileTree

def after (t : FileTree) : Access → FileTree
  | .write r content => (t.put r content).1
  | .makeFolders r => (t.makeRoute r).1
  | .save r p => (Preferences.save t r p).1
  | .load _ => t
  | .loadOrDefault _ => t

def Writes (t : FileTree) (p : Path) : Access → Prop
  | .write r content => (t.put r content).2 = true ∧ r.target? = some p
  | .save r preferences => (Preferences.save t r preferences).2 = true ∧ r.target? = some p
  | _ => False

/-- What the tree may have become, if the path was not written since. -/
inductive Later (p : Path) (t : FileTree) : FileTree → Prop
  | now : Later p t t
  | next {u : FileTree} {a : Access} : Later p t u → ¬ u.Writes p a → Later p t (u.after a)

section
variable {t u : FileTree} {p q : Path} {a : Access}

theorem content?_after (h : ¬ t.Writes p a) : (t.after a).content? p = t.content? p := by
  cases a with
  | write r content => exact (puts_put t r content).content?_eq fun hdone htarget => h ⟨hdone, htarget⟩
  | makeFolders r => exact (t.makeRoute_grows r).content?_eq p
  | save r preferences => exact (puts_put t r _).content?_eq fun hdone htarget => h ⟨hdone, htarget⟩
  | load r => rfl
  | loadOrDefault r => rfl

theorem isFolder_after (a : Access) (h : t.isFolder q = true) : (t.after a).isFolder q = true := by
  cases a with
  | write r content => exact (puts_put t r content).isFolder h
  | makeFolders r => exact (t.makeRoute_grows r).isFolder h
  | save r preferences => exact (puts_put t r _).isFolder h
  | load r => exact h
  | loadOrDefault r => exact h

theorem Later.keeps (h : Later p t u) :
    u.content? p = t.content? p ∧ ∀ q, t.isFolder q = true → u.isFolder q = true := by
  induction h with
  | now => exact ⟨rfl, fun q hq => hq⟩
  | next _ ha ih => exact ⟨(content?_after ha).trans ih.1, fun q hq => isFolder_after _ (ih.2 q hq)⟩

theorem Later.read? {r : Route} {content : ByteArray} (hp : r.target? = some p)
    (hread : t.read? r = some content)
    (h : Later p t u) : u.read? r = some content := by
  obtain ⟨_, q, hq, _, hcontent⟩ := read?_eq_some_iff.mp hread
  obtain rfl : p = q := Option.some.inj (hp.symm.trans hq)
  obtain ⟨hsame, hfolders⟩ := h.keeps
  exact read?_mono hfolders hp (hsame.trans hcontent) hread

end

end FileTree

namespace Preferences

theorem numberless_toJson (p : Preferences) : Json.Numberless p.toJson := by
  refine .object (List.forall_mem_cons.mpr ⟨.string _, List.forall_mem_singleton.mpr (.bool _)⟩)

theorem ofDocument?_spelled (p : Preferences) : ofDocument? p.toJson.spelled = some p := by
  obtain ⟨mode, json⟩ := p
  cases mode
  all_goals cases json <;> rfl

theorem ofText?_toText (p : Preferences) : ofText? p.toText = some p := by
  rw [ofText?, toText, Json.Document.ofText?_pretty p.numberless_toJson, Option.bind_some, ofDocument?_spelled]

theorem ofContent_toText (p : Preferences) : ofContent (some p.toText.toUTF8) = .ok p := by
  have hread := ofContent_toUTF8 p.toText
  rw [ofText?_toText] at hread
  cases h : ofContent (some p.toText.toUTF8) with
  | error e =>
    rw [h] at hread
    cases hread
  | ok q =>
    rw [h] at hread
    rw [Option.some.inj hread]

theorem ofContentOrDefault_eq_iff {content : Option ByteArray} {p : Preferences} :
    ofContentOrDefault content = p ↔
    ofContent content = .ok p ∨ (∃ e, ofContent content = .error e) ∧ p = {} := by
  unfold ofContentOrDefault
  cases ofContent content with
  | error e => simp [eq_comm]
  | ok q => simp

theorem load_later {t later : FileTree} {r : Route} {p : Preferences} {names : Path}
    (hp : r.target? = some names)
    (hsaved : (save t r p).2 = true) (h : FileTree.Later names (save t r p).1 later) :
    load later r = .ok p := by
  have hread : (save t r p).1.read? r = some p.toText.toUTF8 := (FileTree.puts_put t r _).read? hsaved
  rw [load, h.read? hp hread, ofContent_toText]

/-- Preferences that are saved to a path of names are what is loaded from it, until something is written
to that path. No other file changes, nor any file if they are not saved; folders stay, and new ones stand
above the path, where nothing was. What keeps them from being saved is a file above the path or a folder
in its place, if files can have such names. Loading changes nothing, and what cannot be loaded stands for
the defaults. -/
theorem saved_until_written {names : Path} (hne : names ≠ []) (hnames : ∀ n ∈ names, Route.IsOrdinary n)
    {r : Route}
    (hr : r = Route.ofText ("/".intercalate names) ∨ r = Route.ofText ("/" ++ "/".intercalate names))
    (t : FileTree) (p : Preferences) :
    ((save t r p).2 = true → ∀ later, FileTree.Later names (save t r p).1 later →
      load later r = .ok p ∧ loadOrDefault later r = p) ∧
    (∀ q, q ≠ names ∨ (save t r p).2 = false → (save t r p).1.content? q = t.content? q) ∧
    (∀ q, t.isFolder q = true → (save t r p).1.isFolder q = true) ∧
    (∀ q, (save t r p).1.isFolder q = true → t.isFolder q = true ∨ t.entry q = none ∧ q <+: names.dropLast) ∧
    (r.isPassable = true → (∀ n ∈ names, isEntryName n = true) → ((save t r p).2 = false ↔
      (∃ q, q <+: names.dropLast ∧ t.content? q ≠ none) ∨ t.isFolder names = true)) ∧
    (t.after (.load r) = t ∧ t.after (.loadOrDefault r) = t) ∧
    ∀ q, loadOrDefault t r = q ↔ load t r = .ok q ∨ (∃ e, load t r = .error e) ∧ q = ⟨.osu, false⟩ := by
  have hroute : r.Names names := by
    rcases hr with e | e
    · exact e ▸ Route.names_ofText hne hnames
    · exact e ▸ Route.names_ofText_slash hne hnames
  obtain ⟨name, hname, hfolder, hsplit⟩ := hroute.folder
  have hputs : t.Puts r p.toText.toUTF8 (save t r p) := FileTree.puts_put t r _
  refine ⟨fun hsaved later hlater => ?_, fun q hq => ?_, fun q hq => hputs.isFolder hq, fun q hq => ?_,
    fun hpass hentries => ?_, ⟨rfl, rfl⟩, fun q => ofContentOrDefault_eq_iff⟩
  · have hload := load_later hroute.target hsaved hlater
    exact ⟨hload, ofContentOrDefault_eq_iff.mpr (Or.inl hload)⟩
  · refine hputs.content?_eq fun hsaved htarget => ?_
    rcases hq with hq | hq
    · exact hq (Option.some.inj (htarget.symm.trans hroute.target))
    · rw [hsaved] at hq
      cases hq
  · refine (hputs.of_isFolder hq).imp_right fun h => ⟨h.1, ?_⟩
    have hpasses := h.2
    rw [hfolder] at hpasses
    exact prefix_of_passes_names hpasses
  · have hok : (t.put r p.toText.toUTF8).2 = true ↔ _ := FileTree.put_names_iff hroute hpass hentries
    rw [← Bool.not_eq_true, save, hok]
    simp only [not_and_or, not_forall, exists_prop, Bool.not_eq_false, ne_eq]

/-- The file held bytes that are no text. Afterwards another file in its folder is written, one below the file
is not, and folders are made on a way that leads back to it. -/
theorem saved_until_written_over_bytes : ∃ (t later : FileTree) (r : Route),
    r = Route.ofText "/osu-query/config.json" ∧ load t r = .error .unreadable ∧
    (save t r ⟨.mania, true⟩).2 = true ∧
    FileTree.Later ["osu-query", "config.json"] (save t r ⟨.mania, true⟩).1 later ∧
    later.content? ["osu-query", "other"] = some ⟨#[0]⟩ ∧ load later r = .ok ⟨.mania, true⟩ ∧
    loadOrDefault later r = ⟨.mania, true⟩ ∧
    (save t (Route.ofText "osu-query/config.json/below") {}).2 = false ∧
    ∀ q, (save t (Route.ofText "osu-query/config.json/below") {}).1.content? q = t.content? q := by
  let t := (FileTree.empty.put (Route.ofText "osu-query/config.json") ⟨#[0xff, 0xfe, 0x7b]⟩).1
  let r := Route.ofText "/osu-query/config.json"
  let other : Access := .write (Route.ofText "osu-query/./other") ⟨#[0]⟩
  let below : Access := .write (Route.ofText "osu-query/config.json/below") ⟨#[0]⟩
  let back : Access := .makeFolders (Route.ofText "new/../osu-query")
  let u := (save t r ⟨.mania, true⟩).1
  have hordinary : ∀ n ∈ ["osu-query", "config.json", "below"], Route.IsOrdinary n := by
    intro n hn
    simp only [List.mem_cons, List.not_mem_nil, or_false] at hn
    rcases hn with e | e | e
    all_goals
      subst e
      exact ⟨by decide, by decide, by decide, by decide⟩
  have hfile : ∀ n ∈ ["osu-query", "config.json"], Route.IsOrdinary n :=
    fun n hn => hordinary n (List.mem_append_left ["below"] hn)
  have hlater : FileTree.Later ["osu-query", "config.json"] u (((u.after other).after below).after back) := by
    refine .next (.next (.next .now fun h => ?_) fun h => ?_) fun h => ?_
    · exact absurd h.2 (by decide)
    · exact absurd h.2 (by decide)
    · exact h
  have hsaved : (save t r ⟨.mania, true⟩).2 = true := by decide +kernel
  have hfails : (save t (Route.ofText "osu-query/config.json/below") {}).2 = false := by decide +kernel
  have hr : r = Route.ofText ("/" ++ "/".intercalate ["osu-query", "config.json"]) := by decide +kernel
  have hr' : Route.ofText "osu-query/config.json/below" =
      Route.ofText ("/".intercalate ["osu-query", "config.json", "below"]) := by decide +kernel
  have h := saved_until_written (List.cons_ne_nil _ _) hfile (Or.inr hr) t ⟨.mania, true⟩
  obtain ⟨hload, hdefault⟩ := h.1 hsaved _ hlater
  have hbelow := saved_until_written (List.cons_ne_nil _ _) hordinary (Or.inl hr') t {}
  exact ⟨t, _, r, rfl, by decide +kernel, hsaved, hlater, by decide +kernel, hload, hdefault, hfails,
    fun q => hbelow.2.1 q (Or.inr hfails)⟩

end Preferences

end RhythmFilter
