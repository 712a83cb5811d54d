import RhythmFilter.Command.Outcome
import RhythmFilter.Proofs.Command.Options
import RhythmFilter.Proofs.Query.Lists
import RhythmFilter.Proofs.Query.Subject

/-!
# The words of a command

Arguments that are no options are the words of the command in front of them. A filter text can be given
in several words: between two words of clauses there is a blank, and the words of a mod filter are put
together as they are.
-/

namespace RhythmFilter

open Text

def optionWords : List String := ["--json", "--verbose", "-v", "--mode"]

def modeArguments : Option String → List String
  | none => []
  | some mode => ["--mode", mode]

def optionArguments (o : Options) : List String :=
  modeArguments o.mode ++ ((if o.json then ["--json"] else []) ++ if o.verbose then ["--verbose"] else [])

theorem Verb.ofName?_name (v : Verb) : ofName? v.name = some v := by cases v <;> decide

theorem Verb.name_not_option (v : Verb) : v.name ∉ optionWords := by cases v <;> decide

theorem not_option {t : String} (h : 'o' ∉ t.toList ∧ 'v' ∉ t.toList) : t ∉ optionWords := by
  have hletter : ∀ w ∈ optionWords, 'o' ∈ w.toList ∨ 'v' ∈ w.toList := by decide
  intro hopt
  exact (hletter t hopt).elim h.1 h.2

theorem joined_not_option {texts : List String} (h : ∀ t ∈ texts, 'o' ∉ t.toList ∧ 'v' ∉ t.toList) :
    ",".intercalate texts ∉ optionWords := by
  have hjoined : ∀ c, c ≠ ',' → (∀ t ∈ texts, c ∉ t.toList) → c ∉ (",".intercalate texts).toList := by
    intro c hcomma hc hmem
    rw [String.toList_intercalate] at hmem
    rcases mem_intercalate hmem with e | ⟨p, hp, hcp⟩
    · exact hcomma e
    · obtain ⟨t, ht, rfl⟩ := List.mem_map.mp hp
      exact hc t ht hcp
  apply not_option
  exact ⟨hjoined 'o' (by decide) fun t ht => (h t ht).1, hjoined 'v' (by decide) fun t ht => (h t ht).2⟩

namespace Draft

theorem read_plain {arg : String} (h : arg ∉ optionWords) (d : Draft) (args : List String) :
    d.read (arg :: args) = d.addWord arg >>= fun d => d.read args := by
  simp only [optionWords, List.mem_cons, List.not_mem_nil, or_false, not_or] at h
  obtain ⟨hjson, hverbose, hv, hmode⟩ := h
  have hadd : d.add arg = d.addWord arg := by
    unfold add
    rw [if_neg hjson, if_neg fun h => h.elim hverbose hv]
  rw [read.eq_def]
  simp only [if_neg hmode, hadd]

theorem read_words {v : Verb} :
    ∀ {ws : List String}, (∀ w ∈ ws, w ∉ optionWords) → ∀ {d : Draft}, d.verb = some v →
    d.read ws = .ok { d with words := d.words ++ ws }
  | [], _, d, _ => by rw [List.append_nil, read]
  | w :: ws, h, d, hv => by
    obtain ⟨hw, hws⟩ := List.forall_mem_cons.mp h
    have hadd : d.addWord w = .ok { d with words := d.words ++ [w] } := by rw [addWord, hv]
    rw [read_plain hw, hadd]
    have ih := read_words hws (d := { d with words := d.words ++ [w] }) hv
    simpa [bind, Except.bind] using ih

theorem read_json (d : Draft) (args : List String) :
    d.read ("--json" :: args) = (d.withOptions fun o => { o with json := true }).read args := by
  rw [read_add (by decide), add_json]
  rfl

theorem read_verbose (d : Draft) (args : List String) :
    d.read ("--verbose" :: args) = (d.withOptions fun o => { o with verbose := true }).read args := by
  rw [read_add (by decide), add_verbose (Or.inl rfl)]
  rfl

theorem read_optionArguments (o : Options) (args : List String) :
    Draft.read {} (optionArguments o ++ args) = Draft.read { options := o } args := by
  have hmode : ∀ rest, Draft.read {} (modeArguments o.mode ++ rest) =
      Draft.read { options := { mode := o.mode } } rest := by
    intro rest
    cases o.mode with
    | none => rfl
    | some mode => rfl
  obtain ⟨mode, json, verbose⟩ := o
  unfold optionArguments
  rw [List.append_assoc, hmode]
  cases json with
  | false =>
    cases verbose with
    | false => rfl
    | true => exact read_verbose _ _
  | true =>
    cases verbose with
    | false => exact read_json _ _
    | true => exact (read_json _ _).trans (read_verbose _ _)

theorem read_command (o : Options) (v : Verb) {ws : List String} (h : ∀ w ∈ ws, w ∉ optionWords) :
    Draft.read {} (optionArguments o ++ v.name :: ws) = .ok ⟨some v, ws, o⟩ := by
  rw [read_optionArguments, read_plain v.name_not_option, addWord, Verb.ofName?_name]
  exact read_words h rfl

end Draft

theorem readArguments_options (o : Options) (v : Verb) {ws : List String} (h : ∀ w ∈ ws, w ∉ optionWords) :
    readArguments (optionArguments o ++ v.name :: ws) = (Command.ofWords ws v).map fun c => (c, o) := by
  rw [readArguments, Draft.read_command o v h]
  simp only [bind, Except.bind, Draft.command]
  cases Command.ofWords ws v with
  | error e => rfl
  | ok c => rfl

theorem readArguments_command (given : Option String) (v : Verb) {ws : List String}
    (h : ∀ w ∈ ws, w ∉ optionWords) :
    readArguments (modeArguments given ++ v.name :: ws) =
      (Command.ofWords ws v).map fun c => (c, { mode := given }) := by
  have := readArguments_options { mode := given } v h
  rwa [optionArguments, if_neg Bool.false_ne_true, if_neg Bool.false_ne_true,
    List.append_nil, List.append_nil] at this

theorem Command.run_of_effectiveMode {preferred : Preferences} {options : Options} {m : Mode}
    (hm : effectiveMode preferred options = .ok m) (c : Command) :
    c.run preferred options = (c.report m).map (Report.render (options.json || preferred.json)) := by
  rw [run, hm]
  simp only [bind, Except.bind]
  cases c.report m with
  | error e => rfl
  | ok r => rfl

/-- The arguments make up a command, and running it comes to this. -/
def Runs (preferred : Preferences) (args : List String) (result : Except Refusal String) : Prop :=
  ∃ c o, readArguments args = .ok (c, o) ∧ c.run preferred o = result

theorem runs_words {preferred : Preferences} {o : Options} {m : Mode}
    (hm : Command.effectiveMode preferred o = .ok m)
    {v : Verb} {ws : List String} (hws : ∀ w ∈ ws, w ∉ optionWords) {c : Command}
    (hc : Command.ofWords ws v = .ok c) :
    Runs preferred (optionArguments o ++ v.name :: ws)
      ((c.report m).map (Report.render (o.json || preferred.json))) := by
  refine ⟨c, o, ?_, Command.run_of_effectiveMode hm c⟩
  rw [readArguments_options o v hws, hc]
  rfl

/-! ## Clauses in several words -/

namespace Subject

theorem filters_empty (t : Subject) : t.filters "" = .ok [] := by
  rw [filters_eq]
  rfl

theorem filters_joined {t : Subject} : ∀ {ws : List String} {ps : List Predicate},
    t.filters (" ".intercalate ws) = .ok ps ↔
      ∃ pss, List.Forall₂ (fun w qs => t.filters w = .ok qs) ws pss ∧ ps = pss.flatten
  | [], ps => by
    rw [String.intercalate_nil, filters_empty]
    simp [eq_comm]
  | [w], ps => by
    rw [String.intercalate_singleton]
    refine ⟨fun h => ⟨[ps], .cons h .nil, by simp⟩, fun h => ?_⟩
    obtain ⟨pss, hpss, e⟩ := h
    match pss, hpss with
    | [qs], .cons hqs .nil => simpa [e] using hqs
  | w :: v :: ws, ps => by
    have hgap : IsGap " ".toList := by simp [IsGap, isBlank_space]
    have ih : ∀ qs, t.filters (" ".intercalate (v :: ws)) = .ok qs ↔ _ := fun qs => filters_joined
    rw [String.intercalate_cons_cons, filters_append_gap_ok_iff (by decide) hgap]
    simp only [ih]
    refine ⟨fun h => ?_, fun h => ?_⟩
    · obtain ⟨qs, _, hqs, ⟨pss, hpss, rfl⟩, e⟩ := h
      exact ⟨qs :: pss, .cons hqs hpss, by rw [e, List.flatten_cons]⟩
    · obtain ⟨pss, hpss, e⟩ := h
      match pss, hpss with
      | qs :: pss, .cons hqs hpss =>
        exact ⟨qs, pss.flatten, hqs, ⟨pss, hpss, rfl⟩, by rw [e, List.flatten_cons]⟩

theorem filters_joined_isOk {t : Subject} {ws : List String} :
    (∃ ps, t.filters (" ".intercalate ws) = .ok ps) ↔ ∀ w ∈ ws, ∃ qs, t.filters w = .ok qs := by
  simp only [← mapM_isOk_iff, mapM_ok_iff, filters_joined]
  exact ⟨fun ⟨_, pss, hpss, _⟩ => ⟨pss, hpss⟩, fun ⟨pss, hpss⟩ => ⟨_, pss, hpss, rfl⟩⟩

end Subject

/-- What the words behind the verb are about in a mode, if they are a filter text of clauses. -/
def Verb.subject? (m : Mode) : Verb → Option Subject
  | .score => some (.scores m)
  | .beatmap => some .beatmaps
  | .beatmapset => some .beatmapsets
  | .mods => none
  | .sort => none
  | .users => none

theorem exists_command_of_subject? {m : Mode} {v : Verb} {t : Subject} (h : v.subject? m = some t)
    (ws : List String) : ∃ c, Command.ofWords ws v = .ok c ∧
      c.report m = (t.filters (" ".intercalate ws)).map Report.predicates := by
  cases v with
  | score => exact ⟨_, rfl, Option.some.inj h ▸ rfl⟩
  | beatmap => exact ⟨_, rfl, Option.some.inj h ▸ rfl⟩
  | beatmapset => exact ⟨_, rfl, Option.some.inj h ▸ rfl⟩
  | mods => cases h
  | sort => cases h
  | users => cases h

theorem map_predicates_ok_iff {x : Except Refusal (List Predicate)} {ps : List Predicate} :
    x.map Report.predicates = .ok (.predicates ps) ↔ x = .ok ps := by
  simp [map_ok_iff]

theorem map_isOk_iff {ε α β : Type} {f : α → β} {x : Except ε α} : (∃ b, x.map f = .ok b) ↔ ∃ a, x = .ok a := by
  simp only [map_ok_iff]
  exact ⟨fun ⟨_, a, ha, _⟩ => ⟨a, ha⟩, fun ⟨a, ha⟩ => ⟨f a, a, ha, rfl⟩⟩

/-- However the text of a filter is cut into words, the command finds the same. The words of clauses are
read one by one, each as a filter text of its own, and the predicates that they ask for follow one
another. The words of a mod filter are read as the one text that they make up. -/
theorem filter_words_compose {preferred : Preferences} {given : Option String} {m : Mode}
    (hm : Command.effectiveMode preferred { mode := given } = .ok m) {ws : List String}
    (hws : ∀ w ∈ ws, w ∉ optionWords) :
    (∀ v t, Verb.subject? m v = some t →
      ∃ c, readArguments (modeArguments given ++ v.name :: ws) = .ok (c, { mode := given }) ∧
        c.run preferred { mode := given } = (c.report m).map (Report.render preferred.json) ∧
        (∀ ps, c.report m = .ok (.predicates ps) ↔
          ∃ pss, List.Forall₂ (fun w qs => t.filters w = .ok qs) ws pss ∧ ps = pss.flatten) ∧
        ((∃ out, c.run preferred { mode := given } = .ok out) ↔ ∀ w ∈ ws, ∃ qs, t.filters w = .ok qs)) ∧
    ∃ c, readArguments (modeArguments given ++ Verb.mods.name :: ws) = .ok (c, { mode := given }) ∧
      c.run preferred { mode := given } =
        (ModFilter.ofText m (String.join ws)).map (fun f => (Report.modFilter f).render preferred.json) ∧
      ∀ vs : List String, (∀ w ∈ vs, w ∉ optionWords) → String.join vs = String.join ws →
        readArguments (modeArguments given ++ Verb.mods.name :: vs) = .ok (c, { mode := given }) := by
  have hrun := Command.run_of_effectiveMode hm
  refine ⟨fun v t ht => ?_, .mods (String.join ws), ?_, ?_, fun vs hvs hjoin => ?_⟩
  · obtain ⟨c, hc, hreport⟩ := exists_command_of_subject? ht ws
    refine ⟨c, by rw [readArguments_command given v hws, hc]; rfl, hrun c, fun ps => ?_, ?_⟩
    · rw [hreport, map_predicates_ok_iff, Subject.filters_joined]
    · rw [hrun, map_isOk_iff, hreport, map_isOk_iff, Subject.filters_joined_isOk]
  · rw [readArguments_command given .mods hws]
    rfl
  · rw [hrun]
    simp only [Command.report]
    cases ModFilter.ofText m (String.join ws) with
    | error e => rfl
    | ok f => rfl
  · rw [readArguments_command given .mods hvs, ← hjoin]
    rfl

/-- The sigma ends its word although a letter stands in the next one; an acronym may be cut in two. -/
theorem filter_words_compose_sigma : Command.effectiveMode {} {} = .ok .osu ∧
    (∃ c, readArguments ["score", "PP>ΟΣ", "Rank/xh"] = .ok (c, {}) ∧ c.report .osu =
      .ok (.predicates [.compare (.score .osu .pp) .gt "ος", .oneOf (.score .osu .rank) ["XH"]])) ∧
    ∃ c, readArguments ["mods", "-n", "f+Hd"] = .ok (c, {}) ∧
    readArguments ["mods", "-nf+", "", "Hd"] = .ok (c, {}) ∧
      c.run {} {} = .ok "enabled_mods does not contain NF\nenabled_mods contains HD\n" := by
  have hm : Command.effectiveMode {} {} = .ok .osu := by decide
  have hscore : ∀ w ∈ ["PP>ΟΣ", "Rank/xh"], w ∉ optionWords := by decide
  have hmods : ∀ w ∈ ["-n", "f+Hd"], w ∉ optionWords := by decide
  obtain ⟨c, hc, _, hps, _⟩ := (filter_words_compose hm hscore).1 .score _ rfl
  obtain ⟨d, hd, hrun, hsame⟩ := (filter_words_compose hm hmods).2
  refine ⟨hm, ⟨c, hc, (hps _).mpr ?_⟩, d, hd, hsame ["-nf+", "", "Hd"] (by decide) (by decide), ?_⟩
  · exact ⟨[[.compare (.score .osu .pp) .gt "ος"], [.oneOf (.score .osu .rank) ["XH"]]],
      .cons (by decide +kernel) (.cons (by decide +kernel) .nil), rfl⟩
  · rw [hrun]
    decide +kernel

end RhythmFilter
