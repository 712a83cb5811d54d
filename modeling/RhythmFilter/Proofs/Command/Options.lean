import RhythmFilter.Command.Arguments
import RhythmFilter.Proofs.FirstRefusal

/-!
# Options anywhere

Arguments are read one after another, so a list of arguments is read by reading a front of it that does
not end in the middle of an option, and then the rest. An option changes nothing but the options, however
far in front of the other arguments it stands.
-/

namespace RhythmFilter

/-- The arguments end in a `--mode` to which the next argument would belong. -/
def awaitsMode : List String → Bool
  | [] => false
  | arg :: args =>
    if arg = "--mode" then
      match args with
      | [] => true
      | _ :: args => awaitsMode args
    else awaitsMode args

def givenModes : List String → List String
  | [] => []
  | arg :: args =>
    if arg = "--mode" then
      match args with
      | [] => []
      | mode :: args => mode :: givenModes args
    else givenModes args

namespace Draft

theorem read_mode (d : Draft) (mode : String) (args : List String) :
    d.read ("--mode" :: mode :: args) = (d.setMode mode).read args := rfl

theorem read_add {arg : String} (h : arg ≠ "--mode") (d : Draft) (args : List String) :
    d.read (arg :: args) = d.add arg >>= fun d => d.read args := by
  rw [read.eq_def]
  exact if_neg h

theorem read_append {pre : List String} (h : awaitsMode pre = false) (rest : List String) (d : Draft) :
    d.read (pre ++ rest) = d.read pre >>= fun d => d.read rest := by
  fun_induction awaitsMode pre generalizing d with
  | case1 => rfl
  | case2 => cases h
  | case3 mode pre ih => exact ih h (d.setMode mode)
  | case4 arg pre harg ih =>
    rw [List.cons_append, read_add harg, read_add harg, bind_assoc]
    exact bind_congr (ih h)

/-! ## Changed options -/

def withOptions (f : Options → Options) (d : Draft) : Draft := { d with options := f d.options }

def result (d : Draft) : Except UsageFault (Command × Options) := do
  let command ← d.command
  return (command, d.options)

theorem result_withOptions (f : Options → Options) (d : Draft) :
    (d.withOptions f).result = d.result.map fun r => (r.1, f r.2) := by
  have hcommand : (d.withOptions f).command = d.command := rfl
  unfold result
  rw [hcommand]
  cases d.command with
  | error e => rfl
  | ok c => rfl

theorem addWord_withOptions (f : Options → Options) (d : Draft) (arg : String) :
    (d.withOptions f).addWord arg = (d.addWord arg).map (withOptions f) := by
  obtain ⟨verb, ws, options⟩ := d
  cases verb with
  | some v => rfl
  | none =>
    simp only [addWord, withOptions]
    cases Verb.ofName? arg with
    | none => rfl
    | some v => rfl

section
variable {f : Options → Options} (hjson : ∀ o : Options, f { o with json := true } = { f o with json := true })
  (hverbose : ∀ o : Options, f { o with verbose := true } = { f o with verbose := true })
include hjson hverbose

theorem add_withOptions (d : Draft) (arg : String) :
    (d.withOptions f).add arg = (d.add arg).map (withOptions f) := by
  unfold add
  split
  · simp [withOptions, hjson, Except.map]
  · split
    · simp [withOptions, hverbose, Except.map]
    · exact addWord_withOptions f d arg

variable (hmode : ∀ (o : Options) m, f { o with mode := some m } = { f o with mode := some m })
include hmode

theorem read_withOptions (args : List String) (d : Draft) :
    (d.withOptions f).read args = (d.read args).map (withOptions f) := by
  fun_induction awaitsMode args generalizing d with
  | case1 => rfl
  | case2 => rfl
  | case3 mode args ih =>
    have hset : (d.withOptions f).setMode mode = (d.setMode mode).withOptions f := by
      simp [setMode, withOptions, hmode]
    rw [read_mode, read_mode, hset, ih]
  | case4 arg args harg ih =>
    rw [read_add harg, read_add harg, add_withOptions hjson hverbose]
    cases d.add arg with
    | error e => rfl
    | ok d => exact ih d

theorem read_flag {word : String} (hne : word ≠ "--mode")
    (hadd : ∀ d : Draft, d.add word = .ok (d.withOptions f))
    (args : List String) (d : Draft) : d.read ([word] ++ args) = (d.read args).map (withOptions f) := by
  rw [List.singleton_append, read_add hne, hadd]
  exact read_withOptions hjson hverbose hmode args d

end

theorem add_json (d : Draft) : d.add "--json" = .ok (d.withOptions fun o => { o with json := true }) := by
  simp [add, withOptions]

theorem add_verbose {word : String} (h : word = "--verbose" ∨ word = "-v") (d : Draft) :
    d.add word = .ok (d.withOptions fun o => { o with verbose := true }) := by
  have hne : word ≠ "--json" := by
    rcases h with e | e
    all_goals
      subst e
      decide
  simp [add, withOptions, h, hne]

theorem read_setMode (x : String) (args : List String) (d : Draft) : (d.setMode x).read args =
    (d.read args).map (withOptions fun o => if givenModes args = [] then { o with mode := some x } else o) := by
  fun_induction givenModes args generalizing d with
  | case1 => rfl
  | case2 => rfl
  | case3 mode args _ =>
    have hset : (d.setMode x).setMode mode = d.setMode mode := rfl
    simp only [read_mode, hset, reduceCtorEq, ite_false]
    cases (d.setMode mode).read args with
    | error e => rfl
    | ok d => rfl
  | case4 arg args harg ih =>
    have hset : ∀ d : Draft, d.setMode x = d.withOptions fun o => { o with mode := some x } := fun _ => rfl
    rw [read_add harg, read_add harg, hset, add_withOptions (fun _ => rfl) fun _ => rfl]
    cases d.add arg with
    | error e => rfl
    | ok d => exact ih d

end Draft

section
variable {pre opt post : List String} {f : Options → Options}

theorem readArguments_append (pre rest : List String) (hpre : awaitsMode pre = false) :
    readArguments (pre ++ rest) =
    Draft.read {} pre >>= fun d => d.read rest >>= Draft.result := by
  have heq : readArguments (pre ++ rest) = Draft.read {} (pre ++ rest) >>= Draft.result := rfl
  rw [heq, Draft.read_append hpre, bind_assoc]

theorem readArguments_insert (hpre : awaitsMode pre = false)
    (hopt : ∀ d : Draft, d.read (opt ++ post) = (d.read post).map (Draft.withOptions f)) :
    readArguments (pre ++ opt ++ post) = (readArguments (pre ++ post)).map fun r => (r.1, f r.2) := by
  rw [List.append_assoc, readArguments_append _ _ hpre, readArguments_append _ _ hpre]
  cases Draft.read {} pre with
  | error e => rfl
  | ok d =>
    simp only [bind, Except.bind]
    rw [hopt]
    cases d.read post with
    | error e => rfl
    | ok d => exact Draft.result_withOptions f d

end

/-- An option may stand anywhere but behind a `--mode` that waits for its value. Wherever it stands, it
changes the options and nothing else, also not what is refused; of two modes the later one counts. -/
theorem options_stand_anywhere {pre : List String} (hpre : awaitsMode pre = false) (post : List String) :
    (readArguments (pre ++ ["--json"] ++ post) =
      (readArguments (pre ++ post)).map fun r => (r.1, { r.2 with json := true })) ∧
    (∀ word ∈ ["--verbose", "-v"], readArguments (pre ++ [word] ++ post) =
      (readArguments (pre ++ post)).map fun r => (r.1, { r.2 with verbose := true })) ∧
    ∀ x, readArguments (pre ++ ["--mode", x] ++ post) = (readArguments (pre ++ post)).map fun r =>
      (r.1, if givenModes post = [] then { r.2 with mode := some x } else r.2) := by
  refine ⟨?_, fun word hword => ?_, fun x => ?_⟩
  · refine readArguments_insert (f := fun o => { o with json := true }) hpre fun d => ?_
    exact Draft.read_flag (fun _ => rfl) (fun _ => rfl) (fun _ _ => rfl) (by decide) Draft.add_json post d
  · have hword : word = "--verbose" ∨ word = "-v" := by simpa using hword
    have hne : word ≠ "--mode" := by
      rcases hword with e | e
      all_goals
        subst e
        decide
    refine readArguments_insert (f := fun o => { o with verbose := true }) hpre fun d => ?_
    exact Draft.read_flag (fun _ => rfl) (fun _ => rfl) (fun _ _ => rfl) hne (Draft.add_verbose hword) post d
  · refine readArguments_insert (f := fun o => if givenModes post = [] then { o with mode := some x } else o)
      hpre fun d => ?_
    exact Draft.read_setMode x post d

/-- The value of the first mode looks like an option, and the second mode like a command. -/
theorem options_between_words : awaitsMode ["--mode", "--json", "users"] = false ∧
    readArguments (["--mode", "--json", "users"] ++ ["--mode", "sort"] ++ ["2,x", "-v"]) =
      .error (.invalidUserId "x") ∧
    readArguments (["--mode", "--json", "users"] ++ ["--mode", "sort"] ++ ["2", "-v"]) =
      .ok (.users [2], ⟨some "sort", false, true⟩) := by
  have hpre : awaitsMode ["--mode", "--json", "users"] = false := by decide
  have hfault : readArguments (["--mode", "--json", "users"] ++ ["2,x", "-v"]) =
      .error (.invalidUserId "x") := by
    decide +kernel
  have hok : readArguments (["--mode", "--json", "users"] ++ ["2", "-v"]) =
      .ok (.users [2], ⟨some "--json", false, true⟩) := by
    decide +kernel
  refine ⟨hpre, ?_, ?_⟩
  · rw [(options_stand_anywhere hpre ["2,x", "-v"]).2.2 "sort", hfault]
    rfl
  · rw [(options_stand_anywhere hpre ["2", "-v"]).2.2 "sort", hok]
    rfl

end RhythmFilter
