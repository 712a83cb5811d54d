import RhythmFilter.ModFilter.Run

/-!
# Rows of runs

`isRuns` accepts the texts that proper runs make up, and `runs` finds these runs again: a text is a row
of runs in one way at most.
-/

namespace RhythmFilter

open Text

theorem Sign.ofChar?_char (sign : Sign) : Sign.ofChar? sign.char = some sign := by
  cases sign with
  | plus => rfl
  | minus => rfl

theorem Sign.char_of_ofChar? {c : Char} {sign : Sign} (h : Sign.ofChar? c = some sign) : c = sign.char := by
  unfold Sign.ofChar? at h
  by_cases h1 : c = '+'
  · simp only [h1, ite_true, Option.some.injEq] at h
    rw [h1, ← h, char]
  · by_cases h2 : c = '-'
    · simp [h2] at h
      rw [h2, ← h, char]
    · simp [h1, h2] at h

theorem Sign.isWordChar_char (sign : Sign) : isWordChar sign.char = false := by
  cases sign with
  | plus => decide +kernel
  | minus => decide +kernel

def Run.IsProper (r : Run) : Prop := r.mods ≠ [] ∧ ∀ c ∈ r.mods, isWordChar c = true

def rowText (rs : List Run) : List Char := rs.flatMap Run.text

theorem rowText_cons (r : Run) (rs : List Run) : rowText (r :: rs) = r.sign.char :: (r.mods ++ rowText rs) :=
  rfl

structure IsRow (text : List Char) (rs : List Run) : Prop where
  nonempty : rs ≠ []
  proper : ∀ r ∈ rs, r.IsProper
  text_eq : text = rowText rs

/-! ## The automaton -/

/-- What may follow in a state: the word characters before the next sign, and the runs from there. -/
def RunState.Expects (word : List Char) (rs : List Run) : RunState → Prop
  | .start => word = [] ∧ rs ≠ []
  | .sign => word ≠ []
  | .word => True

structure RunState.Rest (state : RunState) (s word : List Char) (rs : List Run) : Prop where
  text_eq : s = word ++ rowText rs
  word_chars : ∀ c ∈ word, isWordChar c = true
  proper : ∀ r ∈ rs, r.IsProper
  expects : state.Expects word rs

namespace RunState

theorem Rest.grow {state next : RunState} {c : Char} {s word : List Char} {rs : List Run}
    (h : next.Rest s word rs) (hc : isWordChar c = true) (hs : state ≠ .start) :
    state.Rest (c :: s) (c :: word) rs := by
  refine ⟨by rw [h.text_eq]; rfl, List.forall_mem_cons.mpr ⟨hc, h.word_chars⟩, h.proper, ?_⟩
  cases state with
  | start => exact absurd rfl hs
  | sign => exact List.cons_ne_nil c word
  | word => trivial

theorem Rest.begin {state : RunState} {c : Char} {sign : Sign} {s word : List Char} {rs : List Run}
    (h : RunState.sign.Rest s word rs) (hc : Sign.ofChar? c = some sign) (hs : state ≠ .sign) :
    state.Rest (c :: s) [] (⟨sign, word⟩ :: rs) := by
  refine ⟨?_, by simp, List.forall_mem_cons.mpr ⟨⟨h.expects, h.word_chars⟩, h.proper⟩, ?_⟩
  · rw [List.nil_append, rowText_cons, ← Sign.char_of_ofChar? hc, h.text_eq]
  · cases state with
    | start => exact ⟨rfl, List.cons_ne_nil _ _⟩
    | sign => exact absurd rfl hs
    | word => trivial

theorem exists_rest : ∀ {s : List Char} {state : RunState}, state.completes s = true →
    ∃ word rs, state.Rest s word rs
  | [], state, h => by
    have : state = .word := by simpa [completes] using h
    subst this
    exact ⟨[], [], rfl, by simp, by simp, trivial⟩
  | c :: s, state, h => by
    unfold completes at h
    cases hstep : state.step? c with
    | none => simp [hstep] at h
    | some next =>
      simp only [hstep] at h
      obtain ⟨word, rs, hr⟩ := exists_rest h
      -- the character belongs to the word in front, or begins a run with that word
      cases state with
      | start =>
        obtain ⟨sign, hc, e⟩ := Option.map_eq_some_iff.mp hstep
        subst e
        exact ⟨[], _, hr.begin hc (by simp)⟩
      | sign =>
        by_cases hc : isWordChar c = true
        · exact ⟨_, rs, hr.grow hc (by simp)⟩
        · simp [step?, hc] at hstep
      | word =>
        by_cases hc : isWordChar c = true
        · exact ⟨_, rs, hr.grow hc (by simp)⟩
        · simp only [step?, hc] at hstep
          obtain ⟨sign, hc, e⟩ := Option.map_eq_some_iff.mp hstep
          subst e
          exact ⟨[], _, hr.begin hc (by simp)⟩

theorem completes_word {t : List Char} : ∀ {w : List Char}, (∀ c ∈ w, isWordChar c = true) →
    RunState.word.completes (w ++ t) = RunState.word.completes t
  | [], _ => rfl
  | c :: w, h => by
    obtain ⟨hc, hw⟩ := List.forall_mem_cons.mp h
    have ih : RunState.word.completes (w ++ t) = RunState.word.completes t := completes_word hw
    simp [completes, step?, hc, ih]

theorem completes_sign {w t : List Char} (hne : w ≠ []) (h : ∀ c ∈ w, isWordChar c = true) :
    RunState.sign.completes (w ++ t) = RunState.word.completes t := by
  obtain ⟨c, w', e⟩ := List.exists_cons_of_ne_nil hne
  subst e
  obtain ⟨hc, hw⟩ := List.forall_mem_cons.mp h
  have : RunState.word.completes (w' ++ t) = RunState.word.completes t := completes_word hw
  simp [completes, step?, hc, this]

theorem completes_row : ∀ {rs : List Run}, (∀ r ∈ rs, r.IsProper) → RunState.word.completes (rowText rs) = true
  | [], _ => by simp [rowText, completes]
  | r :: rs, h => by
    obtain ⟨⟨hne, hw⟩, hrs⟩ := List.forall_mem_cons.mp h
    have ih : RunState.word.completes (rowText rs) = true := completes_row hrs
    rw [rowText_cons]
    simp [completes, step?, Sign.isWordChar_char, Sign.ofChar?_char, completes_sign hne hw, ih]

end RunState

theorem isRuns_iff {s : List Char} : isRuns s = true ↔ ∃ rs, IsRow s rs := by
  refine ⟨fun h => ?_, fun h => ?_⟩
  · obtain ⟨word, rs, hr⟩ := RunState.exists_rest h
    obtain ⟨hword, hne⟩ := hr.expects
    refine ⟨rs, hne, hr.proper, ?_⟩
    rw [hr.text_eq, hword, List.nil_append]
  · obtain ⟨rs, hne, hr, hs⟩ := h
    obtain ⟨r, rs', e⟩ := List.exists_cons_of_ne_nil hne
    subst e
    obtain ⟨⟨hword, hw⟩, hrs⟩ := List.forall_mem_cons.mp hr
    rw [hs, rowText_cons]
    simp [isRuns, RunState.completes, RunState.step?, Sign.ofChar?_char,
      RunState.completes_sign hword hw, RunState.completes_row hrs]

/-! ## The scan -/

theorem scanRuns_word {t : List Char} : ∀ {w : List Char}, (∀ c ∈ w, isWordChar c = true) →
    scanRuns (w ++ t) = (w ++ (scanRuns t).1, (scanRuns t).2)
  | [], _ => rfl
  | c :: w, h => by
    obtain ⟨hc, hw⟩ := List.forall_mem_cons.mp h
    have ih : scanRuns (w ++ t) = (w ++ (scanRuns t).1, (scanRuns t).2) := scanRuns_word hw
    simp [scanRuns, hc, ih]

theorem scanRuns_row : ∀ {rs : List Run}, (∀ r ∈ rs, r.IsProper) → scanRuns (rowText rs) = ([], rs)
  | [], _ => rfl
  | r :: rs, h => by
    obtain ⟨⟨hne, hw⟩, hrs⟩ := List.forall_mem_cons.mp h
    have ih : scanRuns (rowText rs) = ([], rs) := scanRuns_row hrs
    rw [rowText_cons, scanRuns, scanRuns_word hw, ih]
    simp [Sign.isWordChar_char, Sign.ofChar?_char, hne]

theorem runs_of_isRow {s : List Char} {rs : List Run} (h : IsRow s rs) : runs s = rs := by
  rw [runs, h.text_eq, scanRuns_row h.proper]

theorem isRow_unique {s : List Char} {rs qs : List Run} (h : IsRow s rs) (h' : IsRow s qs) : rs = qs :=
  (runs_of_isRow h).symm.trans (runs_of_isRow h')

end RhythmFilter
