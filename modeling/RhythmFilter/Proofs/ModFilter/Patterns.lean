import Mathlib.Computability.Language
import RhythmFilter.Proofs.ModFilter.Cutting
import RhythmFilter.Proofs.ModFilter.Rows

/-!
# Two patterns for runs

A run is a sign and one or more word characters, and a row is one or more runs. As patterns the two are
languages: `isRuns` accepts the texts of the second one, and `runs` gives the matches of the first one
that a search from left to right meets, in a text of any kind. The two are written separately, and agree:
in a row the matches make up the text, and a text of matches is a row.
-/

namespace RhythmFilter

open Text
open scoped Computability

def oneOf (p : Char → Bool) : Language Char := {w | ∃ c, p c = true ∧ w = [c]}

def oneOrMore (l : Language Char) : Language Char := l * l∗

def runPattern : Language Char := oneOf (fun c => c = '+' || c = '-') * oneOrMore (oneOf isWordChar)

def rowPattern : Language Char := oneOrMore runPattern

theorem mem_oneOf {p : Char → Bool} {w : List Char} : w ∈ oneOf p ↔ ∃ c, p c = true ∧ w = [c] := Iff.rfl

theorem mem_oneOrMore {l : Language Char} {w : List Char} :
    w ∈ oneOrMore l ↔ ∃ ws, ws ≠ [] ∧ (∀ v ∈ ws, v ∈ l) ∧ ws.flatten = w := by
  rw [oneOrMore, Language.mem_mul]
  refine ⟨fun h => ?_, fun h => ?_⟩
  · obtain ⟨v, hv, rest, hrest, e⟩ := h
    obtain ⟨vs, hflat, hvs⟩ := Language.mem_kstar.mp hrest
    refine ⟨v :: vs, List.cons_ne_nil v vs, List.forall_mem_cons.mpr ⟨hv, hvs⟩, ?_⟩
    rw [List.flatten_cons, ← hflat, e]
  · obtain ⟨ws, hne, hws, e⟩ := h
    obtain ⟨v, vs, rfl⟩ := List.exists_cons_of_ne_nil hne
    obtain ⟨hv, hvs⟩ := List.forall_mem_cons.mp hws
    exact ⟨v, hv, vs.flatten, Language.mem_kstar.mpr ⟨vs, rfl, hvs⟩, e⟩

theorem mem_oneOrMore_oneOf {p : Char → Bool} {w : List Char} :
    w ∈ oneOrMore (oneOf p) ↔ w ≠ [] ∧ ∀ c ∈ w, p c = true := by
  rw [mem_oneOrMore]
  refine ⟨fun h => ?_, fun h => ?_⟩
  · obtain ⟨ws, hne, hws, rfl⟩ := h
    refine ⟨fun hnil => ?_, fun c hc => ?_⟩
    · obtain ⟨v, vs, rfl⟩ := List.exists_cons_of_ne_nil hne
      obtain ⟨c, _, e⟩ := mem_oneOf.mp (hws v List.mem_cons_self)
      rw [e] at hnil
      exact List.cons_ne_nil _ _ hnil
    · obtain ⟨v, hv, hcv⟩ := List.mem_flatten.mp hc
      obtain ⟨d, hd, rfl⟩ := mem_oneOf.mp (hws v hv)
      rwa [List.mem_singleton.mp hcv]
  · obtain ⟨hne, hw⟩ := h
    refine ⟨w.map ([·]), by simpa using hne, List.forall_mem_map.mpr fun c hc => ⟨c, hw c hc, rfl⟩, ?_⟩
    rw [← List.flatMap_def, List.flatMap_singleton']

theorem Sign.exists_char_iff {c : Char} : (c = '+' || c = '-') = true ↔ ∃ sign : Sign, c = sign.char := by
  rw [Bool.or_eq_true, decide_eq_true_iff, decide_eq_true_iff]
  refine ⟨fun h => ?_, fun h => ?_⟩
  · rcases h with e | e
    · exact ⟨.plus, e⟩
    · exact ⟨.minus, e⟩
  · obtain ⟨sign, e⟩ := h
    cases sign with
    | plus => exact Or.inl e
    | minus => exact Or.inr e

theorem mem_runPattern {w : List Char} : w ∈ runPattern ↔ ∃ r : Run, r.IsProper ∧ r.text = w := by
  rw [runPattern, Language.mem_mul]
  refine ⟨fun h => ?_, fun h => ?_⟩
  · obtain ⟨front, hfront, mods, hmods, e⟩ := h
    obtain ⟨c, hc, rfl⟩ := mem_oneOf.mp hfront
    obtain ⟨sign, rfl⟩ := Sign.exists_char_iff.mp hc
    exact ⟨⟨sign, mods⟩, mem_oneOrMore_oneOf.mp hmods, e⟩
  · obtain ⟨r, hr, e⟩ := h
    exact ⟨_, ⟨_, Sign.exists_char_iff.mpr ⟨r.sign, rfl⟩, rfl⟩, r.mods, mem_oneOrMore_oneOf.mpr hr, e⟩

theorem forall_mem_runPattern {ws : List (List Char)} :
    (∀ w ∈ ws, w ∈ runPattern) ↔ ∃ rs : List Run, (∀ r ∈ rs, r.IsProper) ∧ rs.map Run.text = ws := by
  refine ⟨fun h => ?_, fun h => ?_⟩
  · induction ws with
    | nil => exact ⟨[], nofun, rfl⟩
    | cons w ws ih =>
      obtain ⟨hw, hws⟩ := List.forall_mem_cons.mp h
      obtain ⟨r, hr, e⟩ := mem_runPattern.mp hw
      obtain ⟨rs, hrs, e'⟩ := ih hws
      exact ⟨r :: rs, List.forall_mem_cons.mpr ⟨hr, hrs⟩, by rw [List.map_cons, e, e']⟩
  · obtain ⟨rs, hrs, rfl⟩ := h
    exact List.forall_mem_map.mpr fun r hr => mem_runPattern.mpr ⟨r, hrs r hr, rfl⟩

theorem flatten_map_text (rs : List Run) : (rs.map Run.text).flatten = rowText rs := by
  rw [rowText, List.flatMap_def]

theorem mem_rowPattern {s : List Char} : s ∈ rowPattern ↔ ∃ rs, IsRow s rs := by
  rw [rowPattern, mem_oneOrMore]
  refine ⟨fun h => ?_, fun h => ?_⟩
  · obtain ⟨ws, hne, hws, rfl⟩ := h
    obtain ⟨rs, hrs, rfl⟩ := forall_mem_runPattern.mp hws
    exact ⟨rs, by simpa using hne, hrs, flatten_map_text rs⟩
  · obtain ⟨rs, hne, hrs, e⟩ := h
    refine ⟨rs.map Run.text, by simpa using hne, forall_mem_runPattern.mpr ⟨rs, hrs, rfl⟩, ?_⟩
    rw [flatten_map_text, e]

theorem isRuns_iff_mem {s : List Char} : isRuns s = true ↔ s ∈ rowPattern :=
  isRuns_iff.trans mem_rowPattern.symm

/-! ## Searching from left to right -/

/-- The matches of a pattern that a search meets: the next one begins as far left as any, is the longest that
begins there, and the search goes on behind it. -/
inductive Found (l : Language Char) : List (List Char) → List Char → Prop
  | nothing {s : List Char} : (∀ w ∈ l, ¬ w <:+: s) → Found l [] s
  | next {before w after : List Char} {ws : List (List Char)} : w ∈ l →
    (∀ u v t, v ∈ l → u ++ (v ++ t) = before ++ (w ++ after) → before.length ≤ u.length) →
    (∀ v t, v ∈ l → v ++ t = w ++ after → v.length ≤ w.length) → Found l ws after →
    Found l (w :: ws) (before ++ (w ++ after))

namespace Found

variable {l : Language Char} {ws : List (List Char)} {s : List Char}

theorem unique {vs : List (List Char)} (h : Found l ws s) (h' : Found l vs s) : ws = vs := by
  induction h generalizing vs with
  | nothing hno =>
    cases h' with
    | nothing => rfl
    | @next before w after _ hw => exact absurd ⟨before, after, List.append_assoc ..⟩ (hno w hw)
  | @next before w after ws hw hleft hlong _ ih =>
    generalize hs : before ++ (w ++ after) = s at h'
    cases h' with
    | nothing hno => exact absurd ⟨before, after, (List.append_assoc ..).trans hs⟩ (hno w hw)
    | @next before' w' after' vs hw' hleft' hlong' hrest' =>
      have hlen := Nat.le_antisymm (hleft _ _ _ hw' hs.symm) (hleft' _ _ _ hw hs)
      obtain ⟨_, hs⟩ := List.append_inj hs hlen
      have hlen := Nat.le_antisymm (hlong' _ _ hw hs) (hlong _ _ hw' hs.symm)
      obtain ⟨rfl, rfl⟩ := List.append_inj hs hlen
      rw [ih hrest']

theorem skip {c : Char} (h : Found l ws s) (hno : ∀ v t, v ∈ l → v ++ t ≠ c :: s) : Found l ws (c :: s) := by
  cases h with
  | nothing hs =>
    refine .nothing fun w hw hin => ?_
    rcases List.infix_cons_iff.mp hin with ⟨t, e⟩ | hin
    · exact hno w t hw e
    · exact hs w hw hin
  | @next before w after ws hw hleft hlong hrest =>
    refine @Found.next l (c :: before) w after ws hw (fun u v t hv e => ?_) hlong hrest
    cases u with
    | nil => exact absurd e (hno v t hv)
    | cons d u => exact Nat.succ_le_succ (hleft u v t hv (List.cons.inj e).2)

end Found

/-! ## The scan as a search -/

theorem front_of_mem_runPattern {v t s : List Char} {c : Char} (hv : v ∈ runPattern) (h : v ++ t = c :: s) :
    ∃ r : Run, r.IsProper ∧ r.text = v ∧ r.sign.char = c ∧ r.mods ++ t = s := by
  obtain ⟨r, hr, rfl⟩ := mem_runPattern.mp hv
  obtain ⟨hc, hs⟩ := List.cons.inj h
  exact ⟨r, hr, rfl, hc, hs⟩

theorem Found.skip_unsigned {ws : List (List Char)} {s : List Char} (h : Found runPattern ws s) :
    ∀ {u : List Char}, (∀ c ∈ u, ∀ sign : Sign, sign.char ≠ c) → Found runPattern ws (u ++ s)
  | [], _ => h
  | c :: u, hu => by
    obtain ⟨hc, hu⟩ := List.forall_mem_cons.mp hu
    refine skip (h.skip_unsigned hu) fun v t hv e => ?_
    obtain ⟨r, _, _, hsign, _⟩ := front_of_mem_runPattern hv e
    exact hc r.sign hsign

theorem Sign.char_ne_of_isWordChar {c : Char} (hc : isWordChar c = true) (sign : Sign) : sign.char ≠ c := by
  rintro rfl
  rw [sign.isWordChar_char] at hc
  cases hc

theorem Found.skip_word {ws : List (List Char)} {s u : List Char} (h : Found runPattern ws s)
    (hu : ∀ c ∈ u, isWordChar c = true) : Found runPattern ws (u ++ s) :=
  h.skip_unsigned fun c hc => Sign.char_ne_of_isWordChar (hu c hc)

theorem Found.skip_bare {ws : List (List Char)} {s : List Char} {c : Char} (h : Found runPattern ws s)
    (hs : ∀ d ∈ s.head?, isWordChar d = false) : Found runPattern ws (c :: s) := by
  refine h.skip fun v t hv e => ?_
  obtain ⟨r, ⟨hne, hword⟩, _, _, rfl⟩ := front_of_mem_runPattern hv e
  obtain ⟨d, ds, hmods⟩ := List.exists_cons_of_ne_nil hne
  rw [hmods] at hs hword
  have hd := hs d rfl
  rw [hword d List.mem_cons_self] at hd
  cases hd

theorem Found.run {ws : List (List Char)} {r : Run} {s : List Char} (h : Found runPattern ws s)
    (hr : r.IsProper)
    (hs : ∀ d ∈ s.head?, isWordChar d = false) : Found runPattern (r.text :: ws) (r.text ++ s) := by
  have hmem : r.text ∈ runPattern := mem_runPattern.mpr ⟨r, hr, rfl⟩
  refine @Found.next _ [] _ _ _ hmem (fun _ _ _ _ _ => Nat.zero_le _) ?_ h
  intro v t hv e
  obtain ⟨q, ⟨_, hword⟩, rfl, _, e⟩ := front_of_mem_runPattern hv e
  -- a longer run would go on into the rest, which begins with no word character
  rcases List.append_eq_append_iff.mp e with ⟨more, hmods, _⟩ | ⟨more, hmods, hrest⟩
  · simp [Run.text, hmods]
  · cases more with
    | nil => simp [Run.text, hmods]
    | cons d more =>
      have hd := hs d (by rw [hrest]; rfl)
      rw [hword d (by simp [hmods])] at hd
      cases hd

theorem scanRuns_cons_sign (sign : Sign) (s : List Char) : scanRuns (sign.char :: s) =
    ([], if (scanRuns s).1 = [] then (scanRuns s).2 else ⟨sign, (scanRuns s).1⟩ :: (scanRuns s).2) := by
  simp [scanRuns, Sign.isWordChar_char, Sign.ofChar?_char]

theorem scanRuns_cons_other {c : Char} (hc : isWordChar c = false) (hsign : Sign.ofChar? c = none)
    (s : List Char) :
    scanRuns (c :: s) = ([], (scanRuns s).2) := by
  simp [scanRuns, hc, hsign]

theorem fst_scanRuns : ∀ s : List Char, (scanRuns s).1 = s.takeWhile isWordChar
  | [] => rfl
  | c :: s => by
    have ih : (scanRuns s).1 = s.takeWhile isWordChar := fst_scanRuns s
    rw [List.takeWhile_cons, scanRuns, ← ih]
    by_cases hc : isWordChar c = true
    · simp [hc]
    · cases hsign : Sign.ofChar? c with
      | none => simp [hc]
      | some sign => simp [hc]

theorem found_scanRuns : ∀ s : List Char,
    Found runPattern ((scanRuns s).2.map Run.text) (s.dropWhile isWordChar)
  | [] => by
    refine .nothing fun w hw hin => ?_
    obtain ⟨r, _, rfl⟩ := mem_runPattern.mp hw
    cases List.infix_nil.mp hin
  | c :: s => by
    have ih : Found runPattern ((scanRuns s).2.map Run.text) (s.dropWhile isWordChar) := found_scanRuns s
    -- the word in front is in no match of its own; a sign in front of it makes the two a match
    obtain ⟨word, rest, rfl, hword, hrest⟩ := exists_span isWordChar s
    obtain ⟨htake, hdrop⟩ := span_append hword hrest
    rw [hdrop] at ih
    by_cases hc : isWordChar c = true
    · rw [List.dropWhile_cons_of_pos hc, hdrop, ← List.singleton_append,
        scanRuns_word (List.forall_mem_singleton.mpr hc)]
      exact ih
    · rw [List.dropWhile_cons_of_neg hc]
      cases hsign : Sign.ofChar? c with
      | none =>
        rw [scanRuns_cons_other (by simpa using hc) hsign]
        have hno : ∀ sign : Sign, sign.char ≠ c := by
          rintro sign rfl
          rw [sign.ofChar?_char] at hsign
          cases hsign
        exact (ih.skip_word hword).skip_unsigned (List.forall_mem_singleton.mpr hno)
      | some sign =>
        obtain rfl := Sign.char_of_ofChar? hsign
        rw [scanRuns_cons_sign, fst_scanRuns, htake]
        by_cases hne : word = []
        · subst hne
          exact ih.skip_bare hrest
        · rw [if_neg hne]
          exact ih.run (r := ⟨sign, word⟩) ⟨hne, hword⟩ hrest

theorem found_iff {s : List Char} {ws : List (List Char)} :
    Found runPattern ws s ↔ ws = (runs s).map Run.text := by
  have hfound : Found runPattern ((runs s).map Run.text) (s.takeWhile isWordChar ++ s.dropWhile isWordChar) :=
    (found_scanRuns s).skip_word fun c hc => List.mem_takeWhile_imp hc
  rw [List.takeWhile_append_dropWhile] at hfound
  exact ⟨fun h => h.unique hfound, fun h => h ▸ hfound⟩

/-! ## Rows -/

/-- The text up to a character is the runs before the run of the character, the sign of that run, and its
mods as far as the character. -/
theorem exists_run_up_to : ∀ {rs : List Run} {front rest : List Char}, front ≠ [] → front ++ rest = rowText rs →
    ∃ before r behind w v, rs = before ++ r :: behind ∧ front = rowText before ++ r.sign.char :: w ∧
      r.mods = w ++ v ∧ rest = v ++ rowText behind
  | [], _, _, hne, h => absurd (List.append_eq_nil_iff.mp h).1 hne
  | r :: rs, front, rest, hne, h => by
    obtain ⟨c, w, rfl⟩ := List.exists_cons_of_ne_nil hne
    rw [rowText_cons, List.cons_append] at h
    obtain ⟨rfl, htail⟩ := List.cons.inj h
    rcases List.append_eq_append_iff.mp htail with ⟨v, hmods, hrest⟩ | ⟨more, hw, hmore⟩
    · exact ⟨[], r, rs, w, v, rfl, rfl, hmods, hrest⟩
    · by_cases hnil : more = []
      · subst hnil
        exact ⟨[], r, rs, w, [], rfl, rfl, by rw [hw, List.append_nil, List.append_nil], hmore.symm⟩
      · obtain ⟨before, q, behind, w', v, hrs, hfront, hmods, hrest⟩ := exists_run_up_to hnil hmore.symm
        refine ⟨r :: before, q, behind, w', v, by rw [hrs, List.cons_append], ?_, hmods, hrest⟩
        rw [hw, hfront, rowText_cons, List.cons_append, List.append_assoc]

theorem Run.IsProper.unsigned {r : Run} (hr : r.IsProper) :
    ∀ c ∈ r.mods, isWordChar c = true ∧ c ≠ '+' ∧ c ≠ '-' := by
  intro c hc
  have hsign := Sign.char_ne_of_isWordChar (hr.2 c hc)
  exact ⟨hr.2 c hc, (hsign .plus).symm, (hsign .minus).symm⟩

theorem exists_acronymsOf (s : List Char) {run : List Char} (h : run.length % 2 = 0) :
    ∃ as, ModFilter.acronymsOf s run = .ok as ∧ as.flatMap String.toList = run ∧ ∀ a ∈ as, a.length = 2 := by
  have hcut : Cut run ((pairs run).map String.ofList) := cut_iff.mpr ⟨h, rfl⟩
  exact ⟨_, ModFilter.acronymsOf_ok_iff.mpr hcut, hcut.joined, hcut.two⟩

/-- `isRuns` accepts the texts of the pattern for rows, and the runs of any text are the matches of the
pattern for runs. An accepted text is its matches one behind the other. Each of them is a sign and word
characters, which are no signs, and a run of even length is cut into acronyms of two characters that make
up what stands behind the sign. Every character has its place in one of the runs, and no other sign stands
between it and the sign of that run. A text that is not accepted is not made of matches; only the empty
one is made of none. -/
theorem rows_are_their_matches (s : List Char) :
    (isRuns s = true ↔ s ∈ rowPattern) ∧ (∀ ws, Found runPattern ws s ↔ ws = (runs s).map Run.text) ∧
    (isRuns s = true → ((runs s).map Run.text).flatten = s ∧
      (∀ r ∈ runs s, r.mods ≠ [] ∧ ∀ c ∈ r.mods, isWordChar c = true ∧ c ≠ '+' ∧ c ≠ '-') ∧
      (∀ r ∈ runs s, r.mods.length % 2 = 0 → ∃ as, ModFilter.acronymsOf s r.mods = .ok as ∧
        as.flatMap String.toList = r.mods ∧ ∀ a ∈ as, a.length = 2) ∧
      ∀ before c after, s = before ++ c :: after → ∃ earlier r later w v, runs s = earlier ++ r :: later ∧
        before ++ [c] = rowText earlier ++ r.sign.char :: w ∧ r.mods = w ++ v ∧ after = v ++ rowText later) ∧
    (isRuns s = false → ∀ ws, (∀ w ∈ ws, w ∈ runPattern) → ws.flatten = s → ws = []) := by
  refine ⟨isRuns_iff_mem, fun ws => found_iff, fun h => ?_, fun h ws hws hs => ?_⟩
  · obtain ⟨rs, hrow⟩ := isRuns_iff.mp h
    rw [runs_of_isRow hrow]
    refine ⟨?_, fun r hr => ⟨(hrow.proper r hr).1, (hrow.proper r hr).unsigned⟩,
      fun r _ heven => exists_acronymsOf s heven, fun before c after hs => ?_⟩
    · rw [flatten_map_text, hrow.text_eq]
    · apply exists_run_up_to (List.concat_ne_nil c before)
      rw [List.append_assoc, List.singleton_append, ← hs, hrow.text_eq]
  · by_contra hne
    rw [isRuns_iff_mem.mpr (mem_oneOrMore.mpr ⟨ws, hne, hws, hs⟩)] at h
    cases h

theorem rows_are_their_matches_bare_sign : Found runPattern ["+HDÉ".toList, "-NF".toList] "+HDÉ-NF".toList ∧
    ["+HDÉ".toList, "-NF".toList].flatten = "+HDÉ-NF".toList ∧
    ¬ ∃ ws : List (List Char), (∀ w ∈ ws, w ∈ runPattern) ∧ ws.flatten = "+HD+-NF".toList := by
  have hruns : runs "+HDÉ-NF".toList = [⟨.plus, "HDÉ".toList⟩, ⟨.minus, "NF".toList⟩] := by decide +kernel
  have hrow : isRuns "+HDÉ-NF".toList = true := by decide +kernel
  have hno : isRuns "+HD+-NF".toList = false := by decide +kernel
  obtain ⟨_, hfound, haccepted, _⟩ := rows_are_their_matches "+HDÉ-NF".toList
  obtain ⟨hflat, _⟩ := haccepted hrow
  rw [hruns] at hfound hflat
  refine ⟨(hfound _).mpr rfl, hflat, fun ⟨ws, hws, hs⟩ => ?_⟩
  obtain ⟨_, _, _, hrefused⟩ := rows_are_their_matches "+HD+-NF".toList
  rw [hrefused hno ws hws hs] at hs
  cases hs

end RhythmFilter
