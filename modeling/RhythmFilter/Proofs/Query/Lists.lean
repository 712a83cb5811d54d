import RhythmFilter.Proofs.Text.Joined
import RhythmFilter.Proofs.Text.SmallLetters
import RhythmFilter.Query.Request

/-!
# Values that list

A value may list ranks, or texts with commas between them. Codes of ranks are found again when they are written
down with any commas around them, and texts without commas when there is one between each two.
-/

namespace RhythmFilter

open Text

/-! ## Lists without repeats -/

theorem nodup_eraseDups {α : Type} [BEq α] [LawfulBEq α] : ∀ xs : List α, xs.eraseDups.Nodup
  | [] => by simp
  | x :: xs => by
    rw [List.eraseDups_cons, List.nodup_cons]
    refine ⟨fun h => ?_, nodup_eraseDups _⟩
    rw [List.mem_eraseDups] at h
    simp at h
termination_by xs => xs.length
decreasing_by
  have := List.length_filter_le (fun b => !b == x) xs
  simp only [List.length_cons]
  omega

theorem eraseDups_of_nodup {α : Type} [BEq α] [LawfulBEq α] {xs : List α} (h : xs.Nodup) :
    xs.eraseDups = xs := by
  induction xs with
  | nil => rfl
  | cons x xs ih =>
    obtain ⟨hx, hxs⟩ := List.nodup_cons.mp h
    have hfilter : xs.filter (fun b => !b == x) = xs := by
      rw [List.filter_eq_self]
      intro b hb
      have : b ≠ x := fun e => hx (e ▸ hb)
      simpa using this
    rw [List.eraseDups_cons, hfilter, ih hxs]

/-! ## Commas -/

namespace Text

theorem mem_intercalate {c d : Char} :
    ∀ {ps : List (List Char)}, c ∈ [d].intercalate ps → c = d ∨ ∃ p ∈ ps, c ∈ p
  | [], h => by simp at h
  | [p], h => by
    rw [List.intercalate_singleton] at h
    exact Or.inr ⟨p, List.mem_cons_self, h⟩
  | p :: q :: ps, h => by
    rw [List.intercalate_cons_cons] at h
    rcases List.mem_append.mp h with h | h
    · rcases List.mem_append.mp h with h | h
      · exact Or.inr ⟨p, List.mem_cons_self, h⟩
      · exact Or.inl (List.mem_singleton.mp h)
    · rcases mem_intercalate h with e | ⟨r, hr, hc⟩
      · exact Or.inl e
      · exact Or.inr ⟨r, List.mem_cons_of_mem _ hr, hc⟩

theorem commaPieces_intercalate {ps : List (List Char)} (hne : ps ≠ []) (h : ∀ p ∈ ps, ',' ∉ p) :
    commaPieces ([','].intercalate ps) = ps := pieces_intercalate ',' hne h

def CommaCut (s : List Char) (ps : List (List Char)) : Prop :=
  ps ≠ [] ∧ (∀ p ∈ ps, ',' ∉ p) ∧ s = [','].intercalate ps

theorem intercalate_growFirst (sep : List Char) (c : Char) {ps : List (List Char)} (h : ps ≠ []) :
    sep.intercalate (growFirst c ps) = c :: sep.intercalate ps := by
  obtain ⟨p, qs, e⟩ := List.exists_cons_of_ne_nil h
  rw [e]
  cases qs with
  | nil => simp [growFirst]
  | cons q qs => simp [growFirst, List.intercalate_cons_cons]

theorem intercalate_commaPieces (s : List Char) : [','].intercalate (commaPieces s) = s := by
  unfold commaPieces
  induction s with
  | nil => rfl
  | cons c s ih =>
    have hne := pieces_ne_nil (· = ',') s
    unfold pieces
    by_cases hc : c = ','
    · obtain ⟨p, ps, e⟩ := List.exists_cons_of_ne_nil hne
      rw [if_pos (by simpa using hc), e, List.intercalate_cons_cons, ← e, ih, hc]
      rfl
    · rw [if_neg (by simpa using hc), intercalate_growFirst _ _ hne, ih]

theorem commaPieces_eq_iff {s : List Char} {ps : List (List Char)} : commaPieces s = ps ↔ CommaCut s ps := by
  refine ⟨fun h => ?_, fun h => ?_⟩
  · rw [← h]
    refine ⟨pieces_ne_nil _ s, fun p hp hcomma => ?_, (intercalate_commaPieces s).symm⟩
    have := sep_of_mem_pieces _ hp ',' hcomma
    simp at this
  · obtain ⟨hne, hcomma, e⟩ := h
    rw [e, commaPieces_intercalate hne hcomma]

theorem mem_of_mem_commaPieces {s p : List Char} (hp : p ∈ commaPieces s) {c : Char} (hc : c ∈ p) :
    c ∈ s ∧ c ≠ ',' := by
  have : c ∈ (commaPieces s).flatten := List.mem_flatten.mpr ⟨p, hp, hc⟩
  rw [commaPieces, pieces_flatten, List.mem_filter] at this
  simpa using this

theorem mem_of_mem_trim {s : List Char} {c : Char} (h : c ∈ trim s) : c ∈ s := by
  unfold trim at h
  rw [List.mem_reverse] at h
  have h := (List.dropWhile_suffix _).subset h
  rw [List.mem_reverse] at h
  exact (List.dropWhile_suffix _).subset h

theorem trimmed_commaPieces_joined {as : List String}
    (h : ∀ a ∈ as, a ≠ "" ∧ ',' ∉ a.toList ∧ ∀ d ∈ a.toList, isBlank d = false) :
    ((commaPieces (",".intercalate as).toList).map trim).filter (· ≠ []) = as.map String.toList := by
  by_cases hne : as = []
  · rw [hne]
    rfl
  have hpieces : commaPieces (",".intercalate as).toList = as.map String.toList := by
    rw [String.toList_intercalate]
    refine commaPieces_intercalate (by simpa using hne) fun p hp => ?_
    obtain ⟨a, ha, e⟩ := List.mem_map.mp hp
    exact e ▸ (h a ha).2.1
  have htrim : ∀ p ∈ as.map String.toList, trim p = p ∧ p ≠ [] := by
    intro p hp
    obtain ⟨a, ha, e⟩ := List.mem_map.mp hp
    subst e
    obtain ⟨hne, _, hblank⟩ := h a ha
    have hword : IsWord a.toList := ⟨fun e => hne (String.toList_eq_nil_iff.mp e), hblank⟩
    exact ⟨trim_eq_self (trimmed_of_isWord hword), hword.1⟩
  have hmap : (as.map String.toList).map trim = as.map String.toList :=
    (List.map_congr_left fun p hp => (htrim p hp).1).trans (List.map_id _)
  rw [hpieces, hmap]
  exact List.filter_eq_self.mpr fun p hp => by simpa using (htrim p hp).2

end Text

namespace Clause

theorem entry_of_mem_entries {c : Clause} {a : String} (h : a ∈ c.entries) :
    a ≠ "" ∧ ',' ∉ a.toList ∧ ∀ d ∈ a.toList, d ∈ c.value.toList := by
  unfold entries at h
  obtain ⟨t, ht, e⟩ := List.mem_map.mp h
  subst e
  obtain ⟨ht, hne⟩ := List.mem_filter.mp ht
  obtain ⟨p, hp, e⟩ := List.mem_map.mp ht
  subst e
  have hpiece : ∀ d ∈ trim p, d ∈ c.value.toList ∧ d ≠ ',' :=
    fun d hd => mem_of_mem_commaPieces hp (mem_of_mem_trim hd)
  rw [String.toList_ofList]
  refine ⟨fun e => ?_, fun hcomma => (hpiece _ hcomma).2 rfl, fun d hd => (hpiece d hd).1⟩
  have := congrArg String.toList e
  rw [String.toList_ofList] at this
  simp [this] at hne

/-- Without blanks, what lists nothing is made of commas. -/
theorem entries_eq_nil_iff {c : Clause} (h : ∀ d ∈ c.value.toList, isBlank d = false) :
    c.entries = [] ↔ ∀ d ∈ c.value.toList, d = ',' := by
  have htrim : ∀ p ∈ commaPieces c.value.toList, trim p = p := by
    intro p hp
    exact trim_eq_self (trimmed_of_plain fun d hd => h d (mem_of_mem_commaPieces hp hd).1)
  have hflat : (∀ p ∈ commaPieces c.value.toList, p = []) ↔ (commaPieces c.value.toList).flatten = [] := by
    rw [List.flatten_eq_nil_iff]
  rw [entries, List.map_eq_nil_iff, List.map_congr_left htrim, List.map_id', List.filter_eq_nil_iff]
  simp only [ne_eq, decide_not, Bool.not_eq_true', decide_eq_false_iff_not, not_not]
  rw [hflat, commaPieces, pieces_flatten, List.filter_eq_nil_iff]
  simp

theorem entries_of_joined {c : Clause} {as : List String}
    (h : ∀ a ∈ as, a ≠ "" ∧ ',' ∉ a.toList ∧ ∀ d ∈ a.toList, isBlank d = false)
    (hc : c.value = ",".intercalate as) : c.entries = as := by
  rw [entries, hc, trimmed_commaPieces_joined h, map_ofList_toList]

end Clause

/-! ## Ranks -/

namespace Rank

/-- The code in front of this text stands for the rank: before an `H`, neither `X` nor `S` is a code. -/
def Fits (r : Rank) (rest : List Char) : Prop := r = .x ∨ r = .s → rest.head? ≠ some 'H'

theorem fits_of_head {r : Rank} {rest : List Char} (h : ∀ c ∈ rest.head?, c ≠ 'H') : r.Fits rest :=
  fun _ e => h 'H' e rfl

theorem atFront?_code {r : Rank} {rest : List Char} (h : r.Fits rest) :
    atFront? (r.code.toList ++ rest) = some r := by
  cases rest with
  | nil => cases r <;> decide
  | cons c rest =>
    have hc : r = .x ∨ r = .s → ¬ 'H' = c := fun hr e => h hr (congrArg some e.symm)
    cases r with
    | x => simp [atFront?, all, code, hc (Or.inl rfl)]
    | s => simp [atFront?, all, code, hc (Or.inr rfl)]
    | _ => simp [atFront?, all, code]

theorem code_tail (r : Rank) : r.code.toList ≠ [] ∧ ∀ d ∈ r.code.toList.tail, d = 'H' := by
  refine ⟨?_, forall_of_all ?_⟩
  all_goals cases r <;> decide

def initials : List Char := ['X', 'S', 'A', 'B', 'C', 'D']

theorem atFront?_eq_none_iff {c : Char} {rest : List Char} : atFront? (c :: rest) = none ↔ c ∉ initials := by
  rw [atFront?, List.find?_eq_none]
  refine ⟨fun h hc => ?_, fun hc r _ hfront => ?_⟩
  · have hcode : ∀ d ∈ initials, ∃ r ∈ all, r.code.toList = [d] := forall_of_all (by decide)
    obtain ⟨r, hr, e⟩ := hcode c hc
    apply h r hr
    simp [e]
  · have hcode : ∀ d ∈ r.code.toList.take 1, d ∈ initials := forall_of_all (by cases r <;> decide)
    obtain ⟨hne, _⟩ := r.code_tail
    obtain ⟨d, tail, e⟩ := List.exists_cons_of_ne_nil hne
    rw [e] at hcode hfront
    simp at hfront
    exact hc (hfront.1 ▸ hcode d (by simp))

theorem atFront?_none {c : Char} (h : c = 'H' ∨ c = ',') (rest : List Char) : atFront? (c :: rest) = none := by
  rw [atFront?_eq_none_iff]
  rcases h with e | e
  all_goals
    subst e
    decide

theorem scan_eq_nil_iff {s : List Char} : scan s = [] ↔ ∀ c ∈ s, c ∉ initials := by
  induction s with
  | nil => simp [scan]
  | cons c s ih =>
    rw [scan, List.append_eq_nil_iff, ih, List.forall_mem_cons, Option.toList_eq_nil_iff, atFront?_eq_none_iff]

/-- Commas and letters `H` that belong to no code are passed over. -/
theorem scan_skip {skipped : List Char} (h : ∀ c ∈ skipped, c = 'H' ∨ c = ',') (rest : List Char) :
    scan (skipped ++ rest) = scan rest := by
  induction skipped with
  | nil => rfl
  | cons c skipped ih =>
    obtain ⟨hc, hrest⟩ := List.forall_mem_cons.mp h
    rw [List.cons_append, scan, atFront?_none hc, ih hrest]
    rfl

theorem scan_code_append {r : Rank} {rest : List Char} (h : r.Fits rest) :
    scan (r.code.toList ++ rest) = r :: scan rest := by
  have hfront := atFront?_code h
  obtain ⟨hne, htail⟩ := r.code_tail
  obtain ⟨c, tail, hcode⟩ := List.exists_cons_of_ne_nil hne
  rw [hcode, List.tail_cons] at htail
  rw [hcode, List.cons_append] at hfront ⊢
  rw [scan, hfront, scan_skip (fun d hd => Or.inl (htail d hd))]
  rfl

/-! ## Codes written in a row -/

def layOut (items : List (Nat × Rank)) (last : Nat) : List Char :=
  laidOut (items.map fun i => (List.replicate i.1 ',', i.2.code.toList)) (List.replicate last ',')

theorem layOut_cons (n : Nat) (r : Rank) (items : List (Nat × Rank)) (last : Nat) :
    layOut ((n, r) :: items) last = List.replicate n ',' ++ (r.code.toList ++ layOut items last) :=
  laidOut_cons ..

theorem head?_layOut (items : List (Nat × Rank)) (last : Nat) : ∀ d ∈ (layOut items last).head?, d ≠ 'H' := by
  have hcommas : ∀ n, ∀ d ∈ List.replicate n ',', d ≠ 'H' := by
    intro n d hd
    rw [(List.mem_replicate.mp hd).2]
    decide
  cases items with
  | nil => exact fun d hd => hcommas last d (List.mem_of_mem_head? hd)
  | cons i items =>
    obtain ⟨n, r⟩ := i
    rw [layOut_cons]
    intro d hd
    rcases Nat.eq_zero_or_pos n with e | hn
    · have hcode : ∀ d ∈ r.code.toList.take 1, d ≠ 'H' := forall_of_all (by cases r <;> decide)
      rw [e, List.replicate_zero, List.nil_append, List.head?_append_of_ne_nil _ r.code_tail.1] at hd
      exact hcode d (by rw [List.take_one]; exact Option.mem_toList.mpr hd)
    · rw [List.head?_append_of_ne_nil _ (by simp; omega)] at hd
      exact hcommas n d (List.mem_of_mem_head? hd)

theorem scan_commas (n : Nat) (rest : List Char) : scan (List.replicate n ',' ++ rest) = scan rest :=
  scan_skip (fun _ hd => Or.inr (List.mem_replicate.mp hd).2) rest

/-- No code runs into the next one. -/
theorem scan_layOut (items : List (Nat × Rank)) (last : Nat) :
    scan (layOut items last) = items.map Prod.snd := by
  induction items with
  | nil =>
    have := scan_commas last []
    rwa [List.append_nil] at this
  | cons i items ih =>
    obtain ⟨n, r⟩ := i
    rw [layOut_cons, scan_commas, scan_code_append (fits_of_head (head?_layOut items last)), ih, List.map_cons]

theorem layOut_ne_nil {items : List (Nat × Rank)} (h : items ≠ []) (last : Nat) : layOut items last ≠ [] := by
  obtain ⟨⟨n, r⟩, rest, e⟩ := List.exists_cons_of_ne_nil h
  rw [e, layOut_cons]
  exact List.append_ne_nil_of_right_ne_nil _ (List.append_ne_nil_of_left_ne_nil r.code_tail.1 _)

def separated : List Rank → List (Nat × Rank)
  | [] => []
  | r :: rs => (0, r) :: rs.map fun q => (1, q)

theorem snd_separated (rs : List Rank) : (separated rs).map Prod.snd = rs := by
  cases rs with
  | nil => rfl
  | cons r rs => simp [separated, Function.comp_def]

theorem layOut_separated : ∀ rs : List Rank,
    layOut (separated rs) 0 = [','].intercalate (rs.map fun r => r.code.toList)
  | [] => rfl
  | [r] => by
    rw [separated, layOut_cons, List.map_singleton, List.intercalate_singleton]
    exact List.append_nil _
  | r :: q :: rs => by
    have ih := layOut_separated (q :: rs)
    rw [separated, layOut_cons, List.replicate_zero, List.nil_append, List.map_cons] at ih
    rw [List.map_cons, List.map_cons, List.intercalate_cons_cons, ← ih, separated, layOut_cons, List.map_cons,
      layOut_cons, List.append_assoc]
    rfl

/-! ## Capitals -/

def letters : List Char := ['X', 'H', 'S', 'A', 'B', 'C', 'D', ',']

theorem mem_letters_of_code (r : Rank) : ∀ c ∈ r.code.toList, c ∈ letters := by
  refine forall_of_all ?_
  cases r <;> decide

theorem mem_letters_of_layOut {items : List (Nat × Rank)} {last : Nat} {d : Char} (h : d ∈ layOut items last) :
    d ∈ letters := by
  have hcomma : ∀ n, d ∈ List.replicate n ',' → d ∈ letters := by
    intro n hd
    rw [(List.mem_replicate.mp hd).2]
    decide
  rw [layOut, laidOut, List.flatMap_map, List.mem_append, List.mem_flatMap] at h
  rcases h with ⟨i, _, h⟩ | h
  · exact (List.mem_append.mp h).elim (hcomma i.1) (mem_letters_of_code i.2 d)
  · exact hcomma last h

theorem upper_lowerChar {c : Char} (h : c ∈ letters) : upper (lowerChar c) = [c] := by
  have : ∀ d ∈ letters, upper (lowerChar d) = [d] := forall_of_all (by decide +kernel)
  exact this c h

theorem plain_letter {c : Char} (h : c ∈ letters) (e : Entity) :
    isBlank c = false ∧ e.isOperatorChar c = false := by
  have hall : ∀ c ∈ letters, isBlank c = false ∧ e.isOperatorChar c = false := by
    refine forall_of_all ?_
    cases e <;> decide
  exact hall c h

theorem upper_lower {s : List Char} (h : ∀ c ∈ s, c ∈ letters) : upper (lower s) = s := by
  have hsigma : 'Σ' ∉ s := fun hs => absurd (h _ hs) (by decide)
  rw [lower_eq_flatMap hsigma]
  clear hsigma
  induction s with
  | nil => rfl
  | cons c s ih =>
    obtain ⟨hc, hs⟩ := List.forall_mem_cons.mp h
    rw [List.flatMap_cons, upper_append, upper_lowerChar hc, ih hs]
    rfl

end Rank

namespace Clause

theorem ranks_eq_nil_iff {c : Clause} : c.ranks = [] ↔ ∀ d ∈ upper c.value.toList, d ∉ Rank.initials := by
  rw [← Rank.scan_eq_nil_iff, ranks, List.eq_nil_iff_forall_not_mem, List.eq_nil_iff_forall_not_mem]
  simp only [List.mem_eraseDups]

theorem nodup_ranks (c : Clause) : c.ranks.Nodup := nodup_eraseDups _

theorem ranks_of_codes {c : Clause} {rs : List Rank} (h : rs.Nodup)
    (hc : c.value.toList = lower ([','].intercalate (rs.map fun r => r.code.toList))) : c.ranks = rs := by
  rw [ranks, hc, ← Rank.layOut_separated, Rank.upper_lower fun d hd => Rank.mem_letters_of_layOut hd,
    Rank.scan_layOut, Rank.snd_separated, eraseDups_of_nodup h]

end Clause

end RhythmFilter
