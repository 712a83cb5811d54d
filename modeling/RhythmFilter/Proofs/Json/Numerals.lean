import RhythmFilter.Json.Numeral
import RhythmFilter.Proofs.Text.Words

/-!
# The grammar of numerals

A numeral is a sign or none, a whole part, and perhaps a fraction and a power of ten. `NumeralText n s`
says that `s` is a numeral and `n` its number. In front of a text a numeral is read, and all of it unless
the text goes on with a character that numerals go on with.
-/

namespace RhythmFilter.Json

open Text

/-- Reading takes a text of the grammar from the front; and it takes all of such a text if no character
follows with which the text might go on. -/
structure Takes {α : Type} (read : List Char → Option (α × List Char)) (text : α → List Char → Prop)
    (goesOn : Char → Bool) : Prop where
  sound : ∀ {s rest : List Char} {a : α}, read s = some (a, rest) → ∃ w, text a w ∧ s = w ++ rest
  complete : ∀ {w rest : List Char} {a : α}, text a w → (∀ c ∈ rest.head?, goesOn c = false) →
    read (w ++ rest) = some (a, rest)

theorem Takes.sound_map {α β : Type} {read : List Char → Option (α × List Char)} {text : α → List Char → Prop}
    {goesOn : Char → Bool} (h : Takes read text goesOn) {f : α → β} {s rest : List Char} {b : β}
    (hread : (read s).map (fun p => (f p.1, p.2)) = some (b, rest)) :
    ∃ a w, f a = b ∧ text a w ∧ s = w ++ rest := by
  obtain ⟨⟨a, after⟩, hp, e⟩ := Option.map_eq_some_iff.mp hread
  obtain ⟨hb, hrest⟩ := Prod.mk.inj e
  obtain ⟨w, hw, hs⟩ := h.sound hp
  exact ⟨a, w, hb, hw, hrest ▸ hs⟩

def IsDigits (ds : List Char) : Prop := ds ≠ [] ∧ ∀ c ∈ ds, isDigit c = true

inductive SignText : Bool → List Char → Prop
  | absent : SignText false []
  | minus : SignText true ['-']

inductive WholeText : List Char → Prop
  | zero : WholeText ['0']
  | digits {ds : List Char} : IsDigits ds → ds.head? ≠ some '0' → WholeText ds

inductive FractionText : Option (List Char) → List Char → Prop
  | absent : FractionText none []
  | point {ds : List Char} : IsDigits ds → FractionText (some ds) ('.' :: ds)

inductive ExponentText : Int → List Char → Prop
  | plain {ds : List Char} : IsDigits ds → ExponentText (natOfDigits ds) ds
  | plus {ds : List Char} : IsDigits ds → ExponentText (natOfDigits ds) ('+' :: ds)
  | minus {ds : List Char} : IsDigits ds → ExponentText (-(natOfDigits ds : Int)) ('-' :: ds)

inductive PowerText : Option Int → List Char → Prop
  | absent : PowerText none []
  | small {i : Int} {w : List Char} : ExponentText i w → PowerText (some i) ('e' :: w)
  | capital {i : Int} {w : List Char} : ExponentText i w → PowerText (some i) ('E' :: w)

inductive NumeralText : Option Number → List Char → Prop
  | parts {negative : Bool} {fraction : Option (List Char)} {power : Option Int}
      {sign whole point exponent : List Char} :
    SignText negative sign → WholeText whole → FractionText fraction point → PowerText power exponent →
      NumeralText (Number.ofNumeral? negative whole fraction power) (sign ++ (whole ++ (point ++ exponent)))

/-! ## The parts -/

theorem IsDigits.exists_cons {ds : List Char} (h : IsDigits ds) : ∃ c cs, ds = c :: cs ∧ isDigit c = true := by
  obtain ⟨c, cs, e⟩ := List.exists_cons_of_ne_nil h.1
  exact ⟨c, cs, e, h.2 c (e ▸ List.mem_cons_self)⟩

theorem ne_of_isDigit {c d : Char} (hc : isDigit c = true) (hd : isDigit d = false) : c ≠ d := by
  intro e
  rw [e, hd] at hc
  cases hc

theorem takes_digitRun : Takes digitRun? (fun ds w => IsDigits ds ∧ w = ds) isDigit where
  sound := by
    intro s rest ds h
    unfold digitRun? at h
    split at h
    · cases h
    · rename_i hne
      obtain ⟨hds, hrest⟩ := Prod.mk.inj (Option.some.inj h)
      rw [← hds, ← hrest]
      exact ⟨_, ⟨⟨hne, fun c hc => List.mem_takeWhile_imp hc⟩, rfl⟩, List.takeWhile_append_dropWhile.symm⟩
  complete := by
    intro w rest ds h hrest
    obtain ⟨⟨hne, hds⟩, e⟩ := h
    subst e
    obtain ⟨htake, hdrop⟩ := span_append hds hrest
    rw [digitRun?, htake, hdrop, if_neg hne]

theorem takes_wholePart : Takes wholePart? (fun ds w => WholeText ds ∧ w = ds) isDigit where
  sound := by
    intro s rest ds h
    unfold wholePart? at h
    split at h
    · obtain ⟨hds, hrest⟩ := Prod.mk.inj (Option.some.inj h)
      rw [← hds, ← hrest]
      exact ⟨_, ⟨.zero, rfl⟩, rfl⟩
    · rename_i hzero
      obtain ⟨w, ⟨hds, e⟩, hs⟩ := takes_digitRun.sound h
      subst e
      refine ⟨w, ⟨.digits hds fun hhead => ?_, rfl⟩, hs⟩
      obtain ⟨tail, e⟩ := List.head?_eq_some_iff.mp hhead
      exact hzero (tail ++ rest) (by rw [hs, e]; rfl)
  complete := by
    intro w rest ds h hrest
    obtain ⟨hds, e⟩ := h
    subst e
    cases hds with
    | zero => rfl
    | digits hds hhead =>
      have hrun := takes_digitRun.complete ⟨hds, rfl⟩ hrest
      obtain ⟨c, cs, e, _⟩ := hds.exists_cons
      rw [e, List.cons_append] at hrun ⊢
      unfold wholePart?
      split
      · rename_i heq
        exact absurd (by rw [e, List.head?_cons, (List.cons.inj heq).1]) hhead
      · exact hrun

theorem takes_fractionPart : Takes fractionPart? FractionText fun c => isDigit c || c = '.' where
  sound := by
    intro s rest fraction h
    unfold fractionPart? at h
    split at h
    · obtain ⟨ds, w, hfraction, ⟨hds, e⟩, hs⟩ := takes_digitRun.sound_map h
      subst e
      rw [← hfraction, hs]
      exact ⟨_, .point hds, rfl⟩
    · obtain ⟨hfraction, hrest⟩ := Prod.mk.inj (Option.some.inj h)
      rw [← hfraction, hrest]
      exact ⟨[], .absent, rfl⟩
  complete := by
    intro w rest fraction h hrest
    have hdigit : ∀ c ∈ rest.head?, isDigit c = false :=
      fun c hc => by simpa using (Bool.or_eq_false_iff.mp (hrest c hc)).1
    cases h with
    | absent =>
      unfold fractionPart?
      split
      · rename_i heq
        have := hrest '.' (by rw [← List.nil_append rest, heq]; rfl)
        simp at this
      · rfl
    | point hds =>
      rw [List.cons_append, fractionPart?, takes_digitRun.complete ⟨hds, rfl⟩ hdigit]
      rfl

theorem takes_signedPower : Takes signedPower? ExponentText isDigit where
  sound := by
    intro s rest i h
    unfold signedPower? at h
    split at h
    · obtain ⟨ds, w, hi, ⟨hds, e⟩, hs⟩ := takes_digitRun.sound_map (f := fun ds => (natOfDigits ds : Int)) h
      subst e
      rw [← hi, hs]
      exact ⟨_, .plus hds, rfl⟩
    · obtain ⟨ds, w, hi, ⟨hds, e⟩, hs⟩ := takes_digitRun.sound_map (f := fun ds => -(natOfDigits ds : Int)) h
      subst e
      rw [← hi, hs]
      exact ⟨_, .minus hds, rfl⟩
    · obtain ⟨ds, w, hi, ⟨hds, e⟩, hs⟩ := takes_digitRun.sound_map (f := fun ds => (natOfDigits ds : Int)) h
      subst e
      rw [← hi]
      exact ⟨_, .plain hds, hs⟩
  complete := by
    intro w rest i h hrest
    cases h with
    | plain hds =>
      have hrun := takes_digitRun.complete ⟨hds, rfl⟩ hrest
      obtain ⟨c, cs, e, hc⟩ := hds.exists_cons
      rw [e, List.cons_append] at hrun ⊢
      unfold signedPower?
      -- the first digit is neither of the signs
      split
      · rename_i heq
        exact absurd (List.cons.inj heq).1 (ne_of_isDigit hc (by decide))
      · rename_i heq
        exact absurd (List.cons.inj heq).1 (ne_of_isDigit hc (by decide))
      · rw [hrun]
        rfl
    | plus hds =>
      rw [List.cons_append, signedPower?, takes_digitRun.complete ⟨hds, rfl⟩ hrest]
      rfl
    | minus hds =>
      rw [List.cons_append, signedPower?, takes_digitRun.complete ⟨hds, rfl⟩ hrest]
      rfl

theorem takes_powerPart : Takes powerPart? PowerText fun c => isDigit c || c = 'e' || c = 'E' where
  sound := by
    intro s rest power h
    unfold powerPart? at h
    split at h
    · obtain ⟨i, w, hpower, hw, hs⟩ := takes_signedPower.sound_map h
      rw [← hpower, hs]
      exact ⟨_, .small hw, rfl⟩
    · obtain ⟨i, w, hpower, hw, hs⟩ := takes_signedPower.sound_map h
      rw [← hpower, hs]
      exact ⟨_, .capital hw, rfl⟩
    · obtain ⟨hpower, hrest⟩ := Prod.mk.inj (Option.some.inj h)
      rw [← hpower, hrest]
      exact ⟨[], .absent, rfl⟩
  complete := by
    intro w rest power h hrest
    have hends : ∀ c ∈ rest.head?, isDigit c = false ∧ c ≠ 'e' ∧ c ≠ 'E' := fun c hc => by
      simpa [and_assoc] using hrest c hc
    have hdigit : ∀ c ∈ rest.head?, isDigit c = false := fun c hc => (hends c hc).1
    cases h with
    | absent =>
      unfold powerPart?
      split
      · rename_i heq
        exact absurd rfl (hends 'e' (by rw [← List.nil_append rest, heq]; rfl)).2.1
      · rename_i heq
        exact absurd rfl (hends 'E' (by rw [← List.nil_append rest, heq]; rfl)).2.2
      · rfl
    | small hw =>
      rw [List.cons_append, powerPart?, takes_signedPower.complete hw hdigit]
      rfl
    | capital hw =>
      rw [List.cons_append, powerPart?, takes_signedPower.complete hw hdigit]
      rfl

/-! ## Numerals -/

theorem signPart_sound (s : List Char) : ∃ w, SignText (signPart s).1 w ∧ s = w ++ (signPart s).2 := by
  unfold signPart
  split
  · exact ⟨_, .minus, rfl⟩
  · exact ⟨[], .absent, rfl⟩

theorem signPart_append {negative : Bool} {w rest : List Char} (h : SignText negative w)
    (hrest : rest.head? ≠ some '-') :
    signPart (w ++ rest) = (negative, rest) := by
  cases h with
  | absent =>
    rw [List.nil_append]
    unfold signPart
    split
    · exact absurd rfl hrest
    · rfl
  | minus => rfl

/-- A numeral goes on with a digit, a point or a power of ten. -/
def goesOnNumeral (c : Char) : Bool := isDigit c || c = '.' || c = 'e' || c = 'E'

theorem goesOnNumeral_eq_false {c : Char} :
    goesOnNumeral c = false ↔ isDigit c = false ∧ c ≠ '.' ∧ c ≠ 'e' ∧ c ≠ 'E' := by
  simp [goesOnNumeral, and_assoc]

theorem PowerText.head?_append {power : Option Int} {w rest : List Char} (h : PowerText power w)
    (hrest : ∀ c ∈ rest.head?, goesOnNumeral c = false) :
    ∀ c ∈ (w ++ rest).head?, (isDigit c || c = '.') = false := by
  cases h with
  | absent =>
    intro c hc
    obtain ⟨hdigit, hpoint, _⟩ := goesOnNumeral_eq_false.mp (hrest c hc)
    simp [hdigit, hpoint]
  | small | capital =>
    intro c hc
    obtain rfl := Option.some.inj hc
    decide

theorem FractionText.head?_append {fraction : Option (List Char)} {w rest : List Char}
    (h : FractionText fraction w)
    (hrest : ∀ c ∈ rest.head?, (isDigit c || c = '.') = false) :
    ∀ c ∈ (w ++ rest).head?, isDigit c = false := by
  cases h with
  | absent => exact fun c hc => (Bool.or_eq_false_iff.mp (hrest c hc)).1
  | point =>
    intro c hc
    obtain rfl := Option.some.inj hc
    decide

theorem WholeText.exists_cons {w : List Char} (h : WholeText w) : ∃ c cs, w = c :: cs ∧ isDigit c = true := by
  cases h with
  | zero => exact ⟨_, _, rfl, by decide⟩
  | digits hds _ => exact hds.exists_cons

theorem takes_numeral : Takes numeral? NumeralText goesOnNumeral where
  sound := by
    intro s rest n h
    obtain ⟨sign, hsign, hs⟩ := signPart_sound s
    unfold numeral? at h
    simp only at h
    split at h
    · cases h
    · rename_i whole s₁ hwhole
      split at h
      · cases h
      · rename_i fraction s₂ hfraction
        split at h
        · cases h
        · rename_i power s₃ hpower
          obtain ⟨hn, hrest⟩ := Prod.mk.inj (Option.some.inj h)
          obtain ⟨w, ⟨hw, e⟩, hs₁⟩ := takes_wholePart.sound hwhole
          obtain ⟨point, hpoint, hs₂⟩ := takes_fractionPart.sound hfraction
          obtain ⟨exponent, hexponent, hs₃⟩ := takes_powerPart.sound hpower
          subst e
          rw [← hn, ← hrest]
          refine ⟨_, .parts hsign hw hpoint hexponent, ?_⟩
          simp only [List.append_assoc]
          rw [← hs₃, ← hs₂, ← hs₁, ← hs]
  complete := by
    intro w rest n h hrest
    cases h with
    | @parts negative fraction power sign whole point exponent hsign hwhole hpoint hexponent =>
      have hpower : ∀ c ∈ rest.head?, (isDigit c || c = 'e' || c = 'E') = false := fun c hc => by
        obtain ⟨hdigit, _, he, hE⟩ := goesOnNumeral_eq_false.mp (hrest c hc)
        simp [hdigit, he, hE]
      have hbehind := hexponent.head?_append hrest
      -- behind an absent sign comes a digit, which is not taken for a minus
      have hminus : (whole ++ (point ++ (exponent ++ rest))).head? ≠ some '-' := by
        obtain ⟨c, cs, e, hc⟩ := hwhole.exists_cons
        rw [e, List.cons_append, List.head?_cons]
        exact fun hc' => ne_of_isDigit hc (by decide) (Option.some.inj hc')
      have hread : sign ++ (whole ++ (point ++ exponent)) ++ rest =
          sign ++ (whole ++ (point ++ (exponent ++ rest))) := by simp only [List.append_assoc]
      rw [hread, numeral?, signPart_append hsign hminus]
      simp only [takes_wholePart.complete ⟨hwhole, rfl⟩ (hpoint.head?_append hbehind),
        takes_fractionPart.complete hpoint hbehind, takes_powerPart.complete hexponent hpower]

end RhythmFilter.Json
