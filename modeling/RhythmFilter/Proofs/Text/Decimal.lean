import Mathlib.Data.List.Basic
import Mathlib.Data.List.Induction
import Mathlib.Data.Nat.Digits.Defs
import RhythmFilter.Text.Integer

/-!
# Numbers in decimal

What a text of digits is worth, by the places of its digits. `Denotes` allows for a sign and for zeros in
front, so a number has many texts; one of them is `Canonical`, and that is the one that is written.
-/

namespace RhythmFilter.Text

def IsNumeral (s : List Char) : Prop := s ≠ [] ∧ ∀ c ∈ s, isDigit c = true

def placeValue (s : List Char) : Nat := Nat.ofDigits 10 (s.reverse.map digitValue)

/-- A numeral, perhaps behind a sign, and its number. -/
inductive Denotes : List Char → Int → Prop
  | bare {s : List Char} : IsNumeral s → Denotes s (placeValue s)
  | plus {s : List Char} : IsNumeral s → Denotes ('+' :: s) (placeValue s)
  | minus {s : List Char} : IsNumeral s → Denotes ('-' :: s) (-placeValue s)

def IsShortest (s : List Char) : Prop := IsNumeral s ∧ (s.head? = some '0' → s = ['0'])

/-- No sign but a minus, which zero does not have, and no zero in front. -/
inductive Canonical : List Char → Int → Prop
  | positive {s : List Char} : IsShortest s → Canonical s (placeValue s)
  | negative {s : List Char} : IsShortest s → s ≠ ['0'] → Canonical ('-' :: s) (-placeValue s)

theorem Canonical.denotes {s : List Char} {i : Int} (h : Canonical s i) : Denotes s i := by
  cases h with
  | positive hs => exact .bare hs.1
  | negative hs _ => exact .minus hs.1

/-! ## Digits -/

theorem isDigit_iff {c : Char} : isDigit c = true ↔ '0'.toNat ≤ c.toNat ∧ c.toNat ≤ '9'.toNat := by
  unfold isDigit
  rw [Bool.and_eq_true, decide_eq_true_eq, decide_eq_true_eq]
  rfl

theorem isDigit_digitChar {d : Nat} (h : d < 10) : isDigit (digitChar d) = true := by
  have : ∀ d < 10, isDigit (digitChar d) = true := by decide
  exact this d h

theorem digitValue_digitChar {d : Nat} (h : d < 10) : digitValue (digitChar d) = d := by
  have : ∀ d < 10, digitValue (digitChar d) = d := by decide
  exact this d h

section
variable {c : Char} (h : isDigit c = true)
include h

theorem digitValue_lt : digitValue c < 10 := by
  obtain ⟨_, hle⟩ := isDigit_iff.mp h
  have : '9'.toNat = '0'.toNat + 9 := rfl
  unfold digitValue
  omega

theorem digitChar_digitValue : digitChar (digitValue c) = c := by
  obtain ⟨hle, _⟩ := isDigit_iff.mp h
  unfold digitChar digitValue
  rw [Nat.add_sub_cancel' hle, Char.ofNat_toNat]

theorem ne_zero_of_digitValue (hc : c ≠ '0') : digitValue c ≠ 0 := by
  intro h0
  apply hc
  rw [← digitChar_digitValue h, h0]
  rfl

end

/-! ## The value of digits -/

theorem placeValue_nil : placeValue [] = 0 := rfl

theorem placeValue_append_singleton (s : List Char) (c : Char) :
    placeValue (s ++ [c]) = 10 * placeValue s + digitValue c := by
  unfold placeValue
  rw [List.reverse_append, List.map_append]
  simp [Nat.ofDigits_cons, Nat.add_comm]

theorem natOfDigits_eq (s : List Char) : natOfDigits s = placeValue s := by
  unfold natOfDigits
  induction s using List.reverseRecOn with
  | nil => rfl
  | append_singleton t c ih =>
    rw [List.foldl_append, ih, placeValue_append_singleton]
    rfl

theorem placeValue_digitsOfNat (n : Nat) : placeValue (digitsOfNat n) = n := by
  fun_induction digitsOfNat n with
  | case1 n hn =>
    have := placeValue_append_singleton [] (digitChar n)
    rw [List.nil_append, placeValue_nil, digitValue_digitChar hn] at this
    omega
  | case2 n hn ih =>
    rw [placeValue_append_singleton, ih, digitValue_digitChar (Nat.mod_lt _ (by decide))]
    omega

theorem isNumeral_digitsOfNat (n : Nat) : IsNumeral (digitsOfNat n) := by
  fun_induction digitsOfNat n with
  | case1 n hn => exact ⟨List.cons_ne_nil _ _, by simpa using isDigit_digitChar hn⟩
  | case2 n hn ih =>
    refine ⟨by simp, fun c hc => ?_⟩
    rcases List.mem_append.mp hc with hc | hc
    · exact ih.2 c hc
    · rw [List.mem_singleton.mp hc]
      exact isDigit_digitChar (Nat.mod_lt _ (by decide))

theorem head?_digitsOfNat {n : Nat} (hn : n ≠ 0) : (digitsOfNat n).head? ≠ some '0' := by
  fun_induction digitsOfNat n with
  | case1 n hlt =>
    intro h
    have hzero := congrArg digitValue (Option.some.inj h)
    rw [digitValue_digitChar hlt] at hzero
    exact hn hzero
  | case2 n hle ih =>
    rw [List.head?_append_of_ne_nil _ (isNumeral_digitsOfNat _).1]
    apply ih
    omega

theorem isShortest_digitsOfNat (n : Nat) : IsShortest (digitsOfNat n) := by
  refine ⟨isNumeral_digitsOfNat n, fun h => ?_⟩
  by_cases hn : n = 0
  · rw [hn, digitsOfNat]
    rfl
  · exact absurd h (head?_digitsOfNat hn)

/-- Of a shortest numeral that goes on behind its first digit, no front is zero. -/
theorem IsShortest.front {t : List Char} {c : Char} (h : IsShortest (t ++ [c])) (ht : t ≠ []) :
    IsShortest t ∧ t ≠ ['0'] := by
  have hlong : t ++ [c] ≠ ['0'] := by
    intro e
    apply ht
    simpa using congrArg List.length e
  have hhead : t.head? ≠ some '0' := by
    intro e
    apply hlong
    apply h.2
    rw [List.head?_append_of_ne_nil _ ht, e]
  refine ⟨⟨⟨ht, fun d hd => h.1.2 d (by simp [hd])⟩, fun e => absurd e hhead⟩, fun e => ?_⟩
  rw [e] at hhead
  exact hhead rfl

theorem placeValue_pos {s : List Char} (hs : IsShortest s) (hne : s ≠ ['0']) : 0 < placeValue s := by
  induction s using List.reverseRecOn with
  | nil => exact absurd rfl hs.1.1
  | append_singleton t c ih =>
    have hc : isDigit c = true := hs.1.2 c (by simp)
    rw [placeValue_append_singleton]
    by_cases ht : t = []
    · have : digitValue c ≠ 0 := ne_zero_of_digitValue hc fun h0 => hne (by rw [ht, h0]; rfl)
      omega
    · obtain ⟨hts, htne⟩ := hs.front ht
      have := ih hts htne
      omega

theorem digitsOfNat_placeValue {s : List Char} (hs : IsShortest s) : digitsOfNat (placeValue s) = s := by
  induction s using List.reverseRecOn with
  | nil => exact absurd rfl hs.1.1
  | append_singleton t c ih =>
    have hc : isDigit c = true := hs.1.2 c (by simp)
    have hlt := digitValue_lt hc
    rw [placeValue_append_singleton]
    by_cases ht : t = []
    · rw [ht, placeValue_nil, digitsOfNat]
      simp [hlt, digitChar_digitValue hc]
    · obtain ⟨hts, htne⟩ := hs.front ht
      have hpos := placeValue_pos hts htne
      have hdiv : (10 * placeValue t + digitValue c) / 10 = placeValue t := by omega
      have hmod : (10 * placeValue t + digitValue c) % 10 = digitValue c := by omega
      rw [digitsOfNat, if_neg (by omega), hdiv, hmod, ih hts, digitChar_digitValue hc]

/-! ## Signed numbers -/

theorem readNat?_eq_some_iff {s : List Char} {n : Nat} :
    readNat? s = some n ↔ IsNumeral s ∧ placeValue s = n := by
  unfold readNat? IsNumeral
  simp only [List.all_eq_true, natOfDigits_eq]
  by_cases h : s ≠ [] ∧ ∀ c ∈ s, isDigit c = true
  · rw [if_pos h, Option.some.injEq]
    exact (and_iff_right h).symm
  · rw [if_neg h]
    exact iff_of_false nofun fun hn => h hn.1

theorem readInt?_minus (s : List Char) : readInt? ('-' :: s) = (readNat? s).map fun n : Nat => -(n : Int) := by
  simp only [readInt?]
  cases readNat? s with
  | none => rfl
  | some n => rfl

theorem denotes_of_readInt? {s : List Char} {i : Int} (h : readInt? s = some i) : Denotes s i := by
  unfold readInt? at h
  split at h
  · obtain ⟨n, hn, e⟩ := Option.map_eq_some_iff.mp h
    obtain ⟨hs, hv⟩ := readNat?_eq_some_iff.mp hn
    rw [← e, ← hv]
    exact .plus hs
  · obtain ⟨n, hn, e⟩ := Option.map_eq_some_iff.mp ((readInt?_minus _).symm.trans h)
    obtain ⟨hs, hv⟩ := readNat?_eq_some_iff.mp hn
    rw [← e, ← hv]
    exact .minus hs
  · obtain ⟨n, hn, e⟩ := Option.map_eq_some_iff.mp h
    obtain ⟨hs, hv⟩ := readNat?_eq_some_iff.mp hn
    rw [← e, ← hv]
    exact .bare hs

theorem readInt?_of_denotes {s : List Char} {i : Int} (h : Denotes s i) : readInt? s = some i := by
  have hread : ∀ {t}, IsNumeral t → readNat? t = some (placeValue t) :=
    fun ht => readNat?_eq_some_iff.mpr ⟨ht, rfl⟩
  cases h with
  | bare hs =>
    unfold readInt?
    split
    -- a sign is no digit
    · exact absurd (hs.2 '+' List.mem_cons_self) (by decide)
    · exact absurd (hs.2 '-' List.mem_cons_self) (by decide)
    · rw [hread hs]
      rfl
  | @plus t ht =>
    have : readInt? ('+' :: t) = (readNat? t).map Int.ofNat := rfl
    rw [this, hread ht]
    rfl
  | @minus t ht =>
    rw [readInt?_minus, hread ht]
    rfl

theorem readInt?_eq_some_iff {s : List Char} {i : Int} : readInt? s = some i ↔ Denotes s i :=
  ⟨denotes_of_readInt?, readInt?_of_denotes⟩

theorem readInt64?_eq_some_iff {s : List Char} {i : Int} : readInt64? s = some i ↔ Denotes s i ∧ IsInt64 i := by
  unfold readInt64?
  rw [Option.filter_eq_some_iff, readInt?_eq_some_iff, decide_eq_true_eq]

theorem canonical_iff {s : List Char} {i : Int} : Canonical s i ↔ s = writeInt i := by
  refine ⟨fun h => ?_, fun h => ?_⟩
  · cases h with
    | positive hs => exact (digitsOfNat_placeValue hs).symm
    | @negative s hs hne =>
      obtain ⟨n, hn⟩ := Nat.exists_eq_succ_of_ne_zero (Nat.pos_iff_ne_zero.mp (placeValue_pos hs hne))
      have hneg : (-placeValue s : Int) = .negSucc n := by rw [hn]; rfl
      rw [hneg, writeInt, ← Nat.succ_eq_add_one, ← hn, digitsOfNat_placeValue hs]
  · rw [h]
    cases i with
    | ofNat n =>
      have := Canonical.positive (isShortest_digitsOfNat n)
      rwa [placeValue_digitsOfNat] at this
    | negSucc n =>
      have hne : digitsOfNat (n + 1) ≠ ['0'] := by
        intro e
        have hhead := head?_digitsOfNat (Nat.succ_ne_zero n)
        rw [e] at hhead
        exact hhead rfl
      have := Canonical.negative (isShortest_digitsOfNat (n + 1)) hne
      rwa [placeValue_digitsOfNat] at this

end RhythmFilter.Text
