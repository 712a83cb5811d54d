import Mathlib.Data.List.Induction
import Mathlib.Data.List.Sort
import RhythmFilter.Json.Tree

/-!
# Objects as maps

The canonical form of an object is a map: its keys ascend, and each has the canonical form of the value
that the members give it last. This settles the form, so the order of the members does not matter, and a
value in canonical form stays as it is.
-/

namespace RhythmFilter.Json

def Ascending (ms : Members) : Prop := ms.Pairwise fun m n => m.1 < n.1

/-- The last value that the members give to the key. -/
def Counts (ms : Members) (key : String) (v : Json) : Prop :=
  ∃ before after, ms = before ++ (key, v) :: after ∧ ∀ m ∈ after, m.1 ≠ key

structure IsMapOf (s ms : Members) : Prop where
  ascending : Ascending s
  mem_iff : ∀ key w, (key, w) ∈ s ↔ ∃ v, Counts ms key v ∧ w = v.canonical

/-! ## Look-ups -/

section
variable {ms : Members} {key : String} {v : Json}

theorem lookup_iff_first : ms.lookup key = some v ↔
    ∃ before after, ms = before ++ (key, v) :: after ∧ ∀ m ∈ before, m.1 ≠ key := by
  rw [List.lookup_eq_some_iff]
  simp only [bne_iff_ne, ne_comm]

theorem counts_iff_lookup : Counts ms key v ↔ ms.reverse.lookup key = some v := by
  rw [lookup_iff_first]
  refine ⟨fun h => ?_, fun h => ?_⟩
  · obtain ⟨before, after, rfl, hafter⟩ := h
    exact ⟨after.reverse, before.reverse, by simp, fun m hm => hafter m (List.mem_reverse.mp hm)⟩
  · obtain ⟨before, after, hms, hbefore⟩ := h
    refine ⟨after.reverse, before.reverse, ?_, fun m hm => hbefore m (List.mem_reverse.mp hm)⟩
    rw [← List.reverse_reverse ms, hms]
    simp

theorem Counts.mem (h : Counts ms key v) : (key, v) ∈ ms := by
  obtain ⟨before, after, rfl, _⟩ := h
  exact List.mem_append_right before List.mem_cons_self

theorem Counts.unique {w : Json} (h : Counts ms key v) (h' : Counts ms key w) : v = w := by
  rw [counts_iff_lookup] at h h'
  exact Option.some.inj (h.symm.trans h')

theorem counts_cases (ms : Members) (key : String) : (∃ v, Counts ms key v) ∨ ∀ m ∈ ms, m.1 ≠ key := by
  cases h : ms.reverse.lookup key with
  | none =>
    rw [List.lookup_eq_none_iff] at h
    exact Or.inr fun m hm => (bne_iff_ne.mp (h m (List.mem_reverse.mpr hm))).symm
  | some v => exact Or.inl ⟨v, counts_iff_lookup.mpr h⟩

theorem Ascending.key_ne {before after : Members} (h : Ascending (before ++ (key, v) :: after)) :
    (∀ m ∈ before, m.1 ≠ key) ∧ ∀ m ∈ after, m.1 ≠ key := by
  have hne : ∀ {k l : String}, k < l → k ≠ l := fun hlt e => String.lt_irrefl _ (e ▸ hlt)
  obtain ⟨_, hright, hleft⟩ := List.pairwise_append.mp h
  exact ⟨fun m hm => hne (hleft m hm _ List.mem_cons_self),
    fun m hm => (hne ((List.pairwise_cons.mp hright).1 m hm)).symm⟩

theorem Ascending.lookup_iff_mem (h : Ascending ms) : ms.lookup key = some v ↔ (key, v) ∈ ms := by
  rw [lookup_iff_first]
  refine ⟨fun hfirst => ?_, fun hmem => ?_⟩
  · obtain ⟨before, after, rfl, _⟩ := hfirst
    exact List.mem_append_right before List.mem_cons_self
  · obtain ⟨before, after, rfl⟩ := List.append_of_mem hmem
    exact ⟨before, after, rfl, h.key_ne.1⟩

theorem Ascending.counts_iff_mem (h : Ascending ms) : Counts ms key v ↔ (key, v) ∈ ms := by
  refine ⟨Counts.mem, fun hmem => ?_⟩
  obtain ⟨before, after, rfl⟩ := List.append_of_mem hmem
  exact ⟨before, after, rfl, h.key_ne.2⟩

end

/-! ## Members put in order -/

theorem canonicalMembers_eq_map (ms : Members) :
    canonicalMembers ms = ms.map fun m => (m.1, m.2.canonical) := by
  induction ms with
  | nil => rfl
  | cons m ms ih =>
    obtain ⟨k, v⟩ := m
    rw [canonicalMembers, ih, List.map_cons]

theorem lookup_cons_eq (k : String) (m : String × Json) (ms : Members) :
    (m :: ms).lookup k = if k = m.1 then some m.2 else ms.lookup k := by
  rw [List.lookup_cons]
  by_cases h : k = m.1
  · simp [h]
  · simp [h, beq_eq_false_iff_ne.mpr h]

theorem lookup_insertMember (key : String) (value : Json) (k : String) : ∀ ms : Members,
    (insertMember key value ms).lookup k = if k = key then some value else ms.lookup k
  | [] => lookup_cons_eq k (key, value) []
  | (l, v) :: ms => by
    have ih : (insertMember key value ms).lookup k = if k = key then some value else ms.lookup k :=
      lookup_insertMember key value k ms
    unfold insertMember
    split
    · rw [lookup_cons_eq]
    · split
      · rename_i he
        subst he
        rw [lookup_cons_eq, lookup_cons_eq]
        by_cases hk : k = key
        · rw [if_pos hk, if_pos hk]
        · rw [if_neg hk, if_neg hk, if_neg hk]
      · rename_i hne
        rw [lookup_cons_eq, lookup_cons_eq, ih]
        by_cases hk : k = key
        · rw [if_pos hk, if_pos hk, if_neg fun e => hne (hk.symm.trans e)]
        · rw [if_neg hk, if_neg hk]

theorem mem_insertMember {key : String} {value : Json} {m : String × Json} : ∀ {ms : Members},
    m ∈ insertMember key value ms → m = (key, value) ∨ m ∈ ms
  | [], h => Or.inl (List.mem_singleton.mp h)
  | (k, v) :: ms, h => by
    unfold insertMember at h
    split at h
    · exact List.mem_cons.mp h
    · split at h
      · exact (List.mem_cons.mp h).imp_right (List.mem_cons_of_mem _)
      · rcases List.mem_cons.mp h with e | h
        · exact Or.inr (e ▸ List.mem_cons_self)
        · exact (mem_insertMember h).imp_right (List.mem_cons_of_mem _)

theorem ascending_insertMember {key : String} {value : Json} : ∀ {ms : Members}, Ascending ms →
    Ascending (insertMember key value ms)
  | [], _ => List.pairwise_singleton _ _
  | (k, v) :: ms, h => by
    obtain ⟨hk, hms⟩ := List.pairwise_cons.mp h
    unfold insertMember
    split
    · rename_i hlt
      refine List.pairwise_cons.mpr ⟨List.forall_mem_cons.mpr ⟨hlt, fun m hm => ?_⟩, h⟩
      exact String.lt_trans hlt (hk m hm)
    · rename_i hlt
      split
      · rename_i he
        subst he
        exact List.pairwise_cons.mpr ⟨hk, hms⟩
      · rename_i hne
        refine List.pairwise_cons.mpr ⟨fun m hm => ?_, ascending_insertMember hms⟩
        rcases mem_insertMember hm with rfl | hm
        · exact Std.lt_of_le_of_ne (String.not_lt.mp hlt) (Ne.symm hne)
        · exact hk m hm

theorem sortMembers_concat (ms : Members) (m : String × Json) :
    sortMembers (ms ++ [m]) = insertMember m.1 m.2 (sortMembers ms) := by
  rw [sortMembers, List.foldl_concat, sortMembers]

theorem ascending_sortMembers (ms : Members) : Ascending (sortMembers ms) := by
  induction ms using List.reverseRecOn with
  | nil => exact .nil
  | append_singleton ms m ih =>
    rw [sortMembers_concat]
    exact ascending_insertMember ih

theorem lookup_sortMembers (ms : Members) (key : String) :
    (sortMembers ms).lookup key = ms.reverse.lookup key := by
  induction ms using List.reverseRecOn with
  | nil => rfl
  | append_singleton ms m ih =>
    rw [sortMembers_concat, lookup_insertMember, ih, List.reverse_concat, lookup_cons_eq]

/-! ## Canonical forms -/

theorem lookup_canonicalMembers (key : String) (ms : Members) :
    (canonicalMembers ms).lookup key = (ms.lookup key).map Tree.canonical := by
  induction ms with
  | nil => rfl
  | cons m ms ih =>
    rw [canonicalMembers, lookup_cons_eq, lookup_cons_eq, ih]
    by_cases h : key = m.1
    · rw [if_pos h, if_pos h, Option.map_some]
    · rw [if_neg h, if_neg h]

theorem isMapOf_sorted (ms : Members) : IsMapOf (sortMembers (canonicalMembers ms)) ms := by
  have hsorted := ascending_sortMembers (canonicalMembers ms)
  refine ⟨hsorted, fun key w => ?_⟩
  have hreverse : (canonicalMembers ms).reverse = canonicalMembers ms.reverse := by
    rw [canonicalMembers_eq_map, canonicalMembers_eq_map, List.map_reverse]
  rw [← hsorted.lookup_iff_mem, lookup_sortMembers, hreverse, lookup_canonicalMembers, Option.map_eq_some_iff]
  simp only [counts_iff_lookup, eq_comm]

theorem IsMapOf.unique {s t ms : Members} (h : IsMapOf s ms) (h' : IsMapOf t ms) : s = t := by
  have : Std.Irrefl fun m n : String × Json => m.1 < n.1 := ⟨fun m => String.lt_irrefl m.1⟩
  have : Std.Antisymm fun m n : String × Json => m.1 < n.1 :=
    ⟨fun _ _ hlt hgt => absurd hgt (String.lt_asymm hlt)⟩
  exact h.ascending.eq_of_mem_iff h'.ascending fun m => (h.mem_iff m.1 m.2).trans (h'.mem_iff m.1 m.2).symm

theorem IsMapOf.lookup_eq_some_iff {s ms : Members} (h : IsMapOf s ms) {key : String} {w : Json} :
    s.lookup key = some w ↔ ∃ v, Counts ms key v ∧ w = v.canonical :=
  h.ascending.lookup_iff_mem.trans (h.mem_iff key w)

theorem IsMapOf.lookup_eq_none {s ms : Members} (h : IsMapOf s ms) {key : String} (hno : ∀ m ∈ ms, m.1 ≠ key) :
    s.lookup key = none := by
  refine Option.eq_none_iff_forall_ne_some.mpr fun w hw => ?_
  obtain ⟨v, hv, _⟩ := h.lookup_eq_some_iff.mp hw
  exact hno (key, v) hv.mem rfl

theorem canonical_object_iff {s ms : Members} : (Tree.object ms).canonical = .object s ↔ IsMapOf s ms := by
  rw [Tree.canonical, Tree.object.injEq]
  exact ⟨fun h => h ▸ isMapOf_sorted ms, fun h => (isMapOf_sorted ms).unique h⟩

theorem canonical_of_ascending {s : Members} (h : Ascending s) (hs : ∀ m ∈ s, m.2.canonical = m.2) :
    (Tree.object s).canonical = .object s := by
  rw [canonical_object_iff]
  refine ⟨h, fun key w => ?_⟩
  simp only [h.counts_iff_mem]
  refine ⟨fun hw => ⟨w, hw, (hs _ hw).symm⟩, fun hw => ?_⟩
  obtain ⟨v, hv, rfl⟩ := hw
  rwa [hs _ hv]

theorem canonicalItems_eq_map (xs : List Json) : canonicalItems xs = xs.map Tree.canonical := by
  induction xs with
  | nil => rfl
  | cons x xs ih => rw [canonicalItems, ih, List.map_cons]

section
variable {j : Json}

theorem canonical_eq_null_iff : j.canonical = .null ↔ j = .null := by
  cases j <;> simp [Tree.canonical]

theorem canonical_eq_string_iff {s : String} : j.canonical = .string s ↔ j = .string s := by
  cases j <;> simp [Tree.canonical]

theorem canonical_eq_array_iff {xs : List Json} :
    j.canonical = .array xs ↔ ∃ items, j = .array items ∧ items.map Tree.canonical = xs := by
  cases j <;> simp [Tree.canonical, canonicalItems_eq_map]

theorem canonical_eq_object_iff {s : Members} :
    j.canonical = .object s ↔ ∃ ms, j = .object ms ∧ IsMapOf s ms := by
  cases j with
  | object ms => simp [canonical_object_iff]
  | null | bool | number | string | array => simp [Tree.canonical]

end

mutual

theorem canonical_canonical : ∀ j : Json, j.canonical.canonical = j.canonical
  | .null => rfl
  | .bool _ => rfl
  | .number _ => rfl
  | .string _ => rfl
  | .array items => by rw [Tree.canonical, Tree.canonical, canonicalItems_canonicalItems items]
  | .object members => by
    -- the induction is on the members as they were given, since a value of the map is the form of one of these
    have hmap := isMapOf_sorted members
    refine canonical_of_ascending hmap.ascending fun m hm => ?_
    obtain ⟨v, hv, e⟩ := (hmap.mem_iff m.1 m.2).mp hm
    rw [e, canonical_canonical_of_mem members (m.1, v) hv.mem]

theorem canonicalItems_canonicalItems : ∀ xs : List Json, canonicalItems (canonicalItems xs) = canonicalItems xs
  | [] => rfl
  | x :: xs => by
    rw [canonicalItems, canonicalItems, canonical_canonical x, canonicalItems_canonicalItems xs]

theorem canonical_canonical_of_mem : ∀ ms : Members, ∀ m ∈ ms, m.2.canonical.canonical = m.2.canonical
  | [], _, h => absurd h List.not_mem_nil
  | (k, v) :: ms, m, h => by
    rcases List.mem_cons.mp h with rfl | h
    · exact canonical_canonical v
    · exact canonical_canonical_of_mem ms m h

end

end RhythmFilter.Json
