import RhythmFilter.ModFilter.Reading
import RhythmFilter.Proofs.FirstRefusal
import RhythmFilter.Proofs.Mode.Arrange
import RhythmFilter.Proofs.Text.Joined

/-!
# Runs cut into acronyms

A run of even length is cut into acronyms of two characters in one way, and one that a mode can read is
cut into acronyms that it knows. What else a run can be, `RunFault` says, together with the refusal.
-/

namespace RhythmFilter

namespace Text

theorem pairs_append {p : List Char} (hp : p.length = 2) (s : List Char) : pairs (p ++ s) = p :: pairs s := by
  match p, hp with
  | [_, _], _ => rfl

theorem pairs_flatten : ∀ {s : List Char}, s.length % 2 = 0 → (pairs s).flatten = s
  | [], _ => rfl
  | [_], h => by simp at h
  | a :: b :: s, h => by
    have hs : s.length % 2 = 0 := by
      simp only [List.length_cons] at h
      omega
    rw [pairs, List.flatten_cons, pairs_flatten hs]
    rfl

theorem pairs_of_flatten : ∀ {ps : List (List Char)}, (∀ p ∈ ps, p.length = 2) → pairs ps.flatten = ps
  | [], _ => rfl
  | p :: ps, h => by
    obtain ⟨hp, hps⟩ := List.forall_mem_cons.mp h
    rw [List.flatten_cons, pairs_append hp, pairs_of_flatten hps]

theorem length_flatten_pairs : ∀ {ps : List (List Char)}, (∀ p ∈ ps, p.length = 2) →
    ps.flatten.length = 2 * ps.length
  | [], _ => rfl
  | p :: ps, h => by
    obtain ⟨hp, hps⟩ := List.forall_mem_cons.mp h
    have ih := length_flatten_pairs hps
    rw [List.flatten_cons, List.length_append, ih, hp, List.length_cons]
    omega

theorem length_of_mem_pairs : ∀ {s p : List Char}, p ∈ pairs s → p.length = 2
  | [], p, h => by simp [pairs] at h
  | [_], p, h => by simp [pairs] at h
  | a :: b :: s, p, h => by
    unfold pairs at h
    rcases List.mem_cons.mp h with e | h
    · subst e; rfl
    · exact length_of_mem_pairs h

end Text

open Text

structure Cut (run : List Char) (as : List String) : Prop where
  joined : as.flatMap String.toList = run
  two : ∀ a ∈ as, a.length = 2

structure KnownCut (m : Mode) (run : List Char) (as : List String) : Prop extends Cut run as where
  known : ∀ a ∈ as, a ∈ m.order

theorem length_toList_of_two {as : List String} (h : ∀ a ∈ as, a.length = 2) :
    ∀ p ∈ as.map String.toList, p.length = 2 := by
  intro p hp
  obtain ⟨a, ha, e⟩ := List.mem_map.mp hp
  rw [← e, String.length_toList, h a ha]

theorem cut_iff {run : List Char} {as : List String} :
    Cut run as ↔ run.length % 2 = 0 ∧ as = (pairs run).map String.ofList := by
  refine ⟨fun h => ?_, fun h => ?_⟩
  · have hp := length_toList_of_two h.two
    rw [← h.joined, List.flatMap_def, pairs_of_flatten hp, map_ofList_toList, length_flatten_pairs hp]
    exact ⟨by omega, rfl⟩
  · obtain ⟨heven, e⟩ := h
    subst e
    refine ⟨?_, fun a ha => ?_⟩
    · rw [List.flatMap_def, map_toList_ofList, pairs_flatten heven]
    · obtain ⟨p, hp, e⟩ := List.mem_map.mp ha
      rw [← e, String.length_ofList, length_of_mem_pairs hp]

/-- A run that a mode cannot read, and the refusal of the text in which it stands. -/
inductive RunFault (m : Mode) (text run : List Char) : Refusal → Prop
  | odd : run.length % 2 = 1 →
    RunFault m text run (.malformed (String.ofList text) (.oddLength (String.ofList run)))
  | unknown {as : List String} {a : String} : Cut run as → m.FirstUnknown as a →
    RunFault m text run (.unknownAcronym m a)

namespace ModFilter

section
variable {m : Mode} {part run : List Char}

theorem acronymsOf_ok_iff {as : List String} : acronymsOf part run = .ok as ↔ Cut run as := by
  rw [cut_iff]
  unfold acronymsOf
  by_cases h : run.length % 2 = 0
  · simp [h, eq_comm]
  · simp [h, refuse]

theorem acronymsOf_error_iff {e : Refusal} : acronymsOf part run = .error e ↔
    run.length % 2 = 1 ∧ e = .malformed (String.ofList part) (.oddLength (String.ofList run)) := by
  unfold acronymsOf
  by_cases h : run.length % 2 = 0
  · simp [h]
  · have : run.length % 2 = 1 := by omega
    simp [this, refuse, eq_comm]

theorem runFault_iff {e : Refusal} : RunFault m part run e ↔ acronymsOf part run = .error e ∨
    ∃ as, acronymsOf part run = .ok as ∧ ∃ a, m.FirstUnknown as a ∧ e = .unknownAcronym m a := by
  refine ⟨fun h => ?_, fun h => ?_⟩
  · cases h with
    | odd h => exact Or.inl (acronymsOf_error_iff.mpr ⟨h, rfl⟩)
    | unknown hc hf => exact Or.inr ⟨_, acronymsOf_ok_iff.mpr hc, _, hf, rfl⟩
  · rcases h with h | ⟨as, h, a, hf, e⟩
    · obtain ⟨hodd, e⟩ := acronymsOf_error_iff.mp h
      exact e ▸ .odd hodd
    · exact e ▸ .unknown (acronymsOf_ok_iff.mp h) hf

theorem readRun_ok_iff {r : Run} {ds : List Demand} : readRun m part r = .ok ds ↔
    ∃ as, KnownCut m r.mods as ∧ ds = as.map r.sign.demand := by
  rw [readRun, bind_ok_iff]
  refine exists_congr fun as => ?_
  rw [acronymsOf_ok_iff]
  cases hf : as.find? fun a => !m.knows a with
  | none =>
    have hk := Mode.find_unknown_none.mp hf
    refine ⟨fun h => ⟨⟨h.1, hk⟩, (Except.ok.inj h.2).symm⟩, fun h => ⟨h.1.toCut, ?_⟩⟩
    rw [h.2]
  | some a =>
    obtain ⟨before, after, has, _, ha⟩ := Mode.find_unknown_some.mp hf
    refine ⟨fun h => (nomatch h.2), fun h => absurd (h.1.known a ?_) ha⟩
    simp [has]

theorem readRun_error_iff {r : Run} {e : Refusal} : readRun m part r = .error e ↔ RunFault m part r.mods e := by
  rw [readRun, bind_error_iff, runFault_iff]
  refine or_congr_right (exists_congr fun as => and_congr_right fun _ => ?_)
  simp only [← Mode.find_unknown_some]
  cases as.find? fun a => !m.knows a with
  | none => simp
  | some a => simp [eq_comm]

end

end ModFilter

end RhythmFilter
