import RhythmFilter.Proofs.ModFilter.ExactLine
import RhythmFilter.Proofs.ModFilter.Rendering
import RhythmFilter.Session

/-!
# What sessions keep

Whatever is done in a session, its line has no blanks at its ends and its filter is one that some mode
reads. Once the line was put into order and made the exact filter, line and filter say the same: putting
the line into order again, or making one of the two the other, succeeds and changes neither.
-/

namespace RhythmFilter

open Text

namespace Session

section
variable {α : Type} {s : Session} {change : α → Session} {x : Except Refusal α}

theorem attempt_keeps {P : Session → Prop} (hs : P s) (hc : ∀ a, x = .ok a → P (change a)) :
    P (s.attempt change x).2 := by
  cases x with
  | ok a => exact hc a rfl
  | error e => exact hs

theorem attempt_done_iff : (s.attempt change x).1 = .done ↔ ∃ a, x = .ok a := by
  cases x with
  | ok a => simp [attempt]
  | error e => simp [attempt]

theorem attempt_of_ok {a : α} (h : x = .ok a) : s.attempt change x = (.done, change a) := by
  rw [h, attempt]

theorem attempt_refused {e : Refusal} (h : (s.attempt change x).1 = .refused e) :
    (s.attempt change x).2 = s := by
  cases x with
  | ok a => cases h
  | error e => rfl

end

theorem step_lineOfExact {s : Session} {as : List String} (h : s.filter = .exact as) :
    s.step .lineOfExact = (.done, { s with line := .ofModifiers (as.map (⟨·, none⟩)) }) := by
  simp only [step, h]

theorem step_refused {s : Session} {st : Step} {e : Refusal} (h : (s.step st).1 = .refused e) :
    (s.step st).2 = s := by
  cases st with
  | mode id => exact attempt_refused h
  | list ms => cases h
  | sort => exact attempt_refused h
  | filter text => exact attempt_refused h
  | ask => rfl
  | exactOfLine => exact attempt_refused h
  | lineOfExact =>
    cases hf : s.filter with
    | exact as =>
      rw [step_lineOfExact hf] at h
      cases h
    | demands ds => simp only [step, hf]

theorem run_cons (s : Session) (st : Step) (sts : List Step) : s.run (st :: sts) = (s.step st).2.run sts := rfl

/-! ## Any steps -/

structure Sound (s : Session) : Prop where
  trimmed : Trimmed s.line.mods.toList
  readable : ∃ m, s.filter.Readable m

theorem sound_start : start.Sound := ⟨trimmed_nil, .osu, by simp [start, ModFilter.empty, ModFilter.Readable]⟩

theorem sound_step {s : Session} (h : s.Sound) (st : Step) : (s.step st).2.Sound := by
  cases st with
  | mode id => exact attempt_keeps h fun m _ => ⟨h.trimmed, h.readable⟩
  | list ms => exact ⟨ModLine.trimmed_ofModifiers ms, h.readable⟩
  | sort => exact attempt_keeps h fun q hq => ⟨ModLine.trimmed_of_canonicalize hq, h.readable⟩
  | filter text =>
    refine attempt_keeps h fun f hf => ⟨h.trimmed, s.mode, ?_⟩
    cases text with
    | none => exact Except.ok.inj hf ▸ ModFilter.readable_of_ofText (s := "") rfl
    | some t => exact ModFilter.readable_of_ofText hf
  | ask => exact h
  | exactOfLine => exact attempt_keeps h fun f hf => ⟨h.trimmed, s.mode, ModFilter.readable_of_ofText hf⟩
  | lineOfExact =>
    cases hf : s.filter with
    | exact as =>
      rw [step_lineOfExact hf]
      exact ⟨ModLine.trimmed_ofModifiers _, h.readable⟩
    | demands ds =>
      simp only [step, hf]
      exact h

theorem sound_run {s : Session} (h : s.Sound) : ∀ sts : List Step, (s.run sts).Sound
  | [] => h
  | st :: sts => by
    rw [run_cons]
    exact sound_run (sound_step h st) sts

/-! ## Steps that change nothing any more -/

/-- The acronyms stand in the line, in the order of the mode, and make up the filter. -/
structure Settled (s : Session) (as : List String) : Prop where
  readable : (ModFilter.exact as).Readable s.mode
  mods : s.line.mods = " ".intercalate as
  filter : s.filter = .exact as

inductive Step.IsCalm : Step → Prop
  | sort : IsCalm .sort
  | ask : IsCalm .ask
  | exactOfLine : IsCalm .exactOfLine
  | lineOfExact : IsCalm .lineOfExact

def Step.calmReply : Step → Reply
  | .ask => .answer true
  | _ => .done

section
variable {s : Session} {as : List String} (h : s.Settled as)
include h

theorem Settled.arranged : s.mode.arrange as = .ok as := by
  obtain ⟨has, horder⟩ := h.readable
  exact Mode.arrange_ok_iff.mpr ⟨fun a ha => (has a ha).1, .refl as, horder⟩

theorem Settled.acronyms_eq : s.line.acronyms = as := by
  have hline : s.line = ⟨" ".intercalate as, s.line.settings⟩ := by rw [← h.mods]
  rw [hline]
  exact ModLine.acronyms_joined (Mode.isWord_of_arrange h.arranged) _

theorem settled_step {st : Step} (hst : st.IsCalm) :
    (s.step st).1 = st.calmReply ∧ (s.step st).2.mode = s.mode ∧ (s.step st).2.Settled as := by
  cases hst with
  | sort =>
    have hq : s.line.canonicalize s.mode = .ok s.line := by
      have := ModLine.canonicalize_joined h.arranged s.line.settings
      rwa [← h.mods] at this
    rw [step, attempt_of_ok hq]
    exact ⟨rfl, rfl, h⟩
  | ask =>
    refine ⟨?_, rfl, h⟩
    rw [step, h.filter, ModFilter.accepts, h.mods, decide_eq_true rfl]
    rfl
  | exactOfLine =>
    have hf : ModFilter.ofText s.mode ("!" ++ s.line.mods) = .ok (.exact as) := by
      refine marked_line_ok ?_ ?_ ?_
      all_goals rw [h.acronyms_eq]
      · exact fun a ha => (h.readable.1 a ha).1
      · exact h.arranged
      · exact fun a ha => (h.readable.1 a ha).2
    rw [step, attempt_of_ok hf]
    exact ⟨rfl, rfl, h.readable, h.mods, rfl⟩
  | lineOfExact =>
    rw [step_lineOfExact h.filter]
    exact ⟨rfl, rfl, h.readable, ModLine.mods_ofModifiers_plain (Mode.isWord_of_arrange h.arranged), h.filter⟩

end

theorem settled_run {as : List String} : ∀ {calm : List Step} {s : Session}, s.Settled as →
    (∀ st ∈ calm, st.IsCalm) → (s.run calm).mode = s.mode ∧ (s.run calm).Settled as
  | [], _, h, _ => ⟨rfl, h⟩
  | st :: calm, s, h, hcalm => by
    obtain ⟨hst, hcalm⟩ := List.forall_mem_cons.mp hcalm
    obtain ⟨_, hmode, hsettled⟩ := settled_step h hst
    rw [run_cons, ← hmode]
    exact settled_run hsettled hcalm

theorem run_asks : ∀ {asks : List Step} (s : Session), (∀ st ∈ asks, st = .ask) → s.run asks = s
  | [], _, _ => rfl
  | st :: asks, s, h => by
    obtain ⟨hst, hasks⟩ := List.forall_mem_cons.mp h
    rw [run_cons, hst]
    exact run_asks s hasks

/-- A line that could be put into order and then be made the exact filter says the same as the filter. -/
theorem exists_settled {s : Session} {q : ModLine} (hq : s.line.canonicalize s.mode = .ok q) {f : ModFilter}
    (hf : ModFilter.ofText s.mode ("!" ++ q.mods) = .ok f) :
    ({ s with line := q, filter := f } : Session).Settled q.acronyms := by
  obtain ⟨harr, hmods⟩ := ModLine.arrange_of_canonicalize hq
  obtain ⟨_, _, horder⟩ := Mode.arrange_ok_iff.mp harr
  have hknown := Mode.arranged_known harr
  have htwo := two_of_marked_line_ok hknown hf
  have hok := marked_line_ok hknown (Mode.arrange_ok_iff.mpr ⟨hknown, .refl _, horder⟩) htwo
  rw [hf, Except.ok.injEq] at hok
  exact ⟨⟨fun a ha => ⟨hknown a ha, htwo a ha⟩, horder⟩, hmods, hok⟩

theorem settled_of_replies {s t : Session} {asks : List Step} (hsort : (s.step .sort).1 = .done)
    (hasks : ∀ st ∈ asks, st = .ask) (ht : t = (s.step .sort).2.run asks)
    (hexact : (t.step .exactOfLine).1 = .done) :
    ∃ as, (t.step .exactOfLine).2.Settled as := by
  obtain ⟨q, hq⟩ := attempt_done_iff.mp hsort
  have ht : t = { s with line := q } := by rw [ht, run_asks _ hasks, step, attempt_of_ok hq]
  subst ht
  obtain ⟨f, hf⟩ := attempt_done_iff.mp hexact
  refine ⟨q.acronyms, ?_⟩
  rw [step, attempt_of_ok hf]
  exact exists_settled hq hf

/-- Wherever a session has got to, its line has no blanks at its ends and is empty only if it holds no
acronym, and some mode reads the filter: it knows the acronyms, each of two characters, and an exact
filter has them in its order. If the line can then be put into order and, after any questions, be made
the exact filter, both succeed ever after, as does making the filter the line again; line, filter and
mode stay, and the filter accepts the line. -/
theorem run_sound_then_settled (steps : List Step) {s : Session} (hs : s = start.run steps) :
    Trimmed s.line.mods.toList ∧ (s.line.mods = "" ↔ s.line.acronyms = []) ∧ (∃ m, s.filter.Readable m) ∧
    (∀ st e, (s.step st).1 = .refused e → (s.step st).2 = s) ∧
    ∀ (asks calm : List Step) (t u : Session), (s.step .sort).1 = .done → (∀ st ∈ asks, st = .ask) →
      t = (s.step .sort).2.run asks → (t.step .exactOfLine).1 = .done → u = (t.step .exactOfLine).2 →
      (∀ st ∈ calm, st.IsCalm) →
        (u.run calm).mode = u.mode ∧ (u.run calm).line.mods = u.line.mods ∧ (u.run calm).filter = u.filter ∧
          ∀ st : Step, st.IsCalm → ((u.run calm).step st).1 = st.calmReply := by
  have hsound : s.Sound := hs ▸ sound_run sound_start steps
  refine ⟨hsound.trimmed, ModLine.mods_eq_empty_iff hsound.trimmed, hsound.readable,
    fun st e => step_refused, ?_⟩
  intro asks calm t u hsort hasks ht hexact hu hcalm
  obtain ⟨as, hsettled⟩ := settled_of_replies hsort hasks ht hexact
  rw [← hu] at hsettled
  obtain ⟨hmode, hlater⟩ := settled_run hsettled hcalm
  refine ⟨hmode, hlater.mods.trans hsettled.mods.symm, hlater.filter.trans hsettled.filter.symm,
    fun st hst => ?_⟩
  exact (settled_step hlater hst).1

theorem run_settled_after_other_mode : ∃ s t u,
    s = start.run [.list [⟨"RD ", none⟩, ⟨"DA", none⟩], .mode (.name "mania"), .filter (some "!DARD"),
      .mode (.ordinal 0)] ∧
    s.filter = .exact ["RD", "DA"] ∧ (s.step .sort).1 = .done ∧ t = (s.step .sort).2.run [.ask] ∧
    (t.step .exactOfLine).1 = .done ∧ u = (t.step .exactOfLine).2.run [.sort, .lineOfExact] ∧
    u.line.mods = "DA RD" ∧ (u.step .ask).1 = .answer true := by
  obtain ⟨s, hs⟩ : ∃ s, s = start.run [.list [⟨"RD ", none⟩, ⟨"DA", none⟩], .mode (.name "mania"),
    .filter (some "!DARD"), .mode (.ordinal 0)] := ⟨_, rfl⟩
  obtain ⟨t, ht⟩ : ∃ t, t = (s.step .sort).2.run [.ask] := ⟨_, rfl⟩
  obtain ⟨u, hu⟩ : ∃ u, u = (t.step .exactOfLine).2 := ⟨_, rfl⟩
  have hfilter : s.filter = .exact ["RD", "DA"] := by rw [hs]; decide +kernel
  have hsort : (s.step .sort).1 = .done := by rw [hs]; decide +kernel
  have hexact : (t.step .exactOfLine).1 = .done := by rw [ht, hs]; decide +kernel
  have hmods : u.line.mods = "DA RD" := by rw [hu, ht, hs]; decide +kernel
  have hcalm : ∀ st ∈ [Step.sort, .lineOfExact], st.IsCalm :=
    List.forall_mem_cons.mpr ⟨.sort, List.forall_mem_cons.mpr ⟨.lineOfExact, by simp⟩⟩
  obtain ⟨-, -, -, -, hsettles⟩ := run_sound_then_settled _ hs
  obtain ⟨-, hline, -, hreply⟩ := hsettles [.ask] _ t u hsort (by simp) ht hexact hu hcalm
  exact ⟨s, t, _, hs, hfilter, hsort, ht, hexact, by rw [hu], hline.trans hmods, hreply .ask .ask⟩

end Session

end RhythmFilter
