import Mathlib.Data.List.Induction
import RhythmFilter.Proofs.Storage.Route

/-!
# Folders made on the way

Making the folders along a route adds folders where nothing was, all of them on the way, and changes nothing
else. If it succeeds, the way can be followed ever after. Along names it succeeds unless a file stands in
the way.
-/

namespace RhythmFilter.FileTree

variable {t u v : FileTree} {p q : Path}

theorem content?_eq_some_iff {content : ByteArray} :
    t.content? p = some content ↔ t.entry p = some (.file content) := by
  unfold content?
  split <;> simp_all

theorem content?_of_isFolder (h : t.isFolder p = true) : t.content? p = none := by
  rw [content?, isFolder_iff.mp h]

theorem content?_of_no_entry (h : t.entry p = none) : t.content? p = none := by
  rw [content?, h]

theorem isFolder_root (t : FileTree) : t.isFolder [] = true := isFolder_iff.mpr t.entry_root

theorem eq_or_above (h : q <+: p) : q = p ∨ q <+: p.dropLast := by
  rcases List.eq_nil_or_concat p with e | ⟨front, last, e⟩
  · exact Or.inl (by rw [e] at h ⊢; exact List.prefix_nil.mp h)
  · rw [List.concat_eq_append] at e
    rw [e] at h ⊢
    rw [List.dropLast_concat]
    exact List.prefix_concat_iff.mp h

theorem isFolder_above {e : Entry} (h : t.entry p = some e) (hq : q <+: p.dropLast) : t.isFolder q = true := by
  obtain ⟨back, hback⟩ := hq
  have hparent := t.entry_parent h
  rw [← hback] at hparent
  clear h hback
  induction back using List.reverseRecOn with
  | nil => rwa [List.append_nil, ← isFolder_iff] at hparent
  | append_singleton back name ih =>
    have := t.entry_parent hparent
    rw [← List.append_assoc, List.dropLast_concat] at this
    exact ih this

theorem isFolder_of_below (h : t.isFolder p = true) (hq : q <+: p) : t.isFolder q = true := by
  rcases eq_or_above hq with e | hq
  · rwa [e]
  · exact isFolder_above (isFolder_iff.mp h) hq

/-! ## More folders -/

/-- The second tree is the first with more folders: all of them where nothing was, and where `new` says. -/
def Grows (t u : FileTree) (new : Path → Prop) : Prop :=
  ∀ q, u.entry q = t.entry q ∨ t.entry q = none ∧ u.entry q = some .folder ∧ new q

namespace Grows
variable {new new' : Path → Prop}

theorem refl (t : FileTree) (new : Path → Prop) : Grows t t new := fun _ => Or.inl rfl

theorem mono (h : Grows t u new) (hnew : ∀ q, new q → new' q) : Grows t u new' :=
  fun q => (h q).imp_right fun hq => ⟨hq.1, hq.2.1, hnew q hq.2.2⟩

theorem trans (h : Grows t u new) (h' : Grows u v new) : Grows t v new := by
  intro q
  rcases h' q with e | ⟨hnone, hfolder, hq⟩
  · rw [e]
    exact h q
  · rcases h q with e | ⟨_, hfolder', _⟩
    · exact Or.inr ⟨e ▸ hnone, hfolder, hq⟩
    · rw [hnone] at hfolder'
      cases hfolder'

theorem isFolder (h : Grows t u new) (hp : t.isFolder p = true) : u.isFolder p = true := by
  rw [isFolder_iff] at hp ⊢
  rcases h p with e | ⟨_, hfolder, _⟩
  · rw [e, hp]
  · exact hfolder

theorem content?_eq (h : Grows t u new) (p : Path) : u.content? p = t.content? p := by
  rcases h p with e | ⟨hnone, hfolder, _⟩
  · rw [content?, e, content?]
  · rw [content?_of_no_entry hnone, content?, hfolder]

theorem of_isFolder (h : Grows t u new) (hp : u.isFolder p = true) :
    t.isFolder p = true ∨ t.entry p = none ∧ new p := by
  rcases h p with e | ⟨hnone, _, hnew⟩
  · rw [isFolder_iff, e] at hp
    exact Or.inl (isFolder_iff.mpr hp)
  · exact Or.inr ⟨hnone, hnew⟩

end Grows

theorem entry_addFolders (t : FileTree) (p q : Path) :
    (t.addFolders p).entry q = if q <+: p then some .folder else t.entry q := by
  simp only [addFolders, List.isPrefixOf_iff_prefix]

theorem grows_addFolders (hparent : t.isFolder p.dropLast = true) (hnone : t.entry p = none) :
    Grows t (t.addFolders p) (· <+: p) := by
  intro q
  rw [entry_addFolders]
  by_cases hq : q <+: p
  · rw [if_pos hq]
    rcases eq_or_above hq with e | habove
    · exact Or.inr ⟨e ▸ hnone, rfl, hq⟩
    · exact Or.inl (isFolder_iff.mp (isFolder_of_below hparent habove)).symm
  · rw [if_neg hq]
    exact Or.inl rfl

/-! ## Along a route -/

section
variable {here there : Path} {parts : List Part}

theorem lead_of_follow? (h : t.follow? here parts = some there) : there = lead here parts := by
  fun_induction follow? t here parts with
  | case1 here => exact (Option.some.inj h).symm
  | case2 here parts ih => exact ih h
  | case3 here name parts hfolder ih => exact ih h
  | case4 here name parts hfolder => cases h

theorem isFolder_of_follow? (hhere : t.isFolder here = true) (h : t.follow? here parts = some there) :
    t.isFolder there = true := by
  fun_induction follow? t here parts with
  | case1 here => exact Option.some.inj h ▸ hhere
  | case2 here parts ih => exact ih (isFolder_of_below hhere (List.dropLast_prefix _)) h
  | case3 here name parts hfolder ih => exact ih hfolder h
  | case4 here name parts hfolder => cases h

/-- A way can be followed as long as no folder is taken away. -/
theorem follow?_mono (hkept : ∀ q, t.isFolder q = true → u.isFolder q = true)
    (h : t.follow? here parts = some there) : u.follow? here parts = some there := by
  fun_induction follow? t here parts with
  | case1 here => exact h
  | case2 here parts ih => exact ih h
  | case3 here name parts hfolder ih =>
    rw [follow?, if_pos (hkept _ hfolder)]
    exact ih h
  | case4 here name parts hfolder => cases h

theorem makeFrom_grows (hhere : t.isFolder here = true) :
    Grows t (t.makeFrom here parts).1 (Passes here parts) := by
  fun_induction makeFrom t here parts with
  | case1 t here => exact .refl _ _
  | case2 t here parts ih =>
    exact (ih (isFolder_of_below hhere (List.dropLast_prefix _))).mono fun q => passes_next .up
  | case3 t here name parts there hfolder ih => exact (ih hfolder).mono fun q => passes_next (.name name)
  | case4 t here name parts there hfolder hfree ih =>
    have hnone : t.entry there = none := Option.isNone_iff_eq_none.mp (Bool.and_eq_true_iff.mp hfree).1
    have hparent : t.isFolder there.dropLast = true := by rwa [List.dropLast_concat]
    have hthere : (t.addFolders there).isFolder there = true := by
      rw [isFolder_iff, entry_addFolders, if_pos (List.prefix_refl _)]
    have hmade : Grows t (t.addFolders there) (Passes here (.name name :: parts)) :=
      (grows_addFolders hparent hnone).mono fun q hq => passes_next (.name name) (passes_here hq _)
    exact hmade.trans ((ih hthere).mono fun q => passes_next (.name name))
  | case5 t here name parts there hfolder hfree => exact .refl _ _

theorem follow?_makeFrom (hhere : t.isFolder here = true) (h : (t.makeFrom here parts).2 = some there) :
    (t.makeFrom here parts).1.follow? here parts = some there := by
  fun_induction makeFrom t here parts with
  | case1 t here => exact h
  | case2 t here parts ih => exact ih (isFolder_of_below hhere (List.dropLast_prefix _)) h
  | case3 t here name parts there hfolder ih =>
    rw [follow?, if_pos ((makeFrom_grows hfolder).isFolder hfolder)]
    exact ih hfolder h
  | case4 t here name parts there hfolder hfree ih =>
    have hthere : (t.addFolders there).isFolder there = true := by
      rw [isFolder_iff, entry_addFolders, if_pos (List.prefix_refl _)]
    rw [follow?, if_pos ((makeFrom_grows hthere).isFolder hthere)]
    exact ih hthere h
  | case5 t here name parts there hfolder hfree => cases h

theorem makeFolders_grows (t : FileTree) (r : Route) : Grows t (t.makeFolders r).1 (Passes [] r.parts) := by
  unfold makeFolders
  split
  · exact makeFrom_grows t.isFolder_root
  · exact .refl _ _

theorem follow?_makeFolders {r : Route} (h : (t.makeFolders r).2 = some there) :
    (t.makeFolders r).1.follow? [] r.parts = some there := by
  unfold makeFolders at h ⊢
  split at h
  · rename_i hpass
    rw [if_pos hpass]
    exact follow?_makeFrom t.isFolder_root h
  · cases h

theorem makeRoute_grows (t : FileTree) (r : Route) : Grows t (t.makeRoute r).1 (Passes [] r.parts) := by
  unfold makeRoute
  split
  · exact .refl _ _
  · split
    · exact (t.makeFolders_grows r.folder).mono fun q hq => hq.mono r.folder_parts
    · exact t.makeFolders_grows r

/-! ## Along names -/

theorem content?_addFolders (hnone : t.content? p = none) (back : Path) :
    (t.addFolders p).content? (p ++ back) = t.content? (p ++ back) := by
  by_cases hq : p ++ back <+: p
  · have e : p ++ back = p := hq.eq_of_length_le (by simp)
    rw [e, hnone, content?, entry_addFolders, if_pos (List.prefix_refl _)]
  · rw [content?, entry_addFolders, if_neg hq, content?]

theorem forall_prefix_cons {P : Path → Prop} {name : String} {names : List String} (h : P []) :
    (∀ front, front <+: name :: names → P front) ↔ ∀ front, front <+: names → P (name :: front) := by
  refine ⟨fun hall front hfront => hall _ (List.cons_prefix_cons.mpr ⟨rfl, hfront⟩),
    fun hall front hfront => ?_⟩
  rcases List.prefix_cons_iff.mp hfront with e | ⟨back, e, hback⟩
  · rwa [e]
  · rw [e]
    exact hall back hback

/-- Along names that entries can have, nothing but a file can be in the way. -/
theorem makeFrom_names_iff : ∀ {names : List String} {t : FileTree} {here : Path}, t.isFolder here = true →
    (∀ n ∈ names, isEntryName n = true) →
      ((∃ there, (t.makeFrom here (names.map .name)).2 = some there) ↔
        ∀ front, front <+: names → t.content? (here ++ front) = none)
  | [], t, here, hhere, _ => by
    refine ⟨fun _ front hfront => ?_, fun _ => ⟨here, rfl⟩⟩
    rw [List.prefix_nil.mp hfront, List.append_nil]
    exact content?_of_isFolder hhere
  | name :: names, t, here, hhere, hnames => by
    obtain ⟨hname, hnames⟩ := List.forall_mem_cons.mp hnames
    have hnext : (∀ front, front <+: names → t.content? (here ++ name :: front) = none) ↔
        ∀ front, front <+: names → t.content? (here ++ [name] ++ front) = none := by
      simp only [List.append_assoc, List.singleton_append]
    rw [forall_prefix_cons (by rw [List.append_nil]; exact content?_of_isFolder hhere), hnext, List.map_cons]
    by_cases hfolder : t.isFolder (here ++ [name]) = true
    · rw [makeFrom, if_pos hfolder, makeFrom_names_iff hfolder hnames]
    · cases hentry : t.entry (here ++ [name]) with
      | none =>
        have hmade : (t.addFolders (here ++ [name])).isFolder (here ++ [name]) = true := by
          rw [isFolder_iff, entry_addFolders, if_pos (List.prefix_refl _)]
        simp only [makeFrom, if_neg hfolder, hentry, hname, Option.isNone_none, Bool.and_self, ite_true]
        rw [makeFrom_names_iff hmade hnames]
        simp only [content?_addFolders (content?_of_no_entry hentry)]
      | some e =>
        -- the way ends here, and what stands in it has a content
        simp only [makeFrom, if_neg hfolder, hentry, Option.isNone_some, Bool.false_and]
        refine ⟨fun h => by simp at h, fun h => absurd (h [] List.nil_prefix) ?_⟩
        cases e with
        | folder => exact absurd (isFolder_iff.mpr hentry) hfolder
        | file content => simp [content?, hentry]

end

end RhythmFilter.FileTree
