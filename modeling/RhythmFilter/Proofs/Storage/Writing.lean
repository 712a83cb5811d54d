import RhythmFilter.Proofs.Storage.Growth

/-!
# Files written

Writing a file makes the folders on the way, and then either puts the file into its folder or changes nothing
more. The file is read back through the same route, as long as nobody writes it again.
-/

namespace RhythmFilter.FileTree

variable {α : Type} {t u : FileTree} {r : Route} {p q : Path} {content : ByteArray}

theorem write?_eq_some (h : t.write? p content = some u) :
    t.isFolder p.dropLast = true ∧ t.isFolder p = false ∧
      ∀ q, u.entry q = if q = p then some (.file content) else t.entry q := by
  unfold write? at h
  split at h
  · rename_i hfits
    rw [← Option.some.inj h]
    exact ⟨hfits.1, hfits.2, fun q => rfl⟩
  · cases h

theorem exists_write? (content : ByteArray) (hparent : t.isFolder p.dropLast = true)
    (h : t.isFolder p = false) :
    ∃ u, t.write? p content = some u := ⟨_, dif_pos ⟨hparent, h⟩⟩

theorem content?_write? (h : t.write? p content = some u) : u.content? p = some content := by
  obtain ⟨_, _, hentry⟩ := write?_eq_some h
  rw [content?_eq_some_iff, hentry, if_pos rfl]

theorem content?_write?_ne (h : t.write? p content = some u) (hq : q ≠ p) : u.content? q = t.content? q := by
  obtain ⟨_, _, hentry⟩ := write?_eq_some h
  rw [content?, hentry, if_neg hq, content?]

theorem isFolder_write? (h : t.write? p content = some u) (q : Path) : u.isFolder q = t.isFolder q := by
  obtain ⟨_, hp, hentry⟩ := write?_eq_some h
  by_cases hq : q = p
  · rw [hq, hp, isFolder, hentry, if_pos rfl]
  · rw [isFolder, hentry, if_neg hq, isFolder]

theorem guard_bind_eq_some_iff {P : Prop} [Decidable P] {f : Unit → Option α} {a : α} :
    (guard P >>= f) = some a ↔ P ∧ f () = some a := by
  by_cases h : P
  · rw [guard, if_pos h, and_iff_right h]
    rfl
  · rw [guard, if_neg h]
    exact iff_of_false (fun e => nomatch e) fun hP => h hP.1

theorem read?_eq_some_iff : t.read? r = some content ↔ r.isPassable = true ∧
    ∃ p, r.target? = some p ∧ t.follow? [] r.folder.parts = some p.dropLast ∧ t.content? p = some content := by
  unfold read?
  rw [guard_bind_eq_some_iff]
  refine and_congr_right fun _ => ⟨fun h => ?_, fun h => ?_⟩
  · obtain ⟨here, hhere, h⟩ := Option.bind_eq_some_iff.mp h
    obtain ⟨name, hname, hcontent⟩ := Option.bind_eq_some_iff.mp h
    obtain rfl := lead_of_follow? hhere
    refine ⟨_, Route.target?_eq_some_iff.mpr ⟨name, hname, rfl⟩, ?_, hcontent⟩
    rwa [List.dropLast_concat]
  · obtain ⟨p, htarget, hfollow, hcontent⟩ := h
    obtain ⟨name, hname, rfl⟩ := Route.target?_eq_some_iff.mp htarget
    rw [List.dropLast_concat] at hfollow
    exact Option.bind_eq_some_iff.mpr ⟨_, hfollow, Option.bind_eq_some_iff.mpr ⟨name, hname, hcontent⟩⟩

/-- What is read through a route is the content at its target, and can be read as long as the content stays
and no folder is taken away. -/
theorem read?_mono (hkept : ∀ q, t.isFolder q = true → u.isFolder q = true) (hp : r.target? = some p)
    (hcontent : u.content? p = some content) (h : t.read? r = some content) : u.read? r = some content := by
  obtain ⟨hpass, q, hq, hfollow, _⟩ := read?_eq_some_iff.mp h
  obtain rfl : p = q := Option.some.inj (hp.symm.trans hq)
  exact read?_eq_some_iff.mpr ⟨hpass, p, hp, follow?_mono hkept hfollow, hcontent⟩

/-! ## Files with their folders -/

/-- The tree with the folders on the way to a file, which may stand in it afterwards. -/
inductive Puts (t : FileTree) (r : Route) (content : ByteArray) : FileTree × Bool → Prop
  | fails {grown : FileTree} : Grows t grown (Passes [] r.folder.parts) → Puts t r content (grown, false)
  | succeeds {grown u : FileTree} {p : Path} : Grows t grown (Passes [] r.folder.parts) → r.isPassable = true →
    r.target? = some p → grown.follow? [] r.folder.parts = some p.dropLast → grown.write? p content = some u →
    Puts t r content (u, true)

theorem writeIn?_eq_some_iff {here : Path} : t.writeIn? here r content = some u ↔ r.isPassable = true ∧
    ∃ name, r.fileName? = some name ∧ isEntryName name = true ∧ t.write? (here ++ [name]) content = some u := by
  unfold writeIn?
  rw [guard_bind_eq_some_iff]
  refine and_congr_right fun _ => ⟨fun h => ?_, fun h => ?_⟩
  · obtain ⟨name, hname, h⟩ := Option.bind_eq_some_iff.mp h
    exact ⟨name, hname, guard_bind_eq_some_iff.mp h⟩
  · obtain ⟨name, hname, h⟩ := h
    exact Option.bind_eq_some_iff.mpr ⟨name, hname, guard_bind_eq_some_iff.mpr h⟩

theorem puts_put (t : FileTree) (r : Route) (content : ByteArray) : Puts t r content (t.put r content) := by
  have hgrows := makeFolders_grows t r.folder
  unfold put
  cases hmade : t.makeFolders r.folder with
  | mk grown made =>
    rw [hmade] at hgrows
    cases made with
    | none => exact .fails hgrows
    | some here =>
      cases hwrite : grown.writeIn? here r content with
      | none =>
        simp only [hwrite]
        exact .fails hgrows
      | some u =>
        have hfollow := follow?_makeFolders (congrArg Prod.snd hmade)
        rw [hmade] at hfollow
        obtain ⟨hpass, name, hname, _, hwritten⟩ := writeIn?_eq_some_iff.mp hwrite
        have htarget : r.target? = some (here ++ [name]) :=
          Route.target?_eq_some_iff.mpr ⟨name, hname, by rw [lead_of_follow? hfollow]⟩
        simp only [hwrite]
        refine .succeeds hgrows hpass htarget ?_ hwritten
        rwa [List.dropLast_concat]

namespace Puts
variable {result : FileTree × Bool} (h : Puts t r content result)
include h

theorem read? (hdone : result.2 = true) : result.1.read? r = some content := by
  cases h with
  | fails hgrows => cases hdone
  | succeeds hgrows hpass htarget hfollow hwrite =>
    refine read?_eq_some_iff.mpr ⟨hpass, _, htarget, ?_, content?_write? hwrite⟩
    exact follow?_mono (fun q hq => by rwa [isFolder_write? hwrite]) hfollow

theorem content?_eq (hq : result.2 = true → r.target? ≠ some q) : result.1.content? q = t.content? q := by
  cases h with
  | fails hgrows => exact hgrows.content?_eq q
  | succeeds hgrows hpass htarget hfollow hwrite =>
    have hne : q ≠ _ := fun e => hq rfl (e ▸ htarget)
    exact (content?_write?_ne hwrite hne).trans (hgrows.content?_eq q)

theorem isFolder (hq : t.isFolder q = true) : result.1.isFolder q = true := by
  cases h with
  | fails hgrows => exact hgrows.isFolder hq
  | succeeds hgrows hpass htarget hfollow hwrite =>
    rw [isFolder_write? hwrite]
    exact hgrows.isFolder hq

theorem of_isFolder (hq : result.1.isFolder q = true) :
    t.isFolder q = true ∨ t.entry q = none ∧ Passes [] r.folder.parts q := by
  cases h with
  | fails hgrows => exact hgrows.of_isFolder hq
  | succeeds hgrows hpass htarget hfollow hwrite =>
    rw [isFolder_write? hwrite] at hq
    exact hgrows.of_isFolder hq

end Puts

theorem put_ok_iff : (t.put r content).2 = true ↔ ∃ here, (t.makeFolders r.folder).2 = some here ∧
    ∃ u, (t.makeFolders r.folder).1.writeIn? here r content = some u := by
  unfold put
  cases t.makeFolders r.folder with
  | mk grown made =>
    cases made with
    | none => simp
    | some here =>
      cases hwrite : grown.writeIn? here r content with
      | none => simp [hwrite]
      | some u => simp [hwrite]

theorem exists_writeIn?_iff {here : Path} {name : String} (hpass : r.isPassable = true)
    (hname : r.fileName? = some name)
    (hentry : isEntryName name = true) : (∃ u, t.writeIn? here r content = some u) ↔
      t.isFolder here = true ∧ t.isFolder (here ++ [name]) = false := by
  simp only [writeIn?_eq_some_iff, hname]
  refine ⟨fun h => ?_, fun h => ?_⟩
  · obtain ⟨u, _, name', e, _, hwrite⟩ := h
    obtain ⟨hparent, hfile, _⟩ := write?_eq_some hwrite
    rw [List.dropLast_concat] at hparent
    rw [Option.some.inj e]
    exact ⟨hparent, hfile⟩
  · have hparent : t.isFolder (here ++ [name]).dropLast = true := by rw [List.dropLast_concat, h.1]
    obtain ⟨u, hu⟩ := exists_write? content hparent h.2
    exact ⟨u, hpass, name, rfl, hentry, hu⟩

/-- A file can be written to a path of names, unless a file stands in the way or a folder in its place. -/
theorem put_names_iff {names : Path} (hr : r.Names names) (hpass : r.isPassable = true)
    (hnames : ∀ n ∈ names, isEntryName n = true) : (t.put r content).2 = true ↔
      (∀ q, q <+: names.dropLast → t.content? q = none) ∧ t.isFolder names = false := by
  obtain ⟨name, hname, hfolder, hsplit⟩ := hr.folder
  have hupper : ∀ n ∈ names.dropLast, isEntryName n = true :=
    fun n hn => hnames n (List.dropLast_subset names hn)
  have hentry : isEntryName name = true := hnames name (by rw [hsplit]; simp)
  have hmake : t.makeFolders r.folder = t.makeFrom [] (names.dropLast.map .name) := by
    rw [makeFolders, if_pos (Route.isPassable_folder hpass), hfolder]
  have hway : (∃ here, (t.makeFolders r.folder).2 = some here) ↔
      ∀ q, q <+: names.dropLast → t.content? q = none := by
    have := makeFrom_names_iff t.isFolder_root hupper
    rwa [← hmake] at this
  have hgrows := makeFolders_grows t r.folder
  -- folders are made above the path only, so none gets into its place
  have hsame : (t.makeFolders r.folder).1.isFolder names = t.isFolder names := by
    refine Bool.eq_iff_iff.mpr ⟨fun h => ?_, hgrows.isFolder⟩
    rcases hgrows.of_isFolder h with h | ⟨_, hpasses⟩
    · exact h
    · rw [hfolder] at hpasses
      have hshort := (prefix_of_passes_names hpasses).length_le
      have hlong := congrArg List.length hsplit
      simp only [List.nil_append, List.length_append, List.length_singleton] at hshort hlong
      omega
  rw [put_ok_iff, ← hway, ← hsame, ← exists_and_right]
  refine exists_congr fun here => and_congr_right fun hmade => ?_
  have hfollow := follow?_makeFolders hmade
  have hhere : here ++ [name] = names := by
    rw [lead_of_follow? hfollow, hfolder, lead_names, List.nil_append, ← hsplit]
  rw [exists_writeIn?_iff hpass hname hentry, hhere]
  exact and_iff_right (isFolder_of_follow? (isFolder_root _) hfollow)

end RhythmFilter.FileTree
