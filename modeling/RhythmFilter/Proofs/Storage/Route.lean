import RhythmFilter.Proofs.Text.Joined
import RhythmFilter.Storage.FileTree

/-!
# Where routes lead

Where the parts of a route end does not depend on the tree that they are followed in. The last part is
that of the file, if the route can lead to one, and the parts before it are those of its folder. A route that is
written as nothing but names leads to the path of these names.
-/

namespace RhythmFilter

open Text

def Part.next (here : Path) : Part → Path
  | .name text => here ++ [text]
  | .up => here.dropLast

def lead (here : Path) (parts : List Part) : Path := parts.foldl Part.next here

/-- The path lies on the way along the parts, or above the way. -/
def Passes (here : Path) (parts : List Part) (q : Path) : Prop :=
  ∃ front, front <+: parts ∧ q <+: lead here front

theorem lead_append (here : Path) (parts later : List Part) :
    lead here (parts ++ later) = lead (lead here parts) later := List.foldl_append

theorem lead_names (here : Path) : ∀ names : List String, lead here (names.map .name) = here ++ names
  | [] => (List.append_nil here).symm
  | n :: names => by
    have := lead_names (here ++ [n]) names
    rwa [List.append_assoc] at this

section
variable {here q : Path} {parts : List Part}

theorem passes_here (h : q <+: here) (parts : List Part) : Passes here parts q := ⟨[], List.nil_prefix, h⟩

theorem passes_next (part : Part) (h : Passes (part.next here) parts q) : Passes here (part :: parts) q := by
  obtain ⟨front, hfront, hq⟩ := h
  exact ⟨part :: front, List.cons_prefix_cons.mpr ⟨rfl, hfront⟩, hq⟩

theorem Passes.mono {later : List Part} (h : Passes here parts q) (hlater : parts <+: later) :
    Passes here later q := by
  obtain ⟨front, hfront, hq⟩ := h
  exact ⟨front, hfront.trans hlater, hq⟩

theorem prefix_of_passes_names {names : List String} (h : Passes here (names.map .name) q) :
    q <+: here ++ names := by
  obtain ⟨front, hfront, hq⟩ := h
  obtain ⟨back, hback⟩ := hfront
  obtain ⟨ns, ms, hnames, hns, _⟩ := List.map_eq_append_iff.mp hback.symm
  rw [← hns, lead_names] at hq
  refine hq.trans ?_
  rw [hnames, ← List.append_assoc]
  exact List.prefix_append _ _

end

/-! ## The file and its folder -/

theorem exists_idle_end (pieces : List String) : ∃ idle, pieces = dropIdleEnd pieces ++ idle ∧
    ∀ p ∈ idle, Part.ofPiece? p = none := by
  refine ⟨(pieces.reverse.takeWhile fun p => (Part.ofPiece? p).isNone).reverse, ?_, fun p hp => ?_⟩
  · rw [dropIdleEnd, ← List.reverse_append, List.takeWhile_append_dropWhile, List.reverse_reverse]
  · simpa using List.mem_takeWhile_imp (List.mem_reverse.mp hp)

theorem parts_dropIdleEnd (pieces : List String) :
    (dropIdleEnd pieces).filterMap Part.ofPiece? = pieces.filterMap Part.ofPiece? := by
  obtain ⟨idle, h, hidle⟩ := exists_idle_end pieces
  conv => rhs; rw [h, List.filterMap_append, List.filterMap_eq_nil_iff.mpr hidle, List.append_nil]

theorem dropIdleEnd_append_singleton {last : String} (h : Part.ofPiece? last ≠ none) (front : List String) :
    dropIdleEnd (front ++ [last]) = front ++ [last] := by
  obtain ⟨part, hpart⟩ := Option.ne_none_iff_exists'.mp h
  simp [dropIdleEnd, hpart]

theorem prefix_of_dropIdleEnd (pieces : List String) : dropIdleEnd pieces <+: pieces := by
  obtain ⟨idle, h, _⟩ := exists_idle_end pieces
  exact ⟨idle, h.symm⟩

namespace Route

def target? (r : Route) : Option Path := r.fileName?.map fun _ => lead [] r.parts

theorem folder_pieces (r : Route) : r.folder.pieces <+: r.pieces :=
  ((prefix_of_dropIdleEnd _).trans (List.dropLast_prefix _)).trans (prefix_of_dropIdleEnd _)

theorem folder_parts (r : Route) : r.folder.parts <+: r.parts := r.folder_pieces.filterMap _

theorem parts_of_fileName {r : Route} {name : String} (h : r.fileName? = some name) :
    r.parts = r.folder.parts ++ [.name name] := by
  obtain ⟨part, hpart, hname⟩ := Option.bind_eq_some_iff.mp h
  obtain ⟨last, hlast, hpiece⟩ := Option.bind_eq_some_iff.mp hpart
  obtain ⟨front, hfront⟩ := List.getLast?_eq_some_iff.mp hlast
  have hpart : part = .name name := by
    cases part with
    | name text => exact congrArg Part.name (Option.some.inj hname)
    | up => cases hname
  have hfolder : r.folder.parts = front.filterMap Part.ofPiece? := by
    rw [folder, hfront, dropIdleEnd_append_singleton (by simp [hpiece]), List.dropLast_concat, parts,
      parts_dropIdleEnd]
  rw [hfolder, parts, hfront, List.filterMap_append, List.filterMap_cons_some (hpart ▸ hpiece)]
  rfl

theorem target?_eq_some_iff {r : Route} {p : Path} :
    r.target? = some p ↔ ∃ name, r.fileName? = some name ∧ p = lead [] r.folder.parts ++ [name] := by
  rw [target?, Option.map_eq_some_iff]
  refine exists_congr fun name => and_congr_right fun h => ?_
  rw [parts_of_fileName h, lead_append]
  exact eq_comm

/-! ## Routes made of names -/

/-- The route is nothing but these names, up to idle pieces, and can lead to a file. -/
structure Names (r : Route) (names : Path) : Prop where
  parts : r.parts = names.map .name
  file : r.fileName? ≠ none

theorem Names.folder {r : Route} {names : Path} (h : r.Names names) : ∃ name, r.fileName? = some name ∧
    r.folder.parts = names.dropLast.map .name ∧ names = names.dropLast ++ [name] := by
  obtain ⟨name, hname⟩ := Option.ne_none_iff_exists'.mp h.file
  have hparts := parts_of_fileName hname
  rw [h.parts] at hparts
  obtain ⟨ns, ms, hnames, hns, hms⟩ := List.map_eq_append_iff.mp hparts
  have hlast : ms = [name] := by
    obtain ⟨n, hn, e⟩ := List.map_eq_singleton_iff.mp hms
    rw [hn, Part.name.inj e]
  rw [hlast] at hnames
  rw [hnames, List.dropLast_concat]
  exact ⟨name, hname, hns.symm, rfl⟩

theorem Names.target {r : Route} {names : Path} (h : r.Names names) : r.target? = some names := by
  obtain ⟨name, hname, hfolder, hnames⟩ := h.folder
  rw [target?_eq_some_iff]
  refine ⟨name, hname, ?_⟩
  rw [hfolder, lead_names, List.nil_append, ← hnames]

/-- The name can stand between slashes and is neither of the names for other ways. -/
structure IsOrdinary (name : String) : Prop where
  nonempty : name ≠ ""
  not_here : name ≠ "."
  not_up : name ≠ ".."
  no_slash : '/' ∉ name.toList

theorem IsOrdinary.part {name : String} (h : IsOrdinary name) : Part.ofPiece? name = some (.name name) := by
  simp [Part.ofPiece?, h.nonempty, h.not_here, h.not_up]

theorem pieces_ofText {ns : List String} (hne : ns ≠ []) (h : ∀ n ∈ ns, '/' ∉ n.toList) :
    (ofText ("/".intercalate ns)).pieces = ns := by
  have hslash : ∀ p ∈ ns.map String.toList, '/' ∉ p := by simpa using h
  rw [ofText, String.toList_intercalate]
  exact (congrArg _ (pieces_intercalate '/' (by simpa using hne) hslash)).trans (map_ofList_toList ns)

section
variable {names : Path} (hne : names ≠ []) (h : ∀ n ∈ names, IsOrdinary n)
include hne h

theorem names_of_pieces {r : Route} (idle : List String) (hidle : ∀ p ∈ idle, Part.ofPiece? p = none)
    (hr : r.pieces = idle ++ names) : r.Names names := by
  have hparts : names.filterMap Part.ofPiece? = names.map .name :=
    List.filterMap_eq_map_iff_forall_eq_some.mpr fun n hn => (h n hn).part
  refine ⟨?_, ?_⟩
  · rw [Route.parts, hr, List.filterMap_append, List.filterMap_eq_nil_iff.mpr hidle, hparts, List.nil_append]
  · rw [fileName?, hr, List.getLast?_append_of_ne_nil _ hne, List.getLast?_eq_some_getLast hne,
      Option.bind_some,
      (h _ (List.getLast_mem hne)).part]
    simp [Part.name?]

theorem names_ofText : (ofText ("/".intercalate names)).Names names := by
  refine names_of_pieces hne h [] nofun ?_
  exact pieces_ofText hne fun n hn => (h n hn).no_slash

theorem names_ofText_slash : (ofText ("/" ++ "/".intercalate names)).Names names := by
  have hjoin : "/" ++ "/".intercalate names = "/".intercalate ("" :: names) := by
    cases names with
    | nil => exact absurd rfl hne
    | cons n ns => simp [String.intercalate_cons_cons]
  refine names_of_pieces hne h [""] (by simp [Part.ofPiece?]) ?_
  rw [hjoin]
  refine pieces_ofText (List.cons_ne_nil _ _)
    (List.forall_mem_cons.mpr ⟨by simp, fun n hn => (h n hn).no_slash⟩)

end

/-! ## Routes that can be followed -/

theorem le_grown_size (n : Nat) (ps : List String) : n ≤ ps.foldl (fun n p => n + (p.utf8ByteSize + 1)) n := by
  induction ps generalizing n with
  | nil => exact Nat.le_refl n
  | cons p ps ih => exact Nat.le_trans (Nat.le_add_right n _) (ih _)

theorem isPassable_of_longer {r s : Route} (h : r.pieces <+: s.pieces) (hs : s.isPassable = true) :
    r.isPassable = true := by
  obtain ⟨back, hback⟩ := h
  have hsize : r.size ≤ s.size := by
    rw [size, size, ← hback, List.foldl_append]
    exact le_grown_size _ back
  rw [isPassable, ← hback, List.all_append, Bool.and_eq_true, Bool.and_eq_true, decide_eq_true_eq] at hs
  rw [isPassable, Bool.and_eq_true, decide_eq_true_eq]
  exact ⟨hs.1.1, Nat.le_trans hsize hs.2⟩

theorem isPassable_folder {r : Route} (h : r.isPassable = true) : r.folder.isPassable = true :=
  isPassable_of_longer r.folder_pieces h

end Route

end RhythmFilter
