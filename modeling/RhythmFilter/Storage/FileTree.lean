import RhythmFilter.Storage.Route

/-!
# File trees

A tree of folders and files. The root is a folder, and so is whatever holds another entry. Folders are
made one by one along a route; where that is not possible, those made before stay. A file is written
as a whole or not at all.
-/

namespace RhythmFilter

/-- The names on the way from the root. -/
abbrev Path := List String

inductive Entry where
  | folder
  | file (content : ByteArray)

structure FileTree where
  entry : Path → Option Entry
  entry_root : entry [] = some .folder
  entry_parent : ∀ {p : Path} {e : Entry}, entry p = some e → entry p.dropLast = some .folder

namespace FileTree

def empty : FileTree where
  entry p := if p = [] then some .folder else none
  entry_root := rfl
  entry_parent h := by
    split at h
    · next hp => simp [hp]
    · simp at h

def isFolder (t : FileTree) (p : Path) : Bool :=
  match t.entry p with
  | some .folder => true
  | _ => false

def content? (t : FileTree) (p : Path) : Option ByteArray :=
  match t.entry p with
  | some (.file content) => some content
  | _ => none

theorem isFolder_iff {t : FileTree} {p : Path} :
    t.isFolder p = true ↔ t.entry p = some .folder := by
  unfold isFolder
  split <;> simp_all

/-! ## Changes at a path -/

def addFolders (t : FileTree) (p : Path) : FileTree where
  entry q := if q.isPrefixOf p then some .folder else t.entry q
  entry_root := by simp
  entry_parent {q e} h := by
    split
    · rfl
    · next hq =>
      split at h
      · next hp =>
        have hp := List.isPrefixOf_iff_prefix.mp hp
        exact absurd (List.isPrefixOf_iff_prefix.mpr ((List.dropLast_prefix q).trans hp)) hq
      · exact t.entry_parent h

def write? (t : FileTree) (p : Path) (content : ByteArray) : Option FileTree :=
  if h : t.isFolder p.dropLast = true ∧ t.isFolder p = false then
    some {
      entry q := if q = p then some (.file content) else t.entry q
      entry_root := by
        have : p ≠ [] := by
          rintro rfl
          simp [isFolder, t.entry_root] at h
        simp [this.symm, t.entry_root]
      entry_parent {q e} hq := by
        have hp : p ≠ [] := by
          rintro rfl
          simp [isFolder, t.entry_root] at h
        have hparent : t.entry q.dropLast = some .folder := by
          split at hq
          · next hqp => rw [hqp]; exact isFolder_iff.mp h.1
          · exact t.entry_parent hq
        have hne : q.dropLast ≠ p := by
          rintro rfl
          simp [isFolder, hparent] at h
        simp [hne, hparent] }
  else none

/-! ## Following routes -/

/-- Where the parts lead from a folder, if they lead through folders to a folder. -/
def follow? (t : FileTree) (here : Path) : List Part → Option Path
  | [] => some here
  | .up :: parts => t.follow? here.dropLast parts
  | .name name :: parts =>
    if t.isFolder (here ++ [name]) then t.follow? (here ++ [name]) parts else none

/-- Follows the parts and makes the folders that are missing; gives the tree as far as that went, and
the folder that the parts lead to. -/
def makeFrom (t : FileTree) (here : Path) : List Part → FileTree × Option Path
  | [] => (t, some here)
  | .up :: parts => t.makeFrom here.dropLast parts
  | .name name :: parts =>
    let there := here ++ [name]
    if t.isFolder there then t.makeFrom there parts
    else if (t.entry there).isNone && isEntryName name then
      (t.addFolders there).makeFrom there parts
    else (t, none)

def makeFolders (t : FileTree) (r : Route) : FileTree × Option Path :=
  if r.isPassable then t.makeFrom [] r.parts else (t, none)

/-- Makes the folders along a route; gives the tree after it, and whether the route leads to a folder.
What stands before a dot at the end must be there already. -/
def makeRoute (t : FileTree) (r : Route) : FileTree × Bool :=
  if !r.isPassable then (t, false)
  else if r.endsInDot then
    let (t, _) := t.makeFolders r.folder
    (t, (t.follow? [] r.parts).isSome)
  else
    let (t, made) := t.makeFolders r
    (t, made.isSome)

def read? (t : FileTree) (r : Route) : Option ByteArray := do
  guard r.isPassable
  let here ← t.follow? [] r.folder.parts
  let name ← r.fileName?
  t.content? (here ++ [name])

def writeIn? (t : FileTree) (here : Path) (r : Route) (content : ByteArray) : Option FileTree := do
  guard r.isPassable
  let name ← r.fileName?
  guard (isEntryName name)
  t.write? (here ++ [name]) content

/-- Makes the folders on the way to a file and writes the file; gives the tree after it, and whether
the file was written. -/
def put (t : FileTree) (r : Route) (content : ByteArray) : FileTree × Bool :=
  match t.makeFolders r.folder with
  | (t, none) => (t, false)
  | (t, some here) =>
    match t.writeIn? here r content with
    | some t => (t, true)
    | none => (t, false)

end FileTree

end RhythmFilter
