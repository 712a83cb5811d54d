import RhythmFilter.Preferences.Basic
import RhythmFilter.Storage.FileTree

/-!
# Stored preferences

Preferences are kept in a file. Saving makes the folders on the way to it first; loading never changes
the tree.
-/

namespace RhythmFilter.Preferences

/-- The tree after an attempt to save preferences, and whether they are saved. -/
def save (t : FileTree) (r : Route) (preferences : Preferences) : FileTree × Bool :=
  t.put r preferences.toText.toUTF8

def load (t : FileTree) (r : Route) : Except Failure Preferences := ofContent (t.read? r)

def loadOrDefault (t : FileTree) (r : Route) : Preferences := ofContentOrDefault (t.read? r)

def join (folder name : String) : String :=
  if folder.toList.getLast? = some '/' then folder ++ name else folder ++ "/" ++ name

def isAbsolute (path : String) : Bool := path.toList.head? = some '/'

/-- Where preferences are kept: below the folder for settings if an absolute one is given, and
otherwise below the user's own folder. -/
def location (settings : Option String) (home : String) : String :=
  let folder :=
    match settings.filter isAbsolute with
    | some folder => folder
    | none => join home ".config"
  join (join folder "osu-query") "config.json"

end RhythmFilter.Preferences
