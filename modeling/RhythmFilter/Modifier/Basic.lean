import RhythmFilter.Json.Tree

/-!
# Delivered mods

A mod comes as an acronym and, where a player changed its defaults, an object of settings. In a JSON
value a modifier is an object with the members `acronym` and `settings`, other members being passed
over, or an array of the two in this order; absent settings may be written as null.
-/

namespace RhythmFilter

structure Modifier where
  acronym : String
  settings : Option Json.Members

namespace Modifier

/-- Settings that are an object, or absent. -/
def settingsOfJson? : Json → Option (Option Json.Members)
  | .null => some none
  | .object ms => some (some ms)
  | _ => none

def ofMembers? (ms : Json.Members) : Option Modifier :=
  match ms.lookup "acronym" with
  | some (.string acronym) =>
    (settingsOfJson? ((ms.lookup "settings").getD .null)).map (⟨acronym, ·⟩)
  | _ => none

def ofJson? : Json → Option Modifier
  | .object ms => ofMembers? ms
  | .array [.string acronym] => some ⟨acronym, none⟩
  | .array [.string acronym, settings] => (settingsOfJson? settings).map (⟨acronym, ·⟩)
  | _ => none

def listOfJson? : Json → Option (List Modifier)
  | .array items => items.mapM ofJson?
  | _ => none

def toJson (m : Modifier) : Json :=
  match m.settings with
  | none => .object [("acronym", .string m.acronym)]
  | some ms => .object [("acronym", .string m.acronym), ("settings", .object ms)]

def listToJson (ms : List Modifier) : Json := .array (ms.map toJson)

theorem ofJson?_toJson (m : Modifier) : ofJson? m.toJson = some m := by
  obtain ⟨acronym, settings⟩ := m
  cases settings <;> rfl

theorem listOfJson?_listToJson (ms : List Modifier) : listOfJson? (listToJson ms) = some ms := by
  unfold listOfJson? listToJson
  induction ms with
  | nil => rfl
  | cons m ms ih => simp only [List.map_cons, List.mapM_cons, ofJson?_toJson, ih]; rfl

end Modifier

end RhythmFilter
