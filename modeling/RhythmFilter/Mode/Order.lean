import RhythmFilter.Refusal

/-!
# The order of the mods

Every mode knows certain mods and lists them in a fixed order. `arrange` puts acronyms into that
order: it goes through the list once and takes each acronym as often as it was given.
-/

namespace RhythmFilter.Mode

def order : Mode → List String
  | .osu => [
    "EZ", "NF", "HT", "DC", "HR", "SD", "PF", "DT", "NC", "HD", "FL", "BL", "ST", "AC", "TP", "DA",
    "CL", "RD", "MR", "AL", "SG", "AT", "CN", "RX", "AP", "SO", "TR", "WG", "SI", "GR", "DF", "WU",
    "WD", "TC", "BR", "AD", "MU", "NS", "MG", "RP", "AS", "FR", "BU", "SY", "DP", "BM", "TD", "SV2"]
  | .taiko => [
    "EZ", "NF", "HT", "DC", "HR", "SD", "PF", "DT", "NC", "HD", "FL", "AC", "RD", "DA", "CL", "SW",
    "SG", "CS", "AT", "CN", "RX", "WU", "WD", "MU", "AS", "SV2"]
  | .fruits => [
    "EZ", "NF", "HT", "DC", "HR", "SD", "PF", "DT", "NC", "HD", "FL", "AC", "DA", "CL", "MR", "AT",
    "CN", "RX", "WU", "WD", "FF", "MU", "NS", "SV2"]
  | .mania => [
    "EZ", "NF", "HT", "DC", "NR", "HR", "SD", "PF", "DT", "NC", "FI", "HD", "CO", "FL", "AC", "RD",
    "DS", "MR", "DA", "CL", "IN", "CS", "HO", "1K", "2K", "3K", "4K", "5K", "6K", "7K", "8K", "9K",
    "10K", "AT", "CN", "WU", "WD", "MU", "AS", "SV2"]

theorem order_nodup (m : Mode) : m.order.Nodup := by cases m <;> decide

def knows (m : Mode) (acronym : String) : Bool := m.order.contains acronym

def position (m : Mode) (acronym : String) : Except Refusal Nat :=
  match m.order.idxOf? acronym with
  | some i => .ok i
  | none => .error (.unknownAcronym m acronym)

/-- The acronyms in the mode's order, repeats kept; refuses the first one that the mode does not
know. -/
def arrange (m : Mode) (acronyms : List String) : Except Refusal (List String) :=
  match acronyms.find? fun a => !m.knows a with
  | some a => .error (.unknownAcronym m a)
  | none => .ok (m.order.flatMap fun a => acronyms.filter (· = a))

end RhythmFilter.Mode
