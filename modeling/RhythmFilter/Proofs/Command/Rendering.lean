import RhythmFilter.Proofs.Command.Listing
import RhythmFilter.Proofs.Json.Compact

/-!
# Reports in full

Nothing of a report is left out of what is printed. As JSON, the text is read back as a value that holds all
of it; for people, every part has its line. Either way there is at least one line, and the last line ends.
-/

namespace RhythmFilter.Report

open Text
open Json (Document Numberless Spells)

/-! ## As JSON -/

def toJson : Report → Json
  | .predicates ps => .array (ps.map Predicate.toJson)
  | .modFilter f => f.toJson
  | .arranged mode acronyms => .object [
    ("mod_string", .string (" ".intercalate acronyms)), ("mode", .string mode.name),
    ("mods", .array (acronyms.map .string))]

theorem numberless_toJson (r : Report) : Numberless r.toJson := by
  cases r with
  | predicates ps =>
    refine .array fun x hx => ?_
    obtain ⟨p, _, e⟩ := List.mem_map.mp hx
    exact e ▸ p.numberless_toJson
  | modFilter f => exact f.numberless_toJson
  | arranged mode acronyms =>
    have hmods : Numberless (.array (acronyms.map .string)) := .array (by simp [Numberless.string])
    exact .object (by simp [hmods, Numberless.string])

/-- The line end behind a value does not matter. -/
theorem ofText?_line {s : List Char} {d : Document} (h : Spells s d.tokens) :
    Document.ofText? (line (String.ofList s)) = some d := by
  have hend : Spells ['\n'] [] := .spaces (List.forall_mem_singleton.mpr rfl)
  have hline : line (String.ofList s) = String.ofList (s ++ ['\n']) := by
    apply String.toList_injective
    simp [line]
  rw [hline]
  apply Document.ofText?_of_spells
  simpa using h.append hend

theorem ofText?_jsonText (r : Report) : Document.ofText? r.jsonText = some r.toJson.spelled := by
  have h := r.numberless_toJson
  cases r with
  | predicates ps => exact ofText?_line (Json.spells_pretty h 0)
  | modFilter f => exact ofText?_line (Json.spells_pretty h 0)
  | arranged mode acronyms => exact ofText?_line (Json.spells_compact h)

/-! ## For people -/

def lines : Report → List String
  | .predicates ps => shown (ps.map Predicate.text)
  | .modFilter f => filterLines f
  | .arranged mode acronyms => [mode.title ++ ": " ++ " ".intercalate acronyms]

theorem text_eq_lines (r : Report) : r.text = String.join (r.lines.map line) := by
  cases r with
  | predicates ps => exact listing_eq _
  | modFilter f => exact text_modFilter f
  | arranged mode acronyms => simp [text, lines]

theorem shown_ne_nil (texts : List String) : shown texts ≠ [] := by
  cases texts with
  | nil => exact List.cons_ne_nil _ _
  | cons t ts => exact List.cons_ne_nil _ _

theorem lines_ne_nil (r : Report) : r.lines ≠ [] := by
  cases r with
  | predicates ps => exact shown_ne_nil _
  | modFilter f =>
    cases f with
    | exact acronyms => exact List.cons_ne_nil _ _
    | demands ds => exact shown_ne_nil _
  | arranged mode acronyms => exact List.cons_ne_nil _ _

theorem render_line_end (json : Bool) (r : Report) : ∃ s, r.render json = s ++ "\n" := by
  cases json with
  | true =>
    cases r with
    | predicates ps => exact ⟨_, rfl⟩
    | modFilter f => exact ⟨_, rfl⟩
    | arranged mode acronyms => exact ⟨_, rfl⟩
  | false =>
    have htext : r.render false = String.join (r.lines.map line) := r.text_eq_lines
    rcases List.eq_nil_or_concat r.lines with e | ⟨ls, l, e⟩
    · exact absurd e r.lines_ne_nil
    · refine ⟨String.join (ls.map line) ++ l, ?_⟩
      rw [htext, e, List.concat_eq_append]
      simp [line, String.append_assoc]

end RhythmFilter.Report
