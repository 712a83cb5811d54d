import RhythmFilter.Command.Report
import RhythmFilter.Proofs.ModFilter.Rendering
import RhythmFilter.Proofs.Query.Shown

/-!
# Reports told apart

A listing is cut at its line ends into the lines that it was made of, and a listing of nothing is not
taken for another. The lines of predicates and of mod filters show all that there is to show, and so does
their JSON: two reports of one kind that look alike in one form are the same.
-/

namespace RhythmFilter

open Text

theorem eq_of_map_eq {α β : Type} {P : α → Prop} {f : α → β} (hf : ∀ {x y}, P x → P y → f x = f y → x = y) :
    ∀ {xs ys : List α}, (∀ x ∈ xs, P x) → (∀ y ∈ ys, P y) → xs.map f = ys.map f → xs = ys
  | [], [], _, _, _ => rfl
  | [], _ :: _, _, _, h => by cases h
  | _ :: _, [], _, _, h => by cases h
  | x :: xs, y :: ys, hx, hy, h => by
    obtain ⟨hx, hxs⟩ := List.forall_mem_cons.mp hx
    obtain ⟨hy, hys⟩ := List.forall_mem_cons.mp hy
    obtain ⟨hhead, htail⟩ := List.cons.inj h
    rw [hf hx hy hhead, eq_of_map_eq hf hxs hys htail]

namespace Report

/-! ## Lines -/

theorem pieces_lines : ∀ {ts : List String}, (∀ t ∈ ts, '\n' ∉ t.toList) →
    pieces (· = '\n') (String.join (ts.map line)).toList = ts.map String.toList ++ [[]]
  | [], _ => rfl
  | t :: ts, h => by
    obtain ⟨ht, hts⟩ := List.forall_mem_cons.mp h
    have hnone : ∀ c ∈ t.toList, decide (c = '\n') = false := by
      intro c hc
      have : c ≠ '\n' := fun e => ht (e ▸ hc)
      simpa using this
    have hline : (String.join ((t :: ts).map line)).toList =
        t.toList ++ '\n' :: (String.join (ts.map line)).toList := by
      simp [line]
    rw [hline, pieces_append_cons _ _ _ (by decide), pieces_of_none _ hnone, pieces_lines hts]
    rfl

theorem lines_injective {ts us : List String} (ht : ∀ t ∈ ts, '\n' ∉ t.toList) (hu : ∀ u ∈ us, '\n' ∉ u.toList)
    (h : String.join (ts.map line) = String.join (us.map line)) : ts = us := by
  have hpieces : ts.map String.toList ++ [[]] = us.map String.toList ++ [[]] := by
    rw [← pieces_lines ht, h, pieces_lines hu]
  rw [← map_ofList_toList ts, List.append_cancel_right hpieces, map_ofList_toList]

def shown : List String → List String
  | [] => ["No filters"]
  | text :: texts => text :: texts

theorem listing_eq (texts : List String) : listing texts = String.join ((shown texts).map line) := by
  cases texts with
  | nil => simp [listing, shown]
  | cons t ts => rfl

theorem mem_shown {t : String} {texts : List String} (h : t ∈ shown texts) : t = "No filters" ∨ t ∈ texts := by
  cases texts with
  | nil => exact Or.inl (List.mem_singleton.mp h)
  | cons u us => exact Or.inr h

theorem no_line_end_shown {texts : List String} (h : ∀ t ∈ texts, '\n' ∉ t.toList) :
    ∀ t ∈ shown texts, '\n' ∉ t.toList := by
  intro t ht
  rcases mem_shown ht with e | ht
  · rw [e]
    decide
  · exact h t ht

theorem shown_injective {ts us : List String} (ht : "No filters" ∉ ts) (hu : "No filters" ∉ us)
    (h : shown ts = shown us) : ts = us := by
  cases ts with
  | nil =>
    cases us with
    | nil => rfl
    | cons u us => exact absurd ((List.cons.inj h).1 ▸ List.mem_cons_self) hu
  | cons t ts =>
    cases us with
    | nil => exact absurd ((List.cons.inj h).1 ▸ List.mem_cons_self) ht
    | cons u us => exact h

theorem jsonLine_injective {j k : Json} (hj : Json.Numberless j) (hk : Json.Numberless k)
    (h : line j.pretty = line k.pretty) : j = k :=
  Json.eq_of_pretty hj hk ((String.append_left_inj _).mp h)

/-! ## Predicates -/

theorem predicates_eq_of_jsonText {ps qs : List Predicate}
    (h : (predicates ps).jsonText = (predicates qs).jsonText) :
    ps = qs := by
  have hnumberless : ∀ rs : List Predicate, Json.Numberless (.array (rs.map Predicate.toJson)) := by
    intro rs
    refine .array fun x hx => ?_
    obtain ⟨r, _, e⟩ := List.mem_map.mp hx
    exact e ▸ r.numberless_toJson
  have harray := jsonLine_injective (hnumberless ps) (hnumberless qs) h
  have hinj : Function.Injective Predicate.toJson := fun _ _ e => Predicate.toJson_injective e
  exact hinj.list_map (Json.Tree.array.inj harray)

section
variable {ps qs : List Predicate} (hp : ∀ p ∈ ps, p.Legible) (hq : ∀ q ∈ qs, q.Legible)
include hp hq

theorem predicates_eq_of_text (h : (predicates ps).text = (predicates qs).text) : ps = qs := by
  have hline : ∀ {rs : List Predicate}, (∀ r ∈ rs, r.Legible) →
      ∀ t ∈ shown (rs.map Predicate.text), '\n' ∉ t.toList := by
    intro rs hr
    refine no_line_end_shown fun t ht => ?_
    obtain ⟨r, hrs, e⟩ := List.mem_map.mp ht
    exact e ▸ Predicate.no_line_end (hr r hrs)
  have hnothing : ∀ rs : List Predicate, "No filters" ∉ rs.map Predicate.text := by
    intro rs ht
    obtain ⟨r, _, e⟩ := List.mem_map.mp ht
    exact r.text_ne_nothing e
  rw [text, text, listing_eq, listing_eq] at h
  have htexts := shown_injective (hnothing ps) (hnothing qs) (lines_injective (hline hp) (hline hq) h)
  exact eq_of_map_eq Predicate.text_injective hp hq htexts

theorem predicates_eq_of_render {json : Bool} (h : (predicates ps).render json = (predicates qs).render json) :
    ps = qs := by
  cases json with
  | true => exact predicates_eq_of_jsonText h
  | false => exact predicates_eq_of_text hp hq h

end

/-! ## Mod filters -/

def filterLines : ModFilter → List String
  | .exact acronyms => ["enabled_mods = \"" ++ " ".intercalate acronyms ++ "\""]
  | .demands ds => shown (ds.map demandText)

theorem text_modFilter (f : ModFilter) : (modFilter f).text = String.join ((filterLines f).map line) := by
  cases f with
  | exact acronyms => simp [text, filterLines]
  | demands ds => exact listing_eq _

/-- The first character in which the lines of an exact filter, of a wanted mod and of an unwanted one
differ. -/
def mark (t : String) : Option Char := t.toList[13]?

theorem mark_append {s : String} (h : 13 < s.toList.length) (t : String) : mark (s ++ t) = mark s := by
  rw [mark, String.toList_append, List.getElem?_append_left h, mark]

theorem mark_exact (s : String) : mark ("enabled_mods = \"" ++ s ++ "\"") = some '=' := by
  rw [String.append_assoc, mark_append (by decide)]
  decide

def lead : Sign → String
  | .plus => "enabled_mods contains "
  | .minus => "enabled_mods does not contain "

theorem demandText_eq (d : Demand) : demandText d = lead d.sign ++ d.acronym := by
  cases d with
  | wanted a => rfl
  | unwanted a => rfl

theorem mark_demandText (d : Demand) : mark (demandText d) = mark (lead d.sign) := by
  have hlong : ∀ s : Sign, 13 < (lead s).toList.length := fun s => by cases s <;> decide
  rw [demandText_eq, mark_append (hlong _)]

theorem mark_lead_injective {s s' : Sign} (h : mark (lead s) = mark (lead s')) : s = s' := by
  revert h
  cases s <;> cases s' <;> decide

theorem demandText_injective {d d' : Demand} (h : demandText d = demandText d') : d = d' := by
  have hmark := congrArg mark h
  rw [mark_demandText, mark_demandText] at hmark
  have hsign := mark_lead_injective hmark
  rw [demandText_eq, demandText_eq, hsign, String.append_right_inj] at h
  cases d with
  | wanted a =>
    cases d' with
    | wanted b => exact congrArg Demand.wanted h
    | unwanted b => cases hsign
  | unwanted a =>
    cases d' with
    | wanted b => cases hsign
    | unwanted b => exact congrArg Demand.unwanted h

/-- No line of demands begins like that of an exact filter. -/
theorem mark_shown {ds : List Demand} : ∀ t ∈ shown (ds.map demandText), mark t ≠ some '=' := by
  intro t ht
  rcases mem_shown ht with e | ht
  · rw [e]
    decide
  · obtain ⟨d, _, e⟩ := List.mem_map.mp ht
    rw [← e, mark_demandText]
    cases d.sign <;> decide

theorem no_line_end_acronym {m : Mode} {a : String} (h : a ∈ m.order) : '\n' ∉ a.toList :=
  fun hc => absurd ((Mode.isWord_of_mem_order h).2 _ hc) (by decide +kernel)

theorem no_line_end_filterLines {m : Mode} {f : ModFilter} (h : f.Readable m) :
    ∀ t ∈ filterLines f, '\n' ∉ t.toList := by
  cases f with
  | exact xs =>
    intro t ht hc
    rw [List.mem_singleton.mp ht, String.toList_append, String.toList_append, toList_joined] at hc
    rcases List.mem_append.mp hc with hc | hc
    · rcases List.mem_append.mp hc with hc | hc
      · exact absurd hc (by decide)
      · rcases mem_intercalate hc with e | ⟨s, hs, hc⟩
        · cases e
        · obtain ⟨a, ha, e⟩ := List.mem_map.mp hs
          exact no_line_end_acronym (h.1 a ha).1 (e ▸ hc)
    · exact absurd hc (by decide)
  | demands ds =>
    have hlead : ∀ s : Sign, '\n' ∉ (lead s).toList := fun s => by cases s <;> decide
    refine no_line_end_shown fun t ht => ?_
    obtain ⟨d, hd, e⟩ := List.mem_map.mp ht
    rw [← e, demandText_eq, String.toList_append]
    intro hc
    exact (List.mem_append.mp hc).elim (hlead _) (no_line_end_acronym (h d hd).1)

theorem filterLines_injective {m n : Mode} {f g : ModFilter} (hf : f.Readable m) (hg : g.Readable n)
    (h : filterLines f = filterLines g) : f = g := by
  have hexact : ∀ xs ds, filterLines (.exact xs) ≠ filterLines (.demands ds) := by
    intro xs ds e
    have hmem : ∀ t ∈ filterLines (.exact xs), mark t ≠ some '=' := e ▸ mark_shown
    exact hmem _ List.mem_cons_self (mark_exact _)
  cases f with
  | exact xs =>
    cases g with
    | exact ys =>
      have hline := (List.cons.inj h).1
      rw [String.append_left_inj, String.append_right_inj] at hline
      have hword : ∀ {m : Mode} {as : List String}, (ModFilter.exact as).Readable m →
          ∀ a ∈ as, IsWord a.toList :=
        fun h a ha => Mode.isWord_of_mem_order (h.1 a ha).1
      exact congrArg ModFilter.exact (joined_injective (hword hf) (hword hg) hline)
    | demands ds => exact absurd h (hexact xs ds)
  | demands cs =>
    cases g with
    | exact ys => exact absurd h.symm (hexact ys cs)
    | demands ds =>
      -- the line for an empty listing is the line of no demand
      have hnothing : ∀ ds : List Demand, "No filters" ∉ ds.map demandText := by
        intro ds ht
        obtain ⟨d, _, e⟩ := List.mem_map.mp ht
        have hmark := congrArg mark e
        rw [mark_demandText] at hmark
        revert hmark
        cases d.sign <;> decide
      have hinj : Function.Injective demandText := fun _ _ e => demandText_injective e
      exact congrArg ModFilter.demands (hinj.list_map (shown_injective (hnothing cs) (hnothing ds) h))

end Report

theorem Demand.numberless_toJson (d : Demand) : Json.Numberless d.toJson := by
  cases d with
  | wanted a => exact .object (by simp [Json.Numberless.string])
  | unwanted a => exact .object (by simp [Json.Numberless.string])

theorem Demand.toJson_injective {d d' : Demand} (h : d.toJson = d'.toJson) : d = d' := by
  cases d with
  | wanted a =>
    cases d' with
    | wanted b => simpa [toJson] using h
    | unwanted b => simp [toJson] at h
  | unwanted a =>
    cases d' with
    | wanted b => simp [toJson] at h
    | unwanted b => simpa [toJson] using h

namespace ModFilter

theorem numberless_toJson (f : ModFilter) : Json.Numberless f.toJson := by
  cases f with
  | exact xs =>
    have hmods : Json.Numberless (.array (xs.map .string)) := .array (by simp [Json.Numberless.string])
    exact .object (by simp [hmods, Json.Numberless.string])
  | demands ds =>
    have hmods : Json.Numberless (.array (ds.map Demand.toJson)) := .array (by simp [Demand.numberless_toJson])
    exact .object (by simp [hmods, Json.Numberless.string])

theorem toJson_injective {f g : ModFilter} (h : f.toJson = g.toJson) : f = g := by
  cases f with
  | exact xs =>
    cases g with
    | exact ys =>
      have h : xs.map (Json.Tree.string : String → Json) = ys.map .string := by simpa [toJson] using h
      rw [Json.Tree.string_injective.list_map h]
    | demands ds => simp [toJson] at h
  | demands cs =>
    cases g with
    | exact ys => simp [toJson] at h
    | demands ds =>
      have hdemand : Function.Injective Demand.toJson := fun _ _ e => Demand.toJson_injective e
      have h : cs.map Demand.toJson = ds.map Demand.toJson := by simpa [toJson] using h
      rw [hdemand.list_map h]

end ModFilter

theorem Report.modFilter_eq_of_render {m n : Mode} {f g : ModFilter} (hf : f.Readable m) (hg : g.Readable n)
    {json : Bool} (h : (modFilter f).render json = (modFilter g).render json) : f = g := by
  cases json with
  | true => exact ModFilter.toJson_injective (jsonLine_injective f.numberless_toJson g.numberless_toJson h)
  | false =>
    have htext : (modFilter f).text = (modFilter g).text := h
    rw [text_modFilter, text_modFilter] at htext
    exact filterLines_injective hf hg
      (lines_injective (no_line_end_filterLines hf) (no_line_end_filterLines hg) htext)

end RhythmFilter
