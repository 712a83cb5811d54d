import RhythmFilter.Proofs.Json.Grammar
import RhythmFilter.Proofs.Preferences.Defaults

/-!
# The members that matter

Of an object with any members two are looked at, the mode and the flag for JSON. Each may stand there
once, or be missing and then have its default. As long as the text is one JSON value, nothing else about
it matters: not the order of the members, nor spaces, nor what other members there are.
-/

namespace RhythmFilter.Preferences

open Json (Document)

def objectOf (ms : List (String × Document)) : Document := .object (ms.map fun m => (some m.1, m.2))

/-- A mode is named by a string, or by the key of an object that holds null under this key and nothing else. -/
inductive NamesMode (m : Mode) : Document → Prop
  | string : NamesMode m (.string (some m.name))
  | key : NamesMode m (.object [(some m.name, .null)])

def isKnown (key : String) : Bool := ["default_mode", "json"].contains key

/-! ## The two values -/

section
variable {d : Document}

theorem proper?_eq_null_iff : d.proper? = some .null ↔ d = .null := by
  cases d with
  | null => simp [Json.Tree.proper?]
  | bool | number | string | array | object => simp [Json.Tree.proper?]

theorem proper?_eq_string_iff {s : String} : d.proper? = some (.string s) ↔ d = .string (some s) := by
  cases d with
  | null | bool | number | string | array | object => simp [Json.Tree.proper?]

theorem proper?_eq_object_iff {ms : Json.Members} :
    d.proper? = some (.object ms) ↔ ∃ members, d = .object members ∧ Json.properMembers? members = some ms := by
  cases d with
  | null | bool | number | string | array | object => simp [Json.Tree.proper?]

end

theorem properMembers?_eq_cons {members : List (Option String × Document)} {key : String}
    {j : Json} {ms : Json.Members}
    (h : Json.properMembers? members = some ((key, j) :: ms)) :
    ∃ v rest, members = (some key, v) :: rest ∧ v.proper? = some j ∧ Json.properMembers? rest = some ms := by
  cases members with
  | nil => cases h
  | cons m rest =>
    obtain ⟨k, v⟩ := m
    unfold Json.properMembers? at h
    split at h
    · rename_i hv hrest
      simp only [Option.some.injEq, List.cons.injEq, Prod.mk.injEq] at h
      obtain ⟨⟨rfl, rfl⟩, rfl⟩ := h
      exact ⟨v, rest, rfl, hv, hrest⟩
    · cases h

theorem properMembers?_eq_nil {members : List (Option String × Document)}
    (h : Json.properMembers? members = some []) :
    members = [] := by
  cases members with
  | nil => rfl
  | cons m rest =>
    unfold Json.properMembers? at h
    split at h
    · cases h
    · cases h

theorem ofName?_eq_some_iff {text : String} {m : Mode} : Mode.ofName? text = some m ↔ m.name = text := by
  refine ⟨fun h => ?_, fun h => by rw [← h, Mode.ofName?_name]⟩
  simpa using List.find?_some h

theorem mode?_eq_some_iff {d : Document} {m : Mode} : mode? d = some m ↔ NamesMode m d := by
  refine ⟨fun h => ?_, fun h => ?_⟩
  · obtain ⟨j, hj, hm⟩ := Option.bind_eq_some_iff.mp h
    unfold Mode.ofJson? at hm
    split at hm
    · rw [proper?_eq_string_iff.mp hj, ← ofName?_eq_some_iff.mp hm]
      exact .string
    · obtain ⟨members, hd, hmembers⟩ := proper?_eq_object_iff.mp hj
      obtain ⟨v, rest, e, hv, hrest⟩ := properMembers?_eq_cons hmembers
      rw [hd, e, proper?_eq_null_iff.mp hv, properMembers?_eq_nil hrest, ← ofName?_eq_some_iff.mp hm]
      exact .key
    · cases hm
  · cases h with
    | string => exact Mode.ofName?_name m
    | key => exact Mode.ofName?_name m

theorem flag?_eq_some_iff {d : Document} {b : Bool} : flag? d = some b ↔ d = .bool b := by
  cases d with
  | bool c => simp [flag?]
  | null | number | string | array | object => simp [flag?]

/-! ## A member that may stand there once -/

section
variable {α : Type} {key : String} {read : Document → Option α} {absent : α}

theorem filter_objectOf (key : String) (ms : List (String × Document)) :
    (ms.map fun m => ((some m.1, m.2) : Option String × Document)).filter (fun m => m.1 = some key) =
      (ms.filter fun m => m.1 = key).map fun m => (some m.1, m.2) := by
  rw [List.filter_map]
  simp [Function.comp_def]

theorem count_key (key : String) (ms : List (String × Document)) :
    (ms.map Prod.fst).count key = (ms.filter fun m => m.1 = key).length := by
  rw [List.count_eq_countP, List.countP_map, List.countP_eq_length_filter]
  rfl

theorem member?_cases (key : String) (read : Document → Option α) (absent : α) (ms : List (String × Document)) :
    (member? key read absent (ms.map fun m => (some m.1, m.2)) = some absent ∧ (ms.map Prod.fst).count key ≤ 1 ∧
      ∀ v, (key, v) ∉ ms) ∨
    (∃ v, member? key read absent (ms.map fun m => (some m.1, m.2)) = read v ∧ (ms.map Prod.fst).count key ≤ 1 ∧
      ∀ w, (key, w) ∈ ms ↔ w = v) ∨
    (member? key read absent (ms.map fun m => (some m.1, m.2)) = none ∧ ¬ (ms.map Prod.fst).count key ≤ 1) := by
  have hmem : ∀ v, (key, v) ∈ ms ↔ (key, v) ∈ ms.filter fun m => m.1 = key := by simp
  have hkey : ∀ m ∈ ms.filter (fun m => m.1 = key), m.1 = key := by simp
  rw [count_key, member?, filter_objectOf]
  simp only [hmem]
  generalize (ms.filter fun m => m.1 = key) = found at hkey
  match found, hkey with
  | [], _ => exact Or.inl ⟨rfl, Nat.zero_le 1, fun _ => List.not_mem_nil⟩
  | [(k, v)], hkey =>
    obtain rfl : k = key := hkey (k, v) List.mem_cons_self
    exact Or.inr (Or.inl ⟨v, rfl, Nat.le_refl 1, by simp⟩)
  | _ :: _ :: _, _ => exact Or.inr (Or.inr ⟨rfl, by simp⟩)

theorem member?_eq_some_iff {ms : List (String × Document)} {a : α} :
    member? key read absent (ms.map fun m => (some m.1, m.2)) = some a ↔ (ms.map Prod.fst).count key ≤ 1 ∧
      (∀ v, (key, v) ∈ ms → read v = some a) ∧ ((∀ v, (key, v) ∉ ms) → a = absent) := by
  rcases member?_cases key read absent ms with ⟨hread, hcount, hnone⟩ | ⟨v, hread, hcount, hv⟩ | ⟨hread, hcount⟩
  · simp [hread, hcount, hnone, eq_comm]
  · simp [hread, hcount, hv]
  · simp [hread, hcount]

theorem member?_isSome_iff {ms : List (String × Document)} :
    (∃ a, member? key read absent (ms.map fun m => (some m.1, m.2)) = some a) ↔
    (ms.map Prod.fst).count key ≤ 1 ∧
      ∀ v, (key, v) ∈ ms → ∃ a, read v = some a := by
  rcases member?_cases key read absent ms with ⟨hread, hcount, hnone⟩ | ⟨v, hread, hcount, hv⟩ | ⟨hread, hcount⟩
  · simp [hread, hcount, hnone]
  · simp [hread, hcount, hv]
  · simp [hread, hcount]

/-- Members with other keys may come and go, and the order does not matter. -/
theorem member?_perm {ms ns : List (String × Document)} (hknown : isKnown key = true)
    (h : (ns.filter fun m => isKnown m.1).Perm (ms.filter fun m => isKnown m.1)) :
    member? key read absent (ns.map fun m => (some m.1, m.2)) =
      member? key read absent (ms.map fun m => (some m.1, m.2)) := by
  have hfilter : ∀ ls : List (String × Document),
      (ls.filter fun m => isKnown m.1).filter (fun m => m.1 = key) = ls.filter fun m => m.1 = key := by
    intro ls
    rw [List.filter_filter]
    refine List.filter_congr fun m _ => ?_
    by_cases hm : m.1 = key
    · simp [hm, hknown]
    · simp [hm]
  have hperm := h.filter fun m => m.1 = key
  rw [hfilter, hfilter] at hperm
  rw [member?, member?, filter_objectOf, filter_objectOf]
  generalize (ns.filter fun m => m.1 = key) = found at hperm
  generalize (ms.filter fun m => m.1 = key) = found' at hperm
  match found, found', hperm with
  | [], found', hperm => rw [List.nil_perm.mp hperm]
  | [m], found', hperm => rw [List.singleton_perm.mp hperm]
  | _ :: _ :: _, [], hperm => cases hperm.length_eq
  | _ :: _ :: _, [_], hperm => cases hperm.length_eq
  | _ :: _ :: _, _ :: _ :: _, _ => rfl

end

/-! ## Objects -/

theorem ofDocument?_objectOf (ms : List (String × Document)) : ofDocument? (objectOf ms) = do
    let mode ← member? "default_mode" mode? .osu (ms.map fun m => (some m.1, m.2))
    let json ← member? "json" flag? false (ms.map fun m => (some m.1, m.2))
    return ⟨mode, json⟩ := by
  rw [objectOf, ofDocument?, ofMembers?, if_pos (by simp)]

section
variable {ms : List (String × Document)}

theorem ofDocument?_eq_some_iff {p : Preferences} : ofDocument? (objectOf ms) = some p ↔
    member? "default_mode" mode? .osu (ms.map fun m => (some m.1, m.2)) = some p.mode ∧
      member? "json" flag? false (ms.map fun m => (some m.1, m.2)) = some p.json := by
  rw [ofDocument?_objectOf]
  cases member? "default_mode" mode? .osu (ms.map fun m => (some m.1, m.2)) with
  | none => simp
  | some mode =>
    cases member? "json" flag? false (ms.map fun m => (some m.1, m.2)) with
    | none => simp
    | some json => exact ⟨fun h => by cases h; exact ⟨rfl, rfl⟩, fun ⟨h, h'⟩ => by cases h; cases h'; rfl⟩

theorem ofDocument?_isSome_iff : (∃ p, ofDocument? (objectOf ms) = some p) ↔
    (∀ key ∈ ["default_mode", "json"], (ms.map Prod.fst).count key ≤ 1) ∧
      (∀ v, ("default_mode", v) ∈ ms → ∃ m, NamesMode m v) ∧ ∀ v, ("json", v) ∈ ms → ∃ b, v = .bool b := by
  have hmembers : (∃ p, ofDocument? (objectOf ms) = some p) ↔
      (∃ m, member? "default_mode" mode? .osu (ms.map fun m => (some m.1, m.2)) = some m) ∧
        ∃ b, member? "json" flag? false (ms.map fun m => (some m.1, m.2)) = some b := by
    simp only [ofDocument?_eq_some_iff]
    exact ⟨fun ⟨p, hm, hb⟩ => ⟨⟨_, hm⟩, _, hb⟩, fun ⟨⟨m, hm⟩, b, hb⟩ => ⟨⟨m, b⟩, hm, hb⟩⟩
  rw [hmembers, member?_isSome_iff, member?_isSome_iff, List.forall_mem_cons, List.forall_mem_singleton]
  simp only [mode?_eq_some_iff, flag?_eq_some_iff]
  exact and_and_and_comm

theorem ofDocument?_perm {ns : List (String × Document)}
    (h : (ns.filter fun m => isKnown m.1).Perm (ms.filter fun m => isKnown m.1)) :
    ofDocument? (objectOf ns) = ofDocument? (objectOf ms) := by
  rw [ofDocument?_objectOf, ofDocument?_objectOf, member?_perm (by decide) h, member?_perm (by decide) h]

end

/-! ## Files -/

section
variable {t : FileTree} {r : Route} {text : String} (hread : t.read? r = some text.toUTF8)
include hread

theorem load_of_read : load t r = (ofText? text).elim (.error .malformed) .ok := by
  have htext : String.fromUTF8? text.toUTF8 = some text := fromUTF8?_eq_some_iff.mpr rfl
  rw [load, hread, ofContent]
  simp only [htext]
  cases ofText? text with
  | none => rfl
  | some p => rfl

theorem load_of_isText {d : Document} (h : d.IsText text) :
    load t r = (ofDocument? d).elim (.error .malformed) .ok := by
  rw [load_of_read hread, ofText?, Document.ofText?_eq_some_iff.mpr h, Option.bind_some]

theorem load_of_no_value (h : ∀ d : Document, ¬ d.IsText text) : load t r = .error .malformed := by
  have hnone : Document.ofText? text = none :=
    Option.eq_none_iff_forall_ne_some.mpr fun d hd => h d (Document.ofText?_eq_some_iff.mp hd)
  rw [load_of_read hread, ofText?, hnone]
  rfl

theorem load_ok_iff {d : Document} (h : d.IsText text) {p : Preferences} :
    load t r = .ok p ↔ ofDocument? d = some p := by
  rw [load_of_isText hread h]
  cases ofDocument? d with
  | none => simp
  | some q => simp

end

/-- A file whose text is one JSON object with any members, however it is laid out, is loaded just when the
mode and the flag stand in it once at most and say something; a missing one has its default. Two such
files with the same two members are loaded alike. A text that is no JSON value at all is refused. -/
theorem load_known_members {t : FileTree} {r : Route} {text : String} (hread : t.read? r = some text.toUTF8) :
    ((∀ d : Document, ¬ d.IsText text) → load t r = .error .malformed) ∧
    ∀ ms : List (String × Document), (objectOf ms).IsText text →
      ((∃ p, load t r = .ok p) ↔ (∀ key ∈ ["default_mode", "json"], (ms.map Prod.fst).count key ≤ 1) ∧
        (∀ v, ("default_mode", v) ∈ ms → ∃ m, NamesMode m v) ∧ ∀ v, ("json", v) ∈ ms → ∃ b, v = .bool b) ∧
      ((¬ ∃ p, load t r = .ok p) → load t r = .error .malformed) ∧
      (∀ p, load t r = .ok p → (∀ v, ("default_mode", v) ∈ ms → NamesMode p.mode v) ∧
        ((∀ v, ("default_mode", v) ∉ ms) → p.mode = .osu) ∧ (∀ v, ("json", v) ∈ ms → v = .bool p.json) ∧
        ((∀ v, ("json", v) ∉ ms) → p.json = false)) ∧
      ∀ (t' : FileTree) (r' : Route) (text' : String) (ns : List (String × Document)),
        t'.read? r' = some text'.toUTF8 → (objectOf ns).IsText text' →
          (ns.filter fun m => isKnown m.1).Perm (ms.filter fun m => isKnown m.1) → load t' r' = load t r := by
  refine ⟨load_of_no_value hread,
    fun ms h => ⟨?_, fun hno => ?_, fun p hp => ?_, fun t' r' text' ns hread' h' hperm => ?_⟩⟩
  · simp only [load_ok_iff hread h]
    exact ofDocument?_isSome_iff
  · rw [load_of_isText hread h] at hno ⊢
    cases hd : ofDocument? (objectOf ms) with
    | none => rfl
    | some p =>
      rw [hd] at hno
      exact absurd ⟨p, rfl⟩ hno
  · obtain ⟨hmode, hjson⟩ := ofDocument?_eq_some_iff.mp ((load_ok_iff hread h).mp hp)
    obtain ⟨_, hsaid, hdefault⟩ := member?_eq_some_iff.mp hmode
    obtain ⟨_, hflag, hfalse⟩ := member?_eq_some_iff.mp hjson
    exact ⟨fun v hv => mode?_eq_some_iff.mp (hsaid v hv), hdefault,
      fun v hv => flag?_eq_some_iff.mp (hflag v hv), hfalse⟩
  · rw [load_of_isText hread' h', load_of_isText hread h, ofDocument?_perm hperm]

theorem isText_escaped : (objectOf
    [("x", .array [.object [(some "json", .null)]]), ("json", .bool true)]).IsText
    "\x7b\"x\":[\x7b\"json\":null\x7d],\"js\\u006fn\":true \x7d" :=
  Json.cutInto_of_tokens? (by decide +kernel)

theorem isText_plain : (objectOf [("json", .bool true)]).IsText "\x7b\"json\":true\x7d" :=
  Json.cutInto_of_tokens? (by decide +kernel)

theorem load_known_members_escaped : ∃ t : FileTree,
    t.read? (Route.ofText "a/config.json") =
      some "\x7b\"x\":[\x7b\"json\":null\x7d],\"js\\u006fn\":true \x7d".toUTF8 ∧
    load t (Route.ofText "a/config.json") = .ok ⟨.osu, true⟩ ∧
    ∀ t' r', FileTree.read? t' r' = some "\x7b\"json\":true\x7d".toUTF8 → load t' r' = .ok ⟨.osu, true⟩ := by
  let text := "\x7b\"x\":[\x7b\"json\":null\x7d],\"js\\u006fn\":true \x7d"
  let t := (FileTree.empty.put (Route.ofText "a/config.json") text.toUTF8).1
  have hread : t.read? (Route.ofText "a/config.json") = some text.toUTF8 := by decide +kernel
  obtain ⟨hok, _, hsaid, hsame⟩ := (load_known_members hread).2 _ isText_escaped
  have hload : load t (Route.ofText "a/config.json") = .ok ⟨.osu, true⟩ := by
    obtain ⟨⟨mode, json⟩, hp⟩ := hok.mpr ⟨by decide, by simp, by simp⟩
    obtain ⟨_, hmode, hjson, _⟩ := hsaid _ hp
    have hosu : mode = .osu := hmode (by simp)
    have htrue : Json.Tree.bool true = Json.Tree.bool json := hjson _ (by simp)
    rw [hp, hosu, ← Json.Tree.bool.inj htrue]
  refine ⟨t, hread, hload, fun t' r' hread' => ?_⟩
  rw [hsame t' r' _ _ hread' isText_plain (.refl _), hload]

end RhythmFilter.Preferences
