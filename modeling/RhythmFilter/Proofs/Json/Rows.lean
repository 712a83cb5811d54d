import RhythmFilter.Proofs.Json.ReadBack

/-!
# Rows of one value

What a reader expects, and the values that are still open around that, determine the tokens that it has read. So
a value is read from its own row of tokens only.
-/

namespace RhythmFilter.Json

section
variable {σ ν : Type}

def itemsSoFar (xs : List (Tree σ ν)) : List (Token σ ν) := xs.flatMap fun x => x.tokens ++ [.comma]

def membersSoFar (ms : List (σ × Tree σ ν)) : List (Token σ ν) :=
  ms.flatMap fun m => .string m.1 :: .colon :: (m.2.tokens ++ [.comma])

theorem itemsSoFar_concat (xs : List (Tree σ ν)) (x : Tree σ ν) :
    itemsSoFar (xs ++ [x]) = itemsSoFar xs ++ (x.tokens ++ [.comma]) := by
  rw [itemsSoFar, List.flatMap_append, List.flatMap_singleton, ← itemsSoFar]

theorem membersSoFar_concat (ms : List (σ × Tree σ ν)) (k : σ) (v : Tree σ ν) :
    membersSoFar (ms ++ [(k, v)]) = membersSoFar ms ++ .string k :: .colon :: (v.tokens ++ [.comma]) := by
  rw [membersSoFar, List.flatMap_append, List.flatMap_singleton, ← membersSoFar]

theorem itemTokens_concat (x : Tree σ ν) : ∀ xs, itemTokens (xs ++ [x]) = itemsSoFar xs ++ x.tokens
  | [] => rfl
  | y :: xs => by
    have ih : itemTokens (xs ++ [x]) = itemsSoFar xs ++ x.tokens := itemTokens_concat x xs
    obtain ⟨z, zs, e⟩ := List.exists_cons_of_ne_nil (List.concat_ne_nil x xs)
    rw [e] at ih
    rw [List.cons_append, e, itemTokens, ih, itemsSoFar, itemsSoFar, List.flatMap_cons]
    simp only [List.append_assoc, List.cons_append, List.nil_append]

theorem memberTokens_concat (k : σ) (v : Tree σ ν) :
    ∀ ms, memberTokens (ms ++ [(k, v)]) = membersSoFar ms ++ .string k :: .colon :: v.tokens
  | [] => rfl
  | (l, w) :: ms => by
    have ih : memberTokens (ms ++ [(k, v)]) = membersSoFar ms ++ .string k :: .colon :: v.tokens :=
      memberTokens_concat k v ms
    obtain ⟨n, ns, e⟩ := List.exists_cons_of_ne_nil (List.concat_ne_nil (k, v) ms)
    rw [e] at ih
    rw [List.cons_append, e, memberTokens, ih, membersSoFar, membersSoFar, List.flatMap_cons]
    simp only [List.append_assoc, List.cons_append, List.nil_append]

/-! ## The tokens read so far -/

def Frame.row : Frame σ ν → List (Token σ ν)
  | .array before => .openArray :: itemsSoFar before.reverse
  | .object before key => .openObject :: (membersSoFar before.reverse ++ [.string key, .colon])

def Expect.row : Expect σ ν → List (Token σ ν)
  | .value => []
  | .firstItem => [.openArray]
  | .firstKey => [.openObject]
  | .nextKey before => .openObject :: membersSoFar before.reverse
  | .colon before key => .openObject :: (membersSoFar before.reverse ++ [.string key])
  | .after v => v.tokens

namespace Reader

def frameRow (frames : List (Frame σ ν)) : List (Token σ ν) := frames.reverse.flatMap Frame.row

def row (r : Reader σ ν) : List (Token σ ν) := frameRow r.frames ++ r.expect.row

theorem frameRow_cons (f : Frame σ ν) (frames : List (Frame σ ν)) :
    frameRow (f :: frames) = frameRow frames ++ f.row := by
  rw [frameRow, List.reverse_cons, List.flatMap_append, List.flatMap_singleton, ← frameRow]

section
variable {r : Reader σ ν} {frames : List (Frame σ ν)} {t : Token σ ν}

theorem row_begin? (h : begin? frames t = some r) : r.row = frameRow frames ++ [t] := by
  cases t with
  | null | bool | number | string | openArray | openObject =>
    obtain rfl := Option.some.inj h
    rfl
  | closeArray | closeObject | comma | colon => cases h

theorem row_continue? {v : Tree σ ν} (h : continue? v frames t = some r) :
    r.row = frameRow frames ++ (v.tokens ++ [t]) := by
  unfold continue? at h
  split at h
  · obtain rfl := Option.some.inj h
    simp only [row, frameRow_cons, Frame.row, Expect.row, List.reverse_cons, itemsSoFar_concat]
    simp only [List.append_assoc, List.cons_append, List.append_nil]
  · obtain rfl := Option.some.inj h
    simp only [row, frameRow_cons, Frame.row, Expect.row, Tree.tokens, List.reverse_cons, itemTokens_concat]
    simp only [List.append_assoc, List.cons_append]
  · obtain rfl := Option.some.inj h
    simp only [row, frameRow_cons, Frame.row, Expect.row, List.reverse_cons, membersSoFar_concat]
    simp only [List.append_assoc, List.cons_append, List.nil_append]
  · obtain rfl := Option.some.inj h
    simp only [row, frameRow_cons, Frame.row, Expect.row, Tree.tokens, List.reverse_cons, memberTokens_concat]
    simp only [List.append_assoc, List.cons_append, List.nil_append]
  · cases h

theorem step?_firstItem (h : t ≠ .closeArray) :
    step? ⟨.firstItem, frames⟩ t = begin? (.array [] :: frames) t := by
  cases t with
  | closeArray => exact absurd rfl h
  | _ => rfl

/-- A step adds the token that it takes to those read so far. -/
theorem row_step? {q : Reader σ ν} (h : r.step? t = some q) : q.row = r.row ++ [t] := by
  obtain ⟨expect, frames⟩ := r
  cases expect with
  | value =>
    have hbegin : begin? frames t = some q := h
    rw [row_begin? hbegin, row, Expect.row, List.append_nil]
  | firstItem =>
    by_cases hclose : t = .closeArray
    · subst hclose
      obtain rfl := Option.some.inj h
      simp [row, Expect.row, Tree.tokens, itemTokens]
    · rw [step?_firstItem hclose] at h
      rw [row_begin? h, frameRow_cons]
      rfl
  | firstKey =>
    cases t with
    | closeObject =>
      obtain rfl := Option.some.inj h
      simp [row, Expect.row, Tree.tokens, memberTokens]
    | string k =>
      obtain rfl := Option.some.inj h
      simp [row, Expect.row, membersSoFar]
    | _ => cases h
  | nextKey before =>
    cases t with
    | string k =>
      obtain rfl := Option.some.inj h
      simp [row, Expect.row]
    | _ => cases h
  | colon before k =>
    cases t with
    | colon =>
      obtain rfl := Option.some.inj h
      simp [row, Expect.row, frameRow_cons, Frame.row]
    | _ => cases h
  | after v =>
    have hcontinue : continue? v frames t = some q := h
    rw [row_continue? hcontinue, row, Expect.row, List.append_assoc]

theorem row_steps? {q : Reader σ ν} : ∀ {ts : List (Token σ ν)} {r : Reader σ ν}, r.steps? ts = some q →
    q.row = r.row ++ ts
  | [], r, h => by
    obtain rfl := Option.some.inj h
    rw [List.append_nil]
  | t :: ts, r, h => by
    unfold steps? at h
    split at h
    · rename_i p hp
      have ih : q.row = p.row ++ ts := row_steps? h
      rw [ih, row_step? hp, List.append_assoc, List.singleton_append]
    · cases h

end

end Reader

theorem ofTokens?_eq_some_iff {ts : List (Token σ ν)} {d : Tree σ ν} :
    ofTokens? ts = some d ↔ ts = d.tokens := by
  refine ⟨fun h => ?_, fun h => by rw [h, ofTokens?_tokens]⟩
  unfold ofTokens? at h
  split at h
  · rename_i v hsteps
    obtain rfl := Option.some.inj h
    have hrow := Reader.row_steps? hsteps
    exact hrow.symm
  · cases h

end

end RhythmFilter.Json
