import RhythmFilter.Text.Integer

/-!
# Quoted strings in JSON texts

Between the quotes a character stands for itself, unless it is a quote, a backslash or a control
character. A backslash begins an escape: a letter, or `u` with the four hexadecimal digits of a
UTF-16 unit. Two units that form a surrogate pair are one character; half a pair is none.
-/

namespace RhythmFilter.Json

open Text

inductive Piece where
  | character (c : Char)
  | surrogate (unit : Nat)
  deriving DecidableEq

/-- The letters that may follow a backslash, `u` apart, and their characters. -/
def escapes : List (Char × Char) := [
  ('"', '"'), ('\\', '\\'), ('/', '/'), ('b', '\x08'), ('f', '\x0c'), ('n', '\n'), ('r', '\r'),
  ('t', '\t')]

def hexValue? (c : Char) : Option Nat :=
  if isDigit c then some (digitValue c)
  else if 'a' ≤ c ∧ c ≤ 'f' then some (c.toNat - 'a'.toNat + 10)
  else if 'A' ≤ c ∧ c ≤ 'F' then some (c.toNat - 'A'.toNat + 10)
  else none

def unit? (a b c d : Char) : Option Nat :=
  match hexValue? a, hexValue? b, hexValue? c, hexValue? d with
  | some a, some b, some c, some d => some (4096 * a + 256 * b + 16 * c + d)
  | _, _, _, _ => none

def isHighSurrogate (n : Nat) : Bool := decide (0xD800 ≤ n) && decide (n ≤ 0xDBFF)

def isLowSurrogate (n : Nat) : Bool := decide (0xDC00 ≤ n) && decide (n ≤ 0xDFFF)

def Piece.ofUnit (n : Nat) : Piece :=
  if isHighSurrogate n || isLowSurrogate n then .surrogate n else .character (Char.ofNat n)

def pairChar (high low : Nat) : Char :=
  Char.ofNat (0x10000 + 0x400 * (high - 0xD800) + (low - 0xDC00))

/-- The text that the pieces make up; `none` if half of a surrogate pair is left over. -/
def pieceText? : List Piece → Option (List Char)
  | [] => some []
  | .character c :: ps => (pieceText? ps).map (c :: ·)
  | .surrogate high :: .surrogate low :: ps =>
    if isHighSurrogate high && isLowSurrogate low then
      (pieceText? ps).map (pairChar high low :: ·)
    else none
  | .surrogate _ :: _ => none

/-- Reads from behind the opening quote up to the closing quote; gives the pieces and the rest. -/
def quotedPieces? : List Char → Option (List Piece × List Char)
  | [] => none
  | c :: s =>
    if c = '"' then some ([], s)
    else if c = '\\' then
      match s with
      | [] => none
      | e :: s =>
        if e = 'u' then
          match s with
          | h₁ :: h₂ :: h₃ :: h₄ :: s =>
            match unit? h₁ h₂ h₃ h₄, quotedPieces? s with
            | some n, some (ps, rest) => some (.ofUnit n :: ps, rest)
            | _, _ => none
          | _ => none
        else
          match escapes.lookup e, quotedPieces? s with
          | some d, some (ps, rest) => some (.character d :: ps, rest)
          | _, _ => none
    else if c < ' ' then none
    else
      match quotedPieces? s with
      | some (ps, rest) => some (.character c :: ps, rest)
      | none => none

def hexDigit (n : Nat) : Char :=
  if n < 10 then digitChar n else Char.ofNat ('a'.toNat + (n - 10))

/-- The letter that stands for a character behind a backslash, if it must be escaped and has one. -/
def shortEscape? (c : Char) : Option Char :=
  [('"', '"'), ('\\', '\\'), ('\x08', 'b'), ('\x0c', 'f'), ('\n', 'n'), ('\r', 'r'), ('\t', 't')].lookup c

def quoteChar (c : Char) : List Char :=
  match shortEscape? c with
  | some e => ['\\', e]
  | none =>
    if c < ' ' then ['\\', 'u', '0', '0', hexDigit (c.toNat / 16), hexDigit (c.toNat % 16)] else [c]

def quote (s : List Char) : List Char := '"' :: s.flatMap quoteChar ++ ['"']

theorem quotedPieces?_shorter {s : List Char} {ps : List Piece} {rest : List Char}
    (h : quotedPieces? s = some (ps, rest)) : rest.length < s.length := by
  fun_induction quotedPieces? s generalizing ps rest with
  | case1 | case3 | case5 | case6 | case8 | case9 | case11 => cases h
  | case2 s =>
    -- the closing quote is the least that is read
    cases h
    exact Nat.lt_succ_self s.length
  | case4 _ _ _ _ s _ _ rest hs _ _ ih =>
    cases h
    have hlen : rest.length < s.length := ih hs
    simp only [List.length_cons]
    omega
  | case7 _ s _ _ _ rest hs _ _ ih =>
    cases h
    have hlen : rest.length < s.length := ih hs
    simp only [List.length_cons]
    omega
  | case10 _ s _ _ _ _ rest hs ih =>
    cases h
    have hlen : rest.length < s.length := ih hs
    exact Nat.lt_succ_of_lt hlen

end RhythmFilter.Json
