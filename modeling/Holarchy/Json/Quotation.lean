import Holarchy.Json.Fault
/-!
# Strings in JSON texts

A string is written between double quotes with six short escapes and a numeric one for the other controls, and read
with any escape that stands for a character.
-/
namespace Holarchy.Json

open Text (hexValue?)

/-- A character as it is written inside a string. -/
def escape (c : Char) : List Char :=
  match c with
  | '"' => ['\\', '"']
  | '\\' => ['\\', '\\']
  | '\x08' => ['\\', 'b']
  | '\x0c' => ['\\', 'f']
  | '\n' => ['\\', 'n']
  | '\r' => ['\\', 'r']
  | '\t' => ['\\', 't']
  | c => if c.toNat < 0x20 then '\\' :: 'u' :: Text.hex 4 c.toNat else [c]

/-- A text as it is written in double quotes. -/
def writeString (s : String) : List Char := '"' :: (s.toList.flatMap escape ++ ['"'])

def byteLength (s : List Char) : Nat := s.foldl (fun n c => n + c.utf8Size) 0

/-- The fault of a numeric escape without four digits: it lies behind the four bytes that were to hold them. -/
def hex4Fault (s : List Char) : Fault :=
  if byteLength (s.take 4) < 4 then .ended .string else .malformed .escape ⟨s, 4⟩

/-- The four digits of a numeric escape. -/
def readHex4 (s : List Char) : Except Fault (Nat × List Char) :=
  match s with
  | a :: b :: c :: d :: r =>
    match hexValue? a, hexValue? b, hexValue? c, hexValue? d with
    | some a, some b, some c, some d => .ok (((a * 16 + b) * 16 + c) * 16 + d, r)
    | _, _, _, _ => .error (hex4Fault s)
  | s => .error (hex4Fault s)

def isLowSurrogate (n : Nat) : Bool := 0xdc00 ≤ n && n ≤ 0xdfff

def isHighSurrogate (n : Nat) : Bool := 0xd800 ≤ n && n ≤ 0xdbff

/-- The character beyond the first plane that two surrogates stand for. -/
def surrogatePair (high low : Nat) : Char := Char.ofNat (0x10000 + (high - 0xd800) * 0x400 + (low - 0xdc00))

/-- The second half of a pair, which must follow the first as an escape of its own. -/
def readLowSurrogate (high : Nat) (s : List Char) : Except Fault (Char × List Char) :=
  match s with
  | [] | ['\\'] => .error (.ended .string)
  | '\\' :: 'u' :: r =>
    match readHex4 r with
    | .error e => .error e
    | .ok (low, r') =>
      if isLowSurrogate low then .ok (surrogatePair high low, r') else .error (.malformed .loneSurrogate (.before r'))
  | '\\' :: r => .error (.malformed .unfinishedSurrogate (.on r))
  | r => .error (.malformed .unfinishedSurrogate (.on r))

/-- The character of a numeric escape, of which a pair is needed beyond the first plane; the mark has been read. -/
def readUnicode (s : List Char) : Except Fault (Char × List Char) :=
  match readHex4 s with
  | .error e => .error e
  | .ok (n, r) =>
    if isLowSurrogate n then .error (.malformed .loneSurrogate (.before r))
    else if isHighSurrogate n then readLowSurrogate n r
    else .ok (Char.ofNat n, r)

/-- The character that a short escape stands for. -/
def shortEscape? (c : Char) : Option Char :=
  match c with
  | '"' => some '"'
  | '\\' => some '\\'
  | '/' => some '/'
  | 'b' => some '\x08'
  | 'f' => some '\x0c'
  | 'n' => some '\n'
  | 'r' => some '\r'
  | 't' => some '\t'
  | _ => none

/-- The character that an escape stands for; the backslash has been read. -/
def readEscape (s : List Char) : Except Fault (Char × List Char) :=
  match s with
  | [] => .error (.ended .string)
  | c :: r =>
    if c = 'u' then readUnicode r
    else
      match shortEscape? c with
      | some d => .ok (d, r)
      | none => .error (.malformed .escape (.on (c :: r)))

/-- Passes over an escape in a string that nobody wants; halves of pairs may stand alone there. -/
def passEscape (s : List Char) : Except Fault (List Char) :=
  match s with
  | [] => .error (.ended .string)
  | c :: r =>
    if c = 'u' then (readHex4 r).map Prod.snd
    else if (shortEscape? c).isSome then .ok r
    else .error (.malformed .escape (.on (c :: r)))

theorem readHex4_length {s r : List Char} {n : Nat} (h : readHex4 s = .ok (n, r)) : r.length < s.length := by
  unfold readHex4 at h
  split at h
  · split at h
    · simp only [Except.ok.injEq, Prod.mk.injEq] at h
      obtain ⟨-, rfl⟩ := h
      simp; omega
    · cases h
  · cases h

theorem readLowSurrogate_length {high : Nat} {s r : List Char} {c : Char} (h : readLowSurrogate high s = .ok (c, r)) :
    r.length < s.length := by
  unfold readLowSurrogate at h
  split at h
  · cases h
  · cases h
  · split at h
    · cases h
    · rename_i h1
      have := readHex4_length h1
      split at h
      · simp only [Except.ok.injEq, Prod.mk.injEq] at h
        obtain ⟨-, rfl⟩ := h
        simp; omega
      · cases h
  · cases h
  · cases h

theorem readUnicode_length {s r : List Char} {c : Char} (h : readUnicode s = .ok (c, r)) : r.length < s.length := by
  unfold readUnicode at h
  split at h
  · cases h
  · rename_i h1
    have := readHex4_length h1
    split at h
    · cases h
    · split at h
      · exact Nat.lt_trans (readLowSurrogate_length h) this
      · simp only [Except.ok.injEq, Prod.mk.injEq] at h
        obtain ⟨-, rfl⟩ := h
        exact this

theorem readEscape_length {s r : List Char} {c : Char} (h : readEscape s = .ok (c, r)) : r.length < s.length := by
  unfold readEscape at h
  split at h
  · cases h
  · split at h
    · have := readUnicode_length h; simp; omega
    · split at h
      · simp only [Except.ok.injEq, Prod.mk.injEq] at h
        obtain ⟨-, rfl⟩ := h
        simp
      · cases h

theorem passEscape_length {s r : List Char} (h : passEscape s = .ok r) : r.length < s.length := by
  unfold passEscape at h
  split at h
  · cases h
  · rename_i c r0
    split at h
    · cases h1 : readHex4 r0 with
      | error e => rw [h1] at h; cases h
      | ok p =>
        obtain ⟨n, r1⟩ := p
        have := readHex4_length h1
        rw [h1] at h
        cases h; simp; omega
    · split at h
      · cases h; simp
      · cases h

/-- The characters of a string up to its closing quote, behind those read so far, which are kept latest first. -/
def readString (sofar : List Char) (s : List Char) : Except Fault (String × List Char) :=
  match s with
  | [] => .error (.ended .string)
  | '"' :: r => .ok (String.ofList sofar.reverse, r)
  | '\\' :: r =>
    match _h : readEscape r with
    | .error e => .error e
    | .ok (c, r') => readString (c :: sofar) r'
  | c :: r =>
    if c.toNat < 0x20 then .error (.malformed .controlCharacter (.on (c :: r)))
    else readString (c :: sofar) r
termination_by s.length
decreasing_by
  · have := readEscape_length _h; simp; omega
  · simp

/-- Passes over a string that nobody wants, up to its closing quote. -/
def passString (s : List Char) : Except Fault (List Char) :=
  match s with
  | [] => .error (.ended .string)
  | '"' :: r => .ok r
  | '\\' :: r =>
    match _h : passEscape r with
    | .error e => .error e
    | .ok r' => passString r'
  | c :: r =>
    if c.toNat < 0x20 then .error (.malformed .controlCharacter (.before (c :: r)))
    else passString r
termination_by s.length
decreasing_by
  · have := passEscape_length _h; simp; omega
  · simp

end Holarchy.Json
