import Mathlib.Data.List.Induction
import Holarchy.Json.Tree
import Holarchy.Proofs.SortedMap
/-!
# Rows as they are written

A file of objects is read into maps: of two members with one name the later stays, and of a numeral the number that it
stands for.  `readRows` reads the same files, and fails on the same, but keeps every member and every numeral as it is
written; what is read into maps is what the rows come to.
-/
namespace Holarchy.Json

section Readers

variable {α β σ τ : Type}

theorem settle_map (stop : List Char → List Char) (outcome : Except Fault α) (f : α → β) :
    settle stop (outcome.map f) = (settle stop outcome).map f := by
  cases outcome with
  | ok a => rfl
  | error e =>
    cases e with
    | misshapen m rest placed => cases placed <;> rfl
    | _ => rfl

theorem map_map {ε γ : Type} (outcome : Except ε α) (f : α → β) (g : β → γ) :
    (outcome.map f).map g = outcome.map fun a => g (f a) := by
  cases outcome <;> rfl

theorem wrongType_map (expected : String) (s : List Char) (f : α → β) :
    (wrongType expected s).map f = wrongType expected s := by
  unfold wrongType
  rcases readFound s with e | ⟨found, r⟩ <;> rfl

theorem readElements_readAs (f : α → β) (read : Reader α) (steps : Nat) (first : Bool) (sofar : List α)
    (s : List Char) :
    readElements (readAs f read) steps first (sofar.map f) s =
      readAs (List.map f) (readElements read steps first sofar) s := by
  induction steps generalizing first sofar s with
  | zero => rfl
  | succ steps ih =>
    simp only [readElements, readAs]
    rcases nextElement first s with e | _ | s'
    · rfl
    · simp only
      cases closeList s with
      | error e => rfl
      | ok r => simp [Except.map, List.map_reverse]
    · simp only
      rcases read s' with e | ⟨a, r⟩
      · rfl
      · exact ih false (a :: sofar) r

theorem readList_readAs (f : α → β) (read : Reader α) :
    readList (readAs f read) = readAs (List.map f) (readList read) := by
  funext s
  simp only [readList, readAs]
  split
  · rfl
  · rename_i r _
    rw [← settle_map]
    exact congrArg (settle listEnd) (readElements_readAs f read (r.length + 1) true [] r)
  · exact (wrongType_map _ _ _).symm

/-- Two ways to gather members that go together member by member go together over all of them. -/
theorem readMembers_readAs {g : τ → σ} {member : σ → String → Reader σ} {member' : τ → String → Reader τ}
    (h : ∀ t name s, member (g t) name s = readAs g (member' t name) s) (steps : Nat) (first : Bool) (t : τ)
    (s : List Char) : readMembers member steps first (g t) s = readAs g (readMembers member' steps first t) s := by
  induction steps generalizing first t s with
  | zero => rfl
  | succ steps ih =>
    simp only [readMembers, readAs]
    rcases nextKey first s with e | _ | ⟨name, r⟩
    · rfl
    · rfl
    · simp only
      rw [h, readAs]
      rcases member' t name r with e | ⟨t', r'⟩
      · rfl
      · exact ih false t' r'

theorem readMemberValue_readAs (f : α → β) (read : Reader α) :
    readMemberValue (readAs f read) = readAs f (readMemberValue read) := by
  funext s
  simp only [readMemberValue, readAs]
  rcases readColon s with e | r <;> rfl

/-- One member of a row, behind those that are written before it. -/
def readRowMember (read : Reader α) (row : List (String × α)) (name : String) : Reader (List (String × α)) := fun s =>
  (readMemberValue read s).map fun (a, r) => (row ++ [(name, a)], r)

/-- The members of an object in the order in which they are written. -/
def readRow (read : Reader α) : Reader (List (String × α)) := fun s =>
  match skipBlanks s with
  | [] => .error (.ended .value)
  | '\x7b' :: r =>
    settle objectEnd <|
      match readMembers (readRowMember read) (r.length + 1) true [] r with
      | .error e => .error e
      | .ok (row, r) => (closeObject r).map fun r => (row, r)
  | s => wrongType "a map" s

theorem readRow_of_ended {read : Reader α} {s : List Char} (hs : skipBlanks s = []) :
    readRow read s = .error (.ended .value) := by
  simp only [readRow, hs]

theorem readRow_of_object {read : Reader α} {s r : List Char} (hs : skipBlanks s = '\x7b' :: r) :
    readRow read s = settle objectEnd
      (match readMembers (readRowMember read) (r.length + 1) true [] r with
      | .error e => .error e
      | .ok (row, r) => (closeObject r).map fun r => (row, r)) := by
  simp only [readRow, hs]

theorem readRow_of_other {read : Reader α} {s : List Char} (hs : skipBlanks s ≠ [])
    (hobject : ∀ r, skipBlanks s ≠ '\x7b' :: r) : readRow read s = wrongType "a map" (skipBlanks s) := by
  unfold readRow
  split
  · exact absurd ‹_› hs
  · exact absurd ‹_› (hobject _)
  · rfl

/-- The map that a row comes to, where the last value of a name counts. -/
def resolve (f : α → β) (row : List (String × α)) : SortedMap String β := .ofList (row.map fun e => (e.1, f e.2))

theorem resolve_concat (f : α → β) (row : List (String × α)) (name : String) (a : α) :
    resolve f (row ++ [(name, a)]) = (resolve f row).insert name (f a) := by
  simp [resolve, SortedMap.ofList, SortedMap.insertMany]

/-- The last value of a name in a row. -/
def lastValue? (row : List (String × α)) (name : String) : Option α := row.reverse.lookup name

theorem get?_resolve (f : α → β) (row : List (String × α)) (name : String) :
    (resolve f row).get? name = (lastValue? row name).map f := by
  induction row using List.reverseRecOn with
  | nil => rfl
  | append_singleton row member ih =>
    obtain ⟨name', a⟩ := member
    rw [resolve_concat, SortedMap.get?_insert, ih]
    simp only [lastValue?, List.reverse_append, List.reverse_singleton, List.singleton_append, List.lookup_cons]
    by_cases hname : name = name'
    · simp [hname]
    · rw [if_neg hname, beq_false_of_ne hname]

/-- **A map is what a row comes to.** -/
theorem readMap_readAs (f : α → β) (read : Reader α) :
    readMap some (readAs f read) = readAs (resolve f) (readRow read) := by
  have hmember : ∀ row name s, readEntry some (readAs f read) (resolve f row) name s =
      readAs (resolve f) (readRowMember read row name) s := by
    intro row name s
    simp only [readEntry, readMemberValue_readAs, readAs, readRowMember]
    rcases readMemberValue read s with e | ⟨a, r⟩
    · rfl
    · simp only [Except.map, resolve_concat]
  funext s
  rw [readMap, readAs]
  split
  case h_1 hs => rw [readRow_of_ended hs]; rfl
  case h_2 r hs =>
    rw [readRow_of_object hs, ← settle_map]
    have hmembers := readMembers_readAs hmember (r.length + 1) true [] r
    refine congrArg (settle objectEnd) ?_
    rw [show (∅ : SortedMap String β) = resolve f [] from rfl, hmembers, readAs]
    rcases readMembers (readRowMember read) (r.length + 1) true [] r with e | ⟨row, r'⟩
    · rfl
    · simp only [Except.map]
      rcases closeObject r' with e | r'' <;> rfl
  case h_3 hempty hbrace =>
    rw [readRow_of_other hempty hbrace]
    exact (wrongType_map _ _ _).symm

end Readers

/-- A value as it is written in a row: a numeral with the number that it is read as. -/
inductive Cell where
  | null
  | boolean (b : Bool)
  | string (s : String)
  | numeral (n : Numeral) (number : Number) (reads : n.number? = some number)
  | list (elements : List Tree)
  | object (members : List (String × Tree))

def Cell.tree : Cell → Tree
  | .null => .null
  | .boolean b => .boolean b
  | .string s => .string s
  | .numeral _ number _ => .number number
  | .list elements => .list elements
  | .object members => .object members

def readNumeralCell : Reader Cell := fun s =>
  match readNumeral (.ended .value) s with
  | .error e => .error e
  | .ok (n, r) =>
    match reads : n.number? with
    | some number => .ok (.numeral n number reads, r)
    | none => .error (.malformed .numberTooLarge (.before (n.unread ++ r)))

/-- Reads a cell whose lists and objects nest at most so many levels. -/
def readCell (levels : Nat) : Reader Cell := fun s =>
  match skipBlanks s with
  | [] => .error (.ended .value)
  | '[' :: r =>
    if levels = 0 then .error (.malformed .tooDeep (.on ('[' :: r)))
    else (readElements (readTree levels) (r.length + 1) true [] r).map fun (ts, r) => (.list ts, r)
  | '\x7b' :: r =>
    if levels = 0 then .error (.malformed .tooDeep (.on ('\x7b' :: r)))
    else
      match readMembers (readTreeMember (readTree levels)) (r.length + 1) true [] r with
      | .error e => .error e
      | .ok (ms, r) => (closeObject r).map fun r => (.object ms, r)
  | '"' :: r => (readString [] r).map fun (t, r) => (.string t, r)
  | 'n' :: r => (readWord ['u', 'l', 'l'] r).map fun r => (.null, r)
  | 't' :: r => (readWord ['r', 'u', 'e'] r).map fun r => (.boolean true, r)
  | 'f' :: r => (readWord ['a', 'l', 's', 'e'] r).map fun r => (.boolean false, r)
  | c :: r =>
    if c = '-' || Text.isDigit c then readNumeralCell (c :: r)
    else .error (.malformed .expectedValue (.on (c :: r)))

theorem readNumeralCell_tree (s : List Char) :
    readAs Cell.tree readNumeralCell s = (readNumber s).map fun (n, r) => (.number n, r) := by
  simp only [readAs, readNumeralCell, readNumber, bind, Except.bind]
  rcases readNumeral (.ended .value) s with e | ⟨n, r⟩
  · rfl
  · simp only
    split <;> rename_i hnumber
    · conv => rhs; rw [hnumber]
      rfl
    · conv => rhs; rw [hnumber]
      rfl

/-- What begins with none of the signs of the other cells is a numeral or no cell. -/
theorem readCell_of_other {levels : Nat} {s r : List Char} {c : Char} (hs : skipBlanks s = c :: r) (hlist : c ≠ '[')
    (hobject : c ≠ '\x7b') (hstring : c ≠ '"') (hnull : c ≠ 'n') (htrue : c ≠ 't') (hfalse : c ≠ 'f') :
    readCell levels s = if c = '-' || Text.isDigit c then readNumeralCell (c :: r)
      else .error (.malformed .expectedValue (.on (c :: r))) := by
  unfold readCell
  rw [hs]
  split
  case h_1 h => cases h
  case h_2 h => cases h; exact absurd rfl hlist
  case h_3 h => cases h; exact absurd rfl hobject
  case h_4 h => cases h; exact absurd rfl hstring
  case h_5 h => cases h; exact absurd rfl hnull
  case h_6 h => cases h; exact absurd rfl htrue
  case h_7 h => cases h; exact absurd rfl hfalse
  case h_8 h => cases h; rfl

/-- **A value is what a cell comes to.** -/
theorem readTree_eq (levels : Nat) : readTree (levels + 1) = readAs Cell.tree (readCell levels) := by
  funext s
  simp only [readTree, readAs]
  split
  case h_1 hs => simp only [readCell, hs]; rfl
  case h_2 r hs =>
    simp only [readCell, hs]
    split
    · rfl
    · rw [map_map]; rfl
  case h_3 r hs =>
    simp only [readCell, hs]
    split
    · rfl
    · rcases readMembers (readTreeMember (readTree levels)) (r.length + 1) true [] r with e | ⟨ms, r'⟩
      · rfl
      · simp only [map_map]; rfl
  case h_4 r hs => simp only [readCell, hs, map_map]; rfl
  case h_5 r hs => simp only [readCell, hs, map_map]; rfl
  case h_6 r hs => simp only [readCell, hs, map_map]; rfl
  case h_7 r hs => simp only [readCell, hs, map_map]; rfl
  case h_8 c r hlist hobject hstring hnull htrue hfalse hs =>
    rw [readCell_of_other hs (by simpa using hlist) (by simpa using hobject) (by simpa using hstring)
      (by simpa using hnull) (by simpa using htrue) (by simpa using hfalse)]
    split
    · exact (readNumeralCell_tree (c :: r)).symm
    · rfl

/-- The rows of a file, as they are written. -/
def readRows : Reader (List (List (String × Cell))) := readList (readRow (readCell (maxLevels - 2)))

theorem readObjects_eq : readObjects = readAs (List.map (resolve Cell.tree)) readRows := by
  rw [readObjects, readRows, ← readList_readAs, ← readMap_readAs, ← readTree_eq]
  rfl

/-- The whole number that a numeral would be without fraction and exponent. -/
def Numeral.signed (n : Numeral) : Int := if n.negative then -(digitsValue n.whole : Int) else digitsValue n.whole

/-- The numeral is the number as one writes it: without fraction and exponent, and without a sign before a zero. -/
structure Numeral.Writes (n : Numeral) (i : Int64) : Prop where
  fraction : n.fraction = []
  exponent : n.exponent = none
  unsigned : n.signed = 0 → n.negative = false
  signed : n.signed = i.toInt

/-- The number as one of 64 bits with its sign, if it is one. -/
def Number.int64? : Number → Option Int64
  | .natural n => if n < 1 <<< 63 then some (Int64.ofNat n) else none
  | .negative n => some (Int64.ofInt (-(n : Int)))
  | .real .. => none

theorem Number.int64?_natural {n : Nat} {i : Int64} : (natural n).int64? = some i ↔ (n : Int) = i.toInt := by
  have hhigh := i.toInt_lt
  have hbound : (1 <<< 63 : Nat) = 2 ^ 63 := rfl
  rw [int64?, hbound]
  split
  · rename_i hn
    rw [Option.some_inj, ← Int64.toInt_inj, Int64.toInt_ofNat_of_lt hn]
  · refine ⟨fun h => (by cases h), fun h => ?_⟩
    omega

theorem Number.int64?_negative {n : Nat} (hn : n ≤ 1 <<< 63) {i : Int64} :
    (negative n).int64? = some i ↔ -(n : Int) = i.toInt := by
  have hbound : (1 <<< 63 : Nat) = 2 ^ 63 := rfl
  rw [int64?, Option.some_inj, ← Int64.toInt_inj, Int64.toInt_ofInt_of_le (by omega) (by omega)]

/-- A numeral that is written as a number of 64 bits is read as a whole number. -/
theorem Numeral.Writes.plain {n : Numeral} {i : Int64} (h : n.Writes i) :
    n.fraction.isEmpty ∧ n.exponent = none ∧ digitsValue n.whole ≤ maxNatural ∧
      (n.negative = true → digitsValue n.whole ≠ 0 ∧ digitsValue n.whole ≤ 1 <<< 63) := by
  have hlow := i.le_toInt
  have hhigh := i.toInt_lt
  have hmax : maxNatural = 2 ^ 64 - 1 := rfl
  have hbound : (1 <<< 63 : Nat) = 2 ^ 63 := rfl
  have hsigned := h.signed
  refine ⟨List.isEmpty_iff.2 h.fraction, h.exponent, ?_, fun hnegative => ?_⟩
  · unfold Numeral.signed at hsigned
    split at hsigned <;> omega
  · rw [Numeral.signed, if_pos hnegative] at hsigned
    refine ⟨fun hzero => ?_, by omega⟩
    have hunsigned := h.unsigned (by rw [Numeral.signed, if_pos hnegative, hzero]; rfl)
    rw [hnegative] at hunsigned
    cases hunsigned

/-- **What numerals are read as a whole number of 64 bits**: just those that are written as one. -/
theorem Numeral.writes_iff {n : Numeral} {number : Number} (reads : n.number? = some number) {i : Int64} :
    n.Writes i ↔ number.int64? = some i := by
  simp only [Numeral.number?] at reads
  split at reads
  · rename_i hplain
    obtain ⟨hfraction, hexponent, hmax, hsign⟩ := hplain
    have hwrites : n.Writes i ↔ n.signed = i.toInt := by
      refine ⟨Writes.signed, fun hsigned => ⟨List.isEmpty_iff.1 hfraction, hexponent, fun hzero => ?_, hsigned⟩⟩
      refine Bool.eq_false_iff.2 fun hnegative => (hsign hnegative).1 ?_
      rw [Numeral.signed, if_pos hnegative] at hzero
      omega
    rw [hwrites, Numeral.signed]
    cases hnegative : n.negative with
    | false =>
      rw [hnegative] at reads
      cases reads
      exact Number.int64?_natural.symm
    | true =>
      rw [hnegative] at reads
      cases reads
      exact (Number.int64?_negative (hsign hnegative).2).symm
  · rename_i hreal
    obtain ⟨size, -, rfl⟩ := Option.map_eq_some_iff.1 reads
    exact ⟨fun h => absurd h.plain hreal, fun h => (by cases h)⟩

end Holarchy.Json
