import Holarchy.Json.Fault
import Holarchy.Text.Binary64
/-!
# Numbers in JSON texts

A numeral is read as its parts first.  It is a whole number if it has neither fraction nor exponent and fits 64 bits
with its sign, and a real number otherwise; a real number must not be too large for 64 binary digits of the usual
floating format.
-/
namespace Holarchy.Json

open Text (isDigit)

structure Numeral where
  negative : Bool
  whole : List Char
  fraction : List Char
  /-- Whether the exponent is negative, and its digits. -/
  exponent : Option (Bool × List Char)
  deriving DecidableEq

inductive Number where
  | natural (n : Nat)
  /-- A number below zero, by its size. -/
  | negative (n : Nat)
  /-- A number with fraction or exponent, or one beyond 64 bits, by its sign and size. -/
  | real (isBelow : Bool) (size : Text.Binary64)
  deriving DecidableEq

def maxNatural : Nat := 1 <<< 64 - 1

/-- Digits of a whole part added to a significand as long as they fit 64 bits, and the count of those that do not. -/
def gatherWhole : Nat → List Char → Nat × Nat
  | n, [] => (n, 0)
  | n, c :: cs =>
    let next := n * 10 + (c.toNat - '0'.toNat)
    if next ≤ maxNatural then gatherWhole next cs else (n, cs.length + 1)

/-- Digits of a fraction added to a significand as long as they fit, and the count of those that do. -/
def gatherFraction : Nat → List Char → Nat × Nat
  | n, [] => (n, 0)
  | n, c :: cs =>
    let next := n * 10 + (c.toNat - '0'.toNat)
    if next ≤ maxNatural then let (m, k) := gatherFraction next cs; (m, k + 1) else (n, 0)

namespace Numeral

def digitsValue (ds : List Char) : Nat := ds.foldl (fun n c => n * 10 + (c.toNat - '0'.toNat)) 0

def parts (n : Numeral) : Nat × Int :=
  let (significand, dropped) := gatherWhole 0 n.whole
  let (significand, kept) := gatherFraction significand n.fraction
  let exponent : Int :=
    match n.exponent with
    | none => 0
    | some (true, ds) => -(digitsValue ds : Int)
    | some (false, ds) => digitsValue ds
  (significand, (dropped : Int) - kept + exponent)

/-- The digits of an exponent behind the one with which its value passes 31 bits, if one does. -/
def behindLargeExponent : Nat → List Char → List Char
  | _, [] => []
  | n, c :: cs =>
    let next := n * 10 + (c.toNat - '0'.toNat)
    if next < 1 <<< 31 then behindLargeExponent next cs else cs

/-- The digits of a numeral left unread when it is found too large: the reader stops within an exponent that is so by
itself, and otherwise reads the numeral to its end. -/
def unread (n : Numeral) : List Char :=
  match n.exponent with
  | some (false, ds) => behindLargeExponent 0 ds
  | _ => []

/-- The number a numeral stands for, unless it is too large. -/
def number? (n : Numeral) : Option Number :=
  let whole := digitsValue n.whole
  if n.fraction.isEmpty ∧ n.exponent = none ∧ whole ≤ maxNatural
      ∧ (n.negative = true → whole ≠ 0 ∧ whole ≤ 1 <<< 63) then
    some (if n.negative then .negative whole else .natural whole)
  else
    let (significand, exponent) := n.parts
    (Text.Binary64.ofDecimal? significand exponent).map (.real n.negative)

end Numeral

/-- The fault of a text that breaks off inside a numeral, and the fault of a character that cannot stand there. -/
def numeralFault (onEnd : Fault) : List Char → Fault
  | [] => onEnd
  | s => .malformed .number (.on s)

/-- The digits of an exponent, of which there must be one; the mark has been read. -/
def readExponent (onEnd : Fault) (s : List Char) : Except Fault ((Bool × List Char) × List Char) :=
  let (negative, s) :=
    match s with
    | '+' :: r => (false, r)
    | '-' :: r => (true, r)
    | s => (false, s)
  match s.span isDigit with
  | ([], r) => .error (numeralFault onEnd r)
  | (ds, r) => .ok ((negative, ds), r)

/-- The exponent, if one follows. -/
def readExponent? (onEnd : Fault) (s : List Char) : Except Fault (Option (Bool × List Char) × List Char) :=
  match s with
  | 'e' :: r | 'E' :: r => (readExponent onEnd r).map fun (e, r) => (some e, r)
  | s => .ok (none, s)

/-- The digits of a fraction, of which there must be one, if the point follows. -/
def readFraction? (onEnd : Fault) (s : List Char) : Except Fault (List Char × List Char) :=
  match s with
  | '.' :: r =>
    match r.span isDigit with
    | ([], r) => .error (numeralFault onEnd r)
    | (ds, r) => .ok (ds, r)
  | s => .ok ([], s)

/-- The digits of the whole part: a zero alone or digits that start with another. -/
def readWhole (onEnd : Fault) (s : List Char) : Except Fault (List Char × List Char) :=
  match s with
  | '0' :: r =>
    match r with
    | c :: _ => if isDigit c then .error (.malformed .number (.on r)) else .ok (['0'], r)
    | [] => .ok (['0'], [])
  | s =>
    match s.span isDigit with
    | ([], r) => .error (numeralFault onEnd r)
    | (ds, r) => .ok (ds, r)

/-- Reads a numeral; `onEnd` is the fault of a text that breaks off inside one. -/
def readNumeral (onEnd : Fault) (s : List Char) : Except Fault (Numeral × List Char) := do
  let (negative, s) :=
    match s with
    | '-' :: r => (true, r)
    | s => (false, s)
  let (whole, s) ← readWhole onEnd s
  let (fraction, s) ← readFraction? onEnd s
  let (exponent, s) ← readExponent? onEnd s
  .ok (⟨negative, whole, fraction, exponent⟩, s)

/-- Reads a number; a text that breaks off inside one has ended too early. -/
def readNumber : Reader Number := fun s => do
  let (numeral, r) ← readNumeral (.ended .value) s
  match numeral.number? with
  | some n => .ok (n, r)
  | none => .error (.malformed .numberTooLarge (.before (numeral.unread ++ r)))

/-- Passes over a number that nobody wants, whatever its size; a text that breaks off inside it is malformed. -/
def passNumber (s : List Char) : Except Fault (List Char) :=
  (readNumeral (.malformed .number (.before [])) s).map Prod.snd

end Holarchy.Json
