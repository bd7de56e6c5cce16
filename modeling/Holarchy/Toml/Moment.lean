import Holarchy.Text.Digits
import Holarchy.Toml.Line
/-!
# Dates and times in TOML documents

A moment is a day of the calendar, a day with a time and perhaps the offset of that time, or a time alone.  The parts
have a fixed number of digits each; no setting is a moment, so only what is left behind one is given.
-/
namespace Holarchy.Toml

/-- A number with so many digits that lies between two bounds. -/
def readPart (places low high : Nat) : Reader Nat := fun s => do
  let digits ← (s.take places).mapM Text.digitValue?
  let n := Text.ofDigits 10 digits
  if digits.length = places ∧ low ≤ n ∧ n ≤ high then some (n, s.drop places) else none

/-- What is left behind one of some marks. -/
def afterMark? (marks : List Char) : List Char → Option (List Char)
  | [] => none
  | c :: r => if marks.contains c then some r else none

def isLeap (year : Nat) : Bool := year % 4 = 0 && (year % 100 != 0 || year % 400 = 0)

/-- The number of days of a month, from one. -/
def daysIn (year month : Nat) : Nat :=
  match month with
  | 2 => if isLeap year then 29 else 28
  | 4 | 6 | 9 | 11 => 30
  | _ => 31

def afterDate? (s : List Char) : Option (List Char) := do
  let (year, r) ← readPart 4 0 9999 s
  let (month, r) ← readPart 2 1 12 (← afterMark? ['-'] r)
  let (_, r) ← readPart 2 1 (daysIn year month) (← afterMark? ['-'] r)
  some r

/-- The fraction of a second, of which there must be a digit if the point is there. -/
def afterFraction (s : List Char) : List Char :=
  match s with
  | '.' :: c :: r => if Text.isDigit c then r.dropWhile Text.isDigit else s
  | s => s

/-- The last second of a minute may be a leap second. -/
def afterTime? (s : List Char) : Option (List Char) := do
  let (_, r) ← readPart 2 0 23 s
  let (_, r) ← readPart 2 0 59 (← afterMark? [':'] r)
  let (_, r) ← readPart 2 0 60 (← afterMark? [':'] r)
  some (afterFraction r)

/-- Behind the distance of a time from universal time. -/
def afterOffset? (s : List Char) : Option (List Char) :=
  match afterMark? ['Z', 'z'] s with
  | some r => some r
  | none => do
    let (_, r) ← readPart 2 0 23 (← afterMark? ['+', '-'] s)
    let (_, r) ← readPart 2 0 59 (← afterMark? [':'] r)
    some r

/-- Behind a moment; a blank behind a day belongs to it only if a time follows. -/
def afterMoment? (s : List Char) : Option (List Char) :=
  match afterDate? s with
  | none => afterTime? s
  | some r =>
    match afterMark? ['T', 't', ' '] r >>= afterTime? with
    | none => some r
    | some r => some ((afterOffset? r).getD r)

end Holarchy.Toml
