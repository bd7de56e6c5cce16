import Holarchy.Text.Binary64
/-!
# Numbers in TOML documents

Whole numbers must fit 64 bits with a sign.  Real numbers have a fraction, an exponent or both, and must not be rounded
to infinity, which has a name of its own.
-/
namespace Holarchy.Toml

open Text (hexValue? ofDigits)

/-- Digits without the underscores that stand between two of them. -/
def ungrouped? (isDigit : Char → Bool) : List Char → Option (List Char)
  | [] => none
  | [d] => if isDigit d then some [d] else none
  | d :: '_' :: r => if isDigit d then (ungrouped? isDigit r).map (d :: ·) else none
  | d :: r => if isDigit d then (ungrouped? isDigit r).map (d :: ·) else none

/-- The number that digits of a base stand for. -/
def natural? (base : Nat) (s : List Char) : Option Nat := do
  let digits ← ungrouped? (fun c => (hexValue? c).any (· < base)) s
  some (ofDigits base (← digits.mapM hexValue?))

/-- Decimal digits without a zero in front of others. -/
def decimal? (s : List Char) : Option Nat :=
  match s with
  | '0' :: _ :: _ => none
  | s => natural? 10 s

/-- A word without its sign, and whether that is a minus. -/
def unsigned : List Char → Bool × List Char
  | '-' :: r => (true, r)
  | '+' :: r => (false, r)
  | s => (false, s)

/-- A whole number that fits into 64 bits with a sign. -/
def integer? (s : List Char) : Option Int := do
  let n ←
    match s with
    | '0' :: 'x' :: r => (natural? 16 r).map Int.ofNat
    | '0' :: 'o' :: r => (natural? 8 r).map Int.ofNat
    | '0' :: 'b' :: r => (natural? 2 r).map Int.ofNat
    | s =>
      let (minus, digits) := unsigned s
      (decimal? digits).map fun n => if minus then -(n : Int) else n
  if Int64.minValue.toInt ≤ n ∧ n ≤ Int64.maxValue.toInt then some n else none

/-- A real number, `digits * 10 ^ exponent` with a sign. -/
structure Real where
  isBelow : Bool
  digits : Nat
  exponent : Int
  deriving DecidableEq

/-- The exponent at the end of a word, zero if nothing is left there. -/
def exponent? : List Char → Option Int
  | [] => some 0
  | c :: r =>
    let (minus, digits) := unsigned r
    if c = 'e' || c = 'E' then (natural? 10 digits).map fun n => if minus then -(n : Int) else n else none

/-- The real number that a word is. -/
def real? (s : List Char) : Option Real := do
  let (minus, s) := unsigned s
  let inDigits (c : Char) : Bool := c != '.' && c != 'e' && c != 'E'
  let whole ← decimal? (s.takeWhile inDigits)
  match s.dropWhile inDigits with
  | [] => none
  | '.' :: r =>
    let fraction ← ungrouped? Text.isDigit (r.takeWhile inDigits)
    let exponent ← exponent? (r.dropWhile inDigits)
    let digits ← fraction.mapM hexValue?
    some ⟨minus, whole * Nat.pow 10 digits.length + ofDigits 10 digits, exponent - digits.length⟩
  | r => (exponent? r).map fun exponent => ⟨minus, whole, exponent⟩

/-- Whether a real number is allowed: it is, unless it is positive and rounded to infinity. -/
def Real.isAllowed (x : Real) : Bool := x.isBelow || !Text.Binary64.isBeyond x.digits x.exponent

/-- Whether a word names a number that is not finite. -/
def isNotFinite (s : List Char) : Bool :=
  let s := (unsigned s).2
  s = ['i', 'n', 'f'] || s = ['n', 'a', 'n']

/-- A number as it stands in a document, which has no whole numbers from `2 ^ 63` on. -/
def writeNatural? (n : Nat) : Option String := if n < 1 <<< 63 then some n.repr else none

end Holarchy.Toml
