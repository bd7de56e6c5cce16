import Holarchy.Text.Digits
/-!
# Floating numbers of 64 bits

A finite number of the usual floating format is a mantissa below `2 ^ 53` times a power of two from `2 ^ -1074` up.
All arithmetic here is exact up to one rounding per operation, a half going to the even neighbour, so the text of a
number is the shortest decimal that reads back as it.
-/
namespace Holarchy.Text

/-- `mantissa * 2 ^ exponent`. -/
structure Binary64 where
  mantissa : Nat
  exponent : Int
  deriving DecidableEq

namespace Binary64

/-- A quotient rounded to the nearest whole number, a half to the even one. -/
def roundDiv (n d : Nat) : Nat :=
  let q := n / d
  let r := n % d
  if r * 2 < d ∨ (r * 2 = d ∧ q % 2 = 0) then q else q + 1

/-- `n / d * 2 ^ -e` as a quotient of whole numbers. -/
def shifted (n d : Nat) (e : Int) : Nat × Nat := (n <<< (-e).toNat, d <<< e.toNat)

/-- The number nearest to a quotient; numbers beyond the format keep an exponent of their own. -/
def ofRatio (n d : Nat) : Binary64 :=
  if n = 0 then ⟨0, 0⟩
  else
    let e : Int := (n.log2 : Int) - d.log2 - 52
    let (n', d') := shifted n d e
    let e := max (if n' < d' <<< 52 then e - 1 else e) (-1074)
    let (n', d') := shifted n d e
    let m := roundDiv n' d'
    if m = 1 <<< 53 then ⟨1 <<< 52, e + 1⟩ else ⟨m, e⟩

/-- The number as a quotient of whole numbers. -/
def ratio (x : Binary64) : Nat × Nat := shifted x.mantissa 1 (-x.exponent)

def mul (x y : Binary64) : Binary64 := ofRatio (x.ratio.1 * y.ratio.1) (x.ratio.2 * y.ratio.2)

def div (x y : Binary64) : Binary64 := ofRatio (x.ratio.1 * y.ratio.2) (x.ratio.2 * y.ratio.1)

def isInfinite (x : Binary64) : Bool := x.ratio.2 <<< 1024 ≤ x.ratio.1

def tenTo (e : Nat) : Binary64 := ofRatio (Nat.pow 10 e) 1

/-- Divides by `10 ^ e`, in steps of at most `10 ^ 308`; after four of those nothing is left of any number. -/
def divTenTo : Nat → Binary64 → Nat → Binary64
  | 0, _, _ => ⟨0, 0⟩
  | steps + 1, x, e => if e ≤ 308 then x.div (tenTo e) else divTenTo steps (x.div (tenTo 308)) (e - 308)

/-- The number that a significand with a decimal exponent is read as, unless it is beyond the format: the significand
is rounded first and then multiplied or divided by powers of ten. -/
def ofDecimal? (significand : Nat) (exponent : Int) : Option Binary64 :=
  let x := ofRatio significand 1
  match exponent with
  | .negSucc e => some (divTenTo 5 x (e + 1))
  | .ofNat e =>
    if 308 < e then if significand = 0 then some x else none
    else
      let y := x.mul (tenTo e)
      if y.isInfinite then none else some y

/-- Whether a decimal is rounded to a number beyond the format.  The number of its digits decides it from `10 ^ 309` on
and below `10 ^ 308`. -/
def isBeyond (significand : Nat) (exponent : Int) : Bool :=
  let order := (decimalDigits significand).length + exponent
  significand != 0 && (309 < order
    || order = 309 && (ofRatio (significand * Nat.pow 10 exponent.toNat) (Nat.pow 10 (-exponent).toNat)).isInfinite)

/-- The power of ten just above a number below one, counted down from zero. -/
def leadingZeros : Nat → Nat → Nat → Nat
  | 0, _, _ => 0
  | steps + 1, n, d => if n * 10 < d then leadingZeros steps (n * 10) d + 1 else 0

/-- The `k` with `10 ^ (k - 1) ≤ n / d < 10 ^ k`. -/
def magnitude (n d : Nat) : Int :=
  if n < d then -(leadingZeros 400 n d : Int) else (decimalDigits (n / d)).length

/-- Whether a decimal lies among the numbers that are rounded to `x`; the ends belong to them if the mantissa is even. -/
def covers (x : Binary64) (digits : Nat) (exponent : Int) : Bool :=
  let (n, d) := (digits * Nat.pow 10 exponent.toNat, Nat.pow 10 (-exponent).toNat)
  let quarter := shifted 1 1 (2 - x.exponent)
  let low := 4 * x.mantissa - (if x.mantissa = 1 <<< 52 ∧ x.exponent ≠ -1074 then 1 else 2)
  let high := 4 * x.mantissa + 2
  let at_ (bound : Nat) := bound * quarter.1 * d
  let here := n * quarter.2
  if x.mantissa % 2 = 0 then at_ low ≤ here && here ≤ at_ high else at_ low < here && here < at_ high

/-- The shortest digits that are rounded to `x`, and their decimal exponent; of two equally short the nearer. -/
def shortest (x : Binary64) : Nat → Nat × Int
  | 0 => (0, 0)
  | more + 1 =>
    let (n, d) := x.ratio
    let e := magnitude n d - (17 - more)
    let (n', d') := (n * Nat.pow 10 (-e).toNat, d * Nat.pow 10 e.toNat)
    let below := n' / d'
    let nearer := roundDiv n' d'
    let other := if nearer = below then below + 1 else below
    if covers x nearer e then (nearer, e)
    else if covers x other e then (other, e)
    else shortest x more

/-- Zeros at the end of digits moved into the exponent. -/
def stripZeros : Nat → Nat → Int → Nat × Int
  | 0, digits, e => (digits, e)
  | steps + 1, digits, e => if digits ≠ 0 ∧ digits % 10 = 0 then stripZeros steps (digits / 10) (e + 1) else (digits, e)

/-- The text of a number: positional from `1e-5` up to below `1e16`, and outside of that with an exponent, which has a
sign in either case. -/
def text (negative : Bool) (x : Binary64) : String :=
  let sign := if negative then "-" else ""
  if x.mantissa = 0 then sign ++ "0.0"
  else
    let (digits, e) := x.shortest 17
    let (digits, e) := stripZeros 17 digits e
    let ds := decimal digits
    let k : Int := ds.length + e
    let str (cs : List Char) := String.ofList cs
    let zeros (n : Int) := List.replicate n.toNat '0'
    if 0 ≤ e ∧ k ≤ 16 then sign ++ str (ds ++ zeros e ++ ['.', '0'])
    else if 0 < k ∧ k ≤ 16 then sign ++ str (ds.take k.toNat ++ '.' :: ds.drop k.toNat)
    else if -5 < k ∧ k ≤ 0 then sign ++ str ('0' :: '.' :: (zeros (-k) ++ ds))
    else
      let tail := ds.drop 1
      let mark := if 0 < k then ['e', '+'] else ['e']
      sign ++ str (ds.take 1 ++ (if tail.isEmpty then [] else '.' :: tail) ++ mark ++ signedDecimal (k - 1))

end Binary64

end Holarchy.Text
