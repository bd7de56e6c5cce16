/-!
# Digits

Numbers as digits, most significant first.  `decimal` writes no leading zero and `hexDigits` a fixed number of places;
`ofDigits_decimal` and `ofDigits_fixed` read both back.
-/
namespace Holarchy.Text

/-- The character of one digit, below sixteen, in lower case. -/
def digitChar (d : Nat) : Char := Nat.digitChar d

/-- The digits of a number in base ten, the single digit `0` for zero. -/
def decimalDigits (n : Nat) : List Nat := if n < 10 then [n] else decimalDigits (n / 10) ++ [n % 10]

def decimal (n : Nat) : List Char := (decimalDigits n).map digitChar

/-- A whole number in base ten, with a sign in front when it is negative. -/
def signedDecimal : Int → List Char
  | .ofNat n => decimal n
  | .negSucc n => '-' :: decimal (n + 1)

/-- The last `places` digits of a number in some base, leading zeros kept. -/
def fixedDigits (base : Nat) : Nat → Nat → List Nat
  | 0, _ => []
  | places + 1, n => fixedDigits base places (n / base) ++ [n % base]

/-- A number in base sixteen with a fixed number of places, in lower case. -/
def hex (places n : Nat) : List Char := (fixedDigits 16 places n).map digitChar

/-- The number that digits in some base stand for. -/
def ofDigits (base : Nat) (ds : List Nat) : Nat := ds.foldl (fun n d => n * base + d) 0

theorem ofDigits_concat (base : Nat) (ds : List Nat) (d : Nat) :
    ofDigits base (ds ++ [d]) = ofDigits base ds * base + d := by simp [ofDigits]

theorem ofDigits_decimal (n : Nat) : ofDigits 10 (decimalDigits n) = n := by
  induction n using Nat.strongRecOn with
  | ind n ih =>
    rw [decimalDigits]
    split
    · simp [ofDigits]
    · rw [ofDigits_concat, ih _ (by omega)]; omega

theorem ofDigits_fixed (base : Nat) : ∀ places n : Nat,
    ofDigits base (fixedDigits base places n) = n % Nat.pow base places
  | 0, n => by simp [fixedDigits, ofDigits, Nat.mod_one]
  | places + 1, n => by
    have hpow : Nat.pow base (places + 1) = base * Nat.pow base places := Nat.mul_comm _ _
    rw [fixedDigits, ofDigits_concat, ofDigits_fixed base places, hpow, Nat.mod_mul, Nat.mul_comm base]
    omega

def hexValue? (c : Char) : Option Nat :=
  if '0' ≤ c ∧ c ≤ '9' then some (c.toNat - '0'.toNat)
  else if 'a' ≤ c ∧ c ≤ 'f' then some (c.toNat - 'a'.toNat + 10)
  else if 'A' ≤ c ∧ c ≤ 'F' then some (c.toNat - 'A'.toNat + 10)
  else none

def digitValue? (c : Char) : Option Nat := if '0' ≤ c ∧ c ≤ '9' then some (c.toNat - '0'.toNat) else none

def isDigit (c : Char) : Bool := '0' ≤ c && c ≤ '9'

/-- A byte as two digits in base sixteen, in upper case. -/
def byteHex (b : UInt8) : String := String.ofList ((hex 2 b.toNat).map Char.toUpper)

end Holarchy.Text
