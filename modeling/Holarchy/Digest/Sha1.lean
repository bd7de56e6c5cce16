/-!
# The SHA-1 digest

The digest of a byte string, as a number of 160 bits: the text is padded to blocks of sixteen words, and each block is
mixed into five words of state in eighty rounds.
-/
namespace Holarchy.Digest.Sha1

/-- The five words that blocks are mixed into. -/
structure State where
  a : UInt32
  b : UInt32
  c : UInt32
  d : UInt32
  e : UInt32
  deriving DecidableEq

def State.initial : State := ⟨0x67452301, 0xefcdab89, 0x98badcfe, 0x10325476, 0xc3d2e1f0⟩

def State.add (s t : State) : State := ⟨s.a + t.a, s.b + t.b, s.c + t.c, s.d + t.d, s.e + t.e⟩

/-- The state as one number, its first word in front. -/
def State.toNat (s : State) : Nat :=
  [s.a, s.b, s.c, s.d, s.e].foldl (fun n w => n <<< 32 + w.toNat) 0

def rotate (w : UInt32) (n : UInt32) : UInt32 := (w <<< n) ||| (w >>> (32 - n))

/-- The bytes of a number, most significant first, in a fixed number of places. -/
def bigEndian : Nat → Nat → List UInt8
  | 0, _ => []
  | places + 1, n => bigEndian places (n / 256) ++ [UInt8.ofNat n]

/-- The text, a one bit, zeros to a multiple of 64 bytes less eight, and the length of the text in bits. -/
def padded (text : List UInt8) : List UInt8 :=
  text ++ 0x80 :: List.replicate ((119 - text.length % 64) % 64) 0 ++ bigEndian 8 (text.length * 8)

/-- Four bytes at a time as words; bytes that fill no word are left out. -/
def words : List UInt8 → List UInt32
  | a :: b :: c :: d :: rest =>
    ((a.toUInt32 <<< 24) ||| (b.toUInt32 <<< 16) ||| (c.toUInt32 <<< 8) ||| d.toUInt32) :: words rest
  | _ => []

/-- The words of all eighty rounds from the sixteen of a block; the list is kept latest first. -/
def schedule : Nat → List UInt32 → List UInt32
  | 0, ws => ws.reverse
  | rounds + 1, ws =>
    let w := rotate (ws.getD 2 0 ^^^ ws.getD 7 0 ^^^ ws.getD 13 0 ^^^ ws.getD 15 0) 1
    schedule rounds (w :: ws)

/-- The mixing function and constant of a round. -/
def mix (round : Nat) (s : State) : UInt32 × UInt32 :=
  if round < 20 then ((s.b &&& s.c) ||| (~~~s.b &&& s.d), 0x5a827999)
  else if round < 40 then (s.b ^^^ s.c ^^^ s.d, 0x6ed9eba1)
  else if round < 60 then ((s.b &&& s.c) ||| (s.b &&& s.d) ||| (s.c &&& s.d), 0x8f1bbcdc)
  else (s.b ^^^ s.c ^^^ s.d, 0xca62c1d6)

def rounds : Nat → List UInt32 → State → State
  | _, [], s => s
  | round, w :: ws, s =>
    let (f, k) := mix round s
    rounds (round + 1) ws ⟨rotate s.a 5 + f + s.e + k + w, s.a, rotate s.b 30, s.c, s.d⟩

def block (s : State) (ws : List UInt32) : State := s.add (rounds 0 (schedule 64 ws.reverse) s)

/-- A list cut into the given number of pieces of sixteen. -/
def blocks : Nat → List UInt32 → List (List UInt32)
  | 0, _ => []
  | n + 1, ws => ws.take 16 :: blocks n (ws.drop 16)

/-- The digest of a byte string, below `2 ^ 160`. -/
def digest (text : List UInt8) : Nat :=
  let ws := words (padded text)
  ((blocks (ws.length / 16) ws).foldl block State.initial).toNat

end Holarchy.Digest.Sha1
