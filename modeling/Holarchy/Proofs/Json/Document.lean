import Holarchy.Json.Writer
import Holarchy.Proofs.Json.Number
/-!
# Documents and their texts

A document is what a JSON text says, and `Lays` relates it to every text that says it.  The members of an object may
come in any order, blanks may stand between any two tokens, and the characters of a string may be escaped or not.  A
record may have members that are none of its fields, and may lack an optional field that is `null`.  A text can also be
flawed: somewhere in it a record lacks a field that it must have, or has a field twice.
-/
namespace Holarchy.Json

open Text (hexValue? isDigit ofDigits)

/-! ## Blanks -/

def Blanks (b : List Char) : Prop := ∀ c ∈ b, isBlank c = true

section Blanks

variable {b : List Char} {c : Char}

theorem blanks_nil : Blanks [] := nofun

theorem skipBlanks_append (hb : Blanks b) (s : List Char) : skipBlanks (b ++ s) = skipBlanks s :=
  List.dropWhile_append_of_pos hb

/-- A character that ends blanks. -/
theorem skipBlanks_append_cons (hb : Blanks b) (hc : isBlank c = false) (s : List Char) :
    skipBlanks (b ++ c :: s) = c :: s := by
  rw [skipBlanks_append hb, skipBlanks, List.dropWhile_cons, hc]
  rfl

theorem readColon_append (hb : Blanks b) (s : List Char) : readColon (b ++ ':' :: s) = .ok s := by
  rw [readColon, skipBlanks_append_cons hb (by decide)]
  rfl

end Blanks

/-! ## Strings and numerals -/

/-- Four digits to the base of sixteen, in either case. -/
def Hex4 (n : Nat) (q : List Char) : Prop :=
  ∃ ds, List.Forall₂ (fun c d => hexValue? c = some d) q ds ∧ ds.length = 4 ∧ ofDigits 16 ds = n

/-- Characters as they can be spelled inside a string. -/
inductive Spells : List Char → List Char → Prop where
  | nil : Spells [] []
  | plain {c : Char} {cs t : List Char} : c ≠ '"' → c ≠ '\\' → 0x20 ≤ c.toNat → Spells cs t → Spells (c :: cs) (c :: t)
  | short {c d : Char} {cs t : List Char} : shortEscape? d = some c → Spells cs t → Spells (c :: cs) ('\\' :: d :: t)
  | unicode {c : Char} {cs q t : List Char} : Hex4 c.toNat q → Spells cs t →
    Spells (c :: cs) ('\\' :: 'u' :: (q ++ t))
  /-- A character beyond the first plane is two surrogates. -/
  | pair {c : Char} {high low : Nat} {cs q q' t : List Char} : isHighSurrogate high = true → isLowSurrogate low = true →
    c.toNat = 0x10000 + (high - 0xd800) * 0x400 + (low - 0xdc00) → Hex4 high q → Hex4 low q' → Spells cs t →
    Spells (c :: cs) ('\\' :: 'u' :: (q ++ '\\' :: 'u' :: (q' ++ t)))

/-- A text in double quotes. -/
def Quotes (s : String) (q : List Char) : Prop := ∃ t, Spells s.toList t ∧ q = '"' :: (t ++ ['"'])

/-- What may stand between double quotes, whether it spells a text or not: half of a surrogate pair spells none. -/
inductive Quotable : List Char → Prop where
  | nil : Quotable []
  | plain {c : Char} {t : List Char} : c ≠ '"' → c ≠ '\\' → 0x20 ≤ c.toNat → Quotable t → Quotable (c :: t)
  | short {d : Char} {t : List Char} : (shortEscape? d).isSome = true → Quotable t → Quotable ('\\' :: d :: t)
  | unicode {n : Nat} {q t : List Char} : Hex4 n q → Quotable t → Quotable ('\\' :: 'u' :: (q ++ t))

def Digits (ds : List Char) : Prop := ds ≠ [] ∧ ∀ c ∈ ds, isDigit c = true

/-- The parts of a numeral: a sign, a whole part without leading zeros, a fraction, and an exponent. -/
structure IsNumeral (sign whole fraction exponent : List Char) : Prop where
  sign : sign = [] ∨ sign = ['-']
  whole : whole = ['0'] ∨ Digits whole ∧ whole.head? ≠ some '0'
  fraction : fraction = [] ∨ ∃ ds, Digits ds ∧ fraction = '.' :: ds
  exponent : exponent = [] ∨ ∃ mark sign ds, (mark = 'e' ∨ mark = 'E') ∧ (sign = [] ∨ sign = ['+'] ∨ sign = ['-']) ∧
    Digits ds ∧ exponent = mark :: (sign ++ ds)

/-! ## Rows -/

section Rows

variable {ι : Type}

/-- Items behind another one, each after a comma. -/
inductive Rest (Item : ι → List Char → Prop) : List ι → List Char → Prop where
  | nil {b : List Char} : Blanks b → Rest Item [] b
  | cons {b b' w t : List Char} {i : ι} {is : List ι} : Blanks b → Blanks b' → Item i w → Rest Item is t →
    Rest Item (i :: is) (b ++ ',' :: (b' ++ (w ++ t)))

/-- Items with commas between them. -/
inductive Series (Item : ι → List Char → Prop) : List ι → List Char → Prop where
  | nil {b : List Char} : Blanks b → Series Item [] b
  | cons {b w t : List Char} {i : ι} {is : List ι} : Blanks b → Item i w → Rest Item is t →
    Series Item (i :: is) (b ++ (w ++ t))

theorem ends_append {b r : List Char} (hb : Blanks b) (hr : Ends r) : Ends (b ++ r) := by
  cases b with
  | nil => exact hr
  | cons c b => exact ends_cons (by simp [isEnd, hb c List.mem_cons_self])

/-- Behind an item stands what belongs to no value. -/
theorem Rest.ends {Item : ι → List Char → Prop} {is : List ι} {t : List Char} (h : Rest Item is t) {r : List Char}
    (hr : Ends r) : Ends (t ++ r) := by
  cases h with
  | nil hb => exact ends_append hb hr
  | cons hb _ _ _ =>
    rw [List.append_assoc]
    exact ends_append hb (ends_cons (by decide))

theorem Rest.length_le {Item : ι → List Char → Prop} {is : List ι} {t : List Char} (h : Rest Item is t) :
    is.length ≤ t.length := by
  induction h with
  | nil => exact Nat.zero_le _
  | cons _ _ _ _ ih =>
    simp only [List.length_cons, List.length_append] at ih ⊢
    omega

end Rows

/-- A name in double quotes, a colon and a value. -/
def IsMember (m : String × List Char) (t : List Char) : Prop :=
  ∃ q b b', Quotes m.1 q ∧ Blanks b ∧ Blanks b' ∧ t = q ++ (b ++ ':' :: (b' ++ m.2))

/-- The same for a name that need not spell a text. -/
def IsLooseMember (m : List Char × List Char) (t : List Char) : Prop :=
  ∃ b b', Quotable m.1 ∧ Blanks b ∧ Blanks b' ∧ t = '"' :: (m.1 ++ '"' :: (b ++ ':' :: (b' ++ m.2)))

/-- Any value in JSON. -/
inductive WellFormed : List Char → Prop where
  | null : WellFormed writeNull
  | boolean (b : Bool) : WellFormed (writeBoolean b)
  | numeral {sign whole fraction exponent : List Char} : IsNumeral sign whole fraction exponent →
    WellFormed (sign ++ (whole ++ (fraction ++ exponent)))
  | string {t : List Char} : Quotable t → WellFormed ('"' :: (t ++ ['"']))
  | list {ws : List (List Char)} {t : List Char} : (∀ w ∈ ws, WellFormed w) → Series (fun w t => t = w) ws t →
    WellFormed ('[' :: (t ++ [']']))
  | object {ms : List (List Char × List Char)} {t : List Char} : (∀ m ∈ ms, WellFormed m.2) →
    Series IsLooseMember ms t → WellFormed ('\x7b' :: (t ++ ['\x7d']))

/-! ## Documents -/

/-- Whether a field of a record can be left out when it is `null`. -/
inductive Presence where
  | required
  | optional

/-- What a text says.  A choice is the name of its case as a text, or an object with this one member. -/
inductive Document where
  | null
  | boolean (b : Bool)
  | integer (i : Int)
  | text (s : String)
  | list (ds : List Document)
  | object (members : List (String × Document))
  | record (fields : List (String × Presence × Document))

/-- A document within another, its text, and whether that is without a flaw. -/
structure Part where
  document : Document
  whole : Bool
  text : List Char

/-- What stands under a name in the text of a record: a field, or something that nobody reads. -/
inductive Piece where
  | laid (part : Part)
  | loose (text : List Char)

def Piece.text : Piece → List Char
  | .laid part => part.text
  | .loose text => text

def Piece.whole : Piece → Bool
  | .laid part => part.whole
  | .loose _ => true

section Records

variable (fields : List (String × Presence × Document)) (pieces : List (String × Piece))

/-- The members of a record are fields of it or nobody reads them: they have other names, or come after a field of the
same name.  A field that can be left out is so only when it is `null`. -/
structure Arranged : Prop where
  known : ∀ name part, (name, .laid part) ∈ pieces → ∃ presence, (name, presence, part.document) ∈ fields
  loose : ∀ before name w after, pieces = before ++ (name, .loose w) :: after →
    WellFormed w ∧ (name ∈ fields.map Prod.fst → name ∈ before.map Prod.fst)
  absent : ∀ name d, (name, .optional, d) ∈ fields → name ∉ pieces.map Prod.fst → d = .null

/-- No field comes twice, none is missing, and none has a flaw in it. -/
structure Faultless : Prop where
  once : ((pieces.map Prod.fst).filter fun name => name ∈ fields.map Prod.fst).Nodup
  there : ∀ name d, (name, .required, d) ∈ fields → name ∈ pieces.map Prod.fst
  whole : ∀ name part, (name, .laid part) ∈ pieces → part.whole = true

end Records

/-- The texts of a document, without a flaw or with one. -/
inductive Lays : Document → Bool → List Char → Prop where
  | null : Lays .null true writeNull
  | boolean (b : Bool) : Lays (.boolean b) true (writeBoolean b)
  | integer (i : Int) : Lays (.integer i) true (writeInteger i)
  | text {s : String} {q : List Char} : Quotes s q → Lays (.text s) true q
  | list {parts : List Part} {t : List Char} : (∀ p ∈ parts, Lays p.document p.whole p.text) →
    Series (fun p w => w = p.text) parts t →
    Lays (.list (parts.map Part.document)) (parts.all Part.whole) ('[' :: (t ++ [']']))
  | object {members : List (String × Document)} {parts : List (String × Part)} {t : List Char} :
    (∀ p ∈ parts, Lays p.2.document p.2.whole p.2.text) → (parts.map fun p => (p.1, p.2.document)).Perm members →
    Series (fun p => IsMember (p.1, p.2.text)) parts t →
    Lays (.object members) (parts.all fun p => p.2.whole) ('\x7b' :: (t ++ ['\x7d']))
  | record {fields : List (String × Presence × Document)} {pieces : List (String × Piece)} {t : List Char} :
    (∀ name p, (name, .laid p) ∈ pieces → Lays p.document p.whole p.text) → Arranged fields pieces →
    Faultless fields pieces → Series (fun p => IsMember (p.1, p.2.text)) pieces t →
    Lays (.record fields) true ('\x7b' :: (t ++ ['\x7d']))
  | flawed {fields : List (String × Presence × Document)} {pieces : List (String × Piece)} {t : List Char} :
    (∀ name p, (name, .laid p) ∈ pieces → Lays p.document p.whole p.text) → Arranged fields pieces →
    ¬ Faultless fields pieces → Series (fun p => IsMember (p.1, p.2.text)) pieces t →
    Lays (.record fields) false ('\x7b' :: (t ++ ['\x7d']))

end Holarchy.Json
