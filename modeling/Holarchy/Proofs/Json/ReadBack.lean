import Holarchy.Json.Record
import Holarchy.Proofs.Json.Quotation
/-!
# What is written is read back

`Conveyed` ties a reader to a value, the document that says it, and the text that is written for it: the reader gives
the value for every text of the document, whatever follows; for a text with a flaw it finds the flaw; and of a written
text that breaks off it finds the end.  All this is built up from the scalars and options here through lists, choices,
maps and records, so that a format is settled by one line for each of its types.
-/
namespace Holarchy.Json

variable {α β : Type}

/-! ## What a reader does with the texts of a document -/

/-- A reader passes over blanks, and if nothing is behind them it has come to the end. -/
structure Awaits (read : Reader α) : Prop where
  blanks : ∀ {b : List Char} (s : List Char), Blanks b → read (b ++ s) = read s
  nothing : read [] = .error (.ended .value)

/-- A record lacks a field, or has a field twice. -/
inductive Mismatch.OfFields : Mismatch → Prop where
  | missing (name : String) : OfFields (.missing name)
  | duplicate (name : String) : OfFields (.duplicate name)

/-- What comes of reading a text: the result if it is without a flaw, and the flaw if it has one. -/
def Meets (out : Except Fault α) (whole : Bool) (a : α) : Prop :=
  if whole = true then out = .ok a else ∃ m rest settled, m.OfFields ∧ out = .error (.misshapen m rest settled)

/-- What was to be read comes to an end before it is complete. -/
abbrev BreaksOff (out : Except Fault α) : Prop := ∃ what, out = .error (.ended what)

/-- What comes of reading a text that breaks off.  What is left of an integer can be one, and nothing is behind it. -/
def Stopped (d : Document) (out : Except Fault (α × List Char)) : Prop :=
  BreaksOff out ∨ (∃ i, d = .integer i) ∧ ∃ a, out = .ok (a, [])

/-- A reader makes a value of the texts of a document, of which one is written. -/
structure Conveyed (read : Reader α) (a : α) (w : List Char) (d : Document) : Prop where
  awaits : Awaits read
  laid : Lays d true w
  meets : ∀ {whole : Bool} {t : List Char}, Lays d whole t → ∀ r, Ends r → Meets (read (t ++ r)) whole (a, r)
  stops : ∀ {p s : List Char}, w = p ++ s → s ≠ [] → Stopped d (read p)

/-- Starts like a value other than `null`, and not like the end of a list. -/
def Opens (w : List Char) : Prop := ∃ c s, w = c :: s ∧ isBlank c = false ∧ c ≠ 'n' ∧ c ≠ ']'

theorem Meets.cases {out : Except Fault α} {whole : Bool} {a : α} (h : Meets out whole a) :
    whole = true ∧ out = .ok a ∨
      whole = false ∧ ∃ m rest settled, m.OfFields ∧ out = .error (.misshapen m rest settled) := by
  cases whole with
  | true => exact .inl ⟨rfl, h⟩
  | false => exact .inr ⟨rfl, h⟩

theorem meets_error {m : Mismatch} (hm : m.OfFields) (rest : List Char) (settled : Bool) (a : α) :
    Meets (.error (.misshapen m rest settled)) false a := ⟨m, rest, settled, hm, rfl⟩

theorem Meets.map {out : Except Fault α} {whole : Bool} {a : α} (h : Meets out whole a) (f : α → β) :
    Meets (out.map f) whole (f a) := by
  rcases h.cases with ⟨rfl, rfl⟩ | ⟨rfl, m, rest, settled, hm, rfl⟩
  · exact rfl
  · exact meets_error hm rest settled _

theorem Meets.settle {out : Except Fault α} {whole : Bool} {a : α} (h : Meets out whole a)
    (stop : List Char → List Char) : Meets (Json.settle stop out) whole a := by
  rcases h.cases with ⟨rfl, rfl⟩ | ⟨rfl, m, rest, settled, hm, rfl⟩
  · exact rfl
  · cases settled <;> exact ⟨m, _, true, hm, rfl⟩

theorem BreaksOff.settle {out : Except Fault α} (h : BreaksOff out) (stop : List Char → List Char) :
    BreaksOff (Json.settle stop out) := by
  obtain ⟨what, rfl⟩ := h
  exact ⟨what, rfl⟩

namespace Conveyed

variable {read : Reader α} {a : α} {w : List Char} {d : Document}

/-- The value is read back from what is written for it. -/
theorem reads (h : Conveyed read a w d) (r : List Char) (hr : Ends r) : read (w ++ r) = .ok (a, r) :=
  h.meets h.laid r hr

theorem meets_blanks (h : Conveyed read a w d) {whole : Bool} {b t : List Char} (hb : Blanks b) (ht : Lays d whole t)
    (r : List Char) (hr : Ends r) : Meets (read (b ++ (t ++ r))) whole (a, r) := by
  rw [h.awaits.blanks _ hb]
  exact h.meets ht r hr

end Conveyed

theorem skipBlanks_cons {c : Char} (h : isBlank c = false) (s : List Char) : skipBlanks (c :: s) = c :: s :=
  skipBlanks_append_cons blanks_nil h s

/-! ## How texts start -/

theorem isBlank_of_isDigit {c : Char} (h : Text.isDigit c = true) : isBlank c = false := by
  have hd : c ≠ ' ' ∧ c ≠ '\n' ∧ c ≠ '\t' ∧ c ≠ '\r' := by
    refine ⟨?_, ?_, ?_, ?_⟩ <;> (rintro rfl; cases h)
  simp [isBlank, hd]

theorem opens_decimal (n : Nat) : Opens (Text.decimal n) := by
  obtain ⟨c, cs, h, hc⟩ := head_decimal n
  refine ⟨c, cs, h, isBlank_of_isDigit hc, ?_, ?_⟩ <;> (rintro rfl; cases hc)

theorem Lays.opens {d : Document} {whole : Bool} {t : List Char} (h : Lays d whole t) (hd : d ≠ .null) : Opens t := by
  cases h with
  | null => exact absurd rfl hd
  | boolean b => cases b <;> exact ⟨_, _, rfl, by decide, by decide, by decide⟩
  | integer i =>
    cases i with
    | ofNat n => exact opens_decimal n
    | negSucc n => exact ⟨'-', _, rfl, by decide, by decide, by decide⟩
  | text h =>
    obtain ⟨t, -, rfl⟩ := h
    exact ⟨'"', _, rfl, by decide, by decide, by decide⟩
  | list | object | record | flawed => exact ⟨_, _, rfl, by decide, by decide, by decide⟩

theorem Opens.of_cut {w x p s : List Char} (hw : Opens w) (h : w ++ x = p ++ s) (hp : p ≠ []) : Opens p := by
  obtain ⟨c, w, rfl, hc⟩ := hw
  obtain ⟨d, p, rfl⟩ := List.exists_cons_of_ne_nil hp
  obtain ⟨rfl, -⟩ := List.cons.inj h
  exact ⟨c, p, rfl, hc⟩

/-! ## Scalars -/

theorem conveyed_as {read : Reader α} {a : α} {w : List Char} {d : Document} (f : α → β) (h : Conveyed read a w d) :
    Conveyed (readAs f read) (f a) w d where
  awaits :=
    { blanks := fun s hb => by rw [readAs, readAs, h.awaits.blanks s hb]
      nothing := by rw [readAs, h.awaits.nothing]; rfl }
  laid := h.laid
  meets ht r hr := (h.meets ht r hr).map fun p => (f p.1, p.2)
  stops hcut hs := by
    rcases h.stops hcut hs with ⟨what, hended⟩ | ⟨hd, a, hok⟩
    · exact .inl ⟨what, by rw [readAs, hended]; rfl⟩
    · exact .inr ⟨hd, f a, by rw [readAs, hok]; rfl⟩

theorem awaits_text : Awaits readText where
  blanks s hb := by rw [readText, readText, skipBlanks_append hb]
  nothing := rfl

theorem readText_of_quotes {s : String} {q : List Char} (h : Quotes s q) (r : List Char) :
    readText (q ++ r) = .ok (s, r) := by
  obtain ⟨t, ht, rfl⟩ := h
  have htext : '"' :: (t ++ ['"']) ++ r = '"' :: (t ++ '"' :: r) := by simp
  rw [htext, readText, skipBlanks_cons (by decide)]
  exact readString_of_spells ht r

theorem readText_cut {s : String} {p s' : List Char} (h : writeString s = p ++ s') (hs : s' ≠ []) :
    BreaksOff (readText p) := by
  rcases List.cons_eq_append_iff.1 h with ⟨rfl, -⟩ | ⟨p, rfl, hcut⟩
  · exact ⟨_, rfl⟩
  · refine ⟨.string, ?_⟩
    rw [readText, skipBlanks_cons (by decide)]
    exact readString_cut [] hcut hs

theorem conveyed_text (s : String) : Conveyed readText s (writeString s) (.text s) where
  awaits := awaits_text
  laid := .text (quotes_writeString s)
  meets ht r _ := by
    cases ht with
    | text h => exact readText_of_quotes h r
  stops hcut hs := .inl (readText_cut hcut hs)

theorem readNatural_decimal {limit n : Nat} (h : n ≤ limit) (hlimit : limit ≤ maxNatural) {r : List Char}
    (hr : Ends r) :
    readNatural limit (Text.decimal n ++ r) = .ok (n, r) := by
  obtain ⟨c, cs, hdec, hc⟩ := head_decimal n
  have hread := readNumber_decimal (Nat.le_trans h hlimit) hr
  unfold readNatural
  rw [hdec, List.cons_append] at hread ⊢
  rw [skipBlanks_cons (isBlank_of_isDigit hc)]
  simp [hc, hread, h]

theorem conveyed_natural (limit : Nat) {n : Nat} (h : n ≤ limit) (hlimit : limit ≤ maxNatural) :
    Conveyed (readNatural limit) n (writeNatural n) (.integer n) where
  awaits :=
    { blanks := fun s hb => by rw [readNatural, readNatural, skipBlanks_append hb]
      nothing := rfl }
  laid := .integer n
  meets ht r hr := by
    cases ht with
    | integer => exact readNatural_decimal h hlimit hr
  stops {p s} hcut hs := by
    by_cases hp : p = []
    · exact .inl ⟨.value, by rw [hp]; rfl⟩
    · obtain ⟨m, hm, rfl⟩ := Text.exists_decimal_of_append hcut hp
      have hread := readNatural_decimal (Nat.le_trans hm h) hlimit ends_nil
      rw [List.append_nil] at hread
      exact .inr ⟨⟨_, rfl⟩, m, hread⟩

theorem conveyed_uint64 (n : UInt64) : Conveyed readUInt64 n (writeNatural n.toNat) (.integer n.toNat) := by
  have h := conveyed_as UInt64.ofNat
    (conveyed_natural maxNatural (Nat.le_pred_of_lt n.toNat_lt) (Nat.le_refl _))
  rw [UInt64.ofNat_toNat] at h
  exact h

theorem conveyed_byte (b : UInt8) : Conveyed readByte b (writeNatural b.toNat) (.integer b.toNat) := by
  have h := conveyed_as UInt8.ofNat
    (conveyed_natural 255 (Nat.le_of_lt_succ b.toNat_lt) (by decide))
  rw [UInt8.ofNat_toNat] at h
  exact h

theorem readInt64_decimal {n : Nat} (hn : n < 1 <<< 63) {r : List Char} (hr : Ends r) :
    readInt64 (Text.decimal n ++ r) = .ok (Int64.ofNat n, r) := by
  obtain ⟨c, cs, hdec, hc⟩ := head_decimal n
  have hread := readNumber_decimal (Nat.le_trans (Nat.le_of_lt hn) (by decide)) hr
  unfold readInt64
  rw [hdec, List.cons_append] at hread ⊢
  rw [skipBlanks_cons (isBlank_of_isDigit hc)]
  simp only [hc, Bool.or_true, if_true, hread]
  rw [if_pos hn]

theorem readInt64_negative {n : Nat} (hpos : n ≠ 0) (hn : n ≤ 1 <<< 63) {r : List Char} (hr : Ends r) :
    readInt64 ('-' :: (Text.decimal n ++ r)) = .ok (Int64.ofInt (-(n : Int)), r) := by
  unfold readInt64
  rw [skipBlanks_cons (by decide)]
  simp only [readNumber_negative hpos hn hr]
  rfl

/-- The first digits of a number above zero are a number above zero. -/
theorem ne_zero_of_decimal_append {n m : Nat} {s : List Char} (hn : n ≠ 0)
    (h : Text.decimal n = Text.decimal m ++ s) : m ≠ 0 := by
  rintro rfl
  obtain ⟨c, cs, hdec, hzero, -⟩ := Text.exists_decimal_eq_cons (Nat.pos_of_ne_zero hn)
  rw [hdec, Text.decimal_of_lt (by decide)] at h
  exact hzero (List.cons.inj h).1

/-- A number of 64 bits with a sign is written as a natural number, or as one behind a minus sign. -/
theorem writeInteger_cases (i : Int64) :
    (∃ n : Nat, n < 1 <<< 63 ∧ writeInteger i.toInt = Text.decimal n ∧ Int64.ofNat n = i) ∨
      ∃ n : Nat, n ≠ 0 ∧ n ≤ 1 <<< 63 ∧ writeInteger i.toInt = '-' :: Text.decimal n ∧
        Int64.ofInt (-(n : Int)) = i := by
  have hle := i.toInt_le
  have hge := i.le_toInt
  cases hi : i.toInt with
  | ofNat n =>
    refine .inl ⟨n, ?_, rfl, ?_⟩
    · have hmax : Int64.maxValue.toInt = 0x7fffffffffffffff := by decide
      rw [hi, hmax, Int.ofNat_eq_natCast] at hle
      omega
    · rw [← Int64.ofInt_eq_ofNat, ← Int64.ofInt_toInt i, hi]
      rfl
  | negSucc n =>
    refine .inr ⟨n + 1, Nat.succ_ne_zero n, ?_, rfl, ?_⟩
    · rw [hi, Int.negSucc_eq] at hge
      omega
    · rw [← Int64.ofInt_toInt i, hi]
      rfl

theorem conveyed_int64 (i : Int64) : Conveyed readInt64 i (writeInteger i.toInt) (.integer i.toInt) where
  awaits :=
    { blanks := fun s hb => by rw [readInt64, readInt64, skipBlanks_append hb]
      nothing := rfl }
  laid := .integer _
  meets ht r hr := by
    cases ht with
    | integer =>
      show readInt64 (writeInteger i.toInt ++ r) = .ok (i, r)
      rcases writeInteger_cases i with ⟨n, hn, hwrite, hi⟩ | ⟨n, hpos, hn, hwrite, hi⟩
      · rw [hwrite, readInt64_decimal hn hr, hi]
      · rw [hwrite, List.cons_append, readInt64_negative hpos hn hr, hi]
  stops {p s} hcut hs := by
    by_cases hp : p = []
    · exact .inl ⟨.value, by rw [hp]; rfl⟩
    rcases writeInteger_cases i with ⟨n, hn, hwrite, -⟩ | ⟨n, hpos, hn, hwrite, -⟩
    · obtain ⟨m, hm, rfl⟩ := Text.exists_decimal_of_append (hwrite.symm.trans hcut) hp
      have hread := readInt64_decimal (Nat.lt_of_le_of_lt hm hn) ends_nil
      rw [List.append_nil] at hread
      exact .inr ⟨⟨_, rfl⟩, _, hread⟩
    · rcases List.cons_eq_append_iff.1 (hwrite.symm.trans hcut) with ⟨rfl, -⟩ | ⟨p, rfl, hdigits⟩
      · exact absurd rfl hp
      by_cases hp : p = []
      · -- The sign alone is the start of a number.
        exact .inl ⟨.value, by rw [hp]; rfl⟩
      · obtain ⟨m, hm, rfl⟩ := Text.exists_decimal_of_append hdigits hp
        have hread := readInt64_negative (ne_zero_of_decimal_append hpos hdigits) (Nat.le_trans hm hn) ends_nil
        rw [List.append_nil] at hread
        exact .inr ⟨⟨_, rfl⟩, _, hread⟩

theorem readWord_cut : ∀ {p s : List Char}, s ≠ [] → readWord (p ++ s) p = .error (.ended .value)
  | [], s, hs => by
    obtain ⟨c, s, rfl⟩ := List.exists_cons_of_ne_nil hs
    rfl
  | c :: p, s, hs => by
    rw [List.cons_append, readWord, if_pos rfl]
    exact readWord_cut hs

theorem conveyed_boolean (b : Bool) : Conveyed readBoolean b (writeBoolean b) (.boolean b) where
  awaits :=
    { blanks := fun s hb => by rw [readBoolean, readBoolean, skipBlanks_append hb]
      nothing := rfl }
  laid := .boolean b
  meets ht r _ := by
    cases ht with
    | boolean => cases b <;> rfl
  stops {p s} hcut hs := by
    refine .inl ⟨.value, ?_⟩
    cases b
    all_goals
      rcases List.cons_eq_append_iff.1 hcut with ⟨rfl, -⟩ | ⟨p, rfl, hword⟩
      · rfl
      · rw [readBoolean, skipBlanks_cons (by decide)]
        simp only [hword, readWord_cut hs]
        rfl

/-! ## Options -/

def optionDocument (document : α → Document) : Option α → Document
  | none => .null
  | some a => document a

section Options

variable {read : Reader α}

theorem readOption_eq_of_ne {c : Char} {s : List Char} (hc : isBlank c = false) (hn : c ≠ 'n') :
    readOption read (c :: s) = (read (c :: s)).map fun p => (some p.1, p.2) := by
  unfold readOption
  rw [skipBlanks_cons hc]
  split
  · rename_i heq
    exact absurd (List.cons.inj heq).1 hn
  · rfl

theorem awaits_option (h : Awaits read) : Awaits (readOption read) where
  blanks s hb := by
    unfold readOption
    rw [skipBlanks_append hb]
  nothing := by
    show (read []).map _ = _
    rw [h.nothing]
    rfl

theorem conveyed_none (h : Awaits read) : Conveyed (readOption read) none writeNull .null where
  awaits := awaits_option h
  laid := .null
  meets ht r _ := by
    cases ht with
    | null => rfl
  stops {p s} hcut hs := by
    rcases List.cons_eq_append_iff.1 hcut with ⟨rfl, -⟩ | ⟨p, rfl, hword⟩
    · exact .inl ⟨.value, (awaits_option h).nothing⟩
    · refine .inl ⟨.value, ?_⟩
      rw [readOption, skipBlanks_cons (by decide)]
      simp only [hword, readWord_cut hs]
      rfl

/-- What is there is read as such, as none of its texts starts like `null`. -/
theorem conveyed_some {a : α} {w : List Char} {d : Document} (h : Conveyed read a w d) (hd : d ≠ .null) :
    Conveyed (readOption read) (some a) w d where
  awaits := awaits_option h.awaits
  laid := h.laid
  meets ht r hr := by
    obtain ⟨c, s, rfl, hc, hn, -⟩ := ht.opens hd
    rw [List.cons_append, readOption_eq_of_ne hc hn]
    exact (h.meets ht r hr).map fun p => (some p.1, p.2)
  stops {p s} hcut hs := by
    cases p with
    | nil => exact .inl ⟨.value, (awaits_option h.awaits).nothing⟩
    | cons c p =>
      obtain ⟨c', w', rfl, hc, hn, -⟩ := h.laid.opens hd
      obtain ⟨rfl, -⟩ := List.cons.inj hcut
      rw [readOption_eq_of_ne hc hn]
      rcases h.stops hcut hs with ⟨what, hended⟩ | ⟨hi, a, hok⟩
      · exact .inl ⟨what, by rw [hended]; rfl⟩
      · exact .inr ⟨hi, some a, by rw [hok]; rfl⟩

/-- **What can be left out is read back too.** -/
theorem conveyed_option {write : α → List Char} {document : α → Document} (hread : Awaits read)
    (h : ∀ a, Conveyed read a (write a) (document a)) (hd : ∀ a, document a ≠ .null) (a : Option α) :
    Conveyed (readOption read) a (writeOption write a) (optionDocument document a) := by
  cases a with
  | none => exact conveyed_none hread
  | some a => exact conveyed_some (h a) (hd a)

end Options

/-! ## Rows as they are written -/

section Rows

variable {ι : Type} {Item : ι → List Char → Prop} {text : ι → List Char}

def others (parts : List (List Char)) : List Char := parts.flatMap fun part => ',' :: part

theorem commaSeparated_cons : ∀ (part : List Char) (parts : List (List Char)),
    commaSeparated (part :: parts) = part ++ others parts
  | part, [] => by simp [commaSeparated, others]
  | part, next :: parts => by
    rw [commaSeparated, commaSeparated_cons next parts]
    · simp [others]
    · nofun

theorem rest_others : ∀ {is : List ι}, (∀ i ∈ is, Item i (text i)) → Rest Item is (others (is.map text))
  | [], _ => .nil blanks_nil
  | i :: is, h => by
    have hrest := rest_others fun j hj => h j (List.mem_cons_of_mem i hj)
    exact .cons blanks_nil blanks_nil (h i List.mem_cons_self) hrest

theorem series_commaSeparated (text : ι → List Char) : ∀ {is : List ι}, (∀ i ∈ is, Item i (text i)) →
    Series Item is (commaSeparated (is.map text))
  | [], _ => .nil blanks_nil
  | i :: is, h => by
    rw [List.map_cons, commaSeparated_cons]
    exact .cons blanks_nil (h i List.mem_cons_self) (rest_others fun j hj => h j (List.mem_cons_of_mem i hj))

theorem isMember_writeMember (name : String) (w : List Char) : IsMember (name, w) (writeMember name w) :=
  ⟨_, [], [], quotes_writeString name, blanks_nil, blanks_nil, rfl⟩

/-- The members of an object as they are written. -/
theorem series_writeMember (member : ι → String × List Char) (is : List ι) :
    Series (fun i => IsMember (member i)) is (commaSeparated (is.map fun i => writeMember (member i).1 (member i).2)) :=
  series_commaSeparated _ fun i _ => isMember_writeMember (member i).1 (member i).2

/-- What begins in a row of others and goes on to an end. -/
theorem ends_of_cut {parts : List (List Char)} {c : Char} (hc : isEnd c = true) {p s : List Char}
    (h : others parts ++ [c] = p ++ s) : Ends p := by
  cases p with
  | nil => exact ends_nil
  | cons d p =>
    refine ends_cons ?_
    cases parts with
    | nil =>
      obtain ⟨rfl, -⟩ := List.cons.inj h
      exact hc
    | cons part parts =>
      obtain ⟨rfl, -⟩ := List.cons.inj h
      decide

end Rows

end Holarchy.Json
