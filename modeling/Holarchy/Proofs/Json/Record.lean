import Holarchy.Proofs.Json.Member
import Holarchy.Proofs.Json.Skipping
/-!
# Records are read back

Each field of a record has a slot of its own, so the order in which they come does not matter.  A member that is no
field is passed over, a field that comes again is a flaw, and so is one that is missing when all has been read.
-/
namespace Holarchy.Json

variable {α β : Type}

/-- A field of a record with what it holds: the document, and the text that is written. -/
structure Held where
  name : String
  presence : Presence
  document : Document
  text : List Char

namespace Held

def member (e : Held) : String × List Char := (e.name, e.text)

def field (e : Held) : String × Presence × Document := (e.name, e.presence, e.document)

def piece (e : Held) : String × Piece := (e.name, .laid ⟨e.document, true, e.text⟩)

end Held

/-- What a field is taken to be when it is left out: nothing if it is required, and its value if it is `null`. -/
def Absence (absent : Option α) (a : α) (d : Document) : Presence → Prop
  | .required => absent = none
  | .optional => d = .null → absent = some a

namespace Fields

variable {αs : List Type}

/-- The fields of a record with their values and what they hold. -/
inductive Documented : {αs : List Type} → Fields αs → Values αs → List Held → Prop where
  | nil : Documented .nil () []
  | cons {α : Type} {αs : List Type} {read : Reader α} {absent : Option α} {more : Fields αs} {a : α} {vs : Values αs}
    {e : Held} {es : List Held} : Conveyed read a e.text e.document → Absence absent a e.document e.presence →
    Documented more vs es → Documented (.cons e.name read absent more) (a, vs) (e :: es)

/-- The slots of a record once the fields with some names have been read. -/
def slotsOf : {αs : List Type} → Fields αs → Values αs → List String → Slots αs
  | _, .nil, _, _ => ()
  | _, .cons name _ _ more, (a, vs), seen => (if name ∈ seen then some a else none, more.slotsOf vs seen)

theorem slotsOf_nil : ∀ {αs : List Type} (fields : Fields αs) (vs : Values αs), fields.slotsOf vs [] = Slots.empty αs
  | _, .nil, _ => rfl
  | _, .cons _ _ _ more, (_, vs) => by rw [slotsOf, slotsOf_nil more vs]; rfl

theorem slotsOf_cons_of_not_mem {name : String} {seen : List String} : ∀ {αs : List Type} {fields : Fields αs}
    (vs : Values αs), name ∉ fields.names → fields.slotsOf vs (name :: seen) = fields.slotsOf vs seen
  | _, .nil, _, _ => rfl
  | _, .cons key _ _ more, (a, vs), hname => by
    obtain ⟨hkey, hmore⟩ := not_or.1 (mt List.mem_cons.2 hname)
    have hseen : key ∈ name :: seen ↔ key ∈ seen := by simp [Ne.symm hkey]
    rw [slotsOf, slotsOf, slotsOf_cons_of_not_mem vs hmore, if_congr hseen rfl rfl]

theorem Documented.required {read : Reader α} {name : String} {more : Fields αs} {a : α} {vs : Values αs}
    {es : List Held} {w : List Char} {d : Document} (h : Conveyed read a w d) (hmore : more.Documented vs es) :
    (Fields.required name read more).Documented (a, vs) (⟨name, .required, d, w⟩ :: es) :=
  .cons (e := ⟨name, .required, d, w⟩) h rfl hmore

theorem optionDocument_eq_null {document : α → Document} (hd : ∀ a, document a ≠ .null) :
    ∀ {a : Option α}, optionDocument document a = .null → none = a
  | none, _ => rfl
  | some a, h => absurd h (hd a)

theorem Documented.optional {read : Reader α} {write : α → List Char} {document : α → Document} {name : String}
    {more : Fields αs} {vs : Values αs} {es : List Held} (hread : Awaits read)
    (h : ∀ a, Conveyed read a (write a) (document a)) (hd : ∀ a, document a ≠ .null) (a : Option α)
    (hmore : more.Documented vs es) : (Fields.optional name read more).Documented (a, vs)
      (⟨name, .optional, optionDocument document a, writeOption write a⟩ :: es) :=
  .cons (e := ⟨name, .optional, optionDocument document a, writeOption write a⟩) (conveyed_option hread h hd a)
    (fun hnull => congrArg some (optionDocument_eq_null hd hnull)) hmore

theorem Documented.laid {fields : Fields αs} {vs : Values αs} {es : List Held} (h : fields.Documented vs es) :
    ∀ e ∈ es, Lays e.document true e.text := by
  induction h with
  | nil => exact nofun
  | cons hconveyed _ _ ih => exact List.forall_mem_cons.2 ⟨hconveyed.laid, ih⟩

theorem Documented.names_eq {fields : Fields αs} {vs : Values αs} {es : List Held} (h : fields.Documented vs es) :
    fields.names = es.map Held.name := by
  induction h with
  | nil => rfl
  | cons _ _ _ ih => rw [List.map_cons, ← ih]; rfl

theorem readMember_cons_of_ne {name key : String} {read : Reader α} {absent : Option α} {more : Fields αs}
    (hkey : key ≠ name) (slot : Option α) (slots : Slots αs) (s : List Char) :
    (Fields.cons name read absent more).readMember (slot, slots) key s
      = (more.readMember slots key s).map fun p => ((slot, p.1), p.2) := by
  simp only [readMember, readMember?, if_neg hkey]
  cases more.readMember? slots key s with
  | some outcome => rfl
  | none =>
    simp only [Option.map_none]
    cases readColon s with
    | error e => rfl
    | ok r =>
      simp only
      cases passValue r <;> rfl

/-- Another field in front does not matter to a member. -/
theorem gathered_cons {name : String} {read : Reader α} {absent : Option α} {more : Fields αs} {g g' : Slots αs}
    {m : String × List Char} {d : Document} (h : Gathered more.readMember g m d g') (hname : m.1 ≠ name)
    (slot : Option α) : Gathered (Fields.cons name read absent more).readMember (slot, g) m d (slot, g') where
  takes ht b b' r hb hb' hr := by
    rw [readMember_cons_of_ne hname]
    exact (h.takes ht r hb hb' hr).map fun p => ((slot, p.1), p.2)
  stops hcut hs := by
    rw [readMember_cons_of_ne hname]
    rcases h.stops hcut hs with ⟨what, hended⟩ | ⟨g'', hok⟩
    · exact .inl ⟨what, by rw [hended]; rfl⟩
    · exact .inr ⟨(slot, g''), by rw [hok]; rfl⟩

/-- A field that has not been read fills its slot. -/
theorem gathered_field {fields : Fields αs} {vs : Values αs} {es : List Held} {e : Held} {seen : List String}
    (h : fields.Documented vs es) : fields.names.Nodup → e ∈ es → e.name ∉ seen →
      Gathered fields.readMember (fields.slotsOf vs seen) e.member e.document (fields.slotsOf vs (e.name :: seen)) := by
  induction h with
  | nil => exact fun _ => nofun
  | @cons α αs read absent more a vs e' es hconveyed _ hmore ih =>
    intro hnames he hseen
    obtain ⟨hfirst, hnames⟩ := List.nodup_cons.1 hnames
    rcases List.mem_cons.1 he with rfl | he
    · simp only [slotsOf, slotsOf_cons_of_not_mem vs hfirst, if_neg hseen, List.mem_cons_self, if_pos]
      refine hconveyed.gathered (fun a => (some a, more.slotsOf vs seen)) fun s => ?_
      simp only [readMember, readMember?, if_pos]
      rfl
    · have hne : e.name ≠ e'.name := by
        intro heq
        exact hfirst (heq ▸ hmore.names_eq ▸ List.mem_map_of_mem he)
      have hslot : e'.name ∈ e.name :: seen ↔ e'.name ∈ seen := by simp [hne.symm]
      simp only [slotsOf, hslot]
      exact gathered_cons (ih hnames he hseen) hne _

/-- A field that has been read is not read again. -/
theorem readMember_duplicate {name : String} {seen : List String} (hseen : name ∈ seen) : ∀ {αs : List Type}
    {fields : Fields αs} (vs : Values αs) (s : List Char), name ∈ fields.names →
      fields.readMember (fields.slotsOf vs seen) name s = .error (.misshapen (.duplicate name) s false)
  | _, .nil, _, _, hname => by cases hname
  | _, .cons key read absent more, (a, vs), s, hname => by
    by_cases hkey : name = key
    · subst hkey
      simp only [slotsOf, if_pos hseen, readMember, readMember?, if_pos]
    · have hmore : name ∈ more.names := (List.mem_cons.1 hname).resolve_left hkey
      simp only [slotsOf]
      rw [readMember_cons_of_ne hkey, readMember_duplicate hseen vs s hmore]
      rfl

/-- A member that is no field is passed over. -/
theorem readMember_stranger {name : String} : ∀ {αs : List Type} {fields : Fields αs} (slots : Slots αs)
    (s : List Char), name ∉ fields.names → fields.readMember slots name s =
      match readColon s with
      | .error e => .error e
      | .ok r => (passValue r).map fun r => (slots, r)
  | _, .nil, _, _, _ => rfl
  | _, .cons key read absent more, (slot, slots), s, hname => by
    obtain ⟨hkey, hmore⟩ := not_or.1 (mt List.mem_cons.2 hname)
    rw [readMember_cons_of_ne hkey, readMember_stranger slots s hmore]
    cases readColon s with
    | error e => rfl
    | ok r => simp only; cases passValue r <;> rfl

/-- A field that comes again is a flaw, whatever it holds. -/
theorem takes_duplicate {fields : Fields αs} {vs : Values αs} {name : String} {seen : List String}
    (hname : name ∈ fields.names) (hseen : name ∈ seen) (w : List Char) (g : Slots αs) :
    Takes fields.readMember (fields.slotsOf vs seen) (name, w) false g := by
  intro b b' r _ _ _
  rw [readMember_duplicate hseen vs _ hname]
  exact meets_error (.duplicate name) _ _ _

theorem takes_stranger {fields : Fields αs} {name : String} {w : List Char} (hw : WellFormed w)
    (hname : name ∉ fields.names) (slots : Slots αs) : Takes fields.readMember slots (name, w) true slots := by
  intro b b' r hb hb' hr
  rw [readMember_stranger slots _ hname, readColon_append hb]
  simp only [passValue_append hw hb' hr]
  exact rfl

/-- Whether no field comes twice, or again behind those that have been seen, and none has a flaw in it. -/
def sound (names : List String) : List String → List (String × Piece) → Bool
  | _, [] => true
  | seen, (name, piece) :: pieces =>
    decide (name ∈ names → name ∉ seen ∧ piece.whole = true) && sound names (name :: seen) pieces

theorem sound_iff {names : List String} : ∀ {seen : List String} {pieces : List (String × Piece)},
    sound names seen pieces = true ↔ ((pieces.map Prod.fst).filter fun name => name ∈ names).Nodup ∧
      (∀ p ∈ pieces, p.1 ∈ names → p.1 ∉ seen) ∧ ∀ p ∈ pieces, p.1 ∈ names → p.2.whole = true
  | seen, [] => by simp [sound]
  | seen, (name, piece) :: pieces => by
    rw [sound, Bool.and_eq_true, decide_eq_true_eq, sound_iff, List.map_cons, List.forall_mem_cons,
      List.forall_mem_cons]
    by_cases hname : name ∈ names
    · have hfresh : (∀ p ∈ pieces, p.1 ∈ names → p.1 ∉ name :: seen) ↔
          name ∉ (pieces.map Prod.fst).filter (fun name => name ∈ names) ∧ ∀ p ∈ pieces, p.1 ∈ names → p.1 ∉ seen := by
        simp only [List.mem_filter, List.mem_map, List.mem_cons, not_or, decide_eq_true_eq, not_and]
        constructor
        · refine fun h => ⟨?_, fun p hp hin => (h p hp hin).2⟩
          rintro ⟨p, hp, rfl⟩ hin
          exact (h p hp hin).1 rfl
        · exact fun h p hp hin => ⟨fun heq => h.1 ⟨p, hp, heq⟩ hname, h.2 p hp hin⟩
      rw [List.filter_cons_of_pos (by simpa using hname), List.nodup_cons, hfresh]
      simp only [hname, forall_const]
      tauto
    · have hfresh : (∀ p ∈ pieces, p.1 ∈ names → p.1 ∉ name :: seen) ↔ ∀ p ∈ pieces, p.1 ∈ names → p.1 ∉ seen := by
        refine forall₃_congr fun p _ hin => ?_
        have hne : p.1 ≠ name := by rintro rfl; exact hname hin
        simp [hne]
      rw [List.filter_cons_of_neg (by simpa using hname), hfresh]
      simp only [hname, false_imp_iff, true_and]

/-- A field that is laid out has its slot filled, one that comes again is a flaw, and nothing else leaves a mark. -/
theorem takes_piece {fields : Fields αs} {vs : Values αs} {es : List Held} (h : fields.Documented vs es)
    (hnames : fields.names.Nodup) {seen : List String} {name : String} {piece : Piece}
    (hlays : ∀ p, piece = .laid p → Lays p.document p.whole p.text)
    (hknown : ∀ p, piece = .laid p → ∃ e ∈ es, e.name = name ∧ e.document = p.document)
    (hloose : ∀ w, piece = .loose w → WellFormed w ∧ (name ∈ fields.names → name ∈ seen)) :
    Takes fields.readMember (fields.slotsOf vs seen) (name, piece.text)
      (decide (name ∈ fields.names → name ∉ seen ∧ piece.whole = true)) (fields.slotsOf vs (name :: seen)) := by
  intro b b' r hb hb' hr
  cases piece with
  | laid p =>
    obtain ⟨e, he, rfl, hdocument⟩ := hknown p rfl
    have hname : e.name ∈ fields.names := h.names_eq ▸ List.mem_map_of_mem he
    by_cases hseen : e.name ∈ seen
    · have hflaw : decide (e.name ∈ fields.names → e.name ∉ seen ∧ (Piece.laid p).whole = true) = false := by
        simp [hname, hseen]
      rw [hflaw]
      exact takes_duplicate hname hseen _ _ r hb hb' hr
    · have hwhole : decide (e.name ∈ fields.names → e.name ∉ seen ∧ (Piece.laid p).whole = true) = p.whole := by
        simp [hname, hseen, Piece.whole]
      rw [hwhole]
      exact (gathered_field h hnames he hseen).takes (hdocument ▸ hlays p rfl) r hb hb' hr
  | loose w =>
    obtain ⟨hw, hagain⟩ := hloose w rfl
    by_cases hname : name ∈ fields.names
    · have hflaw : decide (name ∈ fields.names → name ∉ seen ∧ (Piece.loose w).whole = true) = false := by
        simp [hname, hagain hname]
      rw [hflaw]
      exact takes_duplicate hname (hagain hname) _ _ r hb hb' hr
    · have hwhole : decide (name ∈ fields.names → name ∉ seen ∧ (Piece.loose w).whole = true) = true := by simp [hname]
      rw [hwhole, slotsOf_cons_of_not_mem vs hname]
      exact takes_stranger hw hname _ r hb hb' hr

/-- **The members of a record fill its slots, in whatever order they come.** -/
theorem gathers_pieces {fields : Fields αs} {vs : Values αs} {es : List Held} (h : fields.Documented vs es)
    (hnames : fields.names.Nodup) : ∀ (seen : List String) {pieces : List (String × Piece)},
      (∀ name p, (name, .laid p) ∈ pieces → Lays p.document p.whole p.text) →
      (∀ name p, (name, .laid p) ∈ pieces → ∃ presence, (name, presence, p.document) ∈ es.map Held.field) →
      (∀ before name w after, pieces = before ++ (name, .loose w) :: after →
        WellFormed w ∧ (name ∈ fields.names → name ∈ before.map Prod.fst ∨ name ∈ seen)) →
      Gathers fields.readMember (fun p => (p.1, p.2.text)) (fields.slotsOf vs seen) pieces
        (sound fields.names seen pieces) (fields.slotsOf vs ((pieces.map Prod.fst).reverseAux seen))
  | seen, [], _, _, _ => .nil _
  | seen, (name, piece) :: pieces, hlays, hknown, hloose => by
    refine .cons (takes_piece h hnames ?laid ?field ?stray) (gathers_pieces h hnames (name :: seen)
      (fun name p hp => hlays name p (List.mem_cons_of_mem _ hp))
      (fun name p hp => hknown name p (List.mem_cons_of_mem _ hp)) ?behind)
    case laid =>
      rintro p rfl
      exact hlays name p List.mem_cons_self
    case field =>
      rintro p rfl
      obtain ⟨presence, hp⟩ := hknown name p List.mem_cons_self
      obtain ⟨e, he, heq⟩ := List.mem_map.1 hp
      obtain ⟨hname, hrest⟩ := Prod.mk.inj heq
      exact ⟨e, he, hname, (Prod.mk.inj hrest).2⟩
    case stray =>
      rintro w rfl
      obtain ⟨hw, hkey⟩ := hloose [] name w pieces rfl
      exact ⟨hw, fun hname => (hkey hname).resolve_left List.not_mem_nil⟩
    case behind =>
      intro before key w after hpieces
      obtain ⟨hw, hkey⟩ := hloose ((name, piece) :: before) key w after (by rw [hpieces]; rfl)
      refine ⟨hw, fun hin => ?_⟩
      rcases hkey hin with hkey | hkey
      · exact (List.mem_cons.1 hkey).elim (fun heq => .inr (heq ▸ List.mem_cons_self)) .inl
      · exact .inr (List.mem_cons_of_mem _ hkey)

theorem complete_of_present {fields : Fields αs} {vs : Values αs} {es : List Held} {seen : List String}
    (h : fields.Documented vs es) :
    (∀ e ∈ es, e.name ∉ seen → e.presence = .optional ∧ e.document = .null) →
      fields.complete (fields.slotsOf vs seen) = .ok vs := by
  induction h with
  | nil => exact fun _ => rfl
  | @cons α αs read absent more a vs e es _ habsence _ ih =>
    intro hpresent
    obtain ⟨hhere, hmore⟩ := List.forall_mem_cons.1 hpresent
    have hvalue : ((if e.name ∈ seen then some a else none) <|> absent) = some a := by
      by_cases hseen : e.name ∈ seen
      · simp [hseen]
      · obtain ⟨hpresence, hnull⟩ := hhere hseen
        rw [hpresence] at habsence
        simp [hseen, habsence hnull]
    simp only [slotsOf, complete, hvalue, ih hmore]
    rfl

theorem complete_of_missing {fields : Fields αs} {vs : Values αs} {es : List Held} {seen : List String} {e : Held}
    (h : fields.Documented vs es) : e ∈ es → e.presence = .required → e.name ∉ seen →
      ∃ name, fields.complete (fields.slotsOf vs seen) = .error name := by
  induction h with
  | nil => exact nofun
  | @cons α αs read absent more a vs e' es _ habsence _ ih =>
    intro he hpresence hseen
    simp only [slotsOf, complete]
    cases hvalue : ((if e'.name ∈ seen then some a else none) <|> absent) with
    | none => exact ⟨e'.name, rfl⟩
    | some a' =>
      rcases List.mem_cons.1 he with rfl | he
      · rw [hpresence] at habsence
        rw [if_neg hseen, show absent = none from habsence] at hvalue
        cases hvalue
      · obtain ⟨name, hmissing⟩ := ih he hpresence hseen
        exact ⟨name, by rw [hmissing]; rfl⟩

end Fields

theorem Lays.exists_pieces {fs : List (String × Presence × Document)} {whole : Bool} {t : List Char}
    (h : Lays (.record fs) whole t) :
    ∃ (pieces : List (String × Piece)) (t' : List Char),
      (∀ name p, (name, .laid p) ∈ pieces → Lays p.document p.whole p.text) ∧ Arranged fs pieces ∧
      (whole = true ↔ Faultless fs pieces) ∧ Series (fun p => IsMember (p.1, p.2.text)) pieces t' ∧
      t = '\x7b' :: (t' ++ ['\x7d']) := by
  cases h with
  | record hlays harranged hfaultless hrow => exact ⟨_, _, hlays, harranged, iff_of_true rfl hfaultless, hrow, rfl⟩
  | flawed hlays harranged hflawed hrow =>
    exact ⟨_, _, hlays, harranged, iff_of_false Bool.false_ne_true hflawed, hrow, rfl⟩

section Records

variable {αs : List Type} {fields : Fields αs} {vs : Values αs} {es : List Held} {make : Values αs → β}

theorem awaits_record : Awaits (fields.read make) where
  blanks s hb := by rw [Fields.read, Fields.read, skipBlanks_append hb]
  nothing := rfl

/-- What comes of the members of a record once they have been read: it is without a flaw if they were and none of its
fields is missing. -/
theorem complete_pieces (h : fields.Documented vs es) {pieces : List (String × Piece)} {whole : Bool}
    (harranged : Arranged (es.map Held.field) pieces) (hwhole : whole = true ↔ Faultless (es.map Held.field) pieces)
    (hsound : Fields.sound fields.names [] pieces = true) :
    whole = true ∧ fields.complete (fields.slotsOf vs ((pieces.map Prod.fst).reverseAux [])) = .ok vs ∨
      whole = false ∧
        ∃ name, fields.complete (fields.slotsOf vs ((pieces.map Prod.fst).reverseAux [])) = .error name := by
  obtain ⟨honce, -, hlaid⟩ := Fields.sound_iff.1 hsound
  have hnames : (es.map Held.field).map Prod.fst = fields.names := by rw [h.names_eq, List.map_map]; rfl
  have hseen (name : String) : name ∈ (pieces.map Prod.fst).reverseAux [] ↔ name ∈ pieces.map Prod.fst := by
    rw [List.reverseAux_eq, List.append_nil, List.mem_reverse]
  by_cases hthere : ∀ name d, (name, Presence.required, d) ∈ es.map Held.field → name ∈ pieces.map Prod.fst
  · refine .inl ⟨hwhole.2 ⟨by rwa [hnames], hthere, fun name p hp => ?_⟩,
      Fields.complete_of_present h fun e he hmissing => ?_⟩
    · obtain ⟨presence, hfield⟩ := harranged.known name p hp
      exact hlaid _ hp (hnames ▸ List.mem_map_of_mem hfield)
    · have hfield : (e.name, e.presence, e.document) ∈ es.map Held.field := List.mem_map_of_mem he
      rw [hseen] at hmissing
      cases hpresence : e.presence with
      | required => exact absurd (hthere e.name e.document (hpresence ▸ hfield)) hmissing
      | optional => exact ⟨rfl, harranged.absent e.name e.document (hpresence ▸ hfield) hmissing⟩
  · refine .inr ⟨Bool.eq_false_iff.2 fun htrue => hthere (hwhole.1 htrue).there, ?_⟩
    simp only [not_forall] at hthere
    obtain ⟨name, d, hfield, hmissing⟩ := hthere
    obtain ⟨e, he, heq⟩ := List.mem_map.1 hfield
    obtain ⟨rfl, hpresence, -⟩ : e.name = name ∧ e.presence = .required ∧ e.document = d := by
      simpa [Held.field] using heq
    exact Fields.complete_of_missing h he hpresence (mt (hseen e.name).1 hmissing)

theorem sound_of_faultless (hfields : (es.map Held.field).map Prod.fst = fields.names) {pieces : List (String × Piece)}
    (h : Faultless (es.map Held.field) pieces) : Fields.sound fields.names [] pieces = true := by
  refine Fields.sound_iff.2 ⟨by rw [← hfields]; exact h.once, fun _ _ _ => nofun, fun p hp _ => ?_⟩
  obtain ⟨name, part | w⟩ := p
  · exact h.whole name part hp
  · rfl

theorem meets_named (h : fields.Documented vs es) (hnames : fields.names.Nodup) {pieces : List (String × Piece)}
    {whole : Bool} {t : List Char} (hlays : ∀ name p, (name, .laid p) ∈ pieces → Lays p.document p.whole p.text)
    (harranged : Arranged (es.map Held.field) pieces) (hwhole : whole = true ↔ Faultless (es.map Held.field) pieces)
    (hrow : Series (fun p => IsMember (p.1, p.2.text)) pieces t) (r : List Char) :
    Meets (fields.readNamed (t ++ '\x7d' :: r)) whole (vs, r) := by
  have hfields : (es.map Held.field).map Prod.fst = fields.names := by rw [h.names_eq, List.map_map]; rfl
  have hg := Fields.gathers_pieces h hnames [] hlays harranged.known fun before name w after hpieces =>
    (harranged.loose before name w after hpieces).imp_right fun hloose hin => .inl (hloose (hfields ▸ hin))
  rw [Fields.slotsOf_nil] at hg
  refine Meets.settle ?_ objectEnd
  obtain ⟨b, hb, hmeets⟩ := meets_members hrow hg r
  rcases hmeets.cases with ⟨hsound, hok⟩ | ⟨hsound, mismatch, rest, settled, hm, herror⟩
  · rw [hok]
    rcases complete_pieces h harranged hwhole hsound with ⟨rfl, hcomplete⟩ | ⟨rfl, name, hmissing⟩
    · simp only [hcomplete, closeObject_end hb]
      exact rfl
    · simp only [hmissing]
      exact meets_error (.missing name) _ _ _
  · have hflawed : whole = false := by
      refine Bool.eq_false_iff.2 fun htrue => ?_
      rw [sound_of_faultless hfields (hwhole.1 htrue)] at hsound
      cases hsound
    rw [herror, hflawed]
    exact meets_error hm rest settled _

/-- **A record is read back from every text of it, whatever follows**, and a flaw in one is found. -/
theorem meets_record (h : fields.Documented vs es) (hnames : fields.names.Nodup) {whole : Bool} {t : List Char}
    (ht : Lays (.record (es.map Held.field)) whole t) (r : List Char) :
    Meets (fields.read make (t ++ r)) whole (make vs, r) := by
  obtain ⟨pieces, t, hlays, harranged, hwhole, hrow, rfl⟩ := ht.exists_pieces
  have hnamed := meets_named h hnames hlays harranged hwhole hrow r
  have htext : '\x7b' :: (t ++ ['\x7d']) ++ r = '\x7b' :: (t ++ '\x7d' :: r) := by simp
  rw [htext, Fields.read, skipBlanks_cons (by decide)]
  exact hnamed.map fun p : Values αs × List Char => (make p.1, p.2)

theorem chain_fields (h : fields.Documented vs es) (hnames : fields.names.Nodup) :
    ∀ (seen : List String) {later : List Held}, (∀ e ∈ later, e ∈ es ∧ e.name ∉ seen) → (later.map Held.name).Nodup →
      Chain fields.readMember (fields.slotsOf vs seen) (later.map Held.member)
  | _, [], _, _ => .nil _
  | seen, e :: later, hlater, hnodup => by
    obtain ⟨⟨he, hseen⟩, hlater⟩ := List.forall_mem_cons.1 hlater
    obtain ⟨hfirst, hnodup⟩ := List.nodup_cons.1 hnodup
    refine .cons (Fields.gathered_field h hnames he hseen) (h.laid e he)
      (chain_fields h hnames (e.name :: seen) ?_ hnodup)
    intro e' he'
    refine ⟨(hlater e' he').1, List.not_mem_cons_of_ne_of_not_mem (fun heq => hfirst ?_) (hlater e' he').2⟩
    exact heq ▸ List.mem_map_of_mem he'

theorem record_cut (h : fields.Documented vs es) (hnames : fields.names.Nodup) {p s : List Char}
    (hcut : writeObject (es.map Held.member) = p ++ s) (hs : s ≠ []) : BreaksOff (fields.read make p) := by
  have hchain : Chain fields.readMember (fields.slotsOf vs []) (es.map Held.member) :=
    chain_fields h hnames [] (fun e he => ⟨he, nofun⟩) (h.names_eq ▸ hnames)
  rw [Fields.slotsOf_nil] at hchain
  rcases List.cons_eq_append_iff.1 hcut with ⟨rfl, -⟩ | ⟨p, rfl, hmembers⟩
  · exact ⟨.value, rfl⟩
  obtain ⟨what, hended⟩ : BreaksOff (readMembers fields.readMember (p.length + 1) true (Slots.empty αs) p) :=
    readMembers_cut hchain hmembers hs
  refine ⟨what, ?_⟩
  rw [Fields.read, skipBlanks_cons (by decide)]
  simp only [readAs, Fields.readNamed, hended]
  rfl

/-- A record as it is written has all its fields in order. -/
theorem lays_record (h : fields.Documented vs es) (hnames : fields.names.Nodup) :
    Lays (.record (es.map Held.field)) true (writeObject (es.map Held.member)) := by
  have hpieces : (es.map Held.piece).map Prod.fst = fields.names := by rw [h.names_eq, List.map_map]; rfl
  have hfields : (es.map Held.field).map Prod.fst = fields.names := by rw [h.names_eq, List.map_map]; rfl
  have hrow := series_writeMember (fun p : String × Piece => (p.1, p.2.text)) (es.map Held.piece)
  rw [List.map_map] at hrow
  rw [writeObject, List.map_map]
  refine .record ?_ ?_ ?_ hrow
  · intro name p hp
    obtain ⟨e, he, heq⟩ := List.mem_map.1 hp
    cases heq
    exact h.laid e he
  · refine ⟨fun name p hp => ?_, fun before name w after heq => ?_, fun name d hfield hmissing => ?_⟩
    · obtain ⟨e, he, heq⟩ := List.mem_map.1 hp
      cases heq
      exact ⟨e.presence, List.mem_map_of_mem he⟩
    · have hloose : (name, Piece.loose w) ∈ es.map Held.piece := by simp [heq]
      obtain ⟨e, -, heq⟩ := List.mem_map.1 hloose
      cases heq
    · rw [hpieces, ← hfields] at hmissing
      exact absurd (List.mem_map_of_mem hfield) hmissing
  · refine ⟨?_, fun name d hfield => ?_, fun name p hp => ?_⟩
    · rw [hpieces]
      exact hnames.filter _
    · rw [hpieces, ← hfields]
      exact List.mem_map_of_mem hfield
    · obtain ⟨e, -, heq⟩ := List.mem_map.1 hp
      cases heq
      rfl

/-- What is conveyed in braces: what follows does not matter, and where it breaks off there is nothing but an end. -/
structure Enclosed (read : Reader β) (b : β) (w : List Char) (d : Document) : Prop where
  laid : Lays d true w
  braces : ∀ {whole : Bool} {t : List Char}, Lays d whole t → ∃ t', t = '\x7b' :: (t' ++ ['\x7d'])
  meets : ∀ {whole : Bool} {t : List Char}, Lays d whole t → ∀ r, Meets (read (t ++ r)) whole (b, r)
  stops : ∀ {p s : List Char}, w = p ++ s → s ≠ [] → BreaksOff (read p)

theorem enclosed_record {b : β} {w : List Char} {d : Document} (h : fields.Documented vs es)
    (hnames : fields.names.Nodup) (hb : make vs = b) (hw : writeObject (es.map Held.member) = w)
    (hd : .record (es.map Held.field) = d) : Enclosed (fields.read make) b w d := by
  subst hb hw hd
  exact
    { laid := lays_record h hnames
      braces := fun ht => by
        obtain ⟨_, t', -, -, -, -, rfl⟩ := ht.exists_pieces
        exact ⟨t', rfl⟩
      meets := fun ht r => meets_record h hnames ht r
      stops := fun hcut hs => record_cut h hnames hcut hs }

/-- **A record is read back from an object with its fields.** -/
theorem conveyed_record {b : β} {w : List Char} {d : Document} (h : fields.Documented vs es)
    (hnames : fields.names.Nodup) (hb : make vs = b) (hw : writeObject (es.map Held.member) = w)
    (hd : .record (es.map Held.field) = d) : Conveyed (fields.read make) b w d :=
  have henclosed := enclosed_record h hnames hb hw hd
  { awaits := awaits_record
    laid := henclosed.laid
    meets := fun ht r _ => henclosed.meets ht r
    stops := fun hcut hs => .inl (henclosed.stops hcut hs) }

end Records

end Holarchy.Json
