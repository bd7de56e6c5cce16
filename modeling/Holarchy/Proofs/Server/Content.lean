import Mathlib.Data.List.Forall2
import Holarchy.Proofs.Json.Rows
import Holarchy.Proofs.Server.Effects
/-!
# What a file describes

A file describes a list of holons, one for each of its rows: a row names properties, and what a cell denotes is the
value under its name.  `FileData.described` is what a server reads off a file, and it is just that.
-/
namespace Holarchy

open Json

section Traversal

variable {α β : Type} {f : α → Except Refusal β}

theorem mapM_eq_ok_iff {as : List α} {bs : List β} :
    as.mapM f = .ok bs ↔ List.Forall₂ (fun a b => f a = .ok b) as bs := by
  induction as generalizing bs with
  | nil =>
    rw [List.mapM_nil, List.forall₂_nil_left_iff]
    exact ⟨fun h => (Except.ok.inj h).symm, fun h => h ▸ rfl⟩
  | cons a as ih =>
    rw [List.mapM_cons, List.forall₂_cons_left_iff]
    constructor
    · intro h
      obtain ⟨b, hb, h⟩ := exists_of_bind_eq_ok h
      obtain ⟨rest, hrest, h⟩ := exists_of_bind_eq_ok h
      cases h
      exact ⟨b, rest, hb, ih.1 hrest, rfl⟩
    · rintro ⟨b, rest, hb, hrest, rfl⟩
      rw [hb, ih.2 hrest]
      rfl

/-- A traversal is refused for one of what it goes through. -/
theorem exists_of_mapM_eq_error {as : List α} {e : Refusal} (h : as.mapM f = .error e) :
    ∃ a ∈ as, f a = .error e := by
  induction as with
  | nil => cases h
  | cons a as ih =>
    rw [List.mapM_cons] at h
    cases ha : f a with
    | error e' =>
      rw [ha] at h
      cases h
      exact ⟨a, List.mem_cons_self, ha⟩
    | ok b =>
      cases hrest : as.mapM f with
      | error e' =>
        rw [ha, hrest] at h
        cases h
        obtain ⟨a', hmem, ha'⟩ := ih hrest
        exact ⟨a', List.mem_cons_of_mem _ hmem, ha'⟩
      | ok bs =>
        rw [ha, hrest] at h
        cases h

theorem exists_mapM_eq_ok_iff {as : List α} : (∃ bs, as.mapM f = .ok bs) ↔ ∀ a ∈ as, ∃ b, f a = .ok b := by
  constructor
  · rintro ⟨bs, h⟩
    have hboth : List.Forall₂ (fun a b => (∃ b, f a = .ok b) ∧ f a = .ok b) as bs :=
      (mapM_eq_ok_iff.1 h).imp fun a b hb => ⟨⟨b, hb⟩, hb⟩
    exact ((List.forall₂_and_left _ _).1 hboth).1
  · intro h
    cases hmap : as.mapM f with
    | ok bs => exact ⟨bs, rfl⟩
    | error e =>
      obtain ⟨a, hmem, ha⟩ := exists_of_mapM_eq_error hmap
      obtain ⟨b, hb⟩ := h a hmem
      rw [ha] at hb
      cases hb

end Traversal

/-- What a cell is as the value of a property.  A list and an object are none, and a numeral is one only if it is
written as a whole number of 64 bits. -/
inductive Json.Cell.Denotes : Cell → Option Value → Prop where
  | null : Denotes .null none
  | boolean (b : Bool) : Denotes (.boolean b) (some (.boolean b))
  | string (s : String) : Denotes (.string s) (some (.string s))
  | integer {n : Numeral} {number : Number} {reads : n.number? = some number} {i : Int64} :
    n.Writes i → Denotes (.numeral n number reads) (some (.integer i))

/-- The members of an object as they are written. -/
abbrev Json.Row := List (String × Cell)

/-- A row describes properties with its names and no others, each with what the last cell under it denotes. -/
def Json.Row.Describes (row : Row) (properties : PropertyMap) : Prop :=
  ∀ name, Option.Rel Cell.Denotes (lastValue? row name) (properties.get? ⟨name⟩)

theorem Json.Cell.Denotes.unique {cell : Cell} {v w : Option Value} (h : cell.Denotes v) (h' : cell.Denotes w) :
    v = w := by
  cases h with
  | integer hwrites =>
    cases h' with
    | integer hwrites' => rw [Int64.toInt_inj.1 (hwrites.signed.symm.trans hwrites'.signed)]
  | _ => cases h'; rfl

theorem Json.Row.Describes.unique {row : Row} {properties other : PropertyMap} (h : row.Describes properties)
    (h' : row.Describes other) : properties = other := by
  refine SortedMap.ext_get? fun ⟨name⟩ => ?_
  have hname := h name
  have hname' := h' name
  generalize lastValue? row name = cell? at hname hname'
  generalize properties.get? ⟨name⟩ = v? at hname ⊢
  generalize other.get? ⟨name⟩ = w? at hname' ⊢
  cases hname with
  | none => cases hname'; rfl
  | some hdenotes => cases hname' with | some hdenotes' => rw [hdenotes.unique hdenotes']

theorem Json.Row.Describes.denotes {row : Row} {properties : PropertyMap} (h : row.Describes properties) {name : String}
    {cell : Cell} (hcell : lastValue? row name = some cell) : ∃ v, cell.Denotes v := by
  have hname := h name
  rw [hcell] at hname
  generalize properties.get? ⟨name⟩ = v? at hname
  cases hname with
  | some hdenotes => exact ⟨_, hdenotes⟩

namespace FileData

variable {file : FileData} {properties : PropertyMap}

/-- The rows of a file, if it is a list of objects. -/
def rows (file : FileData) : Except Fault (List Row) := Wire.readWhole readRows file.contents.toList

/-- A file describes one holon for each of its rows. -/
def Describes (file : FileData) (described : List PropertyMap) : Prop :=
  ∃ rows, file.rows = .ok rows ∧ List.Forall₂ Row.Describes rows described

/-- The file is a list of objects, and every value in these is one that a property can have.  Of a name that is written
more than once only the last value is in the object. -/
def Loadable (file : FileData) : Prop :=
  ∃ rows, file.rows = .ok rows ∧ ∀ row ∈ rows, ∀ name cell, lastValue? row name = some cell → ∃ v, cell.Denotes v

theorem value_number (file : FileData) (name : String) (number : Number) : file.value name (.number number) =
    match number.int64? with
    | some i => .ok (some (.integer i))
    | none => .error (file.refusal (name ++ " is not an integer")) := by
  cases number with
  | natural n =>
    simp only [value, Number.int64?]
    split <;> rfl
  | negative n => rfl
  | real => rfl

/-- **What a server takes a cell for is what it denotes.** -/
theorem value_eq_ok_iff {name : String} {cell : Cell} {v : Option Value} :
    file.value name cell.tree = .ok v ↔ cell.Denotes v := by
  constructor
  · intro h
    cases cell with
    | null => cases h; exact .null
    | boolean b => cases h; exact .boolean b
    | string s => cases h; exact .string s
    | numeral n number reads =>
      rw [Cell.tree, value_number] at h
      split at h
      · rename_i i hi
        cases h
        exact .integer ((Numeral.writes_iff reads).2 hi)
      · cases h
    | list | object => cases h
  · rintro (_ | b | s | hwrites)
    · rfl
    · rfl
    · rfl
    · rename_i n number reads i
      rw [Cell.tree, value_number, (Numeral.writes_iff reads).1 hwrites]

theorem exists_of_value_eq_error {name : String} {t : Tree} {e : Refusal} (h : file.value name t = .error e) :
    ∃ why, e = .invalidParameter why := by
  cases t with
  | null | boolean | string => cases h
  | number number =>
    rw [value_number] at h
    split at h <;> cases h
    exact ⟨_, rfl⟩
  | list | object => cases h; exact ⟨_, rfl⟩

/-- The members are gone through one by one, and then their values are put in. -/
theorem addProperties_eq (file : FileData) (properties : PropertyMap) (members : List (String × Tree)) :
    file.addProperties properties members =
      (members.mapM fun m => (file.value m.1 m.2).map fun v => ((⟨m.1⟩ : PropertyName), v)).map
        properties.insertMany := by
  induction members generalizing properties with
  | nil => rfl
  | cons m members ih =>
    rw [addProperties, List.mapM_cons]
    cases file.value m.1 m.2 with
    | error e => rfl
    | ok v =>
      simp only [ih]
      generalize (members.mapM fun m => (file.value m.1 m.2).map fun v => ((⟨m.1⟩ : PropertyName), v)) = rest
      cases rest <;> rfl

/-- What a member of an object comes to among properties. -/
def Stands (file : FileData) (member : String × Tree) (entry : PropertyName × Option Value) : Prop :=
  entry.1 = ⟨member.1⟩ ∧ file.value member.1 member.2 = .ok entry.2

theorem rising_of_stands {members : List (String × Tree)} {es : List (PropertyName × Option Value)}
    (hrising : Entries.Rising members) (h : List.Forall₂ file.Stands members es) : Entries.Rising es := by
  have hnames : es.map Prod.fst = members.map fun m => (⟨m.1⟩ : PropertyName) := by
    clear hrising
    induction h with
    | nil => rfl
    | cons hstands _ ih => rw [List.map_cons, List.map_cons, ih, hstands.1]
  have hkeys : (es.map Prod.fst).Pairwise fun a b => KeyOrder.before a b = true := by
    rw [hnames]
    exact List.pairwise_map.2 hrising
  exact List.pairwise_map.1 hkeys

theorem rel_lookup_of_stands {members : List (String × Tree)} {es : List (PropertyName × Option Value)}
    (h : List.Forall₂ file.Stands members es) (name : String) :
    Option.Rel (fun t v => file.value name t = .ok v) (Entries.lookup name members) (Entries.lookup ⟨name⟩ es) := by
  induction h with
  | nil => exact .none
  | @cons m e members es hstands _ ih =>
    obtain ⟨name', t⟩ := m
    obtain ⟨_, v⟩ := e
    obtain ⟨rfl, hvalue⟩ := hstands
    have hbefore : KeyOrder.before (⟨name'⟩ : PropertyName) ⟨name⟩ = KeyOrder.before name' name := rfl
    have hafter : KeyOrder.before (⟨name⟩ : PropertyName) ⟨name'⟩ = KeyOrder.before name name' := rfl
    simp only [Entries.lookup, hbefore, hafter]
    split
    · exact ih
    · rename_i hearlier
      split
      · exact .none
      · rename_i hlater
        obtain rfl := KeyOrder.connected (Bool.eq_false_iff.2 hearlier) (Bool.eq_false_iff.2 hlater)
        exact .some hvalue

/-- **The properties that an object comes to**: entry by entry what its members come to. -/
theorem properties_eq_ok_iff_entries {record : SortedMap String Tree} :
    file.properties record = .ok properties ↔ List.Forall₂ file.Stands record.entries properties.entries := by
  have hmember : ∀ (m : String × Tree) (e : PropertyName × Option Value),
      ((file.value m.1 m.2).map fun v => ((⟨m.1⟩ : PropertyName), v)) = .ok e ↔ file.Stands m e := by
    rintro ⟨name, t⟩ ⟨name', v⟩
    rw [Stands]
    cases file.value name t <;> simp [Except.map, eq_comm]
  rw [FileData.properties, addProperties_eq]
  constructor
  · intro h
    obtain ⟨es, hes, rfl⟩ := exists_of_map_eq_ok h
    have hstands := (mapM_eq_ok_iff.1 hes).imp fun m e => (hmember m e).1
    rw [SortedMap.entries_insertMany (rising_of_stands record.rising hstands)]
    exact hstands
  · intro h
    rw [mapM_eq_ok_iff.2 (h.imp fun m e => (hmember m e).2)]
    exact congrArg Except.ok properties.insertMany_entries

/-- An object is refused for a value of one of its names. -/
theorem exists_of_properties_eq_error {record : SortedMap String Tree} {e : Refusal}
    (h : file.properties record = .error e) : ∃ name t, record.get? name = some t ∧ file.value name t = .error e := by
  rw [FileData.properties, addProperties_eq] at h
  generalize hvalues : (record.entries.mapM fun m => (file.value m.1 m.2).map fun v => ((⟨m.1⟩ : PropertyName), v)) =
    values at h
  cases values with
  | ok => cases h
  | error e' =>
    cases h
    obtain ⟨⟨name, t⟩, hmem, hvalue⟩ := exists_of_mapM_eq_error hvalues
    refine ⟨name, t, SortedMap.get?_eq_some_iff.2 hmem, ?_⟩
    simp only at hvalue
    cases hvalue' : file.value name t with
    | error e'' => rw [hvalue'] at hvalue; cases hvalue; rfl
    | ok v => rw [hvalue'] at hvalue; cases hvalue

theorem describes_of_properties {row : Row} (h : file.properties (resolve Cell.tree row) = .ok properties) :
    row.Describes properties := by
  intro name
  have hrel := rel_lookup_of_stands (properties_eq_ok_iff_entries.1 h) name
  have hrow : Entries.lookup name (resolve Cell.tree row).entries = (lastValue? row name).map Cell.tree :=
    get?_resolve Cell.tree row name
  have hproperties : Entries.lookup ⟨name⟩ properties.entries = properties.get? ⟨name⟩ := rfl
  rw [hrow, hproperties] at hrel
  generalize lastValue? row name = cell? at hrel ⊢
  generalize properties.get? ⟨name⟩ = v? at hrel ⊢
  cases cell? with
  | none => cases hrel; exact .none
  | some cell => cases hrel with | some hvalue => exact .some (value_eq_ok_iff.1 hvalue)

theorem exists_properties_iff {row : Row} :
    (∃ properties, file.properties (resolve Cell.tree row) = .ok properties) ↔
      ∀ name cell, lastValue? row name = some cell → ∃ v, cell.Denotes v := by
  constructor
  · rintro ⟨properties, h⟩ name cell hcell
    exact (describes_of_properties h).denotes hcell
  · intro hdenotes
    cases hread : file.properties (resolve Cell.tree row) with
    | ok properties => exact ⟨properties, rfl⟩
    | error e =>
      obtain ⟨name, t, hget, hvalue⟩ := exists_of_properties_eq_error hread
      rw [get?_resolve] at hget
      obtain ⟨cell, hcell, rfl⟩ := Option.map_eq_some_iff.1 hget
      obtain ⟨v, hv⟩ := hdenotes name cell hcell
      rw [value_eq_ok_iff.2 hv] at hvalue
      cases hvalue

/-- **What a server reads off a row is what the row describes.** -/
theorem properties_eq_ok_iff {row : Row} :
    file.properties (resolve Cell.tree row) = .ok properties ↔ row.Describes properties := by
  refine ⟨describes_of_properties, fun h => ?_⟩
  obtain ⟨read, hread⟩ := exists_properties_iff.2 fun name cell => h.denotes
  rw [hread, (describes_of_properties hread).unique h]

theorem readWhole_readAs {α β : Type} (f : α → β) (read : Reader α) (text : List Char) :
    Wire.readWhole (readAs f read) text = (Wire.readWhole read text).map f := by
  simp only [Wire.readWhole, readAs]
  rcases read text with e | ⟨a, r⟩
  · rfl
  · simp only [Except.map]
    split <;> rfl

/-- The objects of a file are what its rows come to. -/
theorem records_eq (file : FileData) : file.records =
    match file.rows with
    | .ok rows => .ok (rows.map (resolve Cell.tree))
    | .error f => .error (file.refusal (f.fileMessage file.contents.toList)) := by
  simp only [records, rows, readObjects_eq, readWhole_readAs]
  cases Wire.readWhole readRows file.contents.toList <;> rfl

/-- **What a server reads off a file is what the file describes.** -/
theorem described_eq_ok_iff {described : List PropertyMap} :
    file.described = .ok described ↔ file.Describes described := by
  rw [FileData.described, records_eq, Describes]
  cases hrows : file.rows with
  | error f =>
    constructor
    · intro h
      cases h
    · rintro ⟨_, h, -⟩
      cases h
  | ok rows =>
    have hread : (rows.map (resolve Cell.tree)).mapM file.properties = .ok described ↔
        List.Forall₂ Row.Describes rows described := by
      simp only [mapM_eq_ok_iff, List.forall₂_map_left_iff, properties_eq_ok_iff]
    constructor
    · intro h
      exact ⟨rows, rfl, hread.1 h⟩
    · rintro ⟨_, hok, h⟩
      cases hok
      exact hread.2 h

/-- **The files that can be loaded** are those that something can be read off. -/
theorem loadable_iff : file.Loadable ↔ ∃ described, file.described = .ok described := by
  rw [Loadable, FileData.described, records_eq]
  cases hrows : file.rows with
  | error f =>
    constructor
    · rintro ⟨_, h, -⟩
      cases h
    · rintro ⟨_, h⟩
      cases h
  | ok rows =>
    have hread : (∃ described, (rows.map (resolve Cell.tree)).mapM file.properties = .ok described) ↔
        ∀ row ∈ rows, ∀ name cell, lastValue? row name = some cell → ∃ v, cell.Denotes v := by
      simp only [exists_mapM_eq_ok_iff, List.forall_mem_map, exists_properties_iff]
    constructor
    · rintro ⟨_, hok, h⟩
      cases hok
      exact hread.2 h
    · intro h
      exact ⟨rows, rfl, hread.1 h⟩

/-- Whatever a file is refused for is a fault of the request. -/
theorem exists_of_described_eq_error {e : Refusal} (h : file.described = .error e) :
    ∃ why, e = .invalidParameter why := by
  rw [FileData.described, records_eq] at h
  cases hrows : file.rows with
  | error f =>
    rw [hrows] at h
    cases h
    exact ⟨_, rfl⟩
  | ok rows =>
    rw [hrows] at h
    obtain ⟨record, -, hproperties⟩ := exists_of_mapM_eq_error h
    obtain ⟨name, t, -, hvalue⟩ := exists_of_properties_eq_error hproperties
    exact exists_of_value_eq_error hvalue

end FileData

end Holarchy
