import SkyTree.Wire.Property

/-!
# Sets of properties

Every packet keeps its properties in a record of its own. A record is seen here as a
table of slots in the order in which the encoder writes them; what the property loop of
the decoder does to a record is then the same for all of them.
-/

namespace SkyTree.Wire

open Foundation List Function Reader

/-! ## Slots -/

inductive SlotKind where
  | byte
  | uint16
  | uint32
  | vbi
  | binary
  | string
  | vbis
  | users
  deriving DecidableEq, Repr

def SlotKind.type : SlotKind → PropertyValueType
  | .byte => .byte
  | .uint16 => .twoByteInteger
  | .uint32 => .fourByteInteger
  | .vbi | .vbis => .variableByteInteger
  | .binary => .binaryData
  | .string => .string
  | .users => .stringPair

/-- The slots that keep every value of a repeated property. -/
def SlotKind.listed : SlotKind → Bool
  | .vbis | .users => true
  | _ => false

/-- One field of a property record: a pointer, a slice or a string. -/
inductive Slot where
  | byte (value : Option UInt8)
  | uint16 (value : Option UInt16)
  | uint32 (value : Option UInt32)
  | vbi (value : Option Int)
  | binary (value : Option Text)
  | string (value : Text)
  | vbis (values : List Int)
  | users (values : List User)

namespace Slot

def kind : Slot → SlotKind
  | .byte _ => .byte
  | .uint16 _ => .uint16
  | .uint32 _ => .uint32
  | .vbi _ => .vbi
  | .binary _ => .binary
  | .string _ => .string
  | .vbis _ => .vbis
  | .users _ => .users

def empty : SlotKind → Slot
  | .byte => .byte none
  | .uint16 => .uint16 none
  | .uint32 => .uint32 none
  | .vbi => .vbi none
  | .binary => .binary none
  | .string => .string []
  | .vbis => .vbis []
  | .users => .users []

/-- The values that are written: nil pointers, nil slices and empty strings are not. -/
def values : Slot → List PropertyValue
  | .byte value => value.toList.map .byte
  | .uint16 value => value.toList.map .uint16
  | .uint32 value => value.toList.map .uint32
  | .vbi value => value.toList.map .vbi
  | .binary value => value.toList.map .binary
  | .string [] => []
  | .string (first :: rest) => [.string (first :: rest)]
  | .vbis values => values.map .vbi
  | .users values => values.map .user

def assign : Slot → PropertyValue → Slot
  | .byte _, value => .byte (some value.byteValue)
  | .uint16 _, value => .uint16 (some value.uint16Value)
  | .uint32 _, value => .uint32 (some value.uint32Value)
  | .vbi _, value => .vbi (some value.vbiValue)
  | .binary _, value => .binary value.binaryValue
  | .string _, value => .string value.stringValue
  | .vbis values, value => .vbis (values ++ [value.vbiValue])
  | .users values, value => .users (values ++ [value.userValue])

/-- Absent and empty binaries are the same. -/
def normalize : Slot → Slot
  | .binary (some []) => .binary none
  | slot => slot

variable {slot : Slot} {value : PropertyValue}

theorem values_empty (kind : SlotKind) : (empty kind).values = [] := by
  cases kind <;> rfl

theorem type_of_mem_values (hl : value ∈ slot.values) : value.type = slot.kind.type := by
  cases slot with
  | string text =>
    cases text with
    | nil => cases hl
    | cons first rest => rw [mem_singleton.mp hl]; rfl
  | byte _ | uint16 _ | uint32 _ | vbi _ | binary _ | vbis _ | users _ =>
    obtain ⟨_, -, rfl⟩ := mem_map.mp hl
    rfl

theorem length_values_le_one (hs : slot.kind.listed = false) : slot.values.length ≤ 1 := by
  cases slot with
  | string text => cases text <;> simp [values]
  | vbis _ | users _ => cases hs
  | byte value | uint16 value | uint32 value | vbi value | binary value =>
    cases value <;> simp [values]

/-- Assigning a value adds it, or replaces what was there, or leaves the slot empty. -/
theorem values_assign_subperm (ht : value.type = slot.kind.type) :
    (slot.assign value).values.Subperm (slot.values ++ [value]) := by
  have hl : [value].Subperm (slot.values ++ [value]) :=
    (sublist_append_right slot.values [value]).subperm
  cases slot <;> cases value <;> cases ht
  case byte.byte | uint16.uint16 | uint32.uint32 | vbi.vbi => exact hl
  case binary.binary data =>
      cases data with
      | nil => exact nil_subperm
      | cons first rest => exact hl
  case string.string data =>
      cases data with
      | nil => exact nil_subperm
      | cons first rest => exact hl
  case vbis.vbi values data =>
      rw [assign, Slot.values, Slot.values, map_append]
      exact List.Subperm.refl _
  case users.user values data =>
      rw [assign, Slot.values, Slot.values, map_append]
      exact List.Subperm.refl _

theorem normalize_empty (kind : SlotKind) : (empty kind).normalize = empty kind := by
  cases kind <;> rfl

theorem normalize_assign : (slot.assign value).normalize = slot.assign value := by
  cases slot with
  | binary data =>
    cases value with
    | binary data => cases data <;> rfl
    | _ => rfl
  | _ => rfl

theorem foldl_assign_listed {α : Type} {slot : List α → Slot} {wrap : α → PropertyValue}
    (ha : ∀ before value, (slot before).assign (wrap value) = slot (before ++ [value]))
    (before values : List α) :
    (values.map wrap).foldl assign (slot before) = slot (before ++ values) := by
  induction values generalizing before with
  | nil => rw [append_nil, map_nil, foldl_nil]
  | cons first rest ih =>
    rw [map_cons, foldl_cons, ha, ih, append_assoc, singleton_append]

/-- Assigning the written values to an empty slot gives the slot back. -/
theorem foldl_assign_values : slot.values.foldl assign (empty slot.kind) = slot.normalize := by
  cases slot with
  | byte value | uint16 value | uint32 value | vbi value | string value => cases value <;> rfl
  | binary value =>
    cases value with
    | none => rfl
    | some data => cases data <;> rfl
  | vbis values | users values => exact foldl_assign_listed (fun _ _ => rfl) [] values

end Slot

/-! ## Tables -/

abbrev PropertyTable := List (PropertyID × Slot)

namespace PropertyTable

def fields (table : PropertyTable) : List PropertyField :=
  table.flatMap fun entry => entry.2.values.map fun value => (entry.1, value)

def assign (table : PropertyTable) (field : PropertyField) : PropertyTable :=
  table.map fun entry =>
    if entry.1 = field.1 then (entry.1, entry.2.assign field.2) else entry

variable {table : PropertyTable} {id : PropertyID} {slot : Slot} {field : PropertyField}

theorem fields_cons (e : PropertyID × Slot) (table : PropertyTable) :
    fields (e :: table) = e.2.values.map (e.1, ·) ++ fields table :=
  flatMap_cons

theorem mem_fields : field ∈ fields table ↔
    ∃ slot, (field.1, slot) ∈ table ∧ field.2 ∈ slot.values := by
  rw [fields, mem_flatMap]
  constructor
  · rintro ⟨⟨id, slot⟩, hi, ha⟩
    obtain ⟨value, hl, rfl⟩ := mem_map.mp ha
    exact ⟨slot, hi, hl⟩
  · rintro ⟨slot, hi, hl⟩
    exact ⟨_, hi, mem_map.mpr ⟨_, hl, rfl⟩⟩

theorem assign_of_absent (ha : field.1 ∉ table.map Prod.fst) : table.assign field = table := by
  rw [assign]
  conv_rhs => rw [← map_id table]
  apply map_congr_left
  intro e hi
  have ho : e.1 ≠ field.1 := by
    intro he
    exact ha (he ▸ mem_map_of_mem hi)
  rw [if_neg ho]
  rfl

theorem fields_assign_subperm (hd : (table.map Prod.fst).Nodup)
    (kinds : ∀ e ∈ table, e.2.kind.type = (propertySpecs e.1).type)
    (ht : Typed field) : (fields (table.assign field)).Subperm (fields table ++ [field]) := by
  induction table with
  | nil => exact nil_subperm
  | cons e table ih =>
    obtain ⟨ha, hd⟩ := nodup_cons.mp hd
    have hu : PropertyTable.assign (e :: table) field =
        (if e.1 = field.1 then (e.1, e.2.assign field.2) else e) ::
          PropertyTable.assign table field := rfl
    rw [hu, fields_cons, fields_cons]
    by_cases he : e.1 = field.1
    · have hk : PropertyTable.assign table field = table := assign_of_absent (he ▸ ha)
      have slotTyped : field.2.type = e.2.kind.type := by
        rw [kinds e mem_cons_self, he]
        exact ht
      have added := (Slot.values_assign_subperm slotTyped).map (Prod.mk_right_injective e.1)
      rw [map_append, map_singleton, he] at added
      rw [if_pos he, hk, he]
      refine (added.append (List.Subperm.refl (fields table))).trans ?_
      rw [append_assoc, append_assoc]
      exact (perm_append_comm.append_left _).subperm
    · rw [if_neg he, append_assoc]
      exact (List.Subperm.refl _).append (ih hd fun o hi => kinds o (mem_cons_of_mem e hi))

def valuesOf (id : PropertyID) (fields : List PropertyField) : List PropertyValue :=
  (fields.filter fun field => field.1 = id).map Prod.snd

theorem valuesOf_append (first second : List PropertyField) :
    valuesOf id (first ++ second) = valuesOf id first ++ valuesOf id second := by
  rw [valuesOf, filter_append, map_append]
  rfl

theorem valuesOf_cons (field : PropertyField) (rest : List PropertyField) :
    valuesOf id (field :: rest) =
      if field.1 = id then field.2 :: valuesOf id rest else valuesOf id rest := by
  by_cases he : field.1 = id <;> simp [valuesOf, he]

theorem valuesOf_map_same (values : List PropertyValue) :
    valuesOf id (values.map (id, ·)) = values := by
  induction values with
  | nil => rfl
  | cons value values ih =>
    rw [map_cons, valuesOf_cons, if_pos rfl, ih]

theorem valuesOf_map_other {o : PropertyID} (hne : o ≠ id) (values : List PropertyValue) :
    valuesOf id (values.map (o, ·)) = [] := by
  induction values with
  | nil => rfl
  | cons value values ih =>
    rw [map_cons, valuesOf_cons, if_neg hne, ih]

theorem valuesOf_fields_of_absent (ha : id ∉ table.map Prod.fst) :
    valuesOf id (fields table) = [] := by
  induction table with
  | nil => rfl
  | cons e table ih =>
    obtain ⟨hne, ha⟩ := ne_and_not_mem_of_not_mem_cons ha
    rw [fields_cons, valuesOf_append, valuesOf_map_other (Ne.symm hne), ih ha, append_nil]

theorem valuesOf_fields (distinct : (table.map Prod.fst).Nodup) (inside : (id, slot) ∈ table) :
    valuesOf id (fields table) = slot.values := by
  induction table with
  | nil => cases inside
  | cons e table ih =>
    obtain ⟨absent, distinct⟩ := nodup_cons.mp distinct
    rw [fields_cons, valuesOf_append]
    obtain rfl | inside := mem_cons.mp inside
    · rw [valuesOf_map_same, valuesOf_fields_of_absent absent, append_nil]
    · have different : e.1 ≠ id := by
        intro same
        exact absent (same ▸ mem_map_of_mem inside)
      rw [valuesOf_map_other different, ih distinct inside, nil_append]

end PropertyTable

/-! ## Property records -/

/-- A property record with its table of slots in the order of the encoder. The laws hold
by computation for a record of plain fields. -/
class PropertySet (P : Type) where
  empty : P
  assign : P → PropertyField → P
  table : P → PropertyTable
  normalize : P → P
  layout : List (PropertyID × SlotKind) := (table empty).map fun entry => (entry.1, entry.2.kind)
  layout_distinct : (layout.map Prod.fst).Nodup := by decide
  layout_typed : ∀ entry ∈ layout, entry.2.type = (propertySpecs entry.1).type := by decide
  table_layout : ∀ p, (table p).map (fun entry => (entry.1, entry.2.kind)) = layout := by
    intro p
    rfl
  table_injective : ∀ p q, table p = table q → p = q := by
    intro p q same
    cases p
    cases q
    cases same
    rfl
  table_empty : table empty = layout.map fun entry => (entry.1, Slot.empty entry.2) := by rfl
  table_assign : ∀ p field, table (assign p field) = (table p).assign field := by
    intro p field
    obtain ⟨id, value⟩ := field
    cases id <;> rfl
  table_normalize : ∀ p,
      table (normalize p) = (table p).map fun entry => (entry.1, entry.2.normalize) := by
    intro p
    rfl

namespace PropertySet

variable {P : Type} [PropertySet P]

def fields (p : P) : List PropertyField := (table p).fields

def collect (fields : List PropertyField) : P := fields.foldl assign empty

theorem table_keys (p : P) : (table p).map Prod.fst = (layout P).map Prod.fst := by
  rw [← table_layout p, map_map]
  rfl

theorem table_distinct (p : P) : ((table p).map Prod.fst).Nodup := by
  rw [table_keys]
  exact layout_distinct

theorem mem_layout {p : P} {e : PropertyID × Slot} (hi : e ∈ table p) :
    (e.1, e.2.kind) ∈ layout P := by
  rw [← table_layout p]
  exact mem_map.mpr ⟨e, hi, rfl⟩

theorem table_typed (p : P) : ∀ e ∈ table p, e.2.kind.type = (propertySpecs e.1).type := by
  intro e hi
  exact layout_typed _ (mem_layout hi)

theorem typed_of_mem_fields {p : P} {field : PropertyField} (hi : field ∈ fields p) :
    Typed field := by
  obtain ⟨slot, hit, hl⟩ := PropertyTable.mem_fields.mp hi
  exact (Slot.type_of_mem_values hl).trans (table_typed p _ hit)

/-! ### What the loop keeps of its input -/

variable {inp : List PropertyField}

theorem fields_foldl_subperm (p : P) (ht : ∀ field ∈ inp, Typed field) :
    (fields (inp.foldl assign p)).Subperm (fields p ++ inp) := by
  induction inp generalizing p with
  | nil =>
    rw [foldl_nil, append_nil]
  | cons field inp ih =>
    have hs : (fields (assign p field)).Subperm (fields p ++ [field]) := by
      rw [fields, table_assign]
      exact PropertyTable.fields_assign_subperm (table_distinct p) (table_typed p)
        (ht field mem_cons_self)
    have rest := ih (assign p field) fun o hi => ht o (mem_cons_of_mem field hi)
    refine rest.trans ((hs.append (List.Subperm.refl inp)).trans ?_)
    rw [append_assoc, singleton_append]

theorem fields_empty : fields (empty : P) = [] := by
  rw [fields, table_empty, PropertyTable.fields, flatMap_map]
  apply flatMap_eq_nil_iff.mpr
  intro e _
  rw [Slot.values_empty, map_nil]

/-! ### Reading a written record back -/

theorem table_foldl (p : P) (inp : List PropertyField) :
    table (inp.foldl assign p) = (table p).map fun e =>
      (e.1, (PropertyTable.valuesOf e.1 inp).foldl Slot.assign e.2) := by
  induction inp generalizing p with
  | nil => exact (map_id _).symm
  | cons field inp ih =>
    rw [foldl_cons, ih, table_assign, PropertyTable.assign, map_map]
    apply map_congr_left
    intro e _
    rw [comp_apply, PropertyTable.valuesOf_cons]
    by_cases he : e.1 = field.1
    · rw [if_pos he, if_pos he.symm, foldl_cons]
    · rw [if_neg he, if_neg (Ne.symm he)]

theorem collect_fields (p : P) : collect (fields p) = normalize p := by
  have he : table (empty : P) = (table p).map fun e => (e.1, Slot.empty e.2.kind) := by
    rw [table_empty, ← table_layout p, map_map]
    rfl
  apply table_injective
  rw [collect, table_foldl, he, table_normalize, map_map]
  apply map_congr_left
  intro e hi
  rw [comp_apply, fields, PropertyTable.valuesOf_fields (table_distinct p) hi,
    Slot.foldl_assign_values]

theorem normalize_eq_self {p : P} (normal : ∀ entry ∈ table p, entry.2.normalize = entry.2) :
    normalize p = p := by
  apply table_injective
  rw [table_normalize]
  conv_rhs => rw [← map_id (table p)]
  apply map_congr_left
  intro entry inside
  rw [normal entry inside]
  rfl

/-- What the loop fills is normal: a copied empty slice is nil. -/
theorem normalize_collect (inp : List PropertyField) :
    normalize (collect inp : P) = collect inp := by
  apply normalize_eq_self
  rw [collect, table_foldl, table_empty, map_map]
  intro e hi
  obtain ⟨place, -, rfl⟩ := mem_map.mp hi
  rw [comp_apply]
  generalize PropertyTable.valuesOf place.1 inp = values
  -- the last assignment decides, if there is one
  induction values using List.reverseRecOn with
  | nil => exact Slot.normalize_empty place.2
  | append_singleton values value _ =>
    rw [foldl_append, foldl_cons, foldl_nil]
    exact Slot.normalize_assign

/-! ### Repetition -/

def Fresh (packet : PacketType) : List PropertyID → List PropertyField → Prop
  | _, [] => True
  | seen, field :: rest =>
    (propertyRepeatAllowed field.1 packet = true ∨ field.1 ∉ seen) ∧
      Fresh packet (if propertyRepeatAllowed field.1 packet then seen else field.1 :: seen) rest

theorem Fresh.of_valuesOf {packet : PacketType} {seen : List PropertyID}
    (hs : ∀ id, propertyRepeatAllowed id packet = false →
      (PropertyTable.valuesOf id inp).length ≤ 1 ∧
        (id ∈ seen → PropertyTable.valuesOf id inp = [])) :
    Fresh packet seen inp := by
  induction inp generalizing seen with
  | nil => trivial
  | cons field inp ih =>
    have hh : PropertyTable.valuesOf field.1 (field :: inp) =
        field.2 :: PropertyTable.valuesOf field.1 inp := by
      rw [PropertyTable.valuesOf_cons, if_pos rfl]
    refine ⟨?_, ih ?_⟩
    · by_contra hr
      obtain ⟨hu, hb⟩ := not_or.mp hr
      have none := (hs field.1 (Bool.eq_false_iff.mpr hu)).2 (not_not.mp hb)
      rw [hh] at none
      cases none
    · intro id hu
      obtain ⟨ho, unseen⟩ := hs id hu
      by_cases he : field.1 = id
      · obtain rfl := he
        rw [hh, length_cons] at ho
        have hg : PropertyTable.valuesOf field.1 inp = [] := length_eq_zero_iff.mp (by omega)
        exact ⟨by rw [hg]; exact Nat.zero_le 1, fun _ => hg⟩
      · rw [PropertyTable.valuesOf_cons, if_neg he] at ho unseen
        refine ⟨ho, fun prior => unseen ?_⟩
        split at prior
        · exact prior
        · exact (mem_cons.mp prior).resolve_left (Ne.symm he)

def Fits (P : Type) [PropertySet P] (packet : PacketType) : Prop :=
  ∀ entry ∈ layout P, entry.2.listed = true → packetAllowed entry.1 packet = true →
    propertyRepeatAllowed entry.1 packet = true

instance (P : Type) [PropertySet P] (packet : PacketType) : Decidable (Fits P packet) :=
  inferInstanceAs (Decidable (∀ entry ∈ layout P, _))

theorem fresh_fields {packet : PacketType} (hf : Fits P packet) {p : P}
    (ha : ∀ field ∈ fields p, packetAllowed field.1 packet = true) :
    Fresh packet [] (fields p) := by
  apply Fresh.of_valuesOf
  intro id hu
  refine ⟨?_, fun no => by cases no⟩
  by_cases hi : id ∈ (table p).map Prod.fst
  · obtain ⟨⟨id, slot⟩, hit, rfl⟩ := mem_map.mp hi
    have hv := PropertyTable.valuesOf_fields (table_distinct p) hit
    rw [fields, hv]
    by_cases hs : slot.kind.listed = false
    · exact Slot.length_values_le_one hs
    · cases hl : slot.values with
      | nil => exact Nat.zero_le 1
      | cons value rest =>
        have hw : (id, value) ∈ fields p :=
          PropertyTable.mem_fields.mpr ⟨slot, hit, hl ▸ mem_cons_self⟩
        have hr := hf _ (mem_layout hit) (Bool.not_eq_false _ ▸ hs) (ha _ hw)
        rw [hu] at hr
        cases hr
  · rw [fields, PropertyTable.valuesOf_fields_of_absent hi]
    exact Nat.zero_le 1

end PropertySet

/-! ## Property sections -/

open PropertySet

section Section

variable (validUTF8 : Text → Bool) (packet : PacketType) {P : Type} [PropertySet P]

def appendProperties : Option P → Except WireError (List UInt8)
  | none => .ok []
  | some p => writeAll (appendProperty validUTF8 packet) (fields p)

def encodeProperties (props : Option P) : Except WireError (List UInt8) := do
  let body ← appendProperties validUTF8 packet props
  let length ← writeVBI packet.code "property length" body.length
  return length ++ body

def decodeProperty (state : List PropertyID × P) : Reader WireError (List PropertyID × P) := do
  let (seen, field) ← readProperty validUTF8 packet state.1
  return (seen, assign state.2 field)

/-- The section is read in the packet of the cursor and checked in the given one; the two
differ for Will properties. -/
def decodeProperties (cursor : PacketType) (props : P) : Reader WireError P := do
  let length ← readVBI cursor.code "property length"
  let body ← Reader.take
    (malformed packet.code "property length" "property length exceeds remaining packet body") length
  let (_, props) ← Reader.untilEmpty (decodeProperty validUTF8 packet) body.length ([], props) body
  return props

variable {validUTF8 packet} {inp rest bytes : List UInt8}

def Reads (validUTF8 : Text → Bool) (packet : PacketType) (state : List PropertyID × P)
    (bytes : List UInt8) (next : List PropertyID × P) : Prop :=
  ∃ field, Appendable validUTF8 packet field ∧
    (propertyRepeatAllowed field.1 packet = true ∨ field.1 ∉ state.1) ∧
    next = (if propertyRepeatAllowed field.1 packet then state.1 else field.1 :: state.1,
      assign state.2 field) ∧
    bytes = fieldBytes field

theorem decodeProperty_eq_ok {state next : List PropertyID × P} :
    decodeProperty validUTF8 packet state inp = .ok (next, rest) ↔
      ∃ bytes, Reads validUTF8 packet state bytes next ∧ inp = bytes ++ rest := by
  simp only [decodeProperty, bind_eq_ok, Prod.exists, readProperty_eq_ok, pure_eq_ok, Reads]
  constructor
  · rintro ⟨_, id, value, _, ⟨fits, hf, rfl, rfl⟩, rfl, rfl⟩
    exact ⟨_, ⟨id, value, fits, hf, rfl, rfl⟩, rfl⟩
  · rintro ⟨_, ⟨id, value, fits, hf, rfl, rfl⟩, rfl⟩
    exact ⟨_, id, value, _, ⟨fits, hf, rfl, rfl⟩, rfl, rfl⟩

theorem chain_reads_iff (state : List PropertyID × P) {p : P} :
    (∃ seen, Reader.Chain (Reads validUTF8 packet) state bytes (seen, p)) ↔
      ∃ fields : List PropertyField, (∀ field ∈ fields, Appendable validUTF8 packet field) ∧
        Fresh packet state.1 fields ∧ bytes = fields.flatMap fieldBytes ∧
        p = fields.foldl assign state.2 := by
  constructor
  · rintro ⟨seen, hc⟩
    generalize he : (seen, p) = last at hc
    induction hc with
    | nil =>
      obtain rfl := he
      exact ⟨[], by simp, trivial, rfl, rfl⟩
    | cons hs _ ih =>
      obtain ⟨field, fits, hf, rfl, rfl⟩ := hs
      obtain ⟨fields, ho, freshRest, rfl, rfl⟩ := ih he
      exact ⟨field :: fields, forall_mem_cons.mpr ⟨fits, ho⟩, ⟨hf, freshRest⟩, rfl, rfl⟩
  · rintro ⟨fields, ha, hf, rfl, rfl⟩
    induction fields generalizing state with
    | nil => exact ⟨state.1, .nil⟩
    | cons field fields ih =>
      obtain ⟨fits, ho⟩ := forall_mem_cons.mp ha
      obtain ⟨seen, hc⟩ := ih (_, assign state.2 field) ho hf.2
      exact ⟨seen, .cons ⟨field, fits, hf.1, rfl, rfl⟩ hc⟩

def SectionOf (validUTF8 : Text → Bool) (packet : PacketType) (bytes : List UInt8) (p : P) : Prop :=
  ∃ fields : List PropertyField, (∀ field ∈ fields, Appendable validUTF8 packet field) ∧
    Fresh packet [] fields ∧ (fields.flatMap fieldBytes).length ≤ maxRemainingLength ∧
    bytes = vbiDigits 4 (fields.flatMap fieldBytes).length ++ fields.flatMap fieldBytes ∧
    p = collect fields

theorem decodeProperties_eq_ok {cursor : PacketType} {p : P} :
    decodeProperties validUTF8 packet cursor empty inp = .ok (p, rest) ↔
      ∃ bytes, SectionOf validUTF8 packet bytes p ∧ inp = bytes ++ rest := by
  have hr : ∀ {body : List UInt8} {last : List PropertyID × P},
      Reader.untilEmpty (decodeProperty validUTF8 packet) body.length ([], empty) body = .ok last ↔
        Reader.Chain (Reads validUTF8 packet) ([], empty) body last := by
    intro body last
    apply untilEmpty_eq_ok (fun _ _ _ _ => decodeProperty_eq_ok) _ le_rfl
    rintro _ _ _ ⟨field, -, -, -, rfl⟩
    exact cons_ne_nil _ _
  simp only [decodeProperties, bind_eq_ok, Prod.exists, lift_eq_ok, pure_eq_ok,
    readVBI_eq_ok, take_eq_ok, hr]
  constructor
  · rintro ⟨_, _, ⟨hb, rfl⟩, body, _, ⟨rfl, rfl⟩, seen, p, _, ⟨hc, rfl⟩, rfl, rfl⟩
    obtain ⟨fields, ha, hf, rfl, rfl⟩ := (chain_reads_iff _).mp ⟨seen, hc⟩
    exact ⟨_, ⟨fields, ha, hf, hb, rfl, rfl⟩, (append_assoc _ _ _).symm⟩
  · rintro ⟨_, ⟨fields, ha, hf, hb, rfl, rfl⟩, rfl⟩
    obtain ⟨seen, hc⟩ := (chain_reads_iff ([], (empty : P))).mpr ⟨fields, ha, hf, rfl, rfl⟩
    exact ⟨_, _, ⟨hb, append_assoc _ _ _⟩, _, _, ⟨rfl, rfl⟩, seen, _, _, ⟨hc, rfl⟩, rfl, rfl⟩

theorem encodeProperties_eq_ok {props : Option P} :
    encodeProperties validUTF8 packet props = .ok bytes ↔
      (∀ field ∈ fields (props.getD empty), Appendable validUTF8 packet field) ∧
        ((fields (props.getD empty)).flatMap fieldBytes).length ≤ maxRemainingLength ∧
        bytes = vbiDigits 4 ((fields (props.getD empty)).flatMap fieldBytes).length ++
          (fields (props.getD empty)).flatMap fieldBytes := by
  have body : appendProperties validUTF8 packet props =
      writeAll (appendProperty validUTF8 packet) (fields (props.getD empty)) := by
    cases props with
    | none => rw [Option.getD_none, fields_empty]; rfl
    | some p => rfl
  simp only [encodeProperties, body, exceptBind_eq_ok, writeVBI_eq_ok,
    writeAll_eq_ok fun _ hi _ => appendProperty_eq_ok (typed_of_mem_fields hi)]
  constructor
  · rintro ⟨_, ⟨ha, rfl⟩, _, ⟨-, hb, rfl⟩, he⟩
    exact ⟨ha, by exact_mod_cast hb, (Except.ok.inj he).symm⟩
  · rintro ⟨ha, hb, rfl⟩
    exact ⟨_, ⟨ha, rfl⟩, _, ⟨Int.natCast_nonneg _, by exact_mod_cast hb, rfl⟩, rfl⟩

/-- What the encoder writes, the decoder reads back up to absent and empty values. -/
theorem sectionOf_of_encode (hf : Fits P packet) {props : Option P}
    (he : encodeProperties validUTF8 packet props = .ok bytes) :
    SectionOf validUTF8 packet bytes (normalize (props.getD empty)) := by
  obtain ⟨ha, hb, rfl⟩ := encodeProperties_eq_ok.mp he
  exact ⟨fields (props.getD empty), ha,
    fresh_fields hf fun field hi => (ha field hi).allowed, hb, rfl,
    (collect_fields _).symm⟩

theorem length_flatMap_le_of_subperm {α β : Type} {shorter longer : List α} (f : α → List β)
    (fewer : shorter.Subperm longer) : (shorter.flatMap f).length ≤ (longer.flatMap f).length := by
  obtain ⟨mid, hp, hs⟩ := fewer
  rw [← (hp.flatMap_right f).length_eq]
  exact (hs.flatMap f).length_le

namespace SectionOf

variable {p : P}

theorem normal (accepted : SectionOf validUTF8 packet bytes p) : normalize p = p := by
  obtain ⟨fields, -, -, -, -, rfl⟩ := accepted
  exact normalize_collect fields

theorem encode (ha : SectionOf validUTF8 packet bytes p) :
    ∃ out, encodeProperties validUTF8 packet (some p) = .ok out ∧ out.length ≤ bytes.length := by
  obtain ⟨inp, canAdd, -, hb, rfl, rfl⟩ := ha
  have hk : (fields (collect inp : P)).Subperm inp := by
    have hs := fields_foldl_subperm (empty : P) fun field hi => (canAdd field hi).typed
    rwa [fields_empty, nil_append] at hs
  have hs := length_flatMap_le_of_subperm fieldBytes hk
  refine ⟨_, encodeProperties_eq_ok.mpr
    ⟨fun field hi => canAdd field (hk.subset hi), hs.trans hb, rfl⟩, ?_⟩
  rw [Option.getD_some, length_append, length_append]
  exact Nat.add_le_add (vbiDigits_length_mono hs) hs

theorem eq_empty (ha : SectionOf validUTF8 packet bytes p) (one : bytes.length ≤ 1) :
    p = empty := by
  obtain ⟨inp, -, -, -, rfl, rfl⟩ := ha
  have hd := @vbiDigits_length_pos 4 (inp.flatMap fieldBytes).length (by decide)
  rw [length_append] at one
  have hn : inp.flatMap fieldBytes = [] := length_eq_zero_iff.mp (by omega)
  cases inp with
  | nil => rfl
  | cons field inp => cases hn

theorem nothing : SectionOf validUTF8 packet [0] (empty : P) :=
  ⟨[], by simp, trivial, Nat.zero_le _, rfl, rfl⟩

end SectionOf

end Section

end SkyTree.Wire
