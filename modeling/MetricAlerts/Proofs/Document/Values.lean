import Mathlib.Data.List.Perm.Basic
import MetricAlerts.Document.Fields
import MetricAlerts.Document.Json
import MetricAlerts.Proofs.Decimal.Finite
import MetricAlerts.Table

/-!
# Values of JSON

A document that is written as JSON is a value of JSON first.  Numbers that are
not finite have become null by then, and the fields of a record stand in an order
that means nothing.  Whatever that order is, a record is read by the names of its
fields.
-/

namespace MetricAlerts

namespace Document

/-- An order in which the fields of records stand. -/
structure FieldOrder where
  arrange : List (Key × Document) → List (Key × Document)
  perm (fields : List (Key × Document)) : (arrange fields).Perm fields

/-- Fields in the order in which they are written. -/
def FieldOrder.asWritten : FieldOrder :=
  ⟨id, .refl⟩

def keyPrecedes : Key → Key → Bool
  | .name name, .name other => name ≤ other
  | _, _ => true

def FieldOrder.byName : FieldOrder :=
  ⟨fun fields => fields.mergeSort fun field other => keyPrecedes field.1 other.1,
    fun fields => List.mergeSort_perm fields _⟩

mutual

/-- The value that a document is in JSON. -/
def inJson (order : FieldOrder) : Document → Document
  | .null => .null
  | .bool value => .bool value
  | .int value => .int value
  | .number value => if value.isFinite then .number value else .null
  | .text value => .text value
  | .list items => .list (inJsonItems order items)
  | .record fields => .record (order.arrange (inJsonFields order fields))

def inJsonItems (order : FieldOrder) : List Document → List Document
  | [] => []
  | item :: items => item.inJson order :: inJsonItems order items

def inJsonFields (order : FieldOrder) : List (Key × Document) → List (Key × Document)
  | [] => []
  | (key, value) :: fields => (key, value.inJson order) :: inJsonFields order fields

end

mutual

/-- What a value of JSON is: the fields of its records have names, each another
one, its whole numbers have 64 bits at most, and all other numbers are finite. -/
def IsJson : Document → Prop
  | .null => True
  | .bool _ => True
  | .int value => Int64.minValue.toInt ≤ value ∧ value < UInt64.size
  | .number value => value.isFinite = true
  | .text _ => True
  | .list items => AreJson items
  | .record fields => (fields.map Prod.fst).Nodup ∧ FieldsAreJson fields

def AreJson : List Document → Prop
  | [] => True
  | item :: items => item.IsJson ∧ AreJson items

def FieldsAreJson : List (Key × Document) → Prop
  | [] => True
  | (key, value) :: fields => (∃ name, key = .name name) ∧ value.IsJson ∧ FieldsAreJson fields

end

variable {order : FieldOrder}

theorem inJsonItems_eq_map (items : List Document) :
    inJsonItems order items = items.map (inJson order) := by
  induction items with
  | nil => rfl
  | cons item items ih => rw [inJsonItems, ih, List.map_cons]

theorem inJsonFields_eq_map (fields : List (Key × Document)) :
    inJsonFields order fields = fields.map fun field => (field.1, field.2.inJson order) := by
  induction fields with
  | nil => rfl
  | cons field fields ih => rw [inJsonFields, ih, List.map_cons]

theorem areJson_iff {items : List Document} : AreJson items ↔ ∀ item ∈ items, item.IsJson := by
  induction items with
  | nil => simp [AreJson]
  | cons item items ih => rw [AreJson, ih, List.forall_mem_cons]

theorem fieldsAreJson_iff {fields : List (Key × Document)} :
    FieldsAreJson fields ↔ ∀ field ∈ fields, (∃ name, field.1 = .name name) ∧ field.2.IsJson := by
  induction fields with
  | nil => simp [FieldsAreJson]
  | cons field fields ih => rw [FieldsAreJson, ih, List.forall_mem_cons, and_assoc]

@[simp]
theorem inJson_null : null.inJson order = null := rfl

@[simp]
theorem inJson_bool (value : Bool) : (bool value).inJson order = bool value := rfl

@[simp]
theorem inJson_int (value : Int) : (int value).inJson order = int value := rfl

@[simp]
theorem inJson_text (value : String) : (text value).inJson order = text value := rfl

theorem inJson_number {value : Float} (hfinite : value.isFinite = true) :
    (number value).inJson order = number value :=
  if_pos hfinite

@[simp]
theorem inJson_list (items : List Document) :
    (list items).inJson order = list (items.map (inJson order)) :=
  congrArg list (inJsonItems_eq_map items)

theorem inJson_record (fields : List (Key × Document)) :
    (record fields).inJson order =
      record (order.arrange (fields.map fun field => (field.1, field.2.inJson order))) :=
  congrArg (fun fields => record (order.arrange fields)) (inJsonFields_eq_map fields)

/-- There is only one order of a single field. -/
theorem inJson_singleField (name : String) (value : Document) :
    (ofFields [(name, value)]).inJson order = ofFields [(name, value.inJson order)] := by
  have hsingle := List.perm_singleton.1 (order.perm [(.name name, value.inJson order)])
  change (record [(.name name, value)]).inJson order = record [(.name name, value.inJson order)]
  rw [inJson_record, List.map_singleton, hsingle]

/-! ## Fields by name -/

/-- Fields with names are read as they were written. -/
theorem fields?_ofFields (lax : Leniency) (names : List String)
    (fields : List (String × Document)) :
    (ofFields fields).fields? lax names = some ⟨fields, false⟩ := by
  have hentries : nameEntries lax names (fields.map fun field => (.name field.1, field.2)) =
      some fields := by
    induction fields with
    | nil => rfl
    | cons field fields ih =>
        rw [List.map_cons, nameEntries, ih]
        rfl
  change fields? lax names (.record (fields.map fun field => (.name field.1, field.2))) = _
  rw [fields?, hentries]
  rfl

theorem fieldNamed?_map_name (name : String) (fields : List (String × Document)) :
    fieldNamed? name (fields.map fun field => (.name field.1, field.2)) = fields.lookup name := by
  induction fields with
  | nil => rfl
  | cons field fields ih =>
      rw [fieldNamed?] at ih
      rw [fieldNamed?, List.map_cons, List.lookup_cons, List.lookup_cons, ih]
      by_cases hname : name = field.1
      · simp [hname]
      · have hkey : Key.name name ≠ .name field.1 := fun hsame => hname (Key.name.inj hsame)
        rw [beq_false_of_ne hname, beq_false_of_ne hkey]

theorem lookup_eq_of_perm {fields entries : List (String × Document)}
    (hnodup : (fields.map Prod.fst).Nodup) (hperm : entries.Perm fields) (name : String) :
    entries.lookup name = fields.lookup name := by
  have hother : (entries.map Prod.fst).Nodup := (hperm.map Prod.fst).nodup_iff.2 hnodup
  let table : Table String Document := ⟨fields, hnodup⟩
  let arranged : Table String Document := ⟨entries, hother⟩
  exact Table.find?_eq_of_perm (show arranged.entries.Perm table.entries from hperm) name

theorem lookup_map_inJson (name : String) (fields : List (String × Document)) :
    (fields.map fun field => (field.1, field.2.inJson order)).lookup name =
      (fields.lookup name).map (inJson order) := by
  induction fields with
  | nil => rfl
  | cons field fields ih =>
      rw [List.map_cons, List.lookup_cons, List.lookup_cons, ih]
      cases name == field.1 <;> rfl

/-- The value of a record with names is a record with the same names, in some
order. -/
theorem exists_inJson_ofFields (order : FieldOrder) (fields : List (String × Document)) :
    ∃ entries, (ofFields fields).inJson order = ofFields entries ∧
      entries.Perm (fields.map fun field => (field.1, field.2.inJson order)) := by
  let keyed (field : String × Document) : Key × Document := (.name field.1, field.2)
  have hrecord : (ofFields fields).inJson order = record (order.arrange
      ((fields.map fun field => (field.1, field.2.inJson order)).map keyed)) := by
    change (record (fields.map keyed)).inJson order = _
    rw [inJson_record, List.map_map, List.map_map]
    rfl
  have hcomp := congrFun₂ (List.eq_map_comp_perm keyed)
  obtain ⟨entries, hentries, hperm⟩ := (hcomp _ _).mpr
    (order.perm ((fields.map fun field => (field.1, field.2.inJson order)).map keyed))
  refine ⟨entries, ?_, hperm⟩
  rw [hrecord, hentries]
  rfl

/-- What there is to know of the value of a record to read its fields. -/
theorem exists_fields_inJson (order : FieldOrder) (fields : List (String × Document))
    (hnodup : (fields.map Prod.fst).Nodup) :
    ∃ entries, (ofFields fields).inJson order = ofFields entries ∧
      ∀ name, entries.lookup name = (fields.lookup name).map (inJson order) := by
  obtain ⟨entries, hvalue, hperm⟩ := exists_inJson_ofFields order fields
  refine ⟨entries, hvalue, fun name => ?_⟩
  rw [← lookup_map_inJson]
  apply lookup_eq_of_perm _ hperm
  rwa [List.map_map]

section Found

variable {α : Type} {read : Document → Option α} {entries : List (String × Document)}
  {name : String} {d : Document} {found : α}

theorem required_of_lookup (hlookup : entries.lookup name = some d) (hread : read d = some found) :
    Fields.required ⟨entries, false⟩ name read = some found := by
  rw [Fields.required, hlookup]
  exact hread

theorem withDefault_of_lookup {default : α} (hlookup : entries.lookup name = some d)
    (hread : read d = some found) :
    Fields.withDefault ⟨entries, false⟩ name default read = some found := by
  rw [Fields.withDefault, hlookup]
  exact hread

end Found

section Optional

variable {α : Type} {read : Document → Option α} {value : Option α}

theorem lookup_optionalField (name other : String) (write : α → Document) (value : Option α) :
    (optionalField name write value).lookup other =
      if other = name then value.map write else none := by
  cases value with
  | none => simp [optionalField]
  | some found =>
      by_cases hname : other = name
      · simp [optionalField, hname]
      · rw [if_neg hname, optionalField, List.lookup_cons, beq_false_of_ne hname]
        rfl

/-- What is left out or not is no matter to the other fields. -/
theorem lookup_around_optionalField {name other : String} (hne : other ≠ name)
    (write : α → Document) (value : Option α) (before after : List (String × Document)) :
    (before ++ optionalField name write value ++ after).lookup other =
      (before ++ after).lookup other := by
  rw [List.lookup_append, List.lookup_append, lookup_optionalField, if_neg hne, Option.or_none,
    List.lookup_append]

theorem names_optionalField (name : String) (write : α → Document) (value : Option α) :
    (optionalField name write value).map Prod.fst ∈ [[], [name]] := by
  cases value <;> simp [optionalField]

/-- A field that was left out is read as nothing. -/
theorem optional_inJson (order : FieldOrder) (write : α → Document) {fields : Fields}
    {name : String}
    (hlookup : fields.entries.lookup name = (value.map write).map (inJson order))
    (hread : ∀ found, value = some found →
      ((write found).inJson order).asOption? read = some (some found)) :
    fields.optional name read = some value := by
  rw [Fields.optional, hlookup]
  cases value with
  | none => rfl
  | some found => exact hread found rfl

end Optional

section Lists

variable {α : Type} {read : Document → Option α} {write : α → Document} {items : List α}

/-- A list is read back if each of its items is. -/
theorem mapM_map (hread : ∀ item ∈ items, read (write item) = some item) :
    (items.map write).mapM read = some items := by
  induction items with
  | nil => rfl
  | cons item items ih =>
      obtain ⟨hitem, hitems⟩ := List.forall_mem_cons.1 hread
      rw [List.map_cons, List.mapM_cons, hitem, ih hitems]
      rfl

theorem exists_of_mem_mapM {found : List Document} (hread : found.mapM read = some items)
    {item : α} (hitem : item ∈ items) : ∃ d ∈ found, read d = some item := by
  induction found generalizing items with
  | nil =>
      cases hread
      cases hitem
  | cons d found ih =>
      rw [List.mapM_cons] at hread
      obtain ⟨first, hfirst, hread⟩ := Option.bind_eq_some_iff.1 hread
      obtain ⟨rest, hrest, hread⟩ := Option.bind_eq_some_iff.1 hread
      cases hread
      rcases List.mem_cons.1 hitem with rfl | hitem
      · exact ⟨d, List.mem_cons_self, hfirst⟩
      · obtain ⟨other, hother, hitem⟩ := ih hrest hitem
        exact ⟨other, List.mem_cons_of_mem d hother, hitem⟩

theorem readList?_inJson (order : FieldOrder) (lax : Leniency)
    (hread : ∀ item ∈ items, read ((write item).inJson order) = some item) :
    readList? lax read ((list (items.map write)).inJson order) = some items := by
  rw [inJson_list, List.map_map]
  exact mapM_map hread

end Lists

theorem readList?_texts (lax : Leniency) (items : List String) :
    readList? lax asText? ((texts items).inJson order) = some items := by
  apply readList?_inJson
  intro item _
  rw [inJson_text, asText?]

theorem isFinite_of_asFloat? {d : Document} {value : Float} (hjson : d.IsJson)
    (hread : d.asFloat? = some value) : value.isFinite = true := by
  cases d with
  | int n =>
      rw [IsJson] at hjson
      cases hread
      exact Decimal.isFinite_ofInt hjson.1 hjson.2
  | number x =>
      rw [IsJson] at hjson
      cases hread
      exact hjson
  | _ => cases hread

theorem snd_mem_of_nameEntries {lax : Leniency} {names : List String}
    {fields : List (Key × Document)} {entries : List (String × Document)}
    (hentries : nameEntries lax names fields = some entries) {entry : String × Document}
    (hentry : entry ∈ entries) : entry.2 ∈ fields.map Prod.snd := by
  induction fields generalizing entries with
  | nil =>
      cases hentries
      cases hentry
  | cons field fields ih =>
      obtain ⟨key, value⟩ := field
      rw [List.map_cons, List.mem_cons]
      obtain ⟨rest, hrest, hentries⟩ := Option.bind_eq_some_iff.1 hentries
      have hcons : ∀ name, entry ∈ (name, value) :: rest →
          entry.2 = value ∨ entry.2 ∈ fields.map Prod.snd := by
        intro name hmem
        rcases List.mem_cons.1 hmem with rfl | hmem
        · exact .inl rfl
        · exact .inr (ih hrest hmem)
      cases key with
      | name name =>
          cases hentries
          exact hcons name hentry
      | position index =>
          simp only at hentries
          split at hentries
          · split at hentries
            · cases hentries
              exact hcons _ hentry
            · cases hentries
              exact .inr (ih hrest hentry)
          · cases hentries
      | other => cases hentries

/-- What a value has as its fields are values. -/
theorem isJson_of_fields? {d : Document} {lax : Leniency} {names : List String} {fields : Fields}
    (hjson : d.IsJson) (hfields : d.fields? lax names = some fields) {entry : String × Document}
    (hentry : entry ∈ fields.entries) : entry.2.IsJson := by
  cases d with
  | record given =>
      rw [IsJson, fieldsAreJson_iff] at hjson
      obtain ⟨entries, hentries, hfields⟩ := Option.bind_eq_some_iff.1 hfields
      cases hfields
      obtain ⟨field, hfield, hvalue⟩ := List.mem_map.1 (snd_mem_of_nameEntries hentries hentry)
      rw [← hvalue]
      exact (hjson.2 field hfield).2
  | list items =>
      rw [IsJson, areJson_iff] at hjson
      rw [fields?] at hfields
      split at hfields
      · cases hfields
        exact hjson _ (List.of_mem_zip hentry).2
      · cases hfields
  | null =>
      rw [fields?] at hfields
      split at hfields
      · cases hfields
        cases hentry
      · cases hfields
  | _ => cases hfields

/-- A field that is required is read from a value. -/
theorem exists_of_required {α : Type} {read : Document → Option α} {d : Document} {lax : Leniency}
    {names : List String} {fields : Fields} (hjson : d.IsJson)
    (hfields : d.fields? lax names = some fields) {name : String} {found : α}
    (hread : fields.required name read = some found) :
    ∃ value, value.IsJson ∧ read value = some found := by
  obtain ⟨value, hvalue, hread⟩ := Option.bind_eq_some_iff.1 hread
  obtain ⟨before, after, hentries, -⟩ := List.lookup_eq_some_iff.1 hvalue
  have hmem : (name, value) ∈ fields.entries := by
    rw [hentries]
    exact List.mem_append_right before List.mem_cons_self
  exact ⟨value, isJson_of_fields? hjson hfields hmem, hread⟩

namespace Json

mutual

/-- A document and its value have the same text, if the fields keep their order. -/
theorem write_inJson (spacing : Spacing) (depth : Nat) (d : Document) :
    write spacing depth (d.inJson .asWritten) = write spacing depth d := by
  cases d with
  | number value =>
      by_cases hfinite : value.isFinite = true
      · rw [inJson_number hfinite]
      · rw [inJson, if_neg hfinite, write, write, numberChars,
          Decimal.numberText?_eq_none hfinite]
  | list items =>
      cases items with
      | nil => rw [inJson, inJsonItems]
      | cons item items =>
          rw [inJson, inJsonItems, write, write, write_inJson spacing (depth + 1) item,
            writeItems_inJson spacing (depth + 1) items]
  | record fields =>
      cases fields with
      | nil => rfl
      | cons field fields =>
          obtain ⟨key, value⟩ := field
          rw [inJson, inJsonFields]
          change write spacing depth (record ((key, value.inJson .asWritten) :: _)) = _
          rw [write, write, write_inJson spacing (depth + 1) value,
            writeFields_inJson spacing (depth + 1) fields]
  | _ => simp

theorem writeItems_inJson (spacing : Spacing) (depth : Nat) (items : List Document) :
    writeItems spacing depth (inJsonItems .asWritten items) = writeItems spacing depth items := by
  cases items with
  | nil => rw [inJsonItems]
  | cons item items =>
      rw [inJsonItems, writeItems, writeItems, write_inJson spacing depth item,
        writeItems_inJson spacing depth items]

theorem writeFields_inJson (spacing : Spacing) (depth : Nat) (fields : List (Key × Document)) :
    writeFields spacing depth (inJsonFields .asWritten fields) =
      writeFields spacing depth fields := by
  cases fields with
  | nil => rw [inJsonFields]
  | cons field fields =>
      obtain ⟨key, value⟩ := field
      rw [inJsonFields, writeFields, writeFields, write_inJson spacing depth value,
        writeFields_inJson spacing depth fields]

end

end Json

end Document

end MetricAlerts
