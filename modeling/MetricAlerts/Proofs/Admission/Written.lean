import MetricAlerts.Files.Items
import MetricAlerts.Proofs.Calendar.DayText
import MetricAlerts.Proofs.Rule.Written

/-!
# Reading histories that were written

A record of a history is read back from its document, whatever its key, its
count and its days are, with or without days.  A list of records is read back
from the document that files keep of it.
-/

namespace MetricAlerts

open Document

namespace Document

theorem readDay?_writeDay (day : Day) : readDay? (writeDay day) = some day :=
  day.read?_text

/-- No day is written as null, and read back as no day. -/
theorem asOption?_ofOption_writeDay (day : Option Day) :
    (ofOption writeDay day).asOption? readDay? = some day := by
  cases day with
  | none => rfl
  | some day => exact congrArg (Option.map some) (readDay?_writeDay day)

@[simp]
theorem inJson_ofOption_writeDay (order : FieldOrder) (day : Option Day) :
    (ofOption writeDay day).inJson order = ofOption writeDay day := by
  cases day with
  | none => exact inJson_null
  | some day => exact inJson_text day.text

end Document

variable {entries : List (String × Document)} {key : AlertKey} {history : History}

theorem AlertKey.ofFields?_of_lookup
    (hlookup : ∀ name, entries.lookup name = (key.fields ++ history.fields).lookup name) :
    ofFields? ⟨entries, false⟩ = some key := by
  simp [ofFields?, hlookup, fields, History.fields, Fields.required, asText?, List.lookup_cons]

theorem History.ofFields?_of_lookup
    (hlookup : ∀ name, entries.lookup name = (key.fields ++ history.fields).lookup name) :
    ofFields? ⟨entries, false⟩ = some history := by
  simp only [ofFields?, hlookup, fields, AlertKey.fields, Fields.required, Fields.nullable,
    List.cons_append, List.nil_append, List.lookup_cons, String.reduceBEq, Option.bind_some,
    asUInt32?_writeUInt32, asOption?_ofOption_writeDay]
  rfl

namespace HistoryRecord

variable {record : HistoryRecord}

theorem ofDocument?_of_lookup (hlookup : ∀ name, entries.lookup name =
    (record.key.fields ++ record.history.fields).lookup name) :
    ofDocument? (ofFields entries) = some record := by
  rw [ofDocument?, fields?_ofFields]
  simp only [Option.bind_eq_bind, Option.bind_some, AlertKey.ofFields?_of_lookup hlookup,
    History.ofFields?_of_lookup hlookup]
  rfl

theorem ofDocument?_toDocument (record : HistoryRecord) :
    ofDocument? record.toDocument = some record :=
  ofDocument?_of_lookup fun _ => rfl

/-- The fields of a record are the same in JSON. -/
theorem ofDocument?_inJson (order : FieldOrder) (record : HistoryRecord) :
    ofDocument? (record.toDocument.inJson order) = some record := by
  obtain ⟨entries, hvalue, hlookup⟩ := exists_fields_inJson order
    (record.key.fields ++ record.history.fields)
    (by decide : (AlertKey.fieldNames ++ History.fieldNames).Nodup)
  rw [toDocument, hvalue]
  apply ofDocument?_of_lookup
  intro name
  rw [hlookup, ← lookup_map_inJson]
  simp [AlertKey.fields, History.fields]

/-- The records of a file are those that were written to it. -/
theorem ofDocument_listDocument (records : List HistoryRecord) :
    inFiles.ofDocument (listDocument records) = .ok records := by
  have hfield : fieldNamed? inFiles.field
      [(.name inFiles.field, .list (records.map toDocument))] =
        some (.list (records.map toDocument)) := by
    rw [fieldNamed?, List.lookup_cons_self]
  have hread : (Document.list (records.map toDocument)).readList? .file inFiles.read =
      some records := mapM_map fun record _ => ofDocument?_toDocument record
  rw [listDocument, ofFields]
  simp only [List.map_cons, List.map_nil, ItemKind.ofDocument, hfield, hread]

end HistoryRecord

end MetricAlerts
