import MetricAlerts.Document.Basic

/-!
# Equality of documents

Documents can be compared, all the way down.
-/

namespace MetricAlerts.Document

mutual

def same : Document → Document → Bool
  | null, null => true
  | bool a, bool b => a == b
  | int a, int b => a == b
  | number a, number b => decide (a = b)
  | text a, text b => a == b
  | list items, list others => sameItems items others
  | record fields, record others => sameFields fields others
  | _, _ => false

def sameItems : List Document → List Document → Bool
  | [], [] => true
  | item :: items, other :: others => item.same other && sameItems items others
  | _, _ => false

def sameFields : List (Key × Document) → List (Key × Document) → Bool
  | [], [] => true
  | (key, value) :: fields, (name, found) :: others =>
      key == name && value.same found && sameFields fields others
  | _, _ => false

end

mutual

theorem same_iff (document other : Document) : document.same other = true ↔ document = other := by
  cases document with
  | null => cases other <;> simp [same]
  | bool value => cases other <;> simp [same]
  | int value => cases other <;> simp [same]
  | number value => cases other <;> simp [same]
  | text value => cases other <;> simp [same]
  | list items =>
      cases other with
      | list others => simp [same, sameItems_iff items others]
      | _ => simp [same]
  | record fields =>
      cases other with
      | record others => simp [same, sameFields_iff fields others]
      | _ => simp [same]

theorem sameItems_iff (items others : List Document) :
    sameItems items others = true ↔ items = others := by
  cases items with
  | nil => cases others <;> simp [sameItems]
  | cons item items =>
      cases others with
      | nil => simp [sameItems]
      | cons other others => simp [sameItems, same_iff item other, sameItems_iff items others]

theorem sameFields_iff (fields others : List (Key × Document)) :
    sameFields fields others = true ↔ fields = others := by
  cases fields with
  | nil => cases others <;> simp [sameFields]
  | cons field fields =>
      obtain ⟨key, value⟩ := field
      cases others with
      | nil => simp [sameFields]
      | cons other others =>
          obtain ⟨name, found⟩ := other
          simp [sameFields, same_iff value found, sameFields_iff fields others]

end

instance : DecidableEq Document := fun document other =>
  decidable_of_iff (document.same other = true) (same_iff document other)

end MetricAlerts.Document
