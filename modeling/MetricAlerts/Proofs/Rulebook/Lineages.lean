import MetricAlerts.Proofs.Rule.Validity
import MetricAlerts.Proofs.Rulebook.Changes
import MetricAlerts.Proofs.Text.Slug

/-!
# What is stored under an id

Revisions are only ever added at the end of a lineage, each one numbered after
the one before.  So a lineage counts its own revisions, whatever versions the
rules carry that are handed in.  All its revisions are free of faults, and the
id it is found under is a slug, also where none was asked for: a random name
looks like a slug, and a copy without a name gets that of the rule it is copied
from, with a suffix.
-/

namespace MetricAlerts

namespace Uuid

theorem isSlugLetter_hexDigit {n : UInt8} (hn : n.toNat < 16) :
    Text.isSlugLetter (hexDigit n) = true := by
  have hall : ∀ k < 16, Text.isSlugLetter (hexDigit (.ofNat k)) = true := by decide
  rw [← UInt8.ofNat_toNat (x := n)]
  exact hall n.toNat hn

theorem isSlugLetter_of_mem_hexDigits {byte : UInt8} {c : Char} (hc : c ∈ hexDigits byte) :
    Text.isSlugLetter c = true := by
  have hbyte := byte.toNat_lt
  rw [hexDigits, List.mem_pair] at hc
  rcases hc with rfl | rfl
  · apply isSlugLetter_hexDigit
    rw [UInt8.toNat_div]
    change byte.toNat / 16 < 16
    omega
  · apply isSlugLetter_hexDigit
    rw [UInt8.toNat_mod]
    exact Nat.mod_lt byte.toNat (by decide)

theorem mem_of_mem_grouped {cs : List Char} {c : Char} (hc : c ∈ grouped cs) :
    c = '-' ∨ c ∈ cs := by
  simp only [grouped, List.mem_append, List.mem_cons] at hc
  grind [List.mem_of_mem_take, List.mem_of_mem_drop]

/-- A random identifier is written in letters, digits and dashes. -/
theorem isSlugLetter_of_mem_ofRandom {bytes : List UInt8} {c : Char}
    (hc : c ∈ (ofRandom bytes).text.toList) : Text.isSlugLetter c = true := by
  rw [ofRandom, String.toList_ofList] at hc
  rcases mem_of_mem_grouped hc with rfl | hc
  · rfl
  · obtain ⟨byte, -, hc⟩ := List.mem_flatMap.1 hc
    exact isSlugLetter_of_mem_hexDigits hc

end Uuid

/-- An id under which a rule can be stored. -/
structure IsStoredId (id : String) : Prop where
  nonempty : id ≠ ""
  isSlug : Text.IsSlug id.toList

namespace Registry

variable {id : String}

theorem isStoredId_normalId (id : String) (bytes : List UInt8) :
    IsStoredId (normalId id (.ofRandom bytes)) := by
  simp only [normalId]
  split
  · constructor
    · intro hempty
      have hlength := congrArg String.length hempty
      simp at hlength
    · apply Text.isSlug_of_isSlugLetter
      intro c hc
      rw [String.toList_append, List.mem_append] at hc
      rcases hc with hc | hc
      · exact List.all_eq_true.1 (by decide : "rule-".toList.all Text.isSlugLetter = true) c hc
      · exact Uuid.isSlugLetter_of_mem_ofRandom hc
  · next hslug =>
      constructor
      · intro hempty
        simp [hempty] at hslug
      · exact Text.slug_eq_self_iff.1 (Text.slug_slug id)

theorem isStoredId_copyId (hid : IsStoredId id) (newId : Option String) (bytes : List UInt8) :
    IsStoredId (copyId id newId (.ofRandom bytes)) := by
  cases newId with
  | some newId => exact isStoredId_normalId newId bytes
  | none =>
      constructor
      · intro hempty
        have hlength := congrArg String.length hempty
        simp [copyId] at hlength
      · change Text.IsSlug (id ++ "-copy").toList
        rw [String.toList_append]
        apply hid.isSlug.append
        · simpa using hid.nonempty
        · exact List.all_eq_true.1 (by decide : "-copy".toList.all Text.isSlugLetter = true)

end Registry

namespace Lineage

/-- Revisions numbered from one, each of a rule that has the version too and is
free of faults. -/
def IsNumbered (lineage : Lineage) : Prop :=
  ∀ (place : Nat) (revision : Revision), lineage.revisions[place]? = some revision →
    revision.version = .ofNat (place + 1) ∧ revision.rule.version = revision.version ∧
      revision.rule.fault? = none

variable {lineage : Lineage} {rule : Rule} {actor : Actor} {stamp : Stamp}

theorem isNumbered_start (hversion : rule.version = 1) (hvalid : rule.fault? = none) :
    (start (Registry.revisionBy actor stamp rule)).IsNumbered := by
  intro place revision hplace
  cases place with
  | zero =>
      cases hplace
      exact ⟨hversion, rfl, hvalid⟩
  | succ place => simp [start, revisions] at hplace

theorem getElem?_current (lineage : Lineage) :
    lineage.revisions[lineage.earlier.length]? = some lineage.current := by
  simp [revisions]

theorem IsNumbered.version_rule (hlineage : lineage.IsNumbered) :
    lineage.rule.version = .ofNat lineage.revisions.length := by
  obtain ⟨hversion, hrule, -⟩ := hlineage _ _ lineage.getElem?_current
  rw [rule, hrule, hversion]
  simp [revisions]

theorem IsNumbered.fault?_rule (hlineage : lineage.IsNumbered) : lineage.rule.fault? = none :=
  (hlineage _ _ lineage.getElem?_current).2.2

theorem IsNumbered.extend (hlineage : lineage.IsNumbered)
    (hversion : rule.version = lineage.rule.version + 1) (hvalid : rule.fault? = none) :
    (lineage.extend (Registry.revisionBy actor stamp rule)).IsNumbered := by
  intro place revision hplace
  change (lineage.revisions ++ [Registry.revisionBy actor stamp rule])[place]? = _ at hplace
  by_cases hearlier : place < lineage.revisions.length
  · rw [List.getElem?_append_left hearlier] at hplace
    exact hlineage place revision hplace
  · rw [List.getElem?_append_right (Nat.not_lt.1 hearlier), List.getElem?_singleton] at hplace
    split at hplace
    · next hlast =>
        cases hplace
        have hplace : place = lineage.revisions.length := by omega
        refine ⟨?_, rfl, hvalid⟩
        change rule.version = _
        rw [hversion, hlineage.version_rule, hplace, UInt32.ofNat_add]
        rfl
    · cases hplace

end Lineage

namespace Rulebook

/-- Every lineage is numbered and found under a proper id. -/
def IsNumbered (book : Rulebook) : Prop :=
  ∀ id lineage, book.find? id = some lineage → IsStoredId id ∧ lineage.IsNumbered

variable {book : Rulebook} {id : String} {lineage : Lineage}

theorem IsNumbered.insert (hbook : book.IsNumbered) (hid : IsStoredId id)
    (hlineage : lineage.IsNumbered) : IsNumbered (book.insert id lineage) := by
  intro other found hfound
  rw [Table.find?_insert] at hfound
  split at hfound
  · next hother =>
      cases hfound
      exact hother ▸ ⟨hid, hlineage⟩
  · exact hbook other found hfound

theorem IsNumbered.erase (hbook : book.IsNumbered) (id : String) :
    IsNumbered (book.erase id) := by
  intro other found hfound
  rw [Table.find?_erase] at hfound
  split at hfound
  · cases hfound
  · exact hbook other found hfound

/-- The names that are made up for rules are random. -/
theorem isNumbered_ofRequests {requests : List ChangeRequest}
    (hrandom : ∀ request ∈ requests, ∃ bytes, request.stamp.token = .ofRandom bytes) :
    (Registry.ofRequests requests).book.IsNumbered := by
  apply Registry.ofRequests_induction (motive := fun registry => registry.book.IsNumbered)
  · intro id lineage hlineage
    cases hlineage
  · intro request hrequest registry rule later hbook hbecomes
    obtain ⟨bytes, htoken⟩ := hrandom request hrequest
    cases hbecomes with
    | created asked rule hrule hvalid hfree =>
        apply hbook.insert
        · simp only [hrule, htoken]
          exact Registry.isStoredId_normalId asked.id bytes
        · apply Lineage.isNumbered_start _ hvalid
          rw [hrule]
    | copied id newId lineage rule hlineage hrule hfree =>
        obtain ⟨hid, hnumbered⟩ := hbook id lineage hlineage
        apply hbook.insert
        · simp only [hrule, htoken]
          exact Registry.isStoredId_copyId hid newId bytes
        · apply Lineage.isNumbered_start
          · rw [hrule]
          · apply Rule.fault?_eq_none_of_same hnumbered.fault?_rule <;> rw [hrule]
    | revised id action change lineage rule hlineage hrule hvalid haction =>
        obtain ⟨hid, hnumbered⟩ := hbook id lineage hlineage
        apply hbook.insert hid
        apply hnumbered.extend _ hvalid
        rw [hrule]
    | deleted id lineage hlineage => exact hbook.erase id

/-- Under every stored id there are revisions, the first one with version 1,
the next one with version 2, and so on as far as versions go.  Each revision
is of a rule of this id that carries the same version and has no fault; and the
id is not empty and is its own slug. -/
theorem revisions_numbered (requests : List ChangeRequest)
    (hrandom : ∀ request ∈ requests, ∃ bytes, request.stamp.token = .ofRandom bytes)
    (id : String) (hstored : (Registry.ofRequests requests).book.contains id = true) :
    let revisions := (Registry.ofRequests requests).book.revisions id
    revisions ≠ [] ∧
    (∀ (place : Nat) (revision : Revision), revisions[place]? = some revision →
      (place + 1 < UInt32.size → revision.version.toNat = place + 1) ∧
        revision.rule.version = revision.version ∧ revision.rule.id = id ∧
        revision.rule.fault? = none) ∧
    id ≠ "" ∧ Text.slug id = id := by
  obtain ⟨lineage, hlineage⟩ := Option.isSome_iff_exists.1 hstored
  obtain ⟨hid, hnumbered⟩ := isNumbered_ofRequests hrandom id lineage hlineage
  have hrevisions : (Registry.ofRequests requests).book.revisions id = lineage.revisions := by
    rw [revisions, hlineage]
  intro revisions
  simp only [revisions, hrevisions]
  refine ⟨?_, ?_, hid.nonempty, Text.slug_eq_self_iff.2 hid.isSlug⟩
  · simp [Lineage.revisions]
  · intro place revision hplace
    obtain ⟨hversion, hrule, hvalid⟩ := hnumbered place revision hplace
    refine ⟨?_, hrule, ?_, hvalid⟩
    · intro hsize
      rw [hversion]
      exact UInt32.toNat_ofNat_of_lt hsize
    · exact isKeyed_ofRequests requests id lineage hlineage revision
        (List.mem_of_getElem? hplace)

/-- A rule that always matches, under an id that has no letter in it. -/
def namelessRule : Rule where
  id := "?!"
  version := 7
  tenant := "acme"
  enabled := true
  description := none
  category := ""
  priority := 0
  severity := 0
  cooldownDays := 1
  maxPerDay := 1
  tags := .empty
  logic := .group .all []
  messages := ⟨"en", [⟨none, "hello", 1⟩]⟩

def randomName : Uuid := .ofRandom (List.replicate 16 0)

/-- The rule is created, copied, and its copy enabled; then it is asked for a
copy that is there already. -/
def namelessRequests : List ChangeRequest :=
  let id := "rule-" ++ randomName.text
  let changes : List Change :=
    [.create namelessRule, .copy id none, .setEnabled (id ++ "-copy") true, .copy id none]
  changes.map fun change => ⟨change, .system, ⟨⟨0, 0⟩, randomName, randomName⟩⟩

theorem revisions_numbered_namelessRequests :
    let id := "rule-00000000-0000-4000-8000-000000000000-copy"
    let revisions := (Registry.ofRequests namelessRequests).book.revisions id
    (∀ request ∈ namelessRequests, ∃ bytes, request.stamp.token = .ofRandom bytes) ∧
    (Registry.ofRequests namelessRequests).book.contains id = true ∧
    revisions.length = 2 ∧ revisions ≠ [] ∧
    (∀ (place : Nat) (revision : Revision), revisions[place]? = some revision →
      (place + 1 < UInt32.size → revision.version.toNat = place + 1) ∧
        revision.rule.version = revision.version ∧ revision.rule.id = id ∧
        revision.rule.fault? = none) ∧
    id ≠ "" ∧ Text.slug id = id := by
  intro id revisions
  have hrandom : ∀ request ∈ namelessRequests, ∃ bytes, request.stamp.token = .ofRandom bytes := by
    intro request hrequest
    obtain ⟨change, -, rfl⟩ := List.mem_map.1 hrequest
    exact ⟨_, rfl⟩
  have hstored : (Registry.ofRequests namelessRequests).book.contains id = true := by
    decide +kernel
  have hlength : revisions.length = 2 := by decide +kernel
  exact ⟨hrandom, hstored, hlength, revisions_numbered namelessRequests hrandom id hstored⟩

end Rulebook

end MetricAlerts
