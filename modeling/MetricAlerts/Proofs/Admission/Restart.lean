import MetricAlerts.Proofs.Admission.Growth
import MetricAlerts.Proofs.Admission.Linearization
import MetricAlerts.Proofs.Admission.Written
import MetricAlerts.Proofs.Document.Equality
import MetricAlerts.Proofs.Files.Writing

/-!
# Ledgers after a restart

A ledger is kept over a restart as the records of its histories, in a file.  The
ledger that is made of these records has the same histories under the same keys,
but begins with new versions.  Calls that come one after the other do not see
versions: each of them reads the one that it hands back.  So from the restart on
the two ledgers answer alike and stay alike.
-/

namespace MetricAlerts

section Tables

variable {κ ν : Type} [DecidableEq κ]

theorem Table.find?_foldl_insert {pairs : List (κ × ν)} (hnodup : (pairs.map Prod.fst).Nodup)
    (table : Table κ ν) (key : κ) :
    (pairs.foldl (fun table pair => table.insert pair.1 pair.2) table).find? key =
      (pairs.lookup key).or (table.find? key) := by
  induction pairs generalizing table with
  | nil => rfl
  | cons pair pairs ih =>
      obtain ⟨own, value⟩ := pair
      rw [List.map_cons, List.nodup_cons] at hnodup
      rw [List.foldl_cons, ih hnodup.2, Table.find?_insert]
      by_cases hkey : key = own
      · have hnone : pairs.lookup own = none := by
          rw [List.lookup_eq_none_iff]
          intro pair hpair
          rw [bne_iff_ne]
          rintro rfl
          exact hnodup.1 (List.mem_map.2 ⟨pair, hpair, rfl⟩)
        rw [hkey, hnone, List.lookup_cons_self, if_pos rfl]
        rfl
      · rw [if_neg hkey, List.lookup_cons, beq_false_of_ne hkey]

theorem Table.find?_ofList_eq_some_iff {pairs : List (κ × ν)}
    (hnodup : (pairs.map Prod.fst).Nodup) {key : κ} {value : ν} :
    (ofList pairs).find? key = some value ↔ (key, value) ∈ pairs := by
  rw [ofList, find?_foldl_insert hnodup, find?_empty, Option.or_none]
  let table : Table κ ν := ⟨pairs, hnodup⟩
  change table.find? key = some value ↔ (key, value) ∈ table.entries
  exact find?_eq_some_iff

end Tables

namespace Ledger

theorem mem_records {ledger : Ledger} {record : HistoryRecord} :
    record ∈ ledger.records ↔
      ∃ stored, ledger.find? record.key = some stored ∧ stored.history = record.history := by
  rw [records, List.mem_mergeSort, List.mem_map]
  constructor
  · rintro ⟨⟨key, stored⟩, hentry, rfl⟩
    exact ⟨stored, Table.find?_eq_some_iff.2 hentry, rfl⟩
  · rintro ⟨stored, hstored, hhistory⟩
    exact ⟨(record.key, stored), Table.find?_eq_some_iff.1 hstored, by simp [hhistory]⟩

theorem nodup_records (ledger : Ledger) : (ledger.records.map HistoryRecord.key).Nodup := by
  rw [records, ((List.mergeSort_perm _ _).map HistoryRecord.key).nodup_iff, List.map_map]
  exact ledger.nodup

/-- What is restored of a ledger by its records: every history, at version 1. -/
theorem find?_ofRecords_records (ledger : Ledger) (key : AlertKey) :
    (ofRecords ledger.records).find? key =
      (ledger.find? key).map fun stored => ⟨stored.history, 1⟩ := by
  have hnodup : ((ledger.records.map fun record =>
      (record.key, (⟨record.history, 1⟩ : Versioned))).map Prod.fst).Nodup := by
    rw [List.map_map]
    exact ledger.nodup_records
  apply Option.ext
  intro versioned
  rw [ofRecords, Table.find?_ofList_eq_some_iff hnodup, List.mem_map, Option.map_eq_some_iff]
  constructor
  · rintro ⟨record, hrecord, hpair⟩
    obtain ⟨stored, hstored, hhistory⟩ := mem_records.1 hrecord
    cases hpair
    exact ⟨stored, hstored, by rw [hhistory]⟩
  · rintro ⟨stored, hstored, rfl⟩
    exact ⟨⟨key, stored.history⟩, mem_records.2 ⟨stored, hstored, rfl⟩, rfl⟩

theorem history?_ofRecords_records (ledger : Ledger) (key : AlertKey) :
    (ofRecords ledger.records).history? key = ledger.history? key := by
  rw [history?, history?, find?_ofRecords_records, Option.map_map]
  rfl

end Ledger

namespace AdmissionCall

variable {ledger other : Ledger}

/-- A call looks at nothing but the history under its key. -/
theorem run_congr (call : AdmissionCall) (hsame : ∀ key, ledger.history? key = other.history? key) :
    (call.dialogue.run Ledger.store ledger).answer = (call.dialogue.run Ledger.store other).answer ∧
      ∀ key, (call.dialogue.run Ledger.store ledger).state.history? key =
        (call.dialogue.run Ledger.store other).state.history? key := by
  have hhistory : (ledger.load call.key).history = (other.load call.key).history := by
    rw [Ledger.history_load, Ledger.history_load, hsame]
  cases hcheck : call.rule.limits.check (ledger.load call.key).history call.day with
  | error reason =>
      rw [run_suppressed hcheck, run_suppressed (hhistory ▸ hcheck)]
      exact ⟨rfl, hsame⟩
  | ok next =>
      rw [run_admitted hcheck, run_admitted (hhistory ▸ hcheck)]
      refine ⟨rfl, fun key => ?_⟩
      simp only [Ledger.history?, Table.find?_insert]
      split
      · rfl
      · exact hsame key

theorem oneByOne_congr (calls : List AdmissionCall)
    (hsame : ∀ key, ledger.history? key = other.history? key) :
    (oneByOne calls ledger).1 = (oneByOne calls other).1 ∧
      ∀ key, (oneByOne calls ledger).2.history? key = (oneByOne calls other).2.history? key := by
  induction calls generalizing ledger other with
  | nil => exact ⟨rfl, hsame⟩
  | cons call calls ih =>
      obtain ⟨hanswer, hnext⟩ := call.run_congr hsame
      obtain ⟨hanswers, hlater⟩ := ih hnext
      refine ⟨?_, hlater⟩
      simp only [oneByOne, hanswer, hanswers]

end AdmissionCall

/-- What was written to a file is loaded from it, if the text of the document is
read as the document. -/
theorem HistoryRecord.load_of_writeDocument {files later : FileTree} {path : String}
    {records : List HistoryRecord}
    (hread : Yaml.read? (Document.Json.renderIndented (listDocument records)) =
      some (listDocument records))
    (hwrite : files.writeDocument path (listDocument records) = .ok later) :
    inFiles.load later path = .ok records := by
  rw [ItemKind.load_of_writeDocument inFiles hwrite hread, ofDocument_listDocument]
  rfl

/-- A ledger that is written to a file and made anew from what is loaded has the
same histories, each of them at version 1.  Whatever calls follow, one after the
other, they are answered as by the old ledger, and leave the same histories. -/
theorem Ledger.restart_transparent {files later : FileTree} {path : String} (ledger : Ledger)
    (hread : Yaml.read? (Document.Json.renderIndented (HistoryRecord.listDocument ledger.records)) =
      some (HistoryRecord.listDocument ledger.records))
    (hwrite : files.writeDocument path (HistoryRecord.listDocument ledger.records) = .ok later) :
    ∃ records, HistoryRecord.inFiles.load later path = .ok records ∧
      let restored := ofRecords records
      (∀ key, restored.history? key = ledger.history? key) ∧
      (∀ key stored, restored.find? key = some stored → stored.version = 1) ∧
      ∀ calls : List AdmissionCall,
        (AdmissionCall.oneByOne calls restored).1 = (AdmissionCall.oneByOne calls ledger).1 ∧
        ∀ key, (AdmissionCall.oneByOne calls restored).2.history? key =
          (AdmissionCall.oneByOne calls ledger).2.history? key := by
  refine ⟨ledger.records, HistoryRecord.load_of_writeDocument hread hwrite,
    ledger.history?_ofRecords_records, ?_, ?_⟩
  · intro key stored hstored
    rw [find?_ofRecords_records, Option.map_eq_some_iff] at hstored
    obtain ⟨before, -, rfl⟩ := hstored
    rfl
  · intro calls
    exact AdmissionCall.oneByOne_congr calls ledger.history?_ofRecords_records

/-- A ledger in which a history was replaced three times, the last time on a leap
day.  Its count belongs to no day. -/
def Ledger.replacedThrice : Ledger :=
  Table.insert .empty ⟨"acme", "ada", "daily"⟩ ⟨⟨Day.ofNumber? 19782, 1, none⟩, 3⟩

theorem Ledger.restart_transparent_replacedThrice :
    let ledger := Ledger.replacedThrice
    Yaml.read? (Document.Json.renderIndented (HistoryRecord.listDocument ledger.records)) =
        some (HistoryRecord.listDocument ledger.records) ∧
      ∃ later records,
        FileTree.writeDocument .empty "triggers.json"
          (HistoryRecord.listDocument ledger.records) = .ok later ∧
        HistoryRecord.inFiles.load later "triggers.json" = .ok records ∧
        (ofRecords records).history? ⟨"acme", "ada", "daily"⟩ =
          some ⟨Day.ofNumber? 19782, 1, none⟩ := by
  intro ledger
  have hread : Yaml.read? (Document.Json.renderIndented
      (HistoryRecord.listDocument ledger.records)) =
        some (HistoryRecord.listDocument ledger.records) := by
    decide +kernel
  refine ⟨hread, ?_⟩
  have hwritten : (FileTree.writeDocument .empty "triggers.json"
      (HistoryRecord.listDocument ledger.records)).toBool = true := by
    decide +kernel
  cases hwrite : FileTree.writeDocument .empty "triggers.json"
      (HistoryRecord.listDocument ledger.records) with
  | error cause =>
      rw [hwrite] at hwritten
      cases hwritten
  | ok later =>
      obtain ⟨records, hload, hhistories, -⟩ := restart_transparent ledger hread hwrite
      exact ⟨later, records, rfl, hload, hhistories _⟩

end MetricAlerts
