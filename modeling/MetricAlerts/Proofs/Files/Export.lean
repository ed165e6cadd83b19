import MetricAlerts.Proofs.Document.Equality
import MetricAlerts.Proofs.Files.Duplicates
import MetricAlerts.Proofs.Files.Writing
import MetricAlerts.Proofs.Rule.Order
import MetricAlerts.Proofs.Rule.Validity
import MetricAlerts.Proofs.Rule.Written

/-!
# Rules that are exported

Rules that were loaded are exported as one list and loaded from it again.  A rule
without a fault has only numbers that JSON can express, so each is read back as
it was.  No slug has come in twice on the way, and a list in the order of
evaluation is not changed when it is brought into that order, also where rules
without a slug share an id and only their places tell them apart.
-/

namespace MetricAlerts

theorem Operand.isFinite_of_flaw?_eq_none {comparison : Comparison} {operand : Operand}
    (hsound : operand.flaw? comparison = none) : operand.IsFinite := by
  unfold flaw? at hsound
  split at hsound
  · next low high =>
      simp only [checkRange] at hsound
      split at hsound
      · next hordered =>
          rw [Bool.and_eq_true, Bool.and_eq_true] at hordered
          simp [IsFinite, hordered.1.1, hordered.1.2]
      · split at hsound <;> cases hsound
  · cases hsound
  · cases hsound
  · next members =>
      split at hsound
      · next hall => exact List.all_eq_true.1 hall
      · cases hsound
  · cases hsound
  · next value _ _ =>
      split at hsound
      · next hfinite => exact hfinite
      · cases hsound
  · cases hsound

theorem Condition.isFinite_of_fault?_eq_none {c : Condition} (hsound : c.fault? = none) :
    c.operand.IsFinite :=
  Operand.isFinite_of_flaw?_eq_none (Option.map_eq_none_iff.1 hsound)

namespace Rule

variable {rules : List Rule}

theorem isFinite_of_fault?_eq_none {rule : Rule} (hvalid : rule.fault? = none) :
    rule.IsFinite := by
  rw [fault?_eq_none_iff, MessageSet.fault?_eq_none_iff, Formula.fault?_eq_none_iff] at hvalid
  obtain ⟨-, -, ⟨-, hweights⟩, hconditions⟩ := hvalid
  constructor
  · intro condition hcondition
    exact Condition.isFinite_of_fault?_eq_none (hconditions condition hcondition)
  · intro candidate hcandidate
    have husable := hweights candidate hcandidate
    rw [isUsableWeight, Bool.and_eq_true] at husable
    exact husable.1

theorem ofDocument_listDocument (order : Document.FieldOrder)
    (hfinite : ∀ rule ∈ rules, rule.IsFinite) :
    inFiles.ofDocument ((listDocument rules).inJson order) = .ok rules := by
  have hread : (rules.map (Document.inJson order ∘ toDocument)).mapM inFiles.read = some rules :=
    Document.mapM_map fun rule hrule => ofDocument?_inJson .file (hfinite rule hrule)
  rw [listDocument, Document.inJson_list, List.map_map]
  simp only [ItemKind.ofDocument, hread]

/-- Rules in the order in which they were loaded are left in it. -/
theorem arrange_of_load {files : FileTree} {path : String}
    (hload : load files path = .ok rules) : arrange rules = .ok rules := by
  have howns := haveOwnSlugs_of_load hload
  obtain ⟨items, -, -, rfl⟩ := exists_items_of_load hload
  rw [arrange_eq_ok howns, mergeSort_mergeSort]

/-- Rules without faults that were loaded, from whatever files, are loaded again
as the same list from the file that they were exported to.  It is presumed that
the text of the file is read as the value that was written, whose fields may
have come into another order. -/
theorem exported_rules_load_back {files others later : FileTree} {source target : String}
    {order : Document.FieldOrder} (hload : load files source = .ok rules)
    (hvalid : ∀ rule ∈ rules, rule.fault? = none)
    (hwrite : others.writeDocument target (listDocument rules) = .ok later)
    (hread : Yaml.read? (Document.Json.renderIndented (listDocument rules)) =
      some ((listDocument rules).inJson order)) :
    load later target = .ok rules := by
  have hitems : inFiles.load later target = .ok rules := by
    rw [ItemKind.load_of_writeDocument inFiles hwrite hread, ofDocument_listDocument order
      fun rule hrule => isFinite_of_fault?_eq_none (hvalid rule hrule)]
    rfl
  rw [load, hitems]
  exact arrange_of_load hload

/-- A rule without a slug.  It always matches. -/
def namelessRule (text : String) : Rule where
  id := "?!"
  version := 1
  tenant := "acme"
  enabled := true
  description := none
  category := ""
  priority := 0
  severity := 0
  cooldownDays := 0
  maxPerDay := 1
  tags := .empty
  logic := .group .all []
  messages := ⟨"en", [⟨none, text, 0.1⟩]⟩

/-- Rules that only their messages tell apart. -/
def namelessRules : List Rule :=
  [namelessRule "one", namelessRule "two"]

theorem read_namelessRules :
    Yaml.read? (Document.Json.renderIndented (listDocument namelessRules)) =
      some ((listDocument namelessRules).inJson .asWritten) := by
  rw [Document.Json.renderIndented, Yaml.read?, Yaml.tokens?, String.toList_ofList]
  decide +kernel

theorem exported_rules_load_back_nameless :
    ∃ files later, FileTree.writeDocument .empty "rules.json" (listDocument namelessRules) =
        .ok files ∧
      load files "rules.json" = .ok namelessRules ∧
      (∀ rule ∈ namelessRules, rule.fault? = none) ∧
      files.writeDocument "export.json" (listDocument namelessRules) = .ok later ∧
      load later "export.json" = .ok namelessRules := by
  have hvalid : ∀ rule ∈ namelessRules, rule.fault? = none := by decide +kernel
  have hwritten : (do
      let files ← FileTree.writeDocument .empty "rules.json" (listDocument namelessRules)
      files.writeDocument "export.json" (listDocument namelessRules)).toBool = true := by
    decide +kernel
  cases hwrite : FileTree.writeDocument .empty "rules.json" (listDocument namelessRules) with
  | error cause =>
      rw [hwrite] at hwritten
      cases hwritten
  | ok files =>
      rw [hwrite] at hwritten
      cases hexport : files.writeDocument "export.json" (listDocument namelessRules) with
      | error cause =>
          change (files.writeDocument _ _).toBool = true at hwritten
          rw [hexport] at hwritten
          cases hwritten
      | ok later =>
          have hload : load files "rules.json" = .ok namelessRules := by
            have hdistinct : duplicate? [] namelessRules = none := by decide +kernel
            have hordered : namelessRules.mergeSort precedes = namelessRules := by
              apply List.mergeSort_of_pairwise
              decide +kernel
            rw [load, ItemKind.load_of_writeDocument inFiles hwrite read_namelessRules,
              ofDocument_listDocument .asWritten
                fun rule hrule => isFinite_of_fault?_eq_none (hvalid rule hrule)]
            change arrange namelessRules = _
            rw [arrange, hdistinct, hordered]
          exact ⟨files, later, rfl, hload, hvalid, hexport,
            exported_rules_load_back hload hvalid hexport read_namelessRules⟩

end Rule

end MetricAlerts
