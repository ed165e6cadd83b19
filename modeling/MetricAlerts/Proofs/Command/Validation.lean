import MetricAlerts.Proofs.Answers
import MetricAlerts.Proofs.Command.Loading
import MetricAlerts.Proofs.Engine.InMemory
import MetricAlerts.Proofs.Engine.Skipped

/-!
# What a check of the rules is worth

Rules are looked at three times: when they are checked, when they are entered,
and in every pass.  The three agree.  What passes the check can be entered, and
what was entered is skipped in a pass for exactly the reason that the check
gives, under whatever name it is stored.
-/

namespace MetricAlerts

open Registry

namespace Command

variable {around : Surroundings} {sources : Sources} {workspace : Workspace}

/-- What a check reads. -/
theorem of_checkRules_eq_ok {checks : List (String × Option RuleFault)}
    (hchecks : checkRules around.files sources = .ok checks) :
    ∃ log glossary rules, loadLog around.files sources = .ok log ∧
      loadGlossary around.files sources log = .ok glossary ∧
      loadRules around.files sources = .ok rules ∧
      checks = rules.map fun rule => (rule.id, rule.evaluationFault? glossary) := by
  obtain ⟨log, hlog, hchecks⟩ := of_bind_eq_ok hchecks
  obtain ⟨glossary, hglossary, hchecks⟩ := of_bind_eq_ok hchecks
  obtain ⟨rules, hrules, hchecks⟩ := of_bind_eq_ok hchecks
  exact ⟨log, glossary, rules, hlog, hglossary, hrules, (Except.ok.inj hchecks).symm⟩

theorem checkRules_eq_ok {log : MetricLog} {glossary : Glossary} {rules : List Rule}
    (hlog : loadLog around.files sources = .ok log)
    (hglossary : loadGlossary around.files sources log = .ok glossary)
    (hrules : loadRules around.files sources = .ok rules) :
    checkRules around.files sources =
      .ok (rules.map fun rule => (rule.id, rule.evaluationFault? glossary)) := by
  rw [checkRules, hlog]
  change (loadGlossary around.files sources log >>= _) = _
  rw [hglossary]
  change (loadRules around.files sources >>= _) = _
  rw [hrules]
  rfl

/-- What a workspace is put together from. -/
theorem of_load_eq_ok (hload : Workspace.load around sources = .ok workspace) :
    ∃ log rules, loadLog around.files sources = .ok log ∧
      loadGlossary around.files sources log = .ok workspace.glossary ∧
      loadRules around.files sources = .ok rules ∧
      enterRules around.stamp 0 .empty rules = .ok workspace.registry ∧ workspace.down = [] := by
  obtain ⟨settings, -, hload⟩ := of_bind_eq_ok hload
  obtain ⟨log, hlog, hload⟩ := of_bind_eq_ok hload
  obtain ⟨glossary, hglossary, hload⟩ := of_bind_eq_ok hload
  obtain ⟨rules, hrules, hload⟩ := of_bind_eq_ok hload
  obtain ⟨registry, hregistry, hload⟩ := of_bind_eq_ok hload
  obtain ⟨histories, -, hload⟩ := of_bind_eq_ok hload
  cases hload
  exact ⟨log, rules, hlog, hglossary, hrules, hregistry, rfl⟩

/-- Rules in which a check finds nothing can be entered. -/
theorem exists_registry_of_checked {checks : List (String × Option RuleFault)} {rules : List Rule}
    (hchecks : checkRules around.files sources = .ok checks)
    (hclean : ∀ check ∈ checks, check.2 = none)
    (hrules : loadRules around.files sources = .ok rules)
    (hfresh : NamesAreFresh around.stamp rules) :
    ∃ registry, enterRules around.stamp 0 .empty rules = .ok registry := by
  obtain ⟨log, glossary, found, -, -, hfound, rfl⟩ := of_checkRules_eq_ok hchecks
  cases hrules.symm.trans hfound
  have hvalid : ∀ rule ∈ rules, rule.fault? = none := by
    intro rule hrule
    have hnone : rule.evaluationFault? glossary = none := hclean _ (List.mem_map_of_mem hrule)
    rw [Rule.evaluationFault?, Option.or_eq_none_iff] at hnone
    exact hnone.1
  have howns : Rule.HaveOwnSlugs rules := by
    rw [loadRules] at hrules
    cases hload : Rule.load around.files sources.rules with
    | error cause =>
        rw [hload] at hrules
        cases hrules
    | ok loaded =>
        rw [hload] at hrules
        cases hrules
        exact Rule.haveOwnSlugs_of_load hload
  apply exists_enterRules hvalid Rulebook.isKeyed_empty
  exact nodup_allAsNew howns hfresh

section Reading

variable {id : String} {refusal : EditError} {files : FileTree}

theorem loadItems_ne_registering {α : Type} (kind : ItemKind α) (content : FileContent)
    (files : FileTree) (path : String) :
    loadItems kind content files path ≠ .error (.registering id refusal) := by
  intro hitems
  obtain ⟨cause, hcause⟩ := exists_of_mapError_eq_error hitems
  cases hcause

theorem loadSettings_ne_registering (around : Surroundings) (sources : Sources) :
    loadSettings around sources ≠ .error (.registering id refusal) := by
  intro hsettings
  rw [loadSettings] at hsettings
  split at hsettings
  · obtain ⟨invalid, hinvalid⟩ := exists_of_mapError_eq_error hsettings
    cases hinvalid
  · rcases of_bind_eq_error hsettings with hread | ⟨text, -, hparse⟩
    · obtain ⟨cause, hcause⟩ := exists_of_mapError_eq_error hread
      cases hcause
    · split at hparse <;> cases hparse

theorem loadLog_ne_registering (files : FileTree) (sources : Sources) :
    loadLog files sources ≠ .error (.registering id refusal) := by
  intro hlog
  rw [loadLog] at hlog
  split at hlog
  · cases hlog
  · exact loadItems_ne_registering _ _ _ _ (eq_error_of_map hlog)

theorem loadGlossary_ne_registering (files : FileTree) (sources : Sources) (log : MetricLog) :
    loadGlossary files sources log ≠ .error (.registering id refusal) := by
  intro hglossary
  rw [loadGlossary] at hglossary
  split at hglossary
  · cases hglossary
  · exact loadItems_ne_registering _ _ _ _ (eq_error_of_map hglossary)

theorem loadRules_ne_registering (files : FileTree) (sources : Sources) :
    loadRules files sources ≠ .error (.registering id refusal) := by
  intro hrules
  obtain ⟨cause, hcause⟩ := exists_of_mapError_eq_error hrules
  cases hcause

theorem loadLedger_ne_registering (files : FileTree) (sources : Sources) :
    loadLedger files sources ≠ .error (.registering id refusal) := by
  intro hledger
  rw [loadLedger] at hledger
  split at hledger
  · cases hledger
  · split at hledger
    · exact loadItems_ne_registering _ _ _ _ (eq_error_of_map hledger)
    · cases hledger

end Reading

/-- A workspace cannot fail for a rule that is refused, unless one is. -/
theorem enterRules_eq_error_of_load {id : String} {refusal : EditError}
    (hload : Workspace.load around sources = .error (.registering id refusal)) :
    ∃ rules, loadRules around.files sources = .ok rules ∧
      enterRules around.stamp 0 .empty rules = .error (.registering id refusal) := by
  rcases of_bind_eq_error hload with hfailed | ⟨settings, -, hload⟩
  · exact absurd hfailed (loadSettings_ne_registering around sources)
  rcases of_bind_eq_error hload with hfailed | ⟨log, -, hload⟩
  · exact absurd hfailed (loadLog_ne_registering around.files sources)
  rcases of_bind_eq_error hload with hfailed | ⟨glossary, -, hload⟩
  · exact absurd hfailed (loadGlossary_ne_registering around.files sources log)
  rcases of_bind_eq_error hload with hfailed | ⟨rules, hrules, hload⟩
  · exact absurd hfailed (loadRules_ne_registering around.files sources)
  rcases of_bind_eq_error hload with hfailed | ⟨registry, -, hload⟩
  · exact ⟨rules, hrules, hfailed⟩
  rcases of_bind_eq_error hload with hfailed | ⟨histories, -, hload⟩
  · exact absurd hfailed (loadLedger_ne_registering around.files sources)
  · cases hload

/-! ## Rules that are skipped -/

theorem evaluationFault?_asNew (stamp : Stamp) {rule : Rule} (hvalid : rule.fault? = none)
    (glossary : Glossary) :
    (asNew stamp rule).evaluationFault? glossary = rule.evaluationFault? glossary := by
  rw [Rule.evaluationFault?, Rule.evaluationFault?, hvalid, (fault?_asNew stamp rule).2 hvalid,
    Glossary.fault?, Glossary.fault?, asNew]

/-- A report bears out the check of the rules that were entered: for each one of
the tenant that is enabled, and for no other, there is one entry, under the id
that the rule was given, and it is skipped for what the check has found, if
anything. -/
structure BearsOut (report : Report) (tenant : String) (stamp : Nat → Stamp) (rules : List Rule)
    (checks : List (String × Option RuleFault)) : Prop where
  nodup : (report.rules.map RuleEntry.rule).Nodup
  reported : ∀ place rule check, rules[place]? = some rule → checks[place]? = some check →
    rule.tenant = tenant → rule.enabled = true →
      ∃ entry ∈ report.rules, entry.rule = normalId rule.id (stamp place).token ∧
        ∀ error, entry.status = .skipped error ↔ check.2.map RuleFault.message = some error
  noOther : ∀ entry ∈ report.rules, ∃ place rule, rules[place]? = some rule ∧
    rule.tenant = tenant ∧ rule.enabled = true ∧
      entry.rule = normalId rule.id (stamp place).token

theorem mem_enabledRules_entered {book : Rulebook} {stamp : Nat → Stamp} {rules : List Rule}
    (hentered : book.rules.Perm (allAsNew stamp 0 rules)) {tenant : String} {stored : Rule} :
    stored ∈ book.enabledRules tenant ↔ ∃ place rule, rules[place]? = some rule ∧
      asNew (stamp place) rule = stored ∧ rule.tenant = tenant ∧ rule.enabled = true := by
  rw [Rulebook.enabledRules, Rulebook.mem_list, hentered.mem_iff, mem_allAsNew]
  constructor
  · rintro ⟨⟨place, rule, hplace, rfl⟩, htenant, haccepts⟩
    rw [tenant_asNew] at htenant
    refine ⟨place, rule, hplace, rfl, htenant, ?_⟩
    simpa [RuleFilter.accepts, RuleFilter.onlyEnabled] using haccepts
  · rintro ⟨place, rule, hplace, rfl, htenant, henabled⟩
    rw [tenant_asNew]
    refine ⟨⟨place, rule, hplace, rfl⟩, htenant, ?_⟩
    simp [RuleFilter.accepts, RuleFilter.onlyEnabled, henabled]

theorem bearsOut_of_entered {σ : Type} {engine : Engine} {stamp : Nat → Stamp}
    {rules : List Rule} (hbook : engine.book.IsKeyed) (hvalid : ∀ rule ∈ rules, rule.fault? = none)
    (hentered : engine.book.rules.Perm (allAsNew stamp 0 rules)) (store : HistoryStore σ)
    (user : String) (day : Day) (tenant : String) (state : σ) {report : Report}
    (hreport : (engine.evaluate store user day tenant state).answer = .ok report) :
    BearsOut report tenant stamp rules
      (rules.map fun rule => (rule.id, rule.evaluationFault? engine.glossary)) := by
  have hperm := Engine.perm_map_error?_of_report store state hreport
  constructor
  · have hids := hperm.map Prod.fst
    rw [List.map_map, List.map_map] at hids
    exact hids.nodup_iff.2 (hbook.nodup_list tenant .onlyEnabled)
  · intro place rule check hplace hcheck htenant henabled
    rw [List.getElem?_map, hplace] at hcheck
    cases hcheck
    have hstored := (mem_enabledRules_entered hentered).2
      ⟨place, rule, hplace, rfl, htenant, henabled⟩
    obtain ⟨entry, hentry, hnotice⟩ :=
      List.mem_map.1 (hperm.mem_iff.2 (List.mem_map_of_mem hstored))
    have hfault : rule.fault? = none := hvalid rule (List.mem_of_getElem? hplace)
    rw [Engine.notice, id_asNew, evaluationFault?_asNew _ hfault, Prod.mk.injEq] at hnotice
    refine ⟨entry, hentry, hnotice.1, fun error => ?_⟩
    rw [← RuleEntry.error?_eq_some_iff, hnotice.2]
  · intro entry hentry
    obtain ⟨stored, hstored, hnotice⟩ :=
      List.mem_map.1 (hperm.mem_iff.1 (List.mem_map_of_mem hentry))
    obtain ⟨place, rule, hplace, rfl, htenant, henabled⟩ :=
      (mem_enabledRules_entered hentered).1 hstored
    rw [Engine.notice, id_asNew, Prod.mk.injEq] at hnotice
    exact ⟨place, rule, hplace, htenant, henabled, hnotice.1.symm⟩

/-- Rules that pass the check can all be entered, if only the names that are made
up for them are new.  And once a workspace has been put together, what the check
says of a rule is what becomes of it in every pass, whatever the metrics and the
histories, for any user, day and tenant: it is skipped if and only if the check
has found a fault, and with the same text. -/
theorem bearsOut_of_checkRules (around : Surroundings) (sources : Sources) :
    (∀ checks rules, checkRules around.files sources = .ok checks →
      (∀ check ∈ checks, check.2 = none) → loadRules around.files sources = .ok rules →
        NamesAreFresh around.stamp rules →
          (∃ registry, enterRules around.stamp 0 .empty rules = .ok registry) ∧
          ∀ id refusal, Workspace.load around sources ≠ .error (.registering id refusal)) ∧
    ∀ workspace, Workspace.load around sources = .ok workspace →
      ∃ rules checks, loadRules around.files sources = .ok rules ∧
        checkRules around.files sources = .ok checks ∧
        (∀ user day tenant ledger, ∃ report,
          ({ workspace with histories := ledger }.evaluate Ledger.store user day tenant).1 =
            .ok report) ∧
        ∀ (source : MetricSource) (settings : EngineSettings) {σ : Type} (store : HistoryStore σ)
          (state : σ) (user : String) (day : Day) (tenant : String) (report : Report),
          let engine : Engine := ⟨workspace.registry.book, workspace.glossary, source, settings⟩
          (engine.evaluate store user day tenant state).answer = .ok report →
            BearsOut report tenant around.stamp rules checks := by
  constructor
  · intro checks rules hchecks hclean hrules hfresh
    obtain ⟨registry, hregistry⟩ := exists_registry_of_checked hchecks hclean hrules hfresh
    refine ⟨⟨registry, hregistry⟩, fun id refusal hload => ?_⟩
    obtain ⟨found, hfound, hrefused⟩ := enterRules_eq_error_of_load hload
    cases hrules.symm.trans hfound
    cases hregistry.symm.trans hrefused
  · intro workspace hload
    obtain ⟨log, rules, hlog, hglossary, hrules, hregistry, hup⟩ := of_load_eq_ok hload
    obtain ⟨hvalid, hentered, hkeyed⟩ := of_enterRules_eq_ok hregistry
    refine ⟨rules, _, hrules, checkRules_eq_ok hlog hglossary hrules, ?_, ?_⟩
    · intro user day tenant ledger
      have hother : { workspace with histories := ledger }.down = [] := hup
      exact Service.exists_report hother user day tenant
    · intro source settings σ store state user day tenant report engine hreport
      have hbook : engine.book.IsKeyed := hkeyed Rulebook.isKeyed_empty
      exact bearsOut_of_entered hbook hvalid hentered store user day tenant state hreport

end Command

end MetricAlerts
