import MetricAlerts.Proofs.Answers
import MetricAlerts.Proofs.Engine.Accounts
import MetricAlerts.Proofs.Engine.PlainPass

/-!
# Rules that are skipped

Why a rule is skipped can be told before a pass, from the rule and the glossary
alone.  What is left out at the beginning is skipped for just that reason, and
of the rules that remain none is skipped later on: a formula without a fault has
a trace at whatever values, and messages without a fault can be picked from.
-/

namespace MetricAlerts

/-- Why the rule of an entry was skipped, if it was. -/
def RuleEntry.error? (entry : RuleEntry) : Option String :=
  match entry.status with
  | .skipped error => some error
  | _ => none

theorem RuleEntry.error?_eq_some_iff {entry : RuleEntry} {error : String} :
    entry.error? = some error ↔ entry.status = .skipped error := by
  rw [error?]
  split
  · next status hstatus => rw [hstatus, Option.some.injEq, RuleStatus.skipped.injEq]
  · next hother =>
      constructor
      · rintro ⟨⟩
      · intro hstatus
        exact absurd hstatus (hother error)

theorem RuleEntry.error?_eq_none {entry : RuleEntry} (hevaluated : entry.isSkipped = false) :
    entry.error? = none := by
  apply Option.eq_none_iff_forall_ne_some.2
  intro error herror
  rw [isSkipped, error?_eq_some_iff.1 herror] at hevaluated
  cases hevaluated

namespace Engine

variable {σ : Type} {engine : Engine} {store : HistoryStore σ} {user : String} {day : Day}
  {tenant : String} {rules : List Rule} {state : σ}

/-- What is to be said of a rule: its id and why it is skipped, if it is. -/
def notice (engine : Engine) (rule : Rule) : String × Option String :=
  (rule.id, (rule.evaluationFault? engine.glossary).map RuleFault.message)

theorem map_error?_filterMap_leaveOut? (rules : List Rule) :
    (rules.filterMap engine.leaveOut?).map (fun entry => (entry.rule, entry.error?)) =
      (rules.filter fun rule => !engine.isFit rule).map engine.notice := by
  induction rules with
  | nil => rfl
  | cons rule rules ih =>
      rw [List.filterMap_cons, List.filter_cons, isFit, leaveOut?]
      cases hfault : rule.evaluationFault? engine.glossary with
      | none => simpa using ih
      | some fault => simpa [RuleEntry.skipped, RuleEntry.error?, notice, hfault] using ih

/-- Rules that are fit are evaluated, whatever their values are. -/
theorem EvaluatedAll.map_error? {snapshot : Snapshot}
    {finished : Dialogue.Finished AlertEvent (Except PassError (List RuleOutcome)) σ}
    (hrules : EvaluatedAll engine store user day snapshot rules state finished)
    (hfit : ∀ rule ∈ rules, engine.isFit rule = true) {outcomes : List RuleOutcome}
    (hanswer : finished.answer = .ok outcomes) :
    (outcomes.map RuleOutcome.entry).map (fun entry => (entry.rule, entry.error?)) =
      rules.map engine.notice := by
  -- A snapshot agrees with itself, be its values those of some store or not.
  have hagree : ∀ rule ∈ rules, Agree snapshot.get
      (fun reference => (snapshot.get reference).mapError (.shortfall reference))
        rule.references := fun _ _ _ _ => rfl
  obtain ⟨hplain, -⟩ :=
    hrules.plain (fun rule hrule => fault?_eq_none_of_isFit (hfit rule hrule)) hagree
  obtain ⟨hevaluated, -⟩ := hplain outcomes hanswer
  obtain ⟨hnamed, -⟩ := hrules.outcomes hanswer
  have hentries : (outcomes.map RuleOutcome.entry).map (fun entry => (entry.rule, entry.error?)) =
      (outcomes.map fun outcome => outcome.entry.rule).map fun id => (id, none) := by
    rw [List.map_map, List.map_map]
    apply List.map_congr_left
    intro outcome houtcome
    simp [RuleEntry.error?_eq_none (hevaluated outcome houtcome)]
  have hnotices : rules.map engine.notice = (rules.map Rule.id).map fun id => (id, none) := by
    rw [List.map_map]
    apply List.map_congr_left
    intro rule hrule
    have hnone := Option.isNone_iff_eq_none.1 (hfit rule hrule)
    simp [notice, hnone]
  rw [hentries, hnotices, hnamed]

/-- A report says of each enabled rule of the tenant, once, whether it was
skipped and why, as could be told beforehand. -/
theorem perm_map_error?_of_report (store : HistoryStore σ) (state : σ) {report : Report}
    (hreport : (engine.evaluate store user day tenant state).answer = .ok report) :
    (report.rules.map fun entry => (entry.rule, entry.error?)).Perm
      ((engine.book.enabledRules tenant).map engine.notice) := by
  obtain ⟨detail, -, hfinished⟩ | ⟨snapshot, finished, -, hrules, hfinished⟩ :=
    engine.evaluate_cases store user day tenant state
  · rw [hfinished] at hreport
    cases hreport
  rw [hfinished] at hreport
  obtain ⟨outcomes, houtcomes, rfl⟩ := exists_of_map_eq_ok hreport
  have hevaluated := hrules.map_error? (fun rule hrule => (List.mem_filter.1 hrule).2) houtcomes
  rw [reportOf, List.map_append, map_error?_filterMap_leaveOut?, hevaluated, fitRules,
    ← List.map_append]
  apply List.Perm.map
  exact List.perm_append_comm.trans (List.filter_append_perm engine.isFit _)

end Engine

end MetricAlerts
