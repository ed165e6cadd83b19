import MetricAlerts.Proofs.Answers
import MetricAlerts.Proofs.Admission.Faults
import MetricAlerts.Proofs.Engine.Outcomes
import MetricAlerts.Proofs.Engine.Row

/-!
# Alerts and what is stored

A pass may break off at any rule, after any number of conflicts, when a call of
the store fails.  An alert goes out after the history of its rule was replaced,
and nothing can fail in between.  So at every moment between two rules, the
alerts that were sent are those of the histories that were replaced, and a
report that is returned in the end tells of the same ones.
-/

namespace MetricAlerts

def AlertEvent.key (event : AlertEvent) : AlertKey :=
  event.fired.key

/-- What alerts of a day say about an account that began with the given
histories. -/
structure Account.IsToldBy (account : Account) (first : Ledger) (day : Day)
    (sent : List AlertEvent) : Prop where
  /-- Alerts and replacements go together, in their order. -/
  keys : sent.map AlertEvent.key = account.replaced.map Replacement.key
  nodup : (account.replaced.map Replacement.key).Nodup
  changed : ∀ key, key ∈ account.replaced.map Replacement.key ↔
    (account.ledger.load key).history ≠ (first.load key).history
  /-- Each replacement put an alert of the day into the history that was there. -/
  replaced : ∀ replacement ∈ account.replaced,
    replacement.before = (first.load replacement.key).history ∧
    replacement.after = replacement.before.admitted day ∧
    account.ledger.find? replacement.key =
      some ⟨replacement.after, (first.load replacement.key).version + 1⟩
  /-- Elsewhere not even a version has changed. -/
  unchanged : ∀ key ∉ account.replaced.map Replacement.key,
    account.ledger.find? key = first.find? key

/-- What a report says about the alerts that were sent, and about the rules of
the tenant that are enabled. -/
structure Report.Tells (report : Report) (book : Rulebook) (tenant : String)
    (sent : List AlertEvent) : Prop where
  events : report.events = sent
  admitted : report.rules.filter RuleEntry.isAdmitted = sent.map AlertEvent.entry
  nodup : (report.rules.map RuleEntry.rule).Nodup
  rules : ∀ id, id ∈ report.rules.map RuleEntry.rule ↔
    ∃ rule, book.rule? id = some rule ∧ rule.tenant = tenant ∧ rule.enabled = true

theorem Account.isToldBy_alertAll (ledger : Ledger) (day : Day) (sent : List AlertEvent)
    (hnodup : (sent.map AlertEvent.key).Nodup) :
    ((start ledger).alertAll day (sent.map AlertEvent.key)).IsToldBy ledger day sent := by
  have hreplaced := replaced_alertAll (start ledger) day hnodup
  have hfind := find?_alertAll (start ledger) day hnodup
  have hkeys : ((start ledger).alertAll day (sent.map AlertEvent.key)).replaced.map
      Replacement.key = sent.map AlertEvent.key := by
    rw [hreplaced]
    simp [start, Function.comp_def]
  refine ⟨hkeys.symm, ?_, ?_, ?_, ?_⟩
  · rw [hkeys]
    exact hnodup
  · intro key
    rw [hkeys, Ledger.load, Ledger.load, hfind]
    by_cases hkey : key ∈ sent.map AlertEvent.key
    · simp only [hkey, if_true, true_iff]
      exact History.admitted_ne _ day
    · simp only [hkey, if_false, false_iff, not_not]
      rfl
  · intro replacement hmem
    rw [hreplaced] at hmem
    obtain ⟨key, hkey, rfl⟩ := List.mem_map.1 hmem
    refine ⟨rfl, rfl, ?_⟩
    rw [hfind, if_pos hkey]
    rfl
  · intro key hkey
    rw [hkeys] at hkey
    rw [hfind, if_neg hkey]
    rfl

namespace Engine

variable {engine : Engine} {faults : Faults} {user : String} {day : Day} {snapshot : Snapshot}
  {rule : Rule} {rules : List Rule} {watched : Watched}

theorem account_ask (engine : Engine) (faults : Faults) (user : String) (day : Day) (rule : Rule)
    (watched : Watched) :
    let finished := engine.ask (Watched.store faults) user day rule watched
    finished.state.account =
      if Admission.isMade finished.answer then watched.account.alert day (rule.keyFor user)
      else watched.account :=
  Admission.account_run_remaining ..

/-- A rule changes the account by the alert that it sends, if any. -/
theorem Evaluated.account
    {finished : Dialogue.Finished AlertEvent (Except PassError RuleOutcome) Watched}
    (hrule : Evaluated engine (Watched.store faults) user day snapshot rule watched finished) :
    finished.state.account = watched.account.alertAll day (finished.sent.map AlertEvent.key) ∧
      (finished.sent.map AlertEvent.key).Sublist [rule.keyFor user] := by
  have hasked := engine.account_ask faults user day rule watched
  cases hrule with
  | skipped hverdict => exact ⟨rfl, List.nil_sublist _⟩
  | notMatched hverdict => exact ⟨rfl, List.nil_sublist _⟩
  | failed hverdict hask =>
      rw [hask] at hasked
      exact ⟨hasked, List.nil_sublist _⟩
  | suppressed hverdict hask =>
      rw [hask] at hasked
      exact ⟨hasked, List.nil_sublist _⟩
  | admitted hverdict hask =>
      rw [hask] at hasked
      exact ⟨hasked, List.Sublist.refl _⟩

/-- However far they got, rules change the account by the alerts that they
sent. -/
theorem EvaluatedAll.account
    {finished : Dialogue.Finished AlertEvent (Except PassError (List RuleOutcome)) Watched}
    (hrules : EvaluatedAll engine (Watched.store faults) user day snapshot rules watched
      finished) :
    finished.state.account = watched.account.alertAll day (finished.sent.map AlertEvent.key) ∧
      (finished.sent.map AlertEvent.key).Sublist (rules.map (Rule.keyFor · user)) := by
  induction hrules with
  | nil watched => exact ⟨rfl, List.Sublist.refl _⟩
  | @failed rule rules watched later error sent hrule =>
      obtain ⟨haccount, hsublist⟩ := hrule.account
      exact ⟨haccount, hsublist.trans (by simp)⟩
  | @cons rule rules watched next later outcome answer first rest hrule hrules ih =>
      obtain ⟨hnext, hfirst⟩ := hrule.account
      obtain ⟨hlater, hrest⟩ := ih
      constructor
      · calc later.account
          _ = next.account.alertAll day (rest.map AlertEvent.key) := hlater
          _ = (watched.account.alertAll day (first.map AlertEvent.key)).alertAll day
                (rest.map AlertEvent.key) := congrArg (Account.alertAll day · _) hnext
          _ = watched.account.alertAll day ((first ++ rest).map AlertEvent.key) := by
            rw [List.map_append, Account.alertAll_append]
      · rw [List.map_append]
        exact hfirst.append hrest

variable {tenant : String}

theorem map_rule_filterMap_leaveOut? (rules : List Rule) :
    (rules.filterMap engine.leaveOut?).map RuleEntry.rule =
      (rules.filter fun rule => !engine.isFit rule).map Rule.id := by
  induction rules with
  | nil => rfl
  | cons rule rules ih =>
      rw [List.filterMap_cons, List.filter_cons, isFit, leaveOut?]
      cases rule.evaluationFault? engine.glossary with
      | none => simpa using ih
      | some fault => simpa [RuleEntry.skipped] using ih

/-- Whether a rule was left out or evaluated, it is reported once. -/
theorem perm_reportOf (user : String) (day : Day) {outcomes : List RuleOutcome}
    (hnamed : outcomes.map (fun outcome => outcome.entry.rule) =
      (engine.fitRules tenant).map Rule.id) :
    ((reportOf user day tenant ((engine.book.enabledRules tenant).filterMap engine.leaveOut?)
      outcomes).rules.map RuleEntry.rule).Perm ((engine.book.enabledRules tenant).map Rule.id) := by
  have hevaluated : (outcomes.map RuleOutcome.entry).map RuleEntry.rule =
      (engine.fitRules tenant).map Rule.id := by
    rw [List.map_map]
    exact hnamed
  rw [reportOf, List.map_append, map_rule_filterMap_leaveOut?, hevaluated, fitRules,
    ← List.map_append]
  apply List.Perm.map
  exact (List.perm_append_comm).trans (List.filter_append_perm engine.isFit _)

theorem mem_map_id_enabledRules {book : Rulebook} (hbook : book.IsKeyed) {id : String} :
    id ∈ (book.enabledRules tenant).map Rule.id ↔
      ∃ rule, book.rule? id = some rule ∧ rule.tenant = tenant ∧ rule.enabled = true := by
  simp only [List.mem_map, Rulebook.enabledRules, Rulebook.mem_list, RuleFilter.accepts,
    RuleFilter.onlyEnabled, hbook.rule?_eq_some_iff]
  constructor
  · rintro ⟨rule, ⟨hmem, htenant, henabled⟩, rfl⟩
    exact ⟨rule, ⟨hmem, rfl⟩, htenant, by simpa using henabled⟩
  · rintro ⟨rule, ⟨hmem, rfl⟩, htenant, henabled⟩
    exact ⟨rule, ⟨hmem, htenant, by simp [henabled]⟩, rfl⟩

/-- Wherever a pass ends, with a report or with an error, the alerts that it has
sent are those of the histories that it has replaced, one for each.  A report
tells of the same alerts, and of every enabled rule of the tenant once. -/
theorem account_isToldBy_sent (requests : List ChangeRequest) (glossary : Glossary)
    (source : MetricSource) (settings : EngineSettings) (faults : Faults) (ledger : Ledger)
    (user : String) (day : Day) (tenant : String) :
    let book := (Registry.ofRequests requests).book
    let engine : Engine := ⟨book, glossary, source, settings⟩
    let finished := engine.evaluate (Watched.store faults) user day tenant (.start ledger)
    finished.state.account.IsToldBy ledger day finished.sent ∧
      ∀ report, finished.answer = .ok report → report.Tells book tenant finished.sent := by
  intro book engine finished
  have hbook : book.IsKeyed := Rulebook.isKeyed_ofRequests requests
  obtain ⟨detail, -, hfinished⟩ | ⟨snapshot, evaluated, -, hrules, hfinished⟩ :=
    engine.evaluate_cases (Watched.store faults) user day tenant (.start ledger)
  · constructor
    · rw [show finished = _ from hfinished]
      exact Account.isToldBy_alertAll ledger day [] List.nodup_nil
    · intro report hreport
      rw [show finished = _ from hfinished] at hreport
      cases hreport
  · obtain ⟨haccount, hsublist⟩ := hrules.account
    have hkeys : ((engine.fitRules tenant).map (Rule.keyFor · user)).Nodup :=
      nodup_keys_fitRules hbook user tenant
    rw [show finished = _ from hfinished]
    constructor
    · simp only [haccount]
      exact Account.isToldBy_alertAll ledger day _ (hsublist.nodup hkeys)
    · intro report hreport
      obtain ⟨outcomes, houtcomes, rfl⟩ := exists_of_map_eq_ok hreport
      obtain ⟨hnamed, hsent, hadmitted⟩ := hrules.outcomes houtcomes
      have hperm := perm_reportOf user day hnamed
      refine ⟨hsent.symm, ?_, ?_, ?_⟩
      · rw [filter_rules_reportOf fun _ _ => rfl]
        exact hadmitted
      · exact hperm.nodup_iff.2 (hbook.nodup_list tenant .onlyEnabled)
      · intro id
        rw [hperm.mem_iff]
        exact mem_map_id_enabledRules hbook

end Engine

end MetricAlerts
