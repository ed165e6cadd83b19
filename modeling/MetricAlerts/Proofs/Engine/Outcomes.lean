import MetricAlerts.Proofs.Engine.Settlement

/-!
# How a pass can end

At a store that may fail, a pass can end after any of its rules.  This file
takes a pass apart once, for any store: the ways in which the evaluation of one
rule can end, those of a list of rules, and those of the whole pass.  An alert
is the last thing that happens to a rule, so a rule that fails has sent
nothing.
-/

namespace MetricAlerts

/-- The entry of the rule of an alert in a report. -/
def AlertEvent.entry (event : AlertEvent) : RuleEntry :=
  ⟨event.rule, event.priority, .admitted event.messageId, some event.why⟩

def RuleEntry.isAdmitted (entry : RuleEntry) : Bool :=
  entry.status matches .admitted _

namespace Engine

variable {σ : Type} {engine : Engine} {store : HistoryStore σ} {user : String} {day : Day}
  {snapshot : Snapshot}

/-- The decision about an alert of a rule. -/
def ask (engine : Engine) (store : HistoryStore σ) (user : String) (day : Day) (rule : Rule)
    (state : σ) : Dialogue.Finished AlertEvent (Except PassError Admission) σ :=
  (Admission.request rule.limits (rule.keyFor user) day
    (attemptsOf engine.settings.retries)).run store state

/-- The ways in which the evaluation of a rule can end. -/
inductive Evaluated (engine : Engine) (store : HistoryStore σ) (user : String) (day : Day)
    (snapshot : Snapshot) (rule : Rule) (state : σ) :
    Dialogue.Finished AlertEvent (Except PassError RuleOutcome) σ → Prop where
  | skipped {fault : RuleFault} (hverdict : rule.verdict user day snapshot = .skipped fault) :
      Evaluated engine store user day snapshot rule state
        ⟨.ok ⟨.skipped rule fault.message, none⟩, state, []⟩
  | notMatched {trace : Trace} (hverdict : rule.verdict user day snapshot = .notMatched trace) :
      Evaluated engine store user day snapshot rule state
        ⟨.ok ⟨⟨rule.id, rule.priority, .notMatched, some trace⟩, none⟩, state, []⟩
  | failed {trace : Trace} {message : PickedMessage} {error : PassError} {later : σ}
      (hverdict : rule.verdict user day snapshot = .matched trace message)
      (hask : engine.ask store user day rule state = ⟨.error error, later, []⟩) :
      Evaluated engine store user day snapshot rule state ⟨.error error, later, []⟩
  | suppressed {trace : Trace} {message : PickedMessage} {reason : Suppression} {later : σ}
      (hverdict : rule.verdict user day snapshot = .matched trace message)
      (hask : engine.ask store user day rule state = ⟨.ok (.suppressed reason), later, []⟩) :
      Evaluated engine store user day snapshot rule state
        ⟨.ok ⟨⟨rule.id, rule.priority, .suppressed reason, some trace⟩, none⟩, later, []⟩
  | admitted {trace : Trace} {message : PickedMessage} {history : History} {later : σ}
      (hverdict : rule.verdict user day snapshot = .matched trace message)
      (hask : engine.ask store user day rule state = ⟨.ok (.admitted history), later, []⟩) :
      Evaluated engine store user day snapshot rule state
        ⟨.ok ⟨⟨rule.id, rule.priority, .admitted message.id, some trace⟩,
            some (rule.event user day snapshot engine.glossary trace message)⟩,
          later, [rule.event user day snapshot engine.glossary trace message]⟩

theorem evaluated_evaluateRule (engine : Engine) (store : HistoryStore σ) (user : String)
    (day : Day) (snapshot : Snapshot) (rule : Rule) (state : σ) :
    Evaluated engine store user day snapshot rule state
      ((engine.evaluateRule user day snapshot rule).runAt store state) := by
  rw [evaluateRule]
  cases hverdict : rule.verdict user day snapshot with
  | skipped fault => exact .skipped hverdict
  | notMatched trace => exact .notMatched hverdict
  | matched trace message =>
      have hsent : (engine.ask store user day rule state).sent = [] :=
        Admission.sent_run_remaining ..
      have hrun : (Pass.ofDialogue (Admission.request rule.limits (rule.keyFor user) day
          (attemptsOf engine.settings.retries))).runAt store state =
            engine.ask store user day rule state := rfl
      change Evaluated _ _ _ _ _ _ _ ((Pass.ofDialogue (Admission.request rule.limits
        (rule.keyFor user) day (attemptsOf engine.settings.retries)) >>= _).runAt store state)
      rcases hask : engine.ask store user day rule state with ⟨answer, later, sent⟩
      rw [hask] at hsent hrun
      obtain rfl : sent = [] := hsent
      rcases answer with error | history | reason
      · rw [Pass.runAt_bind_of_error hrun]
        exact .failed hverdict hask
      · rw [Pass.runAt_bind_of_ok hrun]
        exact .admitted hverdict hask
      · rw [Pass.runAt_bind_of_ok hrun]
        exact .suppressed hverdict hask

/-- The ways in which the evaluation of some rules, one after the other, can
end. -/
inductive EvaluatedAll (engine : Engine) (store : HistoryStore σ) (user : String) (day : Day)
    (snapshot : Snapshot) : List Rule → σ →
    Dialogue.Finished AlertEvent (Except PassError (List RuleOutcome)) σ → Prop where
  | nil (state : σ) : EvaluatedAll engine store user day snapshot [] state ⟨.ok [], state, []⟩
  | failed {rule : Rule} {rules : List Rule} {state later : σ} {error : PassError}
      {sent : List AlertEvent}
      (hrule : Evaluated engine store user day snapshot rule state ⟨.error error, later, sent⟩) :
      EvaluatedAll engine store user day snapshot (rule :: rules) state
        ⟨.error error, later, sent⟩
  | cons {rule : Rule} {rules : List Rule} {state next later : σ} {outcome : RuleOutcome}
      {answer : Except PassError (List RuleOutcome)} {first rest : List AlertEvent}
      (hrule : Evaluated engine store user day snapshot rule state ⟨.ok outcome, next, first⟩)
      (hrules : EvaluatedAll engine store user day snapshot rules next ⟨answer, later, rest⟩) :
      EvaluatedAll engine store user day snapshot (rule :: rules) state
        ⟨answer.map (outcome :: ·), later, first ++ rest⟩

theorem evaluatedAll_evaluateRules (engine : Engine) (store : HistoryStore σ) (user : String)
    (day : Day) (snapshot : Snapshot) (rules : List Rule) (state : σ) :
    EvaluatedAll engine store user day snapshot rules state
      ((engine.evaluateRules user day snapshot rules).runAt store state) := by
  induction rules generalizing state with
  | nil => exact .nil state
  | cons rule rules ih =>
      have hrule := evaluated_evaluateRule engine store user day snapshot rule state
      rw [evaluateRules]
      rcases hrun : (engine.evaluateRule user day snapshot rule).runAt store state with
        ⟨error | outcome, next, first⟩
      · rw [hrun] at hrule
        rw [Pass.runAt_bind_of_error hrun]
        exact .failed hrule
      · rw [hrun] at hrule
        have hrules := ih next
        rw [Pass.runAt_bind_of_ok hrun]
        rcases hrest : (engine.evaluateRules user day snapshot rules).runAt store next with
          ⟨error | outcomes, later, rest⟩
        · rw [hrest] at hrules
          rw [Pass.runAt_bind_of_error hrest]
          exact .cons hrule hrules
        · rw [hrest] at hrules
          rw [Pass.runAt_bind_of_ok hrest, Pass.runAt_pure, List.append_nil]
          exact .cons hrule hrules

/-- A pass ends where the metrics cannot be read, or where its rules end. -/
theorem evaluate_cases (engine : Engine) (store : HistoryStore σ) (user : String) (day : Day)
    (tenant : String) (state : σ) :
    (∃ detail, engine.snapshot user day tenant = .error detail ∧
      engine.evaluate store user day tenant state =
        ⟨.error (.unreachable (metricsUnreachable detail)), state, []⟩) ∨
    ∃ snapshot finished, engine.snapshot user day tenant = .ok snapshot ∧
      EvaluatedAll engine store user day snapshot (engine.fitRules tenant) state finished ∧
      engine.evaluate store user day tenant state =
        ⟨finished.answer.map (reportOf user day tenant
          ((engine.book.enabledRules tenant).filterMap engine.leaveOut?)),
          finished.state, finished.sent⟩ := by
  have hpass : engine.evaluate store user day tenant state =
      (engine.pass user day tenant).runAt store state := rfl
  rw [hpass, pass]
  cases htake : engine.snapshot user day tenant with
  | error detail =>
      left
      refine ⟨detail, rfl, ?_⟩
      change Snapshot.take _ _ _ _ (references (List.filter _ _)) = _ at htake
      simp only [htake]
      rfl
  | ok snapshot =>
      right
      refine ⟨snapshot, _, rfl, evaluatedAll_evaluateRules engine store user day snapshot
        (engine.fitRules tenant) state, ?_⟩
      change Snapshot.take _ _ _ _ (references (List.filter _ _)) = _ at htake
      simp only [htake]
      rcases hrun : (engine.evaluateRules user day snapshot (engine.fitRules tenant)).runAt
        store state with ⟨error | outcomes, later, sent⟩
      · exact Pass.runAt_bind_of_error hrun
      · apply (Pass.runAt_bind_of_ok hrun).trans
        rw [Pass.runAt_pure, List.append_nil]
        rfl

variable {rule : Rule} {rules : List Rule} {state : σ}

/-- A rule that is left out is reported as skipped. -/
theorem exists_of_mem_leaveOut? {entry : RuleEntry}
    (hentry : entry ∈ rules.filterMap engine.leaveOut?) :
    ∃ rule ∈ rules, ∃ fault : RuleFault, entry = .skipped rule fault.message := by
  obtain ⟨rule, hrule, hleft⟩ := List.mem_filterMap.1 hentry
  obtain ⟨fault, -, rfl⟩ := Option.map_eq_some_iff.1 hleft
  exact ⟨rule, hrule, fault, rfl⟩

/-- Whoever looks for something that no skipped rule has finds it among the
rules that were evaluated. -/
theorem filter_rules_reportOf {tenant : String} {p : RuleEntry → Bool}
    (hskipped : ∀ (rule : Rule) (error : String), p (.skipped rule error) = false)
    (outcomes : List RuleOutcome) :
    (reportOf user day tenant (rules.filterMap engine.leaveOut?) outcomes).rules.filter p =
      (outcomes.map RuleOutcome.entry).filter p := by
  have hleft : (rules.filterMap engine.leaveOut?).filter p = [] := by
    apply List.filter_eq_nil_iff.2
    intro entry hentry
    obtain ⟨rule, -, fault, rfl⟩ := exists_of_mem_leaveOut? hentry
    simp [hskipped]
  rw [reportOf, List.filter_append, hleft, List.nil_append]

/-- The entry of a rule names it, and tells of an alert exactly if one was
sent. -/
theorem Evaluated.outcome
    {finished : Dialogue.Finished AlertEvent (Except PassError RuleOutcome) σ}
    (hrule : Evaluated engine store user day snapshot rule state finished)
    {outcome : RuleOutcome} (hanswer : finished.answer = .ok outcome) :
    outcome.entry.rule = rule.id ∧ finished.sent = outcome.event.toList ∧
      [outcome.entry].filter RuleEntry.isAdmitted = outcome.event.toList.map AlertEvent.entry := by
  cases hrule with
  | skipped hverdict =>
      cases hanswer
      exact ⟨rfl, rfl, rfl⟩
  | notMatched hverdict =>
      cases hanswer
      exact ⟨rfl, rfl, rfl⟩
  | failed hverdict hask => cases hanswer
  | suppressed hverdict hask =>
      cases hanswer
      exact ⟨rfl, rfl, rfl⟩
  | admitted hverdict hask =>
      cases hanswer
      exact ⟨rfl, rfl, rfl⟩

/-- Rules that were all evaluated are reported in their order, and those with
an alert are the ones whose alerts were sent. -/
theorem EvaluatedAll.outcomes
    {finished : Dialogue.Finished AlertEvent (Except PassError (List RuleOutcome)) σ}
    (hrules : EvaluatedAll engine store user day snapshot rules state finished)
    {outcomes : List RuleOutcome} (hanswer : finished.answer = .ok outcomes) :
    outcomes.map (fun outcome => outcome.entry.rule) = rules.map Rule.id ∧
      finished.sent = outcomes.filterMap RuleOutcome.event ∧
      (outcomes.map RuleOutcome.entry).filter RuleEntry.isAdmitted =
        finished.sent.map AlertEvent.entry := by
  induction hrules generalizing outcomes with
  | nil state =>
      cases hanswer
      exact ⟨rfl, rfl, rfl⟩
  | failed hrule => cases hanswer
  | @cons rule rules state next later outcome answer first rest hrule hrules ih =>
      obtain ⟨hnamed, hsent, hadmitted⟩ := hrule.outcome rfl
      cases answer with
      | error error => cases hanswer
      | ok others =>
          cases hanswer
          obtain ⟨hothersNamed, hothersSent, hothersAdmitted⟩ := ih rfl
          simp only at hsent hothersSent hothersAdmitted ⊢
          refine ⟨?_, ?_, ?_⟩
          · rw [List.map_cons, List.map_cons, hnamed, hothersNamed]
          · rw [List.filterMap_cons, hsent, hothersSent]
            cases outcome.event <;> rfl
          · rw [List.map_cons, ← List.singleton_append, List.filter_append, hadmitted,
              hothersAdmitted, List.map_append, hsent]

end Engine

end MetricAlerts
