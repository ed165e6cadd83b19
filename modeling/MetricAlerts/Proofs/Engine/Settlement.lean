import MetricAlerts.Engine.Pass
import MetricAlerts.Proofs.Admission.View

/-!
# What a pass comes to

A pass is written as a dialogue with its store.  At a store that nobody else is
at, it comes to something that can be said without dialogue: each rule is
settled by what is stored under its own key, and the report, the alerts and the
new histories are read off that.
-/

namespace MetricAlerts

namespace Pass

variable {α β σ : Type}

def runAt (pass : Pass α) (store : HistoryStore σ) (state : σ) :
    Dialogue.Finished AlertEvent (Except PassError α) σ :=
  (ExceptT.run pass).run store state

variable {store : HistoryStore σ} {state later : σ} {sent : List AlertEvent}

@[simp]
theorem runAt_pure (a : α) : (pure a : Pass α).runAt store state = ⟨.ok a, state, []⟩ := rfl

@[simp]
theorem runAt_send (event : AlertEvent) :
    (send event).runAt store state = ⟨.ok (), state, [event]⟩ := rfl

theorem runAt_bind_of_ok {pass : Pass α} {f : α → Pass β} {a : α}
    (hpass : pass.runAt store state = ⟨.ok a, later, sent⟩) :
    (pass >>= f).runAt store state =
      ⟨((f a).runAt store later).answer, ((f a).runAt store later).state,
        sent ++ ((f a).runAt store later).sent⟩ := by
  change (ExceptT.run pass >>= _).run store state = _
  rw [Dialogue.run_bind]
  change (ExceptT.run pass).run store state = _ at hpass
  rw [hpass]
  rfl

theorem runAt_bind_of_error {pass : Pass α} {f : α → Pass β} {error : PassError}
    (hpass : pass.runAt store state = ⟨.error error, later, sent⟩) :
    (pass >>= f).runAt store state = ⟨.error error, later, sent⟩ := by
  change (ExceptT.run pass >>= _).run store state = _
  rw [Dialogue.run_bind]
  change (ExceptT.run pass).run store state = _ at hpass
  rw [hpass]
  simp [ExceptT.bindCont, Dialogue.run, pure]

end Pass

/-- What a rule comes to, and what is stored under its key afterwards. -/
def Rule.settle (rule : Rule) (glossary : Glossary) (user : String) (day : Day)
    (snapshot : Snapshot) (stored : Versioned) : RuleOutcome × Versioned :=
  match rule.verdict user day snapshot with
  | .skipped fault => (⟨.skipped rule fault.message, none⟩, stored)
  | .notMatched trace => (⟨⟨rule.id, rule.priority, .notMatched, some trace⟩, none⟩, stored)
  | .matched trace message =>
      match rule.limits.decision day stored with
      | (.suppressed reason, stored) =>
          (⟨⟨rule.id, rule.priority, .suppressed reason, some trace⟩, none⟩, stored)
      | (.admitted _, stored) =>
          (⟨⟨rule.id, rule.priority, .admitted message.id, some trace⟩,
            some (rule.event user day snapshot glossary trace message)⟩, stored)

namespace Engine

/-- The rules of a tenant that a pass evaluates, in their order. -/
def fitRules (engine : Engine) (tenant : String) : List Rule :=
  (engine.book.enabledRules tenant).filter engine.isFit

def snapshot (engine : Engine) (user : String) (day : Day) (tenant : String) :
    Except String Snapshot :=
  Snapshot.take engine.source user day engine.settings.lookback
    (references (engine.fitRules tenant))

theorem mem_references {rules : List Rule} {rule : Rule} {reference : Reference}
    (hrule : rule ∈ rules) (hreference : reference ∈ rule.references) :
    reference ∈ (references rules).items := by
  rw [references, Ascending.mem_ofList]
  exact List.mem_flatMap.2 ⟨rule, hrule, hreference⟩

/-- Rules settled one after the other. -/
def settleRules (engine : Engine) (user : String) (day : Day) (snapshot : Snapshot) :
    List Rule → (AlertKey → Versioned) → List RuleOutcome × (AlertKey → Versioned)
  | [], stored => ([], stored)
  | rule :: rules, stored =>
      let key := rule.keyFor user
      let (outcome, own) := rule.settle engine.glossary user day snapshot (stored key)
      let (outcomes, stored) :=
        engine.settleRules user day snapshot rules (Function.update stored key own)
      (outcome :: outcomes, stored)

/-- A whole pass, settled: its answer and what is stored afterwards. -/
def settlePass (engine : Engine) (user : String) (day : Day) (tenant : String)
    (stored : AlertKey → Versioned) : Except PassError Report × (AlertKey → Versioned) :=
  match engine.snapshot user day tenant with
  | .error detail => (.error (.unreachable (metricsUnreachable detail)), stored)
  | .ok snapshot =>
      let (outcomes, stored) :=
        engine.settleRules user day snapshot (engine.fitRules tenant) stored
      (.ok (reportOf user day tenant
        ((engine.book.enabledRules tenant).filterMap engine.leaveOut?) outcomes), stored)

/-- The alerts of a pass that has come to the answer. -/
def alertsOf : Except PassError Report → List AlertEvent
  | .ok report => report.events
  | .error _ => []

variable {σ : Type} {store : HistoryStore σ} {shown : σ → AlertKey → Versioned}

theorem runAt_alert (hstore : store.Shows shown) (engine : Engine) {rule : Rule}
    {user : String} {day : Day} {snapshot : Snapshot} {trace : Trace}
    {message : PickedMessage} (state : σ)
    (hverdict : rule.verdict user day snapshot = .matched trace message) :
    ∃ later,
      (engine.alert rule user day snapshot trace message).runAt store state =
        ⟨.ok (rule.settle engine.glossary user day snapshot (shown state (rule.keyFor user))).1,
          later,
          (rule.settle engine.glossary user day snapshot
            (shown state (rule.keyFor user))).1.event.toList⟩ ∧
      shown later = Function.update (shown state) (rule.keyFor user)
        (rule.settle engine.glossary user day snapshot (shown state (rule.keyFor user))).2 := by
  obtain ⟨later, hrun, hlater⟩ := hstore.run_request (ε := AlertEvent) rule.limits
    (rule.keyFor user) day engine.settings.retries state
  have hasked : (Pass.ofDialogue (Admission.request rule.limits (rule.keyFor user) day
      (attemptsOf engine.settings.retries))).runAt store state = _ := hrun
  refine ⟨later, ?_, ?_⟩
  · change (Pass.ofDialogue (Admission.request rule.limits (rule.keyFor user) day
      (attemptsOf engine.settings.retries)) >>= _).runAt store state = _
    rw [Pass.runAt_bind_of_ok hasked]
    simp only [Rule.settle, hverdict]
    cases hdecision : rule.limits.decision day (shown state (rule.keyFor user)) with
    | mk admission own =>
        cases admission with
        | suppressed reason => rfl
        | admitted next =>
            rw [Pass.runAt_bind_of_ok (Pass.runAt_send _)]
            rfl
  · rw [hlater]
    simp only [Rule.settle, hverdict]
    cases hdecision : rule.limits.decision day (shown state (rule.keyFor user)) with
    | mk admission own => cases admission <;> rfl

theorem runAt_evaluateRule (hstore : store.Shows shown) (engine : Engine) (user : String)
    (day : Day) (snapshot : Snapshot) (rule : Rule) (state : σ) :
    ∃ later,
      (engine.evaluateRule user day snapshot rule).runAt store state =
        ⟨.ok (rule.settle engine.glossary user day snapshot (shown state (rule.keyFor user))).1,
          later,
          (rule.settle engine.glossary user day snapshot
            (shown state (rule.keyFor user))).1.event.toList⟩ ∧
      shown later = Function.update (shown state) (rule.keyFor user)
        (rule.settle engine.glossary user day snapshot (shown state (rule.keyFor user))).2 := by
  rw [evaluateRule]
  cases hverdict : rule.verdict user day snapshot with
  | skipped fault =>
      refine ⟨state, ?_, ?_⟩
      · simp [Rule.settle, hverdict]
      · simp [Rule.settle, hverdict]
  | notMatched trace =>
      refine ⟨state, ?_, ?_⟩
      · simp [Rule.settle, hverdict]
      · simp [Rule.settle, hverdict]
  | matched trace message => exact runAt_alert hstore engine state hverdict

theorem runAt_evaluateRules (hstore : store.Shows shown) (engine : Engine) (user : String)
    (day : Day) (snapshot : Snapshot) (rules : List Rule) (state : σ) :
    ∃ later,
      (engine.evaluateRules user day snapshot rules).runAt store state =
        ⟨.ok (engine.settleRules user day snapshot rules (shown state)).1, later,
          (engine.settleRules user day snapshot rules (shown state)).1.filterMap
            RuleOutcome.event⟩ ∧
      shown later = (engine.settleRules user day snapshot rules (shown state)).2 := by
  induction rules generalizing state with
  | nil => exact ⟨state, rfl, rfl⟩
  | cons rule rules ih =>
      obtain ⟨next, hrule, hnext⟩ :=
        runAt_evaluateRule hstore engine user day snapshot rule state
      obtain ⟨later, hrules, hlater⟩ := ih next
      rw [hnext] at hrules hlater
      refine ⟨later, ?_, hlater⟩
      rw [evaluateRules, Pass.runAt_bind_of_ok hrule, Pass.runAt_bind_of_ok hrules]
      simp only [Pass.runAt_pure, settleRules, List.filterMap_cons, List.append_nil]
      cases (rule.settle engine.glossary user day snapshot
        (shown state (rule.keyFor user))).1.event <;> rfl

/-- A pass at a store that nobody else is at answers, sends and stores what its
rules are settled to. -/
theorem evaluate_settles (hstore : store.Shows shown) (engine : Engine) (user : String)
    (day : Day) (tenant : String) (state : σ) :
    ∃ later,
      engine.evaluate store user day tenant state =
        ⟨(engine.settlePass user day tenant (shown state)).1, later,
          alertsOf (engine.settlePass user day tenant (shown state)).1⟩ ∧
      shown later = (engine.settlePass user day tenant (shown state)).2 := by
  change ∃ later, (engine.pass user day tenant).runAt store state = _ ∧ _
  unfold pass settlePass Engine.snapshot
  cases htake : Snapshot.take engine.source user day engine.settings.lookback
      (references (engine.fitRules tenant)) with
  | error detail =>
      change Snapshot.take _ _ _ _ (references (List.filter _ _)) = _ at htake
      refine ⟨state, ?_, rfl⟩
      simp only [htake]
      rfl
  | ok snapshot =>
      change Snapshot.take _ _ _ _ (references (List.filter _ _)) = _ at htake
      obtain ⟨later, hrules, hlater⟩ := runAt_evaluateRules hstore engine user day snapshot
        (engine.fitRules tenant) state
      refine ⟨later, ?_, hlater⟩
      simp only [htake]
      change (engine.evaluateRules user day snapshot (engine.fitRules tenant) >>= _).runAt
        store state = _
      rw [Pass.runAt_bind_of_ok hrules]
      simp [alertsOf, reportOf]

end Engine

end MetricAlerts
