import MetricAlerts.Admission.Overlay
import MetricAlerts.Admission.Request
import MetricAlerts.Engine.Settings
import MetricAlerts.Engine.Verdict
import MetricAlerts.Rulebook.Basic

/-!
# Passes

One evaluation of a user on a day. Rules that are not fit to be evaluated are left out and reported
first; the others follow in their order. Values are read once, before any rule is judged. An alert
goes out as soon as its rule is admitted, so what was sent before a failure stays sent.
-/

namespace MetricAlerts

structure Engine where
  book : Rulebook
  glossary : Glossary
  source : MetricSource
  settings : EngineSettings

/-- A pass in progress: it may be given up, and it sends alerts on its way. -/
abbrev Pass := ExceptT PassError (Dialogue AlertEvent)

namespace Pass

/-- Puts a decision that may have failed into a pass. -/
def ofDialogue {α : Type} (dialogue : Dialogue AlertEvent (Except PassError α)) : Pass α :=
  ExceptT.mk dialogue

def send (event : AlertEvent) : Pass Unit :=
  ExceptT.mk (.send event (.done (.ok ())))

end Pass

/-- What a pass adds to its report for one rule. -/
structure RuleOutcome where
  entry : RuleEntry
  event : Option AlertEvent

namespace Engine

/-- Entry of a rule that cannot be evaluated, if so. -/
def leaveOut? (engine : Engine) (rule : Rule) : Option RuleEntry :=
  (rule.evaluationFault? engine.glossary).map fun fault => .skipped rule fault.message

def isFit (engine : Engine) (rule : Rule) : Bool :=
  (rule.evaluationFault? engine.glossary).isNone

def references (rules : List Rule) : Ascending Reference :=
  .ofList (rules.flatMap Rule.references)

/-- Asks whether a matching rule may alert, and alerts if so. -/
def alert (engine : Engine) (rule : Rule) (user : String) (day : Day) (snapshot : Snapshot)
    (trace : Trace) (message : PickedMessage) : Pass RuleOutcome := do
  let entry status : RuleEntry := ⟨rule.id, rule.priority, status, some trace⟩
  let key : AlertKey := ⟨rule.tenant, user, rule.id⟩
  match ← Pass.ofDialogue
      (Admission.request rule.limits key day (attemptsOf engine.settings.retries)) with
  | .suppressed reason => return ⟨entry (.suppressed reason), none⟩
  | .admitted _ =>
      let event := rule.event user day snapshot engine.glossary trace message
      Pass.send event
      return ⟨entry (.admitted message.id), some event⟩

def evaluateRule (engine : Engine) (user : String) (day : Day) (snapshot : Snapshot)
    (rule : Rule) : Pass RuleOutcome :=
  match rule.verdict user day snapshot with
  | .skipped fault => return ⟨.skipped rule fault.message, none⟩
  | .notMatched trace => return ⟨⟨rule.id, rule.priority, .notMatched, some trace⟩, none⟩
  | .matched trace message => engine.alert rule user day snapshot trace message

/-- One rule after the other. -/
def evaluateRules (engine : Engine) (user : String) (day : Day) (snapshot : Snapshot) :
    List Rule → Pass (List RuleOutcome)
  | [] => return []
  | rule :: rules => do
      let outcome ← engine.evaluateRule user day snapshot rule
      let outcomes ← engine.evaluateRules user day snapshot rules
      return outcome :: outcomes

def reportOf (user : String) (day : Day) (tenant : String) (leftOut : List RuleEntry)
    (outcomes : List RuleOutcome) : Report :=
  { user
    tenant
    day
    events := outcomes.filterMap RuleOutcome.event
    rules := leftOut ++ outcomes.map RuleOutcome.entry }

def pass (engine : Engine) (user : String) (day : Day) (tenant : String) : Pass Report := do
  let rules := engine.book.enabledRules tenant
  let leftOut := rules.filterMap engine.leaveOut?
  let fit := rules.filter engine.isFit
  match Snapshot.take engine.source user day engine.settings.lookback (references fit) with
  | .error detail => throw (.unreachable (metricsUnreachable detail))
  | .ok snapshot =>
      let outcomes ← engine.evaluateRules user day snapshot fit
      return reportOf user day tenant leftOut outcomes

variable {σ : Type}

/-- Evaluates a user: histories are updated, and alerts go out. -/
def evaluate (engine : Engine) (store : HistoryStore σ) (user : String) (day : Day)
    (tenant : String) (state : σ) : Dialogue.Finished AlertEvent (Except PassError Report) σ :=
  (engine.pass user day tenant).run.run store state

/-- Evaluates a user over an overlay, which is then thrown away together with the alerts. -/
def rehearse (engine : Engine) (store : HistoryStore σ) (user : String) (day : Day)
    (tenant : String) (state : σ) : Dialogue.Finished AlertEvent (Except PassError Report) σ :=
  let finished :=
    (engine.pass user day tenant).run.run (Overlay.store store) (Overlay.fresh state)
  ⟨finished.answer, finished.state.base, []⟩

def simulate (engine : Engine) (store : HistoryStore σ) (user : String) (day : Day)
    (tenant : String) (options : SimulationOptions) (state : σ) :
    Dialogue.Finished AlertEvent (Except PassError Simulation) σ :=
  let finished := match options.mode with
    | .dryRun => engine.rehearse store user day tenant state
    | .commit => engine.evaluate store user day tenant state
  let answer := finished.answer.map fun report =>
    Simulation.ofReport report options.mode options.debug
  ⟨answer, finished.state, finished.sent⟩

/-- Every statistic of the given metrics of a user. -/
def features (engine : Engine) (user : String) (day : Day) (metrics : List String) :
    Except String Snapshot :=
  Snapshot.takeAll engine.source user day engine.settings.lookback metrics

end Engine

end MetricAlerts
