import MetricAlerts.Proofs.Engine.AlertLimits
import MetricAlerts.Proofs.Engine.Footprint
import MetricAlerts.Proofs.Engine.InMemory
import MetricAlerts.Proofs.Metric.Lookback

/-!
# Passes do not look ahead

A pass of a day sees nothing of what is recorded for later days, and nothing of
what lies before the longest window.  Two logs may differ there as much as they
like, even in which series there are: the reports agree but for the words in
which it is told why a value is missing, and the same histories are stored.
-/

namespace MetricAlerts

namespace Engine

variable {f : Shortfall → Shortfall} {engine : Engine} {user : String} {day : Day}
  {snapshot second : Snapshot} {rules : List Rule}

/-- Values that are alike lead rules that are settled one after the other to
outcomes that are alike, and to the same histories. -/
theorem settleRules_alike (engine other : Engine) (user : String) (day : Day)
    (hglossary : ∀ metric, engine.glossary.find? metric = other.glossary.find? metric)
    (halike : ∀ rule ∈ rules, snapshot.AlikeOn f second rule.references)
    (stored : AlertKey → Versioned) :
    (engine.settleRules user day snapshot rules stored).1.map (RuleOutcome.reword f) =
        (other.settleRules user day second rules stored).1.map (RuleOutcome.reword f) ∧
      (engine.settleRules user day snapshot rules stored).2 =
        (other.settleRules user day second rules stored).2 := by
  induction rules generalizing stored with
  | nil => exact ⟨rfl, rfl⟩
  | cons rule rules ih =>
      have hfirst := halike rule List.mem_cons_self
      have houtcome := Rule.settle_alike user day hfirst hglossary
        (Eq.refl (stored (rule.keyFor user)).history)
      have hstored : (rule.settle engine.glossary user day snapshot
          (stored (rule.keyFor user))).2 =
          (rule.settle other.glossary user day second (stored (rule.keyFor user))).2 := by
        rw [Rule.settle_stored, Rule.settle_stored, Rule.renewal?_alike user day _ hfirst]
      obtain ⟨houtcomes, hlater⟩ := ih
        (fun rule hrule => halike rule (List.mem_cons_of_mem _ hrule))
        (Function.update stored (rule.keyFor user)
          (rule.settle other.glossary user day second (stored (rule.keyFor user))).2)
      simp only [settleRules, List.map_cons, hstored]
      exact ⟨List.cons_eq_cons.2 ⟨houtcome, houtcomes⟩, hlater⟩

theorem reword_reportOf (f : Shortfall → Shortfall) (user : String) (day : Day)
    (tenant : String) (leftOut : List RuleEntry) (outcomes : List RuleOutcome) :
    (reportOf user day tenant leftOut outcomes).reword f =
      reportOf user day tenant (leftOut.map (RuleEntry.reword f))
        (outcomes.map (RuleOutcome.reword f)) := by
  rw [Report.reword, reportOf, reportOf, List.map_append, List.map_map, List.map_map,
    List.map_filterMap, List.filterMap_map]
  rfl

/-- The values of two logs that agree within the longest window are alike. -/
theorem alikeOn_ofLog {log present : MetricLog} {lookback : Nat}
    (hsame : ∀ metric date, day.windowStart (max 28 lookback) ≤ date → date ≤ day →
      log.on? user metric date = present.on? user metric date)
    {rule : Rule} (hrule : rule ∈ rules) (words : Shortfall) :
    (Snapshot.ofLog log user day lookback (references rules)).AlikeOn (fun _ => words)
      (Snapshot.ofLog present user day lookback (references rules)) rule.references := by
  intro reference hreference
  have hasked := mem_references hrule hreference
  rw [Snapshot.get_ofLog _ _ _ _ hasked, Snapshot.get_ofLog _ _ _ _ hasked]
  exact MetricLog.value_alike hsame reference words

/-- Two sources that give alike values lead to reports that agree but for the
words of shortfalls, and to the same histories. -/
theorem evaluate_alike {tenant : String} {source : MetricSource}
    (hsnapshot : engine.snapshot user day tenant = .ok snapshot)
    (hsecond : Engine.snapshot { engine with source } user day tenant = .ok second)
    (halike : ∀ words, ∀ rule ∈ engine.fitRules tenant,
      snapshot.AlikeOn (fun _ => words) second rule.references) (ledger : Ledger) :
    let finished := engine.evaluate Ledger.store user day tenant ledger
    let other := Engine.evaluate { engine with source } Ledger.store user day tenant ledger
    (∃ report present, finished.answer = .ok report ∧ other.answer = .ok present ∧
      finished.sent = report.events ∧ other.sent = present.events ∧
      ∀ words, report.reword (fun _ => words) = present.reword fun _ => words) ∧
    ∀ key, finished.state.find? key = other.state.find? key := by
  intro finished other
  obtain ⟨later, hfinished, hload, hgrows⟩ := evaluate_of_snapshot hsnapshot ledger
  obtain ⟨last, hother, hlast, hgrowsToo⟩ := evaluate_of_snapshot hsecond ledger
  have hrules := fun words => settleRules_alike engine { engine with source } user day
    (fun _ => rfl) (halike words) ledger.load
  have hsame : later.load = last.load := by
    rw [hload, hlast]
    exact (hrules (.missing "")).2
  rw [show finished = _ from hfinished, show other = _ from hother]
  refine ⟨⟨_, _, rfl, rfl, rfl, rfl, ?_⟩, ?_⟩
  · intro words
    rw [reword_reportOf, reword_reportOf]
    exact congrArg (reportOf user day tenant _) (hrules words).1
  · intro key
    rw [hgrows.find?_eq, hgrowsToo.find?_eq, hsame]

/-- An evaluation on a day looks at nothing but what the user has recorded from
the first day of the longest window up to that day.  Logs that agree there lead
to reports that are the same in all but the words of the shortfalls in their
traces, to the alerts of these reports, and to the same histories. -/
theorem no_lookahead (book : Rulebook) (glossary : Glossary) (settings : EngineSettings)
    (log other : MetricLog) (user : String) (day : Day)
    (hsame : ∀ metric date,
      day.windowStart (max 28 settings.lookbackDays.toNat) ≤ date → date ≤ day →
      log.on? user metric date = other.on? user metric date)
    (tenant : String) (ledger : Ledger) :
    let first := Engine.evaluate ⟨book, glossary, log.source, settings⟩ Ledger.store user day
      tenant ledger
    let second := Engine.evaluate ⟨book, glossary, other.source, settings⟩ Ledger.store user day
      tenant ledger
    (∃ report present, first.answer = .ok report ∧ second.answer = .ok present ∧
      first.sent = report.events ∧ second.sent = present.events ∧
      ∀ words, report.reword (fun _ => words) = present.reword fun _ => words) ∧
    ∀ key, first.state.find? key = second.state.find? key := by
  have hlookback : max 28 settings.lookback = max 28 settings.lookbackDays.toNat := by
    rw [EngineSettings.lookback]
    omega
  rw [← hlookback] at hsame
  let engine : Engine := ⟨book, glossary, log.source, settings⟩
  have hfirst : engine.snapshot user day tenant =
      .ok (.ofLog log user day settings.lookback (references (engine.fitRules tenant))) :=
    Snapshot.take_source ..
  have hsecond : Engine.snapshot { engine with source := other.source } user day tenant =
      .ok (.ofLog other user day settings.lookback (references (engine.fitRules tenant))) :=
    Snapshot.take_source ..
  exact evaluate_alike hfirst hsecond
    (fun words _ hrule => alikeOn_ofLog hsame hrule words) ledger

/-- A rule that matches on days with few steps. -/
def fewSteps : Rule :=
  { Service.onceADay with logic := .leaf ⟨"steps", .current, .less, .one 100⟩ }

def fewStepsBook : Rulebook :=
  (Registry.ofRequests [⟨.create fewSteps, .system, ⟨⟨0, 0⟩, ⟨"a"⟩, ⟨"b"⟩⟩⟩]).book

/-- Nothing is known of the user until the day after. -/
def stepsTomorrow : MetricLog :=
  MetricLog.record .empty "ada" "steps" Service.dayAfterEpoch 50

theorem on?_stepsTomorrow {date : Day} (hbefore : date ≤ Service.epoch) (metric : String) :
    stepsTomorrow.on? "ada" metric date = none := by
  have hlog : stepsTomorrow = Table.insert .empty ⟨"ada", "steps"⟩
      (Series.empty.record Service.dayAfterEpoch 50) := by
    rw [stepsTomorrow, MetricLog.record, if_pos (by decide)]
    rfl
  have hne : Service.dayAfterEpoch ≠ date := by
    rintro rfl
    exact absurd hbefore (by decide)
  rw [MetricLog.on?, MetricLog.series?, hlog, Table.find?_insert]
  split
  · simp [Series.on?, Series.record, Series.place, Series.empty, hne]
  · rfl

/-- What is told in a report about missing values. -/
def reasonsOf (finished : Dialogue.Finished AlertEvent (Except PassError Report) Ledger) :
    List (Option Shortfall) :=
  ((tracesOf finished).flatMap Trace.leaves).map LeafTrace.shortfall

/-- A series that begins tomorrow changes nothing but the words. -/
theorem no_lookahead_stepsTomorrow :
    let first := Engine.evaluate ⟨fewStepsBook, .ofMetrics [.named "steps"],
      MetricLog.source .empty, .initial⟩ Ledger.store "ada" Service.epoch "acme" .empty
    let second := Engine.evaluate ⟨fewStepsBook, .ofMetrics [.named "steps"],
      stepsTomorrow.source, .initial⟩ Ledger.store "ada" Service.epoch "acme" .empty
    (∀ metric date,
      Service.epoch.windowStart (max 28 EngineSettings.initial.lookbackDays.toNat) ≤ date →
      date ≤ Service.epoch →
      MetricLog.on? .empty "ada" metric date = stepsTomorrow.on? "ada" metric date) ∧
    reasonsOf first ≠ reasonsOf second ∧
    (∃ report present, first.answer = .ok report ∧ second.answer = .ok present ∧
      first.sent = report.events ∧ second.sent = present.events ∧
      ∀ words, report.reword (fun _ => words) = present.reword fun _ => words) ∧
    ∀ key, first.state.find? key = second.state.find? key := by
  intro first second
  have hsame : ∀ metric date,
      Service.epoch.windowStart (max 28 EngineSettings.initial.lookbackDays.toNat) ≤ date →
      date ≤ Service.epoch →
      MetricLog.on? .empty "ada" metric date = stepsTomorrow.on? "ada" metric date := by
    intro metric date _ hbefore
    rw [on?_stepsTomorrow hbefore]
    rfl
  refine ⟨hsame, by decide +kernel, ?_⟩
  exact no_lookahead fewStepsBook (.ofMetrics [.named "steps"]) .initial .empty stepsTomorrow
    "ada" Service.epoch hsame "acme" .empty

end Engine

end MetricAlerts
