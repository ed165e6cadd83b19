import MetricAlerts.Batch.Task
import MetricAlerts.Proofs.Engine.AlertLimits
import MetricAlerts.Proofs.Engine.InMemory

/-!
# Outcomes of tasks

A task in earnest and a rehearsal evaluate the same rules, so their outcomes
should be the same.  With debugging they are.  Without it, a rehearsal is told
nothing of single rules and counts none, so its outcome is that of the
evaluation just if there was nothing to count.
-/

namespace MetricAlerts

variable {events : List AlertEvent} {rules : List RuleEntry}

theorem Outcome.ofRules_nil_eq_iff :
    ofRules events [] = ofRules events rules ↔
      ∀ entry ∈ rules, entry.isSkipped = false ∧ entry.isSuppressed = false := by
  simp only [ofRules, Outcome.mk.injEq, true_and, List.filter_nil, List.map_nil,
    List.length_nil, eq_comm (a := []), eq_comm (a := 0), List.map_eq_nil_iff,
    List.length_eq_zero_iff, List.filter_eq_nil_iff, Bool.not_eq_true]
  exact forall₂_and.symm

namespace Service

variable {service : Service Ledger}

/-- What a task comes to in the given mode. -/
def outcomeIn (service : Service Ledger) (task : Task) (mode : TaskMode) :
    Except PassError Outcome :=
  (service.handle Ledger.store { task with mode }).1

theorem outcomeIn_simulate (service : Service Ledger) (task : Task) (debug : Bool) :
    service.outcomeIn task (.simulate debug) =
      (service.evaluate Ledger.store task.user task.day task.tenant).1.map fun report =>
        .ofRules report.events (if debug then report.rules else []) := by
  have hsimulate := service.simulate_dryRun task.user task.day task.tenant debug
  simp only [outcomeIn, handle, hsimulate]
  cases (service.evaluate Ledger.store task.user task.day task.tenant).1 with
  | error error => rfl
  | ok report => cases debug <;> rfl

/-- A rehearsal with debugging has the outcome of an evaluation.  One without
has its alerts but counts nothing, so its outcome is the same just if no rule
was skipped or suppressed. -/
theorem outcomeIn_modes (service : Service Ledger) (hup : service.down = []) (task : Task) :
    ∃ report,
      (service.evaluate Ledger.store task.user task.day task.tenant).1 = .ok report ∧
      service.outcomeIn task .evaluate = .ok (.ofRules report.events report.rules) ∧
      service.outcomeIn task (.simulate true) = service.outcomeIn task .evaluate ∧
      service.outcomeIn task (.simulate false) = .ok ⟨report.events, [], 0⟩ ∧
      (service.outcomeIn task (.simulate false) = service.outcomeIn task .evaluate ↔
        ∀ entry ∈ report.rules, entry.isSkipped = false ∧ entry.isSuppressed = false) := by
  obtain ⟨report, hreport⟩ := exists_report hup task.user task.day task.tenant
  have hearnest : service.outcomeIn task .evaluate =
      .ok (.ofRules report.events report.rules) := by
    change (service.evaluate Ledger.store task.user task.day task.tenant).1.map _ = _
    rw [hreport]
    rfl
  have hrehearsal : ∀ debug, service.outcomeIn task (.simulate debug) =
      .ok (.ofRules report.events (if debug then report.rules else [])) := by
    intro debug
    rw [outcomeIn_simulate, hreport]
    rfl
  refine ⟨report, hreport, hearnest, ?_, hrehearsal false, ?_⟩
  · rw [hrehearsal, hearnest]
    rfl
  · rw [hrehearsal, hearnest, Except.ok.injEq]
    exact Outcome.ofRules_nil_eq_iff

/-- The user has been alerted by the rule on this day already. -/
def alertedOnce : Service Ledger :=
  let service := fresh (.ofRequests onceADayRequests) .empty .empty .initial []
  (service.evaluate Ledger.store "ada" epoch "acme").2

def repeatedTask : Task :=
  ⟨⟨"t"⟩, "acme", "ada", epoch, .evaluate, ⟨0, 0⟩⟩

theorem outcomeIn_modes_alertedOnce :
    alertedOnce.down = [] ∧ ∃ report,
      (alertedOnce.evaluate Ledger.store "ada" epoch "acme").1 = .ok report ∧
      alertedOnce.outcomeIn repeatedTask .evaluate =
        .ok (.ofRules report.events report.rules) ∧
      alertedOnce.outcomeIn repeatedTask (.simulate true) =
        alertedOnce.outcomeIn repeatedTask .evaluate ∧
      alertedOnce.outcomeIn repeatedTask (.simulate false) = .ok ⟨report.events, [], 0⟩ ∧
      (alertedOnce.outcomeIn repeatedTask (.simulate false) =
          alertedOnce.outcomeIn repeatedTask .evaluate ↔
        ∀ entry ∈ report.rules, entry.isSkipped = false ∧ entry.isSuppressed = false) :=
  ⟨rfl, outcomeIn_modes alertedOnce rfl repeatedTask⟩

/-- The evaluation counts the rule as suppressed, and the rehearsal without
debugging does not. -/
theorem outcomes_differ_alertedOnce :
    (alertedOnce.outcomeIn repeatedTask .evaluate).toOption.map Outcome.suppressed = some 1 ∧
      (alertedOnce.outcomeIn repeatedTask (.simulate true)).toOption.map Outcome.suppressed =
        some 1 ∧
      (alertedOnce.outcomeIn repeatedTask (.simulate false)).toOption.map Outcome.suppressed =
        some 0 ∧
      alertedOnce.outcomeIn repeatedTask (.simulate false) ≠
        alertedOnce.outcomeIn repeatedTask .evaluate := by
  have hevaluation :
      (alertedOnce.outcomeIn repeatedTask .evaluate).toOption.map Outcome.suppressed =
        some 1 := by
    decide +kernel
  have hrehearsal :
      (alertedOnce.outcomeIn repeatedTask (.simulate false)).toOption.map Outcome.suppressed =
        some 0 := by
    decide +kernel
  refine ⟨hevaluation, by decide +kernel, hrehearsal, ?_⟩
  intro hsame
  rw [hsame, hevaluation] at hrehearsal
  cases hrehearsal

end Service

end MetricAlerts
