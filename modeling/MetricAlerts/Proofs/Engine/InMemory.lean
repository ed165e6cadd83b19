import MetricAlerts.Engine.Service
import MetricAlerts.Proofs.Admission.Growth
import MetricAlerts.Proofs.Engine.Settlement
import MetricAlerts.Proofs.Metric.Snapshot
import MetricAlerts.Proofs.Rulebook.Changes

/-!
# Passes in memory

A log of metrics and a ledger never fail.  A pass over them always comes to a
report: its values are those of the log, its alerts are the ones that it
reports, and what it stores is what its rules are settled to.
-/

namespace MetricAlerts

/-- Once it has its values, a pass at a ledger cannot fail. -/
theorem Engine.evaluate_of_snapshot {engine : Engine} {user : String} {day : Day}
    {tenant : String} {snapshot : Snapshot}
    (hsnapshot : engine.snapshot user day tenant = .ok snapshot) (ledger : Ledger) :
    let settled := engine.settleRules user day snapshot (engine.fitRules tenant) ledger.load
    let report := reportOf user day tenant
      ((engine.book.enabledRules tenant).filterMap engine.leaveOut?) settled.1
    ∃ later,
      engine.evaluate Ledger.store user day tenant ledger = ⟨.ok report, later, report.events⟩ ∧
      later.load = settled.2 ∧ ledger.GrowsTo later := by
  intro settled report
  obtain ⟨later, hevaluate, hload⟩ :=
    engine.evaluate_settles Ledger.shows_load user day tenant ledger
  have hsettled : engine.settlePass user day tenant ledger.load = (.ok report, settled.2) := by
    rw [settlePass, hsnapshot]
  rw [hsettled] at hevaluate hload
  refine ⟨later, hevaluate, hload, ?_⟩
  have hgrows := Ledger.growsTo_run (engine.pass user day tenant).run ledger
  change ledger.GrowsTo (engine.evaluate Ledger.store user day tenant ledger).state at hgrows
  rwa [hevaluate] at hgrows

namespace Service

/-- A service whose rules came about by changes, and whose metrics can all be
read. -/
structure IsInMemory (service : Service Ledger) : Prop where
  registry : ∃ requests, service.registry = .ofRequests requests
  up : service.down = []

variable {service : Service Ledger}

theorem IsInMemory.isKeyed (hservice : service.IsInMemory) :
    service.registry.book.IsKeyed := by
  obtain ⟨requests, hrequests⟩ := hservice.registry
  rw [hrequests]
  exact Rulebook.isKeyed_ofRequests requests

/-- The values that a pass takes. -/
def values (service : Service Ledger) (user : String) (day : Day) (tenant : String) : Snapshot :=
  .ofLog service.metrics user day service.settings.lookback
    (Engine.references (service.engine.fitRules tenant))

theorem snapshot_of_up (hup : service.down = []) (user : String) (day : Day) (tenant : String) :
    service.engine.snapshot user day tenant = .ok (service.values user day tenant) := by
  have hsource : service.engine.source = service.metrics.source := by
    rw [engine, hup]
    rfl
  rw [Engine.snapshot, hsource]
  exact Snapshot.take_source ..

theorem exists_report (hup : service.down = []) (user : String) (day : Day) (tenant : String) :
    ∃ report, (service.evaluate Ledger.store user day tenant).1 = .ok report := by
  obtain ⟨later, hevaluate, -⟩ :=
    Engine.evaluate_of_snapshot (snapshot_of_up hup user day tenant) service.histories
  exact ⟨_, congrArg Dialogue.Finished.answer hevaluate⟩

end Service

end MetricAlerts
