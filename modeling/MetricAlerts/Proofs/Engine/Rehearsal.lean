import MetricAlerts.Proofs.Engine.Course
import MetricAlerts.Proofs.Engine.Settlement

/-!
# Dry runs

A dry run is a pass over an overlay.  The overlay shows what the store below
shows, so the pass settles every rule as an evaluation would; and all that it
writes stays in the overlay.  So a dry run answers what an evaluation would
answer, and a course of evaluations goes the same way with and without it.
-/

namespace MetricAlerts

namespace Engine

variable {σ : Type} {store : HistoryStore σ} {shown : σ → AlertKey → Versioned}

/-- A rehearsal answers what an evaluation would, and leaves no trace. -/
theorem rehearse_eq (hstore : store.Shows shown)
    (hload : ∀ key state, (store.load key state).2 = state)
    (engine : Engine) (user : String) (day : Day) (tenant : String) (state : σ) :
    engine.rehearse store user day tenant state =
      ⟨(engine.evaluate store user day tenant state).answer, state, []⟩ := by
  obtain ⟨later, hevaluate, -⟩ := evaluate_settles hstore engine user day tenant state
  obtain ⟨above, hrehearse, -⟩ := evaluate_settles (Overlay.shows hstore) engine user day
    tenant (Overlay.fresh state)
  have hbase := Overlay.base_run hload (engine.pass user day tenant).run (Overlay.fresh state)
  change Dialogue.Finished.mk
    (engine.evaluate (Overlay.store store) user day tenant (Overlay.fresh state)).answer
    ((engine.pass user day tenant).run.run (Overlay.store store)
      (Overlay.fresh state)).state.base [] = _
  rw [hbase, hrehearse, hevaluate, Overlay.shown_fresh]
  rfl

end Engine

namespace Service

theorem simulate_dryRun (service : Service Ledger) (user : String) (day : Day)
    (tenant : String) (debug : Bool) :
    service.simulate Ledger.store user day tenant ⟨debug, .dryRun⟩ =
      ((service.evaluate Ledger.store user day tenant).1.map fun report =>
        { count := report.events.length
          events := report.events
          mode := .dryRun
          rules := if debug then some report.rules else none }, service) := by
  have hrehearse := service.engine.rehearse_eq Ledger.shows_load (fun _ _ => rfl) user day
    tenant service.histories
  unfold simulate Engine.simulate
  simp only [hrehearse]
  refine Prod.ext rfl ?_
  simp [after]

theorem act_of_isDryRun {act : Act} (hact : act.isDryRun = true) (service : Service Ledger) :
    (service.act Ledger.store act).2 = service := by
  cases act with
  | evaluate user day tenant => cases hact
  | observe metrics down => cases hact
  | simulate user day tenant options =>
      obtain ⟨debug, mode⟩ := options
      have hmode : mode = .dryRun := by simpa [Act.isDryRun] using hact
      subst hmode
      exact congrArg Prod.snd (service.simulate_dryRun user day tenant debug)

/-- A course goes the same way when its dry runs are left out. -/
theorem run_filter_isDryRun (acts : List Act) (service : Service Ledger) :
    run Ledger.store (acts.filter fun act => !act.isDryRun) service =
      ((run Ledger.store acts service).1.filter fun entry => !entry.1.isDryRun,
        (run Ledger.store acts service).2) := by
  induction acts generalizing service with
  | nil => rfl
  | cons act acts ih =>
      by_cases hact : act.isDryRun = true
      · have hsame := act_of_isDryRun hact service
        simp only [List.filter_cons, hact, Bool.not_true, Bool.false_eq_true, if_false, run,
          hsame]
        exact ih service
      · have hreal : (!act.isDryRun) = true := by simpa using hact
        simp only [List.filter_cons, hreal, if_true, run]
        rw [ih]

/-- A dry run answers with the events that an evaluation would have at this
moment, and if asked also with its entries, and it leaves the whole service as
it is; so however many dry runs a course is interspersed with, it answers
everything else the same and ends with the same service. -/
theorem simulate_dryRun_and_run_filter (service : Service Ledger) :
    (∀ user day tenant debug,
      service.simulate Ledger.store user day tenant ⟨debug, .dryRun⟩ =
        ((service.evaluate Ledger.store user day tenant).1.map fun report =>
          { count := report.events.length
            events := report.events
            mode := .dryRun
            rules := if debug then some report.rules else none }, service)) ∧
    ∀ acts : List Act,
      ((run Ledger.store acts service).1.filter fun entry => !entry.1.isDryRun) =
        (run Ledger.store (acts.filter fun act => !act.isDryRun) service).1 ∧
      (run Ledger.store acts service).2 =
        (run Ledger.store (acts.filter fun act => !act.isDryRun) service).2 := by
  refine ⟨service.simulate_dryRun, ?_⟩
  intro acts
  rw [run_filter_isDryRun]
  exact ⟨rfl, rfl⟩

end Service

end MetricAlerts
