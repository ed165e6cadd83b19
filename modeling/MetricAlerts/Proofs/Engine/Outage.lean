import MetricAlerts.Proofs.Engine.Outcomes
import MetricAlerts.Proofs.Message.Plain

/-!
# Passes while metrics are down

A pass reads all the metrics that its rules need before it judges the first of
them.  So a metric that is down does all its harm at once: if some fit rule
needs it, nothing is judged, sent or stored, and otherwise the pass goes as if
the metric were there.
-/

namespace MetricAlerts

/-- Whether a rule needs a metric, be it for its formula or for one of its
messages, also one that is not going to be picked. -/
def Rule.Needs (rule : Rule) (metric : String) : Prop :=
  (∃ condition ∈ rule.logic.conditions, condition.metric = metric) ∨
  ∃ candidate ∈ rule.messages.candidates, ∃ placeholder,
    .slot placeholder ∈ Piece.ofChars candidate.text.toList ∧
      ∃ statistic, placeholder.reference? = some ⟨metric, statistic⟩

/-- What a rule needs is what it has announced. -/
theorem Rule.needs_iff {rule : Rule} {metric : String} :
    rule.Needs metric ↔ ∃ reference ∈ rule.references, reference.metric = metric := by
  simp only [references, List.mem_append, List.mem_flatMap, mem_templateReferences,
    Formula.references, Ascending.mem_ofList, List.mem_map]
  constructor
  · rintro (⟨condition, hcondition, hmetric⟩ | ⟨candidate, hcandidate, placeholder, hpiece,
      statistic, hreference⟩)
    · exact ⟨condition.reference, .inl ⟨condition, hcondition, rfl⟩, hmetric⟩
    · exact ⟨_, .inr ⟨candidate, hcandidate, placeholder, hpiece, hreference⟩, rfl⟩
  · rintro ⟨reference, ⟨condition, hcondition, rfl⟩ | ⟨candidate, hcandidate, placeholder, hpiece,
      hreference⟩, rfl⟩
    · exact .inl ⟨condition, hcondition, rfl⟩
    · exact .inr ⟨candidate, hcandidate, placeholder, hpiece, reference.statistic, hreference⟩

namespace Snapshot

variable {source : MetricSource} {down : String → Bool} {detail : String} {user : String}
  {asOf : Day} {lookback : Nat} {references : Ascending Reference} {metric : String}

theorem addMetric_of_down (hdown : down metric = true) (snapshot : Snapshot) :
    addMetric (source.withOutage down detail) user asOf lookback references snapshot metric =
      .error detail := by
  simp only [addMetric, MetricSource.withOutage, hdown, if_true]

theorem addMetric_of_up (hup : down metric = false) (snapshot : Snapshot) :
    addMetric (source.withOutage down detail) user asOf lookback references snapshot metric =
      addMetric source user asOf lookback references snapshot metric := by
  simp only [addMetric, MetricSource.withOutage, hup, Bool.false_eq_true, if_false]

/-- Whatever comes before and behind it, a metric that is down leaves no
snapshot. -/
theorem exists_error_of_down {metrics : List String} (hmetric : metric ∈ metrics)
    (hdown : down metric = true) (snapshot : Snapshot) :
    ∃ cause, metrics.foldlM (addMetric (source.withOutage down detail) user asOf lookback
      references) snapshot = .error cause := by
  induction metrics generalizing snapshot with
  | nil => cases hmetric
  | cons first metrics ih =>
      rw [List.foldlM_cons]
      cases hfirst : addMetric (source.withOutage down detail) user asOf lookback references
          snapshot first with
      | error cause => exact ⟨cause, rfl⟩
      | ok next =>
          rcases List.mem_cons.1 hmetric with rfl | hrest
          · rw [addMetric_of_down hdown] at hfirst
            cases hfirst
          · exact ih hrest next

theorem foldlM_of_up {metrics : List String} (hup : ∀ metric ∈ metrics, down metric = false)
    (snapshot : Snapshot) :
    metrics.foldlM (addMetric (source.withOutage down detail) user asOf lookback references)
        snapshot =
      metrics.foldlM (addMetric source user asOf lookback references) snapshot := by
  induction metrics generalizing snapshot with
  | nil => rfl
  | cons first metrics ih =>
      rw [List.foldlM_cons, List.foldlM_cons, addMetric_of_up (hup first List.mem_cons_self)]
      congr 1
      funext next
      exact ih (fun metric hmetric => hup metric (List.mem_cons_of_mem first hmetric)) next

end Snapshot

namespace Engine

variable {σ : Type} {engine : Engine} {store : HistoryStore σ} {user : String} {day : Day}
  {tenant : String}

/-- The engine while some metrics cannot be read. -/
def withOutage (engine : Engine) (down : String → Bool) (detail : String) : Engine :=
  { engine with source := engine.source.withOutage down detail }

/-- Whether a rule that a pass for the tenant evaluates needs the metric. -/
def Needs (engine : Engine) (tenant metric : String) : Prop :=
  ∃ rule ∈ engine.book.enabledRules tenant,
    rule.evaluationFault? engine.glossary = none ∧ rule.Needs metric

/-- The metrics that a pass reads are those that its rules need. -/
theorem needs_iff {metric : String} :
    engine.Needs tenant metric ↔
      metric ∈ (Snapshot.metricsOf (references (engine.fitRules tenant))).items := by
  simp only [Needs, Rule.needs_iff, Snapshot.metricsOf, references, Ascending.mem_ofList,
    List.mem_map, List.mem_flatMap, fitRules, List.mem_filter, isFit, Option.isNone_iff_eq_none]
  constructor
  · rintro ⟨rule, hrule, hfit, reference, hreference, hmetric⟩
    exact ⟨reference, ⟨rule, ⟨hrule, hfit⟩, hreference⟩, hmetric⟩
  · rintro ⟨reference, ⟨rule, ⟨hrule, hfit⟩, hreference⟩, hmetric⟩
    exact ⟨rule, hrule, hfit, reference, hreference, hmetric⟩

variable {down : String → Bool} {detail : String}

theorem snapshot_of_down {metric : String} (hneeds : engine.Needs tenant metric)
    (hdown : down metric = true) :
    ∃ cause, (engine.withOutage down detail).snapshot user day tenant = .error cause :=
  Snapshot.exists_error_of_down (needs_iff.1 hneeds) hdown .empty

theorem snapshot_of_up (hup : ∀ metric, engine.Needs tenant metric → down metric = false) :
    (engine.withOutage down detail).snapshot user day tenant =
      engine.snapshot user day tenant :=
  Snapshot.foldlM_of_up (fun metric hmetric => hup metric (needs_iff.2 hmetric)) .empty

/-- Where the values come from matters for the snapshot alone. -/
theorem evaluateRules_withOutage (engine : Engine) (down : String → Bool) (detail : String)
    (user : String) (day : Day) (snapshot : Snapshot) (rules : List Rule) :
    (engine.withOutage down detail).evaluateRules user day snapshot rules =
      engine.evaluateRules user day snapshot rules := by
  induction rules with
  | nil => rfl
  | cons rule rules ih =>
      rw [evaluateRules, evaluateRules, ih]
      rfl

theorem pass_of_up (hup : ∀ metric, engine.Needs tenant metric → down metric = false) :
    (engine.withOutage down detail).pass user day tenant = engine.pass user day tenant := by
  have hsnapshot : (engine.withOutage down detail).snapshot user day tenant =
      engine.snapshot user day tenant := snapshot_of_up hup
  unfold Engine.snapshot fitRules at hsnapshot
  simp only [pass, hsnapshot, evaluateRules_withOutage]
  rfl

/-- A pass is given up before its first rule if a metric that one of its rules
needs is down, and otherwise comes to the same as with all metrics. -/
theorem evaluate_withOutage (engine : Engine) (down : String → Bool) (detail : String)
    (store : HistoryStore σ) (user : String) (day : Day) (tenant : String) (state : σ) :
    ((∃ metric, engine.Needs tenant metric ∧ down metric = true) →
      ∃ cause, (engine.withOutage down detail).evaluate store user day tenant state =
        ⟨.error (.unreachable (metricsUnreachable cause)), state, []⟩) ∧
    ((∀ metric, engine.Needs tenant metric → down metric = false) →
      (engine.withOutage down detail).evaluate store user day tenant state =
        engine.evaluate store user day tenant state) := by
  constructor
  · rintro ⟨metric, hneeds, hdown⟩
    have hnone : ∃ cause, (engine.withOutage down detail).snapshot user day tenant =
        .error cause := snapshot_of_down hneeds hdown
    obtain ⟨cause, hcause⟩ := hnone
    obtain ⟨found, -, hevaluate⟩ | ⟨snapshot, -, hsnapshot, -⟩ :=
      (engine.withOutage down detail).evaluate_cases store user day tenant state
    · exact ⟨found, hevaluate⟩
    · cases hcause.symm.trans hsnapshot
  · intro hup
    rw [evaluate, evaluate, pass_of_up hup]

end Engine

end MetricAlerts
