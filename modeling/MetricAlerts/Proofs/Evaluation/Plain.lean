import MetricAlerts.Proofs.Metric.Details
import MetricAlerts.Proofs.Metric.Snapshot
import MetricAlerts.Proofs.Rule.Validity

/-!
# Plain evaluation

The plain way to evaluate a formula is to ask for the statistic of every leaf
by itself, whenever one is needed.  On a formula without faults this cannot go
wrong, so it gives a trace and nothing else.  Values that were found together
beforehand give the same trace if they agree with what would be answered.
-/

namespace MetricAlerts

/-- The condition next to the answer about its statistic. -/
def Condition.plainTrace (c : Condition) (answer : Except ResolveError Float) : LeafTrace :=
  { metric := c.metric
    statistic := c.statistic
    comparison := c.comparison
    operand := c.operand
    observed := answer.toOption
    result := match answer with
      | .ok observed => c.holds observed
      | .error _ => false
    shortfall := match answer with
      | .ok _ => none
      | .error error => error.shortfall? }

namespace Formula

mutual

/-- Evaluates every node, with a question of its own for every leaf. -/
def plainTrace (resolve : Reference → Except ResolveError Float) : Formula → Trace
  | leaf condition => .leaf (condition.plainTrace (resolve condition.reference))
  | group quantifier parts =>
      let parts := plainTraceAll resolve parts
      .group quantifier (quantifier.combine (parts.map Trace.result)) parts

def plainTraceAll (resolve : Reference → Except ResolveError Float) : List Formula → List Trace
  | [] => []
  | part :: parts => part.plainTrace resolve :: plainTraceAll resolve parts

end

end Formula

/-- Values that were found beforehand agree with an answer about each of some
references. -/
def Agree (value : Reference → Except Shortfall Float)
    (resolve : Reference → Except ResolveError Float) (references : List Reference) : Prop :=
  ∀ reference ∈ references, resolve reference = (value reference).mapError (.shortfall reference)

variable {value : Reference → Except Shortfall Float}
  {resolve : Reference → Except ResolveError Float}

theorem Agree.mono {references fewer : List Reference} (hagree : Agree value resolve references)
    (hfewer : fewer ⊆ references) : Agree value resolve fewer :=
  fun reference hreference => hagree reference (hfewer hreference)

theorem Condition.trace_eq_plainTrace {c : Condition} (hvalid : c.fault? = none)
    (hagree : Agree value resolve [c.reference]) :
    c.trace (value c.reference) = .ok (c.plainTrace (resolve c.reference)) := by
  rw [trace, hvalid, hagree c.reference (List.mem_singleton_self _)]
  cases value c.reference <;> rfl

namespace Formula

mutual

theorem trace_eq_plainTrace (formula : Formula)
    (hvalid : ∀ condition ∈ formula.conditions, condition.fault? = none)
    (hagree : Agree value resolve (formula.conditions.map Condition.reference)) :
    formula.trace value = .ok (formula.plainTrace resolve) := by
  cases formula with
  | leaf condition =>
      rw [trace, Condition.trace_eq_plainTrace (hvalid condition (by simp [conditions]))
        (by simpa [conditions] using hagree)]
      rfl
  | group quantifier parts =>
      rw [conditions] at hvalid hagree
      rw [trace, traceAll_eq_plainTraceAll parts hvalid hagree]
      rfl

theorem traceAll_eq_plainTraceAll (parts : List Formula)
    (hvalid : ∀ condition ∈ conditionsAll parts, condition.fault? = none)
    (hagree : Agree value resolve ((conditionsAll parts).map Condition.reference)) :
    traceAll value parts = .ok (plainTraceAll resolve parts) := by
  cases parts with
  | nil => rfl
  | cons part parts =>
      rw [conditionsAll] at hvalid hagree
      rw [List.map_append] at hagree
      have hpart := part.trace_eq_plainTrace
        (fun condition hcondition => hvalid condition (List.mem_append_left _ hcondition))
        (hagree.mono (List.subset_append_left ..))
      have hparts := traceAll_eq_plainTraceAll parts
        (fun condition hcondition => hvalid condition (List.mem_append_right _ hcondition))
        (hagree.mono (List.subset_append_right ..))
      rw [traceAll, hpart, hparts]
      rfl

end

mutual

/-- The leaves of a plain trace are the conditions of the formula, each with
its own answer. -/
theorem leaves_plainTrace (formula : Formula) :
    (formula.plainTrace resolve).leaves = formula.conditions.map fun condition =>
      condition.plainTrace (resolve condition.reference) := by
  cases formula with
  | leaf condition => rfl
  | group quantifier parts =>
      rw [plainTrace, Trace.leaves, conditions]
      exact leavesAll_plainTraceAll parts

theorem leavesAll_plainTraceAll (parts : List Formula) :
    Trace.leavesAll (plainTraceAll resolve parts) =
      (conditionsAll parts).map fun condition =>
        condition.plainTrace (resolve condition.reference) := by
  cases parts with
  | nil => rfl
  | cons part parts =>
      rw [plainTraceAll, Trace.leavesAll, conditionsAll, List.map_append, leaves_plainTrace part,
        leavesAll_plainTraceAll parts]

end

end Formula

/-- Every shortfall in a plain trace over a log is one of a statistic that was
asked for. -/
theorem not_saysUnresolved_of_mem_leaves (log : MetricLog) (user : String) (asOf : Day)
    (lookback : Nat) {formula : Formula} {found : LeafTrace}
    (hfound : found ∈ (formula.plainTrace (log.source.resolve user asOf lookback)).leaves)
    {shortfall : Shortfall} (hshortfall : found.shortfall = some shortfall) :
    ¬shortfall.SaysUnresolved := by
  rw [Formula.leaves_plainTrace] at hfound
  obtain ⟨condition, -, rfl⟩ := List.mem_map.1 hfound
  simp only [Condition.plainTrace, MetricLog.resolve_source] at hshortfall
  cases hvalue : log.value user asOf lookback condition.reference with
  | ok observed =>
      rw [hvalue] at hshortfall
      cases hshortfall
  | error missing =>
      rw [hvalue] at hshortfall
      cases hshortfall
      rw [MetricLog.value] at hvalue
      split at hvalue
      · exact Statistic.not_saysUnresolved_of_compute hvalue
      · cases hvalue
        exact Shortfall.not_saysUnresolved_noHistory _

end MetricAlerts
