import Mathlib.Data.List.Forall2
import MetricAlerts.Proofs.Answers
import MetricAlerts.Proofs.Rule.Comparison
import MetricAlerts.Proofs.Rule.Validity

/-!
# What an evaluation says

An evaluation goes through a formula and comes to a trace.  Here is said what
the trace has to tell, without a word about how it is found: it has the shape of
the formula, every leaf tells what became of its condition, and every group
whether its parts are as it asks.  An evaluation comes to such a trace whenever
the conditions are well formed, and its result is what the formula means.
Otherwise it fails at the malformed condition that is the first from the left,
whatever the values are.
-/

namespace MetricAlerts

/-- What a group asks of the results of its parts. -/
def Quantifier.Asks : Quantifier → List Bool → Prop
  | all, results => ∀ result ∈ results, result = true
  | any, results => ∃ result ∈ results, result = true
  | noneOf, results => ∀ result ∈ results, result = false

theorem Quantifier.combine_eq_true_iff {quantifier : Quantifier} {results : List Bool} :
    quantifier.combine results = true ↔ quantifier.Asks results := by
  cases quantifier <;> simp [combine, Asks]

/-- What a leaf has to tell about a condition, given the value of its statistic.
Without a value it tells why there is none, and the condition does not hold. -/
structure LeafTrace.Tells (found : LeafTrace) (condition : Condition)
    (value : Except Shortfall Float) : Prop where
  metric : found.metric = condition.metric
  statistic : found.statistic = condition.statistic
  comparison : found.comparison = condition.comparison
  operand : found.operand = condition.operand
  observed : ∀ number, found.observed = some number ↔ value = .ok number
  shortfall : ∀ missing, found.shortfall = some missing ↔ value = .error missing
  result : found.result = true ↔
    ∃ number, value = .ok number ∧ condition.comparison.Asks number condition.operand

theorem Condition.tells_against (condition : Condition) (value : Except Shortfall Float) :
    (condition.against value).Tells condition value where
  metric := rfl
  statistic := rfl
  comparison := rfl
  operand := rfl
  observed number := by cases value <;> simp [against, Except.toOption]
  shortfall missing := by cases value <;> simp [against]
  result := by cases value <;> simp [against, holds, Comparison.holds_eq_true_iff]

theorem Condition.fault?_eq_none {condition : Condition} :
    condition.fault? = none ↔ condition.flaw? = none :=
  Option.map_eq_none_iff

theorem Condition.fault?_eq_some_iff {condition : Condition} {fault : RuleFault} :
    condition.fault? = some fault ↔ ∃ flaw, condition.flaw? = some flaw ∧
      fault = .malformedOperand condition.metric condition.comparison flaw := by
  rw [fault?, Option.map_eq_some_iff]
  simp only [eq_comm]

namespace Formula

variable (value : Reference → Except Shortfall Float)

mutual

theorem trace_eq_error_iff (formula : Formula) {fault : RuleFault} :
    formula.trace value = .error fault ↔
      formula.conditions.findSome? Condition.fault? = some fault := by
  cases formula with
  | leaf condition =>
      rw [trace, conditions, Condition.trace, List.findSome?_singleton]
      cases condition.fault? <;> simp [Except.map]
  | group quantifier parts =>
      rw [trace, conditions, ← traceAll_eq_error_iff parts]
      cases traceAll value parts <;> simp [bind, Except.bind, pure, Except.pure]

theorem traceAll_eq_error_iff (parts : List Formula) {fault : RuleFault} :
    traceAll value parts = .error fault ↔
      (conditionsAll parts).findSome? Condition.fault? = some fault := by
  cases parts with
  | nil => simp [traceAll, conditionsAll]
  | cons part parts =>
      rw [traceAll, conditionsAll, List.findSome?_append]
      cases hpart : part.trace value with
      | error first =>
          have hfirst := (trace_eq_error_iff part).1 hpart
          simp [hfirst, bind, Except.bind]
      | ok found =>
          have hnone : part.conditions.findSome? Condition.fault? = none := by
            apply Option.eq_none_iff_forall_ne_some.2
            intro fault hfault
            rw [(trace_eq_error_iff part).2 hfault] at hpart
            cases hpart
          rw [hnone, Option.none_or, ← traceAll_eq_error_iff parts]
          cases traceAll value parts <;> simp [bind, Except.bind, pure, Except.pure]

end

variable {value}

/-- The traces of a formula that tell what they should. -/
inductive Records (value : Reference → Except Shortfall Float) : Formula → Trace → Prop where
  | leaf {condition : Condition} {found : LeafTrace}
      (htells : found.Tells condition (value condition.reference)) :
      Records value (.leaf condition) (.leaf found)
  | group {quantifier : Quantifier} {result : Bool} {parts : List Formula} {traces : List Trace}
      (hparts : List.Forall₂ (Records value) parts traces)
      (hresult : result = true ↔ quantifier.Asks (traces.map Trace.result)) :
      Records value (.group quantifier parts) (.group quantifier result traces)

mutual

theorem records_of_trace (formula : Formula) {trace : Trace}
    (htrace : formula.trace value = .ok trace) : Records value formula trace := by
  cases formula with
  | leaf condition =>
      rw [Formula.trace] at htrace
      obtain ⟨found, hfound, rfl⟩ := exists_of_map_eq_ok htrace
      rw [Condition.trace] at hfound
      split at hfound
      · cases hfound
      · cases hfound
        exact .leaf (condition.tells_against _)
  | group quantifier parts =>
      rw [Formula.trace] at htrace
      obtain ⟨traces, htraces, hgroup⟩ := of_bind_eq_ok htrace
      cases hgroup
      exact .group (records_of_traceAll parts htraces) Quantifier.combine_eq_true_iff

theorem records_of_traceAll (parts : List Formula) {traces : List Trace}
    (htraces : traceAll value parts = .ok traces) :
    List.Forall₂ (Records value) parts traces := by
  cases parts with
  | nil =>
      cases htraces
      exact .nil
  | cons part parts =>
      rw [traceAll] at htraces
      obtain ⟨trace, htrace, hrest⟩ := of_bind_eq_ok htraces
      obtain ⟨others, hothers, hcons⟩ := of_bind_eq_ok hrest
      cases hcons
      exact .cons (records_of_trace part htrace) (records_of_traceAll parts hothers)

end

mutual

/-- The leaves of such a trace are about the conditions, one by one and in the
same order. -/
theorem Records.leaves (formula : Formula) {trace : Trace}
    (hrecords : Records value formula trace) :
    List.Forall₂ (fun condition (found : LeafTrace) =>
      found.Tells condition (value condition.reference))
      formula.conditions trace.leaves := by
  cases hrecords with
  | leaf htells =>
      rw [conditions, Trace.leaves]
      exact .cons htells .nil
  | @group quantifier result parts traces hparts hresult =>
      rw [conditions, Trace.leaves]
      exact Records.leavesAll parts hparts

theorem Records.leavesAll (parts : List Formula) {traces : List Trace}
    (hparts : List.Forall₂ (Records value) parts traces) :
    List.Forall₂ (fun condition (found : LeafTrace) =>
      found.Tells condition (value condition.reference))
      (conditionsAll parts) (Trace.leavesAll traces) := by
  cases hparts with
  | nil =>
      rw [conditionsAll, Trace.leavesAll]
      exact .nil
  | @cons part found parts traces hpart hparts =>
      rw [conditionsAll, Trace.leavesAll]
      exact List.rel_append (Records.leaves part hpart) (Records.leavesAll parts hparts)

end

/-- Whether a condition holds at the given values.  It does not if its own one
is missing. -/
def holdsAt (value : Reference → Except Shortfall Float) (condition : Condition) : Bool :=
  (value condition.reference).toOption.any condition.holds

theorem holdsAt_eq_true_iff {condition : Condition} :
    holdsAt value condition = true ↔ ∃ number, value condition.reference = .ok number ∧
      condition.comparison.Asks number condition.operand := by
  rw [holdsAt]
  cases value condition.reference <;>
    simp [Except.toOption, Condition.holds, Comparison.holds_eq_true_iff]

theorem result_eq_holdsAt {found : LeafTrace} {condition : Condition}
    (htells : found.Tells condition (value condition.reference)) :
    found.result = holdsAt value condition := by
  rw [Bool.eq_iff_iff, htells.result, holdsAt_eq_true_iff]

mutual

theorem Records.result (formula : Formula) {trace : Trace}
    (hrecords : Records value formula trace) : trace.result = formula.denote (holdsAt value) := by
  cases hrecords with
  | leaf htells =>
      rw [denote, Trace.result, result_eq_holdsAt htells]
  | @group quantifier result parts traces hparts hresult =>
      rw [denote, Trace.result, Bool.eq_iff_iff, hresult, ← Quantifier.combine_eq_true_iff,
        Records.resultAll parts hparts]

theorem Records.resultAll (parts : List Formula) {traces : List Trace}
    (hparts : List.Forall₂ (Records value) parts traces) :
    traces.map Trace.result = denoteAll (holdsAt value) parts := by
  cases hparts with
  | nil => rfl
  | @cons part found parts traces hpart hparts =>
      rw [List.map_cons, denoteAll, Records.result part hpart, Records.resultAll parts hparts]

end

/-- At any values, the evaluation of a formula comes to a trace if and only if no
condition is malformed, and otherwise fails at the first that is.  The trace
records what became of every node, its leaves are about the conditions in their
order, and its result is what the formula means at these values. -/
theorem evaluation_is_adequate (formula : Formula) (snapshot : Snapshot) :
    ((∃ trace, formula.trace snapshot.get = .ok trace) ↔
        ∀ condition ∈ formula.conditions, condition.flaw? = none) ∧
      (∀ fault, formula.trace snapshot.get = .error fault ↔
        ∃ before condition after flaw, formula.conditions = before ++ condition :: after ∧
          (∀ earlier ∈ before, earlier.flaw? = none) ∧ condition.flaw? = some flaw ∧
          fault = .malformedOperand condition.metric condition.comparison flaw) ∧
      ∀ trace, formula.trace snapshot.get = .ok trace →
        Records snapshot.get formula trace ∧
        List.Forall₂ (fun condition (found : LeafTrace) =>
          found.Tells condition (snapshot.get condition.reference))
          formula.conditions trace.leaves ∧
        trace.result = formula.denote (holdsAt snapshot.get) := by
  refine ⟨?_, fun fault => ?_, fun trace htrace => ?_⟩
  · have hvalid : (∀ condition ∈ formula.conditions, condition.flaw? = none) ↔
        formula.conditions.findSome? Condition.fault? = none := by
      rw [List.findSome?_eq_none_iff]
      simp only [Condition.fault?_eq_none]
    rw [hvalid, Option.eq_none_iff_forall_ne_some]
    simp only [ne_eq, ← trace_eq_error_iff snapshot.get formula]
    cases formula.trace snapshot.get <;> simp
  · rw [trace_eq_error_iff, List.findSome?_eq_some_iff]
    constructor
    · rintro ⟨before, condition, after, hconditions, hfault, hbefore⟩
      obtain ⟨flaw, hflaw, rfl⟩ := Condition.fault?_eq_some_iff.1 hfault
      exact ⟨before, condition, after, flaw, hconditions,
        fun earlier hearlier => Condition.fault?_eq_none.1 (hbefore earlier hearlier), hflaw, rfl⟩
    · rintro ⟨before, condition, after, flaw, hconditions, hbefore, hflaw, rfl⟩
      exact ⟨before, condition, after, hconditions,
        Condition.fault?_eq_some_iff.2 ⟨flaw, hflaw, rfl⟩,
        fun earlier hearlier => Condition.fault?_eq_none.2 (hbefore earlier hearlier)⟩
  · have hrecords := records_of_trace formula htrace
    exact ⟨hrecords, hrecords.leaves formula, hrecords.result formula⟩

end Formula

end MetricAlerts
