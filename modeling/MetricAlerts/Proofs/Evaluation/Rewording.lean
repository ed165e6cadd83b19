import MetricAlerts.Evaluation.Report

/-!
# Shortfalls in other words

Why a statistic has no value is told in words, and nothing else hangs on these
words.  They can be changed in the values before an evaluation or in its trace
afterwards, with the same effect.  So values that agree but for the words of
their shortfalls lead to traces that agree but for them.
-/

namespace MetricAlerts

variable {f : Shortfall → Shortfall}

def LeafTrace.reword (f : Shortfall → Shortfall) (found : LeafTrace) : LeafTrace :=
  { found with shortfall := found.shortfall.map f }

namespace Trace

mutual

/-- The trace with its shortfalls told in other words. -/
def reword (f : Shortfall → Shortfall) : Trace → Trace
  | leaf found => .leaf (found.reword f)
  | group quantifier result parts => .group quantifier result (rewordAll f parts)

def rewordAll (f : Shortfall → Shortfall) : List Trace → List Trace
  | [] => []
  | part :: parts => part.reword f :: rewordAll f parts

end

@[simp]
theorem result_reword (f : Shortfall → Shortfall) (trace : Trace) :
    (trace.reword f).result = trace.result := by
  cases trace <;> rfl

theorem map_result_rewordAll (f : Shortfall → Shortfall) (parts : List Trace) :
    (rewordAll f parts).map result = parts.map result := by
  induction parts with
  | nil => rfl
  | cons part parts ih => rw [rewordAll, List.map_cons, List.map_cons, result_reword, ih]

mutual

@[simp]
theorem reword_id (trace : Trace) : trace.reword id = trace := by
  cases trace with
  | leaf found => rw [reword, LeafTrace.reword, Option.map_id, id]
  | group quantifier result parts => rw [reword, rewordAll_id parts]

theorem rewordAll_id (parts : List Trace) : rewordAll id parts = parts := by
  cases parts with
  | nil => rfl
  | cons part parts => rw [rewordAll, reword_id part, rewordAll_id parts]

end

end Trace

theorem Condition.trace_mapError (c : Condition) (value : Except Shortfall Float) :
    c.trace (value.mapError f) = (c.trace value).map (LeafTrace.reword f) := by
  rw [trace, trace]
  cases c.fault? with
  | some fault => rfl
  | none => cases value <;> rfl

namespace Formula

variable {value other : Reference → Except Shortfall Float}

mutual

theorem trace_mapError (value : Reference → Except Shortfall Float) (formula : Formula) :
    formula.trace (fun reference => (value reference).mapError f) =
      (formula.trace value).map (Trace.reword f) := by
  cases formula with
  | leaf condition =>
      rw [trace, trace, Condition.trace_mapError]
      cases condition.trace (value condition.reference) <;> rfl
  | group quantifier parts =>
      rw [trace, trace, traceAll_mapError value parts]
      cases traceAll value parts with
      | error fault => rfl
      | ok parts =>
          change Except.ok (Trace.group _ (quantifier.combine _) _) = _
          rw [Trace.map_result_rewordAll]
          rfl

theorem traceAll_mapError (value : Reference → Except Shortfall Float) (parts : List Formula) :
    traceAll (fun reference => (value reference).mapError f) parts =
      (traceAll value parts).map (Trace.rewordAll f) := by
  cases parts with
  | nil => rfl
  | cons part parts =>
      rw [traceAll, traceAll, trace_mapError value part, traceAll_mapError value parts]
      cases part.trace value with
      | error fault => rfl
      | ok part => cases traceAll value parts <;> rfl

end

mutual

/-- Only the statistics of its conditions count for a formula. -/
theorem trace_congr (formula : Formula)
    (hsame : ∀ condition ∈ formula.conditions,
      value condition.reference = other condition.reference) :
    formula.trace value = formula.trace other := by
  cases formula with
  | leaf condition => rw [trace, trace, hsame condition (by simp [conditions])]
  | group quantifier parts =>
      rw [conditions] at hsame
      rw [trace, trace, traceAll_congr parts hsame]

theorem traceAll_congr (parts : List Formula)
    (hsame : ∀ condition ∈ conditionsAll parts,
      value condition.reference = other condition.reference) :
    traceAll value parts = traceAll other parts := by
  cases parts with
  | nil => rfl
  | cons part parts =>
      rw [conditionsAll] at hsame
      have hpart := part.trace_congr
        fun condition hcondition => hsame condition (List.mem_append_left _ hcondition)
      have hparts := traceAll_congr parts
        fun condition hcondition => hsame condition (List.mem_append_right _ hcondition)
      rw [traceAll, traceAll, hpart, hparts]

end

/-- Values that agree but for the words of their shortfalls lead to traces that
agree but for them. -/
theorem trace_alike (formula : Formula)
    (halike : ∀ reference ∈ formula.references.items,
      (value reference).mapError f = (other reference).mapError f) :
    (formula.trace value).map (Trace.reword f) = (formula.trace other).map (Trace.reword f) := by
  calc (formula.trace value).map (Trace.reword f)
    _ = formula.trace fun reference => (value reference).mapError f :=
      (trace_mapError value formula).symm
    _ = formula.trace fun reference => (other reference).mapError f := by
      apply formula.trace_congr
      intro condition hcondition
      apply halike
      rw [references, Ascending.mem_ofList]
      exact List.mem_map_of_mem hcondition
    _ = (formula.trace other).map (Trace.reword f) := trace_mapError other formula

end Formula

def AlertEvent.reword (f : Shortfall → Shortfall) (event : AlertEvent) : AlertEvent :=
  { event with why := event.why.reword f }

def RuleEntry.reword (f : Shortfall → Shortfall) (entry : RuleEntry) : RuleEntry :=
  { entry with trace := entry.trace.map (Trace.reword f) }

def Report.reword (f : Shortfall → Shortfall) (report : Report) : Report :=
  { report with
    events := report.events.map (AlertEvent.reword f)
    rules := report.rules.map (RuleEntry.reword f) }

@[simp]
theorem AlertEvent.reword_id (event : AlertEvent) : event.reword id = event := by
  rw [reword, Trace.reword_id]

@[simp]
theorem RuleEntry.reword_id (entry : RuleEntry) : entry.reword id = entry := by
  have htrace : Trace.reword id = id := funext Trace.reword_id
  rw [reword, htrace, Option.map_id, id]

end MetricAlerts
