import MetricAlerts.Evaluation.Trace

/-!
# Rules without faults

A rule without a fault can be evaluated whatever the values are: its formula
has a trace at any values of its statistics.  And a fault is never a matter of
the name of a rule, so a rule without one may be copied under another name.
-/

namespace MetricAlerts

theorem MessageSet.fault?_eq_none_iff {messages : MessageSet} {ruleId : String} :
    messages.fault? ruleId = none ↔
      messages.candidates ≠ [] ∧
        ∀ candidate ∈ messages.candidates, isUsableWeight candidate.weight = true := by
  unfold fault?
  split
  · next hempty => simpa using fun hne => absurd (List.isEmpty_iff.1 hempty) hne
  · next hsome =>
      rw [List.isEmpty_iff] at hsome
      simp [hsome]

theorem Formula.fault?_eq_none_iff {formula : Formula} :
    formula.fault? = none ↔ ∀ condition ∈ formula.conditions, condition.fault? = none :=
  List.findSome?_eq_none_iff

theorem Rule.fault?_eq_none_iff {rule : Rule} :
    rule.fault? = none ↔
      rule.maxPerDay ≠ 0 ∧ rule.logic.depth ≤ maxDepth ∧
        rule.messages.fault? rule.id = none ∧ rule.logic.fault? = none := by
  unfold fault?
  split
  · next hcap => simp [hcap]
  · next hcap =>
      split
      · next hdeep => simp [hcap, Nat.not_le.2 hdeep]
      · next hdeep => simp [hcap, Nat.not_lt.1 hdeep]

/-- Only limits, formula and messages decide whether a rule has a fault. -/
theorem Rule.fault?_eq_none_of_same {rule other : Rule} (hvalid : rule.fault? = none)
    (hcap : other.maxPerDay = rule.maxPerDay) (hlogic : other.logic = rule.logic)
    (hmessages : other.messages = rule.messages) : other.fault? = none := by
  rw [fault?_eq_none_iff, MessageSet.fault?_eq_none_iff] at hvalid ⊢
  rw [hcap, hlogic, hmessages]
  exact hvalid

end MetricAlerts
