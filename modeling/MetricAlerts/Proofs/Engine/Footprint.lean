import MetricAlerts.Proofs.Admission.Growth
import MetricAlerts.Proofs.Engine.PlainPass
import MetricAlerts.Proofs.Engine.Row
import MetricAlerts.Proofs.Evaluation.Rewording

/-!
# What a rule looks at

A rule looks at the statistics that it refers to, at the entries of the
glossary, and at the history under its own key.  Where these agree, it comes to
the same outcome and leaves the same history; where the statistics agree but
for the words of their shortfalls, the outcome does too.
-/

namespace MetricAlerts

variable {f : Shortfall → Shortfall} {snapshot other : Snapshot} {glossary second : Glossary}
  {user : String} {day : Day}

/-- On the given statistics, two snapshots agree but for the words of their
shortfalls. -/
def Snapshot.AlikeOn (f : Shortfall → Shortfall) (snapshot other : Snapshot)
    (references : List Reference) : Prop :=
  ∀ reference ∈ references,
    (snapshot.get reference).mapError f = (other.get reference).mapError f

theorem Snapshot.AlikeOn.mono {references fewer : List Reference}
    (halike : snapshot.AlikeOn f other references) (hfewer : fewer ⊆ references) :
    snapshot.AlikeOn f other fewer :=
  fun reference hreference => halike reference (hfewer hreference)

theorem toOption_mapError {ε δ α : Type} (g : ε → δ) (value : Except ε α) :
    (value.mapError g).toOption = value.toOption := by
  cases value <;> rfl

/-- Values are the same, and it is the same values that are there. -/
theorem Snapshot.AlikeOn.value?_eq {references : List Reference} {reference : Reference}
    (halike : snapshot.AlikeOn f other references) (hreference : reference ∈ references) :
    snapshot.value? reference = other.value? reference := by
  calc snapshot.value? reference
    _ = ((snapshot.get reference).mapError f).toOption := (toOption_mapError f _).symm
    _ = ((other.get reference).mapError f).toOption :=
      congrArg Except.toOption (halike reference hreference)
    _ = other.value? reference := toOption_mapError f _

theorem render_alike {template : String} (ruleId : String)
    (halike : snapshot.AlikeOn f other (templateReferences template).items)
    (hglossary : ∀ key, glossary.find? key = second.find? key) :
    render template ruleId snapshot glossary = render template ruleId other second :=
  render_congr (fun _ hreference => halike.value?_eq hreference) hglossary

theorem Rule.evaluationFault?_congr (rule : Rule)
    (hglossary : ∀ key, glossary.find? key = second.find? key) :
    rule.evaluationFault? glossary = rule.evaluationFault? second := by
  have hcondition : glossary.conditionFault? = second.conditionFault? := by
    funext condition
    rw [Glossary.conditionFault?, Glossary.conditionFault?, hglossary]
  rw [evaluationFault?, evaluationFault?, Glossary.fault?, Glossary.fault?, hcondition]

def Verdict.reword (f : Shortfall → Shortfall) : Verdict → Verdict
  | skipped fault => .skipped fault
  | notMatched trace => .notMatched (trace.reword f)
  | matched trace message => .matched (trace.reword f) message

def RuleOutcome.reword (f : Shortfall → Shortfall) (outcome : RuleOutcome) : RuleOutcome :=
  ⟨outcome.entry.reword f, outcome.event.map (AlertEvent.reword f)⟩

@[simp]
theorem RuleOutcome.reword_id (outcome : RuleOutcome) : outcome.reword id = outcome := by
  have hevent : AlertEvent.reword id = id := funext AlertEvent.reword_id
  rw [reword, RuleEntry.reword_id, hevent, Option.map_id, id]

namespace Rule

variable {rule : Rule}

theorem pick_of_verdict {trace : Trace} {message : PickedMessage}
    (hverdict : rule.verdict user day snapshot = .matched trace message) :
    rule.messages.pick user rule.id day = .ok message := by
  rw [verdict] at hverdict
  split at hverdict
  · cases hverdict
  · split at hverdict
    · split at hverdict
      · cases hverdict
      · next hpick =>
          cases hverdict
          exact hpick
    · cases hverdict

/-- What a trace, or the failure to make one, leads to. -/
def verdictOn (rule : Rule) (user : String) (day : Day) : Except RuleFault Trace → Verdict
  | .error fault => .skipped fault
  | .ok trace =>
      if trace.result then
        match rule.messages.pick user rule.id day with
        | .error fault => .skipped fault
        | .ok message => .matched trace message
      else .notMatched trace

theorem verdict_eq_verdictOn (rule : Rule) (user : String) (day : Day) (snapshot : Snapshot) :
    rule.verdict user day snapshot = rule.verdictOn user day (rule.logic.trace snapshot.get) := by
  rw [verdict]
  cases rule.logic.trace snapshot.get <;> rfl

theorem verdictOn_map_reword (rule : Rule) (user : String) (day : Day)
    (trace : Except RuleFault Trace) :
    rule.verdictOn user day (trace.map (Trace.reword f)) =
      (rule.verdictOn user day trace).reword f := by
  cases trace with
  | error fault => rfl
  | ok trace =>
      simp only [Except.map, verdictOn, Trace.result_reword]
      split
      · cases rule.messages.pick user rule.id day <;> rfl
      · rfl

theorem verdict_alike (user : String) (day : Day)
    (halike : snapshot.AlikeOn f other rule.references) :
    (rule.verdict user day snapshot).reword f = (rule.verdict user day other).reword f := by
  have htrace : (rule.logic.trace snapshot.get).map (Trace.reword f) =
      (rule.logic.trace other.get).map (Trace.reword f) := by
    apply rule.logic.trace_alike
    exact halike.mono (List.subset_append_left ..)
  rw [verdict_eq_verdictOn, verdict_eq_verdictOn, ← verdictOn_map_reword, htrace,
    verdictOn_map_reword]

theorem asks_alike (user : String) (day : Day)
    (halike : snapshot.AlikeOn f other rule.references) :
    rule.asks user day snapshot = rule.asks user day other := by
  have hverdict := rule.verdict_alike user day halike
  rw [asks, asks]
  cases hfirst : rule.verdict user day snapshot <;>
    cases hsecond : rule.verdict user day other <;>
    rw [hfirst, hsecond] at hverdict <;>
    first
    | rfl
    | cases hverdict

theorem event_alike {trace present : Trace} {message : PickedMessage}
    (halike : snapshot.AlikeOn f other rule.references)
    (hglossary : ∀ key, glossary.find? key = second.find? key)
    (hpick : rule.messages.pick user rule.id day = .ok message)
    (htrace : trace.reword f = present.reword f) :
    (rule.event user day snapshot glossary trace message).reword f =
      (rule.event user day other second present message).reword f := by
  have hrender := render_alike rule.id
    (halike.mono (templateReferences_subset_references hpick)) hglossary
  simp only [event, AlertEvent.reword, hrender, htrace]

/-- A rule comes to the same outcome wherever what it looks at is the same. -/
theorem settle_alike (user : String) (day : Day) {stored kept : Versioned}
    (halike : snapshot.AlikeOn f other rule.references)
    (hglossary : ∀ key, glossary.find? key = second.find? key)
    (hhistory : stored.history = kept.history) :
    (rule.settle glossary user day snapshot stored).1.reword f =
      (rule.settle second user day other kept).1.reword f := by
  have hverdict := rule.verdict_alike user day halike
  rw [settle, settle]
  cases hfirst : rule.verdict user day snapshot with
  | skipped fault =>
      rw [hfirst] at hverdict
      cases hsecond : rule.verdict user day other <;> rw [hsecond] at hverdict <;> cases hverdict
      rfl
  | notMatched trace =>
      rw [hfirst] at hverdict
      cases hsecond : rule.verdict user day other <;> rw [hsecond] at hverdict
      · cases hverdict
      · have htrace := Verdict.notMatched.inj hverdict
        simp only [RuleOutcome.reword, RuleEntry.reword, Option.map_some, htrace]
      · cases hverdict
  | matched trace message =>
      rw [hfirst] at hverdict
      cases hsecond : rule.verdict user day other <;> rw [hsecond] at hverdict
      · cases hverdict
      · cases hverdict
      · obtain ⟨htrace, rfl⟩ := Verdict.matched.inj hverdict
        have hevent := event_alike halike hglossary (pick_of_verdict hfirst) htrace
        simp only [Limits.decision, hhistory]
        cases rule.limits.check kept.history day with
        | error reason =>
            simp only [RuleOutcome.reword, RuleEntry.reword, Option.map_some, htrace]
        | ok next =>
            simp only [RuleOutcome.reword, RuleEntry.reword, Option.map_some, htrace, hevent]

/-- The history that a rule is given by an alert of the day, if it alerts. -/
def renewal? (rule : Rule) (user : String) (day : Day) (snapshot : Snapshot)
    (history : History) : Option History :=
  if rule.asks user day snapshot then (rule.limits.check history day).toOption else none

theorem renewal?_alike (user : String) (day : Day) (history : History)
    (halike : snapshot.AlikeOn f other rule.references) :
    rule.renewal? user day snapshot history = rule.renewal? user day other history := by
  rw [renewal?, renewal?, rule.asks_alike user day halike]

theorem settle_stored (rule : Rule) (glossary : Glossary) (user : String) (day : Day)
    (snapshot : Snapshot) (stored : Versioned) :
    (rule.settle glossary user day snapshot stored).2 =
      stored.renew (rule.renewal? user day snapshot stored.history) := by
  rw [settle, renewal?, asks]
  cases rule.verdict user day snapshot with
  | skipped fault => rfl
  | notMatched trace => rfl
  | matched trace message =>
      simp only [Limits.decision]
      cases rule.limits.check stored.history day <;> rfl

end Rule

end MetricAlerts
