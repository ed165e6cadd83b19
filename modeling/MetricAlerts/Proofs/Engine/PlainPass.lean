import MetricAlerts.Proofs.Answers
import MetricAlerts.Alert.Log
import MetricAlerts.Proofs.Engine.Outcomes
import MetricAlerts.Proofs.Message.Plain

/-!
# Passes that could ask for every value

A pass takes all statistics of its rules and messages together, before it looks
at the first rule.  Over a log, this is only a matter of cost: traces and
messages are the ones that would be found by asking for each statistic when it
is needed.
-/

namespace MetricAlerts

variable {resolve : Reference → Except ResolveError Float} {user : String} {day : Day}
  {snapshot : Snapshot}

/-- What is picked shows statistics that the rule has announced. -/
theorem Rule.templateReferences_subset_references {rule : Rule} {message : PickedMessage}
    (hpick : rule.messages.pick user rule.id day = .ok message) :
    (templateReferences message.text).items ⊆ rule.references := by
  rw [MessageSet.pick, MessageSet.pickBy] at hpick
  split at hpick
  · cases hpick
  · cases hpick
    intro reference hreference
    rw [references, List.mem_append]
    right
    rw [MessageSet.pickAt] at hreference
    split at hreference
    · next candidate hcandidate =>
        exact List.mem_flatMap.2 ⟨candidate, List.mem_of_getElem? hcandidate, hreference⟩
    · simp [templateReferences, Piece.ofChars] at hreference

/-- A rule without faults always comes to a trace, and to a message if it
matches. -/
theorem Rule.verdict_cases {rule : Rule} (user : String) (day : Day) (hvalid : rule.fault? = none)
    (hagree : Agree snapshot.get resolve rule.references) :
    rule.verdict user day snapshot = .notMatched (rule.logic.plainTrace resolve) ∨
      ∃ message, rule.messages.pick user rule.id day = .ok message ∧
        rule.verdict user day snapshot = .matched (rule.logic.plainTrace resolve) message := by
  obtain ⟨-, -, hmessages, hlogic⟩ := Rule.fault?_eq_none_iff.1 hvalid
  have hleaves : Agree snapshot.get resolve (rule.logic.conditions.map Condition.reference) := by
    apply hagree.mono
    intro reference hreference
    rw [references, List.mem_append, Formula.references, Ascending.mem_ofList]
    exact .inl hreference
  have htrace := rule.logic.trace_eq_plainTrace (Formula.fault?_eq_none_iff.1 hlogic) hleaves
  rw [verdict, htrace]
  dsimp only
  split
  · right
    simp only [MessageSet.pick, MessageSet.pickBy, hmessages]
    exact ⟨_, rfl, rfl⟩
  · exact .inl rfl

/-- An alert as the rule would have sent it, had it asked for every value by
itself. -/
structure AlertEvent.IsPlain (event : AlertEvent) (rule : Rule) (message : PickedMessage)
    (user : String) (day : Day) (resolve : Reference → Except ResolveError Float)
    (glossary : Glossary) : Prop where
  fired : event.fired = ⟨rule.id, user, rule.tenant, day, message.id⟩
  picked : rule.messages.pick user rule.id day = .ok message
  why : event.why = rule.logic.plainTrace resolve
  rendered : ⟨event.text, event.warnings⟩ = plainRender message.text rule.id resolve glossary

theorem Rule.isPlain_event {rule : Rule} {message : PickedMessage} (glossary : Glossary)
    (hpick : rule.messages.pick user rule.id day = .ok message)
    (hagree : Agree snapshot.get resolve rule.references) :
    (rule.event user day snapshot glossary (rule.logic.plainTrace resolve) message).IsPlain rule
      message user day resolve glossary where
  fired := rfl
  picked := hpick
  why := rfl
  rendered := render_eq_plainRender (hagree.mono (templateReferences_subset_references hpick))

namespace Engine

variable {σ : Type} {engine : Engine} {store : HistoryStore σ} {rule : Rule} {rules : List Rule}
  {state : σ}

theorem fault?_eq_none_of_isFit (hfit : engine.isFit rule = true) : rule.fault? = none := by
  rw [isFit, Option.isNone_iff_eq_none, Rule.evaluationFault?, Option.or_eq_none_iff] at hfit
  exact hfit.1

/-- A fit rule is not skipped, and its entry and its alert are the plain ones. -/
theorem Evaluated.plain (hvalid : rule.fault? = none)
    (hagree : Agree snapshot.get resolve rule.references)
    {finished : Dialogue.Finished AlertEvent (Except PassError RuleOutcome) σ}
    (hrule : Evaluated engine store user day snapshot rule state finished) :
    (∀ outcome, finished.answer = .ok outcome → outcome.entry.isSkipped = false ∧
      outcome.entry.rule = rule.id ∧
      outcome.entry.trace = some (rule.logic.plainTrace resolve)) ∧
    ∀ event ∈ finished.sent, ∃ message, event.IsPlain rule message user day resolve
      engine.glossary := by
  have hcases := rule.verdict_cases user day hvalid hagree
  cases hrule with
  | skipped hverdict => simp [hverdict] at hcases
  | notMatched hverdict =>
      rw [hverdict] at hcases
      obtain ⟨⟨⟩⟩ | ⟨message, -, ⟨⟩⟩ := hcases
      constructor
      · rintro outcome ⟨⟩
        exact ⟨rfl, rfl, rfl⟩
      · rintro event ⟨⟩
  | failed hverdict hask =>
      constructor
      · rintro outcome ⟨⟩
      · rintro event ⟨⟩
  | suppressed hverdict hask =>
      rw [hverdict] at hcases
      obtain ⟨⟨⟩⟩ | ⟨message, -, ⟨⟩⟩ := hcases
      constructor
      · rintro outcome ⟨⟩
        exact ⟨rfl, rfl, rfl⟩
      · rintro event ⟨⟩
  | admitted hverdict hask =>
      rw [hverdict] at hcases
      obtain ⟨⟨⟩⟩ | ⟨message, hpick, ⟨⟩⟩ := hcases
      constructor
      · rintro outcome ⟨⟩
        exact ⟨rfl, rfl, rfl⟩
      · intro event hevent
        rw [List.mem_singleton.1 hevent]
        exact ⟨_, Rule.isPlain_event engine.glossary hpick hagree⟩

theorem EvaluatedAll.plain (hvalid : ∀ rule ∈ rules, rule.fault? = none)
    (hagree : ∀ rule ∈ rules, Agree snapshot.get resolve rule.references)
    {finished : Dialogue.Finished AlertEvent (Except PassError (List RuleOutcome)) σ}
    (hrules : EvaluatedAll engine store user day snapshot rules state finished) :
    (∀ outcomes, finished.answer = .ok outcomes →
      (∀ outcome ∈ outcomes, outcome.entry.isSkipped = false) ∧
      outcomes.map (fun outcome => (outcome.entry.rule, outcome.entry.trace)) =
        rules.map fun rule => (rule.id, some (rule.logic.plainTrace resolve))) ∧
    ∀ event ∈ finished.sent, ∃ rule ∈ rules, ∃ message,
      event.IsPlain rule message user day resolve engine.glossary := by
  induction hrules with
  | nil state =>
      constructor
      · rintro outcomes ⟨⟩
        exact ⟨by simp, rfl⟩
      · rintro event ⟨⟩
  | @failed rule rules state later error sent hrule =>
      obtain ⟨-, hsent⟩ := hrule.plain (hvalid rule List.mem_cons_self)
        (hagree rule List.mem_cons_self)
      constructor
      · rintro outcomes ⟨⟩
      · intro event hevent
        exact ⟨rule, List.mem_cons_self, hsent event hevent⟩
  | @cons rule rules state next later outcome answer first rest hrule hrules ih =>
      obtain ⟨houtcome, hfirst⟩ := hrule.plain (hvalid rule List.mem_cons_self)
        (hagree rule List.mem_cons_self)
      obtain ⟨houtcomes, hrest⟩ := ih
        (fun other hother => hvalid other (List.mem_cons_of_mem rule hother))
        (fun other hother => hagree other (List.mem_cons_of_mem rule hother))
      constructor
      · cases answer with
        | error error => rintro outcomes ⟨⟩
        | ok others =>
            rintro outcomes ⟨⟩
            obtain ⟨hevaluated, hnamed, htrace⟩ := houtcome outcome rfl
            obtain ⟨hothersEvaluated, hothers⟩ := houtcomes others rfl
            refine ⟨List.forall_mem_cons.2 ⟨hevaluated, hothersEvaluated⟩, ?_⟩
            rw [List.map_cons, List.map_cons, hothers, hnamed, htrace]
      · intro event hevent
        rcases List.mem_append.1 hevent with hevent | hevent
        · exact ⟨rule, List.mem_cons_self, hfirst event hevent⟩
        · obtain ⟨other, hother, hplain⟩ := hrest event hevent
          exact ⟨other, List.mem_cons_of_mem rule hother, hplain⟩

/-- The traces that can be seen of a pass that has come to its end: those of its
report and those of its alerts. -/
def tracesOf (finished : Dialogue.Finished AlertEvent (Except PassError Report) σ) :
    List Trace :=
  (match finished.answer with
    | .ok report => report.rules.filterMap RuleEntry.trace
    | .error _ => []) ++ finished.sent.map AlertEvent.why

/-- The entries of rules that were not skipped are those of the rules that were
evaluated. -/
theorem filter_isSkipped_reportOf {tenant : String} {outcomes : List RuleOutcome}
    {entries : List (String × Option Trace)}
    (hevaluated : ∀ outcome ∈ outcomes, outcome.entry.isSkipped = false)
    (hentries : outcomes.map (fun outcome => (outcome.entry.rule, outcome.entry.trace)) =
      entries) :
    ((reportOf user day tenant (rules.filterMap engine.leaveOut?) outcomes).rules.filter
        fun entry => !entry.isSkipped).map (fun entry => (entry.rule, entry.trace)) =
      entries := by
  have hkept : (outcomes.map RuleOutcome.entry).filter (fun entry => !entry.isSkipped) =
      outcomes.map RuleOutcome.entry := by
    apply List.filter_eq_self.2
    intro entry hentry
    obtain ⟨outcome, houtcome, rfl⟩ := List.mem_map.1 hentry
    simp [hevaluated outcome houtcome]
  rw [filter_rules_reportOf fun _ _ => rfl, hkept, List.map_map]
  exact hentries

/-- The traces in a report are those of the rules that were evaluated. -/
theorem filterMap_trace_reportOf {tenant : String} (outcomes : List RuleOutcome) :
    (reportOf user day tenant (rules.filterMap engine.leaveOut?) outcomes).rules.filterMap
        RuleEntry.trace =
      (outcomes.map fun outcome => (outcome.entry.rule, outcome.entry.trace)).filterMap
        Prod.snd := by
  have hleft : (rules.filterMap engine.leaveOut?).filterMap RuleEntry.trace = [] := by
    apply List.filterMap_eq_nil_iff.2
    intro entry hentry
    obtain ⟨rule, -, fault, rfl⟩ := exists_of_mem_leaveOut? hentry
    rfl
  rw [reportOf, List.filterMap_append, hleft, List.nil_append, List.filterMap_map,
    List.filterMap_map]
  rfl

/-- The snapshot for some rules agrees with what the log answers about every
statistic of each of them. -/
theorem agree_ofLog (log : MetricLog) (user : String) (day : Day) (lookback : Nat)
    {rules : List Rule} {rule : Rule} (hrule : rule ∈ rules) :
    Agree (Snapshot.ofLog log user day lookback (references rules)).get
      (log.source.resolve user day lookback) rule.references := by
  intro reference hreference
  rw [MetricLog.resolve_source,
    Snapshot.get_ofLog log user day lookback (mem_references hrule hreference)]

/-- Over a log, a pass finds what would be found by asking for every statistic
when it is needed: the same traces of the rules that it evaluates, and the same
texts and warnings of their alerts.  No trace is without a value because that
value was not asked for, and a placeholder is left empty just if its statistic
cannot be had. -/
theorem evaluate_isPlain (book : Rulebook) (glossary : Glossary) (log : MetricLog)
    (settings : EngineSettings) (store : HistoryStore σ) (user : String) (day : Day)
    (tenant : String) (state : σ) :
    let engine : Engine := ⟨book, glossary, log.source, settings⟩
    let resolve := log.source.resolve user day settings.lookback
    let finished := engine.evaluate store user day tenant state
    (∀ report, finished.answer = .ok report →
      (report.rules.filter fun entry => !entry.isSkipped).map
          (fun entry => (entry.rule, entry.trace)) =
        (engine.fitRules tenant).map fun rule => (rule.id, some (rule.logic.plainTrace resolve))) ∧
    (∀ trace ∈ tracesOf finished, ∀ found ∈ trace.leaves, ∀ shortfall,
      found.shortfall = some shortfall → ¬shortfall.SaysUnresolved) ∧
    ∀ event ∈ finished.sent, ∃ rule ∈ engine.fitRules tenant, ∃ message,
      event.IsPlain rule message user day resolve glossary ∧
      ∀ placeholder, .slot placeholder ∈ Piece.ofChars message.text.toList →
        ∀ reference, placeholder.reference? = some reference →
          (∀ value, resolve reference = .ok value →
            placeholder.plainFill rule.id resolve glossary = placeholder.showValue reference
              ((glossary.find? reference.metric).bind Metric.decimals) value) ∧
          (placeholder.plainFill rule.id resolve glossary =
              ("", some (Placeholder.notAvailable reference)) ↔
            ∃ error, resolve reference = .error error) := by
  intro engine resolve finished
  have htake : engine.snapshot user day tenant = .ok (.ofLog log user day settings.lookback
      (references (engine.fitRules tenant))) :=
    Snapshot.take_source log user day settings.lookback (references (engine.fitRules tenant))
  have hvalid : ∀ rule ∈ engine.fitRules tenant, rule.fault? = none :=
    fun rule hrule => fault?_eq_none_of_isFit (List.mem_filter.1 hrule).2
  obtain ⟨detail, hfailed, -⟩ | ⟨taken, evaluated, htaken, hrules, hfinished⟩ :=
    engine.evaluate_cases store user day tenant state
  · cases htake.symm.trans hfailed
  cases htake.symm.trans htaken
  obtain ⟨houtcomes, hsent⟩ := hrules.plain hvalid fun rule hrule =>
    agree_ofLog log user day settings.lookback hrule
  rw [show finished = _ from hfinished]
  refine ⟨?_, ?_, ?_⟩
  · intro report hreport
    obtain ⟨outcomes, hanswer, rfl⟩ := exists_of_map_eq_ok hreport
    obtain ⟨hevaluated, hentries⟩ := houtcomes outcomes hanswer
    exact filter_isSkipped_reportOf hevaluated hentries
  · intro trace htrace found hfound shortfall hshortfall
    obtain ⟨rule, -, rfl⟩ : ∃ rule ∈ engine.fitRules tenant,
        rule.logic.plainTrace resolve = trace := by
      rcases List.mem_append.1 htrace with htrace | htrace
      · cases hanswer : evaluated.answer with
        | error error =>
            rw [hanswer] at htrace
            cases htrace
        | ok outcomes =>
            rw [hanswer] at htrace
            change trace ∈ (reportOf _ _ _ _ outcomes).rules.filterMap RuleEntry.trace at htrace
            rw [filterMap_trace_reportOf, (houtcomes outcomes hanswer).2] at htrace
            simpa using htrace
      · obtain ⟨event, hevent, rfl⟩ := List.mem_map.1 htrace
        obtain ⟨rule, hrule, message, hplain⟩ := hsent event hevent
        exact ⟨rule, hrule, hplain.why.symm⟩
    exact not_saysUnresolved_of_mem_leaves log user day settings.lookback hfound hshortfall
  · intro event hevent
    obtain ⟨rule, hrule, message, hplain⟩ := hsent event hevent
    refine ⟨rule, hrule, message, hplain, ?_⟩
    intro placeholder _ reference hreference
    constructor
    · intro value hanswer
      exact Placeholder.plainFill_of_ok hreference hanswer
    · exact Placeholder.plainFill_eq_notAvailable_iff hreference

end Engine

end MetricAlerts
