import MetricAlerts.Proofs.Engine.Accounts
import MetricAlerts.Proofs.Engine.AlertLimits
import MetricAlerts.Proofs.Engine.InMemory
import MetricAlerts.Proofs.Rule.Order

/-!
# The order of a report

A pass goes through the enabled rules of a tenant twice.  The first time it
reports those that are not fit to be evaluated, the second time it evaluates the
others, both times by descending priority and ascending id.  So the rules of a
report stand in the order of evaluation if and only if no rule that is left out
comes behind one that is fit.
-/

namespace MetricAlerts

section Groups

variable {α : Type} {p : α → Bool} {items : List α}

theorem pairwise_filter_append_filter (p : α → Bool) (items : List α) :
    (items.filter (fun item => !p item) ++ items.filter p).Pairwise
      fun earlier later => p earlier = true → p later = true := by
  refine List.pairwise_append.2 ⟨?_, ?_, ?_⟩
  · apply List.pairwise_iff_forall_sublist.2
    intro earlier later hsublist hearlier
    have hmem := List.mem_filter.1 (hsublist.subset List.mem_cons_self)
    simp [hearlier] at hmem
  · apply List.pairwise_iff_forall_sublist.2
    intro earlier later hsublist _
    exact (List.mem_filter.1 (hsublist.subset (List.mem_cons_of_mem _ List.mem_cons_self))).2
  · intro earlier _ later hlater _
    exact (List.mem_filter.1 hlater).2

theorem filter_append_filter_eq_self_iff :
    items.filter (fun item => !p item) ++ items.filter p = items ↔
      items.Pairwise fun earlier later => p earlier = true → p later = true := by
  constructor
  · intro hsame
    rw [← hsame]
    exact pairwise_filter_append_filter p items
  · intro hpairwise
    induction items with
    | nil => rfl
    | cons item items ih =>
        obtain ⟨hitem, hitems⟩ := List.pairwise_cons.1 hpairwise
        cases hfirst : p item with
        | false =>
            rw [List.filter_cons_of_pos (by simp [hfirst]),
              List.filter_cons_of_neg (by simp [hfirst]), List.cons_append, ih hitems]
        | true =>
            -- Nothing behind an item of the second group belongs to the first.
            have hnone : items.filter (fun item => !p item) = [] := by
              apply List.filter_eq_nil_iff.2
              intro other hother
              simp [hitem other hother hfirst]
            have hall : items.filter p = items :=
              List.filter_eq_self.2 fun other hother => hitem other hother hfirst
            rw [List.filter_cons_of_neg (by simp [hfirst]), List.filter_cons_of_pos hfirst, hnone,
              hall, List.nil_append]

/-- Of items that a function tells apart there is no other arrangement with the
same values in the same places. -/
theorem eq_of_map_eq_map_of_perm {β : Type} {f : α → β} {others : List α}
    (hperm : others.Perm items) (hnodup : (items.map f).Nodup)
    (hmap : others.map f = items.map f) : others = items := by
  apply List.ext_getElem hperm.length_eq
  intro place hplace hother
  apply List.inj_on_of_nodup_map hnodup
  · exact hperm.mem_iff.1 (List.getElem_mem hplace)
  · exact List.getElem_mem hother
  · have hvalues := congrArg (fun values => values[place]?) hmap
    simpa [hplace, hother] using hvalues

end Groups

/-- By what an entry names its rule. -/
def RuleEntry.heading (entry : RuleEntry) : String × Int32 :=
  (entry.rule, entry.priority)

def Rule.heading (rule : Rule) : String × Int32 :=
  (rule.id, rule.priority)

namespace Engine

variable {σ : Type} {engine : Engine} {store : HistoryStore σ} {user : String} {day : Day}
  {tenant : String} {snapshot : Snapshot} {rules : List Rule} {state : σ}

theorem map_heading_filterMap_leaveOut? (rules : List Rule) :
    (rules.filterMap engine.leaveOut?).map RuleEntry.heading =
      (rules.filter fun rule => !engine.isFit rule).map Rule.heading := by
  induction rules with
  | nil => rfl
  | cons rule rules ih =>
      rw [List.filterMap_cons, List.filter_cons, isFit, leaveOut?]
      cases rule.evaluationFault? engine.glossary with
      | none => simpa using ih
      | some fault => simpa [RuleEntry.heading, RuleEntry.skipped, Rule.heading] using ih

theorem Evaluated.heading {rule : Rule}
    {finished : Dialogue.Finished AlertEvent (Except PassError RuleOutcome) σ}
    (hrule : Evaluated engine store user day snapshot rule state finished)
    {outcome : RuleOutcome} (hanswer : finished.answer = .ok outcome) :
    outcome.entry.heading = rule.heading := by
  cases hrule with
  | failed hverdict hask => cases hanswer
  | _ =>
      cases hanswer
      rfl

theorem EvaluatedAll.map_heading
    {finished : Dialogue.Finished AlertEvent (Except PassError (List RuleOutcome)) σ}
    (hrules : EvaluatedAll engine store user day snapshot rules state finished)
    {outcomes : List RuleOutcome} (hanswer : finished.answer = .ok outcomes) :
    (outcomes.map RuleOutcome.entry).map RuleEntry.heading = rules.map Rule.heading := by
  induction hrules generalizing outcomes with
  | nil state =>
      cases hanswer
      rfl
  | failed hrule => cases hanswer
  | @cons rule rules state next later outcome answer first rest hrule hrules ih =>
      cases answer with
      | error error => cases hanswer
      | ok others =>
          cases hanswer
          rw [List.map_cons, List.map_cons, List.map_cons, hrule.heading rfl, ih rfl]

theorem map_heading_of_report (store : HistoryStore σ) (state : σ) {report : Report}
    (hreport : (engine.evaluate store user day tenant state).answer = .ok report) :
    report.rules.map RuleEntry.heading =
      ((engine.book.enabledRules tenant).filter (fun rule => !engine.isFit rule) ++
        (engine.book.enabledRules tenant).filter engine.isFit).map Rule.heading := by
  obtain ⟨detail, -, hfinished⟩ | ⟨snapshot, finished, -, hrules, hfinished⟩ :=
    engine.evaluate_cases store user day tenant state
  · rw [hfinished] at hreport
    cases hreport
  rw [hfinished] at hreport
  obtain ⟨outcomes, houtcomes, rfl⟩ := exists_of_map_eq_ok hreport
  rw [reportOf, List.map_append, map_heading_filterMap_leaveOut?, hrules.map_heading houtcomes,
    fitRules, List.map_append]

/-- The enabled rules of a tenant come by descending priority and ascending id.
A report names all of them, first those that cannot be evaluated and then the
others, each group in that order.  So the whole report is in that order if and
only if no rule that cannot be evaluated comes behind one that can. -/
theorem reported_in_order_iff (requests : List ChangeRequest) (glossary : Glossary)
    (source : MetricSource) (settings : EngineSettings) (store : HistoryStore σ) (state : σ)
    (user : String) (day : Day) (tenant : String) :
    let book := (Registry.ofRequests requests).book
    let engine : Engine := ⟨book, glossary, source, settings⟩
    let enabled := book.enabledRules tenant
    enabled.Pairwise Rule.IsBefore ∧
      ∀ report, (engine.evaluate store user day tenant state).answer = .ok report →
        report.rules.map RuleEntry.heading =
          (enabled.filter (fun rule => !engine.isFit rule) ++
            enabled.filter engine.isFit).map Rule.heading ∧
        (report.rules.map RuleEntry.heading = enabled.map Rule.heading ↔
          enabled.Pairwise fun earlier later =>
            engine.isFit earlier = true → engine.isFit later = true) := by
  intro book engine enabled
  have hids : (enabled.map Rule.id).Nodup :=
    (Rulebook.isKeyed_ofRequests requests).nodup_list tenant .onlyEnabled
  have hheadings : (enabled.map Rule.heading).Nodup := by
    apply List.Nodup.of_map Prod.fst
    rwa [List.map_map]
  have hordered : enabled.Pairwise Rule.IsBefore := by
    apply Rule.pairwise_isBefore
    exact ((List.mergeSort_perm _ Rule.precedes).map Rule.id).nodup_iff.1 hids
  refine ⟨hordered, fun report hreport => ?_⟩
  have hreported := map_heading_of_report store state hreport
  refine ⟨hreported, ?_⟩
  have hperm : (enabled.filter (fun rule => !engine.isFit rule) ++
      enabled.filter engine.isFit).Perm enabled :=
    List.perm_append_comm.trans (List.filter_append_perm engine.isFit enabled)
  rw [hreported, ← filter_append_filter_eq_self_iff]
  exact ⟨eq_of_map_eq_map_of_perm hperm hheadings, congrArg (List.map Rule.heading)⟩

/-- A rule that always matches. -/
def urgentRule : Rule where
  id := "high"
  version := 1
  tenant := "acme"
  enabled := true
  description := none
  category := ""
  priority := 90
  severity := 0
  cooldownDays := 0
  maxPerDay := 1
  tags := .empty
  logic := .group .all []
  messages := ⟨"en", [⟨none, "hello", 1⟩]⟩

/-- The same rule with less priority, about a metric that the glossary lacks. -/
def strayRule : Rule :=
  { urgentRule with
    id := "low"
    priority := 10
    logic := .leaf ⟨"steps", .current, .greater, .one 5⟩ }

def twoPriorities : List ChangeRequest :=
  [urgentRule, strayRule].map fun rule => ⟨.create rule, .system, ⟨⟨0, 0⟩, ⟨"a"⟩, ⟨"b"⟩⟩⟩

theorem enabledRules_twoPriorities :
    let book := (Registry.ofRequests twoPriorities).book
    book.enabledRules "acme" = book.rules.filter fun rule =>
      rule.tenant == "acme" && RuleFilter.onlyEnabled.accepts rule := by
  intro book
  apply List.mergeSort_of_pairwise
  decide +kernel

/-- The rule of lower priority is reported first, since it was left out. -/
theorem misordered_twoPriorities :
    let service := Service.fresh (.ofRequests twoPriorities) .empty .empty .initial []
    (service.registry.book.enabledRules "acme").map Rule.heading = [("high", 90), ("low", 10)] ∧
      ∃ report, (service.evaluate Ledger.store "ada" ⟨0, by decide, by decide⟩ "acme").1 =
          .ok report ∧
        report.rules.map RuleEntry.heading = [("low", 10), ("high", 90)] := by
  intro service
  have henabled : service.engine.book.enabledRules "acme" = _ := enabledRules_twoPriorities
  refine ⟨?_, ?_⟩
  · change (service.engine.book.enabledRules "acme").map Rule.heading = _
    rw [henabled]
    decide +kernel
  · have hup : service.down = [] := rfl
    obtain ⟨report, hreport⟩ :=
      Service.exists_report hup "ada" ⟨0, by decide, by decide⟩ "acme"
    refine ⟨report, hreport, ?_⟩
    rw [map_heading_of_report Ledger.store service.histories hreport, henabled]
    decide +kernel

end Engine

end MetricAlerts
