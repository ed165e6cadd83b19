import Mathlib.Logic.Relation
import MetricAlerts.Proofs.Engine.AlertLimits
import MetricAlerts.Proofs.Engine.InMemory
import MetricAlerts.Proofs.Engine.SingleRule

/-!
# Rules do not influence each other

The rules of a pass share one snapshot, one glossary and one ledger.  Yet what
becomes of a rule hangs on that rule alone, on the glossary, on the metrics of
the user and on the history under its own key.  Two services that share these
come to the same for the rule; and however other rules, other users' metrics
and other histories are changed, these stay shared.
-/

namespace MetricAlerts

theorem MetricLog.series?_record_of_ne {log : MetricLog} {name user : String} (hne : name ≠ user)
    (metric : String) (day : Day) (value : Float) (own : String) :
    (log.record name metric day value).series? user own = log.series? user own := by
  rw [record]
  split
  · rw [series?, Table.find?_insert, if_neg]
    · rfl
    · intro hkey
      exact hne (congrArg SeriesKey.user hkey).symm
  · rfl

theorem Ledger.history?_trySwap_of_ne {ledger : Ledger} {key own : AlertKey} (hne : key ≠ own)
    (version : Nat) (history : History) :
    (ledger.trySwap key version history).2.history? own = ledger.history? own :=
  congrArg (Option.map Versioned.history) (find?_trySwap_of_ne hne.symm version history)

namespace Service

variable {service other later : Service Ledger} {user : String} {day : Day} {rule : Rule}

/-- An evaluation with its answer, the alerts that it has sent and what is
stored afterwards. -/
def evaluation (service : Service Ledger) (user : String) (day : Day) (tenant : String) :
    Dialogue.Finished AlertEvent (Except PassError Report) Ledger :=
  service.engine.evaluate Ledger.store user day tenant service.histories

/-- What an evaluation comes to for one rule: its entry in the report, its
alert, if any, and the history under its key afterwards, if any. -/
structure ComesTo (service : Service Ledger) (user : String) (day : Day) (rule : Rule)
    (outcome : RuleOutcome) (kept : Option History) : Prop where
  reported : ∃ report, (service.evaluation user day rule.tenant).answer = .ok report ∧
    report.rules.filter (fun entry => entry.rule = rule.id) = [outcome.entry] ∧
    report.events.filter (fun event => event.rule = rule.id) = outcome.event.toList
  sent : (service.evaluation user day rule.tenant).sent.filter
    (fun event => event.rule = rule.id) = outcome.event.toList
  stored : (service.evaluation user day rule.tenant).state.history? (rule.keyFor user) = kept

def outcomeOf (service : Service Ledger) (user : String) (day : Day) (rule : Rule) :
    RuleOutcome :=
  service.engine.outcome user day (service.values user day rule.tenant)
    (service.histories.load (rule.keyFor user)) rule

def keptOf (service : Service Ledger) (user : String) (day : Day) (rule : Rule) :
    Option History :=
  (service.engine.renewal? user day (service.values user day rule.tenant)
    (service.histories.load (rule.keyFor user)).history rule).or
    (service.histories.history? (rule.keyFor user))

theorem comesTo (hservice : service.IsInMemory) (user : String) (day : Day)
    (hrule : rule ∈ service.registry.book.enabledRules rule.tenant) :
    service.ComesTo user day rule (service.outcomeOf user day rule)
      (service.keptOf user day rule) := by
  have hbook : service.engine.book.IsKeyed := hservice.isKeyed
  have hsnapshot := snapshot_of_up hservice.up user day rule.tenant
  obtain ⟨later, hevaluate, hload, hgrows⟩ :=
    Engine.evaluate_of_snapshot hsnapshot service.histories
  have hentries := Engine.filter_rules_of_rule hbook user day
    (service.values user day rule.tenant) hrule service.histories.load
  have hevents := Engine.filter_events_of_rule hbook user day
    (service.values user day rule.tenant) hrule service.histories.load
  have hstored := Engine.stored_of_rule hbook user day
    (service.values user day rule.tenant) hrule service.histories.load
  rw [← hload] at hstored
  refine ⟨⟨_, congrArg Dialogue.Finished.answer hevaluate, hentries, hevents⟩, ?_, ?_⟩
  · rw [evaluation, hevaluate]
    exact hevents
  · rw [evaluation, hevaluate]
    exact hgrows.history?_eq hstored

/-- The other service has the same rule, and all that the rule looks at for a
user is the same there. -/
structure SharesWith (service other : Service Ledger) (rule : Rule) (user : String) :
    Prop where
  present : other.registry.book.rule? rule.id = some rule
  glossary : ∀ metric, service.glossary.find? metric = other.glossary.find? metric
  metrics : ∀ metric, service.metrics.series? user metric = other.metrics.series? user metric
  lookback : service.settings.lookback = other.settings.lookback
  history : service.histories.history? (rule.keyFor user) =
    other.histories.history? (rule.keyFor user)

theorem SharesWith.trans (hfirst : service.SharesWith later rule user)
    (hsecond : later.SharesWith other rule user) : service.SharesWith other rule user where
  present := hsecond.present
  glossary metric := (hfirst.glossary metric).trans (hsecond.glossary metric)
  metrics metric := (hfirst.metrics metric).trans (hsecond.metrics metric)
  lookback := hfirst.lookback.trans hsecond.lookback
  history := hfirst.history.trans hsecond.history

theorem mem_enabledRules (hservice : service.IsInMemory)
    (hrule : service.registry.book.rule? rule.id = some rule) (henabled : rule.enabled = true) :
    rule ∈ service.registry.book.enabledRules rule.tenant := by
  apply Rulebook.mem_list.2
  refine ⟨(hservice.isKeyed.rule?_eq_some_iff.1 hrule).1, rfl, ?_⟩
  simp [RuleFilter.accepts, RuleFilter.onlyEnabled, henabled]

/-- Other rules add values to a snapshot, but they change none. -/
theorem SharesWith.alikeOn (hshares : service.SharesWith other rule user) (day : Day)
    (hrule : rule ∈ service.engine.fitRules rule.tenant)
    (hother : rule ∈ other.engine.fitRules rule.tenant) :
    (service.values user day rule.tenant).AlikeOn id (other.values user day rule.tenant)
      rule.references := by
  intro reference hreference
  rw [values, values,
    Snapshot.get_ofLog _ _ _ _ (Engine.mem_references hrule hreference),
    Snapshot.get_ofLog _ _ _ _ (Engine.mem_references hother hreference),
    MetricLog.value, MetricLog.value, hshares.metrics, hshares.lookback]

/-- A rule comes to the same in services that share what it looks at. -/
theorem SharesWith.comesTo (hshares : service.SharesWith other rule user) (day : Day)
    (hrule : rule ∈ service.registry.book.enabledRules rule.tenant)
    (hother : other.IsInMemory) :
    other.ComesTo user day rule (service.outcomeOf user day rule)
      (service.keptOf user day rule) := by
  have henabled : rule.enabled = true := by
    simpa [RuleFilter.accepts, RuleFilter.onlyEnabled] using (Rulebook.mem_list.1 hrule).2.2
  have hpresent := mem_enabledRules hother hshares.present henabled
  have hglossary : ∀ metric,
    service.engine.glossary.find? metric = other.engine.glossary.find? metric := hshares.glossary
  have halike : service.engine.isFit rule = true →
      (service.values user day rule.tenant).AlikeOn id (other.values user day rule.tenant)
        rule.references := by
    intro hfit
    apply hshares.alikeOn day
    · exact List.mem_filter.2 ⟨hrule, hfit⟩
    · exact List.mem_filter.2 ⟨hpresent, Engine.isFit_congr hglossary rule ▸ hfit⟩
  have hhistory : (service.histories.load (rule.keyFor user)).history =
      (other.histories.load (rule.keyFor user)).history := by
    rw [Ledger.history_load, Ledger.history_load, hshares.history]
  have houtcome : service.outcomeOf user day rule = other.outcomeOf user day rule :=
    Engine.outcome_congr hglossary halike hhistory
  have hkept : service.keptOf user day rule = other.keptOf user day rule := by
    rw [keptOf, keptOf, ← hhistory, ← hshares.history, Engine.renewal?_congr hglossary halike]
  rw [houtcome, hkept]
  exact Service.comesTo hother user day hpresent

/-- A pass stores nothing but under the keys of its own rules. -/
theorem exists_rule_of_stored (hservice : service.IsInMemory) {tenant : String}
    {key : AlertKey}
    (hstored : (service.evaluation user day tenant).state.find? key ≠
      service.histories.find? key) :
    ∃ rule ∈ service.registry.book.enabledRules tenant, key = rule.keyFor user := by
  by_contra hnone
  apply hstored
  obtain ⟨later, hevaluate, hload, hgrows⟩ :=
    Engine.evaluate_of_snapshot (snapshot_of_up hservice.up user day tenant) service.histories
  have hkey : key ∉ (service.engine.fitRules tenant).map (Rule.keyFor · user) := by
    intro hkey
    obtain ⟨rule, hrule, hown⟩ := List.mem_map.1 hkey
    exact hnone ⟨rule, (List.mem_filter.1 hrule).1, hown.symm⟩
  have hsame : later.load key = service.histories.load key := by
    rw [hload, Engine.settleRules_stored_of_notMem _ _ _ hkey]
  rw [evaluation, hevaluate, hgrows.find?_eq, if_pos hsame]

/-- What can happen without touching a rule or what it looks at for a user: a
change that works on another rule, a value of another user, an evaluation of
another user, and a history under another key. -/
inductive Elsewhere (rule : Rule) (user : String) : Service Ledger → Service Ledger → Prop
  | change (service : Service Ledger) (request : ChangeRequest)
      (htarget : request.change.target? ≠ some rule.id) :
      Elsewhere rule user service
        { service with registry := service.registry.afterRequest request }
  | record (service : Service Ledger) (other metric : String) (day : Day) (value : Float)
      (hother : other ≠ user) :
      Elsewhere rule user service
        { service with metrics := service.metrics.record other metric day value }
  | evaluate (service : Service Ledger) (other : String) (day : Day) (tenant : String)
      (hother : other ≠ user) :
      Elsewhere rule user service (service.evaluate Ledger.store other day tenant).2
  | swap (service : Service Ledger) (key : AlertKey) (version : Nat) (history : History)
      (hkey : key ≠ rule.keyFor user) :
      Elsewhere rule user service
        { service with histories := (service.histories.trySwap key version history).2 }

theorem Elsewhere.isInMemory (hstep : Elsewhere rule user service later)
    (hservice : service.IsInMemory) : later.IsInMemory := by
  obtain ⟨requests, hrequests⟩ := hservice.registry
  cases hstep with
  | change request htarget =>
      refine ⟨⟨requests ++ [request], ?_⟩, hservice.up⟩
      rw [Registry.ofRequests, List.foldl_append]
      exact congrArg (Registry.afterRequest · request) hrequests
  | record => exact ⟨hservice.registry, hservice.up⟩
  | evaluate => exact ⟨hservice.registry, hservice.up⟩
  | swap => exact ⟨hservice.registry, hservice.up⟩

theorem Elsewhere.sharesWith (hstep : Elsewhere rule user service later)
    (hservice : service.IsInMemory)
    (hrule : service.registry.book.rule? rule.id = some rule) :
    service.SharesWith later rule user := by
  cases hstep with
  | change request htarget =>
      refine ⟨?_, fun _ => rfl, fun _ => rfl, rfl, rfl⟩
      obtain ⟨lineage, hfound, hown⟩ := Option.map_eq_some_iff.1 hrule
      rw [Rulebook.rule?, Registry.find?_afterRequest hfound htarget, Option.map_some, hown]
  | record other metric date value hother =>
      refine ⟨hrule, fun _ => rfl, fun own => ?_, rfl, rfl⟩
      exact (MetricLog.series?_record_of_ne hother metric date value own).symm
  | evaluate other date tenant hother =>
      refine ⟨hrule, fun _ => rfl, fun _ => rfl, rfl, ?_⟩
      have hsame : (service.evaluation other date tenant).state.find? (rule.keyFor user) =
          service.histories.find? (rule.keyFor user) := by
        by_contra hstored
        obtain ⟨_, -, hkey⟩ := exists_rule_of_stored hservice hstored
        exact hother (congrArg AlertKey.user hkey).symm
      exact congrArg (Option.map Versioned.history) hsame.symm
  | swap key version history hkey =>
      refine ⟨hrule, fun _ => rfl, fun _ => rfl, rfl, ?_⟩
      exact (Ledger.history?_trySwap_of_ne hkey version history).symm

/-- However much happens elsewhere, all that a rule looks at stays shared. -/
theorem sharesWith_of_elsewhere (hservice : service.IsInMemory)
    (hrule : service.registry.book.rule? rule.id = some rule)
    (hsteps : Relation.ReflTransGen (Elsewhere rule user) service later) :
    later.IsInMemory ∧ service.SharesWith later rule user := by
  induction hsteps with
  | refl => exact ⟨hservice, hrule, fun _ => rfl, fun _ => rfl, rfl, rfl⟩
  | tail _ hstep ih =>
      obtain ⟨hmiddle, hshares⟩ := ih
      exact ⟨hstep.isInMemory hmiddle,
        hshares.trans (hstep.sharesWith hmiddle hshares.present)⟩

/-- What an evaluation comes to for an enabled rule of its tenant is the same
in any service that has the same rule, the same glossary, the same metrics of
the user and the same history under the key of the rule; and it is the same
after whatever happens elsewhere.  An evaluation stores nothing but under the
keys of the rules that are enabled for its tenant. -/
theorem comesTo_of_sharesWith (service : Service Ledger) (hservice : service.IsInMemory)
    (user : String) (day : Day) (tenant : String) :
    (∀ rule ∈ service.registry.book.enabledRules tenant, ∃ outcome kept,
      service.ComesTo user day rule outcome kept ∧
      (∀ other : Service Ledger, other.IsInMemory → service.SharesWith other rule user →
        other.ComesTo user day rule outcome kept) ∧
      ∀ later, Relation.ReflTransGen (Elsewhere rule user) service later →
        later.ComesTo user day rule outcome kept) ∧
    ∀ key, (service.evaluation user day tenant).state.find? key ≠
        service.histories.find? key →
      ∃ rule ∈ service.registry.book.enabledRules tenant, key = rule.keyFor user := by
  constructor
  · intro rule hrule
    obtain ⟨hmem, rfl, henabled⟩ := Rulebook.mem_list.1 hrule
    refine ⟨service.outcomeOf user day rule, service.keptOf user day rule,
      comesTo hservice user day hrule, ?_, ?_⟩
    · intro other hother hshares
      exact hshares.comesTo day hrule hother
    · intro later hsteps
      have hfound := hservice.isKeyed.rule?_eq_some_iff.2 ⟨hmem, rfl⟩
      obtain ⟨hlater, hshares⟩ := sharesWith_of_elsewhere hservice hfound hsteps
      exact hshares.comesTo day hrule hlater
  · intro key hstored
    exact exists_rule_of_stored hservice hstored

/-- Someone else has been alerted by the same rule in the meantime. -/
theorem comesTo_of_sharesWith_onceADay :
    let service := fresh (.ofRequests onceADayRequests) .empty .empty .initial []
    let later := (service.evaluate Ledger.store "bob" epoch "acme").2
    service.IsInMemory ∧ later.alerts.length = 1 ∧
      ∃ rule ∈ service.registry.book.enabledRules "acme", ∃ outcome kept,
        service.ComesTo "ada" epoch rule outcome kept ∧
        later.ComesTo "ada" epoch rule outcome kept := by
  intro service later
  have hservice : service.IsInMemory := ⟨⟨onceADayRequests, rfl⟩, rfl⟩
  have halerts : later.alerts.length = 1 := by decide +kernel
  have hrules : (service.registry.book.enabledRules "acme").isEmpty = false := by
    decide +kernel
  obtain ⟨rule, hrule⟩ := List.isEmpty_eq_false_iff_exists_mem.1 hrules
  obtain ⟨outcome, kept, hcomes, -, helsewhere⟩ :=
    (comesTo_of_sharesWith service hservice "ada" epoch "acme").1 rule hrule
  refine ⟨hservice, halerts, rule, hrule, outcome, kept, hcomes, ?_⟩
  apply helsewhere
  exact .single (.evaluate service "bob" epoch "acme" (by decide))

end Service

end MetricAlerts
