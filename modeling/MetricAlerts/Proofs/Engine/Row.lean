import MetricAlerts.Proofs.Admission.Sequence
import MetricAlerts.Proofs.Engine.Rehearsal
import MetricAlerts.Proofs.Rulebook.Changes

/-!
# What a course is for one key

Passes mix many rules and many users.  Seen from one key there is only a row of
days on which its rule matched and asked for an alert.  The alerts of the key
are the admissions in that row, and its history is what they leave; nothing
else in the course has a say in it.
-/

namespace MetricAlerts

def FiredAlert.key (alert : FiredAlert) : AlertKey :=
  ⟨alert.tenant, alert.user, alert.rule⟩

/-- The days of the alerts of a key, earliest alert first. -/
def AlertLog.daysOf (log : AlertLog) (key : AlertKey) : List Day :=
  (log.filter fun alert => alert.key = key).map FiredAlert.day

theorem AlertLog.daysOf_append (first second : AlertLog) (key : AlertKey) :
    AlertLog.daysOf (first ++ second) key = first.daysOf key ++ second.daysOf key := by
  simp [daysOf]

/-- The days of the alerts of a key among some outcomes. -/
def RuleOutcome.daysOf (outcomes : List RuleOutcome) (key : AlertKey) : List Day :=
  AlertLog.daysOf ((outcomes.filterMap RuleOutcome.event).map AlertEvent.fired) key

theorem RuleOutcome.daysOf_cons (outcome : RuleOutcome) (outcomes : List RuleOutcome)
    (key : AlertKey) :
    daysOf (outcome :: outcomes) key = daysOf [outcome] key ++ daysOf outcomes key := by
  unfold daysOf
  rw [← AlertLog.daysOf_append, ← List.map_append, ← List.filterMap_append]
  rfl

namespace Rule

/-- Whether a rule comes to ask for an alert. -/
def asks (rule : Rule) (user : String) (day : Day) (snapshot : Snapshot) : Bool :=
  rule.verdict user day snapshot matches .matched _ _

variable {rule : Rule} {user : String} {day : Day} {snapshot : Snapshot}

/-- A rule that asks is admitted or not as a request of its day, and one that
does not ask leaves everything as it is. -/
theorem settle_eq (rule : Rule) (glossary : Glossary) (user : String) (day : Day)
    (snapshot : Snapshot) (stored : Versioned) :
    let row := if rule.asks user day snapshot then [day] else []
    RuleOutcome.daysOf [(rule.settle glossary user day snapshot stored).1] (rule.keyFor user) =
      (rule.limits.admissions stored.history row).1 ∧
    (rule.settle glossary user day snapshot stored).2.history =
      (rule.limits.admissions stored.history row).2 := by
  intro row
  cases hverdict : rule.verdict user day snapshot with
  | skipped fault =>
      have hrow : row = [] := by simp [row, asks, hverdict]
      simp [hrow, settle, hverdict, Limits.admissions, RuleOutcome.daysOf, AlertLog.daysOf]
  | notMatched trace =>
      have hrow : row = [] := by simp [row, asks, hverdict]
      simp [hrow, settle, hverdict, Limits.admissions, RuleOutcome.daysOf, AlertLog.daysOf]
  | matched trace message =>
      have hrow : row = [day] := by simp [row, asks, hverdict]
      simp only [hrow, settle, hverdict, Limits.decision, Limits.admissions]
      cases hcheck : rule.limits.check stored.history day with
      | error reason => simp [RuleOutcome.daysOf, AlertLog.daysOf]
      | ok next =>
          simp [RuleOutcome.daysOf, AlertLog.daysOf, AlertEvent.fired, FiredAlert.key, event,
            keyFor]

theorem key_of_mem_settle {glossary : Glossary} {stored : Versioned} {event : AlertEvent}
    (hevent : event ∈ (rule.settle glossary user day snapshot stored).1.event) :
    event.fired.key = rule.keyFor user := by
  rw [settle] at hevent
  split at hevent
  · cases hevent
  · cases hevent
  · split at hevent
    · cases hevent
    · cases hevent
      rfl

/-- A rule alerts under its own key only. -/
theorem daysOf_settle_of_ne {glossary : Glossary} {stored : Versioned} {key : AlertKey}
    (hkey : rule.keyFor user ≠ key) :
    RuleOutcome.daysOf [(rule.settle glossary user day snapshot stored).1] key = [] := by
  rw [RuleOutcome.daysOf, AlertLog.daysOf, List.filter_eq_nil_iff.2, List.map_nil]
  intro alert halert
  obtain ⟨event, hevent, rfl⟩ := List.mem_map.1 halert
  obtain ⟨outcome, houtcome, hevent⟩ := List.mem_filterMap.1 hevent
  rw [List.mem_singleton.1 houtcome] at hevent
  rw [key_of_mem_settle hevent]
  simpa using hkey

end Rule

namespace Engine

variable {engine : Engine} {user : String} {day : Day} {snapshot : Snapshot} {tenant : String}
  {key : AlertKey} {limits : Limits}

/-- The requests for a key that come from a list of rules. -/
def rowOf (rules : List Rule) (user : String) (day : Day) (snapshot : Snapshot)
    (key : AlertKey) : List Day :=
  (rules.filter fun rule => rule.keyFor user = key ∧ rule.asks user day snapshot).map
    fun _ => day

/-- The requests for a key that come from a whole pass. -/
def row (engine : Engine) (user : String) (day : Day) (tenant : String) (key : AlertKey) :
    List Day :=
  match engine.snapshot user day tenant with
  | .error _ => []
  | .ok snapshot => rowOf (engine.fitRules tenant) user day snapshot key

theorem rowOf_cons_of_key {rule : Rule} {rules : List Rule} (hkey : rule.keyFor user = key) :
    rowOf (rule :: rules) user day snapshot key =
      (if rule.asks user day snapshot then [day] else []) ++
        rowOf rules user day snapshot key := by
  rw [rowOf, rowOf, List.filter_cons]
  cases hasks : rule.asks user day snapshot <;> simp [hkey]

theorem rowOf_cons_of_ne {rule : Rule} {rules : List Rule} (hkey : rule.keyFor user ≠ key) :
    rowOf (rule :: rules) user day snapshot key = rowOf rules user day snapshot key := by
  rw [rowOf, rowOf, List.filter_cons_of_neg]
  simp [hkey]

/-- Rules settled one after the other treat a key as its row of requests. -/
theorem settleRules_row {rules : List Rule}
    (hlimits : ∀ rule ∈ rules, rule.keyFor user = key → rule.limits = limits)
    (stored : AlertKey → Versioned) :
    let settled := engine.settleRules user day snapshot rules stored
    let admissions := limits.admissions (stored key).history (rowOf rules user day snapshot key)
    RuleOutcome.daysOf settled.1 key = admissions.1 ∧
    (settled.2 key).history = admissions.2 := by
  induction rules generalizing stored with
  | nil => exact ⟨rfl, rfl⟩
  | cons rule rules ih =>
      have hrest : ∀ rule ∈ rules, rule.keyFor user = key → rule.limits = limits := by
        intro other hother
        exact hlimits other (List.mem_cons_of_mem rule hother)
      obtain ⟨own, hown⟩ : ∃ own, own =
        rule.settle engine.glossary user day snapshot (stored (rule.keyFor user)) := ⟨_, rfl⟩
      obtain ⟨hdays, hhistory⟩ :=
        ih hrest (Function.update stored (rule.keyFor user) own.2)
      simp only [settleRules, ← hown]
      rw [RuleOutcome.daysOf_cons, hdays, hhistory]
      by_cases hkey : rule.keyFor user = key
      · obtain ⟨hadmitted, hleft⟩ := rule.settle_eq engine.glossary user day snapshot
          (stored (rule.keyFor user))
        rw [hlimits rule List.mem_cons_self hkey, ← hown, hkey] at hadmitted hleft
        rw [rowOf_cons_of_key hkey, Limits.admissions_append, hkey, Function.update_self,
          hadmitted, hleft]
        exact ⟨rfl, rfl⟩
      · have hnone : RuleOutcome.daysOf [own.1] key = [] := by
          rw [hown]
          exact Rule.daysOf_settle_of_ne hkey
        rw [rowOf_cons_of_ne hkey, hnone, Function.update_of_ne (Ne.symm hkey), List.nil_append]
        exact ⟨rfl, rfl⟩

theorem mem_fitRules {rule : Rule} (hrule : rule ∈ engine.fitRules tenant) :
    rule ∈ engine.book.rules ∧ rule.tenant = tenant ∧ engine.isFit rule = true := by
  obtain ⟨henabled, hfit⟩ := List.mem_filter.1 hrule
  obtain ⟨hmem, htenant, -⟩ := Rulebook.mem_list.1 henabled
  exact ⟨hmem, htenant, hfit⟩

/-- A key has no other rule than the one of its id. -/
theorem eq_of_mem_fitRules (hbook : engine.book.IsKeyed) {rule fit : Rule}
    (hrule : engine.book.rule? key.rule = some rule) (hfit : fit ∈ engine.fitRules tenant)
    (hkey : fit.keyFor user = key) : fit = rule := by
  have hid : fit.id = key.rule := congrArg AlertKey.rule hkey
  have hsame := hbook.rule?_eq_some_iff.2 ⟨(mem_fitRules hfit).1, hid⟩
  rw [hrule, Option.some_inj] at hsame
  exact hsame.symm

theorem nodup_keys_fitRules (hbook : engine.book.IsKeyed) (user tenant : String) :
    ((engine.fitRules tenant).map (Rule.keyFor · user)).Nodup := by
  have hids : ((engine.fitRules tenant).map Rule.id).Nodup :=
    (List.filter_sublist.map Rule.id).nodup (hbook.nodup_list tenant .onlyEnabled)
  apply List.Nodup.of_map AlertKey.rule
  rw [List.map_map]
  exact hids

/-- A whole pass treats a key as its row of requests. -/
theorem settlePass_row (engine : Engine) (user : String) (day : Day) (tenant : String)
    (hbook : engine.book.IsKeyed) {rule : Rule}
    (hrule : engine.book.rule? key.rule = some rule) (stored : AlertKey → Versioned) :
    let settled := engine.settlePass user day tenant stored
    let admissions := rule.limits.admissions (stored key).history
      (engine.row user day tenant key)
    AlertLog.daysOf ((alertsOf settled.1).map AlertEvent.fired) key = admissions.1 ∧
    (settled.2 key).history = admissions.2 := by
  rw [settlePass, row]
  cases engine.snapshot user day tenant with
  | error detail => exact ⟨rfl, rfl⟩
  | ok snapshot =>
      apply settleRules_row
      intro fit hfit hkey
      rw [eq_of_mem_fitRules hbook hrule hfit hkey]

/-- The alerts of a pass are of rules that are fit. -/
theorem exists_fit_of_mem_settleRules {rules : List Rule} {stored : AlertKey → Versioned}
    {event : AlertEvent}
    (hevent : event ∈ (engine.settleRules user day snapshot rules stored).1.filterMap
      RuleOutcome.event) :
    ∃ rule ∈ rules, event.fired.key = rule.keyFor user := by
  induction rules generalizing stored with
  | nil => cases hevent
  | cons rule rules ih =>
      simp only [settleRules, List.filterMap_cons] at hevent
      split at hevent
      · obtain ⟨fit, hfit, hkey⟩ := ih hevent
        exact ⟨fit, List.mem_cons_of_mem rule hfit, hkey⟩
      · next own hown =>
          rcases List.mem_cons.1 hevent with rfl | hevent
          · exact ⟨rule, List.mem_cons_self, Rule.key_of_mem_settle hown⟩
          · obtain ⟨fit, hfit, hkey⟩ := ih hevent
            exact ⟨fit, List.mem_cons_of_mem rule hfit, hkey⟩

theorem exists_fit_of_mem_alertsOf {stored : AlertKey → Versioned} {event : AlertEvent}
    (hevent : event ∈ alertsOf (engine.settlePass user day tenant stored).1) :
    ∃ rule ∈ engine.fitRules tenant, event.fired.key = rule.keyFor user := by
  rw [settlePass] at hevent
  split at hevent
  · cases hevent
  · exact exists_fit_of_mem_settleRules hevent

end Engine

namespace Service

/-- The requests for a key that come from an act. -/
def row (service : Service Ledger) (act : Act) (key : AlertKey) : List Day :=
  match act.pass? with
  | some (user, day, tenant) => service.engine.row user day tenant key
  | none => []

/-- The requests for a key that come from a whole course, in their order. -/
def rowOf : List Act → Service Ledger → AlertKey → List Day
  | [], _, _ => []
  | act :: acts, service, key =>
      service.row act key ++ rowOf acts (service.act Ledger.store act).2 key

theorem act_of_no_pass (service : Service Ledger) {act : Act} (hpass : act.pass? = none) :
    (service.act Ledger.store act).2.histories = service.histories ∧
      (service.act Ledger.store act).2.alerts = service.alerts := by
  cases act with
  | evaluate user day tenant => cases hpass
  | observe metrics down => exact ⟨rfl, rfl⟩
  | simulate user day tenant options =>
      obtain ⟨debug, mode⟩ := options
      cases mode with
      | commit => cases hpass
      | dryRun =>
          rw [act_of_isDryRun rfl]
          exact ⟨rfl, rfl⟩

/-- A real pass adds the alerts it is settled to, and stores what it is settled
to. -/
theorem evaluate_settles (service : Service Ledger) (user : String) (day : Day)
    (tenant : String) :
    let settled := service.engine.settlePass user day tenant service.histories.load
    let later := (service.evaluate Ledger.store user day tenant).2
    later.alerts = service.alerts ++ (Engine.alertsOf settled.1).map AlertEvent.fired ∧
      later.histories.load = settled.2 := by
  obtain ⟨later, hevaluate, hlater⟩ := Engine.evaluate_settles Ledger.shows_load service.engine
    user day tenant service.histories
  simp only [evaluate, after, hevaluate, hlater, and_self]

variable {service : Service Ledger} {key : AlertKey} {rule : Rule}

theorem act_row (hbook : service.registry.book.IsKeyed)
    (hrule : service.registry.book.rule? key.rule = some rule) (act : Act) :
    let later := (service.act Ledger.store act).2
    let admissions := rule.limits.admissions (service.histories.load key).history
      (service.row act key)
    later.alerts.daysOf key = service.alerts.daysOf key ++ admissions.1 ∧
      (later.histories.load key).history = admissions.2 := by
  rw [row]
  cases hpass : act.pass? with
  | none =>
      obtain ⟨hhistories, halerts⟩ := service.act_of_no_pass hpass
      simp only [hhistories, halerts]
      exact ⟨(List.append_nil _).symm, rfl⟩
  | some pass =>
      obtain ⟨user, day, tenant⟩ := pass
      obtain ⟨halerts, hload⟩ := service.evaluate_settles user day tenant
      have hrow := service.engine.settlePass_row user day tenant hbook hrule
        service.histories.load
      simp only [act_of_pass hpass, halerts, hload, AlertLog.daysOf_append]
      exact ⟨congrArg _ hrow.1, hrow.2⟩

/-- A course treats a key as its row of requests, with the limits of the rule. -/
theorem run_row (service : Service Ledger) (acts : List Act)
    (hbook : service.registry.book.IsKeyed)
    (hrule : service.registry.book.rule? key.rule = some rule) :
    let later := (run Ledger.store acts service).2
    let admissions := rule.limits.admissions (service.histories.load key).history
      (rowOf acts service key)
    later.alerts.daysOf key = service.alerts.daysOf key ++ admissions.1 ∧
      (later.histories.load key).history = admissions.2 := by
  induction acts generalizing service with
  | nil => exact ⟨(List.append_nil _).symm, rfl⟩
  | cons act acts ih =>
      obtain ⟨hdays, hhistory⟩ := act_row hbook hrule act
      have hsame := registry_act Ledger.store service act
      obtain ⟨hlater, hend⟩ := ih _ (hsame ▸ hbook) (hsame ▸ hrule)
      simp only [run_cons_state, rowOf, Limits.admissions_append]
      rw [hlater, hend, hdays, hhistory, List.append_assoc]
      exact ⟨rfl, rfl⟩

/-- Only rules of the book alert. -/
theorem exists_rule_of_mem_act {act : Act} {alert : FiredAlert}
    (halert : alert ∈ (service.act Ledger.store act).2.alerts) :
    alert ∈ service.alerts ∨
      ∃ rule ∈ service.registry.book.rules, alert.key = rule.keyFor alert.user := by
  cases hpass : act.pass? with
  | none =>
      rw [(service.act_of_no_pass hpass).2] at halert
      exact .inl halert
  | some pass =>
      obtain ⟨user, day, tenant⟩ := pass
      rw [act_of_pass hpass, (service.evaluate_settles user day tenant).1,
        List.mem_append] at halert
      rcases halert with hbefore | hnew
      · exact .inl hbefore
      · obtain ⟨event, hevent, rfl⟩ := List.mem_map.1 hnew
        obtain ⟨rule, hrule, hkey⟩ := Engine.exists_fit_of_mem_alertsOf hevent
        refine .inr ⟨rule, (Engine.mem_fitRules hrule).1, ?_⟩
        rw [hkey]
        exact congrArg rule.keyFor (congrArg AlertKey.user hkey).symm

theorem exists_rule_of_mem_run (acts : List Act) {alert : FiredAlert}
    (halert : alert ∈ (run Ledger.store acts service).2.alerts) :
    alert ∈ service.alerts ∨
      ∃ rule ∈ service.registry.book.rules, alert.key = rule.keyFor alert.user := by
  induction acts generalizing service with
  | nil => exact .inl halert
  | cons act acts ih =>
      rcases ih halert with hbefore | hrule
      · exact exists_rule_of_mem_act hbefore
      · have hsame := registry_act Ledger.store service act
        right
        rwa [← hsame]

end Service

end MetricAlerts
