import MetricAlerts.Proofs.Engine.Row

/-!
# What the limits come to over a whole course

A rule says how many days there are at least between two alerts, and how many
alerts there are at most on one day.  The first holds over every course, with
the days in any order.  The second does not: the history remembers the count of
one day only, so an alert on another day in between wipes it out.  It is said
here exactly when the cap is kept.
-/

namespace MetricAlerts

namespace Service

/-- A service that has not alerted yet. -/
def fresh (registry : Registry) (glossary : Glossary) (metrics : MetricLog)
    (settings : EngineSettings) (down : List String) : Service Ledger where
  registry
  glossary
  metrics
  settings
  down
  histories := .empty
  alerts := []

/-- In a fresh service the alerts of a key are the admissions in its row. -/
theorem daysOf_run_fresh (requests : List ChangeRequest) (glossary : Glossary)
    (metrics : MetricLog) (settings : EngineSettings) (down : List String) (acts : List Act)
    {key : AlertKey} {rule : Rule}
    (hrule : (Registry.ofRequests requests).book.rule? key.rule = some rule) :
    let service := fresh (.ofRequests requests) glossary metrics settings down
    (run Ledger.store acts service).2.alerts.daysOf key =
      (rule.limits.admissions .empty (rowOf acts service key)).1 := by
  intro service
  exact (service.run_row acts (Rulebook.isKeyed_ofRequests requests) hrule).1

/-- However evaluations and simulations follow one another, and on whatever
days, two alerts of one rule for one user are never closer than its cooldown,
whatever the cap is. -/
theorem pairwise_alerts_cooldownDays_le (requests : List ChangeRequest) (glossary : Glossary)
    (metrics : MetricLog) (settings : EngineSettings) (down : List String)
    (acts : List Act) :
    let service := fresh (.ofRequests requests) glossary metrics settings down
    (run Ledger.store acts service).2.alerts.Pairwise fun a b =>
      a.key = b.key →
        ∃ rule, service.registry.book.rule? a.rule = some rule ∧ rule.tenant = a.tenant ∧
          rule.cooldownDays.toNat ≤ (b.day.since a.day).natAbs := by
  intro service
  have hbook : service.registry.book.IsKeyed := Rulebook.isKeyed_ofRequests requests
  rw [List.pairwise_iff_forall_sublist]
  intro a b hboth hkey
  have hmem : a ∈ (run Ledger.store acts service).2.alerts := hboth.subset (by simp)
  obtain ⟨rule, hrule, hown⟩ :=
    (exists_rule_of_mem_run acts hmem).resolve_left List.not_mem_nil
  have hid : rule.id = a.rule := (congrArg AlertKey.rule hown).symm
  have htenant : rule.tenant = a.tenant := (congrArg AlertKey.tenant hown).symm
  have hfound : service.registry.book.rule? a.key.rule = some rule :=
    hbook.rule?_eq_some_iff.2 ⟨hrule, hid⟩
  refine ⟨rule, hfound, htenant, ?_⟩
  have hapart := rule.limits.admissions_apart .empty (rowOf acts service a.key)
  rw [← daysOf_run_fresh requests glossary metrics settings down acts hfound, AlertLog.daysOf,
    List.pairwise_map, List.pairwise_filter, List.pairwise_iff_forall_sublist] at hapart
  apply hapart hboth
  · simp
  · simpa using hkey.symm

end Service

namespace Engine

variable {engine : Engine} {key : AlertKey} {rule : Rule}

theorem maxPerDay_pos_of_isFit (hfit : engine.isFit rule = true) : 0 < rule.maxPerDay := by
  rw [UInt32.pos_iff_ne_zero]
  intro hzero
  simp [isFit, Rule.evaluationFault?, Rule.fault?, hzero] at hfit

/-- A rule that may not alert at all is left out, so it never asks. -/
theorem row_eq_nil (hbook : engine.book.IsKeyed)
    (hrule : engine.book.rule? key.rule = some rule) (hcap : ¬0 < rule.maxPerDay)
    (user : String) (day : Day) (tenant : String) : engine.row user day tenant key = [] := by
  rw [row]
  cases engine.snapshot user day tenant with
  | error detail => rfl
  | ok snapshot =>
      change rowOf (engine.fitRules tenant) user day snapshot key = []
      rw [rowOf, List.filter_eq_nil_iff.2, List.map_nil]
      intro fit hfit hasks
      obtain ⟨hkey, -⟩ := of_decide_eq_true hasks
      rw [eq_of_mem_fitRules hbook hrule hfit hkey] at hfit
      exact hcap (maxPerDay_pos_of_isFit (mem_fitRules hfit).2.2)

end Engine

namespace Service

variable {key : AlertKey} {rule : Rule}

theorem rowOf_eq_nil {service : Service Ledger} (hbook : service.registry.book.IsKeyed)
    (hrule : service.registry.book.rule? key.rule = some rule)
    (hcap : ¬0 < rule.maxPerDay) (acts : List Act) : rowOf acts service key = [] := by
  induction acts generalizing service with
  | nil => rfl
  | cons act acts ih =>
      have hsame := registry_act Ledger.store service act
      rw [rowOf, ih (hsame ▸ hbook) (hsame ▸ hrule), List.append_nil, row]
      cases act.pass? with
      | none => rfl
      | some pass => exact Engine.row_eq_nil hbook hrule hcap _ _ _

/-- A cap is kept on a day just in these cases: there is a cooldown, or the rule
matches on that day no more often than the cap allows, or it matches on no
other day between two matches of that day. -/
theorem cap_kept_iff (requests : List ChangeRequest) (glossary : Glossary)
    (metrics : MetricLog) (settings : EngineSettings) (down : List String) (acts : List Act)
    (key : AlertKey) (rule : Rule)
    (hrule : (Registry.ofRequests requests).book.rule? key.rule = some rule) (day : Day) :
    let service := fresh (.ofRequests requests) glossary metrics settings down
    let asked := rowOf acts service key
    ((run Ledger.store acts service).2.alerts.daysOf key).count day ≤ rule.maxPerDay.toNat ↔
      rule.cooldownDays ≠ 0 ∨ asked.count day ≤ rule.maxPerDay.toNat ∨
        ∀ other ≠ day, ¬[day, other, day].Sublist asked := by
  intro service asked
  have hdays := daysOf_run_fresh requests glossary metrics settings down acts hrule
  rw [hdays]
  by_cases hcap : 0 < rule.maxPerDay
  · exact rule.limits.count_le_maxPerDay_iff hcap day asked
  · have hnone : asked = [] :=
      rowOf_eq_nil (Rulebook.isKeyed_ofRequests requests) hrule hcap acts
    change (rule.limits.admissions .empty asked).1.count day ≤ _ ↔ _
    rw [hnone]
    simp [Limits.admissions]

/-- A rule that always matches.  It may alert once a day, and has no cooldown. -/
def onceADay : Rule where
  id := "daily"
  version := 1
  tenant := "acme"
  enabled := true
  description := none
  category := ""
  priority := 0
  severity := 0
  cooldownDays := 0
  maxPerDay := 1
  tags := .empty
  logic := .group .all []
  messages := ⟨"en", [⟨none, "hello", 1⟩]⟩

def onceADayRequests : List ChangeRequest :=
  [⟨.create onceADay, .system, ⟨⟨0, 0⟩, ⟨"a"⟩, ⟨"b"⟩⟩⟩]

def epoch : Day := ⟨0, by decide, by decide⟩

def dayAfterEpoch : Day := ⟨1, by decide, by decide⟩

/-- A day, the next one, and the first one again. -/
def backAndForth : List Act :=
  [.evaluate "ada" epoch "acme", .evaluate "ada" dayAfterEpoch "acme",
    .evaluate "ada" epoch "acme"]

theorem cap_kept_iff_onceADay :
    ∃ rule, (Registry.ofRequests onceADayRequests).book.rule? "daily" = some rule ∧
      let service := fresh (.ofRequests onceADayRequests) .empty .empty .initial []
      let asked := rowOf backAndForth service ⟨"acme", "ada", "daily"⟩
      (((run Ledger.store backAndForth service).2.alerts.daysOf ⟨"acme", "ada", "daily"⟩).count
          epoch ≤ rule.maxPerDay.toNat ↔
        rule.cooldownDays ≠ 0 ∨ asked.count epoch ≤ rule.maxPerDay.toNat ∨
          ∀ other ≠ epoch, ¬[epoch, other, epoch].Sublist asked) := by
  have hfound : ((Registry.ofRequests onceADayRequests).book.rule? "daily").isSome = true := by
    decide +kernel
  obtain ⟨rule, hrule⟩ := Option.isSome_iff_exists.1 hfound
  exact ⟨rule, hrule, cap_kept_iff onceADayRequests .empty .empty .initial [] backAndForth
    ⟨"acme", "ada", "daily"⟩ rule hrule epoch⟩

/-- Coming back to a day, a rule alerts on it twice, though it may do so once. -/
theorem cap_exceeded_backAndForth :
    let service := fresh (.ofRequests onceADayRequests) .empty .empty .initial []
    (service.registry.book.rule? "daily").map Rule.maxPerDay = some 1 ∧
      ((run Ledger.store backAndForth service).2.alerts.daysOf
        ⟨"acme", "ada", "daily"⟩).count epoch = 2 := by
  decide +kernel

end Service

end MetricAlerts
