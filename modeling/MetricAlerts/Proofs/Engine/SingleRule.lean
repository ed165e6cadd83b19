import MetricAlerts.Proofs.Engine.Footprint

/-!
# One rule of a pass

In a pass, every rule has a key of its own, so it finds its history as it was
before the pass, and no other rule writes to it.  So of the report, of the
alerts and of the stored histories one part belongs to each enabled rule, and
this part is what the rule comes to by itself.
-/

namespace MetricAlerts

namespace Engine

variable {engine : Engine} {user : String} {day : Day} {snapshot : Snapshot} {tenant : String}
  {rule : Rule} {rules : List Rule} {key : AlertKey}

/-- Rules with distinct keys find the histories as they were before the pass. -/
theorem settleRules_eq_map (engine : Engine) (day : Day) (snapshot : Snapshot)
    (hkeys : (rules.map (Rule.keyFor · user)).Nodup) (stored : AlertKey → Versioned) :
    (engine.settleRules user day snapshot rules stored).1 =
      rules.map fun rule =>
        (rule.settle engine.glossary user day snapshot (stored (rule.keyFor user))).1 := by
  induction rules generalizing stored with
  | nil => rfl
  | cons rule rules ih =>
      obtain ⟨hnew, hrest⟩ := List.nodup_cons.1 hkeys
      simp only [settleRules, List.map_cons]
      rw [ih hrest]
      congr 1
      apply List.map_congr_left
      intro other hother
      have hne : other.keyFor user ≠ rule.keyFor user := by
        intro hkey
        exact hnew (List.mem_map.2 ⟨other, hother, hkey⟩)
      rw [Function.update_of_ne hne]

/-- A key without a rule is left alone. -/
theorem settleRules_stored_of_notMem (engine : Engine) (day : Day) (snapshot : Snapshot)
    (hkey : key ∉ rules.map (Rule.keyFor · user)) (stored : AlertKey → Versioned) :
    (engine.settleRules user day snapshot rules stored).2 key = stored key := by
  induction rules generalizing stored with
  | nil => rfl
  | cons rule rules ih =>
      rw [List.map_cons, List.mem_cons, not_or] at hkey
      simp only [settleRules]
      rw [ih hkey.2, Function.update_of_ne hkey.1]

theorem settleRules_stored_of_mem (engine : Engine) (day : Day) (snapshot : Snapshot)
    (hkeys : (rules.map (Rule.keyFor · user)).Nodup) (hrule : rule ∈ rules)
    (stored : AlertKey → Versioned) :
    (engine.settleRules user day snapshot rules stored).2 (rule.keyFor user) =
      (rule.settle engine.glossary user day snapshot (stored (rule.keyFor user))).2 := by
  induction rules generalizing stored with
  | nil => cases hrule
  | cons first rules ih =>
      obtain ⟨hnew, hrest⟩ := List.nodup_cons.1 hkeys
      simp only [settleRules]
      rcases List.mem_cons.1 hrule with rfl | hrule
      · rw [settleRules_stored_of_notMem engine day snapshot hnew, Function.update_self]
      · have hne : rule.keyFor user ≠ first.keyFor user := by
          intro hkey
          exact hnew (List.mem_map.2 ⟨rule, hrule, hkey⟩)
        rw [ih hrest hrule, Function.update_of_ne hne]

/-! ## What is reported of one rule -/

/-- What a rule comes to in a pass, be it left out or evaluated. -/
def outcome (engine : Engine) (user : String) (day : Day) (snapshot : Snapshot)
    (stored : Versioned) (rule : Rule) : RuleOutcome :=
  match engine.leaveOut? rule with
  | some entry => ⟨entry, none⟩
  | none => (rule.settle engine.glossary user day snapshot stored).1

/-- The history that a rule is given in a pass, if it alerts. -/
def renewal? (engine : Engine) (user : String) (day : Day) (snapshot : Snapshot)
    (history : History) (rule : Rule) : Option History :=
  if engine.isFit rule then rule.renewal? user day snapshot history else none

theorem leaveOut?_of_isFit (hfit : engine.isFit rule = true) : engine.leaveOut? rule = none := by
  rw [isFit, Option.isNone_iff_eq_none] at hfit
  rw [leaveOut?, hfit, Option.map_none]

theorem exists_leaveOut? (hunfit : ¬engine.isFit rule = true) :
    ∃ fault : RuleFault, engine.leaveOut? rule = some (.skipped rule fault.message) := by
  rw [isFit, Option.isNone_iff_eq_none] at hunfit
  obtain ⟨fault, hfault⟩ := Option.ne_none_iff_exists'.1 hunfit
  exact ⟨fault, by rw [leaveOut?, hfault, Option.map_some]⟩

/-- Among rules with distinct ids, one alone has the id of a given rule. -/
theorem filter_id_eq (hids : (rules.map Rule.id).Nodup) (hrule : rule ∈ rules) :
    rules.filter (fun other => other.id = rule.id) = [rule] := by
  induction rules with
  | nil => cases hrule
  | cons first rules ih =>
      obtain ⟨hnew, hrest⟩ := List.nodup_cons.1 hids
      rcases List.mem_cons.1 hrule with rfl | hrule
      · have hothers : rules.filter (fun other => other.id = rule.id) = [] := by
          apply List.filter_eq_nil_iff.2
          intro other hother hid
          exact hnew (List.mem_map.2 ⟨other, hother, of_decide_eq_true hid⟩)
        rw [List.filter_cons_of_pos (by simp), hothers]
      · have hne : first.id ≠ rule.id := by
          intro hid
          exact hnew (List.mem_map.2 ⟨rule, hrule, hid.symm⟩)
        rw [List.filter_cons_of_neg (by simpa using hne), ih hrest hrule]

/-- Of all that rules with distinct ids come to, one thing at most carries the
id of a given rule. -/
theorem filter_filterMap {α : Type} (name : α → String) {find : Rule → Option α}
    (hids : (rules.map Rule.id).Nodup) (hrule : rule ∈ rules)
    (hname : ∀ rule, ∀ found ∈ find rule, name found = rule.id) :
    (rules.filterMap find).filter (fun found => name found = rule.id) = (find rule).toList := by
  calc (rules.filterMap find).filter (fun found => name found = rule.id)
    _ = rules.filterMap fun other => if other.id = rule.id then find other else none := by
      rw [List.filter_filterMap]
      congr 1
      funext other
      cases hfind : find other with
      | none => simp
      | some found => simp [Option.filter, hname other found hfind]
    _ = (rules.filter fun other => other.id = rule.id).filterMap find := by
      rw [List.filterMap_filter]
      simp
    _ = (find rule).toList := by
      rw [filter_id_eq hids hrule]
      cases hfind : find rule <;> simp [hfind]

end Engine

theorem Rule.rule_entry_settle (rule : Rule) (glossary : Glossary) (user : String) (day : Day)
    (snapshot : Snapshot) (stored : Versioned) :
    (rule.settle glossary user day snapshot stored).1.entry.rule = rule.id := by
  rw [settle]
  cases rule.verdict user day snapshot with
  | skipped fault => rfl
  | notMatched trace => rfl
  | matched trace message =>
      dsimp only
      rcases rule.limits.decision day stored with ⟨admission, later⟩
      cases admission <;> rfl

namespace Engine

variable {engine : Engine} {user : String} {day : Day} {snapshot : Snapshot} {tenant : String}
  {rule : Rule}

/-- The rules that are evaluated, among all that are enabled. -/
theorem settleRules_fitRules (hbook : engine.book.IsKeyed) (user : String) (day : Day)
    (snapshot : Snapshot) (tenant : String) (stored : AlertKey → Versioned) :
    (engine.settleRules user day snapshot (engine.fitRules tenant) stored).1 =
      (engine.book.enabledRules tenant).filterMap fun rule =>
        if engine.isFit rule then
          some (rule.settle engine.glossary user day snapshot (stored (rule.keyFor user))).1
        else none := by
  rw [settleRules_eq_map engine day snapshot (nodup_keys_fitRules hbook user tenant),
    ← List.filterMap_eq_map, fitRules, List.filterMap_filter]
  rfl

theorem rule_of_mem_leaveOut? {entry : RuleEntry} (hentry : entry ∈ engine.leaveOut? rule) :
    entry.rule = rule.id := by
  obtain ⟨fault, -, rfl⟩ := Option.map_eq_some_iff.1 hentry
  rfl

/-- A pass reports every enabled rule once. -/
theorem filter_rules_of_rule (hbook : engine.book.IsKeyed) (user : String) (day : Day)
    (snapshot : Snapshot) (hrule : rule ∈ engine.book.enabledRules tenant)
    (stored : AlertKey → Versioned) :
    ((engine.book.enabledRules tenant).filterMap engine.leaveOut? ++
        (engine.settleRules user day snapshot (engine.fitRules tenant) stored).1.map
          RuleOutcome.entry).filter (fun entry => entry.rule = rule.id) =
      [(engine.outcome user day snapshot (stored (rule.keyFor user)) rule).entry] := by
  have hids : ((engine.book.enabledRules tenant).map Rule.id).Nodup :=
    hbook.nodup_list tenant .onlyEnabled
  rw [List.filter_append, settleRules_fitRules hbook, List.map_filterMap,
    filter_filterMap RuleEntry.rule hids hrule fun _ _ => rule_of_mem_leaveOut?,
    filter_filterMap RuleEntry.rule hids hrule, outcome]
  · by_cases hfit : engine.isFit rule = true
    · simp [leaveOut?_of_isFit hfit, hfit]
    · obtain ⟨fault, hleft⟩ := exists_leaveOut? hfit
      simp [hleft, hfit]
  · intro other entry hentry
    obtain ⟨outcome, houtcome, rfl⟩ := Option.map_eq_some_iff.1 hentry
    split at houtcome
    · cases houtcome
      exact Rule.rule_entry_settle ..
    · cases houtcome

/-- A pass sends at most one alert for a rule. -/
theorem filter_events_of_rule (hbook : engine.book.IsKeyed) (user : String) (day : Day)
    (snapshot : Snapshot) (hrule : rule ∈ engine.book.enabledRules tenant)
    (stored : AlertKey → Versioned) :
    ((engine.settleRules user day snapshot (engine.fitRules tenant) stored).1.filterMap
        RuleOutcome.event).filter (fun event => event.rule = rule.id) =
      (engine.outcome user day snapshot (stored (rule.keyFor user)) rule).event.toList := by
  have hids : ((engine.book.enabledRules tenant).map Rule.id).Nodup :=
    hbook.nodup_list tenant .onlyEnabled
  rw [settleRules_fitRules hbook, List.filterMap_filterMap,
    filter_filterMap AlertEvent.rule hids hrule, outcome]
  · by_cases hfit : engine.isFit rule = true
    · simp [leaveOut?_of_isFit hfit, hfit]
    · obtain ⟨fault, hleft⟩ := exists_leaveOut? hfit
      simp [hleft, hfit]
  · intro other event hevent
    obtain ⟨outcome, houtcome, hevent⟩ := Option.bind_eq_some_iff.1 hevent
    split at houtcome
    · cases houtcome
      exact congrArg AlertKey.rule (Rule.key_of_mem_settle hevent)
    · cases houtcome

/-- A pass renews the history of a rule if the rule alerts. -/
theorem stored_of_rule (hbook : engine.book.IsKeyed) (user : String) (day : Day)
    (snapshot : Snapshot) (hrule : rule ∈ engine.book.enabledRules tenant)
    (stored : AlertKey → Versioned) :
    (engine.settleRules user day snapshot (engine.fitRules tenant) stored).2
        (rule.keyFor user) =
      (stored (rule.keyFor user)).renew
        (engine.renewal? user day snapshot (stored (rule.keyFor user)).history rule) := by
  by_cases hfit : engine.isFit rule = true
  · have hmem : rule ∈ engine.fitRules tenant := List.mem_filter.2 ⟨hrule, hfit⟩
    rw [settleRules_stored_of_mem engine day snapshot (nodup_keys_fitRules hbook user tenant)
      hmem, Rule.settle_stored, renewal?, if_pos hfit]
  · have hfound : engine.book.rule? (rule.keyFor user).rule = some rule :=
      hbook.rule?_eq_some_iff.2 ⟨(Rulebook.mem_list.1 hrule).1, rfl⟩
    rw [settleRules_stored_of_notMem, renewal?, if_neg hfit]
    · rfl
    · intro hkey
      obtain ⟨fit, hmem, hkey⟩ := List.mem_map.1 hkey
      rw [eq_of_mem_fitRules hbook hfound hmem hkey] at hmem
      exact hfit (mem_fitRules hmem).2.2

variable {other : Engine} {second : Snapshot}

theorem isFit_congr
    (hglossary : ∀ metric, engine.glossary.find? metric = other.glossary.find? metric)
    (rule : Rule) : engine.isFit rule = other.isFit rule :=
  congrArg Option.isNone (rule.evaluationFault?_congr hglossary)

theorem leaveOut?_congr
    (hglossary : ∀ metric, engine.glossary.find? metric = other.glossary.find? metric)
    (rule : Rule) : engine.leaveOut? rule = other.leaveOut? rule :=
  congrArg (Option.map _) (rule.evaluationFault?_congr hglossary)

theorem outcome_congr {stored kept : Versioned}
    (hglossary : ∀ metric, engine.glossary.find? metric = other.glossary.find? metric)
    (halike : engine.isFit rule = true → snapshot.AlikeOn id second rule.references)
    (hhistory : stored.history = kept.history) :
    engine.outcome user day snapshot stored rule = other.outcome user day second kept rule := by
  rw [outcome, outcome, ← leaveOut?_congr hglossary]
  by_cases hfit : engine.isFit rule = true
  · rw [leaveOut?_of_isFit hfit]
    simpa using Rule.settle_alike user day (halike hfit) hglossary hhistory
  · obtain ⟨fault, hleft⟩ := exists_leaveOut? hfit
    rw [hleft]

theorem renewal?_congr {history : History}
    (hglossary : ∀ metric, engine.glossary.find? metric = other.glossary.find? metric)
    (halike : engine.isFit rule = true → snapshot.AlikeOn id second rule.references) :
    engine.renewal? user day snapshot history rule =
      other.renewal? user day second history rule := by
  rw [renewal?, renewal?, ← isFit_congr hglossary]
  by_cases hfit : engine.isFit rule = true
  · rw [if_pos hfit, if_pos hfit, Rule.renewal?_alike user day history (halike hfit)]
  · rw [if_neg hfit, if_neg hfit]

end Engine

end MetricAlerts
