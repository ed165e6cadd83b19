import Mathlib.Algebra.BigOperators.Group.Finset.Basic
import Mathlib.Algebra.Ring.Nat
import MetricAlerts.Alert.Log
import MetricAlerts.Proofs.Calendar.Range

/-!
# Daily counts

The alerts in scope are counted once, by rule and day; which rules have a series
and which days it has are found apart from that.  The parts fit: a point shows
the number of logged alerts of its rule and day, and no alert in scope is left
out.
-/

namespace MetricAlerts

variable {log : AlertLog} {alert : FiredAlert} {rule : String} {day : Day}

namespace AlertTally

variable {tally : AlertTally}

theorem countOn_add : (tally.add alert).countOn rule day =
    tally.countOn rule day + if alert.rule = rule ∧ alert.day = day then 1 else 0 := by
  rw [countOn, add, Table.find?_insert]
  by_cases hsame : alert.rule = rule ∧ alert.day = day
  · rw [if_pos hsame, if_pos (Prod.ext hsame.1.symm hsame.2.symm), hsame.1, hsame.2]
    rfl
  · have hother : (rule, day) ≠ (alert.rule, alert.day) := by
      intro heq
      exact hsame ⟨(congrArg Prod.fst heq).symm, (congrArg Prod.snd heq).symm⟩
    rw [if_neg hsame, if_neg hother]
    rfl

theorem mem_rules_add : rule ∈ (tally.add alert).rules.items ↔
    rule ∈ tally.rules.items ∨ alert.rule = rule := by
  have hkeys (key : String × Day) :
      key ∈ (tally.add alert).keys ↔ key = (alert.rule, alert.day) ∨ key ∈ tally.keys :=
    Table.mem_keys_put
  simp only [rules, Ascending.mem_ofList, List.mem_map, hkeys]
  constructor
  · rintro ⟨key, rfl | hkey, rfl⟩
    · exact .inr rfl
    · exact .inl ⟨key, hkey, rfl⟩
  · rintro (⟨key, hkey, rfl⟩ | rfl)
    · exact ⟨key, .inr hkey, rfl⟩
    · exact ⟨_, .inl rfl, rfl⟩

end AlertTally

namespace AlertLog

theorem tally_concat (log : AlertLog) (alert : FiredAlert) :
    tally (log ++ [alert]) = (tally log).add alert :=
  List.foldl_concat ..

theorem countOn_tally (log : AlertLog) (rule : String) (day : Day) :
    log.tally.countOn rule day =
      log.countP fun alert => alert.rule = rule ∧ alert.day = day := by
  induction log using List.reverseRecOn with
  | nil => rfl
  | append_singleton log alert ih =>
      rw [tally_concat, AlertTally.countOn_add, ih, List.countP_append, List.countP_singleton]
      simp only [decide_eq_true_eq]

theorem mem_rules_tally : rule ∈ log.tally.rules.items ↔ ∃ alert ∈ log, alert.rule = rule := by
  induction log using List.reverseRecOn with
  | nil => simp [tally, AlertTally.rules, Table.keys, Table.empty]
  | append_singleton log alert ih =>
      rw [tally_concat, AlertTally.mem_rules_add, ih]
      constructor
      · rintro (⟨other, hother, hrule⟩ | hrule)
        · exact ⟨other, List.mem_append_left _ hother, hrule⟩
        · exact ⟨alert, List.mem_append_right _ List.mem_cons_self, hrule⟩
      · rintro ⟨other, hother, hrule⟩
        rcases List.mem_append.1 hother with hother | hother
        · exact .inl ⟨other, hother, hrule⟩
        · rw [List.mem_singleton.1 hother] at hrule
          exact .inr hrule

end AlertLog

/-- To count by distinct keys, among which every key is, is to count. -/
theorem sum_map_countP {α κ : Type} [DecidableEq κ] (key : α → κ) {keys : List κ}
    (hkeys : keys.Nodup) {items : List α} (hitems : ∀ item ∈ items, key item ∈ keys) :
    (keys.map fun k => items.countP fun item => key item = k).sum = items.length := by
  have hcount (k : κ) :
      (items.countP fun item => key item = k) = (items.map key : Multiset κ).count k := by
    rw [Multiset.coe_count, List.count_eq_countP, List.countP_map]
    rfl
  simp only [hcount]
  rw [← List.sum_toFinset _ hkeys, Multiset.sum_count_eq_card, Multiset.coe_card,
    List.length_map]
  intro k hk
  obtain ⟨item, hitem, rfl⟩ := List.mem_map.1 (Multiset.mem_coe.1 hk)
  exact List.mem_toFinset.2 (hitems item hitem)

/-- Counts by rule and day add up to the number of alerts, if no rule and no day
comes twice and all rules and days of alerts are among them. -/
theorem AlertLog.sum_countOn_tally (log : AlertLog) {rules : List String} {days : List Day}
    (hrules : rules.Nodup) (hdays : days.Nodup) (hlog : ∀ alert ∈ log, alert.rule ∈ rules)
    (hin : ∀ alert ∈ log, alert.day ∈ days) :
    (rules.map fun rule => (days.map fun day => log.tally.countOn rule day).sum).sum =
      log.length := by
  rw [← sum_map_countP FiredAlert.rule hrules hlog]
  congr 1
  apply List.map_congr_left
  intro rule _
  let own : AlertLog := log.filter fun alert => alert.rule = rule
  calc
    (days.map fun day => log.tally.countOn rule day).sum =
        (days.map fun day => own.countP fun alert => alert.day = day).sum := by
      congr 1
      apply List.map_congr_left
      intro day _
      rw [countOn_tally, List.countP_filter]
      apply List.countP_congr
      simp [and_comm]
    _ = own.length :=
      sum_map_countP FiredAlert.day hdays fun alert halert => hin alert (List.mem_filter.1 halert).1
    _ = log.countP fun alert => alert.rule = rule := List.countP_eq_length_filter.symm

/-! ## Counts of a range -/

/-- What daily counts say of a log. -/
structure AlertCounts.TellsOf (counts : AlertCounts) (log : AlertLog) (start finish : Day)
    (tenant : String) (rules : Option (List String)) : Prop where
  range : counts.start = start ∧ counts.finish = finish
  /-- Every series has all days of the range, one after the other. -/
  days : ∀ series ∈ counts.series, series.points.map (fun point => point.day.number) =
    (List.range (finish.number - start.number + 1).toNat).map
      fun (offset : Nat) => start.number + offset
  count : ∀ series ∈ counts.series, ∀ point ∈ series.points,
    point.count = log.countP fun alert =>
      alert.tenant = tenant ∧ alert.rule = series.rule ∧ alert.day = point.day
  given : ∀ ids ∈ rules, counts.series.map CountSeries.rule = ids
  ascending : rules = none → (counts.series.map CountSeries.rule).Pairwise (· < ·)
  alerted : rules = none → ∀ rule, rule ∈ counts.series.map CountSeries.rule ↔
    ∃ alert ∈ log, alert.tenant = tenant ∧ alert.rule = rule ∧
      start ≤ alert.day ∧ alert.day ≤ finish
  /-- No alert is left out or counted twice. -/
  total : (∀ ids ∈ rules, ids.Nodup) →
    (counts.series.map fun series => (series.points.map DailyCount.count).sum).sum =
      log.countP fun alert => alert.tenant = tenant ∧ start ≤ alert.day ∧ alert.day ≤ finish ∧
        ∀ ids ∈ rules, alert.rule ∈ ids

namespace AlertLog

variable {start finish : Day} {tenant : String} {rules : Option (List String)}

theorem all_contains_iff : rules.all (·.contains rule) = true ↔ ∀ ids ∈ rules, rule ∈ ids := by
  cases rules <;> simp

theorem mem_within : alert ∈ log.within start finish tenant rules ↔
    alert ∈ log ∧ alert.tenant = tenant ∧ start ≤ alert.day ∧ alert.day ≤ finish ∧
      ∀ ids ∈ rules, alert.rule ∈ ids := by
  rw [within, List.mem_filter, decide_eq_true_eq, all_contains_iff]

/-- In a range, and among the rules that are given, nothing is left out by the
scope. -/
theorem countOn_tally_within (hrule : ∀ ids ∈ rules, rule ∈ ids) (hday : day ∈ start.span finish) :
    (log.within start finish tenant rules).tally.countOn rule day =
      log.countP fun alert => alert.tenant = tenant ∧ alert.rule = rule ∧ alert.day = day := by
  rw [Day.mem_span] at hday
  rw [countOn_tally, within, List.countP_filter]
  apply List.countP_congr
  intro alert _
  simp only [Bool.and_eq_true, decide_eq_true_eq, all_contains_iff]
  constructor
  · rintro ⟨⟨hown, hon⟩, htenant, -⟩
    exact ⟨htenant, hown, hon⟩
  · rintro ⟨htenant, rfl, rfl⟩
    exact ⟨⟨rfl, rfl⟩, htenant, hday.1, hday.2, hrule⟩

/-- The rules that get a series are among those that are given. -/
theorem mem_of_mem_getD {ids : List String} (hrule : rule ∈ rules.getD ids) :
    ∀ given ∈ rules, rule ∈ given := by
  intro given hgiven
  rwa [Option.mem_def.1 hgiven] at hrule

theorem map_rule_series (tally : AlertTally) (days : List Day) (ids : List String) :
    (ids.map (tally.series days)).map CountSeries.rule = ids := by
  rw [List.map_map]
  exact List.map_id ids

theorem sum_series_within (hrules : ∀ ids ∈ rules, ids.Nodup) :
    let tally := (log.within start finish tenant rules).tally
    (((rules.getD tally.rules.items).map (tally.series (start.span finish))).map fun series =>
        (series.points.map DailyCount.count).sum).sum =
      (log.within start finish tenant rules).length := by
  intro tally
  have hnodup : (rules.getD tally.rules.items).Nodup := by
    cases rules with
    | none => exact tally.rules.nodup_items
    | some ids => exact hrules ids rfl
  have hown : ∀ alert ∈ log.within start finish tenant rules,
      alert.rule ∈ rules.getD tally.rules.items := by
    intro alert halert
    cases rules with
    | none => exact mem_rules_tally.2 ⟨alert, halert, rfl⟩
    | some ids => exact (mem_within.1 halert).2.2.2.2 ids rfl
  have hon : ∀ alert ∈ log.within start finish tenant rules, alert.day ∈ start.span finish := by
    intro alert halert
    obtain ⟨-, -, hstart, hfinish, -⟩ := mem_within.1 halert
    exact Day.mem_span.2 ⟨hstart, hfinish⟩
  rw [← sum_countOn_tally _ hnodup (Day.nodup_span start finish) hown hon]
  simp only [List.map_map, AlertTally.series, Function.comp_def]
  rfl

theorem tellsOf_counts (log : AlertLog) (start finish : Day) (tenant : String)
    (rules : Option (List String)) :
    let tally := (log.within start finish tenant rules).tally
    AlertCounts.TellsOf
      ⟨start, finish, (rules.getD tally.rules.items).map (tally.series (start.span finish))⟩
      log start finish tenant rules := by
  intro tally
  constructor
  · exact ⟨rfl, rfl⟩
  · intro series hseries
    obtain ⟨rule, -, rfl⟩ := List.mem_map.1 hseries
    rw [← Day.map_number_span, AlertTally.series, List.map_map]
    rfl
  · intro series hseries point hpoint
    obtain ⟨rule, hrule, rfl⟩ := List.mem_map.1 hseries
    obtain ⟨day, hday, rfl⟩ := List.mem_map.1 hpoint
    exact countOn_tally_within (mem_of_mem_getD hrule) hday
  · intro ids hids
    rw [map_rule_series, Option.mem_def.1 hids, Option.getD_some]
  · rintro rfl
    rw [map_rule_series]
    exact tally.rules.ascending
  · rintro rfl rule
    rw [map_rule_series, Option.getD_none, mem_rules_tally]
    constructor
    · rintro ⟨alert, halert, hrule⟩
      obtain ⟨hlog, htenant, hstart, hfinish, -⟩ := mem_within.1 halert
      exact ⟨alert, hlog, htenant, hrule, hstart, hfinish⟩
    · rintro ⟨alert, hlog, htenant, hrule, hstart, hfinish⟩
      exact ⟨alert, mem_within.2 ⟨hlog, htenant, hstart, hfinish, by simp⟩, hrule⟩
  · intro hrules
    rw [sum_series_within hrules, within, ← List.countP_eq_length_filter]
    simp only [all_contains_iff]

/-- Daily counts are exact.  There is a series for each rule that is given, in
the given order, or else for each one that alerted in the range, by id, with a
point for every day from the start to the end; the points show how many alerts
of the tenant were logged, and together they show each alert in scope once.  No
day is looked for beyond the ends of the calendar. -/
theorem counts_are_exact (log : AlertLog) (tenant : String) (rules : Option (List String))
    (hrange : start ≤ finish) :
    (∃ counts, log.counts start finish tenant rules = .ok counts ∧
      counts.TellsOf log start finish tenant rules) ∧
    ∀ offset : Nat, (offset : Int) ≤ finish.since start → ∃ day, start.add? offset = some day := by
  refine ⟨⟨_, if_neg ?_, tellsOf_counts log start finish tenant rules⟩, ?_⟩
  · rw [Day.lt_def]
    exact Int.not_lt.2 hrange
  · exact fun _ => Day.exists_add?_of_le

/-- Alerts on the last two days of the calendar, one of them of another tenant. -/
def lastAlerts : AlertLog :=
  [⟨"sleep", "ada", "acme", Day.last, "0"⟩, ⟨"steps", "ada", "acme", Day.last.back 1, "0"⟩,
    ⟨"sleep", "bob", "acme", Day.last, "0"⟩, ⟨"sleep", "eve", "brio", Day.last, "0"⟩]

/-- At the end of the calendar the counts of a rule that alerted and of one that
did not are exact. -/
theorem counts_are_exact_lastAlerts :
    Day.last.back 1 ≤ Day.last ∧
      ((∃ counts,
        lastAlerts.counts (Day.last.back 1) Day.last "acme" (some ["quiet", "sleep"]) =
            .ok counts ∧
          counts.TellsOf lastAlerts (Day.last.back 1) Day.last "acme" (some ["quiet", "sleep"])) ∧
        ∀ offset : Nat, (offset : Int) ≤ Day.last.since (Day.last.back 1) →
          ∃ day, (Day.last.back 1).add? offset = some day) := by
  have hrange : Day.last.back 1 ≤ Day.last := by decide
  exact ⟨hrange, counts_are_exact lastAlerts "acme" (some ["quiet", "sleep"]) hrange⟩

example : lastAlerts.counts (Day.last.back 1) Day.last "acme" (some ["quiet", "sleep"]) =
    .ok ⟨Day.last.back 1, Day.last,
      [⟨"quiet", [⟨Day.last.back 1, 0⟩, ⟨Day.last, 0⟩]⟩,
        ⟨"sleep", [⟨Day.last.back 1, 0⟩, ⟨Day.last, 2⟩]⟩]⟩ := by
  rfl

end AlertLog

end MetricAlerts
