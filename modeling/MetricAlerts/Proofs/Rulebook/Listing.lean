import Mathlib.Data.List.Sort
import MetricAlerts.Proofs.Rule.Order
import MetricAlerts.Proofs.Rulebook.Changes

/-!
# Lists of rules

A book is gone through in no particular order, and the lists that are drawn from
it do not show which one it was.  The list of a tenant has the latest version of
each of its rules that pass the filter, once, in the order of evaluation.  The
lists of all tenants have every rule once.  And two books with the same latest
versions give the same lists, whatever has happened to them before.
-/

namespace MetricAlerts.Rulebook

variable {book other : Rulebook} {tenant : String} {filter : RuleFilter} {rule : Rule}

/-- A book that came about by requests.  In which order it is gone through is left
open. -/
def IsReachable (book : Rulebook) : Prop :=
  ∃ requests, book.entries.Perm (Registry.ofRequests requests).book.entries

/-- The last revision under the id of a rule is of this very rule. -/
def IsLatest (book : Rulebook) (rule : Rule) : Prop :=
  ∃ revision, (book.revisions rule.id).getLast? = some revision ∧ revision.rule = rule

theorem IsReachable.isKeyed (hbook : book.IsReachable) : book.IsKeyed := by
  obtain ⟨requests, hperm⟩ := hbook
  intro id lineage hlineage
  rw [Table.find?_eq_of_perm hperm] at hlineage
  exact isKeyed_ofRequests requests id lineage hlineage

theorem IsKeyed.mem_rules_iff (hbook : book.IsKeyed) : rule ∈ book.rules ↔ book.IsLatest rule := by
  have hfound : rule ∈ book.rules ↔ book.rule? rule.id = some rule :=
    (and_iff_left rfl).symm.trans hbook.rule?_eq_some_iff.symm
  rw [hfound, IsLatest, rule?, revisions]
  cases book.find? rule.id with
  | none => simp
  | some lineage => simp [Lineage.revisions, Lineage.rule]

theorem accepts_iff : filter.accepts rule = true ↔
    (∀ enabled ∈ filter.enabled, rule.enabled = enabled) ∧
      ∀ category ∈ filter.category, rule.category = category := by
  rw [RuleFilter.accepts, Bool.and_eq_true, Option.all_eq_true, Option.all_eq_true]
  simp only [beq_iff_eq, Option.mem_def]

theorem accepts_none (rule : Rule) : RuleFilter.none.accepts rule = true := rfl

theorem IsKeyed.pairwise_list (hbook : book.IsKeyed) (tenant : String) (filter : RuleFilter) :
    (book.list tenant filter).Pairwise Rule.IsBefore :=
  Rule.pairwise_isBefore ((List.filter_sublist.map Rule.id).nodup hbook.nodup_rules)

theorem mem_tenants : tenant ∈ book.tenants.items ↔ ∃ rule ∈ book.rules, rule.tenant = tenant := by
  rw [tenants, Ascending.mem_ofList, List.mem_map]

theorem all_perm_rules (book : Rulebook) : book.all.Perm book.rules :=
  List.mergeSort_perm ..

/-- Every rule is in the list of its tenant and in no other. -/
theorem IsKeyed.flatMap_list_perm (hbook : book.IsKeyed) :
    (book.tenants.items.flatMap fun tenant => book.list tenant .none).Perm book.all := by
  have hnodup : (book.tenants.items.flatMap fun tenant => book.list tenant .none).Nodup := by
    refine List.nodup_flatMap.2 ⟨fun tenant _ => (hbook.nodup_list tenant .none).of_map Rule.id, ?_⟩
    apply book.tenants.nodup_items.imp
    intro tenant other hne rule hrule hother
    exact hne ((mem_list.1 hrule).2.1.symm.trans (mem_list.1 hother).2.1)
  refine ((List.perm_ext_iff_of_nodup hnodup (hbook.nodup_rules.of_map Rule.id)).2
    fun rule => ?_).trans book.all_perm_rules.symm
  simp only [List.mem_flatMap, mem_list, mem_tenants]
  constructor
  · rintro ⟨tenant, -, hrule, -⟩
    exact hrule
  · intro hrule
    exact ⟨rule.tenant, ⟨rule, hrule, rfl⟩, hrule, rfl, accepts_none rule⟩

theorem IsKeyed.pairwise_all (hbook : book.IsKeyed) :
    book.all.Pairwise fun a b => a.id < b.id := by
  have hdistinct : book.all.Pairwise fun a b => a.id ≠ b.id :=
    List.pairwise_map.1 ((book.all_perm_rules.map Rule.id).nodup_iff.2 hbook.nodup_rules)
  have hordered : book.all.Pairwise fun a b => decide (a.id ≤ b.id) = true := by
    apply List.pairwise_mergeSort
    · intro a b c hfirst hsecond
      rw [decide_eq_true_eq] at hfirst hsecond ⊢
      exact String.le_trans hfirst hsecond
    · intro a b
      rw [Bool.or_eq_true, decide_eq_true_eq, decide_eq_true_eq]
      exact String.le_total a.id b.id
  apply (hordered.and hdistinct).imp
  rintro a b ⟨hle, hne⟩
  exact Std.lt_of_le_of_ne (of_decide_eq_true hle) hne

section Same

variable (hbook : book.IsKeyed) (hother : other.IsKeyed)
  (hsame : ∀ rule, other.IsLatest rule ↔ book.IsLatest rule)

include hbook hother hsame

theorem mem_rules_congr : rule ∈ other.rules ↔ rule ∈ book.rules := by
  rw [hother.mem_rules_iff, hsame, ← hbook.mem_rules_iff]

theorem list_congr (tenant : String) (filter : RuleFilter) :
    other.list tenant filter = book.list tenant filter := by
  apply (hother.pairwise_list tenant filter).eq_of_mem_iff (hbook.pairwise_list tenant filter)
  intro rule
  rw [mem_list, mem_list, mem_rules_congr hbook hother hsame]

theorem all_congr : other.all = book.all := by
  have hirrefl : Std.Irrefl fun a b : Rule => a.id < b.id := ⟨fun a => String.lt_irrefl a.id⟩
  have hantisymm : Std.Antisymm fun a b : Rule => a.id < b.id :=
    ⟨fun _ _ hfirst hback => absurd hback (String.lt_asymm hfirst)⟩
  apply hother.pairwise_all.eq_of_mem_iff hbook.pairwise_all
  intro rule
  rw [other.all_perm_rules.mem_iff, book.all_perm_rules.mem_iff,
    mem_rules_congr hbook hother hsame]

end Same

/-- The list of a tenant has the latest version of each rule of the tenant that
passes the filter and nothing else, no rule twice, strictly by descending priority and
ascending id.  The lists of all tenants together are all rules.  Books with the
same latest versions have the same lists, by whatever requests they came about and
in whatever order they are gone through. -/
theorem lists_are_canonical (hbook : book.IsReachable) :
    (∀ tenant filter, (book.list tenant filter).Pairwise Rule.IsBefore ∧
      ((book.list tenant filter).map Rule.id).Nodup ∧
      ∀ rule, rule ∈ book.list tenant filter ↔
        book.IsLatest rule ∧ rule.tenant = tenant ∧
          (∀ enabled ∈ filter.enabled, rule.enabled = enabled) ∧
          ∀ category ∈ filter.category, rule.category = category) ∧
    (book.tenants.items.flatMap fun tenant => book.list tenant .none).Perm book.all ∧
    ∀ other : Rulebook, other.IsReachable →
      (∀ rule, other.IsLatest rule ↔ book.IsLatest rule) →
      (∀ tenant filter, other.list tenant filter = book.list tenant filter) ∧
        other.all = book.all := by
  have hkeyed := hbook.isKeyed
  refine ⟨fun tenant filter => ?_, hkeyed.flatMap_list_perm, fun other hother hsame => ?_⟩
  · refine ⟨hkeyed.pairwise_list tenant filter, hkeyed.nodup_list tenant filter, fun rule => ?_⟩
    rw [mem_list, hkeyed.mem_rules_iff, accepts_iff]
  · exact ⟨list_congr hkeyed hother.isKeyed hsame, all_congr hkeyed hother.isKeyed hsame⟩

/-- The book with its rules the other way round. -/
def reversed (book : Rulebook) : Rulebook where
  entries := book.entries.reverse
  nodup := by
    rw [List.map_reverse, List.nodup_reverse]
    exact book.nodup

theorem isLatest_reversed : IsLatest book.reversed rule ↔ book.IsLatest rule := by
  rw [IsLatest, IsLatest, revisions, revisions,
    Table.find?_eq_of_perm (List.reverse_perm book.entries)]

theorem IsReachable.reversed (hbook : book.IsReachable) : IsReachable book.reversed := by
  obtain ⟨requests, hperm⟩ := hbook
  exact ⟨requests, (List.reverse_perm book.entries).trans hperm⟩

/-- A rule that always matches. -/
def standingRule (id tenant : String) (priority : Int32) : Rule where
  id
  version := 1
  tenant
  enabled := true
  description := none
  category := ""
  priority
  severity := 0
  cooldownDays := 1
  maxPerDay := 1
  tags := .empty
  logic := .group .all []
  messages := ⟨"en", [⟨none, "hello", 1⟩]⟩

/-- Three rules are created, and one of them goes over to another tenant. -/
def movingRequests : List ChangeRequest :=
  let changes : List Change :=
    [.create (standingRule "rest" "acme" 10), .create (standingRule "sleep" "acme" 20),
      .create (standingRule "steps" "brio" 20), .replace "steps" (standingRule "steps" "acme" 20)]
  changes.map fun change => ⟨change, .system, ⟨⟨0, 0⟩, .nil, .nil⟩⟩

theorem lists_are_canonical_bothWays :
    let book := (Registry.ofRequests movingRequests).book
    book.IsReachable ∧ IsReachable book.reversed ∧
    (∀ rule, IsLatest book.reversed rule ↔ book.IsLatest rule) ∧
    book.rules.map Rule.id = ["rest", "sleep", "steps"] ∧
    (rules book.reversed).map Rule.id = ["steps", "sleep", "rest"] ∧
    (book.list "acme" .none).Pairwise Rule.IsBefore ∧
    (book.tenants.items.flatMap fun tenant => book.list tenant .none).Perm book.all ∧
    (∀ tenant filter, list book.reversed tenant filter = book.list tenant filter) ∧
    all book.reversed = book.all := by
  intro book
  have hbook : book.IsReachable := ⟨movingRequests, .refl _⟩
  obtain ⟨hlist, hall, hsame⟩ := lists_are_canonical hbook
  exact ⟨hbook, hbook.reversed, fun rule => isLatest_reversed, by decide +kernel,
    by decide +kernel, (hlist "acme" .none).1, hall,
    hsame _ hbook.reversed fun rule => isLatest_reversed⟩

end MetricAlerts.Rulebook
