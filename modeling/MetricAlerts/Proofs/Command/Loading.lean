import MetricAlerts.Command.Workspace
import MetricAlerts.Proofs.Rulebook.Creation

/-!
# Entering the rules of the files

Rules of files have names with distinct slugs, but for those without a slug, and
they are entered one after the other under their normal ids.  So the only thing
that can keep a rule out, once none has a fault, is a made-up name that another
rule already has; and what is in the book afterwards are all rules of the files,
each at its first version.
-/

namespace MetricAlerts.Command

open Registry

variable {registry later : Registry} {stamp : Nat → Stamp} {rules : List Rule} {index : Nat}

/-- To enter rules is to create them one after the other, but for what is said of
one that is refused. -/
theorem enterRules_eq_ok_iff :
    enterRules stamp index registry rules = .ok later ↔
      createAll loader stamp index registry rules = .ok later := by
  induction rules generalizing index registry with
  | nil => rw [enterRules, createAll, Except.ok.injEq, Except.ok.injEq]
  | cons rule rules ih =>
      rw [enterRules, createAll]
      obtain ⟨answer, next⟩ := registry.create rule loader (stamp index)
      cases answer with
      | error cause => simp
      | ok stored => exact ih

theorem of_enterRules_eq_ok (henter : enterRules stamp index registry rules = .ok later) :
    (∀ rule ∈ rules, rule.fault? = none) ∧
      later.book.rules.Perm (registry.book.rules ++ allAsNew stamp index rules) ∧
      (registry.book.IsKeyed → later.book.IsKeyed) :=
  of_createAll_eq_ok (enterRules_eq_ok_iff.1 henter)

theorem exists_enterRules (hvalid : ∀ rule ∈ rules, rule.fault? = none)
    (hbook : registry.book.IsKeyed)
    (hnodup : ((registry.book.rules ++ allAsNew stamp index rules).map Rule.id).Nodup) :
    ∃ later, enterRules stamp index registry rules = .ok later := by
  obtain ⟨later, hlater⟩ := exists_createAll loader hvalid hbook hnodup
  exact ⟨later, enterRules_eq_ok_iff.2 hlater⟩

end MetricAlerts.Command
