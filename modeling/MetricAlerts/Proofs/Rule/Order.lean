import MetricAlerts.Rule.Basic

/-!
# The order of evaluation

Rules come by descending priority, and by ascending id where priorities are
equal.  This is a total order up to rules with one priority and one id, so to
sort rules a second time changes nothing, and rules with ids of their own come
strictly one before the other.  That leaves one order for them, whichever they
had before.
-/

namespace MetricAlerts.Rule

/-- The order of evaluation, between rules that it tells apart. -/
def IsBefore (a b : Rule) : Prop :=
  b.priority < a.priority ∨ a.priority = b.priority ∧ a.id < b.id

theorem precedes_iff {a b : Rule} :
    a.precedes b = true ↔ b.priority < a.priority ∨ a.priority = b.priority ∧ a.id ≤ b.id := by
  simp [precedes]

theorem IsBefore.asymm {a b : Rule} (hfirst : a.IsBefore b) : ¬b.IsBefore a := by
  rintro (hback | ⟨hsame, hback⟩)
  · rcases hfirst with hfirst | ⟨hsame, -⟩
    · exact Int32.lt_asymm hfirst hback
    · exact Int32.lt_irrefl (hsame ▸ hback)
  · rcases hfirst with hfirst | ⟨-, hfirst⟩
    · exact Int32.lt_irrefl (hsame ▸ hfirst)
    · exact String.lt_asymm hfirst hback

instance irrefl_isBefore : Std.Irrefl IsBefore where
  irrefl _ hbefore := hbefore.asymm hbefore

instance antisymm_isBefore : Std.Antisymm IsBefore where
  antisymm _ _ hfirst hback := absurd hback hfirst.asymm

theorem precedes_trans (a b c : Rule) (hfirst : a.precedes b = true)
    (hsecond : b.precedes c = true) : a.precedes c = true := by
  rw [precedes_iff] at *
  rcases hfirst with hfirst | ⟨hsame, hid⟩
  · rcases hsecond with hsecond | ⟨hother, -⟩
    · exact .inl (Int32.lt_trans hsecond hfirst)
    · exact .inl (hother ▸ hfirst)
  · rcases hsecond with hsecond | ⟨hother, hnext⟩
    · exact .inl (hsame ▸ hsecond)
    · exact .inr ⟨hsame.trans hother, String.le_trans hid hnext⟩

theorem precedes_total (a b : Rule) : (a.precedes b || b.precedes a) = true := by
  rw [Bool.or_eq_true, precedes_iff, precedes_iff]
  by_cases hsame : a.priority = b.priority
  · rcases String.le_total a.id b.id with hid | hid
    · exact .inl (.inr ⟨hsame, hid⟩)
    · exact .inr (.inr ⟨hsame.symm, hid⟩)
  · rw [← Int32.toInt_inj] at hsame
    rw [Int32.lt_iff_toInt_lt, Int32.lt_iff_toInt_lt]
    rcases Int.lt_or_gt_of_ne hsame with hless | hmore
    · exact .inr (.inl hless)
    · exact .inl (.inl hmore)

theorem pairwise_precedes (rules : List Rule) :
    (rules.mergeSort precedes).Pairwise fun a b => a.precedes b = true :=
  List.pairwise_mergeSort precedes_trans precedes_total rules

/-- What was brought into order is in order. -/
theorem mergeSort_mergeSort (rules : List Rule) :
    (rules.mergeSort precedes).mergeSort precedes = rules.mergeSort precedes :=
  List.mergeSort_of_pairwise (pairwise_precedes rules)

theorem pairwise_isBefore {rules : List Rule} (hids : (rules.map Rule.id).Nodup) :
    (rules.mergeSort precedes).Pairwise IsBefore := by
  have hdistinct : (rules.mergeSort precedes).Pairwise fun a b => a.id ≠ b.id :=
    List.pairwise_map.1 (((List.mergeSort_perm rules precedes).map Rule.id).nodup_iff.2 hids)
  apply ((pairwise_precedes rules).and hdistinct).imp
  rintro a b ⟨hprecedes, hne⟩
  exact (precedes_iff.1 hprecedes).imp_right fun ⟨hsame, hid⟩ =>
    ⟨hsame, Std.lt_of_le_of_ne hid hne⟩

end MetricAlerts.Rule
