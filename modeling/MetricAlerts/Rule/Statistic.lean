/-!
# Statistics

The statistics a rule may ask for. Each one looks at a fixed number of calendar days up to and
including the day of evaluation; only the current value has a window that is set from outside.
-/

namespace MetricAlerts

inductive Statistic where
  | current
  | mean3
  | mean7
  | mean14
  | median14
  | change3v14
  | zscore28
deriving DecidableEq

namespace Statistic

def all : List Statistic :=
  [current, mean3, mean7, mean14, median14, change3v14, zscore28]

def name : Statistic → String
  | current => "current"
  | mean3 => "mean_3d"
  | mean7 => "mean_7d"
  | mean14 => "mean_14d"
  | median14 => "median_14d"
  | change3v14 => "delta_pct_3v14"
  | zscore28 => "zscore_28d"

def ofName? (name : String) : Option Statistic :=
  all.find? fun statistic => statistic.name == name

/-- Days of the window, for a current value that looks back `lookback` days. -/
def window (lookback : Nat) : Statistic → Nat
  | current => max lookback 1
  | mean3 => 3
  | mean7 => 7
  | mean14 => 14
  | median14 => 14
  | change3v14 => 14
  | zscore28 => 28

/-- Place in the list of all statistics, which is their order. -/
def rank : Statistic → Nat
  | current => 0
  | mean3 => 1
  | mean7 => 2
  | mean14 => 3
  | median14 => 4
  | change3v14 => 5
  | zscore28 => 6

theorem ofName?_name (statistic : Statistic) : ofName? statistic.name = some statistic := by
  cases statistic <;> decide

theorem rank_injective {a b : Statistic} (h : a.rank = b.rank) : a = b := by
  cases a <;> cases b <;> first | rfl | simp [rank] at h

end Statistic

/-- A statistic of one metric. -/
structure Reference where
  metric : String
  statistic : Statistic
deriving DecidableEq

namespace Reference

/-- By metric, then by statistic. -/
instance : LT Reference :=
  ⟨fun a b => a.metric < b.metric ∨ (a.metric = b.metric ∧ a.statistic.rank < b.statistic.rank)⟩

instance : DecidableLT Reference := fun a b =>
  inferInstanceAs (Decidable
    (a.metric < b.metric ∨ (a.metric = b.metric ∧ a.statistic.rank < b.statistic.rank)))

theorem lt_def {a b : Reference} :
    a < b ↔ a.metric < b.metric ∨ (a.metric = b.metric ∧ a.statistic.rank < b.statistic.rank) :=
  Iff.rfl

theorem lt_trans {a b c : Reference} (h : a < b) (h' : b < c) : a < c := by
  rw [lt_def] at *
  rcases h with h | ⟨h, hr⟩ <;> rcases h' with h' | ⟨h', hr'⟩
  · exact .inl (String.lt_trans h h')
  · exact .inl (h' ▸ h)
  · exact .inl (h ▸ h')
  · exact .inr ⟨h.trans h', Nat.lt_trans hr hr'⟩

instance : Trans (α := Reference) (· < ·) (· < ·) (· < ·) := ⟨lt_trans⟩

theorem lt_or_eq_or_gt (a b : Reference) : a < b ∨ a = b ∨ b < a := by
  simp only [lt_def]
  rcases Std.Trichotomous.rel_or_eq_or_rel_swap (α := String) (r := (· < ·))
    (a := a.metric) (b := b.metric) with h | h | h
  · exact .inl (.inl h)
  · rcases Nat.lt_trichotomy a.statistic.rank b.statistic.rank with hr | hr | hr
    · exact .inl (.inr ⟨h, hr⟩)
    · refine .inr (.inl ?_)
      have hs := Statistic.rank_injective hr
      cases a; cases b
      simp_all
    · exact .inr (.inr (.inr ⟨h.symm, hr⟩))
  · exact .inr (.inr (.inl h))

instance : Std.Trichotomous (α := Reference) (· < ·) :=
  ⟨fun a b h h' => by
    rcases lt_or_eq_or_gt a b with h'' | h'' | h''
    · exact absurd h'' h
    · exact h''
    · exact absurd h'' h'⟩

end Reference

end MetricAlerts
