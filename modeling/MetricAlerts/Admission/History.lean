import MetricAlerts.Calendar.DayText
import MetricAlerts.Rule.Basic

/-!
# Alert histories

What is remembered of the alerts that one rule sent to one user: the day of the last one, and how
many there were on one day. A count of another day says nothing about the day that is asked for.
-/

namespace MetricAlerts

structure AlertKey where
  tenant : String
  user : String
  rule : String
deriving DecidableEq

namespace AlertKey

def text (key : AlertKey) : String :=
  key.tenant ++ "/" ++ key.user ++ "/" ++ key.rule

/-- Order by tenant, then user, then rule. -/
def precedes (a b : AlertKey) : Bool :=
  a.tenant < b.tenant || (a.tenant == b.tenant &&
    (a.user < b.user || (a.user == b.user && a.rule ≤ b.rule)))

end AlertKey

structure History where
  last : Option Day
  count : UInt32
  /-- The day that the count belongs to. -/
  countedOn : Option Day
deriving DecidableEq

namespace History

def empty : History := ⟨none, 0, none⟩

def countOn (history : History) (day : Day) : UInt32 :=
  if history.countedOn = some day then history.count else 0

/-- The history after one more alert on the day. -/
def admitted (history : History) (day : Day) : History :=
  ⟨some day, history.countOn day + 1, some day⟩

@[simp]
theorem countOn_empty (day : Day) : empty.countOn day = 0 := rfl

@[simp]
theorem countOn_admitted (history : History) (day : Day) :
    (history.admitted day).countOn day = history.countOn day + 1 := by
  simp [admitted, countOn]

end History

/-- A history with the key it is stored under. -/
structure HistoryRecord where
  key : AlertKey
  history : History
deriving DecidableEq

/-- How often a rule may alert one user. -/
structure Limits where
  cooldownDays : UInt32
  maxPerDay : UInt32
deriving DecidableEq

def Rule.limits (rule : Rule) : Limits :=
  ⟨rule.cooldownDays, rule.maxPerDay⟩

/-- Why a matching rule does not alert. -/
inductive Suppression where
  | cooldown (last : Day) (daysRemaining : Int)
  | dailyCap (count maxPerDay : UInt32)
deriving DecidableEq

namespace Limits

/-- The cooldown that is still running on a day, if any. A day before the last alert counts as
inside the cooldown too. -/
def cooldown? (limits : Limits) (history : History) (day : Day) : Option Suppression :=
  match history.last with
  | some last =>
      let gap := day.since last
      if 0 < limits.cooldownDays ∧ gap < limits.cooldownDays.toNat then
        some (.cooldown last (limits.cooldownDays.toNat - gap))
      else none
  | none => none

/-- The history to store if an alert on the day is within the limits. -/
def check (limits : Limits) (history : History) (day : Day) : Except Suppression History :=
  match limits.cooldown? history day with
  | some suppression => .error suppression
  | none =>
      let count := history.countOn day
      if limits.maxPerDay ≤ count then .error (.dailyCap count limits.maxPerDay)
      else .ok (history.admitted day)

end Limits

end MetricAlerts
