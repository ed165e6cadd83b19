import MetricAlerts.Admission.Dialogue

/-!
# Admissions

Whether a matching rule alerts its user is decided on the stored history and takes effect by
replacing that history. When someone else got in between, the decision is made anew on what is
stored then, a limited number of times. Nothing is written unless the rule is admitted.
-/

namespace MetricAlerts

inductive Admission where
  | admitted (history : History)
  | suppressed (reason : Suppression)
deriving DecidableEq

/-- Why an evaluation has to be given up. -/
inductive PassError where
  | unreachable (detail : String)
  | contended (key : AlertKey) (attempts : Nat)
deriving DecidableEq

def PassError.message : PassError → String
  | unreachable detail => "store unavailable: " ++ detail
  | contended key attempts =>
      "admission for " ++ key.text ++ " kept conflicting after " ++ toString attempts ++ " attempts"

/-- Retries are counted in 32 bits, and so are attempts, of which there is one more if that count
can still hold it. -/
def attemptsOf (retries : UInt32) : Nat :=
  min (retries.toNat + 1) (UInt32.size - 1)

namespace Admission

variable {ε : Type}

/-- Tries up to `left` more times. -/
def attempt (limits : Limits) (key : AlertKey) (day : Day) :
    (left : Nat) → Dialogue ε (Option (Except PassError Admission))
  | 0 => .done none
  | left + 1 =>
      .load key fun
        | .error (.conflict _) => attempt limits key day left
        | .error (.unreachable detail) => .done (some (.error (.unreachable detail)))
        | .ok current =>
            match limits.check current.history day with
            | .error reason => .done (some (.ok (.suppressed reason)))
            | .ok next =>
                .swap key current.version next fun
                  | .ok _ => .done (some (.ok (.admitted next)))
                  | .error (.conflict _) => attempt limits key day left
                  | .error (.unreachable detail) => .done (some (.error (.unreachable detail)))

/-- The decision about an alert on a day. -/
def request (limits : Limits) (key : AlertKey) (day : Day) (attempts : Nat) :
    Dialogue ε (Except PassError Admission) := do
  match ← attempt limits key day attempts with
  | some answer => return answer
  | none => return .error (.contended key attempts)

end Admission

end MetricAlerts
