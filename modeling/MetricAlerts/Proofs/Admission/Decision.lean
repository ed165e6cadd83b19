import MetricAlerts.Admission.Overlay
import MetricAlerts.Admission.Request

/-!
# Decisions, step by step

An admission is a loop of reads and replacements.  This file opens that loop
once: what a decision does with attempts left, what it does after a read that
allows the alert, and what the whole decision comes to when nobody else is
at the store.
-/

namespace MetricAlerts

/-- The key of what is remembered of a rule for a user. -/
def Rule.keyFor (rule : Rule) (user : String) : AlertKey :=
  ⟨rule.tenant, user, rule.id⟩

namespace Dialogue

variable {ε α β σ : Type}

theorem run_load (store : HistoryStore σ) (key : AlertKey)
    (next : Except StoreError Versioned → Dialogue ε α) (state : σ) :
    (load key next).run store state =
      (next (store.load key state).1).run store (store.load key state).2 := rfl

theorem run_swap (store : HistoryStore σ) (key : AlertKey) (version : Nat) (history : History)
    (next : Except StoreError Nat → Dialogue ε α) (state : σ) :
    (swap key version history next).run store state =
      (next (store.swap key version history state).1).run store
        (store.swap key version history state).2 := rfl

/-- A dialogue that goes on with another one is run as the first and then the
second, over the store that the first one leaves. -/
theorem run_bind (store : HistoryStore σ) (dialogue : Dialogue ε α)
    (f : α → Dialogue ε β) (state : σ) :
    (dialogue >>= f).run store state =
      let first := dialogue.run store state
      let second := (f first.answer).run store first.state
      ⟨second.answer, second.state, first.sent ++ second.sent⟩ := by
  change (dialogue.bind f).run store state = _
  induction dialogue generalizing state with
  | done answer => simp [bind, run]
  | load key next ih =>
      simp only [bind, run]
      exact ih _ _
  | swap key version history next ih =>
      simp only [bind, run]
      exact ih _ _
  | send event next ih =>
      simp only [bind, run]
      rw [ih]
      rfl

end Dialogue

/-- Whether an admission was made. -/
def Admission.isMade : Except PassError Admission → Bool
  | .ok (.admitted _) => true
  | _ => false

namespace Admission

variable {ε : Type} (limits : Limits) (key : AlertKey) (day : Day) (attempts left : Nat)

/-- The decision when `left` of its attempts are still to come. -/
def remaining : Dialogue ε (Except PassError Admission) := do
  match ← attempt limits key day left with
  | some answer => return answer
  | none => return .error (.contended key attempts)

/-- The rest of an attempt that has read a version and may go on to the next
history. -/
def replacing (version : Nat) (next : History) : Dialogue ε (Except PassError Admission) :=
  .swap key version next fun
    | .ok _ => .done (.ok (.admitted next))
    | .error (.conflict _) => remaining limits key day attempts left
    | .error (.unreachable detail) => .done (.error (.unreachable detail))

theorem request_eq_remaining :
    (request limits key day attempts : Dialogue ε _) =
      remaining limits key day attempts attempts := rfl

theorem remaining_zero :
    (remaining limits key day attempts 0 : Dialogue ε _) =
      .done (.error (.contended key attempts)) := rfl

theorem remaining_succ :
    (remaining limits key day attempts (left + 1) : Dialogue ε _) =
      .load key fun
        | .error (.conflict _) => remaining limits key day attempts left
        | .error (.unreachable detail) => .done (.error (.unreachable detail))
        | .ok current =>
            match limits.check current.history day with
            | .error reason => .done (.ok (.suppressed reason))
            | .ok next =>
                replacing limits key day attempts left current.version next := by
  change Dialogue.load key _ = _
  congr 1
  funext answer
  cases answer with
  | error e => cases e <;> rfl
  | ok current =>
      dsimp only
      cases limits.check current.history day with
      | error reason => rfl
      | ok next =>
          change Dialogue.swap key current.version next _ = _
          unfold replacing
          congr 1
          funext answer
          cases answer with
          | error e => cases e <;> rfl
          | ok version => rfl

variable {σ : Type} {store : HistoryStore σ} {state : σ} {current : Versioned}

/-- However a decision goes, it sends nothing. -/
theorem sent_run_remaining (state : σ) :
    ((remaining limits key day attempts left : Dialogue ε _).run store state).sent = [] := by
  induction left generalizing state with
  | zero => rfl
  | succ left ih =>
      rw [remaining_succ, Dialogue.run_load]
      rcases (store.load key state).1 with (_ | detail) | current
      · exact ih _
      · rfl
      · dsimp only
        cases limits.check current.history day with
        | error reason => rfl
        | ok next =>
            simp only [replacing, Dialogue.run_swap]
            rcases (store.swap key current.version next (store.load key state).2).1 with
              (_ | detail) | version
            · exact ih _
            · rfl
            · rfl

/-- A decision that reads a history outside the limits ends with that read. -/
theorem run_remaining_of_suppressed {reason : Suppression}
    (hload : (store.load key state).1 = .ok current)
    (hcheck : limits.check current.history day = .error reason) :
    (remaining limits key day attempts (left + 1) : Dialogue ε _).run store state =
      ⟨.ok (.suppressed reason), (store.load key state).2, []⟩ := by
  rw [remaining_succ]
  simp only [Dialogue.run, hload, hcheck]

/-- A decision that reads a history within the limits ends with the
replacement of that history, if the replacement gets through. -/
theorem run_remaining_of_admitted {next : History} {version : Nat}
    (hload : (store.load key state).1 = .ok current)
    (hcheck : limits.check current.history day = .ok next)
    (hswap : (store.swap key current.version next (store.load key state).2).1 = .ok version) :
    (remaining limits key day attempts (left + 1) : Dialogue ε _).run store state =
      ⟨.ok (.admitted next),
        (store.swap key current.version next (store.load key state).2).2, []⟩ := by
  rw [remaining_succ]
  simp only [Dialogue.run, hload, hcheck, replacing, hswap]

/-- However few retries are allowed, there is a first attempt. -/
theorem exists_attemptsOf_eq (retries : UInt32) : ∃ left, attemptsOf retries = left + 1 := by
  have hmany : 1 ≤ UInt32.size - 1 := by decide
  refine ⟨attemptsOf retries - 1, ?_⟩
  unfold attemptsOf
  omega

end Admission

end MetricAlerts
