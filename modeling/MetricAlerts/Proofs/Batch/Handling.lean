import MetricAlerts.Batch.Task
import MetricAlerts.Proofs.Admission.Apart
import MetricAlerts.Proofs.Admission.Contract
import MetricAlerts.Proofs.Rulebook.Changes

/-!
# Tasks as dialogues

Whoever runs a task goes through one dialogue with the store of histories.  A
rehearsal is such a dialogue too: what it would write it remembers itself, and
it asks the store for nothing but reads.  Run to the end, the dialogue comes to
what the service makes of the task; and it never asks for a key of another
tenant or another user.
-/

namespace MetricAlerts

namespace Overlay

variable {ε α σ : Type}

/-- The same dialogue with everything that it writes kept to itself.  Reads of
what it has not written go to the store, and nothing is sent. -/
def above : Ledger → Dialogue ε α → Dialogue ε α
  | _, .done answer => .done answer
  | written, .load key next =>
      match written.find? key with
      | some versioned => above written (next (.ok versioned))
      | none => .load key fun answer => above written (next answer)
  | written, .swap key version history next =>
      let (answer, overlay) := swap key version history (⟨(), written⟩ : Overlay Unit)
      above overlay.written (next answer)
  | written, .send _ next => above written next

/-- What a swap does to an overlay has nothing to do with what lies below. -/
theorem swap_eq (key : AlertKey) (version : Nat) (history : History) (overlay : Overlay σ) :
    swap key version history overlay =
      let alone := swap key version history (⟨(), overlay.written⟩ : Overlay Unit)
      (alone.1, ⟨overlay.base, alone.2.written⟩) := by
  cases hwritten : overlay.written.contains key with
  | true => simp [swap, hwritten]
  | false => simp [swap, hwritten]

theorem run_above (store : HistoryStore σ) (dialogue : Dialogue ε α) (overlay : Overlay σ) :
    (above overlay.written dialogue).run store overlay.base =
      let finished := dialogue.run (Overlay.store store) overlay
      ⟨finished.answer, finished.state.base, []⟩ := by
  induction dialogue generalizing overlay with
  | done answer => rfl
  | load key next ih =>
      cases hwritten : overlay.written.find? key with
      | some versioned =>
          simp only [above, hwritten, Dialogue.run_load, Overlay.store, load]
          exact ih _ overlay
      | none =>
          simp only [above, hwritten, Dialogue.run_load, Overlay.store, load]
          exact ih _ ⟨(store.load key overlay.base).2, overlay.written⟩
  | swap key version history next ih =>
      rw [Dialogue.run_swap]
      simp only [Overlay.store, swap_eq key version history overlay]
      exact ih _ ⟨overlay.base, _⟩
  | send event next ih =>
      simp only [above, Dialogue.run]
      exact ih overlay

theorem within_above {keys : Set AlertKey} {dialogue : Dialogue ε α}
    (hwithin : dialogue.Within keys) (written : Ledger) :
    (above written dialogue).Within keys := by
  induction dialogue generalizing written with
  | done answer => trivial
  | load key next ih =>
      rw [above]
      split
      · exact ih _ (hwithin.2 _) written
      · exact ⟨hwithin.1, fun answer => ih answer (hwithin.2 answer) written⟩
  | swap key version history next ih => exact ih _ (hwithin.2 _) _
  | send event next ih => exact ih hwithin written

end Overlay

namespace Admission

variable {ε : Type} {keys : Set AlertKey} {key : AlertKey}

theorem within_attempt (limits : Limits) (hkey : key ∈ keys) (day : Day) (left : Nat) :
    (attempt limits key day left : Dialogue ε _).Within keys := by
  induction left with
  | zero => trivial
  | succ left ih =>
      refine ⟨hkey, fun answer => ?_⟩
      match answer with
      | .error (.conflict _) => exact ih
      | .error (.unreachable _) => trivial
      | .ok current =>
          dsimp only
          cases limits.check current.history day with
          | error reason => trivial
          | ok next =>
              refine ⟨hkey, fun answer => ?_⟩
              match answer with
              | .ok _ => trivial
              | .error (.conflict _) => exact ih
              | .error (.unreachable _) => trivial

theorem within_request (limits : Limits) (hkey : key ∈ keys) (day : Day) (attempts : Nat) :
    (request limits key day attempts : Dialogue ε _).Within keys := by
  apply (within_attempt limits hkey day attempts).bind
  intro answer
  cases answer <;> trivial

end Admission

namespace Pass

variable {α β : Type} {keys : Set AlertKey} {pass : Pass α} {f : α → Pass β}

theorem within_bind (hpass : pass.run.Within keys) (hf : ∀ a, (f a).run.Within keys) :
    (pass >>= f).run.Within keys := by
  apply Dialogue.Within.bind hpass
  intro answer
  cases answer with
  | error error => trivial
  | ok a => exact hf a

end Pass

/-- Every key of a user at a tenant. -/
def AlertKey.ofUser (tenant user : String) : Set AlertKey :=
  {key | key.tenant = tenant ∧ key.user = user}

/-- Every key that a task can ask for. -/
def Task.keys (task : Task) : Set AlertKey :=
  AlertKey.ofUser task.tenant task.user

namespace Engine

variable {engine : Engine} {user tenant : String} {day : Day} {snapshot : Snapshot}

theorem within_alert {rule : Rule} (hrule : rule.tenant = tenant) (trace : Trace)
    (message : PickedMessage) :
    (engine.alert rule user day snapshot trace message).run.Within
      (AlertKey.ofUser tenant user) := by
  have hkey : ⟨rule.tenant, user, rule.id⟩ ∈ AlertKey.ofUser tenant user := ⟨hrule, rfl⟩
  apply Pass.within_bind
  · exact Admission.within_request rule.limits hkey day _
  · intro admission
    cases admission <;> trivial

theorem within_evaluateRule {rule : Rule} (hrule : rule.tenant = tenant) :
    (engine.evaluateRule user day snapshot rule).run.Within (AlertKey.ofUser tenant user) := by
  rw [evaluateRule]
  cases rule.verdict user day snapshot with
  | skipped fault => trivial
  | notMatched trace => trivial
  | matched trace message => exact within_alert hrule trace message

theorem within_evaluateRules {rules : List Rule} (hrules : ∀ rule ∈ rules, rule.tenant = tenant) :
    (engine.evaluateRules user day snapshot rules).run.Within (AlertKey.ofUser tenant user) := by
  induction rules with
  | nil => trivial
  | cons rule rules ih =>
      obtain ⟨hrule, hrules⟩ := List.forall_mem_cons.1 hrules
      apply Pass.within_bind (within_evaluateRule hrule)
      intro outcome
      apply Pass.within_bind (ih hrules)
      intro outcomes
      trivial

theorem within_pass (engine : Engine) (user : String) (day : Day) (tenant : String) :
    (engine.pass user day tenant).run.Within (AlertKey.ofUser tenant user) := by
  rw [pass]
  split
  · trivial
  · apply Pass.within_bind
    · apply within_evaluateRules
      intro rule hrule
      exact (Rulebook.mem_list.1 (List.mem_filter.1 hrule).1).2.1
    · intro outcomes
      trivial

/-- What goes on between a worker with a task and the store of histories. -/
def handling (engine : Engine) (task : Task) :
    Dialogue AlertEvent (Except PassError Outcome) :=
  let pass := (engine.pass task.user task.day task.tenant).run
  match task.mode with
  | .evaluate => do
      let answer ← pass
      return answer.map fun report => .ofRules report.events report.rules
  | .simulate debug => do
      let answer ← Overlay.above .empty pass
      let result := answer.map fun report => Simulation.ofReport report .dryRun debug
      return result.map fun result => .ofRules result.events (result.rules.getD [])

theorem within_handling (engine : Engine) (task : Task) :
    (engine.handling task).Within task.keys := by
  have hpass := engine.within_pass task.user task.day task.tenant
  rw [handling]
  cases task.mode with
  | evaluate => exact hpass.bind fun _ => trivial
  | simulate debug => exact (Overlay.within_above hpass .empty).bind fun _ => trivial

end Engine

/-- A service handles a task by running its dialogue to the end. -/
theorem Service.handle_eq {σ : Type} (service : Service σ) (store : HistoryStore σ) (task : Task) :
    service.handle store task =
      let finished := (service.engine.handling task).run store service.histories
      (finished.answer, service.after finished) := by
  rw [handle, Engine.handling]
  cases task.mode with
  | evaluate => simp [Dialogue.run_bind, pure, Dialogue.run, evaluate, Engine.evaluate, after]
  | simulate debug =>
      have hrun := Overlay.run_above store
        (service.engine.pass task.user task.day task.tenant).run (.fresh service.histories)
      simp only [Overlay.fresh] at hrun
      simp only [Dialogue.run_bind, hrun]
      simp [pure, Dialogue.run, simulate, Engine.simulate, Engine.rehearse, after, Overlay.fresh]

end MetricAlerts
