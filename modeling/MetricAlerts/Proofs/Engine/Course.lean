import MetricAlerts.Engine.Service

/-!
# The course of a service

Evaluations, simulations of both kinds and new metrics follow one another in
any order, while the rules stay as they are.
-/

namespace MetricAlerts

namespace Service

variable {σ : Type}

/-- What can happen to a service while its rules stay as they are. -/
inductive Act where
  | evaluate (user : String) (day : Day) (tenant : String)
  | simulate (user : String) (day : Day) (tenant : String) (options : SimulationOptions)
  /-- From now on these are the metrics, and those named cannot be read. -/
  | observe (metrics : MetricLog) (down : List String)

inductive Answer where
  | report (answer : Except PassError Report)
  | simulation (answer : Except PassError Simulation)
  | silence

def Act.isDryRun : Act → Bool
  | .simulate _ _ _ options => options.mode = .dryRun
  | _ => false

/-- User, day and tenant of an act that is a real pass: an evaluation, or a
simulation that is committed. -/
def Act.pass? : Act → Option (String × Day × String)
  | .evaluate user day tenant => some (user, day, tenant)
  | .simulate user day tenant ⟨_, .commit⟩ => some (user, day, tenant)
  | .simulate _ _ _ ⟨_, .dryRun⟩ => none
  | .observe _ _ => none

def act (service : Service σ) (store : HistoryStore σ) : Act → Answer × Service σ
  | .evaluate user day tenant =>
      let (answer, later) := service.evaluate store user day tenant
      (.report answer, later)
  | .simulate user day tenant options =>
      let (answer, later) := service.simulate store user day tenant options
      (.simulation answer, later)
  | .observe metrics down => (.silence, { service with metrics, down })

/-- One act after the other, each with what was answered. -/
def run (store : HistoryStore σ) : List Act → Service σ → List (Act × Answer) × Service σ
  | [], service => ([], service)
  | act :: acts, service =>
      let (answer, service) := service.act store act
      let (answers, service) := run store acts service
      ((act, answer) :: answers, service)

theorem run_cons_state (store : HistoryStore σ) (act : Act) (acts : List Act)
    (service : Service σ) :
    (run store (act :: acts) service).2 = (run store acts (service.act store act).2).2 := rfl

theorem act_of_pass {store : HistoryStore σ} {service : Service σ} {act : Act}
    {user : String} {day : Day} {tenant : String}
    (hpass : act.pass? = some (user, day, tenant)) :
    (service.act store act).2 = (service.evaluate store user day tenant).2 := by
  rw [Act.pass?.eq_def] at hpass
  split at hpass <;> cases hpass <;> rfl

@[simp]
theorem registry_act (store : HistoryStore σ) (service : Service σ) (act : Act) :
    (service.act store act).2.registry = service.registry := by
  cases act <;> rfl

end Service

end MetricAlerts
