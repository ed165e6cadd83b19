import MetricAlerts.Proofs.Batch.Handling
import MetricAlerts.Proofs.Batch.Outcome

/-!
# Crews of workers

The tasks of a batch are dealt out to workers.  Each worker handles its own
tasks one after the other, and all workers do so at the same time, over one
ledger.  If no two tasks are about the same user of the same tenant, it makes
no difference how they are dealt out and who has the next turn: each task comes
to what it would have come to alone, and the histories end up as if the tasks
had been handled one by one.
-/

namespace MetricAlerts

namespace Task

variable {a b : Task}

/-- The tasks are about different users. -/
def Apart (a b : Task) : Prop :=
  (a.tenant, a.user) ≠ (b.tenant, b.user)

instance : Decidable (a.Apart b) :=
  inferInstanceAs (Decidable ((a.tenant, a.user) ≠ (b.tenant, b.user)))

theorem Apart.symm (hapart : a.Apart b) : b.Apart a :=
  Ne.symm hapart

theorem Apart.disjoint_keys (hapart : a.Apart b) : Disjoint a.keys b.keys := by
  rw [Set.disjoint_left]
  rintro key ⟨htenant, huser⟩ ⟨htenant', huser'⟩
  exact hapart (Prod.ext (htenant.symm.trans htenant') (huser.symm.trans huser'))

end Task

namespace Service

variable {service : Service Ledger} {tasks own : List Task} {crew : List (List Task)}

/-- The tasks handled one by one. -/
def handleAll {σ : Type} (service : Service σ) (store : HistoryStore σ) (tasks : List Task) :
    Service σ :=
  tasks.foldl (fun service task => (service.handle store task).2) service

theorem histories_handleAll {σ : Type} (service : Service σ) (store : HistoryStore σ)
    (tasks : List Task) :
    (service.handleAll store tasks).histories =
      ((Dialogue.inTurn service.engine.handling tasks).run store service.histories).state := by
  induction tasks generalizing service with
  | nil => rfl
  | cons task tasks ih =>
      rw [handleAll, List.foldl_cons, Dialogue.run_inTurn_cons, handle_eq]
      exact ih _

/-- In memory, no task fails. -/
theorem exists_outcome (hup : service.down = []) (task : Task) :
    ∃ outcome, (service.handle Ledger.store task).1 = .ok outcome := by
  obtain ⟨report, hreport⟩ := exists_report hup task.user task.day task.tenant
  cases hmode : task.mode with
  | evaluate =>
      refine ⟨.ofRules report.events report.rules, ?_⟩
      simp only [handle, hmode, hreport]
      rfl
  | simulate debug =>
      have hsimulate := service.outcomeIn_simulate task debug
      rw [outcomeIn, ← hmode, hreport] at hsimulate
      exact ⟨_, hsimulate⟩

/-- The workers before the first turn, each with the tasks dealt out to it. -/
def setOut (service : Service Ledger) (crew : List (List Task)) :
    Interleaving AlertEvent (List (Except PassError Outcome)) Ledger :=
  .start (crew.map (Dialogue.inTurn service.engine.handling)) service.histories

/-- How many turns the worker at a place needs. -/
def turnsAt (service : Service Ledger) (crew : List (List Task)) (place : Nat) : Nat :=
  (Dialogue.inTurn service.engine.handling (crew.getD place [])).turns Ledger.store
    service.histories

theorem turnsAt_eq {place : Nat} (hown : crew[place]? = some own) :
    service.turnsAt crew place =
      (Dialogue.inTurn service.engine.handling own).turns Ledger.store service.histories := by
  rw [turnsAt, List.getD_eq_getElem?_getD, hown, Option.getD_some]

/-- Every key that the worker at a place can ask for. -/
def keysAt (crew : List (List Task)) (place : Nat) : Set AlertKey :=
  {key | ∃ own, crew[place]? = some own ∧ ∃ task ∈ own, key ∈ task.keys}

theorem disjoint_keysAt (hapart : crew.flatten.Pairwise Task.Apart) :
    Pairwise fun a b => Disjoint (keysAt crew a) (keysAt crew b) := by
  have hworkers := (List.pairwise_flatten.1 hapart).2
  -- Both orders of the two places come down to the one in which they stand in the crew.
  have hordered : ∀ a b, a < b → Disjoint (keysAt crew a) (keysAt crew b) := by
    intro a b hlt
    rw [Set.disjoint_left]
    rintro key ⟨first, hfirst, task, htask, hkey⟩ ⟨second, hsecond, other, hother, hkey'⟩
    obtain ⟨ha, rfl⟩ := List.getElem?_eq_some_iff.1 hfirst
    obtain ⟨hb, rfl⟩ := List.getElem?_eq_some_iff.1 hsecond
    have hne := List.pairwise_iff_getElem.1 hworkers a b ha hb hlt task htask other hother
    exact Set.disjoint_left.1 hne.disjoint_keys hkey hkey'
  intro a b hne
  rcases Nat.lt_or_gt_of_ne hne with hlt | hlt
  · exact hordered a b hlt
  · exact (hordered b a hlt).symm

theorem within_setOut (engine : Engine) {place : Nat} (hown : crew[place]? = some own) :
    (Dialogue.inTurn engine.handling own).Within (keysAt crew place) := by
  apply Dialogue.within_inTurn
  intro task htask
  apply (engine.within_handling task).mono
  intro key hkey
  exact ⟨own, hown, task, htask, hkey⟩

/-- What a worker comes to that handles its tasks without anyone else. -/
theorem run_own (service : Service Ledger) (hapart : own.Pairwise Task.Apart) :
    let alone := (Dialogue.inTurn service.engine.handling own).run Ledger.store service.histories
    alone.answer = own.map (fun task => (service.handle Ledger.store task).1) ∧
      (∀ task ∈ own, Set.EqOn alone.state.find?
        (service.handle Ledger.store task).2.histories.find? task.keys) ∧
      ∀ key, (∀ task ∈ own, key ∉ task.keys) →
        alone.state.find? key = service.histories.find? key := by
  have hkeys : own.Pairwise fun a b => Disjoint a.keys b.keys :=
    hapart.imp Task.Apart.disjoint_keys
  have hrun := Dialogue.run_inTurn (fun task _ => service.engine.within_handling task) hkeys
    service.histories
  simp only [handle_eq]
  exact hrun

/-- No worker notices the others. -/
theorem asAlone_setOut (service : Service Ledger) (hapart : crew.flatten.Pairwise Task.Apart)
    (schedule : List Nat) :
    Interleaving.AsAlone (crew.map (Dialogue.inTurn service.engine.handling)) (keysAt crew)
      service.histories schedule ((service.setOut crew).run Ledger.store schedule) := by
  apply Interleaving.asAlone_run _ (disjoint_keysAt hapart)
  intro place part hpart
  rw [List.getElem?_map, Option.map_eq_some_iff] at hpart
  obtain ⟨own, hown, rfl⟩ := hpart
  exact within_setOut service.engine hown

variable {place : Nat}

theorem getElem?_setOut (service : Service Ledger) (hown : crew[place]? = some own) :
    (crew.map (Dialogue.inTurn service.engine.handling))[place]? =
      some (Dialogue.inTurn service.engine.handling own) := by
  rw [List.getElem?_map, hown, Option.map_some]

theorem pairwise_own (hapart : crew.flatten.Pairwise Task.Apart)
    (hown : crew[place]? = some own) : own.Pairwise Task.Apart :=
  (List.pairwise_flatten.1 hapart).1 own (List.mem_of_getElem? hown)

theorem answer?_setOut (service : Service Ledger) (hapart : crew.flatten.Pairwise Task.Apart)
    (schedule : List Nat) (hown : crew[place]? = some own) :
    ((service.setOut crew).run Ledger.store schedule).answer? place =
      if service.turnsAt crew place ≤ schedule.count place
      then some (own.map fun task => (service.handle Ledger.store task).1) else none := by
  rw [(service.asAlone_setOut hapart schedule).answer? (service.getElem?_setOut hown),
    turnsAt_eq hown, (service.run_own (pairwise_own hapart hown)).1]

/-- A worker that is done has stored for each of its tasks what the task alone
would have stored. -/
theorem stored_setOut (service : Service Ledger) (hapart : crew.flatten.Pairwise Task.Apart)
    {schedule : List Nat} (hown : crew[place]? = some own)
    (hdone : (((service.setOut crew).run Ledger.store schedule).answer? place).isSome)
    {task : Task} (htask : task ∈ own) :
    Set.EqOn ((service.setOut crew).run Ledger.store schedule).state.find?
      (service.handle Ledger.store task).2.histories.find? task.keys := by
  have hturns : service.turnsAt crew place ≤ schedule.count place := by
    by_contra hfew
    rw [service.answer?_setOut hapart schedule hown, if_neg hfew] at hdone
    cases hdone
  rw [turnsAt_eq hown] at hturns
  intro key hkey
  have hstored := (service.asAlone_setOut hapart schedule).stored_of_turns_le
    (service.getElem?_setOut hown) hturns ⟨own, hown, task, htask, hkey⟩
  exact hstored.trans ((service.run_own (pairwise_own hapart hown)).2.1 task htask hkey)

/-- However the tasks of a batch are dealt out to workers, and whoever has the
next turn: if the tasks are about different users, none of them fails; a worker
is done as soon as it has had a certain number of turns, and each of its tasks
has then come to what it comes to alone; and when all workers are done, the
histories are those of the tasks handled one by one. -/
theorem crew_answer_and_histories_eq (service : Service Ledger) (hup : service.down = [])
    (tasks : List Task) (hapart : tasks.Pairwise Task.Apart) (crew : List (List Task))
    (hcrew : crew.flatten.Perm tasks) :
    (∀ task, ∃ outcome, (service.handle Ledger.store task).1 = .ok outcome) ∧
    ∀ schedule,
      let joint := (service.setOut crew).run Ledger.store schedule
      (∀ place own, crew[place]? = some own →
        joint.answer? place =
          if service.turnsAt crew place ≤ schedule.count place
          then some (own.map fun task => (service.handle Ledger.store task).1) else none) ∧
      ((∀ place < crew.length, (joint.answer? place).isSome) →
        ∀ key, joint.state.find? key =
          (service.handleAll Ledger.store tasks).histories.find? key) := by
  have hdealt : crew.flatten.Pairwise Task.Apart :=
    hcrew.symm.pairwise hapart fun hne => hne.symm
  refine ⟨exists_outcome hup, fun schedule => ⟨?_, fun hdone key => ?_⟩⟩
  · intro place own hown
    exact service.answer?_setOut hdealt schedule hown
  obtain ⟨-, htasks, helse⟩ := service.run_own hapart
  rw [histories_handleAll]
  by_cases hkey : ∃ task ∈ tasks, key ∈ task.keys
  · obtain ⟨task, htask, hkey⟩ := hkey
    obtain ⟨own, hmem, hown⟩ := List.mem_flatten.1 (hcrew.symm.subset htask)
    obtain ⟨place, hplace⟩ := List.mem_iff_getElem?.1 hmem
    have hlt := (List.getElem?_eq_some_iff.1 hplace).1
    exact (service.stored_setOut hdealt hplace (hdone place hlt) hown hkey).trans
      (htasks task htask hkey).symm
  · have hnone : ∀ task ∈ tasks, key ∉ task.keys := fun task htask hmem => hkey ⟨task, htask, hmem⟩
    rw [helse key hnone]
    apply (service.asAlone_setOut hdealt schedule).elsewhere
    rintro place ⟨own, hplace, task, hown, hmem⟩
    have htask : task ∈ crew.flatten := List.mem_flatten.2 ⟨own, List.mem_of_getElem? hplace, hown⟩
    exact hnone task (hcrew.subset htask) hmem

/-- One user is evaluated in earnest and another one is rehearsed, with one turn
of the rehearsal before each turn of the evaluation. -/
theorem crew_answer_and_histories_eq_twoUsers :
    let service := fresh (.ofRequests onceADayRequests) .empty .empty .initial []
    let ada : Task := ⟨⟨"a"⟩, "acme", "ada", epoch, .evaluate, ⟨0, 0⟩⟩
    let bob : Task := ⟨⟨"b"⟩, "acme", "bob", epoch, .simulate true, ⟨0, 0⟩⟩
    let joint := (service.setOut [[bob], [ada]]).run Ledger.store [0, 1, 0, 1, 0, 1]
    service.down = [] ∧ [ada, bob].Pairwise Task.Apart ∧ [[bob], [ada]].flatten.Perm [ada, bob] ∧
      joint.answer? 0 = some [(service.handle Ledger.store bob).1] ∧
      joint.answer? 1 = some [(service.handle Ledger.store ada).1] ∧
      ∀ key, joint.state.find? key =
        (service.handleAll Ledger.store [ada, bob]).histories.find? key := by
  intro service ada bob joint
  have hapart : [ada, bob].Pairwise Task.Apart := by decide
  have hcrew : [[bob], [ada]].flatten.Perm [ada, bob] := .swap ada bob []
  have hturns : service.turnsAt [[bob], [ada]] 0 ≤ 3 ∧ service.turnsAt [[bob], [ada]] 1 ≤ 3 := by
    decide +kernel
  have hjoint := (crew_answer_and_histories_eq service rfl [ada, bob] hapart [[bob], [ada]] hcrew).2
    [0, 1, 0, 1, 0, 1]
  have hbob : joint.answer? 0 = some [(service.handle Ledger.store bob).1] := by
    rw [hjoint.1 0 [bob] rfl]
    exact if_pos hturns.1
  have hada : joint.answer? 1 = some [(service.handle Ledger.store ada).1] := by
    rw [hjoint.1 1 [ada] rfl]
    exact if_pos hturns.2
  refine ⟨rfl, hapart, hcrew, hbob, hada, hjoint.2 ?_⟩
  intro place hlt
  match place, hlt with
  | 0, _ =>
      rw [hbob]
      rfl
  | 1, _ =>
      rw [hada]
      rfl

end Service

end MetricAlerts
