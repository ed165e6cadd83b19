import Mathlib.Tactic.Set
import MetricAlerts.Proofs.Batch.Call

/-!
# The way of a single worker

A batch can be run with nothing going on at the same time: all tasks are handed
in first, and then a single worker takes, handles and finishes one after the
other.  This is one of the ways that the turns of a call can fall, so whatever
holds for all of them holds for it.  The worker leaves the pool idle, since
every record that is not finished has its task in the rotation.
-/

namespace MetricAlerts

namespace Pool

variable {α : Type} {handle : Handler α} {pool : Pool} {task : Task} {time : Instant} {state : α}

theorem work_of_some (hopen : pool.stopping = false)
    (htask : pool.waiting.next.1 = some task) :
    pool.work handle time state =
      (({ pool with waiting := pool.waiting.next.2 }.start task time).finish task time
        (handle task state).1, (handle task state).2) := by
  simp [work, take, hopen, dequeue, htask]

theorem work_of_none (hstep : pool.waiting.InStep) (hopen : pool.stopping = false)
    (htask : pool.waiting.next.1 = none) : pool.work handle time state = (pool, state) := by
  have htake : pool.take = (none, pool) := by
    rw [take, hopen, if_neg Bool.false_ne_true, dequeue, hstep.next_of_none htask]
  rw [work, htake]

theorem isFinished_finish (record : TaskRecord) (time : Instant)
    (result : Except String Outcome) : (record.finish time result).status.isFinished = true := by
  cases result <;> rfl

/-- The pool is open, and every record that is not finished belongs to a task
in the rotation. -/
structure IsCovered (pool : Pool) : Prop where
  inStep : pool.waiting.InStep
  stopping : pool.stopping = false
  covered : ∀ id record, pool.records.find? id = some record →
    record.status.isFinished = true ∨ ∃ task ∈ pool.waiting.jobs, task.id = id

theorem isCovered_empty : empty.IsCovered where
  inStep := Rotation.inStep_empty
  stopping := rfl
  covered := by simp [empty]

theorem IsCovered.enqueue (hpool : pool.IsCovered) (task : Task) :
    ((pool.register task).enqueue task).IsCovered where
  inStep := hpool.inStep.enqueue task.tenant task
  stopping := hpool.stopping
  covered := by
    intro id record hfind
    simp only [Pool.enqueue, register, Rotation.mem_jobs_enqueue] at hfind ⊢
    rw [Table.find?_insert] at hfind
    split at hfind
    · next hid => exact .inr ⟨task, .inr rfl, hid.symm⟩
    · rcases hpool.covered id record hfind with hended | ⟨other, hother, hid⟩
      · exact .inl hended
      · exact .inr ⟨other, .inl hother, hid⟩

theorem IsCovered.work (hpool : pool.IsCovered) (handle : Handler α) (time : Instant)
    (state : α) :
    (pool.work handle time state).1.IsCovered ∧
      (pool.work handle time state).1.pending = pool.pending - 1 := by
  cases htask : pool.waiting.next.1 with
  | none =>
      rw [work_of_none hpool.inStep hpool.stopping htask]
      have hnone : pool.pending = 0 := hpool.inStep.next_eq_none_iff.1 htask
      exact ⟨hpool, by rw [hnone]⟩
  | some task =>
      rw [work_of_some hpool.stopping htask]
      set next : Pool := { pool with waiting := pool.waiting.next.2 }
      have hwaiting : ((next.start task time).finish task time (handle task state).1).waiting =
          pool.waiting.next.2 := by
        rw [finish, start, waiting_update, waiting_update]
      refine ⟨⟨?_, ?_, ?_⟩, ?_⟩
      · rw [hwaiting]
        exact hpool.inStep.next
      · rw [finish, start, stopping_update, stopping_update]
        exact hpool.stopping
      · intro id record hfind
        rw [hwaiting]
        rw [finish, start, find?_update] at hfind
        split at hfind
        · obtain ⟨before, -, rfl⟩ := Option.map_eq_some_iff.1 hfind
          exact .inl (isFinished_finish before time _)
        · next hid =>
            rw [find?_update, if_neg hid] at hfind
            rcases hpool.covered id record hfind with hended | ⟨other, hother, rfl⟩
            · exact .inl hended
            · rcases hpool.inStep.mem_jobs_iff.1 hother with hnext | hlater
              · rw [htask, Option.some_inj] at hnext
                exact absurd (congrArg Task.id hnext).symm hid
              · exact .inr ⟨other, hlater, rfl⟩
      · rw [pending, pending, hwaiting]
        exact hpool.inStep.pending_next

theorem IsCovered.workOff (hpool : pool.IsCovered) (handle : Handler α) (time : Instant)
    (count : Nat) (state : α) :
    (Pool.workOff handle time count pool state).1.IsCovered ∧
      (Pool.workOff handle time count pool state).1.pending = pool.pending - count := by
  induction count generalizing pool state with
  | zero => exact ⟨hpool, rfl⟩
  | succ count ih =>
      obtain ⟨hnext, hpending⟩ := hpool.work handle time state
      obtain ⟨hlast, hleft⟩ := ih hnext (pool.work handle time state).2
      refine ⟨hlast, hleft.trans ?_⟩
      rw [hpending, Nat.sub_sub, Nat.add_comm]

theorem IsCovered.isIdle_drain (hpool : pool.IsCovered) (handle : Handler α) (time : Instant)
    (state : α) : (pool.drain handle time state).1.isIdle = true := by
  obtain ⟨hlast, hleft⟩ := hpool.workOff handle time pool.pending state
  rw [Nat.sub_self, pending, Rotation.pending_eq, List.length_eq_zero_iff] at hleft
  rw [isIdle, List.all_eq_true]
  intro record hrecord
  obtain ⟨⟨id, _⟩, hentry, rfl⟩ := List.mem_map.1 hrecord
  rcases hlast.covered id _ (Table.find?_eq_some_iff.2 hentry) with hended | ⟨task, htask, -⟩
  · exact hended
  · rw [hleft] at htask
    cases htask

end Pool

namespace BatchCall

open Function (update)

variable {σ : Type} {engine : Engine} {store : HistoryStore σ} {call next later : BatchCall σ}

/-- Some turns lead from one point of a call to another. -/
def Reaches (engine : Engine) (store : HistoryStore σ) (call later : BatchCall σ) : Prop :=
  ∃ turns, call.run engine store turns = later

theorem reaches_refl (call : BatchCall σ) : Reaches engine store call call :=
  ⟨[], rfl⟩

theorem Reaches.trans (hnext : Reaches engine store call next)
    (hlater : Reaches engine store next later) : Reaches engine store call later := by
  obtain ⟨first, rfl⟩ := hnext
  obtain ⟨rest, rfl⟩ := hlater
  exact ⟨first ++ rest, run_append first rest call⟩

theorem reaches_callerTurn (engine : Engine) (store : HistoryStore σ) (call : BatchCall σ) :
    Reaches engine store call call.callerTurn :=
  ⟨[.caller], rfl⟩

theorem reaches_workerTurn (call : BatchCall σ) (worker : Nat) (time : Instant) :
    Reaches engine store call (call.workerTurn engine store worker time) :=
  ⟨[.worker worker time], rfl⟩

/-- The same call with one worker at another point of its dialogue. -/
def goingOn (call : BatchCall σ) (worker : Nat)
    (dialogue : Dialogue AlertEvent (Except PassError Outcome)) (histories : σ)
    (sent : List AlertEvent) : BatchCall σ :=
  { call with underway := update call.underway worker (some dialogue), histories, sent }

section Handling

variable {worker : Nat} {task : Task}

theorem workerTurn_goingOn (hworker : call.shift.workers worker = .holding task .handling)
    (dialogue : Dialogue AlertEvent (Except PassError Outcome))
    (hmore : ∀ answer, dialogue ≠ .done answer) (histories : σ) (sent : List AlertEvent)
    (time : Instant) :
    (call.goingOn worker dialogue histories sent).workerTurn engine store worker time =
      call.goingOn worker (dialogue.step store histories).1 (dialogue.step store histories).2.1
        (sent ++ (dialogue.step store histories).2.2) := by
  cases dialogue with
  | done answer => exact absurd rfl (hmore answer)
  | load key next => simp [workerTurn, goingOn, hworker]
  | swap key version history next => simp [workerTurn, goingOn, hworker]
  | send event next => simp [workerTurn, goingOn, hworker]

/-- A worker that goes on alone brings its dialogue to the end. -/
theorem reaches_done (hworker : call.shift.workers worker = .holding task .handling)
    (dialogue : Dialogue AlertEvent (Except PassError Outcome)) (histories : σ)
    (sent : List AlertEvent) :
    let finished := dialogue.run store histories
    Reaches engine store (call.goingOn worker dialogue histories sent)
      (call.goingOn worker (.done finished.answer) finished.state (sent ++ finished.sent)) := by
  induction dialogue generalizing histories sent with
  | done answer =>
      simp only [Dialogue.run, List.append_nil]
      exact reaches_refl _
  | load key next ih =>
      refine (reaches_workerTurn _ worker ⟨0, 0⟩).trans ?_
      rw [workerTurn_goingOn hworker (.load key next) (by simp)]
      simpa [Dialogue.run, Dialogue.step] using ih _ _ sent
  | swap key version history next ih =>
      refine (reaches_workerTurn _ worker ⟨0, 0⟩).trans ?_
      rw [workerTurn_goingOn hworker (.swap key version history next) (by simp)]
      simpa [Dialogue.run, Dialogue.step] using ih _ _ sent
  | send event next ih =>
      refine (reaches_workerTurn _ worker ⟨0, 0⟩).trans ?_
      rw [workerTurn_goingOn hworker (.send event next) (by simp)]
      simpa [Dialogue.run, Dialogue.step] using ih histories (sent ++ [event])

/-- A free worker takes the next task and begins to handle it. -/
theorem reaches_handling (engine : Engine) (store : HistoryStore σ)
    (hworker : call.shift.workers worker = .free)
    (hopen : call.shift.pool.stopping = false)
    (htask : call.shift.pool.waiting.next.1 = some task) (time : Instant) :
    let pool := { call.shift.pool with waiting := call.shift.pool.waiting.next.2 }
    let shift : Shift :=
      { call.shift with
        pool := pool.start task time
        workers := update call.shift.workers worker (.holding task .handling)
        handled := call.shift.handled ++ [task] }
    Reaches engine store call
      (goingOn { call with shift } worker (engine.handling task) call.histories call.sent) := by
  refine ⟨List.replicate 4 (.worker worker time), ?_⟩
  simp [run, turn, workerTurn, act, Shift.act, goingOn, hworker, hopen, htask, Pool.dequeue,
    List.replicate]

/-- A free worker that goes on alone takes the next task, handles it and
finishes it. -/
theorem reaches_handled (hworker : call.shift.workers worker = .free)
    (hopen : call.shift.pool.stopping = false)
    (htask : call.shift.pool.waiting.next.1 = some task) (time : Instant) :
    let finished := (engine.handling task).run store call.histories
    let pool := { call.shift.pool with waiting := call.shift.pool.waiting.next.2 }
    let shift : Shift :=
      { call.shift with
        pool := (pool.start task time).finish task time
          (finished.answer.mapError PassError.message)
        handled := call.shift.handled ++ [task] }
    Reaches engine store call
      (goingOn { call with shift } worker (.done finished.answer) finished.state
        (call.sent ++ finished.sent)) := by
  intro finished pool shift
  have hhandling := reaches_handling engine store hworker hopen htask time
  refine hhandling.trans ((reaches_done (Function.update_self ..) _ _ _).trans ?_)
  refine ⟨[.worker worker time], ?_⟩
  have hfree : update call.shift.workers worker .free = call.shift.workers := by
    rw [← hworker, Function.update_eq_self]
  simp [run, turn, workerTurn, act, Shift.act, goingOn, hfree, shift, pool, finished]

end Handling

/-! ## A call with one worker -/

/-- Nobody has anything in hand. -/
structure IsStill (call : BatchCall σ) : Prop where
  caller : call.shift.callers 0 = .free
  worker : ∀ worker, call.shift.workers worker = .free

end BatchCall

namespace Service

variable {σ : Type}

/-- What runs a task of a batch on a service. -/
def handler (store : HistoryStore σ) : Pool.Handler (Service σ) :=
  fun task service =>
    ((service.handle store task).1.mapError PassError.message, (service.handle store task).2)

/-- A service as a batch has left it so far. -/
def during (service : Service σ) (call : BatchCall σ) : Service σ :=
  { service with
    histories := call.histories
    alerts := service.alerts ++ call.sent.map AlertEvent.fired }

end Service

namespace BatchCall

variable {σ : Type} {store : HistoryStore σ} {call : BatchCall σ}

theorem IsStill.exists_work (service : Service σ) (store : HistoryStore σ)
    (hstill : call.IsStill) (hpool : call.shift.pool.IsCovered) (time : Instant) :
    ∃ later, Reaches service.engine store call later ∧ later.IsStill ∧
      (later.shift.pool, service.during later) =
        call.shift.pool.work (Service.handler store) time (service.during call) ∧
      later.rest = call.rest ∧ later.refusal = call.refusal := by
  cases htask : call.shift.pool.waiting.next.1 with
  | none =>
      exact ⟨call, reaches_refl call, hstill,
        (Pool.work_of_none hpool.inStep hpool.stopping htask).symm, rfl, rfl⟩
  | some task =>
      refine ⟨_, reaches_handled (hstill.worker 0) hpool.stopping htask time,
        ⟨hstill.caller, hstill.worker⟩, ?_, rfl, rfl⟩
      rw [Pool.work_of_some hpool.stopping htask, Service.handler, Service.handle_eq]
      simp [Service.during, Service.after, goingOn, Service.engine]

theorem IsStill.exists_workOff (service : Service σ) (store : HistoryStore σ)
    (hstill : call.IsStill) (hpool : call.shift.pool.IsCovered) (time : Instant) (count : Nat) :
    ∃ later, Reaches service.engine store call later ∧ later.IsStill ∧
      (later.shift.pool, service.during later) =
        Pool.workOff (Service.handler store) time count call.shift.pool
          (service.during call) ∧
      later.rest = call.rest ∧ later.refusal = call.refusal := by
  induction count generalizing call with
  | zero => exact ⟨call, reaches_refl call, hstill, rfl, rfl, rfl⟩
  | succ count ih =>
      obtain ⟨next, hnext, hsame, hwork, hrest, hrefusal⟩ :=
        hstill.exists_work service store hpool time
      have hcovered : next.shift.pool.IsCovered := by
        have hafter := (hpool.work (Service.handler store) time (service.during call)).1
        rwa [← hwork] at hafter
      obtain ⟨later, hlater, hend, hworkOff, hrest', hrefusal'⟩ := ih hsame hcovered
      refine ⟨later, hnext.trans hlater, hend, ?_, hrest'.trans hrest, hrefusal'.trans hrefusal⟩
      rw [hworkOff, Pool.workOff, ← hwork]

/-- The same call with the next task handed in. -/
def handedIn (call : BatchCall σ) (task : Task) (rest : List Task) : BatchCall σ :=
  { call with
    shift :=
      { call.shift with
        pool := (call.shift.pool.register task).enqueue task
        accepted := call.shift.accepted ++ [task] }
    rest }

/-- A caller that goes on alone hands in its next task. -/
theorem reaches_handedIn (engine : Engine) (store : HistoryStore σ) {task : Task}
    {tasks : List Task}
    (hcaller : call.shift.callers 0 = .free) (hrest : call.rest = task :: tasks)
    (htask : call.shift.pool.refusal? task = none) :
    Reaches engine store call (call.handedIn task tasks) := by
  refine ⟨[.caller, .caller, .caller], ?_⟩
  have hfree : Function.update call.shift.callers 0 .free = call.shift.callers := by
    rw [← hcaller, Function.update_eq_self]
  simp [run, turn, callerTurn, act, Shift.act, handedIn, hcaller, hrest, htask, hfree]

/-- The caller hands in its tasks before any worker begins. -/
theorem IsStill.exists_submitAll (engine : Engine) (store : HistoryStore σ)
    {tasks : List Task} (hstill : call.IsStill) (hpool : call.shift.pool.IsCovered)
    (hrest : call.rest = tasks) (hnone : call.refusal = none) :
    ∃ later, Reaches engine store call later ∧ later.IsStill ∧ later.shift.pool.IsCovered ∧
      later.rest = [] ∧ later.histories = call.histories ∧ later.sent = call.sent ∧
      call.shift.pool.submitAll tasks =
        (later.shift.pool, match later.refusal with
          | some e => .error e
          | none => .ok (tasks.map Task.id)) := by
  induction tasks generalizing call with
  | nil =>
      refine ⟨call, reaches_refl call, hstill, hpool, hrest, rfl, rfl, ?_⟩
      rw [hnone]
      rfl
  | cons task tasks ih =>
      cases htask : call.shift.pool.refusal? task with
      | some e =>
          refine ⟨{ call with rest := [], refusal := some e }, ⟨[.caller], ?_⟩,
            ⟨hstill.caller, hstill.worker⟩, hpool, rfl, rfl, rfl, ?_⟩
          · simp [run, turn, callerTurn, hstill.caller, hrest, htask]
          · simp [Pool.submitAll, Pool.submit, htask]
      | none =>
          have hsame : (call.handedIn task tasks).IsStill := ⟨hstill.caller, hstill.worker⟩
          obtain ⟨later, hlater, hend, hcovered, hdone, hhistories, hsent, hsubmit⟩ :=
            ih hsame (hpool.enqueue task) rfl hnone
          have hnext := reaches_handedIn engine store hstill.caller hrest htask
          rw [handedIn] at hsubmit
          refine ⟨later, hnext.trans hlater, hend, hcovered, hdone, hhistories, hsent, ?_⟩
          simp only [Pool.submitAll, Pool.submit, htask, hsubmit]
          cases later.refusal <;> rfl

end BatchCall

namespace Service

variable {σ : Type}

/-- A batch run by a single worker is one of the ways that the turns of a call
can fall. -/
theorem exists_turns_runBatch (service : Service σ) (store : HistoryStore σ)
    (tasks : List Task) (time : Instant) :
    ∃ turns,
      let call := service.batchAfter store tasks turns
      call.IsOver ∧
        service.runBatch store tasks time = (call.answer tasks, service.during call) := by
  have hstill : (BatchCall.start tasks service.histories).IsStill := ⟨rfl, fun _ => rfl⟩
  obtain ⟨first, hfirst, hready, hcovered, hrest, hhistories, hsent, hsubmit⟩ :=
    hstill.exists_submitAll service.engine store Pool.isCovered_empty rfl rfl
  obtain ⟨last, hlast, hend, hdrain, hrest', hrefusal⟩ :=
    hready.exists_workOff service store hcovered time first.shift.pool.pending
  have hidle : last.shift.pool.isIdle = true := by
    have hafter := hcovered.isIdle_drain (handler store) time (service.during first)
    rwa [Pool.drain, ← hdrain] at hafter
  have hstop : last.callerTurn = last.act .stop := by
    rw [BatchCall.callerTurn, hend.caller, hrest', hrest]
    exact if_pos hidle
  obtain ⟨turns, hturns⟩ :=
    (hfirst.trans hlast).trans (BatchCall.reaches_callerTurn service.engine store last)
  have hcall : service.batchAfter store tasks turns = last.act .stop := hturns.trans hstop
  refine ⟨turns, ?_⟩
  rw [hcall]
  refine ⟨⟨rfl, hend.worker⟩, ?_⟩
  have hbefore : service.during first = service := by
    simp [during, hhistories, hsent, BatchCall.start]
  rw [hbefore] at hdrain
  change Pool.empty.submitAll tasks = _ at hsubmit
  change MetricAlerts.runBatch (handler store) tasks time service = _
  simp only [MetricAlerts.runBatch, hsubmit, Pool.drain, ← hdrain, BatchCall.answer]
  have hsame : (last.act .stop).refusal = first.refusal := hrefusal
  rw [hsame]
  cases first.refusal with
  | some e => rfl
  | none => rfl

theorem effects_nonempty (service : Service σ) (store : HistoryStore σ) (tasks : List Task) :
    (service.effects store tasks).Nonempty := by
  obtain ⟨turns, hover, -⟩ := service.exists_turns_runBatch store tasks ⟨0, 0⟩
  exact ⟨_, turns, hover, rfl⟩

end Service

end MetricAlerts
