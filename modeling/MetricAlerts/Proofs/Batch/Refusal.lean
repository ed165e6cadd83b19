import MetricAlerts.Proofs.Batch.OneWorker
import MetricAlerts.Proofs.Engine.AlertLimits

/-!
# Batches with a refused task

A refused task ends the handing in of tasks and nothing else.  Those handed in
before it are already on record, a worker may have begun with them, and the
call waits for them as ever.  So a batch with such a task goes the same way as
the batch of the tasks before it, one turn of the caller apart: it is the
answer that tells of the refusal, not what was done.
-/

namespace MetricAlerts

namespace Shift

variable {shift : Shift} {P : Task → Prop}

/-- Every task that is anywhere in a shift has the property. -/
structure Among (P : Task → Prop) (shift : Shift) : Prop where
  inStep : shift.pool.waiting.InStep
  caller : ∀ caller task recorded, shift.callers caller = .entering task recorded → P task
  waiting : ∀ task ∈ shift.pool.waiting.jobs, P task
  worker : ∀ worker task progress, shift.workers worker = .holding task progress → P task
  handled : ∀ task ∈ shift.handled, P task

theorem among_start (P : Task → Prop) : start.Among P where
  inStep := Rotation.inStep_empty
  caller := by simp [start]
  waiting := by simp [start, Pool.empty, Rotation.jobs, Rotation.empty, Table.values, Table.empty]
  worker := by simp [start]
  handled := by simp [start]

theorem Among.act (hshift : shift.Among P) (next : Act) (hnext : ∀ task ∈ next.task?, P task) :
    (shift.act next).Among P := by
  have ⟨hstep, hcaller, hwaiting, hworker, hhandled⟩ := hshift
  cases next with
  | submit caller task =>
      have htask : P task := hnext task rfl
      simp only [Shift.act]
      split
      · refine ⟨hstep, ?_, hwaiting, hworker, hhandled⟩
        grind [Function.update_apply]
      · exact hshift
  | record caller =>
      simp only [Shift.act]
      split
      · refine ⟨hstep, ?_, hwaiting, hworker, hhandled⟩
        grind [Function.update_apply]
      · exact hshift
  | queue caller =>
      simp only [Shift.act]
      split
      · next task hentering =>
          refine ⟨hstep.enqueue task.tenant task, ?_, ?_, hworker, hhandled⟩
          · grind [Function.update_apply]
          · grind [Pool.enqueue, Rotation.mem_jobs_enqueue]
      · exact hshift
  | look worker =>
      simp only [Shift.act]
      split
      · split
        · exact hshift
        · refine ⟨hstep, hcaller, hwaiting, ?_, hhandled⟩
          grind [Function.update_apply]
      · exact hshift
  | take worker =>
      simp only [Shift.act, Pool.dequeue]
      split
      · refine ⟨hstep.next, hcaller, ?_, ?_, hhandled⟩ <;>
          grind [Function.update_apply, Rotation.InStep.mem_jobs_iff]
      · exact hshift
  | mark worker time =>
      simp only [Shift.act]
      split
      · rw [Pool.start]
        refine ⟨?_, hcaller, ?_, ?_, hhandled⟩ <;> simp only [Pool.waiting_update]
        · exact hstep
        · exact hwaiting
        · grind [Function.update_apply]
      · exact hshift
  | handle worker =>
      simp only [Shift.act]
      split
      · refine ⟨hstep, hcaller, hwaiting, ?_, ?_⟩ <;> grind [Function.update_apply]
      · exact hshift
  | finish worker time result =>
      simp only [Shift.act]
      split
      · rw [Pool.finish]
        refine ⟨?_, hcaller, ?_, ?_, hhandled⟩ <;> simp only [Pool.waiting_update]
        · exact hstep
        · exact hwaiting
        · grind [Function.update_apply]
      · exact hshift
  | stop => exact { hshift with }

/-- Nobody but the one who stops a pool closes it. -/
theorem stopping_act (shift : Shift) (next : Act) (hnext : next ≠ .stop) :
    (shift.act next).pool.stopping = shift.pool.stopping := by
  cases next with
  | stop => exact absurd rfl hnext
  | mark worker time =>
      simp only [Shift.act]
      split
      · exact Pool.stopping_update ..
      · rfl
  | finish worker time result =>
      simp only [Shift.act]
      split
      · exact Pool.stopping_update ..
      · rfl
  | look worker =>
      simp only [Shift.act]
      split
      · split <;> rfl
      · rfl
  | submit | record | queue | take | handle =>
      simp only [Shift.act]
      split <;> rfl

end Shift

namespace BatchCall

variable {σ : Type} {engine : Engine} {store : HistoryStore σ} {call long short : BatchCall σ}
  {bad : Task} {after : List Task} {e : PoolError}

section Worker

variable (call) (worker : Nat) (time : Instant)

theorem workerTurn_with_rest (rest : List Task) :
    workerTurn engine store { call with rest } worker time =
      { call.workerTurn engine store worker time with rest } := by
  simp only [workerTurn]
  split <;> rfl

theorem workerTurn_with_refusal (refusal : Option PoolError) :
    workerTurn engine store { call with refusal } worker time =
      { call.workerTurn engine store worker time with refusal } := by
  simp only [workerTurn]
  split <;> rfl

theorem rest_workerTurn : (call.workerTurn engine store worker time).rest = call.rest := by
  rw [workerTurn]
  split <;> rfl

theorem stopping_workerTurn :
    (call.workerTurn engine store worker time).shift.pool.stopping =
      call.shift.pool.stopping := by
  rw [workerTurn]
  split <;> first | exact Shift.stopping_act _ _ (by simp) | rfl

end Worker

/-! ## With the refused task and without it -/

/-- A call with the refused task and a call without it that have come equally
far: the one has more to hand in, or it has been told of the refusal and the
other has nothing left. -/
inductive Mirrors (bad : Task) (after : List Task) (e : PoolError) :
    BatchCall σ → BatchCall σ → Prop
  | handingIn {short : BatchCall σ} (hrest : ∀ task ∈ short.rest, Pool.fault? task = none)
      (hopen : short.shift.pool.stopping = false) :
      Mirrors bad after e short { short with rest := short.rest ++ bad :: after }
  | refused {short : BatchCall σ} (hrest : short.rest = []) :
      Mirrors bad after e short { short with refusal := some e }

theorem Mirrors.workerTurn (hcalls : Mirrors bad after e short long) (worker : Nat)
    (time : Instant) :
    Mirrors bad after e (short.workerTurn engine store worker time)
      (long.workerTurn engine store worker time) := by
  have hsame : (short.workerTurn engine store worker time).rest = short.rest :=
    rest_workerTurn short worker time
  cases hcalls with
  | handingIn hrest hopen =>
      rw [workerTurn_with_rest short worker time (short.rest ++ bad :: after), ← hsame]
      exact .handingIn (hsame ▸ hrest) ((stopping_workerTurn short worker time).trans hopen)
  | refused hrest =>
      rw [workerTurn_with_refusal short worker time (some e)]
      exact .refused (hsame.trans hrest)

theorem callerTurn_with_refusal (hrest : call.rest = []) (refusal : Option PoolError) :
    callerTurn { call with refusal } = { call.callerTurn with refusal } ∧
      call.callerTurn.rest = [] := by
  obtain ⟨shift, rest, before, underway, histories, sent⟩ := call
  subst hrest
  cases hcaller : shift.callers 0 with
  | entering task recorded =>
      cases recorded <;> simp only [callerTurn, hcaller] <;> exact ⟨rfl, rfl⟩
  | free =>
      simp only [callerTurn, hcaller]
      split <;> exact ⟨rfl, rfl⟩

/-- A turn of the caller does the same in both calls, unless it is the one in
which the task is refused. -/
theorem Mirrors.callerTurn (hcalls : Mirrors bad after e short long)
    (hbad : Pool.fault? bad = some e) :
    Mirrors bad after e short.callerTurn long.callerTurn ∨
      (Mirrors bad after e short long.callerTurn ∧
        Mirrors bad after e short.callerTurn long.callerTurn.callerTurn) := by
  have hrefused : short.rest = [] →
      Mirrors bad after e short.callerTurn
        (BatchCall.callerTurn { short with refusal := some e }) := by
    intro hrest
    obtain ⟨hturn, hnone⟩ := callerTurn_with_refusal hrest (some e)
    rw [hturn]
    exact .refused hnone
  cases hcalls with
  | refused hrest => exact .inl (hrefused hrest)
  | handingIn hrest hopen =>
      cases hcaller : short.shift.callers 0 with
      | entering task recorded =>
          left
          cases recorded <;> simp only [BatchCall.callerTurn, hcaller]
          · exact .handingIn hrest ((short.shift.stopping_act (.record 0) (by simp)).trans hopen)
          · exact .handingIn hrest ((short.shift.stopping_act (.queue 0) (by simp)).trans hopen)
      | free =>
          have hrefusal : ∀ task, short.shift.pool.refusal? task = Pool.fault? task := by
            intro task
            simp [Pool.refusal?, hopen]
          cases hnext : short.rest with
          | cons task rest =>
              left
              rw [hnext] at hrest
              obtain ⟨htask, hrest⟩ := List.forall_mem_cons.1 hrest
              simp only [BatchCall.callerTurn, hcaller, hnext, hrefusal, htask, List.cons_append]
              exact .handingIn hrest
                ((short.shift.stopping_act (.submit 0 task) (by simp)).trans hopen)
          | nil =>
              right
              have hlong : BatchCall.callerTurn { short with rest := [] ++ bad :: after } =
                  { short with refusal := some e } := by
                simp only [BatchCall.callerTurn, hcaller, hrefusal, hbad, List.nil_append]
                rw [← hnext]
              rw [hlong]
              exact ⟨.refused hnext, hrefused hnext⟩

/-- If each turn of one call can be followed by turns of the other, then so can
any turns. -/
theorem exists_run_of_exists_turn {R : BatchCall σ → BatchCall σ → Prop}
    (hturn : ∀ {follower leader : BatchCall σ}, R follower leader → ∀ turn,
      ∃ others, R (follower.run engine store others) (leader.turn engine store turn))
    {follower leader : BatchCall σ} (hcalls : R follower leader) (turns : List BatchTurn) :
    ∃ others, R (follower.run engine store others) (leader.run engine store turns) := by
  induction turns generalizing follower leader with
  | nil => exact ⟨[], hcalls⟩
  | cons turn turns ih =>
      obtain ⟨first, hfirst⟩ := hturn hcalls turn
      obtain ⟨later, hlater⟩ := ih hfirst
      refine ⟨first ++ later, ?_⟩
      rw [run_append]
      exact hlater

theorem Mirrors.exists_run_short (hcalls : Mirrors bad after e short long)
    (hbad : Pool.fault? bad = some e) (turns : List BatchTurn) :
    ∃ others, Mirrors bad after e (short.run engine store others)
      (long.run engine store turns) := by
  refine exists_run_of_exists_turn (R := Mirrors bad after e) ?_ hcalls turns
  intro short long hcalls turn
  cases turn with
  | worker worker time => exact ⟨[.worker worker time], hcalls.workerTurn worker time⟩
  | caller =>
      rcases hcalls.callerTurn hbad with hboth | ⟨hone, -⟩
      · exact ⟨[.caller], hboth⟩
      · exact ⟨[], hone⟩

theorem Mirrors.exists_run_long (hcalls : Mirrors bad after e short long)
    (hbad : Pool.fault? bad = some e) (turns : List BatchTurn) :
    ∃ others, Mirrors bad after e (short.run engine store turns)
      (long.run engine store others) := by
  refine exists_run_of_exists_turn (R := fun long short => Mirrors bad after e short long) ?_
    hcalls turns
  intro long short hcalls turn
  cases turn with
  | worker worker time => exact ⟨[.worker worker time], hcalls.workerTurn worker time⟩
  | caller =>
      rcases hcalls.callerTurn hbad with hboth | ⟨-, htwo⟩
      · exact ⟨[.caller], hboth⟩
      · exact ⟨[.caller, .caller], htwo⟩

theorem Mirrors.effect_eq (hcalls : Mirrors bad after e short long) :
    long.effect = short.effect := by
  cases hcalls <;> rfl

theorem Mirrors.isOver_iff (hcalls : Mirrors bad after e short long) :
    long.IsOver ↔ short.IsOver := by
  cases hcalls <;> rfl

theorem Mirrors.refusal_eq (hcalls : Mirrors bad after e short long) (hover : long.IsOver) :
    long.refusal = some e := by
  cases hcalls with
  | handingIn _ hopen => exact absurd (hopen.symm.trans hover.1) Bool.false_ne_true
  | refused => rfl

variable {P : Task → Prop}

theorem among_act (hcall : call.shift.Among P) {next : Shift.Act} (hnext : next.task? = none) :
    (call.act next).shift.Among P :=
  hcall.act next (by simp [hnext])

theorem among_workerTurn (hcall : call.shift.Among P) (worker : Nat) (time : Instant) :
    (call.workerTurn engine store worker time).shift.Among P := by
  have hhandle : (call.act (.handle worker)).shift.Among P := among_act hcall rfl
  rw [workerTurn]
  split <;> first | exact among_act hcall rfl | exact hcall | exact hhandle

theorem among_callerTurn (hcall : call.shift.Among P) (hrest : ∀ task ∈ call.rest, P task) :
    call.callerTurn.shift.Among P ∧ ∀ task ∈ call.callerTurn.rest, P task := by
  rw [callerTurn]
  split
  · exact ⟨among_act hcall rfl, hrest⟩
  · exact ⟨among_act hcall rfl, hrest⟩
  · next task rest _ hnext =>
      rw [hnext] at hrest
      obtain ⟨htask, hrest⟩ := List.forall_mem_cons.1 hrest
      split
      · refine ⟨hcall.act (.submit 0 task) ?_, hrest⟩
        rintro _ ⟨⟩
        exact htask
      · exact ⟨hcall, by simp⟩
  · split
    · exact ⟨among_act hcall rfl, hrest⟩
    · exact ⟨hcall, hrest⟩

theorem among_run (hcall : call.shift.Among P) (hrest : ∀ task ∈ call.rest, P task)
    (turns : List BatchTurn) : (call.run engine store turns).shift.Among P := by
  induction turns generalizing call with
  | nil => exact hcall
  | cons next turns ih =>
      cases next with
      | worker worker time =>
          have hsame : (call.workerTurn engine store worker time).rest = call.rest :=
            rest_workerTurn call worker time
          exact ih (among_workerTurn hcall worker time) (hsame ▸ hrest)
      | caller =>
          obtain ⟨hnext, hleft⟩ := among_callerTurn hcall hrest
          exact ih hnext hleft

end BatchCall

namespace Pool

variable {before : List Task} {bad : Task} {e : PoolError}

theorem submitAll_of_fault (pool : Pool) (after : List Task) (hopen : pool.stopping = false)
    (hbefore : ∀ task ∈ before, fault? task = none) (hbad : fault? bad = some e) :
    pool.submitAll (before ++ bad :: after) = ((pool.submitAll before).1, .error e) := by
  induction before generalizing pool with
  | nil => simp [submitAll, submit, refusal?, hopen, hbad]
  | cons task before ih =>
      obtain ⟨htask, hbefore⟩ := List.forall_mem_cons.1 hbefore
      have hsubmit : pool.submit task = .ok ((pool.register task).enqueue task) := by
        simp [submit, refusal?, hopen, htask]
      have hrest := ih ((pool.register task).enqueue task) hopen hbefore
      simp only [List.cons_append, submitAll, hsubmit, hrest]
      rfl

end Pool

namespace Service

variable {σ : Type}

/-- A refused task cuts a batch short: the answer is the error, and neither it
nor a task behind it is ever handled.  But the tasks before it are: whatever
the batch of those can come to, be it on record, in the histories or in alerts,
this batch can come to, and nothing else. -/
theorem runBatch_eq_before (service : Service σ) (store : HistoryStore σ)
    (before after : List Task) (bad : Task) (e : PoolError)
    (hbefore : ∀ task ∈ before, Pool.fault? task = none) (hbad : Pool.fault? bad = some e) :
    (∀ turns,
      let call := service.batchAfter store (before ++ bad :: after) turns
      (∀ task ∈ call.shift.handled, task ∈ before) ∧
        (call.IsOver → call.answer (before ++ bad :: after) = .error e)) ∧
    service.effects store (before ++ bad :: after) = service.effects store before ∧
    ∀ time, service.runBatch store (before ++ bad :: after) time =
      (.error e, (service.runBatch store before time).2) := by
  have hstart : BatchCall.Mirrors bad after e (.start before service.histories)
      (.start (before ++ bad :: after) service.histories) := .handingIn hbefore rfl
  refine ⟨fun turns => ?_, ?_, ?_⟩
  · obtain ⟨others, hmirrors⟩ := hstart.exists_run_short hbad turns
    refine ⟨?_, fun hover => ?_⟩
    · have hshift : (service.batchAfter store (before ++ bad :: after) turns).shift =
          (service.batchAfter store before others).shift := congrArg Prod.fst hmirrors.effect_eq
      rw [hshift]
      exact (BatchCall.among_run (Shift.among_start (· ∈ before)) (fun _ htask => htask)
        others).handled
    · have hrefusal : (service.batchAfter store (before ++ bad :: after) turns).refusal = some e :=
        hmirrors.refusal_eq hover
      rw [BatchCall.answer, hrefusal]
  · ext effect
    constructor
    · rintro ⟨turns, hover, rfl⟩
      obtain ⟨others, hmirrors⟩ := hstart.exists_run_short hbad turns
      exact ⟨others, hmirrors.isOver_iff.1 hover, hmirrors.effect_eq.symm⟩
    · rintro ⟨turns, hover, rfl⟩
      obtain ⟨others, hmirrors⟩ := hstart.exists_run_long hbad turns
      exact ⟨others, hmirrors.isOver_iff.2 hover, hmirrors.effect_eq⟩
  · intro time
    have hsubmit := Pool.empty.submitAll_of_fault after rfl hbefore hbad
    simp only [runBatch, MetricAlerts.runBatch, hsubmit]
    rfl

def namedTask : Task :=
  ⟨⟨"a"⟩, "acme", "ada", epoch, .evaluate, ⟨0, 0⟩⟩

def namelessTask : Task :=
  ⟨⟨"b"⟩, "acme", " ", epoch, .evaluate, ⟨0, 0⟩⟩

theorem runBatch_eq_before_nameless :
    let service := fresh (.ofRequests onceADayRequests) .empty .empty .initial []
    (∀ task ∈ [namedTask], Pool.fault? task = none) ∧
    Pool.fault? namelessTask = some .blankUser ∧
    (service.effects Ledger.store [namedTask]).Nonempty ∧
    service.effects Ledger.store [namedTask, namelessTask, namedTask] =
      service.effects Ledger.store [namedTask] ∧
    service.runBatch Ledger.store [namedTask, namelessTask, namedTask] ⟨0, 0⟩ =
      (.error .blankUser, (service.runBatch Ledger.store [namedTask] ⟨0, 0⟩).2) := by
  intro service
  have hbefore : ∀ task ∈ [namedTask], Pool.fault? task = none := by decide +kernel
  have hbad : Pool.fault? namelessTask = some .blankUser := by decide +kernel
  obtain ⟨-, heffects, hone⟩ := runBatch_eq_before service Ledger.store [namedTask] [namedTask]
    namelessTask .blankUser hbefore hbad
  exact ⟨hbefore, hbad, service.effects_nonempty _ _, heffects, hone ⟨0, 0⟩⟩

/-- The answer is an error, and yet an alert has gone out and is remembered. -/
theorem alerted_though_refused :
    let service := fresh (.ofRequests onceADayRequests) .empty .empty .initial []
    let finished := service.runBatch Ledger.store [namedTask, namelessTask] ⟨0, 0⟩
    (finished.1.map fun _ => ()) = .error .blankUser ∧
      finished.2.alerts.length = service.alerts.length + 1 ∧
      finished.2.histories.history? ⟨"acme", "ada", "daily"⟩ ≠
        service.histories.history? ⟨"acme", "ada", "daily"⟩ := by
  decide +kernel

end Service

end MetricAlerts
