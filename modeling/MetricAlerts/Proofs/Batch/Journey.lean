import MetricAlerts.Proofs.Batch.Rotation
import MetricAlerts.Proofs.Batch.Shift

/-!
# The journey of a task

Rotation, hands and records are changed in different acts, so a task can be on
record and nowhere else, or in somebody's hands while its record still says
that it is queued.  The argument follows each task id on its journey: from its
caller to the rotation, from there to one worker, and to the end.  At every
moment an id is at one point of its journey, and this point says where the task
is and what its record tells.
-/

namespace MetricAlerts

/-- A point of the journey of a task. -/
inductive Stage where
  | entering (caller : Nat) (recorded : Bool)
  | waiting
  | inHand (worker : Nat) (progress : Progress)
  | finished

namespace Stage

def isRecorded : Stage → Bool
  | entering _ recorded => recorded
  | waiting | inHand _ _ | finished => true

def isAccepted : Stage → Bool
  | entering _ _ => false
  | waiting | inHand _ _ | finished => true

def isHandled : Stage → Bool
  | inHand _ .handling | finished => true
  | entering _ _ | waiting | inHand _ .taken | inHand _ .marked => false

/-- The status that a record may have at this point. -/
def Fits : Stage → TaskStatus → Prop
  | entering _ _, status | waiting, status | inHand _ .taken, status => status = .queued
  | inHand _ .marked, status | inHand _ .handling, status => status = .running
  | finished, status => status.isFinished = true

theorem isRecorded_of_isAccepted {stage : Stage} (hstage : stage.isAccepted = true) :
    stage.isRecorded = true := by
  cases stage with
  | entering caller recorded => cases hstage
  | waiting | inHand worker progress | finished => rfl

theorem eq_finished_of_fits {stage : Stage} {status : TaskStatus} (hfits : stage.Fits status)
    (hended : status.isFinished = true) : stage = finished := by
  cases stage with
  | entering caller recorded =>
      cases hfits
      cases hended
  | waiting =>
      cases hfits
      cases hended
  | inHand worker progress =>
      cases progress <;> cases hfits <;> cases hended
  | finished => rfl

end Stage

/-- A record tells of an outcome just if its task was completed, and of an
error just if it failed. -/
structure TaskRecord.IsRegular (record : TaskRecord) : Prop where
  outcome : record.outcome.isSome = true ↔ record.status = .completed
  lastError : record.lastError.isSome = true ↔ record.status = .failed

namespace TaskRecord

variable {record : TaskRecord}

theorem isRegular_new (task : Task) : (new task).IsRegular :=
  ⟨by simp [new], by simp [new]⟩

theorem IsRegular.start (hrecord : record.IsRegular) (hstatus : record.status = .queued)
    (time : Instant) : (record.start time).IsRegular := by
  have houtcome := hrecord.outcome
  rw [hstatus] at houtcome
  exact ⟨by simpa [TaskRecord.start] using houtcome, by simp [TaskRecord.start]⟩

theorem IsRegular.finish (hrecord : record.IsRegular) (hstatus : record.status = .running)
    (time : Instant) (result : Except String Outcome) :
    (record.finish time result).IsRegular := by
  have houtcome := hrecord.outcome
  have herror := hrecord.lastError
  rw [hstatus] at houtcome herror
  cases result with
  | ok outcome => exact ⟨by simp [TaskRecord.finish], by simpa [TaskRecord.finish] using herror⟩
  | error message =>
      exact ⟨by simpa [TaskRecord.finish] using houtcome, by simp [TaskRecord.finish]⟩

end TaskRecord

/-- What is on record of a task at a point of its journey. -/
def Stage.Tells (stop : Option (Task × Stage)) (found : Option TaskRecord) : Prop :=
  match stop with
  | none => found = none
  | some (task, stage) =>
      if stage.isRecorded then
        ∃ record, found = some record ∧ record.task = task ∧ record.IsRegular ∧
          stage.Fits record.status
      else found = none

theorem Pool.update_eq {pool : Pool} {id : Uuid} {record : TaskRecord}
    (hfind : pool.records.find? id = some record) (change : TaskRecord → TaskRecord) :
    pool.update id change =
      { pool with records := pool.records.insert id (change record) } := by
  rw [update, hfind]

namespace Shift

open Function (update)

/-- The journeys on which the tasks of a shift are: those at whom a task is and
those who have it on their lists agree with its journey. -/
structure Follows (shift : Shift) (ids : List Uuid)
    (journey : Uuid → Option (Task × Stage)) : Prop where
  known : ∀ id, journey id ≠ none → id ∈ ids
  inStep : shift.pool.waiting.InStep
  caller : ∀ caller task recorded, shift.callers caller = .entering task recorded ↔
    journey task.id = some (task, .entering caller recorded)
  waiting : ∀ task, task ∈ shift.pool.waiting.jobs ↔ journey task.id = some (task, .waiting)
  waitingOnce : shift.pool.waiting.jobs.Nodup
  worker : ∀ worker task progress, shift.workers worker = .holding task progress ↔
    journey task.id = some (task, .inHand worker progress)
  record : ∀ id, Stage.Tells (journey id) (shift.record? id)
  accepted : ∀ task, task ∈ shift.accepted ↔
    ∃ stage, journey task.id = some (task, stage) ∧ stage.isAccepted = true
  handled : ∀ task, task ∈ shift.handled ↔
    ∃ stage, journey task.id = some (task, stage) ∧ stage.isHandled = true
  handledOnce : shift.handled.Nodup

variable {shift : Shift} {ids : List Uuid} {journey : Uuid → Option (Task × Stage)}
  {task : Task}

theorem follows_start : start.Follows [] fun _ => none where
  known := by simp
  inStep := Rotation.inStep_empty
  caller := by simp [start]
  waiting := by simp [start, Pool.empty, Rotation.jobs, Rotation.empty, Table.values, Table.empty]
  waitingOnce := List.nodup_nil
  worker := by simp [start]
  record _ := rfl
  accepted := by simp [start]
  handled := by simp [start]
  handledOnce := List.nodup_nil

/-- A task comes to another point of its journey, and no record is touched. -/
theorem tells_moved (hbefore : ∀ id, Stage.Tells (journey id) (shift.record? id))
    {next : Stage} (hnext : Stage.Tells (some (task, next)) (shift.record? task.id))
    (id : Uuid) :
    Stage.Tells (update journey task.id (some (task, next)) id) (shift.record? id) := by
  by_cases hid : id = task.id
  · subst hid
    rw [Function.update_self]
    exact hnext
  · rw [Function.update_of_ne hid]
    exact hbefore id

/-- The same with a new record of the task. -/
theorem tells_written (hbefore : ∀ id, Stage.Tells (journey id) (shift.record? id))
    {next : Stage} {record : TaskRecord} (hnext : Stage.Tells (some (task, next)) (some record))
    (id : Uuid) :
    Stage.Tells (update journey task.id (some (task, next)) id)
      ((shift.pool.records.insert task.id record).find? id) := by
  rw [Table.find?_insert]
  by_cases hid : id = task.id
  · subst hid
    rw [Function.update_self, if_pos rfl]
    exact hnext
  · rw [Function.update_of_ne hid, if_neg hid]
    exact hbefore id

theorem Follows.exists_record {stage : Stage} (hshift : shift.Follows ids journey)
    (hjourney : journey task.id = some (task, stage)) (hrecorded : stage.isRecorded = true) :
    ∃ record, shift.record? task.id = some record ∧ record.task = task ∧ record.IsRegular ∧
      stage.Fits record.status := by
  have htells := hshift.record task.id
  simpa only [hjourney, Stage.Tells, hrecorded, if_true] using htells

theorem Follows.submit {caller : Nat} (hshift : shift.Follows ids journey)
    (hfree : shift.callers caller = .free) (hnew : journey task.id = none) :
    Follows { shift with callers := update shift.callers caller (.entering task false) }
      (ids ++ [task.id]) (update journey task.id (some (task, .entering caller false))) := by
  have hnone : shift.record? task.id = none := by
    have htells := hshift.record task.id
    rwa [hnew] at htells
  obtain ⟨hknown, hstep, hcaller, hwaiting, hwaitingOnce, hworker, hrecord, haccepted, hhandled,
    hhandledOnce⟩ := hshift
  refine ⟨?_, hstep, ?_, ?_, hwaitingOnce, ?_, tells_moved hrecord hnone, ?_, ?_, hhandledOnce⟩
  all_goals grind [Function.update_apply, Stage.isAccepted, Stage.isHandled]

theorem Follows.register {caller : Nat} (hshift : shift.Follows ids journey)
    (hentering : shift.callers caller = .entering task false) :
    Follows
      { shift with
        pool := shift.pool.register task
        callers := update shift.callers caller (.entering task true) }
      ids (update journey task.id (some (task, .entering caller true))) := by
  obtain ⟨hknown, hstep, hcaller, hwaiting, hwaitingOnce, hworker, hrecord, haccepted, hhandled,
    hhandledOnce⟩ := hshift
  refine ⟨?_, hstep, ?_, ?_, hwaitingOnce, ?_, ?record, ?_, ?_, hhandledOnce⟩
  case record =>
    exact tells_written hrecord ⟨.new task, rfl, rfl, TaskRecord.isRegular_new task, rfl⟩
  all_goals grind [Function.update_apply, Pool.register, Stage.isAccepted, Stage.isHandled]

theorem Follows.enqueue {caller : Nat} (hshift : shift.Follows ids journey)
    (hentering : shift.callers caller = .entering task true) :
    Follows
      { shift with
        pool := shift.pool.enqueue task
        callers := update shift.callers caller .free
        accepted := shift.accepted ++ [task] }
      ids (update journey task.id (some (task, .waiting))) := by
  have hfound := hshift.record task.id
  rw [(hshift.caller caller task true).1 hentering] at hfound
  obtain ⟨hknown, hstep, hcaller, hwaiting, hwaitingOnce, hworker, hrecord, haccepted, hhandled,
    hhandledOnce⟩ := hshift
  have hjobs := shift.pool.waiting.jobs_enqueue_perm task.tenant task
  have hmem : ∀ other, other ∈ (shift.pool.enqueue task).waiting.jobs ↔
      other ∈ shift.pool.waiting.jobs ∨ other = task := fun _ => Rotation.mem_jobs_enqueue
  refine ⟨?_, hstep.enqueue task.tenant task, ?_, ?_, ?once, ?_, tells_moved hrecord hfound, ?_,
    ?_, hhandledOnce⟩
  case once =>
    refine hjobs.nodup_iff.2 (List.nodup_append.2 ⟨hwaitingOnce, List.nodup_singleton task, ?_⟩)
    grind
  all_goals grind [Function.update_apply, Stage.isAccepted, Stage.isHandled]

variable {worker : Nat}

theorem Follows.exists_record_of_holding {progress : Progress}
    (hshift : shift.Follows ids journey)
    (hholding : shift.workers worker = .holding task progress) :
    ∃ record, shift.record? task.id = some record ∧ record.task = task ∧ record.IsRegular ∧
      (Stage.inHand worker progress).Fits record.status :=
  hshift.exists_record ((hshift.worker worker task progress).1 hholding) rfl

/-- A worker without a task may look around. -/
theorem Follows.wait {next : Worker} (hshift : shift.Follows ids journey)
    (hbefore : (shift.workers worker).task? = none) (hnext : next.task? = none) :
    Follows { shift with workers := update shift.workers worker next } ids journey := by
  obtain ⟨hknown, hstep, hcaller, hwaiting, hwaitingOnce, hworker, hrecord, haccepted, hhandled,
    hhandledOnce⟩ := hshift
  refine ⟨hknown, hstep, hcaller, hwaiting, hwaitingOnce, ?_, hrecord, haccepted, hhandled,
    hhandledOnce⟩
  grind [Function.update_apply, Worker.task?]

theorem Follows.take (hshift : shift.Follows ids journey)
    (hready : shift.workers worker = .ready)
    (hnext : shift.pool.waiting.next.1 = some task) :
    Follows
      { shift with
        pool := { shift.pool with waiting := shift.pool.waiting.next.2 }
        workers := update shift.workers worker (.holding task .taken) }
      ids (update journey task.id (some (task, .inHand worker .taken))) := by
  obtain ⟨hknown, hstep, hcaller, hwaiting, hwaitingOnce, hworker, hrecord, haccepted, hhandled,
    hhandledOnce⟩ := hshift
  rcases hstep.next_cases with ⟨-, hnone⟩ | ⟨_, _, job, _, -, -, hjob, -, -, hperm⟩
  · rw [hnone] at hnext
    cases hnext
  · obtain rfl : job = task := by simpa [hnext] using hjob.symm
    have hfound := hrecord job.id
    have hjourney : journey job.id = some (job, .waiting) :=
      (hwaiting job).1 (hperm.mem_iff.2 List.mem_cons_self)
    rw [hjourney] at hfound
    have honce := List.nodup_cons.1 (hperm.nodup_iff.1 hwaitingOnce)
    have hmem : ∀ other, other ∈ shift.pool.waiting.jobs ↔
        other = job ∨ other ∈ shift.pool.waiting.next.2.jobs := by
      intro other
      simpa using hperm.mem_iff
    refine ⟨?_, hstep.next, ?_, ?_, honce.2, ?_, tells_moved hrecord hfound, ?_, ?_, hhandledOnce⟩
    all_goals grind [Function.update_apply, Stage.isAccepted, Stage.isHandled]

theorem Follows.mark (hshift : shift.Follows ids journey)
    (htaken : shift.workers worker = .holding task .taken) (time : Instant) :
    Follows
      { shift with
        pool := shift.pool.start task time
        workers := update shift.workers worker (.holding task .marked) }
      ids (update journey task.id (some (task, .inHand worker .marked))) := by
  obtain ⟨record, hfind, htask, hregular, hstatus⟩ := hshift.exists_record_of_holding htaken
  obtain ⟨hknown, hstep, hcaller, hwaiting, hwaitingOnce, hworker, hrecord, haccepted, hhandled,
    hhandledOnce⟩ := hshift
  have hpool : shift.pool.start task time =
      { shift.pool with records := shift.pool.records.insert task.id (record.start time) } :=
    Pool.update_eq hfind _
  rw [hpool]
  refine ⟨?_, hstep, ?_, ?_, hwaitingOnce, ?_, ?record, ?_, ?_, hhandledOnce⟩
  case record =>
    exact tells_written hrecord
      ⟨record.start time, rfl, htask, hregular.start hstatus time, rfl⟩
  all_goals grind [Function.update_apply, Stage.isAccepted, Stage.isHandled]

theorem Follows.handle (hshift : shift.Follows ids journey)
    (hmarked : shift.workers worker = .holding task .marked) :
    Follows
      { shift with
        workers := update shift.workers worker (.holding task .handling)
        handled := shift.handled ++ [task] }
      ids (update journey task.id (some (task, .inHand worker .handling))) := by
  have hfound := hshift.record task.id
  rw [(hshift.worker worker task .marked).1 hmarked] at hfound
  obtain ⟨hknown, hstep, hcaller, hwaiting, hwaitingOnce, hworker, hrecord, haccepted, hhandled,
    hhandledOnce⟩ := hshift
  refine ⟨?_, hstep, ?_, ?_, hwaitingOnce, ?_, tells_moved hrecord hfound, ?_, ?_, ?once⟩
  case once =>
    refine List.nodup_append.2 ⟨hhandledOnce, List.nodup_singleton task, ?_⟩
    grind [Stage.isHandled]
  all_goals grind [Function.update_apply, Stage.isAccepted, Stage.isHandled]

theorem Follows.finish (hshift : shift.Follows ids journey)
    (hhandling : shift.workers worker = .holding task .handling) (time : Instant)
    (result : Except String Outcome) :
    Follows
      { shift with
        pool := shift.pool.finish task time result
        workers := update shift.workers worker .free }
      ids (update journey task.id (some (task, .finished))) := by
  obtain ⟨record, hfind, htask, hregular, hstatus⟩ := hshift.exists_record_of_holding hhandling
  obtain ⟨hknown, hstep, hcaller, hwaiting, hwaitingOnce, hworker, hrecord, haccepted, hhandled,
    hhandledOnce⟩ := hshift
  have hpool : shift.pool.finish task time result =
      { shift.pool with
        records := shift.pool.records.insert task.id (record.finish time result) } :=
    Pool.update_eq hfind _
  rw [hpool]
  refine ⟨?_, hstep, ?_, ?_, hwaitingOnce, ?_, ?record, ?_, ?_, hhandledOnce⟩
  case record =>
    refine tells_written hrecord
      ⟨record.finish time result, rfl, ?_, hregular.finish hstatus time result, ?_⟩
    · cases result <;> exact htask
    · cases result <;> rfl
  all_goals grind [Function.update_apply, Stage.isAccepted, Stage.isHandled]

/-! ## Any acts -/

theorem Follows.mono {more : List Uuid} (hshift : shift.Follows ids journey)
    (hmore : ids ⊆ more) : shift.Follows more journey :=
  { hshift with known := fun id hid => hmore (hshift.known id hid) }

/-- A task that is handed in has to be new; the other acts only lead the known
tasks on. -/
theorem Follows.act (hshift : shift.Follows ids journey) (next : Act)
    (hnew : ∀ task ∈ next.task?, task.id ∉ ids) :
    ∃ later, (shift.act next).Follows (ids ++ (next.task?.map Task.id).toList) later := by
  have hstill : shift.Follows (ids ++ (next.task?.map Task.id).toList) journey :=
    hshift.mono (List.subset_append_left _ _)
  cases next with
  | submit caller task =>
      simp only [Shift.act]
      split
      · next hfree _ =>
          have hunknown : journey task.id = none := by
            by_contra hknown
            exact hnew task rfl (hshift.known _ hknown)
          exact ⟨_, hshift.submit hfree hunknown⟩
      · exact ⟨_, hstill⟩
  | record caller =>
      simp only [Shift.act]
      split
      · next hentering => exact ⟨_, hstill.register hentering⟩
      · exact ⟨_, hstill⟩
  | queue caller =>
      simp only [Shift.act]
      split
      · next hentering => exact ⟨_, hstill.enqueue hentering⟩
      · exact ⟨_, hstill⟩
  | look worker =>
      simp only [Shift.act]
      split
      · next hfree =>
          split
          · exact ⟨_, hstill⟩
          · exact ⟨_, hstill.wait (by rw [hfree]; rfl) rfl⟩
      · exact ⟨_, hstill⟩
  | take worker =>
      simp only [Shift.act, Pool.dequeue]
      split
      · next hready =>
          cases hnext : shift.pool.waiting.next.1 with
          | some task => exact ⟨_, hstill.take hready hnext⟩
          | none =>
              rw [hshift.inStep.next_of_none hnext]
              exact ⟨_, hstill.wait (by rw [hready]; rfl) rfl⟩
      · exact ⟨_, hstill⟩
  | mark worker time =>
      simp only [Shift.act]
      split
      · next htaken => exact ⟨_, hstill.mark htaken time⟩
      · exact ⟨_, hstill⟩
  | handle worker =>
      simp only [Shift.act]
      split
      · next hmarked => exact ⟨_, hstill.handle hmarked⟩
      · exact ⟨_, hstill⟩
  | finish worker time result =>
      simp only [Shift.act]
      split
      · next hhandling => exact ⟨_, hstill.finish hhandling time result⟩
      · exact ⟨_, hstill⟩
  | stop => exact ⟨_, { hstill with }⟩

theorem exists_follows (acts : List Act)
    (hids : ((acts.filterMap Act.task?).map Task.id).Nodup) :
    ∃ journey, (run acts).Follows ((acts.filterMap Act.task?).map Task.id) journey := by
  induction acts using List.reverseRecOn with
  | nil => exact ⟨_, follows_start⟩
  | append_singleton acts next ih =>
      have hconcat : ((acts ++ [next]).filterMap Act.task?).map Task.id =
          (acts.filterMap Act.task?).map Task.id ++ (next.task?.map Task.id).toList := by
        rw [List.filterMap_append, List.map_append]
        cases hnext : next.task? <;> simp [hnext]
      rw [hconcat] at hids ⊢
      rw [run_concat]
      have ⟨hbefore, _, hapart⟩ := List.nodup_append.1 hids
      obtain ⟨journey, hshift⟩ := ih hbefore
      refine hshift.act next ?_
      intro task htask hold
      rw [Option.mem_def.1 htask] at hapart
      exact hapart _ hold _ (by simp) rfl

end Shift

end MetricAlerts
