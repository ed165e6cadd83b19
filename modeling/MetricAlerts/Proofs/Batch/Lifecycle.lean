import MetricAlerts.Proofs.Batch.Journey

/-!
# The life of a task

What the journeys of the tasks come to: where a task is, what its record tells
and how often it is handled.  A record is changed by the worker who has the
task and by nobody else, so it goes through its states once and in order; and a
pool is idle only when every journey is at its end.
-/

namespace MetricAlerts

/-- What may become of a record in one act: it is written, started and ended, in
this order. -/
inductive TaskRecord.Step : Option TaskRecord → Option TaskRecord → Prop
  | stays (found : Option TaskRecord) : Step found found
  | written {record : TaskRecord} (hqueued : record.status = .queued) :
      Step none (some record)
  | started {before after : TaskRecord} (htask : after.task = before.task)
      (hqueued : before.status = .queued) (hrunning : after.status = .running) :
      Step (some before) (some after)
  | ended {before after : TaskRecord} (htask : after.task = before.task)
      (hrunning : before.status = .running) (hended : after.status.isFinished = true) :
      Step (some before) (some after)

namespace Shift

variable {shift : Shift} {ids : List Uuid} {journey : Uuid → Option (Task × Stage)}
  {task : Task}

theorem step_insert {after : TaskRecord}
    (hstep : TaskRecord.Step (shift.record? task.id) (some after)) (id : Uuid) :
    TaskRecord.Step (shift.record? id)
      ((shift.pool.records.insert task.id after).find? id) := by
  rw [Table.find?_insert]
  split
  · next hid =>
      rw [hid]
      exact hstep
  · exact .stays _

theorem Follows.record_act (hshift : shift.Follows ids journey) (next : Act) (id : Uuid) :
    TaskRecord.Step (shift.record? id) ((shift.act next).record? id) := by
  cases next with
  | submit caller task =>
      simp only [Shift.act]
      split <;> exact .stays _
  | record caller =>
      simp only [Shift.act]
      split
      · next task hentering =>
          have hnone := hshift.record task.id
          rw [(hshift.caller caller task false).1 hentering] at hnone
          have hwritten : TaskRecord.Step (shift.record? task.id) (some (.new task)) := by
            rw [hnone]
            exact .written rfl
          exact step_insert hwritten id
      · exact .stays _
  | queue caller =>
      simp only [Shift.act]
      split <;> exact .stays _
  | look worker =>
      simp only [Shift.act]
      split
      · split <;> exact .stays _
      · exact .stays _
  | take worker =>
      simp only [Shift.act, Pool.dequeue]
      split <;> exact .stays _
  | mark worker time =>
      simp only [Shift.act]
      split
      · next task htaken =>
          obtain ⟨record, hfind, -, -, hstatus⟩ := hshift.exists_record_of_holding htaken
          have hstarted : TaskRecord.Step (shift.record? task.id)
              (some (record.start time)) := by
            rw [hfind]
            exact .started rfl hstatus rfl
          rw [Pool.start, Pool.update_eq hfind]
          exact step_insert hstarted id
      · exact .stays _
  | handle worker =>
      simp only [Shift.act]
      split <;> exact .stays _
  | finish worker time result =>
      simp only [Shift.act]
      split
      · next task hhandling =>
          obtain ⟨record, hfind, -, -, hstatus⟩ := hshift.exists_record_of_holding hhandling
          have hended : TaskRecord.Step (shift.record? task.id)
              (some (record.finish time result)) := by
            rw [hfind]
            cases result <;> exact .ended rfl hstatus rfl
          rw [Pool.finish, Pool.update_eq hfind]
          exact step_insert hended id
      · exact .stays _
  | stop => exact .stays _

/-- Where an accepted task can be. -/
inductive Place where
  | rotation
  | hands (worker : Nat)
  | finished

def IsAt (shift : Shift) (task : Task) : Place → Prop
  | .rotation => task ∈ shift.pool.waiting.jobs
  | .hands worker => (shift.workers worker).task? = some task
  | .finished =>
      ∃ record, shift.record? task.id = some record ∧ record.status.isFinished = true

theorem Follows.isAt_hands_iff (hshift : shift.Follows ids journey) (worker : Nat) :
    shift.IsAt task (.hands worker) ↔
      ∃ progress, journey task.id = some (task, .inHand worker progress) := by
  simp only [IsAt, ← hshift.worker]
  cases shift.workers worker <;> simp [Worker.task?, eq_comm]

theorem Follows.isAt_finished_iff (hshift : shift.Follows ids journey) {stage : Stage}
    (hjourney : journey task.id = some (task, stage)) :
    shift.IsAt task .finished ↔ stage = .finished := by
  constructor
  · rintro ⟨record, hfind, hended⟩
    by_cases hrecorded : stage.isRecorded = true
    · obtain ⟨same, hsame, -, -, hfits⟩ := hshift.exists_record hjourney hrecorded
      rw [hfind, Option.some_inj] at hsame
      exact Stage.eq_finished_of_fits (hsame ▸ hfits) hended
    · have htells := hshift.record task.id
      rw [hjourney, Stage.Tells, if_neg hrecorded, hfind] at htells
      cases htells
  · rintro rfl
    obtain ⟨record, hfind, -, -, hended⟩ := hshift.exists_record hjourney rfl
    exact ⟨record, hfind, hended⟩

/-- An accepted task is at the place that its journey says, and nowhere else. -/
theorem Follows.existsUnique_place (hshift : shift.Follows ids journey)
    (htask : task ∈ shift.accepted) : ∃! place, shift.IsAt task place := by
  obtain ⟨stage, hjourney, haccepted⟩ := (hshift.accepted task).1 htask
  have hrotation : shift.IsAt task .rotation ↔ stage = .waiting := by
    rw [IsAt, hshift.waiting, hjourney]
    simp
  have hhands : ∀ worker, shift.IsAt task (.hands worker) ↔
      ∃ progress, stage = .inHand worker progress := by
    intro worker
    rw [hshift.isAt_hands_iff, hjourney]
    simp
  have hfinished := hshift.isAt_finished_iff hjourney
  cases stage with
  | entering caller recorded => cases haccepted
  | waiting =>
      refine ⟨.rotation, hrotation.2 rfl, ?_⟩
      rintro (_ | worker | _) hplace
      · rfl
      · simp [hhands] at hplace
      · simp [hfinished] at hplace
  | inHand worker progress =>
      refine ⟨.hands worker, (hhands worker).2 ⟨progress, rfl⟩, ?_⟩
      rintro (_ | other | _) hplace
      · simp [hrotation] at hplace
      · simpa [hhands, eq_comm] using hplace
      · simp [hfinished] at hplace
  | finished =>
      refine ⟨.finished, hfinished.2 rfl, ?_⟩
      rintro (_ | worker | _) hplace
      · simp [hrotation] at hplace
      · simp [hhands] at hplace
      · rfl

/-- In an idle pool every journey that got as far as its record is at its
end. -/
theorem Follows.eq_finished_of_isIdle (hshift : shift.Follows ids journey)
    (hidle : shift.pool.isIdle = true) {stage : Stage}
    (hjourney : journey task.id = some (task, stage)) (hrecorded : stage.isRecorded = true) :
    stage = .finished := by
  obtain ⟨record, hfind, -, -, hfits⟩ := hshift.exists_record hjourney hrecorded
  exact Stage.eq_finished_of_fits hfits
    (List.all_eq_true.1 hidle record (Table.mem_values_of_find? hfind))

theorem Follows.of_isIdle (hshift : shift.Follows ids journey)
    (hidle : shift.pool.isIdle = true) :
    shift.pool.pending = 0 ∧
    (∀ worker, (shift.workers worker).task? = none) ∧
    ∀ task ∈ shift.accepted, shift.handled.count task = 1 := by
  refine ⟨?_, ?_, ?_⟩
  · rw [Pool.pending, Rotation.pending_eq, List.length_eq_zero_iff,
      List.eq_nil_iff_forall_not_mem]
    intro task hwaiting
    cases hshift.eq_finished_of_isIdle hidle ((hshift.waiting task).1 hwaiting) rfl
  · intro worker
    rw [Option.eq_none_iff_forall_ne_some]
    intro task hholding
    obtain ⟨progress, hjourney⟩ := (hshift.isAt_hands_iff worker).1 hholding
    cases hshift.eq_finished_of_isIdle hidle hjourney rfl
  · intro task haccepted
    obtain ⟨stage, hjourney, hstage⟩ := (hshift.accepted task).1 haccepted
    obtain rfl := hshift.eq_finished_of_isIdle hidle hjourney
      (Stage.isRecorded_of_isAccepted hstage)
    exact List.count_eq_one_of_mem hshift.handledOnce
      ((hshift.handled task).2 ⟨_, hjourney, rfl⟩)

theorem Follows.isRegular (hshift : shift.Follows ids journey) {id : Uuid}
    {record : TaskRecord} (hfind : shift.record? id = some record) : record.IsRegular := by
  have htells := hshift.record id
  rw [hfind] at htells
  cases hjourney : journey id with
  | none =>
      rw [hjourney] at htells
      cases htells
  | some stop =>
      obtain ⟨task, stage⟩ := stop
      simp only [hjourney, Stage.Tells] at htells
      split at htells
      · obtain ⟨_, hsame, -, hregular, -⟩ := htells
        cases hsame
        exact hregular
      · cases htells

theorem Follows.nodup_ids_handled (hshift : shift.Follows ids journey) :
    (shift.handled.map Task.id).Nodup := by
  refine hshift.handledOnce.map_on ?_
  intro task htask other hother hid
  obtain ⟨_, hjourney, -⟩ := (hshift.handled task).1 htask
  obtain ⟨_, hsame, -⟩ := (hshift.handled other).1 hother
  rw [hid, hsame] at hjourney
  simpa using congrArg (Option.map Prod.fst) hjourney.symm

/-- However the acts of callers and workers fall, every accepted task is in the
rotation, in the hands of one worker or finished, and only one of these.  Its
record is there before it is queued, and it is written, started and ended once,
with an outcome or an error at its end and neither before.  No task is given to
the handler twice; and when the pool is idle nobody has a task and each
accepted one was given to the handler. -/
theorem existsUnique_place_of_accepted (acts : List Act)
    (hids : ((acts.filterMap Act.task?).map Task.id).Nodup) :
    let shift := run acts
    (∀ task ∈ shift.accepted, ∃! place, shift.IsAt task place) ∧
    shift.pool.waiting.jobs.Nodup ∧
    (∀ task, task ∈ shift.accepted ∨ (∃ caller, shift.callers caller = .entering task true) →
      ∃ record, shift.record? task.id = some record ∧ record.task = task) ∧
    (∀ before next after, acts = before ++ next :: after → ∀ id,
      TaskRecord.Step ((run before).record? id) ((run (before ++ [next])).record? id)) ∧
    (∀ id record, shift.record? id = some record → record.IsRegular) ∧
    (shift.handled.map Task.id).Nodup ∧
    (shift.pool.isIdle = true →
      shift.pool.pending = 0 ∧
      (∀ worker, (shift.workers worker).task? = none) ∧
      ∀ task ∈ shift.accepted, shift.handled.count task = 1) := by
  intro shift
  obtain ⟨journey, hshift⟩ := exists_follows acts hids
  refine ⟨fun task htask => hshift.existsUnique_place htask, hshift.waitingOnce, ?_, ?_,
    fun id record hfind => hshift.isRegular hfind, hshift.nodup_ids_handled, hshift.of_isIdle⟩
  · intro task htask
    obtain ⟨stage, hjourney, hrecorded⟩ : ∃ stage,
        journey task.id = some (task, stage) ∧ stage.isRecorded = true := by
      rcases htask with haccepted | ⟨caller, hentering⟩
      · obtain ⟨stage, hjourney, hstage⟩ := (hshift.accepted task).1 haccepted
        exact ⟨stage, hjourney, Stage.isRecorded_of_isAccepted hstage⟩
      · exact ⟨_, (hshift.caller caller task true).1 hentering, rfl⟩
    obtain ⟨record, hfind, htask, -⟩ := hshift.exists_record hjourney hrecorded
    exact ⟨record, hfind, htask⟩
  · rintro before next after rfl id
    have hbefore : ((before.filterMap Act.task?).map Task.id).Nodup := by
      rw [List.filterMap_append, List.map_append] at hids
      exact (List.nodup_append.1 hids).1
    obtain ⟨journey, hearlier⟩ := exists_follows before hbefore
    rw [run_concat]
    exact hearlier.record_act next id

/-- The second task is handed in while the first one is being handled, and the
first one fails after the second one has been taken. -/
def twoTenants : List Act :=
  let day : Day := ⟨7, by decide, by decide⟩
  let first : Task := ⟨⟨"a"⟩, "acme", "ada", day, .evaluate, ⟨0, 0⟩⟩
  let second : Task := ⟨⟨"b"⟩, "brio", "bob", day, .simulate true, ⟨0, 0⟩⟩
  [.submit 0 first, .record 0, .submit 1 second, .look 1, .queue 0, .take 1, .look 0,
    .mark 1 ⟨1, 0⟩, .record 1, .handle 1, .queue 1, .take 0, .finish 1 ⟨2, 0⟩ (.error "down"),
    .mark 0 ⟨3, 0⟩, .handle 0, .finish 0 ⟨4, 0⟩ (.ok ⟨[], [], 0⟩)]

theorem existsUnique_place_of_accepted_twoTenants :
    ((twoTenants.filterMap Act.task?).map Task.id).Nodup ∧
    (run twoTenants).accepted.length = 2 ∧
    (run twoTenants).pool.isIdle = true ∧
    (∀ task ∈ (run twoTenants).accepted, ∃! place, (run twoTenants).IsAt task place) ∧
    ((run twoTenants).handled.map Task.id).Nodup ∧
    (run twoTenants).pool.pending = 0 ∧
    (∀ worker, ((run twoTenants).workers worker).task? = none) ∧
    ∀ task ∈ (run twoTenants).accepted, (run twoTenants).handled.count task = 1 := by
  have hids : ((twoTenants.filterMap Act.task?).map Task.id).Nodup := by decide
  have hidle : (run twoTenants).pool.isIdle = true := by decide +kernel
  obtain ⟨hplaces, -, -, -, -, honce, hend⟩ := existsUnique_place_of_accepted twoTenants hids
  exact ⟨hids, by decide +kernel, hidle, hplaces, honce, hend hidle⟩

end Shift

end MetricAlerts
