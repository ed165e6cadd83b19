import Mathlib.Data.List.Induction
import Mathlib.Data.List.Nodup
import Mathlib.Data.List.Perm.Basic
import MetricAlerts.Batch.Task
import MetricAlerts.Batch.Rotation

/-!
# Rotations in step

A rotation keeps two accounts of who has jobs: the queues and the line.  They
are changed one after the other, and a turn gives up on a tenant that only one
of them knows.  So everything rests on the two never falling out of step: then
a turn always finds its job, and no job is lost or overtaken by a later one of
its tenant.
-/

namespace MetricAlerts

namespace Rotation

variable {α : Type} {rotation : Rotation α}

/-- The line holds each tenant that has a queue once and nobody else, and no
queue is empty. -/
structure InStep (rotation : Rotation α) : Prop where
  nodup : rotation.line.Nodup
  mem_line : ∀ tenant, tenant ∈ rotation.line ↔
    ∃ queue, rotation.queues.find? tenant = some queue
  nonempty : ∀ tenant queue, rotation.queues.find? tenant = some queue → queue ≠ []

theorem inStep_empty : (empty : Rotation α).InStep where
  nodup := List.nodup_nil
  mem_line := by simp [empty]
  nonempty := by simp [empty]

theorem InStep.mem_line_iff (hstep : rotation.InStep) (tenant : String) :
    tenant ∈ rotation.line ↔ rotation.jobsOf tenant ≠ [] := by
  rw [hstep.mem_line, jobsOf]
  cases hqueue : rotation.queues.find? tenant with
  | none => simp
  | some queue => simpa using hstep.nonempty tenant queue hqueue

/-- The jobs are those of one tenant and those in the queues of the others. -/
theorem jobs_perm (rotation : Rotation α) (tenant : String) :
    rotation.jobs.Perm
      (rotation.jobsOf tenant ++ (rotation.queues.erase tenant).values.flatten) := by
  have hvalues := (rotation.queues.values_perm tenant).flatten
  rw [List.flatten_append] at hvalues
  refine hvalues.trans (List.Perm.append_right _ ?_)
  rw [jobsOf]
  cases rotation.queues.find? tenant <;> simp

theorem pending_eq (rotation : Rotation α) : rotation.pending = rotation.jobs.length := by
  have hcount : ∀ (queues : List (List α)) (count : Nat),
      queues.foldl (fun count queue => count + queue.length) count =
        count + queues.flatten.length := by
    intro queues
    induction queues with
    | nil => simp
    | cons queue queues ih =>
        intro count
        rw [List.foldl_cons, ih, List.flatten_cons, List.length_append, Nat.add_assoc]
  rw [pending, jobs, hcount, Nat.zero_add]

@[simp]
theorem jobsOf_enqueue (rotation : Rotation α) (tenant other : String) (job : α) :
    (rotation.enqueue tenant job).jobsOf other =
      if other = tenant then rotation.jobsOf tenant ++ [job] else rotation.jobsOf other := by
  rw [jobsOf, enqueue, Table.find?_insert]
  split <;> rfl

theorem jobs_enqueue_perm (rotation : Rotation α) (tenant : String) (job : α) :
    (rotation.enqueue tenant job).jobs.Perm (rotation.jobs ++ [job]) := by
  have hnew := (rotation.enqueue tenant job).jobs_perm tenant
  rw [jobsOf_enqueue, if_pos rfl] at hnew
  have hqueues : (rotation.enqueue tenant job).queues.erase tenant =
      rotation.queues.erase tenant := Table.erase_insert ..
  rw [hqueues, List.append_assoc] at hnew
  have hold := (rotation.jobs_perm tenant).append_right [job]
  rw [List.append_assoc] at hold
  exact hnew.trans ((List.perm_append_comm.append_left _).trans hold.symm)

theorem mem_jobs_enqueue {tenant : String} {job other : α} :
    other ∈ (rotation.enqueue tenant job).jobs ↔ other ∈ rotation.jobs ∨ other = job := by
  simpa using (rotation.jobs_enqueue_perm tenant job).mem_iff

theorem InStep.enqueue (hstep : rotation.InStep) (tenant : String) (job : α) :
    (rotation.enqueue tenant job).InStep where
  nodup := by
    simp only [Rotation.enqueue, List.contains_iff_mem]
    split
    · exact hstep.nodup
    · next hline =>
        refine List.nodup_append.2 ⟨hstep.nodup, List.nodup_singleton tenant, ?_⟩
        rintro other hother last hlast rfl
        exact hline (List.mem_singleton.1 hlast ▸ hother)
  mem_line := by
    intro other
    have hline : other ∈ (rotation.enqueue tenant job).line ↔
        other = tenant ∨ other ∈ rotation.line := by
      simp only [Rotation.enqueue, List.contains_iff_mem]
      split
      · next hmem =>
          constructor
          · exact .inr
          · rintro (rfl | hother)
            · exact hmem
            · exact hother
      · simp [or_comm]
    rw [hline, hstep.mem_line, Rotation.enqueue, Table.find?_insert]
    split
    · next hother => simp [hother]
    · next hother => simp [hother]
  nonempty := by
    intro other queue hqueue
    rw [Rotation.enqueue, Table.find?_insert] at hqueue
    split at hqueue
    · cases hqueue
      simp
    · exact hstep.nonempty other queue hqueue

/-! ## Turns -/

theorem next_of_line_nil (hline : rotation.line = []) : rotation.next = (none, rotation) := by
  obtain ⟨queues, line⟩ := rotation
  subst hline
  rfl

section Head

variable {tenant : String} {line : List String} {job later : α} {rest : List α}

/-- A tenant with its last job leaves the line. -/
theorem next_of_last (hline : rotation.line = tenant :: line)
    (hqueue : rotation.queues.find? tenant = some [job]) :
    rotation.next = (some job, ⟨rotation.queues.erase tenant, line⟩) := by
  simp only [next, hline, nextIn, hqueue]

/-- A tenant with more jobs goes to the end of the line. -/
theorem next_of_more (hline : rotation.line = tenant :: line)
    (hqueue : rotation.queues.find? tenant = some (job :: later :: rest)) :
    rotation.next = (some job,
      ⟨rotation.queues.insert tenant (later :: rest), line ++ [tenant]⟩) := by
  simp only [next, hline, nextIn, hqueue]

end Head

/-- A turn of a rotation in step is one of two things: nobody waits, or the
oldest job of the first tenant is given out. -/
theorem InStep.next_cases (hstep : rotation.InStep) :
    (rotation.line = [] ∧ rotation.next = (none, rotation)) ∨
    ∃ tenant line job queue,
      rotation.line = tenant :: line ∧
      rotation.jobsOf tenant = job :: queue ∧
      rotation.next.1 = some job ∧
      rotation.next.2.line = (if queue = [] then line else line ++ [tenant]) ∧
      (∀ other, rotation.next.2.queues.find? other =
        if other = tenant then (if queue = [] then none else some queue)
        else rotation.queues.find? other) ∧
      rotation.jobs.Perm (job :: rotation.next.2.jobs) := by
  cases hline : rotation.line with
  | nil => exact .inl ⟨rfl, next_of_line_nil hline⟩
  | cons tenant line =>
      right
      obtain ⟨waiting, hwaiting⟩ := (hstep.mem_line tenant).1 (hline ▸ List.mem_cons_self)
      cases waiting with
      | nil => exact absurd rfl (hstep.nonempty tenant [] hwaiting)
      | cons job queue =>
          have hjobs : rotation.jobsOf tenant = job :: queue := by
            rw [jobsOf, hwaiting, Option.getD_some]
          have hperm := rotation.jobs_perm tenant
          rw [hjobs] at hperm
          refine ⟨tenant, line, job, queue, rfl, hjobs, ?_⟩
          cases queue with
          | nil =>
              rw [next_of_last hline hwaiting]
              exact ⟨rfl, rfl, by simp, hperm⟩
          | cons later rest =>
              rw [next_of_more hline hwaiting]
              refine ⟨rfl, rfl, by simp, hperm.trans (.cons job ?_)⟩
              have hnew := jobs_perm
                ⟨rotation.queues.insert tenant (later :: rest), line ++ [tenant]⟩ tenant
              simp only [jobsOf, Table.find?_insert, if_pos, Option.getD_some,
                Table.erase_insert] at hnew
              exact hnew.symm

theorem InStep.next (hstep : rotation.InStep) : rotation.next.2.InStep := by
  rcases hstep.next_cases with
    ⟨-, hnext⟩ | ⟨tenant, line, job, queue, hline, hjobs, -, hnext, hfind, -⟩
  · rw [hnext]
    exact hstep
  · have hnodup := hstep.nodup
    rw [hline, List.nodup_cons] at hnodup
    have hline_iff : ∀ other, other ∈ rotation.next.2.line ↔
        other ∈ line ∨ (other = tenant ∧ queue ≠ []) := by
      intro other
      rw [hnext]
      split <;> simp [*]
    refine ⟨?_, ?_, ?_⟩
    · rw [hnext]
      split
      · exact hnodup.2
      · exact (List.perm_append_singleton tenant line).nodup_iff.2
          (List.nodup_cons.2 hnodup)
    · intro other
      have hmem := hstep.mem_line other
      rw [hline, List.mem_cons] at hmem
      rw [hline_iff, hfind]
      by_cases hother : other = tenant
      · subst hother
        by_cases hqueue : queue = [] <;> simp [hqueue, hnodup.1]
      · simpa [hother] using hmem
    · intro other rest hrest
      rw [hfind] at hrest
      split at hrest
      · split at hrest
        · cases hrest
        · next hqueue =>
            cases hrest
            exact hqueue
      · exact hstep.nonempty other rest hrest

theorem InStep.next_of_none (hstep : rotation.InStep) (hnone : rotation.next.1 = none) :
    rotation.next = (none, rotation) := by
  rcases hstep.next_cases with ⟨-, hnext⟩ | ⟨_, _, _, _, -, -, hsome, -⟩
  · exact hnext
  · rw [hnone] at hsome
    cases hsome

/-- The jobs are the one that is given out and those that go on waiting. -/
theorem InStep.mem_jobs_iff (hstep : rotation.InStep) {job : α} :
    job ∈ rotation.jobs ↔ rotation.next.1 = some job ∨ job ∈ rotation.next.2.jobs := by
  rcases hstep.next_cases with ⟨-, hnone⟩ | ⟨_, _, first, _, -, -, hfirst, -, -, hperm⟩
  · simp [hnone]
  · simp [hfirst, hperm.mem_iff, eq_comm]

theorem InStep.next_eq_none_iff (hstep : rotation.InStep) :
    rotation.next.1 = none ↔ rotation.pending = 0 := by
  rw [pending_eq, List.length_eq_zero_iff]
  rcases hstep.next_cases with
    ⟨hline, hnext⟩ | ⟨tenant, line, job, queue, -, -, hjob, -, -, hperm⟩
  · rw [hnext]
    refine iff_of_true rfl ?_
    have hkeys : rotation.queues.keys = [] := by
      rw [List.eq_nil_iff_forall_not_mem]
      intro tenant htenant
      rw [Table.mem_keys_iff, ← hstep.mem_line, hline] at htenant
      cases htenant
    have hentries : rotation.queues.entries = [] := List.map_eq_nil_iff.1 hkeys
    rw [jobs, Table.values, hentries]
    rfl
  · rw [hjob]
    refine iff_of_false (by simp) ?_
    intro hnone
    rw [hnone] at hperm
    cases hperm.nil_eq

theorem InStep.pending_next (hstep : rotation.InStep) :
    rotation.next.2.pending = rotation.pending - 1 := by
  rw [pending_eq, pending_eq]
  rcases hstep.next_cases with ⟨hline, hnext⟩ | ⟨_, _, _, _, -, -, -, -, -, hperm⟩
  · have hnone := hstep.next_eq_none_iff.1 (congrArg Prod.fst hnext)
    rw [pending_eq] at hnone
    rw [hnext, hnone]
  · rw [hperm.length_eq, List.length_cons, Nat.add_sub_cancel]

end Rotation

/-- A call to a rotation of tasks. -/
inductive RotationCall where
  | enqueue (task : Task)
  | next

def RotationCall.task? : RotationCall → Option Task
  | enqueue task => some task
  | next => none

/-- A rotation of tasks, and the tasks that it has given out so far. -/
structure Dispatch where
  rotation : Rotation Task
  given : List Task

namespace Dispatch

def empty : Dispatch := ⟨.empty, []⟩

def call (dispatch : Dispatch) : RotationCall → Dispatch
  | .enqueue task =>
      { dispatch with rotation := dispatch.rotation.enqueue task.tenant task }
  | .next =>
      let (task, rotation) := dispatch.rotation.next
      ⟨rotation, dispatch.given ++ task.toList⟩

def run (calls : List RotationCall) : Dispatch :=
  calls.foldl call empty

theorem run_concat (calls : List RotationCall) (last : RotationCall) :
    run (calls ++ [last]) = (run calls).call last :=
  List.foldl_append

/-- Of the tasks that were handed in, the dispatch has given out the oldest of
each tenant and holds the others. -/
structure AccountsFor (dispatch : Dispatch) (tasks : List Task) : Prop where
  inStep : dispatch.rotation.InStep
  perm : (dispatch.given ++ dispatch.rotation.jobs).Perm tasks
  inOrder : ∀ tenant,
    dispatch.given.filter (fun task => task.tenant = tenant) ++
        dispatch.rotation.jobsOf tenant =
      tasks.filter fun task => task.tenant = tenant

variable {dispatch : Dispatch} {tasks : List Task}

theorem AccountsFor.tenant_eq (hdispatch : dispatch.AccountsFor tasks) {tenant : String}
    {task : Task} (htask : task ∈ dispatch.rotation.jobsOf tenant) : task.tenant = tenant := by
  have hmem : task ∈ tasks.filter fun task => task.tenant = tenant := by
    rw [← hdispatch.inOrder tenant]
    exact List.mem_append_right _ htask
  simpa using (List.mem_filter.1 hmem).2

theorem accountsFor_empty : empty.AccountsFor [] where
  inStep := Rotation.inStep_empty
  perm := .refl []
  inOrder _ := rfl

theorem AccountsFor.enqueue (hdispatch : dispatch.AccountsFor tasks) (task : Task) :
    (dispatch.call (.enqueue task)).AccountsFor (tasks ++ [task]) where
  inStep := hdispatch.inStep.enqueue task.tenant task
  perm := by
    have hjobs := dispatch.rotation.jobs_enqueue_perm task.tenant task
    refine (hjobs.append_left dispatch.given).trans ?_
    rw [← List.append_assoc]
    exact hdispatch.perm.append_right [task]
  inOrder := by
    intro tenant
    have hbefore := hdispatch.inOrder tenant
    simp only [call, Rotation.jobsOf_enqueue]
    rw [List.filter_append, ← hbefore, List.append_assoc]
    by_cases htenant : task.tenant = tenant
    · subst htenant
      simp
    · simp [htenant, Ne.symm htenant]

theorem AccountsFor.next (hdispatch : dispatch.AccountsFor tasks) :
    (dispatch.call .next).AccountsFor tasks := by
  rcases hdispatch.inStep.next_cases with
    ⟨-, hnext⟩ | ⟨tenant, line, task, queue, -, hjobs, htask, -, hfind, hperm⟩
  · have hsame : dispatch.call .next = dispatch := by simp [call, hnext]
    rw [hsame]
    exact hdispatch
  · have hown : task.tenant = tenant := hdispatch.tenant_eq (hjobs ▸ List.mem_cons_self)
    have hcall : dispatch.call .next = ⟨dispatch.rotation.next.2, dispatch.given ++ [task]⟩ := by
      simp [call, htask]
    have hqueues : ∀ other, dispatch.rotation.next.2.jobsOf other =
        if other = tenant then queue else dispatch.rotation.jobsOf other := by
      intro other
      rw [Rotation.jobsOf, hfind]
      split
      · by_cases hqueue : queue = [] <;> simp [hqueue]
      · rfl
    rw [hcall]
    refine ⟨hdispatch.inStep.next, ?_, ?_⟩
    · rw [List.append_assoc]
      exact (hperm.symm.append_left dispatch.given).trans hdispatch.perm
    · intro other
      have hbefore := hdispatch.inOrder other
      simp only [hqueues, List.filter_append, List.append_assoc]
      rw [← hbefore]
      by_cases hother : other = tenant
      · subst hother
        simp [hown, hjobs]
      · simp [hown, hother, Ne.symm hother]

theorem accountsFor_run (calls : List RotationCall) :
    (run calls).AccountsFor (calls.filterMap RotationCall.task?) := by
  induction calls using List.reverseRecOn with
  | nil => exact accountsFor_empty
  | append_singleton calls call ih =>
      rw [run_concat, List.filterMap_append]
      cases call with
      | enqueue task => exact ih.enqueue task
      | next =>
          change AccountsFor _ (calls.filterMap RotationCall.task? ++ [])
          rw [List.append_nil]
          exact ih.next

/-- Whatever the calls, the line holds exactly the tenants that have jobs, each
of them once, no queue is empty, and a turn comes to nothing just if no task is
pending.  The tasks given out and the pending ones are all that were handed in,
and those of each tenant are given out in the order in which they came. -/
theorem given_append_jobs_perm (calls : List RotationCall) :
    let dispatch := run calls
    let tasks := calls.filterMap RotationCall.task?
    dispatch.rotation.tenants.Nodup ∧
    (∀ tenant, tenant ∈ dispatch.rotation.tenants ↔ dispatch.rotation.jobsOf tenant ≠ []) ∧
    (∀ tenant queue, dispatch.rotation.queues.find? tenant = some queue → queue ≠ []) ∧
    (dispatch.rotation.next.1 = none ↔ dispatch.rotation.pending = 0) ∧
    dispatch.rotation.pending = dispatch.rotation.jobs.length ∧
    (dispatch.given ++ dispatch.rotation.jobs).Perm tasks ∧
    ∀ tenant,
      dispatch.given.filter (fun task => task.tenant = tenant) ++
          dispatch.rotation.jobsOf tenant =
        tasks.filter fun task => task.tenant = tenant := by
  intro dispatch tasks
  have hrun := accountsFor_run calls
  exact ⟨hrun.inStep.nodup, hrun.inStep.mem_line_iff, hrun.inStep.nonempty,
    hrun.inStep.next_eq_none_iff, dispatch.rotation.pending_eq, hrun.perm, hrun.inOrder⟩

end Dispatch

end MetricAlerts
