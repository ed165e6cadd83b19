import MetricAlerts.Batch.Rotation
import MetricAlerts.Batch.Task
import MetricAlerts.Text.Blank

/-!
# Pools

Tasks are submitted to a pool, taken from its rotation by workers, begun and finished. Each step is
an operation of its own, so that workers can be interleaved in any way; draining a pool is the way
of a single worker.
-/

namespace MetricAlerts

inductive PoolError where
  | unknownTask (id : Uuid)
  | shuttingDown
  | blankTenant
  | blankUser
deriving DecidableEq

def PoolError.message : PoolError → String
  | unknownTask id => "task not found: " ++ id.text
  | shuttingDown => "runtime is shutting down"
  | blankTenant => "invalid tenant id"
  | blankUser => "invalid user id"

structure Pool where
  waiting : Rotation Task
  records : Table Uuid TaskRecord
  stopping : Bool

namespace Pool

def empty : Pool := ⟨.empty, .empty, false⟩

/-- What is wrong with a task that is handed in, whatever the pool. -/
def fault? (task : Task) : Option PoolError :=
  if Text.allBlank task.tenant then some .blankTenant
  else if Text.allBlank task.user then some .blankUser
  else none

def refusal? (pool : Pool) (task : Task) : Option PoolError :=
  if pool.stopping then some .shuttingDown else fault? task

/-- The record comes first, so that every task in the rotation has one. -/
def register (pool : Pool) (task : Task) : Pool :=
  { pool with records := pool.records.insert task.id (.new task) }

def enqueue (pool : Pool) (task : Task) : Pool :=
  { pool with waiting := pool.waiting.enqueue task.tenant task }

def submit (pool : Pool) (task : Task) : Except PoolError Pool :=
  match pool.refusal? task with
  | some e => .error e
  | none => .ok ((pool.register task).enqueue task)

def dequeue (pool : Pool) : Option Task × Pool :=
  let (task, waiting) := pool.waiting.next
  (task, { pool with waiting })

/-- A worker takes the next task, unless the pool is stopping. -/
def take (pool : Pool) : Option Task × Pool :=
  if pool.stopping then (none, pool) else pool.dequeue

def update (pool : Pool) (id : Uuid) (change : TaskRecord → TaskRecord) : Pool :=
  match pool.records.find? id with
  | some record => { pool with records := pool.records.insert id (change record) }
  | none => pool

@[simp]
theorem waiting_update (pool : Pool) (id : Uuid) (change : TaskRecord → TaskRecord) :
    (pool.update id change).waiting = pool.waiting := by
  rw [update]
  split <;> rfl

@[simp]
theorem stopping_update (pool : Pool) (id : Uuid) (change : TaskRecord → TaskRecord) :
    (pool.update id change).stopping = pool.stopping := by
  rw [update]
  split <;> rfl

theorem find?_update (pool : Pool) (id other : Uuid) (change : TaskRecord → TaskRecord) :
    (pool.update id change).records.find? other =
      if other = id then (pool.records.find? id).map change else pool.records.find? other := by
  rw [update]
  cases hfind : pool.records.find? id with
  | none =>
      by_cases hid : other = id
      · simp [hid, hfind]
      · simp [hid]
  | some record => exact Table.find?_insert ..

def start (pool : Pool) (task : Task) (time : Instant) : Pool :=
  pool.update task.id fun record => record.start time

def finish (pool : Pool) (task : Task) (time : Instant) (result : Except String Outcome) : Pool :=
  pool.update task.id fun record => record.finish time result

def stop (pool : Pool) : Pool :=
  { pool with stopping := true }

def pending (pool : Pool) : Nat :=
  pool.waiting.pending

/-- Whether every submitted task has been finished. -/
def isIdle (pool : Pool) : Bool :=
  pool.records.values.all fun record => record.status.isFinished

def record (pool : Pool) (id : Uuid) : Except PoolError TaskRecord :=
  match pool.records.find? id with
  | some record => .ok record
  | none => .error (.unknownTask id)

/-- Records of a tenant, in the order of the tasks' creation. -/
def recordsOf (pool : Pool) (tenant : String) : List TaskRecord :=
  (pool.records.values.filter fun record => record.task.tenant = tenant).mergeSort
    fun a b => a.task.created ≤ b.task.created

variable {σ : Type}

/-- What runs a task: it answers with an outcome or the text of an error. -/
abbrev Handler (σ : Type) := Task → σ → Except String Outcome × σ

/-- Takes a task, runs it and finishes it, all at one time. -/
def work (pool : Pool) (handle : Handler σ) (time : Instant) (state : σ) : Pool × σ :=
  match pool.take with
  | (none, pool) => (pool, state)
  | (some task, pool) =>
      let (result, state) := handle task state
      ((pool.start task time).finish task time result, state)

/-- Works off at most `count` tasks. -/
def workOff (handle : Handler σ) (time : Instant) : (count : Nat) → Pool → σ → Pool × σ
  | 0, pool, state => (pool, state)
  | count + 1, pool, state =>
      let (pool, state) := pool.work handle time state
      workOff handle time count pool state

/-- Works off every waiting task. -/
def drain (pool : Pool) (handle : Handler σ) (time : Instant) (state : σ) : Pool × σ :=
  workOff handle time pool.pending pool state

/-- Submits tasks up to the first one that is refused. -/
def submitAll (pool : Pool) : List Task → Pool × Except PoolError (List Uuid)
  | [] => (pool, .ok [])
  | task :: tasks =>
      match pool.submit task with
      | .error e => (pool, .error e)
      | .ok pool =>
          let (pool, ids) := submitAll pool tasks
          (pool, ids.map (task.id :: ·))

end Pool

/-- Runs tasks in a pool of their own, and answers with their records in the given order. A refused
task keeps those behind it from being submitted, but not those before it from being run. -/
def runBatch {σ : Type} (handle : Pool.Handler σ) (tasks : List Task) (time : Instant)
    (state : σ) : Except PoolError (List TaskRecord) × σ :=
  let (pool, submitted) := Pool.empty.submitAll tasks
  let (pool, state) := pool.drain handle time state
  let pool := pool.stop
  (submitted.bind fun ids => ids.mapM pool.record, state)

/-- Runs tasks on a service. -/
def Service.runBatch {σ : Type} (service : Service σ) (store : HistoryStore σ)
    (tasks : List Task) (time : Instant) :
    Except PoolError (List TaskRecord) × Service σ :=
  let handle (task : Task) (service : Service σ) :=
    let (answer, service) := service.handle store task
    (answer.mapError PassError.message, service)
  MetricAlerts.runBatch handle tasks time service

end MetricAlerts
