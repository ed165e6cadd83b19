import Mathlib.Data.Set.Defs
import MetricAlerts.Proofs.Batch.Handling
import MetricAlerts.Proofs.Batch.Rotation
import MetricAlerts.Proofs.Batch.Shift

/-!
# A batch under way

One caller runs a batch: it hands in the tasks in their order, up to the first
one that is refused, waits until the pool is idle, and stops the pool.  Workers
are at the pool from the beginning.  So the first tasks may be finished before
the last ones are handed in, and a refusal comes while workers are busy.  A
turn is one act at the pool or one step of the dialogue in which a task is
handled; nothing is assumed about whose turn it is.
-/

namespace MetricAlerts

structure BatchCall (σ : Type) where
  shift : Shift
  /-- Tasks that are still to be handed in. -/
  rest : List Task
  refusal : Option PoolError
  /-- What a worker has still to do for the task that it handles. -/
  underway : Nat → Option (Dialogue AlertEvent (Except PassError Outcome))
  histories : σ
  sent : List AlertEvent

inductive BatchTurn where
  | caller
  | worker (worker : Nat) (time : Instant)

namespace BatchCall

open Function (update)

variable {σ : Type}

def start (tasks : List Task) (histories : σ) : BatchCall σ :=
  ⟨.start, tasks, none, fun _ => none, histories, []⟩

def act (call : BatchCall σ) (next : Shift.Act) : BatchCall σ :=
  { call with shift := call.shift.act next }

/-- The caller has one task under way at a time.  Having handed in what there
was, it does not stop the pool before it is idle. -/
def callerTurn (call : BatchCall σ) : BatchCall σ :=
  match call.shift.callers 0, call.rest with
  | .entering _ false, _ => call.act (.record 0)
  | .entering _ true, _ => call.act (.queue 0)
  | .free, task :: rest =>
      match call.shift.pool.refusal? task with
      | none => { call.act (.submit 0 task) with rest }
      | some e => { call with rest := [], refusal := some e }
  | .free, [] => if call.shift.pool.isIdle then call.act .stop else call

def workerTurn (engine : Engine) (store : HistoryStore σ) (call : BatchCall σ) (worker : Nat)
    (time : Instant) : BatchCall σ :=
  match call.shift.workers worker, call.underway worker with
  | .free, _ => call.act (.look worker)
  | .ready, _ => call.act (.take worker)
  | .holding _ .taken, _ => call.act (.mark worker time)
  | .holding task .marked, _ =>
      { call.act (.handle worker) with
        underway := update call.underway worker (some (engine.handling task)) }
  | .holding _ .handling, some (.done answer) =>
      call.act (.finish worker time (answer.mapError PassError.message))
  | .holding _ .handling, some dialogue =>
      let (next, histories, sent) := dialogue.step store call.histories
      { call with
        underway := update call.underway worker (some next)
        histories
        sent := call.sent ++ sent }
  | .holding _ .handling, none => call

def turn (engine : Engine) (store : HistoryStore σ) (call : BatchCall σ) :
    BatchTurn → BatchCall σ
  | .caller => call.callerTurn
  | .worker worker time => call.workerTurn engine store worker time

def run (engine : Engine) (store : HistoryStore σ) (turns : List BatchTurn)
    (call : BatchCall σ) : BatchCall σ :=
  turns.foldl (turn engine store) call

theorem run_append {engine : Engine} {store : HistoryStore σ} (first later : List BatchTurn)
    (call : BatchCall σ) :
    call.run engine store (first ++ later) =
      (call.run engine store first).run engine store later :=
  List.foldl_append

/-- The pool is stopped, and no worker has anything left to do. -/
def IsOver (call : BatchCall σ) : Prop :=
  call.shift.pool.stopping = true ∧ ∀ worker, call.shift.workers worker = .free

/-- The answer of a call that is over. -/
def answer (tasks : List Task) (call : BatchCall σ) : Except PoolError (List TaskRecord) :=
  match call.refusal with
  | some e => .error e
  | none => (tasks.map Task.id).mapM call.shift.pool.record

/-- Everything that a call has changed: what is on record, what was handled,
the histories and the alerts. -/
def effect (call : BatchCall σ) : Shift × σ × List AlertEvent :=
  (call.shift, call.histories, call.sent)

end BatchCall

namespace Service

variable {σ : Type}

/-- A batch on a service, after some turns. -/
def batchAfter (service : Service σ) (store : HistoryStore σ) (tasks : List Task)
    (turns : List BatchTurn) : BatchCall σ :=
  (BatchCall.start tasks service.histories).run service.engine store turns

/-- All that a batch can come to, once it is over. -/
def effects (service : Service σ) (store : HistoryStore σ) (tasks : List Task) :
    Set (Shift × σ × List AlertEvent) :=
  {effect | ∃ turns, (service.batchAfter store tasks turns).IsOver ∧
    (service.batchAfter store tasks turns).effect = effect}

end Service

end MetricAlerts
