import Mathlib.Logic.Function.Basic
import MetricAlerts.Batch.Pool

/-!
# Shifts at a pool

Callers hand in tasks and workers take, run and finish them, all at the same
time.  Whatever is done under one lock is one act here: a caller first passes
the checks, then writes the record, then puts the task into the rotation; a
worker looks whether the pool is open, takes a task, marks its record, gives
the task to the handler and writes down the result.  Nothing is assumed about
the order of the acts, about how many callers and workers there are, or about
what the handler answers.
-/

namespace MetricAlerts

/-- How far a caller has come with handing in a task. -/
inductive Caller where
  | free
  | entering (task : Task) (recorded : Bool)

/-- What a worker has done with the task in its hands. -/
inductive Progress where
  | taken
  | marked
  | handling
deriving DecidableEq

inductive Worker where
  | free
  /-- The pool was open when the worker looked. -/
  | ready
  | holding (task : Task) (progress : Progress)

def Worker.task? : Worker → Option Task
  | holding task _ => some task
  | free | ready => none

/-- A pool with those who are at it. -/
structure Shift where
  pool : Pool
  callers : Nat → Caller
  workers : Nat → Worker
  /-- Tasks that have been handed in, in the order in which they were queued. -/
  accepted : List Task
  /-- Tasks that have been given to the handler, in this order. -/
  handled : List Task

inductive Shift.Act where
  | submit (caller : Nat) (task : Task)
  | record (caller : Nat)
  | queue (caller : Nat)
  | look (worker : Nat)
  | take (worker : Nat)
  | mark (worker : Nat) (time : Instant)
  | handle (worker : Nat)
  | finish (worker : Nat) (time : Instant) (result : Except String Outcome)
  | stop

/-- The task that is handed in. -/
def Shift.Act.task? : Act → Option Task
  | submit _ task => some task
  | _ => none

namespace Shift

open Function (update)

def start : Shift :=
  ⟨.empty, fun _ => .free, fun _ => .free, [], []⟩

/-- An act of one who is at another point of its work changes nothing. -/
def act (shift : Shift) : Act → Shift
  | .submit caller task =>
      match shift.callers caller, shift.pool.refusal? task with
      | .free, none =>
          { shift with callers := update shift.callers caller (.entering task false) }
      | _, _ => shift
  | .record caller =>
      match shift.callers caller with
      | .entering task false =>
          { shift with
            pool := shift.pool.register task
            callers := update shift.callers caller (.entering task true) }
      | _ => shift
  | .queue caller =>
      match shift.callers caller with
      | .entering task true =>
          { shift with
            pool := shift.pool.enqueue task
            callers := update shift.callers caller .free
            accepted := shift.accepted ++ [task] }
      | _ => shift
  | .look worker =>
      match shift.workers worker with
      | .free =>
          if shift.pool.stopping then shift
          else { shift with workers := update shift.workers worker .ready }
      | _ => shift
  | .take worker =>
      match shift.workers worker with
      | .ready =>
          let (task, pool) := shift.pool.dequeue
          let next := match task with
            | some task => .holding task .taken
            | none => .free
          { shift with pool, workers := update shift.workers worker next }
      | _ => shift
  | .mark worker time =>
      match shift.workers worker with
      | .holding task .taken =>
          { shift with
            pool := shift.pool.start task time
            workers := update shift.workers worker (.holding task .marked) }
      | _ => shift
  | .handle worker =>
      match shift.workers worker with
      | .holding task .marked =>
          { shift with
            workers := update shift.workers worker (.holding task .handling)
            handled := shift.handled ++ [task] }
      | _ => shift
  | .finish worker time result =>
      match shift.workers worker with
      | .holding task .handling =>
          { shift with
            pool := shift.pool.finish task time result
            workers := update shift.workers worker .free }
      | _ => shift
  | .stop => { shift with pool := shift.pool.stop }

def run (acts : List Act) : Shift :=
  acts.foldl act start

theorem run_concat (acts : List Act) (last : Act) :
    run (acts ++ [last]) = (run acts).act last :=
  List.foldl_append

/-- What is on record of a task id. -/
def record? (shift : Shift) (id : Uuid) : Option TaskRecord :=
  shift.pool.records.find? id

end Shift

end MetricAlerts
