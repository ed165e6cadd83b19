import MetricAlerts.Table

/-!
# Rotations

Jobs wait in one queue for each tenant, and the tenants stand in a line. Within a queue the oldest
job comes first; a tenant that still has jobs after its turn goes to the end of the line. So a
tenant with many jobs cannot hold up the others.
-/

namespace MetricAlerts

structure Rotation (α : Type) where
  queues : Table String (List α)
  /-- Tenants in the order of their turns. -/
  line : List String

namespace Rotation

variable {α : Type}

def empty : Rotation α := ⟨.empty, []⟩

/-- The waiting jobs of a tenant, oldest first. -/
def jobsOf (rotation : Rotation α) (tenant : String) : List α :=
  (rotation.queues.find? tenant).getD []

/-- A tenant without a place in the line goes to its end. -/
def enqueue (rotation : Rotation α) (tenant : String) (job : α) : Rotation α where
  queues := rotation.queues.insert tenant (rotation.jobsOf tenant ++ [job])
  line :=
    if rotation.line.contains tenant then rotation.line else rotation.line ++ [tenant]

/-- Goes along a line of tenants up to the first one with a job. A tenant without a queue drops out
of the line, and a queue without a job is given up. -/
def nextIn (queues : Table String (List α)) : List String → Option α × Rotation α
  | [] => (none, ⟨queues, []⟩)
  | tenant :: line =>
      match queues.find? tenant with
      | none => nextIn queues line
      | some [] => nextIn (queues.erase tenant) line
      | some [job] => (some job, ⟨queues.erase tenant, line⟩)
      | some (job :: next :: rest) =>
          (some job, ⟨queues.insert tenant (next :: rest), line ++ [tenant]⟩)

/-- The oldest job of the tenant whose turn it is. -/
def next (rotation : Rotation α) : Option α × Rotation α :=
  nextIn rotation.queues rotation.line

def next? (rotation : Rotation α) : Option (α × Rotation α) :=
  match rotation.next with
  | (some job, rotation) => some (job, rotation)
  | (none, _) => none

def tenants (rotation : Rotation α) : List String :=
  rotation.line

/-- Every waiting job, queue by queue. -/
def jobs (rotation : Rotation α) : List α :=
  rotation.queues.values.flatten

def pending (rotation : Rotation α) : Nat :=
  rotation.queues.values.foldl (fun count queue => count + queue.length) 0

end Rotation

end MetricAlerts
