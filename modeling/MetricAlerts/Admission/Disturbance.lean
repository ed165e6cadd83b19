import MetricAlerts.Admission.Store

/-!
# Disturbed stores

A store of which some calls do not get through: those for certain rules never do, and a number of
others meet a conflict first. A call that does not get through changes nothing.
-/

namespace MetricAlerts

/-- What stands in the way of one kind of call. -/
structure Hindrance where
  /-- Rules for which no call gets through. -/
  down : List String
  /-- Conflicts still to come. -/
  conflicts : Nat
deriving DecidableEq

namespace Hindrance

def none : Hindrance := ⟨[], 0⟩

/-- The error that a call for the key meets, and what is left in the way. -/
def meet (hindrance : Hindrance) (key : AlertKey) (detail : String) :
    Option StoreError × Hindrance :=
  if hindrance.down.contains key.rule then (some (.unreachable detail), hindrance)
  else match hindrance.conflicts with
    | 0 => (Option.none, hindrance)
    | conflicts + 1 => (some (.conflict key), { hindrance with conflicts })

end Hindrance

structure Disturbed (σ : Type) where
  base : σ
  loads : Hindrance
  swaps : Hindrance

namespace Disturbed

variable {σ : Type}

def load (store : HistoryStore σ) (key : AlertKey) (state : Disturbed σ) :
    Except StoreError Versioned × Disturbed σ :=
  match state.loads.meet key "read timed out" with
  | (some e, loads) => (.error e, { state with loads })
  | (none, loads) =>
      let (answer, base) := store.load key state.base
      (answer, { state with base, loads })

def swap (store : HistoryStore σ) (key : AlertKey) (version : Nat) (history : History)
    (state : Disturbed σ) : Except StoreError Nat × Disturbed σ :=
  match state.swaps.meet key "write rejected" with
  | (some e, swaps) => (.error e, { state with swaps })
  | (none, swaps) =>
      let (answer, base) := store.swap key version history state.base
      (answer, { state with base, swaps })

def store (base : HistoryStore σ) : HistoryStore (Disturbed σ) where
  load := load base
  swap := swap base

end Disturbed

end MetricAlerts
