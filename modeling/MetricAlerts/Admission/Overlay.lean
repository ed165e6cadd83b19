import MetricAlerts.Admission.Store

/-!
# Overlays

A store that reads through to another one and keeps everything that is written to itself. The first
write of a key goes by the version that its writer has read below; later ones are checked.
-/

namespace MetricAlerts

structure Overlay (σ : Type) where
  base : σ
  written : Ledger

namespace Overlay

variable {σ : Type}

/-- An overlay with nothing written yet. -/
def fresh (base : σ) : Overlay σ := ⟨base, .empty⟩

def load (store : HistoryStore σ) (key : AlertKey) (overlay : Overlay σ) :
    Except StoreError Versioned × Overlay σ :=
  match overlay.written.find? key with
  | some versioned => (.ok versioned, overlay)
  | none =>
      let (answer, base) := store.load key overlay.base
      (answer, { overlay with base })

def swap (key : AlertKey) (version : Nat) (history : History) (overlay : Overlay σ) :
    Except StoreError Nat × Overlay σ :=
  if overlay.written.contains key then
    let (answer, written) := overlay.written.trySwap key version history
    (answer, { overlay with written })
  else
    (.ok (version + 1),
      { overlay with written := overlay.written.insert key ⟨history, version + 1⟩ })

def store (base : HistoryStore σ) : HistoryStore (Overlay σ) where
  load := load base
  swap := swap

/-- The histories written so far, in the order of keys. -/
def pending (overlay : Overlay σ) : List HistoryRecord :=
  overlay.written.records

end Overlay

end MetricAlerts
