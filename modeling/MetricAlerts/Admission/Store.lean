import MetricAlerts.Admission.History
import MetricAlerts.Table

/-!
# Stores of histories

A store keeps a history and its version under each key. A history is replaced only by one who knows
the present version, and the version then goes up by one; so of two writers that have read the same
version only the first one succeeds. The ledger is the store that never fails otherwise.
-/

namespace MetricAlerts

structure Versioned where
  history : History
  version : Nat
deriving DecidableEq

/-- What is read where nothing was stored yet. -/
def Versioned.initial : Versioned := ⟨.empty, 0⟩

inductive StoreError where
  | conflict (key : AlertKey)
  | unreachable (detail : String)
deriving DecidableEq

def StoreError.message : StoreError → String
  | conflict key => "trigger history for " ++ key.text ++ " changed concurrently"
  | unreachable detail => "trigger store unavailable: " ++ detail

structure HistoryStore (σ : Type) where
  load : AlertKey → σ → Except StoreError Versioned × σ
  /-- Replaces the history at the given version and answers with the new version. -/
  swap : AlertKey → (version : Nat) → History → σ → Except StoreError Nat × σ

abbrev Ledger := Table AlertKey Versioned

namespace Ledger

def load (ledger : Ledger) (key : AlertKey) : Versioned :=
  (ledger.find? key).getD .initial

def swap (ledger : Ledger) (key : AlertKey) (version : Nat) (history : History) :
    Except StoreError (Nat × Ledger) :=
  if (ledger.load key).version = version then
    .ok (version + 1, ledger.insert key ⟨history, version + 1⟩)
  else .error (.conflict key)

/-- The answer and the new state of a swap; a swap that fails changes nothing. -/
def trySwap (ledger : Ledger) (key : AlertKey) (version : Nat) (history : History) :
    Except StoreError Nat × Ledger :=
  match ledger.swap key version history with
  | .ok (version, ledger) => (.ok version, ledger)
  | .error e => (.error e, ledger)

@[simp]
theorem load_insert (ledger : Ledger) (key other : AlertKey) (versioned : Versioned) :
    load (ledger.insert key versioned) other =
      if other = key then versioned else ledger.load other := by
  unfold load
  rw [Table.find?_insert]
  split <;> rfl

theorem trySwap_present (ledger : Ledger) (key : AlertKey) (history : History) :
    ledger.trySwap key (ledger.load key).version history =
      (.ok ((ledger.load key).version + 1),
        ledger.insert key ⟨history, (ledger.load key).version + 1⟩) := by
  simp [trySwap, swap]

theorem trySwap_stale {ledger : Ledger} {key : AlertKey} {version : Nat}
    (hstale : (ledger.load key).version ≠ version) (history : History) :
    ledger.trySwap key version history = (.error (.conflict key), ledger) := by
  simp [trySwap, swap, hstale]

def store : HistoryStore Ledger where
  load key ledger := (.ok (ledger.load key), ledger)
  swap key version history ledger := ledger.trySwap key version history

/-- Records enter at version 1; of two with one key the later one counts. -/
def ofRecords (records : List HistoryRecord) : Ledger :=
  .ofList (records.map fun record => (record.key, ⟨record.history, 1⟩))

def history? (ledger : Ledger) (key : AlertKey) : Option History :=
  (ledger.find? key).map Versioned.history

/-- Every stored history, in the order of keys. -/
def records (ledger : Ledger) : List HistoryRecord :=
  (ledger.entries.map fun (key, versioned) => ⟨key, versioned.history⟩).mergeSort
    fun a b => a.key.precedes b.key

end Ledger

end MetricAlerts
