import MetricAlerts.Proofs.Admission.Growth
import MetricAlerts.Proofs.Admission.View

/-!
# What a store owes to its writers

Whoever replaces a history names the version that he has read.  A store keeps
its word if the replacement takes place just if a read would still answer with
that version, and if nothing changes otherwise.  A ledger always does.  An
overlay takes whatever version it is told for a key that it has not written
yet, so it is said here exactly when it does.
-/

namespace MetricAlerts

namespace HistoryStore

variable {σ : Type} {store : HistoryStore σ} {key : AlertKey} {version : Nat}
  {history : History} {state later : σ} {present : Versioned}

/-- What is promised about a replacement: it takes place just if the version is
the one that a read would answer with, which is then raised by one; otherwise
it is turned down as a conflict, and nothing changes. -/
structure KeepsWord (store : HistoryStore σ) (key : AlertKey) (version : Nat)
    (history : History) (state : σ) : Prop where
  takes_iff : (∃ raised later, store.swap key version history state = (.ok raised, later)) ↔
    ∃ present, (store.load key state).1 = .ok present ∧ present.version = version
  taken : ∀ raised later, store.swap key version history state = (.ok raised, later) →
    raised = version + 1 ∧ (store.load key later).1 = .ok ⟨history, raised⟩
  refused : ∀ error later, store.swap key version history state = (.error error, later) →
    error = .conflict key ∧ later = state

theorem keepsWord_of_present (hload : (store.load key state).1 = .ok present)
    (hpresent : present.version = version)
    (hswap : store.swap key version history state = (.ok (version + 1), later))
    (hlater : (store.load key later).1 = .ok ⟨history, version + 1⟩) :
    store.KeepsWord key version history state where
  takes_iff := ⟨fun _ => ⟨present, hload, hpresent⟩, fun _ => ⟨_, _, hswap⟩⟩
  taken raised last hlast := by
    cases hswap.symm.trans hlast
    exact ⟨rfl, hlater⟩
  refused error last hlast := by
    cases hswap.symm.trans hlast

theorem keepsWord_of_stale (hload : (store.load key state).1 = .ok present)
    (hstale : present.version ≠ version)
    (hswap : store.swap key version history state = (.error (.conflict key), state)) :
    store.KeepsWord key version history state where
  takes_iff := by
    constructor
    · rintro ⟨raised, last, hlast⟩
      cases hswap.symm.trans hlast
    · rintro ⟨other, hother, hversion⟩
      cases hload.symm.trans hother
      exact absurd hversion hstale
  taken raised last hlast := by
    cases hswap.symm.trans hlast
  refused error last hlast := by
    cases hswap.symm.trans hlast
    exact ⟨rfl, rfl⟩

/-- A store that takes an outdated version does not keep its word. -/
theorem not_keepsWord_of_taken {raised : Nat}
    (hload : (store.load key state).1 = .ok present) (hstale : present.version ≠ version)
    (hswap : store.swap key version history state = (.ok raised, later)) :
    ¬store.KeepsWord key version history state := by
  intro hword
  obtain ⟨other, hother, hversion⟩ := hword.takes_iff.1 ⟨raised, later, hswap⟩
  cases hload.symm.trans hother
  exact hstale hversion

end HistoryStore

theorem Ledger.keepsWord (ledger : Ledger) (key : AlertKey) (version : Nat)
    (history : History) : Ledger.store.KeepsWord key version history ledger := by
  by_cases hversion : (ledger.load key).version = version
  · subst hversion
    apply HistoryStore.keepsWord_of_present rfl rfl (ledger.trySwap_present key history)
    change Except.ok (Ledger.load _ key) = _
    rw [load_insert, if_pos rfl]
  · exact HistoryStore.keepsWord_of_stale rfl hversion (trySwap_stale hversion history)

namespace Overlay

variable {overlay : Overlay Ledger} {key : AlertKey} {version : Nat}

theorem load_of_written {stored : Versioned} (hwritten : overlay.written.find? key = some stored) :
    (Overlay.store Ledger.store).load key overlay = (.ok stored, overlay) := by
  change Overlay.load Ledger.store key overlay = _
  rw [Overlay.load, hwritten]

theorem load_of_unwritten (hnew : overlay.written.contains key = false) :
    (Overlay.store Ledger.store).load key overlay = (.ok (overlay.base.load key), overlay) := by
  have hfind : overlay.written.find? key = none := by simpa [Table.contains] using hnew
  change Overlay.load Ledger.store key overlay = _
  rw [Overlay.load, hfind]
  rfl

theorem swap_of_written (hwritten : overlay.written.contains key = true) (version : Nat)
    (history : History) :
    (Overlay.store Ledger.store).swap key version history overlay =
      ((overlay.written.trySwap key version history).1,
        { overlay with written := (overlay.written.trySwap key version history).2 }) := by
  change Overlay.swap key version history overlay = _
  rw [Overlay.swap, if_pos hwritten]

/-- The first write of a key gets through with any version. -/
theorem swap_of_unwritten (hnew : overlay.written.contains key = false) (history : History) :
    (Overlay.store Ledger.store).swap key version history overlay =
      (.ok (version + 1),
        { overlay with written := overlay.written.insert key ⟨history, version + 1⟩ }) := by
  change Overlay.swap key version history overlay = _
  rw [Overlay.swap, if_neg (by simp [hnew])]

theorem load_insert (overlay : Overlay Ledger) (key : AlertKey) (stored : Versioned) :
    ((Overlay.store Ledger.store).load key
      { overlay with written := overlay.written.insert key stored }).1 = .ok stored := by
  rw [load_of_written (by rw [Table.find?_insert, if_pos rfl])]

/-- What was written to an overlay is guarded by its own versions. -/
theorem keepsWord_of_written (hwritten : overlay.written.contains key = true)
    (history : History) :
    (Overlay.store Ledger.store).KeepsWord key version history overlay := by
  obtain ⟨stored, hstored⟩ := Option.isSome_iff_exists.1 hwritten
  have hload := congrArg Prod.fst (load_of_written hstored)
  have hown : overlay.written.load key = stored := Ledger.load_of_find? hstored
  have hswap := swap_of_written hwritten version history
  by_cases hversion : stored.version = version
  · rw [← hversion, ← hown, Ledger.trySwap_present] at hswap
    rw [← hversion, ← hown]
    exact HistoryStore.keepsWord_of_present hload (congrArg _ hown.symm) hswap
      (load_insert overlay key _)
  · rw [Ledger.trySwap_stale (by rwa [hown])] at hswap
    exact HistoryStore.keepsWord_of_stale hload hversion hswap

theorem keepsWord_of_present (hnew : overlay.written.contains key = false)
    (hversion : (overlay.base.load key).version = version) (history : History) :
    (Overlay.store Ledger.store).KeepsWord key version history overlay :=
  HistoryStore.keepsWord_of_present (congrArg Prod.fst (load_of_unwritten hnew)) hversion
    (swap_of_unwritten hnew history) (load_insert overlay key _)

theorem not_keepsWord_of_stale (hnew : overlay.written.contains key = false)
    (hversion : (overlay.base.load key).version ≠ version) (history : History) :
    ¬(Overlay.store Ledger.store).KeepsWord key version history overlay :=
  HistoryStore.not_keepsWord_of_taken (congrArg Prod.fst (load_of_unwritten hnew)) hversion
    (swap_of_unwritten hnew history)

/-- An overlay keeps its word about a replacement just if the key was written
before or the version is the one that is stored below. -/
theorem keepsWord_iff (overlay : Overlay Ledger) (key : AlertKey) (version : Nat)
    (history : History) :
    (Overlay.store Ledger.store).KeepsWord key version history overlay ↔
      overlay.written.contains key = true ∨ (overlay.base.load key).version = version := by
  cases hwritten : overlay.written.contains key with
  | true => simpa using keepsWord_of_written hwritten history
  | false =>
      simp only [Bool.false_eq_true, false_or]
      constructor
      · intro hword
        by_contra hversion
        exact not_keepsWord_of_stale hwritten hversion history hword
      · intro hversion
        exact keepsWord_of_present hwritten hversion history

/-- A history that was stored once already, under the version 1. -/
def storedOnce : Ledger :=
  .ofRecords [⟨⟨"acme", "ada", "daily"⟩, .empty⟩]

/-- Someone who has seen nothing stored, and so names the version 0, gets
through to a fresh overlay although the version 1 is stored below. -/
theorem keepsWord_fails_storedOnce :
    let store := Overlay.store Ledger.store
    let key : AlertKey := ⟨"acme", "ada", "daily"⟩
    (store.load key (.fresh storedOnce)).1 = .ok ⟨.empty, 1⟩ ∧
      (store.swap key 0 .empty (.fresh storedOnce)).1 = .ok 1 ∧
      ¬store.KeepsWord key 0 .empty (.fresh storedOnce) := by
  refine ⟨rfl, rfl, ?_⟩
  apply not_keepsWord_of_stale
  · decide
  · decide

end Overlay

end MetricAlerts
