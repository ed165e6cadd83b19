import Mathlib.Logic.Function.Basic
import MetricAlerts.Proofs.Admission.Decision

/-!
# Stores as they are seen

Someone who is alone at a store sees one versioned history under each key.
Many stores come to the same in this respect: the ledger, an overlay in front
of it, an overlay in front of another overlay.  What a decision does is said
here once for all of them, in terms of what is seen.
-/

namespace MetricAlerts

/-- The admission of a rule with the given limits, next to what is stored
already, and what is stored afterwards. -/
def Limits.decision (limits : Limits) (day : Day) (stored : Versioned) : Admission × Versioned :=
  match limits.check stored.history day with
  | .error reason => (.suppressed reason, stored)
  | .ok next => (.admitted next, ⟨next, stored.version + 1⟩)

/-- A store shows `shown`: reads answer with it and leave it as it is, and a
replacement at the version shown gets through and changes nothing else. -/
structure HistoryStore.Shows {σ : Type} (store : HistoryStore σ)
    (shown : σ → AlertKey → Versioned) : Prop where
  load : ∀ key state, (store.load key state).1 = .ok (shown state key)
  shown_load : ∀ key state, shown (store.load key state).2 = shown state
  swap : ∀ key history state,
    (store.swap key (shown state key).version history state).1 =
      .ok ((shown state key).version + 1)
  shown_swap : ∀ key history state,
    shown (store.swap key (shown state key).version history state).2 =
      Function.update (shown state) key ⟨history, (shown state key).version + 1⟩

theorem Ledger.shows_load : Ledger.store.Shows Ledger.load where
  load _ _ := rfl
  shown_load _ _ := rfl
  swap key history ledger := congrArg Prod.fst (ledger.trySwap_present key history)
  shown_swap key history ledger := by
    change Ledger.load (ledger.trySwap key _ history).2 = _
    rw [Ledger.trySwap_present]
    funext other
    rw [Ledger.load_insert]
    exact (Function.update_apply ..).symm

namespace Overlay

variable {σ : Type}

/-- What was written to an overlay hides what lies below. -/
def shown (below : σ → AlertKey → Versioned) (overlay : Overlay σ) (key : AlertKey) :
    Versioned :=
  (overlay.written.find? key).getD (below overlay.base key)

@[simp]
theorem shown_fresh (below : σ → AlertKey → Versioned) (base : σ) :
    shown below (fresh base) = below base := rfl

theorem shown_insert (below : σ → AlertKey → Versioned) (overlay : Overlay σ)
    (key : AlertKey) (versioned : Versioned) :
    shown below ⟨overlay.base, overlay.written.insert key versioned⟩ =
      Function.update (shown below overlay) key versioned := by
  funext other
  by_cases hkey : other = key
  · simp [shown, hkey]
  · simp [shown, hkey]

/-- An overlay over a store that shows something shows it too, with what was
written on top. -/
theorem shows {store : HistoryStore σ} {below : σ → AlertKey → Versioned}
    (hstore : store.Shows below) : (Overlay.store store).Shows (shown below) where
  load key overlay := by
    change (Overlay.load store key overlay).1 = _
    unfold Overlay.load shown
    cases hwritten : overlay.written.find? key with
    | some versioned => rfl
    | none => exact hstore.load key overlay.base
  shown_load key overlay := by
    change shown below (Overlay.load store key overlay).2 = _
    unfold Overlay.load
    cases hwritten : overlay.written.find? key with
    | some versioned => rfl
    | none =>
        funext other
        simp only [shown, hstore.shown_load]
  swap key history overlay := by
    change (Overlay.swap key _ history overlay).1 = _
    unfold Overlay.swap
    cases hwritten : overlay.written.find? key with
    | none => simp [Table.contains, hwritten]
    | some versioned =>
        have hload : overlay.written.load key = shown below overlay key := by
          simp [Ledger.load, shown, hwritten]
        simp only [Table.contains, hwritten, Option.isSome_some, if_true, ← hload]
        rw [Ledger.trySwap_present]
  shown_swap key history overlay := by
    change shown below (Overlay.swap key _ history overlay).2 = _
    rw [← shown_insert]
    unfold Overlay.swap
    cases hwritten : overlay.written.find? key with
    | none => simp [Table.contains, hwritten]
    | some versioned =>
        have hload : overlay.written.load key = shown below overlay key := by
          simp [Ledger.load, shown, hwritten]
        simp only [Table.contains, hwritten, Option.isSome_some, if_true, ← hload]
        rw [Ledger.trySwap_present]

/-- Whatever goes on at an overlay, the store below is only read. -/
theorem base_run {ε α : Type} {store : HistoryStore σ}
    (hload : ∀ key state, (store.load key state).2 = state)
    (dialogue : Dialogue ε α) (overlay : Overlay σ) :
    (dialogue.run (Overlay.store store) overlay).state.base = overlay.base := by
  induction dialogue generalizing overlay with
  | done answer => rfl
  | load key next ih =>
      rw [Dialogue.run, ih]
      change (Overlay.load store key overlay).2.base = _
      unfold Overlay.load
      cases overlay.written.find? key with
      | some versioned => rfl
      | none => exact hload key overlay.base
  | swap key version history next ih =>
      rw [Dialogue.run, ih]
      change (Overlay.swap key version history overlay).2.base = _
      unfold Overlay.swap
      split <;> rfl
  | send event next ih => exact ih overlay

end Overlay

namespace HistoryStore.Shows

variable {ε σ : Type} {store : HistoryStore σ} {shown : σ → AlertKey → Versioned}

/-- A decision at a store that nobody else is at is made on what the store
shows, in its first attempt. -/
theorem run_request (hstore : store.Shows shown) (limits : Limits) (key : AlertKey)
    (day : Day) (retries : UInt32) (state : σ) :
    ∃ later,
      (Admission.request limits key day (attemptsOf retries) : Dialogue ε _).run store state =
        ⟨.ok (limits.decision day (shown state key)).1, later, []⟩ ∧
      shown later = Function.update (shown state) key
        (limits.decision day (shown state key)).2 := by
  obtain ⟨left, hleft⟩ := Admission.exists_attemptsOf_eq retries
  have hload := hstore.load key state
  have hshown := hstore.shown_load key state
  rw [Admission.request_eq_remaining, hleft]
  rw [Limits.decision]
  cases hcheck : limits.check (shown state key).history day with
  | error reason =>
      refine ⟨_, Admission.run_remaining_of_suppressed _ _ _ _ _ hload hcheck, ?_⟩
      rw [hshown, Function.update_eq_self]
  | ok next =>
      have hswap := hstore.swap key next (store.load key state).2
      have hnew := hstore.shown_swap key next (store.load key state).2
      rw [hshown] at hswap hnew
      exact ⟨_, Admission.run_remaining_of_admitted _ _ _ _ _ hload hcheck hswap, hnew⟩

end HistoryStore.Shows

end MetricAlerts
