import MetricAlerts.Admission.Dialogue

/-!
# What a ledger has stored

A ledger shows the initial history both where nothing was stored and where that
history was stored.  While dialogues go on at it, this makes no difference: a
history that is stored raises the version, so what is stored can be told from
what is shown.
-/

namespace MetricAlerts

/-- A new history is stored under the next version; without one, all stays. -/
def Versioned.renew (stored : Versioned) : Option History → Versioned
  | some history => ⟨history, stored.version + 1⟩
  | none => stored

namespace Ledger

variable {ε α : Type} {ledger next later : Ledger} {key : AlertKey}

/-- What is stored under a key stays as it is or gives way to a later version. -/
def GrowsTo (ledger later : Ledger) : Prop :=
  ∀ key, later.find? key = ledger.find? key ∨
    ∃ stored, later.find? key = some stored ∧ (ledger.load key).version < stored.version

theorem load_of_find? {stored : Versioned} (hfind : ledger.find? key = some stored) :
    ledger.load key = stored := by
  rw [load, hfind, Option.getD_some]

theorem load_congr (hfind : later.find? key = ledger.find? key) :
    later.load key = ledger.load key := by
  rw [load, load, hfind]

theorem growsTo_refl (ledger : Ledger) : ledger.GrowsTo ledger :=
  fun _ => .inl rfl

theorem GrowsTo.trans (hfirst : ledger.GrowsTo next) (hsecond : next.GrowsTo later) :
    ledger.GrowsTo later := by
  intro key
  rcases hfirst key with hsame | ⟨stored, hstored, hversion⟩
  · have hload : next.load key = ledger.load key := load_congr hsame
    rw [← hsame, ← hload]
    exact hsecond key
  · have hload : next.load key = stored := load_of_find? hstored
    right
    rcases hsecond key with hsame | ⟨last, hlast, hlater⟩
    · exact ⟨stored, hsame.trans hstored, hversion⟩
    · rw [hload] at hlater
      exact ⟨last, hlast, Nat.lt_trans hversion hlater⟩

theorem find?_trySwap_of_ne {own : AlertKey} (hne : own ≠ key) (version : Nat) (history : History) :
    (ledger.trySwap key version history).2.find? own = ledger.find? own := by
  by_cases hversion : (ledger.load key).version = version
  · subst hversion
    rw [trySwap_present, Table.find?_insert, if_neg hne]
  · rw [trySwap_stale hversion]

theorem growsTo_trySwap (ledger : Ledger) (key : AlertKey) (version : Nat) (history : History) :
    ledger.GrowsTo (ledger.trySwap key version history).2 := by
  by_cases hversion : (ledger.load key).version = version
  · subst hversion
    rw [trySwap_present]
    intro other
    rw [Table.find?_insert]
    split
    · next hkey =>
        rw [hkey]
        exact .inr ⟨_, rfl, Nat.lt_succ_self _⟩
    · exact .inl rfl
  · rw [trySwap_stale hversion]
    exact ledger.growsTo_refl

theorem growsTo_run (dialogue : Dialogue ε α) (ledger : Ledger) :
    ledger.GrowsTo (dialogue.run store ledger).state := by
  induction dialogue generalizing ledger with
  | done answer => exact ledger.growsTo_refl
  | load key next ih => exact ih _ ledger
  | swap key version history next ih =>
      exact (ledger.growsTo_trySwap key version history).trans (ih _ _)
  | send event next ih => exact ih ledger

/-- A key whose history is shown as before has nothing new stored under it. -/
theorem GrowsTo.find?_eq (hgrows : ledger.GrowsTo later) (key : AlertKey) :
    later.find? key =
      if later.load key = ledger.load key then ledger.find? key else some (later.load key) := by
  rcases hgrows key with hsame | ⟨stored, hstored, hversion⟩
  · rw [if_pos (load_congr hsame)]
    exact hsame
  · have hload : later.load key = stored := load_of_find? hstored
    have hne : later.load key ≠ ledger.load key := by
      intro hsame
      rw [← hsame, hload] at hversion
      exact Nat.lt_irrefl _ hversion
    rw [if_neg hne, hload]
    exact hstored

theorem history_load (ledger : Ledger) (key : AlertKey) :
    (ledger.load key).history = (ledger.history? key).getD .empty := by
  rw [load, history?]
  cases ledger.find? key <;> rfl

/-- Where a history was renewed it is stored, and elsewhere what was stored
is. -/
theorem GrowsTo.history?_eq (hgrows : ledger.GrowsTo later) {renewal : Option History}
    (hload : later.load key = (ledger.load key).renew renewal) :
    later.history? key = renewal.or (ledger.history? key) := by
  rw [history?, hgrows.find?_eq key, hload]
  cases renewal with
  | none => simp [Versioned.renew, history?]
  | some history =>
      have hne : (ledger.load key).renew (some history) ≠ ledger.load key := by
        intro hsame
        have hversion := congrArg Versioned.version hsame
        simp [Versioned.renew] at hversion
      rw [if_neg hne]
      rfl

end Ledger

end MetricAlerts
