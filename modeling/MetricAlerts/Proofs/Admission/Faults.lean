import MetricAlerts.Proofs.Admission.Decision
import MetricAlerts.Proofs.Admission.Sequence

/-!
# Decisions at a store that fails

A store may turn down any of its calls, as a conflict or as unreachable, and a
call that is turned down changes nothing.  Kept next to the histories is what
was replaced so far, in order.  However the calls fail, a decision about an
alert either leaves both alone or replaces one history by the one with the
alert in it.
-/

namespace MetricAlerts

inductive StoreCall where
  | load (key : AlertKey)
  | swap (key : AlertKey) (version : Nat) (history : History)

/-- How a call fails, if it does.  It may depend on all calls so far, of which
it is the last one. -/
abbrev Faults := List StoreCall → Option StoreError

structure Replacement where
  key : AlertKey
  before : History
  after : History

/-- Histories together with the replacements that led to them, first one
first. -/
structure Account where
  ledger : Ledger
  replaced : List Replacement

namespace Account

/-- An account that begins with the given histories. -/
def start (ledger : Ledger) : Account := ⟨ledger, []⟩

def trySwap (account : Account) (key : AlertKey) (version : Nat) (history : History) :
    Except StoreError Nat × Account :=
  match account.ledger.trySwap key version history with
  | (.ok version, ledger) =>
      (.ok version,
        ⟨ledger, account.replaced ++ [⟨key, (account.ledger.load key).history, history⟩]⟩)
  | (.error e, ledger) => (.error e, { account with ledger })

/-- What an alert of the day makes of what is stored under a key. -/
def alerted (account : Account) (day : Day) (key : AlertKey) : Versioned :=
  ⟨(account.ledger.load key).history.admitted day, (account.ledger.load key).version + 1⟩

/-- The account after an alert of the day. -/
def alert (day : Day) (account : Account) (key : AlertKey) : Account :=
  ⟨account.ledger.insert key (account.alerted day key), account.replaced ++
    [⟨key, (account.ledger.load key).history, (account.alerted day key).history⟩]⟩

theorem trySwap_present (account : Account) (key : AlertKey) (day : Day) :
    account.trySwap key (account.ledger.load key).version
        ((account.ledger.load key).history.admitted day) =
      (.ok ((account.ledger.load key).version + 1), account.alert day key) := by
  rw [trySwap, Ledger.trySwap_present]
  rfl

/-- The account after alerts of the day under all the keys, in their order. -/
def alertAll (day : Day) (account : Account) (keys : List AlertKey) : Account :=
  keys.foldl (alert day) account

theorem alertAll_cons (day : Day) (account : Account) (key : AlertKey) (keys : List AlertKey) :
    account.alertAll day (key :: keys) = (account.alert day key).alertAll day keys := rfl

theorem alertAll_append (day : Day) (account : Account) (first rest : List AlertKey) :
    account.alertAll day (first ++ rest) = (account.alertAll day first).alertAll day rest :=
  List.foldl_append

theorem alerted_alert_of_ne {account : Account} {day : Day} {key other : AlertKey}
    (hne : other ≠ key) :
    (account.alert day key).alerted day other = account.alerted day other := by
  simp [alerted, alert, hne]

variable (account : Account) (day : Day) {keys : List AlertKey}

/-- Alerts under distinct keys change what is stored under each of them once,
and nothing else. -/
theorem find?_alertAll (hnodup : keys.Nodup) (key : AlertKey) :
    (account.alertAll day keys).ledger.find? key =
      if key ∈ keys then some (account.alerted day key) else account.ledger.find? key := by
  induction keys generalizing account with
  | nil => rfl
  | cons first keys ih =>
      obtain ⟨hfirst, hkeys⟩ := List.nodup_cons.1 hnodup
      rw [alertAll_cons, ih _ hkeys]
      by_cases hkey : key = first
      · subst hkey
        simp [hfirst, alert, alerted]
      · rw [alerted_alert_of_ne hkey]
        simp [hkey, alert]

theorem replaced_alertAll (hnodup : keys.Nodup) :
    (account.alertAll day keys).replaced = account.replaced ++ keys.map fun key =>
      ⟨key, (account.ledger.load key).history, (account.alerted day key).history⟩ := by
  induction keys generalizing account with
  | nil => simp [alertAll]
  | cons first keys ih =>
      obtain ⟨hfirst, hkeys⟩ := List.nodup_cons.1 hnodup
      have hrest : ∀ key ∈ keys,
          (⟨key, ((account.alert day first).ledger.load key).history,
            ((account.alert day first).alerted day key).history⟩ : Replacement) =
          ⟨key, (account.ledger.load key).history, (account.alerted day key).history⟩ := by
        intro key hkey
        have hne : key ≠ first := fun heq => hfirst (heq ▸ hkey)
        rw [alerted_alert_of_ne hne]
        simp [alert, hne]
      rw [alertAll_cons, ih _ hkeys, List.map_congr_left hrest]
      simp [alert, alerted]

end Account

/-- One more alert is never nothing. -/
theorem History.admitted_ne (history : History) (day : Day) : history.admitted day ≠ history := by
  intro hsame
  have hcount : (history.admitted day).countOn day = history.countOn day + 1 :=
    history.countOn_admitted day
  rw [hsame] at hcount
  simp at hcount

/-- A store with an account of what it keeps and the calls it has received. -/
structure Watched where
  account : Account
  calls : List StoreCall

namespace Watched

def start (ledger : Ledger) : Watched := ⟨.start ledger, []⟩

/-- A ledger, except for the calls that fail. -/
def store (faults : Faults) : HistoryStore Watched where
  load key watched :=
    let calls := watched.calls ++ [.load key]
    match faults calls with
    | some fault => (.error fault, { watched with calls })
    | none => (.ok (watched.account.ledger.load key), { watched with calls })
  swap key version history watched :=
    let calls := watched.calls ++ [.swap key version history]
    match faults calls with
    | some fault => (.error fault, { watched with calls })
    | none =>
        let (answer, account) := watched.account.trySwap key version history
        (answer, ⟨account, calls⟩)

/-- A read fails or tells the present version, and changes no history. -/
theorem load_cases (faults : Faults) (key : AlertKey) (watched : Watched) :
    ∃ later, later.account = watched.account ∧
      ((∃ fault, (store faults).load key watched = (.error fault, later)) ∨
        (store faults).load key watched = (.ok (later.account.ledger.load key), later)) := by
  refine ⟨{ watched with calls := watched.calls ++ [.load key] }, rfl, ?_⟩
  simp only [store]
  cases faults (watched.calls ++ [.load key]) with
  | some fault => exact .inl ⟨fault, rfl⟩
  | none => exact .inr rfl

/-- The replacement of what is present by what an alert makes of it fails or
takes place. -/
theorem swap_cases (faults : Faults) (key : AlertKey) (day : Day) (watched : Watched) :
    let present := watched.account.ledger.load key
    let swapped := (store faults).swap key present.version (present.history.admitted day) watched
    (∃ fault later, swapped = (.error fault, later) ∧ later.account = watched.account) ∨
      ∃ version later, swapped = (.ok version, later) ∧
        later.account = watched.account.alert day key := by
  simp only [store]
  cases faults (watched.calls ++ _) with
  | some fault => exact .inl ⟨fault, _, rfl, rfl⟩
  | none =>
      rw [Account.trySwap_present]
      exact .inr ⟨_, _, rfl, rfl⟩

end Watched

namespace Admission

variable {ε : Type} (limits : Limits) (key : AlertKey) (day : Day) (attempts : Nat)

/-- However the calls fail, a decision replaces a history exactly if it allows
the alert. -/
theorem account_run_remaining (faults : Faults) (left : Nat) (watched : Watched) :
    let finished := (remaining limits key day attempts left : Dialogue ε _).run
      (Watched.store faults) watched
    finished.state.account =
      if isMade finished.answer then watched.account.alert day key else watched.account := by
  induction left generalizing watched with
  | zero => rfl
  | succ left ih =>
      obtain ⟨next, hnext, ⟨fault, hload⟩ | hload⟩ := Watched.load_cases faults key watched
      · rw [remaining_succ, Dialogue.run_load, hload, ← hnext]
        cases fault with
        | conflict _ => exact ih next
        | unreachable detail => rfl
      · rw [remaining_succ, Dialogue.run_load, hload, ← hnext]
        cases hcheck : limits.check (next.account.ledger.load key).history day with
        | error reason => simp only [hcheck, Dialogue.run, isMade, Bool.false_eq_true, if_false]
        | ok history =>
            obtain ⟨-, -, rfl⟩ := Limits.check_eq_ok_iff.1 hcheck
            simp only [hcheck, replacing, Dialogue.run_swap]
            obtain ⟨fault, last, hswap, hlast⟩ | ⟨version, last, hswap, hlast⟩ :=
              Watched.swap_cases faults key day next
            · rw [hswap, ← hlast]
              cases fault with
              | conflict _ => exact ih last
              | unreachable detail => rfl
            · rw [hswap]
              exact hlast

end Admission

end MetricAlerts
