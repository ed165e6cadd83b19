import MetricAlerts.Proofs.Admission.Faults
import MetricAlerts.Proofs.Admission.Linearization

/-!
# Retries

A conflict costs an attempt, whether it met the read or the replacement.  Nobody
else writes here, so what is read after a conflict is what was read before it,
and a decision that outlasts its conflicts is the one that it would have come to
without them.  It gives up at one conflict more than it has retries.
-/

namespace MetricAlerts

/-- What each call of a row met: nothing, or the way in which it failed. -/
def Faults.met (faults : Faults) (calls : List StoreCall) : List (Option StoreError) :=
  (List.range calls.length).map fun place => faults (calls.take (place + 1))

theorem Faults.met_concat (faults : Faults) (calls : List StoreCall) (call : StoreCall) :
    faults.met (calls ++ [call]) = faults.met calls ++ [faults (calls ++ [call])] := by
  have hbefore : ∀ place ∈ List.range calls.length,
      faults ((calls ++ [call]).take (place + 1)) = faults (calls.take (place + 1)) := by
    intro place hplace
    rw [List.take_append_of_le_length (List.mem_range.1 hplace)]
  rw [met, met, List.length_append, List.length_singleton, List.range_succ, List.map_append,
    List.map_congr_left hbefore, List.map_singleton,
    List.take_of_length_le (by simp)]

/-- Whether a call met a conflict. -/
def isConflict : Option StoreError → Bool
  | some (.conflict _) => true
  | _ => false

theorem countP_concat_unreachable (met : List (Option StoreError)) (detail : String) :
    (met ++ [some (StoreError.unreachable detail)]).countP isConflict =
      met.countP isConflict := by
  simp [isConflict]

/-- No call found the store out of reach. -/
def AllReach (met : List (Option StoreError)) : Prop :=
  ∀ detail, some (.unreachable detail) ∉ met

theorem allReach_nil : AllReach [] :=
  fun _ => List.not_mem_nil

theorem AllReach.cons {met : List (Option StoreError)} {first : Option StoreError}
    (hreach : AllReach met) (hfirst : ∀ detail, first ≠ some (.unreachable detail)) :
    AllReach (first :: met) := by
  intro detail hmem
  rcases List.mem_cons.1 hmem with heq | hmem
  · exact hfirst detail heq.symm
  · exact hreach detail hmem

namespace Watched

variable {faults : Faults} {key : AlertKey} {watched : Watched} {fault : StoreError}

/-- The store after one more call that has changed nothing. -/
def asked (watched : Watched) (call : StoreCall) : Watched :=
  { watched with calls := watched.calls ++ [call] }

/-- What one more call has met stands behind what the calls before it have met. -/
theorem met_asked {call : StoreCall} {met : Option StoreError}
    (hmet : faults (watched.asked call).calls = met) :
    faults.met (watched.asked call).calls = faults.met watched.calls ++ [met] := by
  rw [← hmet]
  exact faults.met_concat watched.calls call

theorem load_of_fault (hfault : faults (watched.asked (.load key)).calls = some fault) :
    (store faults).load key watched = (.error fault, watched.asked (.load key)) := by
  rw [asked] at hfault
  simp only [store, hfault]
  rfl

theorem load_of_none (hnone : faults (watched.asked (.load key)).calls = none) :
    (store faults).load key watched =
      (.ok (watched.account.ledger.load key), watched.asked (.load key)) := by
  rw [asked] at hnone
  simp only [store, hnone]
  rfl

theorem swap_of_fault {version : Nat} {history : History}
    (hfault : faults (watched.asked (.swap key version history)).calls = some fault) :
    (store faults).swap key version history watched =
      (.error fault, watched.asked (.swap key version history)) := by
  rw [asked] at hfault
  simp only [store, hfault]
  rfl

theorem swap_of_none {day : Day} :
    let present := watched.account.ledger.load key
    let later := watched.asked (.swap key present.version (present.history.admitted day))
    faults later.calls = none →
      (store faults).swap key present.version (present.history.admitted day) watched =
        (.ok (present.version + 1), { later with account := watched.account.alert day key }) := by
  intro present later hnone
  simp only [later, asked] at hnone
  simp only [store, hnone, present, Account.trySwap_present]
  rfl

end Watched

namespace Account

variable {account : Account} {limits : Limits} {day : Day} {key : AlertKey}

/-- The decision about an alert when all calls get through, and the account
after it. -/
def decided (account : Account) (limits : Limits) (day : Day) (key : AlertKey) :
    Admission × Account :=
  match limits.check (account.ledger.load key).history day with
  | .error reason => (.suppressed reason, account)
  | .ok next => (.admitted next, account.alert day key)

theorem decided_of_error {reason : Suppression}
    (hcheck : limits.check (account.ledger.load key).history day = .error reason) :
    account.decided limits day key = (.suppressed reason, account) := by
  rw [decided, hcheck]

theorem decided_of_ok {next : History}
    (hcheck : limits.check (account.ledger.load key).history day = .ok next) :
    account.decided limits day key = (.admitted next, account.alert day key) := by
  rw [decided, hcheck]

end Account

namespace Admission

/-! ## How a decision ends -/

section Ending

variable (limits : Limits) (key : AlertKey) (day : Day) (attempts : Nat)

/-- How a decision with some attempts left ends, by what its calls have met: it
runs out of attempts, it finds the store out of reach, or it is taken. -/
inductive Ending (account : Account) :
    (left : Nat) → (met : List (Option StoreError)) → Except PassError Admission → Account → Prop
  | exhausted {met : List (Option StoreError)} (hreach : AllReach met) :
      Ending account (met.countP isConflict) met (.error (.contended key attempts)) account
  | unreached {left : Nat} (met : List (Option StoreError)) (hreach : AllReach met)
      (hconflicts : met.countP isConflict < left) (detail : String) :
      Ending account left (met ++ [some (.unreachable detail)]) (.error (.unreachable detail))
        account
  | decided {left : Nat} {met : List (Option StoreError)} (hreach : AllReach met)
      (hconflicts : met.countP isConflict < left) :
      Ending account left met (.ok (account.decided limits day key).1)
        (account.decided limits day key).2

variable {limits key day attempts} {account later : Account} {left : Nat}
  {met : List (Option StoreError)} {answer : Except PassError Admission}

/-- With an attempt left and no fault met, the decision is taken. -/
theorem Ending.at_once (limits : Limits) (key : AlertKey) (day : Day) (attempts : Nat)
    (account : Account) (left : Nat) :
    Ending limits key day attempts account (left + 1) []
      (.ok (account.decided limits day key).1) (account.decided limits day key).2 :=
  .decided allReach_nil (Nat.succ_pos left)

theorem Ending.none (hending : Ending limits key day attempts account left met answer later) :
    Ending limits key day attempts account left (none :: met) answer later := by
  have hfirst : ∀ detail, (Option.none : Option StoreError) ≠ some (.unreachable detail) :=
    fun detail => (Option.some_ne_none _).symm
  cases hending with
  | exhausted hreach => exact .exhausted (hreach.cons hfirst)
  | unreached met hreach hconflicts detail =>
      exact .unreached (none :: met) (hreach.cons hfirst) hconflicts detail
  | decided hreach hconflicts => exact .decided (hreach.cons hfirst) hconflicts

/-- A conflict costs one attempt. -/
theorem Ending.conflict {conflicting : AlertKey}
    (hending : Ending limits key day attempts account left met answer later) :
    Ending limits key day attempts account (left + 1) (some (.conflict conflicting) :: met)
      answer later := by
  have hfirst : ∀ detail, some (StoreError.conflict conflicting) ≠ some (.unreachable detail) := by
    simp
  have hcount : ∀ met : List (Option StoreError),
      (some (.conflict conflicting) :: met).countP isConflict = met.countP isConflict + 1 :=
    fun met => List.countP_cons_of_pos rfl
  cases hending with
  | exhausted hreach =>
      rw [← hcount]
      exact .exhausted (hreach.cons hfirst)
  | unreached met hreach hconflicts detail =>
      refine .unreached (some (.conflict conflicting) :: met) (hreach.cons hfirst) ?_ detail
      rw [hcount]
      omega
  | decided hreach hconflicts =>
      refine .decided (hreach.cons hfirst) ?_
      rw [hcount]
      omega

theorem Ending.conflicts_le
    (hending : Ending limits key day attempts account left met answer later) :
    met.countP isConflict ≤ left := by
  cases hending with
  | exhausted hreach => exact le_rfl
  | unreached met hreach hconflicts detail =>
      rw [countP_concat_unreachable]
      exact hconflicts.le
  | decided hreach hconflicts => exact hconflicts.le

theorem Ending.eq_decided
    (hending : Ending limits key day attempts account left met answer later)
    (hreach : AllReach met) (hconflicts : met.countP isConflict < left) :
    answer = .ok (account.decided limits day key).1 ∧
      later = (account.decided limits day key).2 := by
  cases hending with
  | exhausted _ => exact absurd hconflicts (lt_irrefl _)
  | unreached _ _ _ detail =>
      exact absurd (List.mem_append_right _ (List.mem_singleton_self _)) (hreach detail)
  | decided _ _ => exact ⟨rfl, rfl⟩

theorem Ending.eq_contended
    (hending : Ending limits key day attempts account left met answer later)
    (hconflicts : met.countP isConflict = left) :
    answer = .error (.contended key attempts) ∧ later = account := by
  cases hending with
  | exhausted _ => exact ⟨rfl, rfl⟩
  | unreached _ _ hfewer detail =>
      rw [countP_concat_unreachable] at hconflicts
      exact absurd hconflicts hfewer.ne
  | decided _ hfewer => exact absurd hconflicts hfewer.ne

theorem Ending.eq_unreachable
    (hending : Ending limits key day attempts account left met answer later) {detail : String}
    (hmem : some (.unreachable detail) ∈ met) :
    answer = .error (.unreachable detail) ∧ later = account ∧
      met.getLast? = some (some (.unreachable detail)) := by
  cases hending with
  | exhausted hreach => exact absurd hmem (hreach detail)
  | decided hreach _ => exact absurd hmem (hreach detail)
  | unreached _ hreach _ last =>
      rcases List.mem_append.1 hmem with hearlier | hlast
      · exact absurd hearlier (hreach detail)
      · cases List.mem_singleton.1 hlast
        exact ⟨rfl, rfl, List.getLast?_concat⟩

theorem Ending.check_eq_of_suppressed {reason : Suppression}
    (hending : Ending limits key day attempts account left met (.ok (.suppressed reason)) later) :
    limits.check (account.ledger.load key).history day = .error reason ∧ later = account := by
  generalize hanswer : (Except.ok (.suppressed reason) : Except PassError Admission) = answer
    at hending
  cases hending with
  | exhausted _ => cases hanswer
  | unreached _ _ _ _ => cases hanswer
  | decided _ _ =>
      cases hcheck : limits.check (account.ledger.load key).history day with
      | ok next => simp [Account.decided_of_ok hcheck] at hanswer
      | error other =>
          rw [Account.decided_of_error hcheck] at hanswer ⊢
          cases hanswer
          exact ⟨rfl, rfl⟩

end Ending

variable {ε : Type} {limits : Limits} {key : AlertKey} {day : Day} {attempts : Nat}
  {faults : Faults} {watched : Watched} {left : Nat} {call : StoreCall}
  {finished : Dialogue.Finished ε (Except PassError Admission) Watched}

/-- A decision that goes on from here ends in one of these ways. -/
def EndsFrom (limits : Limits) (key : AlertKey) (day : Day) (attempts : Nat) (faults : Faults)
    (watched : Watched) (left : Nat)
    (finished : Dialogue.Finished ε (Except PassError Admission) Watched) : Prop :=
  ∃ met, faults.met finished.state.calls = faults.met watched.calls ++ met ∧
    Ending limits key day attempts watched.account left met finished.answer
      finished.state.account

theorem endsFrom_of_none (hnone : faults (watched.asked call).calls = none)
    (hends : EndsFrom limits key day attempts faults (watched.asked call) left finished) :
    EndsFrom limits key day attempts faults watched left finished := by
  obtain ⟨met, hmet, hending⟩ := hends
  refine ⟨none :: met, ?_, hending.none⟩
  rw [hmet, Watched.met_asked hnone, List.append_assoc, List.singleton_append]

theorem endsFrom_of_conflict {conflicting : AlertKey}
    (hconflict : faults (watched.asked call).calls = some (.conflict conflicting))
    (hends : EndsFrom limits key day attempts faults (watched.asked call) left finished) :
    EndsFrom limits key day attempts faults watched (left + 1) finished := by
  obtain ⟨met, hmet, hending⟩ := hends
  refine ⟨some (.conflict conflicting) :: met, ?_, hending.conflict⟩
  rw [hmet, Watched.met_asked hconflict, List.append_assoc, List.singleton_append]

theorem endsFrom_of_unreachable {detail : String}
    (hunreachable : faults (watched.asked call).calls = some (.unreachable detail)) :
    EndsFrom limits key day attempts faults watched (left + 1)
      (⟨.error (.unreachable detail), watched.asked call, []⟩ :
        Dialogue.Finished ε (Except PassError Admission) Watched) :=
  ⟨[some (.unreachable detail)], Watched.met_asked hunreachable,
    .unreached [] allReach_nil (Nat.succ_pos left) detail⟩

/-- An attempt that has read what is there and may go on replaces it, unless the
replacement fails. -/
theorem endsFrom_replacing {next : History}
    (hcheck : limits.check (watched.account.ledger.load key).history day = .ok next)
    (hlater : ∀ later, EndsFrom limits key day attempts faults later left
      ((remaining limits key day attempts left : Dialogue ε _).run (Watched.store faults) later)) :
    EndsFrom limits key day attempts faults watched (left + 1)
      ((replacing limits key day attempts left (watched.account.ledger.load key).version next :
        Dialogue ε _).run (Watched.store faults) watched) := by
  obtain ⟨-, -, rfl⟩ := Limits.check_eq_ok_iff.1 hcheck
  rw [replacing, Dialogue.run_swap]
  cases hswap : faults (watched.asked (.swap key _ _)).calls with
  | none =>
      rw [Watched.swap_of_none hswap]
      have hending := Ending.at_once limits key day attempts watched.account left
      rw [Account.decided_of_ok hcheck] at hending
      exact ⟨[none], Watched.met_asked hswap, hending.none⟩
  | some fault =>
      rw [Watched.swap_of_fault hswap]
      cases fault with
      | conflict conflicting => exact endsFrom_of_conflict hswap (hlater _)
      | unreachable detail => exact endsFrom_of_unreachable hswap

/-- Every decision ends in one of these ways. -/
theorem endsFrom_remaining (limits : Limits) (key : AlertKey) (day : Day) (attempts : Nat)
    (faults : Faults) (left : Nat) (watched : Watched) :
    EndsFrom limits key day attempts faults watched left
      ((remaining limits key day attempts left : Dialogue ε _).run (Watched.store faults)
        watched) := by
  induction left generalizing watched with
  | zero => exact ⟨[], (List.append_nil _).symm, .exhausted allReach_nil⟩
  | succ left ih =>
      rw [remaining_succ, Dialogue.run_load]
      cases hload : faults (watched.asked (.load key)).calls with
      | some fault =>
          rw [Watched.load_of_fault hload]
          cases fault with
          | conflict conflicting => exact endsFrom_of_conflict hload (ih _)
          | unreachable detail => exact endsFrom_of_unreachable hload
      | none =>
          rw [Watched.load_of_none hload]
          apply endsFrom_of_none hload
          cases hcheck : limits.check (watched.account.ledger.load key).history day with
          | ok next =>
              simp only [hcheck]
              have hread : limits.check ((watched.asked (.load key)).account.ledger.load
                  key).history day = .ok next := hcheck
              exact endsFrom_replacing hread fun later => ih later
          | error reason =>
              simp only [hcheck, Dialogue.run]
              have hending := Ending.at_once limits key day attempts watched.account left
              rw [Account.decided_of_error hcheck] at hending
              exact ⟨[], (List.append_nil _).symm, hending⟩

/-- A decision that no attempt can take only reads. -/
theorem calls_run_remaining_of_suppressed {reason : Suppression}
    (hcheck : limits.check (watched.account.ledger.load key).history day = .error reason) :
    ∀ made ∈ ((remaining limits key day attempts left : Dialogue ε _).run
      (Watched.store faults) watched).state.calls, made ∈ watched.calls ∨ made = .load key := by
  induction left generalizing watched with
  | zero => exact fun made hmade => .inl hmade
  | succ left ih =>
      have hasked : ∀ made ∈ (watched.asked (.load key)).calls,
          made ∈ watched.calls ∨ made = .load key := by
        simp [Watched.asked]
      rw [remaining_succ, Dialogue.run_load]
      cases hload : faults (watched.asked (.load key)).calls with
      | none =>
          rw [Watched.load_of_none hload]
          simp only [hcheck, Dialogue.run]
          exact hasked
      | some fault =>
          rw [Watched.load_of_fault hload]
          cases fault with
          | unreachable detail => exact hasked
          | conflict conflicting =>
              have hread : limits.check ((watched.asked (.load key)).account.ledger.load
                  key).history day = .error reason := hcheck
              intro made hmade
              rcases ih hread made hmade with hmade | rfl
              · exact hasked made hmade
              · exact .inr rfl

end Admission

namespace AdmissionCall

variable {call : AdmissionCall} {ledger : Ledger}

/-- A decision that is taken is the one of a ledger that fails no call. -/
theorem run_eq_decided (call : AdmissionCall) (ledger : Ledger) :
    let decided := (Account.start ledger).decided call.rule.limits call.day call.key
    call.dialogue.run Ledger.store ledger = ⟨.ok decided.1, decided.2.ledger, []⟩ := by
  intro decided
  cases hcheck : call.rule.limits.check (ledger.load call.key).history call.day with
  | error reason =>
      have hdecided : decided = (.suppressed reason, .start ledger) :=
        Account.decided_of_error hcheck
      rw [run_suppressed hcheck, hdecided]
      rfl
  | ok next =>
      obtain ⟨-, -, rfl⟩ := Limits.check_eq_ok_iff.1 hcheck
      have hdecided : decided = (.admitted ((ledger.load call.key).history.admitted call.day),
          (Account.start ledger).alert call.day call.key) :=
        Account.decided_of_ok hcheck
      rw [run_admitted hcheck, hdecided]
      rfl

theorem attemptsOf_eq {retries : UInt32} (hretries : retries < 4294967295) :
    attemptsOf retries = retries.toNat + 1 := by
  have hlt : retries.toNat < UInt32.size - 1 := UInt32.lt_iff_toNat_lt.1 hretries
  rw [attemptsOf]
  omega

theorem ending_run (call : AdmissionCall) (faults : Faults) (ledger : Ledger)
    (hretries : call.retries < 4294967295) :
    let finished := call.dialogue.run (Watched.store faults) (.start ledger)
    Admission.Ending call.rule.limits call.key call.day (call.retries.toNat + 1) (.start ledger)
      (call.retries.toNat + 1) (faults.met finished.state.calls) finished.answer
      finished.state.account := by
  rw [dialogue, Admission.request_eq_remaining, attemptsOf_eq hretries]
  obtain ⟨met, hmet, hending⟩ := Admission.endsFrom_remaining call.rule.limits call.key call.day
    (call.retries.toNat + 1) faults (call.retries.toNat + 1) (.start ledger)
  rw [show faults.met (Watched.start ledger).calls = [] from rfl, List.nil_append] at hmet
  dsimp only
  rw [hmet]
  exact hending

/-- What a call makes of a store that fails some of its calls is settled by what
these calls have met.  Up to as many conflicts as there are retries change
nothing about its answer and what it leaves, and with one more conflict it gives
up.  A store out of reach is reported with the first call that finds it so.  A
call that gives up, finds the store out of reach or is suppressed replaces
nothing, and one that is suppressed has not even tried to. -/
theorem answer_eq_of_conflicts_le (call : AdmissionCall) (faults : Faults) (ledger : Ledger)
    (hretries : call.retries < 4294967295) :
    let finished := call.dialogue.run (Watched.store faults) (.start ledger)
    let undisturbed := call.dialogue.run Ledger.store ledger
    let met := faults.met finished.state.calls
    let conflicts := met.countP isConflict
    conflicts ≤ call.retries.toNat + 1 ∧
    (AllReach met → conflicts ≤ call.retries.toNat →
      finished.answer = undisturbed.answer ∧
        finished.state.account.ledger = undisturbed.state) ∧
    (conflicts = call.retries.toNat + 1 →
      finished.answer = .error (.contended call.key (call.retries.toNat + 1)) ∧
        finished.state.account = .start ledger) ∧
    (∀ detail, some (.unreachable detail) ∈ met →
      finished.answer = .error (.unreachable detail) ∧ finished.state.account = .start ledger ∧
        met.getLast? = some (some (.unreachable detail))) ∧
    ∀ reason, finished.answer = .ok (.suppressed reason) →
      finished.state.account = .start ledger ∧
        ∀ made ∈ finished.state.calls, made = .load call.key := by
  intro finished undisturbed met conflicts
  have hending : Admission.Ending call.rule.limits call.key call.day (call.retries.toNat + 1)
      (.start ledger) (call.retries.toNat + 1) met finished.answer finished.state.account :=
    call.ending_run faults ledger hretries
  have hundisturbed : undisturbed = _ := run_eq_decided call ledger
  refine ⟨hending.conflicts_le, ?_, hending.eq_contended, fun detail => hending.eq_unreachable, ?_⟩
  · intro hreach hconflicts
    obtain ⟨hanswer, hlater⟩ := hending.eq_decided hreach (Nat.lt_succ_of_le hconflicts)
    rw [hundisturbed]
    exact ⟨hanswer, congrArg Account.ledger hlater⟩
  · intro reason hanswer
    rw [hanswer] at hending
    obtain ⟨hcheck, hlater⟩ := hending.check_eq_of_suppressed
    refine ⟨hlater, fun made hmade => ?_⟩
    rcases Admission.calls_run_remaining_of_suppressed hcheck made hmade with hbefore | hload
    · cases hbefore
    · exact hload

/-- A call with two retries, for a rule that may alert once a day. -/
def twiceRetried : AdmissionCall where
  rule :=
    { id := "once"
      version := 1
      tenant := "acme"
      enabled := true
      description := none
      category := ""
      priority := 0
      severity := 0
      cooldownDays := 0
      maxPerDay := 1
      tags := .empty
      logic := .group .all []
      messages := ⟨"en", [⟨none, "hello", 1⟩]⟩ }
  user := "ada"
  day := .first
  retries := 2

/-- Conflicts at some places in the row of calls. -/
def conflictsAt (places : List Nat) : Faults := fun calls =>
  if calls.length ∈ places then some (.conflict twiceRetried.key) else none

/-- Two retries outlast conflicts at the first read and the first replacement,
and not one more at the next replacement. -/
theorem answer_eq_of_conflicts_le_twiceRetried :
    let run := fun places =>
      twiceRetried.dialogue.run (Watched.store (conflictsAt places)) (.start .empty)
    let met := fun places => (conflictsAt places).met (run places).state.calls
    twiceRetried.retries < 4294967295 ∧
      met [1, 3] = [some (.conflict twiceRetried.key), none, some (.conflict twiceRetried.key),
        none, none] ∧
      (run [1, 3]).answer = (twiceRetried.dialogue.run Ledger.store .empty).answer ∧
      (run [1, 3]).state.account.ledger = (twiceRetried.dialogue.run Ledger.store .empty).state ∧
      (met [1, 3, 5]).countP isConflict = 3 ∧
      (run [1, 3, 5]).answer = .error (.contended twiceRetried.key 3) ∧
      (run [1, 3, 5]).state.account = .start .empty := by
  intro run met
  have hretries : twiceRetried.retries < 4294967295 := by decide
  have hmet : met [1, 3] = [some (.conflict twiceRetried.key), none,
      some (.conflict twiceRetried.key), none, none] := by decide
  have hreach : AllReach (met [1, 3]) := by
    rw [hmet]
    simp [AllReach]
  have hconflicts : (met [1, 3]).countP isConflict ≤ 2 := by decide
  have hthree : (met [1, 3, 5]).countP isConflict = 3 := by decide
  obtain ⟨hanswer, hledger⟩ :=
    (answer_eq_of_conflicts_le twiceRetried (conflictsAt [1, 3]) .empty hretries).2.1 hreach
      hconflicts
  obtain ⟨hcontended, hkept⟩ :=
    (answer_eq_of_conflicts_le twiceRetried (conflictsAt [1, 3, 5]) .empty hretries).2.2.1 hthree
  exact ⟨hretries, hmet, hanswer, hledger, hthree, hcontended, hkept⟩

end AdmissionCall

end MetricAlerts
