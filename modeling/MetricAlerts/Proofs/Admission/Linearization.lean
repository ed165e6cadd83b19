import Mathlib.Data.Fintype.Basic
import Mathlib.Data.Finset.Card
import MetricAlerts.Alert.Event
import MetricAlerts.Proofs.Admission.Decision
import MetricAlerts.Proofs.Admission.Interleaving

/-!
# One order for interleaved admissions

Any number of admissions meet at one ledger, in turns of single reads and
single replacements.  Each of them takes effect at the turn in which it
returns: an admitted one with its replacement, a suppressed one with its read.
So the order in which they return is an order in which they could have been
made one at a time.  What carries the argument is that a version read earlier
is either outdated, or still belongs to the history that was read with it.
-/

namespace MetricAlerts

/-- A call for an admission: a rule that matched, with the limits and the
retries that are granted to this call. -/
structure AdmissionCall where
  rule : Rule
  user : String
  day : Day
  retries : UInt32

namespace Ledger

/-- Versions only rise, and a history changes only together with its version. -/
def LeadsTo (ledger later : Ledger) : Prop :=
  ∀ key, later.load key = ledger.load key ∨
    (ledger.load key).version < (later.load key).version

theorem leadsTo_refl (ledger : Ledger) : ledger.LeadsTo ledger :=
  fun _ => .inl rfl

theorem leadsTo_insert (ledger : Ledger) (key : AlertKey) (history : History) :
    ledger.LeadsTo (ledger.insert key ⟨history, (ledger.load key).version + 1⟩) := by
  intro other
  by_cases hkey : other = key
  · right
    simp [hkey]
  · left
    simp [hkey]

end Ledger

namespace AdmissionCall

def key (call : AdmissionCall) : AlertKey :=
  call.rule.keyFor call.user

def dialogue (call : AdmissionCall) : Dialogue AlertEvent (Except PassError Admission) :=
  Admission.request call.rule.limits call.key call.day (attemptsOf call.retries)

/-- All calls at once, before the first turn. -/
def startAll (calls : List AdmissionCall) (ledger : Ledger) :
    Interleaving AlertEvent (Except PassError Admission) Ledger :=
  .start (calls.map dialogue) ledger

/-- The calls one at a time, each run to its end before the next one begins. -/
def oneByOne : List AdmissionCall → Ledger → List (Except PassError Admission) × Ledger
  | [], ledger => ([], ledger)
  | call :: calls, ledger =>
      let finished := call.dialogue.run Ledger.store ledger
      let (answers, ledger) := oneByOne calls finished.state
      (finished.answer :: answers, ledger)

theorem oneByOne_concat (calls : List AdmissionCall) (call : AdmissionCall)
    (ledger : Ledger) :
    oneByOne (calls ++ [call]) ledger =
      let before := oneByOne calls ledger
      let finished := call.dialogue.run Ledger.store before.2
      (before.1 ++ [finished.answer], finished.state) := by
  induction calls generalizing ledger with
  | nil => rfl
  | cons first calls ih =>
      simp only [List.cons_append, oneByOne]
      rw [ih]

theorem run_suppressed {call : AdmissionCall} {ledger : Ledger} {reason : Suppression}
    (hcheck : call.rule.limits.check (ledger.load call.key).history call.day =
      .error reason) :
    call.dialogue.run Ledger.store ledger = ⟨.ok (.suppressed reason), ledger, []⟩ := by
  obtain ⟨left, hleft⟩ := Admission.exists_attemptsOf_eq call.retries
  rw [dialogue, Admission.request_eq_remaining, hleft]
  exact Admission.run_remaining_of_suppressed _ _ _ _ _ rfl hcheck

theorem run_admitted {call : AdmissionCall} {ledger : Ledger} {next : History}
    (hcheck : call.rule.limits.check (ledger.load call.key).history call.day =
      .ok next) :
    call.dialogue.run Ledger.store ledger =
      ⟨.ok (.admitted next),
        ledger.insert call.key ⟨next, (ledger.load call.key).version + 1⟩, []⟩ := by
  obtain ⟨left, hleft⟩ := Admission.exists_attemptsOf_eq call.retries
  have hswap := Ledger.trySwap_present ledger call.key next
  rw [dialogue, Admission.request_eq_remaining, hleft]
  rw [Admission.run_remaining_of_admitted _ _ _ _ _ rfl hcheck (congrArg Prod.fst hswap)]
  change Dialogue.Finished.mk _ (ledger.trySwap call.key _ next).2 [] = _
  rw [hswap]

theorem leadsTo_run (call : AdmissionCall) (ledger : Ledger) :
    ledger.LeadsTo (call.dialogue.run Ledger.store ledger).state := by
  cases hcheck : call.rule.limits.check (ledger.load call.key).history call.day with
  | error reason =>
      rw [run_suppressed hcheck]
      exact ledger.leadsTo_refl
  | ok next =>
      rw [run_admitted hcheck]
      exact ledger.leadsTo_insert call.key next

theorem version_run (call : AdmissionCall) (ledger : Ledger) (key : AlertKey) :
    ((call.dialogue.run Ledger.store ledger).state.load key).version =
      (ledger.load key).version +
        if call.key = key ∧ Admission.isMade (call.dialogue.run Ledger.store ledger).answer
        then 1 else 0 := by
  cases hcheck : call.rule.limits.check (ledger.load call.key).history call.day with
  | error reason =>
      rw [run_suppressed hcheck]
      simp [Admission.isMade]
  | ok next =>
      rw [run_admitted hcheck]
      by_cases hkey : call.key = key
      · simp [Admission.isMade, hkey]
      · simp [Admission.isMade, hkey, Ne.symm hkey]

def remaining (call : AdmissionCall) (left : Nat) :
    Dialogue AlertEvent (Except PassError Admission) :=
  Admission.remaining call.rule.limits call.key call.day (attemptsOf call.retries) left

def replacing (call : AdmissionCall) (left version : Nat) (next : History) :
    Dialogue AlertEvent (Except PassError Admission) :=
  Admission.replacing call.rule.limits call.key call.day (attemptsOf call.retries) left
    version next

/-- Where a call can stand that has not returned an admission: before a read,
at its last conflict, or with what it has read.  What it has read is outdated
or present. -/
inductive Underway (call : AdmissionCall) (ledger : Ledger) :
    Dialogue AlertEvent (Except PassError Admission) → Prop where
  | reading (left : Nat) : Underway call ledger (call.remaining left)
  | holding (left : Nat) (seen : Versioned) (next : History)
      (hcheck : call.rule.limits.check seen.history call.day = .ok next)
      (hversion : seen.version ≤ (ledger.load call.key).version)
      (hpresent : (ledger.load call.key).version = seen.version →
        ledger.load call.key = seen) :
      Underway call ledger (call.replacing left seen.version next)

variable {call : AdmissionCall} {ledger later : Ledger}
  {part : Dialogue AlertEvent (Except PassError Admission)}

/-- Others only make what was read outdated. -/
theorem Underway.mono (hpart : Underway call ledger part) (hlater : ledger.LeadsTo later) :
    Underway call later part := by
  cases hpart with
  | reading left => exact .reading left
  | holding left seen next hcheck hversion hpresent =>
      rcases hlater call.key with hsame | hrise
      · refine .holding left seen next hcheck ?_ ?_
        · rw [hsame]
          exact hversion
        · rw [hsame]
          exact hpresent
      · refine .holding left seen next hcheck (by omega) ?_
        intro hequal
        omega

/-- A turn of a call leaves the ledger alone, or is the whole call at once. -/
theorem Underway.step (hpart : Underway call ledger part) :
    (Underway call ledger (part.step Ledger.store ledger).1 ∧
      (part.step Ledger.store ledger).2.1 = ledger) ∨
    ∃ admission, (part.step Ledger.store ledger).1 = .done (.ok admission) ∧
      call.dialogue.run Ledger.store ledger =
        ⟨.ok admission, (part.step Ledger.store ledger).2.1, []⟩ := by
  cases hpart with
  | reading left =>
      cases left with
      | zero => exact .inl ⟨.reading 0, rfl⟩
      | succ left =>
          cases hcheck : call.rule.limits.check (ledger.load call.key).history call.day with
          | error reason =>
              have hstep : (call.remaining (left + 1)).step Ledger.store ledger =
                  (.done (.ok (.suppressed reason)), ledger, []) := by
                rw [remaining, Admission.remaining_succ]
                simp only [Dialogue.step, Ledger.store, hcheck]
              rw [hstep]
              exact .inr ⟨_, rfl, run_suppressed hcheck⟩
          | ok next =>
              have hstep : (call.remaining (left + 1)).step Ledger.store ledger =
                  (call.replacing left (ledger.load call.key).version next, ledger, []) := by
                rw [remaining, Admission.remaining_succ]
                simp only [Dialogue.step, Ledger.store, hcheck, replacing]
              rw [hstep]
              exact .inl ⟨.holding left _ next hcheck le_rfl fun _ => rfl, rfl⟩
  | holding left seen next hcheck hversion hpresent =>
      by_cases hequal : (ledger.load call.key).version = seen.version
      · right
        have hseen : ledger.load call.key = seen := hpresent hequal
        subst hseen
        have hstep : (call.replacing left (ledger.load call.key).version next).step
            Ledger.store ledger = (.done (.ok (.admitted next)),
              ledger.insert call.key ⟨next, (ledger.load call.key).version + 1⟩, []) := by
          simp only [replacing, Admission.replacing, Dialogue.step, Ledger.store,
            Ledger.trySwap_present]
        rw [hstep]
        exact ⟨_, rfl, run_admitted hcheck⟩
      · left
        have hstep : (call.replacing left seen.version next).step Ledger.store ledger =
            (call.remaining left, ledger, []) := by
          simp only [replacing, Admission.replacing, Dialogue.step, Ledger.store,
            Ledger.trySwap_stale hequal, remaining]
        rw [hstep]
        exact ⟨.reading left, rfl⟩

theorem Underway.answer_done {answer : Except PassError Admission}
    (hpart : Underway call ledger (.done answer)) :
    answer = .error (.contended call.key (attemptsOf call.retries)) := by
  generalize hdone : Dialogue.done answer = done at hpart
  cases hpart with
  | reading left =>
      cases left with
      | zero =>
          rw [remaining, Admission.remaining_zero] at hdone
          simpa using hdone
      | succ left =>
          rw [remaining, Admission.remaining_succ] at hdone
          cases hdone
  | holding left seen next _ _ _ => cases hdone

/-! ## All calls together -/

variable {calls : List AdmissionCall}
  {joint : Interleaving AlertEvent (Except PassError Admission) Ledger}
  {order : List (Fin calls.length)}

/-- The calls in `order` have returned an admission, and made one at a time in
this order they do and leave the same; all others are still underway. -/
structure InOrder (ledger : Ledger)
    (joint : Interleaving AlertEvent (Except PassError Admission) Ledger)
    (order : List (Fin calls.length)) : Prop where
  length : joint.parts.length = calls.length
  nodup : order.Nodup
  answers : (oneByOne (order.map calls.get) ledger).1.map some =
    order.map fun place => joint.answer? place.val
  state : (oneByOne (order.map calls.get) ledger).2 = joint.state
  returned : ∀ place ∈ order, ∃ admission,
    joint.parts[place.val]? = some (.done (.ok admission))
  underway : ∀ place ∉ order, ∃ part,
    joint.parts[place.val]? = some part ∧ Underway (calls.get place) joint.state part

theorem inOrder_startAll (calls : List AdmissionCall) (ledger : Ledger) :
    InOrder ledger (startAll calls ledger) ([] : List (Fin calls.length)) where
  length := by simp [startAll, Interleaving.start]
  nodup := List.nodup_nil
  answers := rfl
  state := rfl
  returned := by simp
  underway := by
    intro place _
    refine ⟨(calls.get place).dialogue, ?_, .reading _⟩
    simp [startAll, Interleaving.start]

/-- A turn that leaves its call underway changes nothing for the others. -/
theorem InOrder.turn_underway (hjoint : InOrder ledger joint order)
    {place : Fin calls.length} (hplace : place ∉ order)
    {next : Dialogue AlertEvent (Except PassError Admission)} {sent : List AlertEvent}
    (hnext : Underway (calls.get place) joint.state next) :
    InOrder ledger ⟨joint.parts.set place next, joint.state, sent⟩ order where
  length := by simpa using hjoint.length
  nodup := hjoint.nodup
  answers := by
    rw [hjoint.answers]
    apply List.map_congr_left
    intro other hother
    have hne : place.val ≠ other.val := by
      intro h
      exact hplace (Fin.ext h ▸ hother)
    simp [Interleaving.answer?, List.getElem?_set_ne hne]
  state := hjoint.state
  returned := by
    intro other hother
    have hne : place.val ≠ other.val := by
      intro h
      exact hplace (Fin.ext h ▸ hother)
    simpa [List.getElem?_set_ne hne] using hjoint.returned other hother
  underway := by
    intro other hother
    by_cases hother' : other = place
    · subst hother'
      refine ⟨next, ?_, hnext⟩
      simp [hjoint.length]
    · have hne : place.val ≠ other.val := fun h => hother' (Fin.ext h).symm
      simpa [List.getElem?_set_ne hne] using hjoint.underway other hother

/-- A turn in which a call returns puts the call at the end of the order. -/
theorem InOrder.turn_returned (hjoint : InOrder ledger joint order)
    {place : Fin calls.length} (hplace : place ∉ order)
    {admission : Admission} {later : Ledger} {sent : List AlertEvent}
    (halone : (calls.get place).dialogue.run Ledger.store joint.state =
      ⟨.ok admission, later, []⟩) :
    InOrder ledger ⟨joint.parts.set place (.done (.ok admission)), later, sent⟩
      (order ++ [place]) := by
  have hne : ∀ other : Fin calls.length, other ≠ place → place.val ≠ other.val :=
    fun other hother h => hother (Fin.ext h).symm
  have hself : (joint.parts.set place (.done (.ok admission)))[place.val]? =
      some (.done (.ok admission)) := by
    simp [hjoint.length]
  have honeByOne : oneByOne ((order ++ [place]).map calls.get) ledger =
      ((oneByOne (order.map calls.get) ledger).1 ++ [.ok admission], later) := by
    rw [List.map_append, List.map_singleton, oneByOne_concat]
    simp only [hjoint.state, halone]
  have hlater : joint.state.LeadsTo later := by
    have hleads := leadsTo_run (calls.get place) joint.state
    rwa [halone] at hleads
  refine ⟨by simpa using hjoint.length, ?_, ?_, ?_, ?_, ?_⟩
  · exact List.nodup_append.2 ⟨hjoint.nodup, List.nodup_singleton place, by
      rintro other hother last hlast rfl
      exact hplace (List.mem_singleton.1 hlast ▸ hother)⟩
  · rw [honeByOne, List.map_append, List.map_append, hjoint.answers]
    congr 1
    · apply List.map_congr_left
      intro other hother
      have hother' : other ≠ place := by
        rintro rfl
        exact hplace hother
      simp [Interleaving.answer?, List.getElem?_set_ne (hne other hother')]
    · simp [Interleaving.answer?, hjoint.length]
  · rw [honeByOne]
  · intro other hother
    by_cases hother' : other = place
    · subst hother'
      exact ⟨admission, hself⟩
    · have hmem : other ∈ order := by simpa [hother'] using hother
      simpa [List.getElem?_set_ne (hne other hother')] using hjoint.returned other hmem
  · intro other hother
    have hmem : other ∉ order ∧ other ≠ place := by simpa using hother
    obtain ⟨part, hpart, hunder⟩ := hjoint.underway other hmem.1
    refine ⟨part, ?_, hunder.mono hlater⟩
    simpa [List.getElem?_set_ne (hne other hmem.2)] using hpart

theorem InOrder.turn (hjoint : InOrder ledger joint order) (place : Nat) :
    ∃ order : List (Fin calls.length),
      InOrder ledger (joint.turn Ledger.store place) order := by
  by_cases hplace : place < calls.length
  · by_cases horder : ⟨place, hplace⟩ ∈ order
    · obtain ⟨admission, hpart⟩ := hjoint.returned _ horder
      rw [Interleaving.turn_done hpart]
      exact ⟨order, hjoint⟩
    · obtain ⟨part, hpart, hunder⟩ := hjoint.underway _ horder
      rw [Interleaving.turn_eq hpart]
      rcases hunder.step with ⟨hnext, hstate⟩ | ⟨admission, hdone, halone⟩
      · rw [hstate]
        exact ⟨order, hjoint.turn_underway horder hnext⟩
      · rw [hdone]
        exact ⟨order ++ [⟨place, hplace⟩], hjoint.turn_returned horder halone⟩
  · rw [Interleaving.turn_eq_self]
    · exact ⟨order, hjoint⟩
    · rw [List.getElem?_eq_none_iff, hjoint.length]
      omega

theorem inOrder_run (calls : List AdmissionCall) (ledger : Ledger) (schedule : List Nat) :
    ∃ order : List (Fin calls.length),
      InOrder ledger ((startAll calls ledger).run Ledger.store schedule) order := by
  apply Interleaving.run_induction (motive := fun joint =>
    ∃ order : List (Fin calls.length), InOrder ledger joint order)
  · exact ⟨[], inOrder_startAll calls ledger⟩
  · rintro joint place ⟨order, hjoint⟩
    exact hjoint.turn place

theorem InOrder.mem_iff (hjoint : InOrder ledger joint order) (place : Fin calls.length) :
    place ∈ order ↔ ∃ admission, joint.answer? place.val = some (.ok admission) := by
  simp only [Interleaving.answer?_eq_some_iff]
  constructor
  · exact hjoint.returned place
  · rintro ⟨admission, hdone⟩
    by_contra hplace
    obtain ⟨part, hpart, hunder⟩ := hjoint.underway place hplace
    rw [hdone] at hpart
    cases hpart
    cases hunder.answer_done

theorem InOrder.error_eq (hjoint : InOrder ledger joint order) {place : Fin calls.length}
    {e : PassError} (herror : joint.answer? place.val = some (.error e)) :
    e = .contended (calls.get place).key (attemptsOf (calls.get place).retries) := by
  have hplace : place ∉ order := by
    rw [hjoint.mem_iff]
    rintro ⟨admission, hok⟩
    rw [herror] at hok
    cases hok
  obtain ⟨part, hpart, hunder⟩ := hjoint.underway place hplace
  rw [Interleaving.answer?_eq_some_iff.1 herror] at hpart
  cases hpart
  have hanswer := hunder.answer_done
  cases hanswer
  rfl

/-- One at a time, every admission that is made raises the version of its key
by one, and nothing else does. -/
theorem version_oneByOne {ι : Type} (call : ι → AdmissionCall)
    (answer : ι → Option (Except PassError Admission)) (key : AlertKey)
    {order : List ι} {ledger : Ledger}
    (hanswers : (oneByOne (order.map call) ledger).1.map some = order.map answer) :
    ((oneByOne (order.map call) ledger).2.load key).version =
      (ledger.load key).version +
        order.countP fun place =>
          decide ((call place).key = key) && (answer place).any Admission.isMade := by
  induction order generalizing ledger with
  | nil => rfl
  | cons place order ih =>
      simp only [List.map_cons, oneByOne, List.cons.injEq] at hanswers ⊢
      rw [ih hanswers.2, version_run, List.countP_cons, ← hanswers.1]
      simp only [Option.any_some, Bool.and_eq_true, decide_eq_true_eq]
      omega

theorem InOrder.version_eq (hjoint : InOrder ledger joint order) (key : AlertKey) :
    (joint.state.load key).version = (ledger.load key).version +
      (Finset.univ.filter fun place : Fin calls.length =>
        (calls.get place).key = key ∧
          (joint.answer? place.val).any Admission.isMade).card := by
  have hcount := version_oneByOne calls.get (fun place => joint.answer? place.val) key
    hjoint.answers
  rw [hjoint.state] at hcount
  rw [hcount, List.countP_eq_length_filter,
    ← List.toFinset_card_of_nodup (hjoint.nodup.filter _)]
  congr 2
  ext place
  simp only [List.mem_toFinset, List.mem_filter, Finset.mem_filter, Finset.mem_univ,
    true_and, Bool.and_eq_true, decide_eq_true_eq, and_iff_right_iff_imp, hjoint.mem_iff]
  rintro ⟨-, hmade⟩
  cases hanswer : joint.answer? place.val with
  | none => simp [hanswer] at hmade
  | some answer =>
      cases answer with
      | error e => simp [hanswer, Admission.isMade] at hmade
      | ok admission => exact ⟨admission, rfl⟩

/-- However the turns of any calls fall at a ledger, the calls that have
returned an admission can be put in an order in which, made one at a time, they
return the same and leave the same ledger.  A call that ends otherwise has met
its last conflict and left no trace, and every version has risen by the number
of admissions made for its key. -/
theorem exists_order_of_interleaving (calls : List AdmissionCall) (ledger : Ledger)
    (schedule : List Nat) :
    let joint := (startAll calls ledger).run Ledger.store schedule
    (∃ order : List (Fin calls.length),
      order.Nodup ∧
      (∀ place, place ∈ order ↔
        ∃ admission, joint.answer? place.val = some (.ok admission)) ∧
      (oneByOne (order.map calls.get) ledger).1.map some =
        (order.map fun place => joint.answer? place.val) ∧
      (oneByOne (order.map calls.get) ledger).2 = joint.state) ∧
    (∀ (place : Fin calls.length) (e : PassError),
      joint.answer? place.val = some (.error e) →
        e = .contended (calls.get place).key (attemptsOf (calls.get place).retries)) ∧
    ∀ key, (joint.state.load key).version = (ledger.load key).version +
      (Finset.univ.filter fun place : Fin calls.length =>
        (calls.get place).key = key ∧
          (joint.answer? place.val).any Admission.isMade).card := by
  intro joint
  obtain ⟨order, hjoint⟩ := inOrder_run calls ledger schedule
  refine ⟨⟨order, hjoint.nodup, hjoint.mem_iff, hjoint.answers, hjoint.state⟩, ?_, ?_⟩
  · intro place e herror
    exact hjoint.error_eq herror
  · intro key
    exact hjoint.version_eq key

end AdmissionCall

end MetricAlerts
