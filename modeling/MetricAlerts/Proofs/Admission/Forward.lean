import MetricAlerts.Proofs.Admission.Growth
import MetricAlerts.Proofs.Admission.Linearization
import MetricAlerts.Proofs.Admission.Sequence

/-!
# Requests that go forward in time

A history remembers one day only.  For requests whose days never go back that
is enough: no earlier day is asked for again, so the count of the day that is
remembered is the number of its admissions, and every other day still to come
has none.  Hence it can be said in advance which requests are admitted: with no
cooldown the first ones of each day, up to the cap, and with a cooldown those
that come first or late enough after the last one.
-/

namespace MetricAlerts

theorem Day.eq_of_le_of_le {day other : Day} (hle : day ≤ other) (hge : other ≤ day) :
    day = other := by
  simp only [Day.le_def] at hle hge
  apply Day.ext_number
  omega

theorem Day.le_of_getLast? {days : List Day} {last day : Day} (hforward : days.Pairwise (· ≤ ·))
    (hlast : days.getLast? = some last) (hday : day ∈ days) : day ≤ last := by
  obtain ⟨before, rfl⟩ := List.getLast?_eq_some_iff.1 hlast
  rcases List.mem_append.1 hday with hday | hday
  · exact (List.pairwise_append.1 hforward).2.2 day hday last (List.mem_singleton_self last)
  · rw [List.mem_singleton.1 hday, Day.le_def]

/-- A day that is left is not asked for again. -/
theorem Day.not_sublist_of_forward {days : List Day} (hforward : days.Pairwise (· ≤ ·))
    {day other : Day} (hne : other ≠ day) : ¬[day, other, day].Sublist days := by
  intro hsub
  have hthree := hforward.sublist hsub
  simp only [List.pairwise_cons, List.mem_cons, List.not_mem_nil, or_false, forall_eq_or_imp,
    forall_eq] at hthree
  exact hne (Day.eq_of_le_of_le hthree.2.1 hthree.1.1)

namespace Limits

variable {limits : Limits} {day : Day} {days : List Day}

theorem admissions_concat_of_error {reason : Suppression}
    (hcheck : limits.check (limits.admissions .empty days).2 day = .error reason) :
    limits.admissions .empty (days ++ [day]) = limits.admissions .empty days := by
  simp only [admissions_append, admissions, hcheck, List.append_nil]

theorem admissions_concat_of_ok {next : History}
    (hcheck : limits.check (limits.admissions .empty days).2 day = .ok next) :
    limits.admissions .empty (days ++ [day]) =
      ((limits.admissions .empty days).1 ++ [day], next) := by
  simp only [admissions_append, admissions, hcheck]

/-- A history is about the day that was admitted last, and about no other. -/
theorem last_admissions (limits : Limits) (days : List Day) :
    (limits.admissions .empty days).2.last = (limits.admissions .empty days).1.getLast? ∧
      (limits.admissions .empty days).2.countedOn =
        (limits.admissions .empty days).1.getLast? := by
  induction days using List.reverseRecOn with
  | nil => exact ⟨rfl, rfl⟩
  | append_singleton days day ih =>
      cases hcheck : limits.check (limits.admissions .empty days).2 day with
      | error reason =>
          rw [admissions_concat_of_error hcheck]
          exact ih
      | ok next =>
          obtain ⟨-, -, rfl⟩ := check_eq_ok_iff.1 hcheck
          rw [admissions_concat_of_ok hcheck]
          simp [History.admitted]

theorem admissions_forward (limits : Limits) (hforward : days.Pairwise (· ≤ ·)) :
    (limits.admissions .empty days).1.Pairwise (· ≤ ·) :=
  hforward.sublist (limits.admissions_sublist .empty days)

/-- On a day that no admitted one comes after, the history counts what was
admitted on that day. -/
theorem toNat_countOn_admissions (hforward : days.Pairwise (· ≤ ·))
    (hlate : ∀ earlier ∈ (limits.admissions .empty days).1, earlier ≤ day) :
    ((limits.admissions .empty days).2.countOn day).toNat =
      (limits.admissions .empty days).1.count day := by
  induction days using List.reverseRecOn generalizing day with
  | nil => rfl
  | append_singleton days other ih =>
      obtain ⟨hbefore, -, hother⟩ := List.pairwise_append.1 hforward
      have hadmitted : ∀ earlier ∈ (limits.admissions .empty days).1, earlier ≤ other := by
        intro earlier hearlier
        exact hother earlier ((limits.admissions_sublist .empty days).subset hearlier) other
          (List.mem_singleton_self other)
      cases hcheck : limits.check (limits.admissions .empty days).2 other with
      | error reason =>
          rw [admissions_concat_of_error hcheck] at hlate ⊢
          exact ih hbefore hlate
      | ok next =>
          obtain ⟨-, hcap, rfl⟩ := check_eq_ok_iff.1 hcheck
          rw [admissions_concat_of_ok hcheck] at hlate ⊢
          rw [List.count_append]
          by_cases hsame : other = day
          · subst hsame
            rw [History.toNat_countOn_admitted _ hcap, ih hbefore hadmitted,
              List.count_singleton_self]
          · -- The day is later than the one admitted last, and so than all others.
            have hfresh : (limits.admissions .empty days).1.count day = 0 := by
              rw [List.count_eq_zero]
              intro hday
              exact hsame (Day.eq_of_le_of_le (hlate other (by simp)) (hadmitted day hday))
            rw [History.countOn_admitted_of_ne _ hsame, hfresh]
            simp [hsame]

/-- The days asked for so far come before the next one. -/
theorem admissions_le_of_forward (limits : Limits) (hforward : (days ++ [day]).Pairwise (· ≤ ·)) :
    ∀ earlier ∈ (limits.admissions .empty days).1, earlier ≤ day := by
  intro earlier hearlier
  exact (List.pairwise_append.1 hforward).2.2 earlier
    ((limits.admissions_sublist .empty days).subset hearlier) day (List.mem_singleton_self day)

/-- Nothing was admitted only if nothing was asked for: the first request is
always within the limits. -/
theorem admissions_eq_nil_iff (hcap : 0 < limits.maxPerDay) :
    (limits.admissions .empty days).1 = [] ↔ days = [] := by
  cases days with
  | nil => simp [admissions]
  | cons day days =>
      have hfirst : limits.check .empty day = .ok (History.empty.admitted day) := by
        have hcooldown : limits.cooldown? .empty day = none := rfl
        exact check_eq_ok_iff.2 ⟨hcooldown, hcap, rfl⟩
      rw [admissions_cons_of_ok hfirst]
      simp

/-- With no cooldown a day gets as much as it asks for, up to the cap. -/
theorem count_admissions_eq_min (hcooldown : limits.cooldownDays = 0)
    (hforward : days.Pairwise (· ≤ ·)) (day : Day) :
    (limits.admissions .empty days).1.count day = min (days.count day) limits.maxPerDay.toNat := by
  have hasked := (limits.admissions_sublist .empty days).count_le day
  have hwithin := limits.count_le_maxPerDay .empty (rfl : History.empty.countOn day = 0)
    fun other hne => Day.not_sublist_of_forward hforward hne
  have hgiven := min_le_count hcooldown .empty day days
  simp only [History.countOn_empty, UInt32.toNat_zero, Nat.sub_zero] at hgiven
  omega

theorem exists_check_iff_of_uncooled (hcooldown : limits.cooldownDays = 0)
    (hforward : (days ++ [day]).Pairwise (· ≤ ·)) :
    (∃ next, limits.check (limits.admissions .empty days).2 day = .ok next) ↔
      days.count day < limits.maxPerDay.toNat := by
  have hdays := (List.pairwise_append.1 hforward).1
  have hcount := toNat_countOn_admissions hdays (limits.admissions_le_of_forward hforward)
  rw [count_admissions_eq_min hcooldown hdays] at hcount
  simp only [check_eq_ok_iff, cooldown?_eq_none_iff, hcooldown, true_or, true_and,
    UInt32.lt_iff_toNat_lt, hcount, exists_and_left, exists_eq, and_true]
  omega

theorem exists_check_iff_of_cooled (hcooldown : limits.cooldownDays ≠ 0)
    (hcap : 0 < limits.maxPerDay) (hforward : (days ++ [day]).Pairwise (· ≤ ·)) :
    (∃ next, limits.check (limits.admissions .empty days).2 day = .ok next) ↔
      days = [] ∨ ∃ last, (limits.admissions .empty days).1.getLast? = some last ∧
        (limits.cooldownDays.toNat : Int) ≤ day.since last := by
  have hdays := (List.pairwise_append.1 hforward).1
  have hcount := toNat_countOn_admissions hdays (limits.admissions_le_of_forward hforward)
  rw [← admissions_eq_nil_iff hcap, ← List.getLast?_eq_none_iff]
  simp only [check_eq_ok_iff, cooldown?_eq_none_iff, hcooldown, false_or, exists_and_left,
    exists_eq, and_true, (limits.last_admissions days).1]
  cases hlast : (limits.admissions .empty days).1.getLast? with
  | none =>
      rw [List.getLast?_eq_none_iff] at hlast
      rw [hlast, List.count_nil] at hcount
      simpa [UInt32.lt_iff_toNat_lt, hcount] using UInt32.lt_iff_toNat_lt.1 hcap
  | some last =>
      simp only [Option.some.injEq, forall_eq', reduceCtorEq, exists_eq_left', false_or,
        and_iff_left_iff_imp]
      -- A cooldown has passed, so this is another day than the last one.
      intro hgap
      have hpos := UInt32.lt_iff_toNat_lt.1 (UInt32.pos_iff_ne_zero.2 hcooldown)
      have hfresh : (limits.admissions .empty days).1.count day = 0 := by
        rw [List.count_eq_zero]
        intro hday
        have hle := Day.le_of_getLast? (limits.admissions_forward hdays) hlast hday
        simp only [Day.le_def] at hle
        simp only [Day.since] at hgap
        rw [UInt32.toNat_zero] at hpos
        omega
      rw [UInt32.lt_iff_toNat_lt, hcount, hfresh]
      exact UInt32.lt_iff_toNat_lt.1 hcap

end Limits

/-! ## At a ledger -/

/-- The decision that a check comes to. -/
def Admission.ofCheck : Except Suppression History → Admission
  | .ok next => .admitted next
  | .error reason => .suppressed reason

theorem Admission.exists_ofCheck_eq_admitted {checked : Except Suppression History} :
    (∃ next, ofCheck checked = .admitted next) ↔ ∃ next, checked = .ok next := by
  cases checked <;> simp [ofCheck]

/-- What is stored when these days were admitted: of the last one, how often it
was. -/
def History.Recalls (stored : Option History) (admitted : List Day) : Prop :=
  match admitted.getLast? with
  | none => stored = none
  | some last => ∃ history, stored = some history ∧ history.last = some last ∧
      history.countedOn = some last ∧ history.count.toNat = admitted.count last

namespace AdmissionCall

/-- Calls for one rule and one user, one for each of the days. -/
def onDays (rule : Rule) (user : String) (retries : UInt32) (days : List Day) :
    List AdmissionCall :=
  days.map fun day => ⟨rule, user, day, retries⟩

/-- Days of the calls that are admitted when they are made one at a time, from
an empty ledger. -/
def admittedDays (calls : List AdmissionCall) : List Day :=
  ((calls.zip (oneByOne calls .empty).1).filter fun (_, answer) =>
    Admission.isMade answer).map fun (call, _) => call.day

theorem oneByOne_append (calls others : List AdmissionCall) (ledger : Ledger) :
    oneByOne (calls ++ others) ledger =
      let first := oneByOne calls ledger
      let second := oneByOne others first.2
      (first.1 ++ second.1, second.2) := by
  induction calls generalizing ledger with
  | nil => rfl
  | cons call calls ih =>
      simp only [List.cons_append, oneByOne]
      rw [ih]

theorem length_oneByOne (calls : List AdmissionCall) (ledger : Ledger) :
    (oneByOne calls ledger).1.length = calls.length := by
  induction calls generalizing ledger with
  | nil => rfl
  | cons call calls ih => simp only [oneByOne, List.length_cons, ih]

theorem admittedDays_concat (calls : List AdmissionCall) (call : AdmissionCall) :
    admittedDays (calls ++ [call]) = admittedDays calls ++
      if Admission.isMade (call.dialogue.run Ledger.store (oneByOne calls .empty).2).answer
      then [call.day] else [] := by
  rw [admittedDays, admittedDays, oneByOne_concat,
    List.zip_append (length_oneByOne calls .empty).symm, List.filter_append, List.map_append]
  congr 1
  cases hmade : Admission.isMade (call.dialogue.run Ledger.store (oneByOne calls .empty).2).answer
    <;> simp [hmade]

variable {rule : Rule} {user : String} {retries : UInt32} {days : List Day}

theorem onDays_concat (day : Day) :
    onDays rule user retries (days ++ [day]) =
      onDays rule user retries days ++ [⟨rule, user, day, retries⟩] := by
  rw [onDays, List.map_append, List.map_singleton, onDays]

/-- A row of calls at a ledger is a row of requests. -/
theorem oneByOne_onDays (rule : Rule) (user : String) (retries : UInt32) (days : List Day) :
    admittedDays (onDays rule user retries days) = (rule.limits.admissions .empty days).1 ∧
      ((oneByOne (onDays rule user retries days) .empty).2.load (rule.keyFor user)).history =
        (rule.limits.admissions .empty days).2 ∧
      (oneByOne (onDays rule user retries days) .empty).2.history? (rule.keyFor user) =
        (rule.limits.admissions .empty days).1.getLast?.map fun _ =>
          (rule.limits.admissions .empty days).2 := by
  induction days using List.reverseRecOn with
  | nil => exact ⟨rfl, rfl, rfl⟩
  | append_singleton days day ih =>
      obtain ⟨hadmitted, hhistory, hstored⟩ := ih
      let call : AdmissionCall := ⟨rule, user, day, retries⟩
      cases hcheck : rule.limits.check (rule.limits.admissions .empty days).2 day with
      | error reason =>
          have hrun := @run_suppressed call _ reason (hhistory ▸ hcheck)
          simp only [onDays_concat, admittedDays_concat, oneByOne_concat, hrun, hadmitted, call,
            Admission.isMade, Limits.admissions_concat_of_error hcheck]
          exact ⟨List.append_nil _, hhistory, hstored⟩
      | ok next =>
          have hrun := @run_admitted call _ next (hhistory ▸ hcheck)
          simp only [onDays_concat, admittedDays_concat, oneByOne_concat, hrun, hadmitted, call,
            Admission.isMade, Limits.admissions_concat_of_ok hcheck]
          simp [Ledger.history?, key]

/-- The answer to a call in a row, whatever follows it. -/
theorem answer_onDays (before : List Day) (day : Day) (after : List Day) :
    (oneByOne (onDays rule user retries (before ++ day :: after)) .empty).1[before.length]? =
      some (.ok (.ofCheck
        (rule.limits.check (rule.limits.admissions .empty before).2 day))) := by
  have hlength : (oneByOne (onDays rule user retries before) .empty).1.length = before.length := by
    rw [length_oneByOne, onDays, List.length_map]
  have hhistory := (oneByOne_onDays rule user retries before).2.1
  have hsplit : onDays rule user retries (before ++ day :: after) =
      onDays rule user retries before ++ ⟨rule, user, day, retries⟩ ::
        onDays rule user retries after := by
    rw [onDays, List.map_append, List.map_cons, onDays, onDays]
  rw [hsplit, oneByOne_append]
  simp only [oneByOne]
  rw [List.getElem?_append_right (Nat.le_of_eq hlength), hlength, Nat.sub_self,
    List.getElem?_cons_zero]
  cases hcheck : rule.limits.check (rule.limits.admissions .empty before).2 day with
  | error reason =>
      rw [@run_suppressed ⟨rule, user, day, retries⟩ _ reason (hhistory ▸ hcheck),
        Admission.ofCheck]
  | ok next =>
      rw [@run_admitted ⟨rule, user, day, retries⟩ _ next (hhistory ▸ hcheck),
        Admission.ofCheck]

theorem recalls_onDays (hforward : days.Pairwise (· ≤ ·)) :
    History.Recalls
      ((oneByOne (onDays rule user retries days) .empty).2.history? (rule.keyFor user))
      (admittedDays (onDays rule user retries days)) := by
  obtain ⟨hadmitted, -, hstored⟩ := oneByOne_onDays rule user retries days
  obtain ⟨hlast, hcounted⟩ := rule.limits.last_admissions days
  rw [hadmitted, hstored, History.Recalls]
  cases hday : (rule.limits.admissions .empty days).1.getLast? with
  | none => rfl
  | some last =>
      rw [hday] at hlast hcounted
      have hcount := Limits.toNat_countOn_admissions hforward
        fun _ => Day.le_of_getLast? (rule.limits.admissions_forward hforward) hday
      rw [History.countOn, if_pos hcounted] at hcount
      exact ⟨_, rfl, hlast, hcounted, hcount⟩

/-- Calls for one rule and one user that are made one at a time, on days that
never go back, are all decided, and it can be said in advance how.  With no
cooldown, a day is admitted as often as it is asked for, but no more often than
the cap allows, and it is the first calls of the day that are admitted.  With a
cooldown, a call is admitted if and only if it is the first of all or comes late
enough after the last one that was.  After each call the history is that of the
last admission: its day, and how often that day was admitted. -/
theorem forward_calls_decided (rule : Rule) (user : String) (retries : UInt32) {days : List Day}
    (hcap : 0 < rule.maxPerDay) (hforward : days.Pairwise (· ≤ ·)) :
    let calls := onDays rule user retries
    (rule.cooldownDays = 0 → ∀ day,
      (admittedDays (calls days)).count day = min (days.count day) rule.maxPerDay.toNat) ∧
    (∀ before day after, days = before ++ day :: after →
      ∃ decision, (oneByOne (calls days) .empty).1[before.length]? = some (.ok decision) ∧
        (rule.cooldownDays = 0 →
          ((∃ next, decision = .admitted next) ↔ before.count day < rule.maxPerDay.toNat)) ∧
        (rule.cooldownDays ≠ 0 →
          ((∃ next, decision = .admitted next) ↔ before = [] ∨
            ∃ last, (admittedDays (calls before)).getLast? = some last ∧
              (rule.cooldownDays.toNat : Int) ≤ day.since last))) ∧
    ∀ before after, days = before ++ after →
      History.Recalls ((oneByOne (calls before) .empty).2.history? (rule.keyFor user))
        (admittedDays (calls before)) := by
  intro calls
  refine ⟨?_, ?_, ?_⟩
  · intro hcooldown day
    rw [(oneByOne_onDays rule user retries days).1]
    exact Limits.count_admissions_eq_min hcooldown hforward day
  · rintro before day after rfl
    have hfirst : (before ++ [day]).Pairwise (· ≤ ·) := by
      rw [List.append_cons] at hforward
      exact (List.pairwise_append.1 hforward).1
    refine ⟨_, answer_onDays before day after, ?_, ?_⟩
    · intro hcooldown
      rw [Admission.exists_ofCheck_eq_admitted]
      exact Limits.exists_check_iff_of_uncooled hcooldown hfirst
    · intro hcooldown
      rw [Admission.exists_ofCheck_eq_admitted, (oneByOne_onDays rule user retries before).1]
      exact Limits.exists_check_iff_of_cooled hcooldown hcap hfirst
  · rintro before after rfl
    exact recalls_onDays (List.pairwise_append.1 hforward).1

/-- A rule that may alert twice a day, with no cooldown. -/
def twiceADay : Rule where
  id := "twice"
  version := 1
  tenant := "acme"
  enabled := true
  description := none
  category := ""
  priority := 0
  severity := 0
  cooldownDays := 0
  maxPerDay := 2
  tags := .empty
  logic := .group .all []
  messages := ⟨"en", [⟨none, "hello", 1⟩]⟩

/-- Three requests on a day, and one on a later day. -/
def threeAndOne : List Day :=
  [.first, .first, .first, .last]

theorem forward_calls_decided_twiceADay :
    let calls := onDays twiceADay "ada" 3
    0 < twiceADay.maxPerDay ∧ threeAndOne.Pairwise (· ≤ ·) ∧
      (admittedDays (calls threeAndOne)).count .first = 2 ∧
      (∃ decision, (oneByOne (calls threeAndOne) .empty).1[2]? = some (.ok decision) ∧
        ¬∃ next, decision = .admitted next) ∧
      History.Recalls ((oneByOne (calls threeAndOne) .empty).2.history? (twiceADay.keyFor "ada"))
        (admittedDays (calls threeAndOne)) := by
  intro calls
  have hcap : 0 < twiceADay.maxPerDay := by decide
  have hforward : threeAndOne.Pairwise (· ≤ ·) := by decide
  obtain ⟨hcount, hdecided, hrecalls⟩ :=
    forward_calls_decided twiceADay "ada" 3 hcap hforward
  obtain ⟨decision, hdecision, hfirst, -⟩ := hdecided [.first, .first] .first [.last] rfl
  refine ⟨hcap, hforward, ?_, ⟨decision, hdecision, ?_⟩, hrecalls threeAndOne [] (by simp)⟩
  · rw [hcount rfl .first]
    decide
  · rw [hfirst rfl]
    decide

end AdmissionCall

end MetricAlerts
