import MetricAlerts.Command.Run
import MetricAlerts.Proofs.Answers
import MetricAlerts.Proofs.Calendar.Range
import MetricAlerts.Proofs.Command.Validation

/-!
# Evaluating day by day

To evaluate a user from one day to another is to evaluate each day of the range
once, in order.  What has been admitted is saved at the end.  The step to the
next day comes before the question whether there is one to evaluate, so a range
that ends with the calendar ends with a failure: all its days were evaluated and
shown, and nothing is saved.
-/

namespace MetricAlerts.Command

section Run

variable {σ : Type} {store : HistoryStore σ} {user tenant : String} {service : Service σ}
  {day last : Day}

/-- Evaluates a user on the given days, up to the first on which that fails. -/
def evaluateEach (store : HistoryStore σ) (user tenant : String) (service : Service σ) :
    List Day → DaysRun σ
  | [] => ⟨[], .ok service⟩
  | day :: days =>
      match service.evaluate store user day tenant with
      | (.error cause, _) => ⟨[], .error (.evaluating user day cause)⟩
      | (.ok report, service) =>
          let later := evaluateEach store user tenant service days
          ⟨(day, report.events) :: later.days, later.ended⟩

/-- The run as it ends when the step after the last day is taken. -/
def DaysRun.steppingPast (run : DaysRun σ) (last : Day) : DaysRun σ where
  days := run.days
  ended := run.ended.bind fun service =>
    if last = Day.last then .error (.calendarEnd last) else .ok service

section Head

variable {later : Service σ} {days : List Day}

theorem evaluateEach_cons_of_error {cause : PassError}
    (hevaluate : service.evaluate store user day tenant = (.error cause, later)) :
    evaluateEach store user tenant service (day :: days) =
      ⟨[], .error (.evaluating user day cause)⟩ := by
  rw [evaluateEach, hevaluate]

theorem evaluateEach_cons_of_ok {report : Report}
    (hevaluate : service.evaluate store user day tenant = (.ok report, later)) :
    evaluateEach store user tenant service (day :: days) =
      ⟨(day, report.events) :: (evaluateEach store user tenant later days).days,
        (evaluateEach store user tenant later days).ended⟩ := by
  rw [evaluateEach, hevaluate]

end Head

/-- To step from day to day is to evaluate each day of the range, and then to step once
more. -/
theorem evaluateDays_eq (hrange : day ≤ last) :
    evaluateDays store user tenant last service day =
      (evaluateEach store user tenant service (day.span last)).steppingPast last := by
  fun_induction evaluateDays store user tenant last service day with
  | case1 service day cause later hevaluate =>
      obtain ⟨days, hspan⟩ := Day.exists_span_eq_cons hrange
      rw [hspan, evaluateEach_cons_of_error hevaluate]
      rfl
  | case2 service day report later hevaluate hnext =>
      have hlast : day = Day.last := Day.add?_one_eq_none_iff.1 hnext
      rw [Day.eq_of_add?_one hnext hrange, Day.span_self, evaluateEach_cons_of_ok hevaluate]
      simp only [DaysRun.steppingPast, evaluateEach, Except.bind, if_pos hlast]
  | case3 service day report later hevaluate next hnext hlast rest ih =>
      rw [Day.span_cons hnext hlast, evaluateEach_cons_of_ok hevaluate]
      simp only [rest, ih hlast]
      rfl
  | case4 service day report later hevaluate next hnext hlast =>
      have hmore : day ≠ Day.last := by
        rw [Ne, ← Day.add?_one_eq_none_iff, hnext]
        rintro ⟨⟩
      rw [Day.eq_of_not_le hnext hrange hlast, Day.span_self, evaluateEach_cons_of_ok hevaluate]
      simp only [DaysRun.steppingPast, evaluateEach, Except.bind, if_neg hmore]

end Run

section Workspace

variable {around : Surroundings} {sources : Sources} {workspace : Workspace} {first last : Day}

/-- In memory no day fails. -/
theorem exists_evaluateEach (hup : workspace.down = []) (user tenant : String)
    (days : List Day) :
    ∃ evaluated : Workspace,
      (evaluateEach Ledger.store user tenant workspace days).ended = .ok evaluated ∧
      (evaluateEach Ledger.store user tenant workspace days).days.map Prod.fst = days := by
  induction days generalizing workspace with
  | nil => exact ⟨workspace, rfl, rfl⟩
  | cons day days ih =>
      obtain ⟨report, hreport⟩ := Service.exists_report hup user day tenant
      have hevaluate : workspace.evaluate Ledger.store user day tenant =
          (.ok report, (workspace.evaluate Ledger.store user day tenant).2) :=
        Prod.ext hreport rfl
      have hlater : (workspace.evaluate Ledger.store user day tenant).2.down = [] := hup
      obtain ⟨evaluated, hended, hdays⟩ := ih hlater
      rw [evaluateEach_cons_of_ok hevaluate]
      exact ⟨evaluated, hended, congrArg (day :: ·) hdays⟩

theorem saveHistories_ne_calendarEnd {files : FileTree} {ledger : Ledger} {day : Day} :
    saveHistories files sources ledger ≠ .error (.calendarEnd day) := by
  rw [saveHistories]
  split
  · rintro ⟨⟩
  · intro hfailed
    obtain ⟨cause, ⟨⟩⟩ := exists_of_mapError_eq_error hfailed

/-- Histories are saved after the days of a range, and only then. -/
theorem runEvaluate_of_le (workspace : Workspace) (files : FileTree) (sources : Sources)
    (json : Bool) (user tenant : String) (hrange : first ≤ last) :
    let run := evaluateDays Ledger.store user tenant last workspace first
    let performance := runEvaluate workspace files sources json user tenant first last
    performance.files =
        (run.ended.bind fun service => saveHistories files sources service.histories) ∧
      (json = false → performance.lines = run.days.flatMap dayLines) := by
  have hordered : ¬last < first := Int.not_lt.2 hrange
  simp only [runEvaluate, if_neg hordered]
  cases (evaluateDays Ledger.store user tenant last workspace first).ended.bind
      fun service => saveHistories files sources service.histories with
  | error failure => exact ⟨rfl, fun hjson => by rw [hjson]; rfl⟩
  | ok saved => exact ⟨rfl, fun hjson => by rw [hjson]; rfl⟩

/-- What the command comes to: the days of the range are evaluated one after the other, and
if there is a day after them, the histories are saved. -/
theorem perform_evaluate (core : CoreSettings) (json : Bool) (target : Target)
    (hload : Workspace.load around sources = .ok workspace) (hrange : target.day ≤ last) :
    let run := evaluateEach Ledger.store target.user (target.tenant.getD core.defaultTenant)
      workspace (target.day.span last)
    let performance := perform around core ⟨sources, json, .evaluate target (some last)⟩
    run.days.map Prod.fst = target.day.span last ∧
    (json = false → performance.lines = run.days.flatMap dayLines) ∧
    ∃ evaluated : Workspace, run.ended = .ok evaluated ∧
      performance.files =
        if last = Day.last then .error (.calendarEnd last)
        else saveHistories around.files sources evaluated.histories := by
  intro run performance
  obtain ⟨-, -, -, -, -, -, hup⟩ := of_load_eq_ok hload
  obtain ⟨evaluated, hended, hdays⟩ := exists_evaluateEach hup target.user
    (target.tenant.getD core.defaultTenant) (target.day.span last)
  have hperformance : performance = runEvaluate workspace around.files sources json target.user
      (target.tenant.getD core.defaultTenant) target.day last := by
    simp only [performance, perform, hload, Option.getD_some]
  obtain ⟨hfiles, hlines⟩ := runEvaluate_of_le workspace around.files sources json target.user
    (target.tenant.getD core.defaultTenant) hrange
  rw [← hperformance, evaluateDays_eq hrange] at hfiles hlines
  refine ⟨hdays, hlines, evaluated, hended, ?_⟩
  rw [hfiles, DaysRun.steppingPast, hended]
  by_cases hlast : last = Day.last
  · simp only [Except.bind, if_pos hlast]
  · simp only [Except.bind, if_neg hlast]

/-- Each day of the range is evaluated and shown once, in order, one after the
other; and what was admitted is saved after the last of them, unless that is the
last day of the calendar. -/
theorem evaluation_is_saved_iff (core : CoreSettings) (json : Bool) (target : Target)
    (hload : Workspace.load around sources = .ok workspace) (hrange : target.day ≤ last) :
    let tenant := target.tenant.getD core.defaultTenant
    let run := evaluateDays Ledger.store target.user tenant last workspace target.day
    let performance := perform around core ⟨sources, json, .evaluate target (some last)⟩
    (run.days.map Prod.fst).Pairwise (· < ·) ∧
    (∀ day, day ∈ run.days.map Prod.fst ↔ target.day ≤ day ∧ day ≤ last) ∧
    (json = false → performance.lines = run.days.flatMap dayLines) ∧
    ∃ evaluated : Workspace,
      evaluateEach Ledger.store target.user tenant workspace (target.day.span last) =
        ⟨run.days, .ok evaluated⟩ ∧
      (performance.files = saveHistories around.files sources evaluated.histories ↔
        last ≠ Day.last) ∧
      (last = Day.last → performance.files = .error (.calendarEnd Day.last)) := by
  intro tenant run performance
  obtain ⟨hdays, hlines, evaluated, hended, hfiles⟩ :=
    perform_evaluate core json target hload hrange
  have hrun : run.days = (evaluateEach Ledger.store target.user tenant workspace
      (target.day.span last)).days := by
    simp only [run, evaluateDays_eq hrange, DaysRun.steppingPast]
  rw [hrun, hdays]
  refine ⟨Day.pairwise_span target.day last, fun day => Day.mem_span, hlines, evaluated, ?_, ?_⟩
  · rw [← hended]
  · by_cases hlast : last = Day.last
    · subst hlast
      rw [if_pos rfl] at hfiles
      refine ⟨iff_of_false ?_ (fun hne => hne rfl), fun _ => hfiles⟩
      exact fun hsaved => saveHistories_ne_calendarEnd (hsaved.symm.trans hfiles)
    · rw [if_neg hlast] at hfiles
      exact ⟨iff_of_true hfiles hlast, fun hsame => absurd hsame hlast⟩

end Workspace

/-- One rule that always matches. -/
def dailyText : String :=
  "[\x7b\"id\": \"daily\", \"logic\": \x7b\"all\": []\x7d, " ++
    "\"messages\": \x7b\"candidates\": [\x7b\"text\": \"hello\"\x7d]\x7d\x7d]"

def dailySurroundings : Surroundings where
  environment := .empty
  files := FileTree.put .empty ["rules.json"] (.file (some dailyText))
  now := ⟨0, 0⟩
  token _ := .nil

/-- Histories are kept in a file that is not there yet. -/
def dailySources : Sources := ⟨"rules.json", none, none, none, some "triggers.json"⟩

def plainSettings : CoreSettings := ⟨.development, "info", "default"⟩

def lastLines : List String :=
  ["+262142-12-31", "✔ daily (priority 50, message 0)", "  hello"]

/-- The rule is loaded, and the alert of the last day is shown. -/
theorem exists_dailyWorkspace :
    ∃ workspace, Workspace.load dailySurroundings dailySources = .ok workspace ∧
      (evaluateEach Ledger.store "ada" "default" workspace [Day.last]).days.flatMap dayLines =
        lastLines := by
  have hshown : ((Workspace.load dailySurroundings dailySources).toOption.map fun workspace =>
      (evaluateEach Ledger.store "ada" "default" workspace [Day.last]).days.flatMap dayLines) =
        some lastLines := by
    decide +kernel
  cases hload : Workspace.load dailySurroundings dailySources with
  | error failure =>
      rw [hload] at hshown
      cases hshown
  | ok workspace =>
      rw [hload] at hshown
      exact ⟨workspace, rfl, Option.some.inj hshown⟩

/-- On the two days before the last one both are evaluated, and the file is written. -/
theorem evaluation_is_saved_iff_daily :
    let target : Target := ⟨"ada", Day.last.back 2, none⟩
    let last := Day.last.back 1
    let performance := perform dailySurroundings plainSettings
      ⟨dailySources, false, .evaluate target (some last)⟩
    target.day ≤ last ∧ last ≠ Day.last ∧
    ∃ workspace evaluated : Workspace,
      Workspace.load dailySurroundings dailySources = .ok workspace ∧
      performance.files = saveHistories dailySurroundings.files dailySources evaluated.histories ∧
      (evaluateEach Ledger.store "ada" "default" workspace (target.day.span last)).ended =
        .ok evaluated := by
  intro target last performance
  have hrange : target.day ≤ last := by decide
  have hlast : last ≠ Day.last := by decide
  obtain ⟨workspace, hload, -⟩ := exists_dailyWorkspace
  obtain ⟨-, -, -, evaluated, hevaluated, hsaved, -⟩ :=
    evaluation_is_saved_iff plainSettings false target hload hrange
  exact ⟨hrange, hlast, workspace, evaluated, hload, hsaved.2 hlast,
    congrArg DaysRun.ended hevaluated⟩

/-- On the last day an alert is shown that is not saved. -/
theorem alert_lost_on_last_day :
    let performance := perform dailySurroundings plainSettings
      ⟨dailySources, false, .evaluate ⟨"ada", Day.last, none⟩ (some Day.last)⟩
    performance.lines = lastLines ∧ performance.files = .error (.calendarEnd Day.last) := by
  intro performance
  obtain ⟨workspace, hload, hshown⟩ := exists_dailyWorkspace
  obtain ⟨-, hlines, evaluated, -, hfiles⟩ :=
    perform_evaluate plainSettings false ⟨"ada", Day.last, none⟩ hload (Int.le_refl _)
  rw [Day.span_self] at hlines
  exact ⟨(hlines rfl).trans hshown, hfiles.trans (if_pos rfl)⟩

end MetricAlerts.Command
