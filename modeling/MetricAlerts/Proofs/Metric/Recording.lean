import Mathlib.Data.List.Induction
import MetricAlerts.Metric.Record
import MetricAlerts.Metric.Source
import MetricAlerts.Proofs.Metric.Lookback

/-!
# What was recorded

Values are recorded one by one, or many at once out of records.  Both come down
to recordings, one after the other, and of the recordings for a day the last
finite one counts.  This is what a read of a window shows, day by day; it fails
if and only if nothing finite was ever recorded.  A window never ends before it
begins, also where it is cut off at the first day of the calendar.
-/

namespace MetricAlerts

/-- A value that is handed in for a day.  It need not be finite. -/
structure Recording where
  user : String
  metric : String
  day : Day
  value : Float

/-- A call that hands in values. -/
inductive LogCall where
  | record (recording : Recording)
  | recordAll (records : List MetricRecord)

/-- Metrics without a value are passed over. -/
def MetricRecord.recordings (record : MetricRecord) : List Recording :=
  record.sortedValues.filterMap fun (metric, value) =>
    value.map fun value => ⟨record.user, metric, record.day, value⟩

def LogCall.recordings : LogCall → List Recording
  | record recording => [recording]
  | recordAll records => records.flatMap MetricRecord.recordings

/-- Whether a recording gives a value for a metric of a user. -/
def Recording.Gives (recording : Recording) (user metric : String) : Prop :=
  recording.user = user ∧ recording.metric = metric ∧ recording.value.isFinite = true

instance (recording : Recording) (user metric : String) :
    Decidable (recording.Gives user metric) :=
  inferInstanceAs (Decidable (_ ∧ _))

/-- The value that was given last for a day. -/
def lastValue? (recordings : List Recording) (user metric : String) (day : Day) : Option Float :=
  (recordings.filter fun recording =>
    recording.Gives user metric ∧ recording.day = day).getLast?.map Recording.value

namespace Series

theorem find?_place (point : Observation) (points : List Observation) (day : Day) :
    (place point points).find? (fun other => other.day = day) =
      if point.day = day then some point else points.find? fun other => other.day = day := by
  induction points with
  | nil => simp [place, List.find?_singleton]
  | cons first points ih =>
      by_cases hday : point.day = day
      · rw [if_pos hday, place]
        split
        · exact List.find?_cons_of_pos (decide_eq_true hday)
        · split
          · exact List.find?_cons_of_pos (decide_eq_true hday)
          · next hother =>
              have hfirst : first.day ≠ day := fun hsame => hother (hday.trans hsame.symm)
              rw [List.find?_cons_of_neg (by simpa using hfirst), ih, if_pos hday]
      · rw [if_neg hday, place]
        split
        · exact List.find?_cons_of_neg (by simpa using hday)
        · split
          · next hsame =>
              rw [List.find?_cons_of_neg (by simpa using hday),
                List.find?_cons_of_neg (by simpa [← hsame] using hday)]
          · rw [List.find?_cons, List.find?_cons, ih, if_neg hday]

theorem on?_record (series : Series) (day : Day) (value : Float) (other : Day) :
    (series.record day value).on? other =
      if day = other then some value else series.on? other := by
  rw [on?, record, find?_place, on?]
  split <;> rfl

end Series

namespace MetricLog

def add (log : MetricLog) (recording : Recording) : MetricLog :=
  log.record recording.user recording.metric recording.day recording.value

def perform (log : MetricLog) : LogCall → MetricLog
  | .record recording => log.add recording
  | .recordAll records => records.foldl addRecord log

/-- What a log becomes by calls, from the beginning. -/
def ofCalls (calls : List LogCall) : MetricLog :=
  calls.foldl perform .empty

variable {log : MetricLog} {recording : Recording} {recordings : List Recording}
  {user metric : String} {day : Day}

theorem addRecord_eq (log : MetricLog) (record : MetricRecord) :
    log.addRecord record = record.recordings.foldl add log := by
  rw [MetricRecord.recordings, List.foldl_filterMap, addRecord]
  congr 1
  funext log ⟨metric, value⟩
  cases value <;> rfl

theorem perform_eq (log : MetricLog) (call : LogCall) :
    log.perform call = call.recordings.foldl add log := by
  cases call with
  | record recording => rfl
  | recordAll records =>
      rw [LogCall.recordings, List.foldl_flatMap, perform]
      congr 1
      funext log record
      exact addRecord_eq log record

theorem ofCalls_eq (calls : List LogCall) :
    ofCalls calls = (calls.flatMap LogCall.recordings).foldl add .empty := by
  rw [List.foldl_flatMap, ofCalls]
  congr 1
  funext log call
  exact perform_eq log call

theorem series?_add (hgives : recording.Gives user metric) :
    (log.add recording).series? user metric =
      some (((log.series? user metric).getD .empty).record recording.day recording.value) := by
  obtain ⟨rfl, rfl, hfinite⟩ := hgives
  rw [add, record, if_pos hfinite, series?, Table.find?_insert, if_pos rfl]

theorem series?_add_of_not (hgives : ¬recording.Gives user metric) :
    (log.add recording).series? user metric = log.series? user metric := by
  rw [add, record]
  split
  · next hfinite =>
      rw [series?, Table.find?_insert, if_neg]
      · rfl
      · intro hkey
        exact hgives ⟨(congrArg SeriesKey.user hkey).symm,
          (congrArg SeriesKey.metric hkey).symm, hfinite⟩
  · rfl

theorem isSome_series?_add :
    ((log.add recording).series? user metric).isSome = true ↔
      (log.series? user metric).isSome = true ∨ recording.Gives user metric := by
  by_cases hgives : recording.Gives user metric
  · simp [series?_add hgives, hgives]
  · simp [series?_add_of_not hgives, hgives]

theorem on?_add :
    (log.add recording).on? user metric day =
      if recording.Gives user metric ∧ recording.day = day then some recording.value
      else log.on? user metric day := by
  by_cases hgives : recording.Gives user metric
  · rw [on?, series?_add hgives, Option.bind_some, Series.on?_record, on?]
    simp only [hgives, true_and]
    cases log.series? user metric <;> rfl
  · rw [on?, series?_add_of_not hgives, if_neg fun hboth => hgives hboth.1, on?]

theorem lastValue?_concat :
    lastValue? (recordings ++ [recording]) user metric day =
      if recording.Gives user metric ∧ recording.day = day then some recording.value
      else lastValue? recordings user metric day := by
  rw [lastValue?, List.filter_append, List.getLast?_append]
  by_cases hgives : recording.Gives user metric ∧ recording.day = day
  · simp [hgives]
  · simp [hgives, lastValue?]

/-- A log shows what was given last. -/
theorem on?_foldl_add (recordings : List Recording) :
    (recordings.foldl add .empty).on? user metric day =
      lastValue? recordings user metric day := by
  induction recordings using List.reverseRecOn with
  | nil => rfl
  | append_singleton recordings recording ih =>
      rw [List.foldl_concat, on?_add, lastValue?_concat, ih]

/-- There is a series as soon as something finite was given. -/
theorem isSome_series?_foldl_add (recordings : List Recording) :
    ((recordings.foldl add .empty).series? user metric).isSome = true ↔
      ∃ recording ∈ recordings, recording.Gives user metric := by
  induction recordings using List.reverseRecOn with
  | nil => simp [series?]
  | append_singleton recordings recording ih =>
      rw [List.foldl_concat, isSome_series?_add, ih]
      simp

/-- What is read of a series, or that there is none. -/
theorem read_source (log : MetricLog) (user metric : String) (asOf : Day) (days : Nat) :
    (log.source.read user metric asOf days = .error (.noSeries user metric) ∧
        (log.series? user metric).isSome = false) ∨
      ∃ history, log.source.read user metric asOf days = .ok history ∧
        (log.series? user metric).isSome = true ∧ history.Pairwise (·.day < ·.day) ∧
        ∀ day value, ⟨day, value⟩ ∈ history ↔
          asOf.windowStart days ≤ day ∧ day ≤ asOf ∧ log.on? user metric day = some value := by
  simp only [source, history?]
  cases hseries : log.series? user metric with
  | none => exact .inl ⟨rfl, rfl⟩
  | some series =>
      refine .inr ⟨series.within (asOf.windowStart days) asOf, rfl, rfl,
        series.ascending.filter _, fun day value => ?_⟩
      rw [on?, hseries, Option.bind_some, Series.on?_eq_some_iff, Series.within, List.mem_filter,
        decide_eq_true_eq]
      exact and_comm.trans and_assoc

/-- Whatever was recorded, a window that is read begins no later than it ends.  A read fails
if and only if no finite value was ever given for the metric of the user; and else it
shows, in the order of days, for each day among the last ones up to the end of the
window the finite value that was given last for it, if there is one. -/
theorem read_shows_last_values (calls : List LogCall) (user metric : String) (asOf : Day)
    (days : Nat) :
    let recordings := calls.flatMap LogCall.recordings
    let answer := (ofCalls calls).source.read user metric asOf days
    asOf.windowStart days ≤ asOf ∧
    (answer = .error (.noSeries user metric) ↔
      ∀ recording ∈ recordings, ¬recording.Gives user metric) ∧
    ((∃ recording ∈ recordings, recording.Gives user metric) →
      ∃ history, answer = .ok history ∧ history.Pairwise (·.day < ·.day) ∧
        ∀ day value, ⟨day, value⟩ ∈ history ↔
          asOf.number - max days 1 < day.number ∧ day ≤ asOf ∧
            lastValue? recordings user metric day = some value) := by
  intro recordings answer
  refine ⟨Day.windowStart_le asOf days, ?_⟩
  have hgiven : ((ofCalls calls).series? user metric).isSome = true ↔
      ∃ recording ∈ recordings, recording.Gives user metric := by
    rw [ofCalls_eq, isSome_series?_foldl_add]
  rcases read_source (ofCalls calls) user metric asOf days with
    ⟨hanswer, hnone⟩ | ⟨history, hanswer, hsome, hascending, hhistory⟩
  · rw [Bool.eq_false_iff, ne_eq, hgiven] at hnone
    refine ⟨⟨fun _ recording hmem hgives => hnone ⟨recording, hmem, hgives⟩, fun _ => hanswer⟩, ?_⟩
    exact fun hsome => absurd hsome hnone
  · have hsome := hgiven.1 hsome
    constructor
    · constructor
      · intro hfailed
        cases hanswer.symm.trans hfailed
      · intro hnone
        obtain ⟨recording, hmem, hgives⟩ := hsome
        exact absurd hgives (hnone recording hmem)
    · intro _
      refine ⟨history, hanswer, hascending, fun day value => ?_⟩
      rw [hhistory, Day.windowStart_le_iff, ofCalls_eq, on?_foldl_add]

end MetricLog

end MetricAlerts
