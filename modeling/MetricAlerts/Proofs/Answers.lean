/-!
# Answers that may fail

How an answer that was put together out of several answers came about.
-/

namespace MetricAlerts

variable {ε δ α β : Type}

theorem of_bind_eq_ok {answer : Except ε α} {next : α → Except ε β} {found : β}
    (hbind : (answer >>= next) = .ok found) :
    ∃ value, answer = .ok value ∧ next value = .ok found := by
  cases answer with
  | error cause => cases hbind
  | ok value => exact ⟨value, rfl, hbind⟩

theorem of_bind_eq_error {answer : Except ε α} {next : α → Except ε β} {cause : ε}
    (hbind : (answer >>= next) = .error cause) :
    answer = .error cause ∨ ∃ value, answer = .ok value ∧ next value = .error cause := by
  cases answer with
  | error failure => exact .inl (congrArg Except.error (Except.error.inj hbind))
  | ok value => exact .inr ⟨value, rfl, hbind⟩

theorem exists_of_map_eq_ok {answer : Except ε α} {f : α → β} {found : β}
    (hmap : answer.map f = .ok found) : ∃ value, answer = .ok value ∧ f value = found := by
  cases answer with
  | error cause => cases hmap
  | ok value => exact ⟨value, rfl, Except.ok.inj hmap⟩

theorem eq_error_of_map {answer : Except ε α} {f : α → β} {failure : ε}
    (hanswer : answer.map f = .error failure) : answer = .error failure := by
  cases answer with
  | error cause => exact congrArg Except.error (Except.error.inj hanswer)
  | ok value => cases hanswer

theorem exists_of_mapError_eq_error {answer : Except ε α} {f : ε → δ} {failure : δ}
    (hanswer : answer.mapError f = .error failure) : ∃ cause, f cause = failure := by
  cases answer with
  | error cause => exact ⟨cause, Except.error.inj hanswer⟩
  | ok value => cases hanswer

end MetricAlerts
