import MetricAlerts.Calendar.Day

/-!
# Series

The values one user recorded for one metric: at most one for each day, kept in the order of the
days. A later value for a day takes the place of the earlier one.
-/

namespace MetricAlerts

structure Observation where
  day : Day
  value : Float
deriving DecidableEq

structure Series where
  points : List Observation
  ascending : points.Pairwise (·.day < ·.day)

namespace Series

def empty : Series := ⟨[], .nil⟩

def place (point : Observation) : List Observation → List Observation
  | [] => [point]
  | p :: ps =>
      if point.day < p.day then point :: p :: ps
      else if point.day = p.day then point :: ps
      else p :: place point ps

theorem mem_place {point p : Observation} {ps : List Observation} (h : p ∈ place point ps) :
    p = point ∨ p ∈ ps := by
  induction ps with
  | nil => simpa [place] using h
  | cons q qs ih =>
    simp only [place] at h
    split at h
    · simpa using h
    · split at h
      · rcases List.mem_cons.1 h with h | h <;> simp [h]
      · rcases List.mem_cons.1 h with h | h
        · simp [h]
        · rcases ih h with h | h <;> simp [h]

theorem pairwise_place (point : Observation) {ps : List Observation}
    (h : ps.Pairwise (·.day < ·.day)) : (place point ps).Pairwise (·.day < ·.day) := by
  induction ps with
  | nil => simp [place]
  | cons q qs ih =>
    have ⟨hq, hqs⟩ := List.pairwise_cons.1 h
    simp only [place]
    split
    · next hlt =>
      refine List.pairwise_cons.2 ⟨fun p hp => ?_, h⟩
      rcases List.mem_cons.1 hp with rfl | hp
      · exact hlt
      · have := hq p hp
        simp only [Day.lt_def] at *
        omega
    · split
      · next heq => exact List.pairwise_cons.2 ⟨fun p hp => heq ▸ hq p hp, hqs⟩
      · next hnlt hne =>
        refine List.pairwise_cons.2 ⟨fun p hp => ?_, ih hqs⟩
        rcases mem_place hp with h | hp
        · have hd : point.day.number ≠ q.day.number := fun h => hne (Day.ext_number h)
          rw [h]
          simp only [Day.lt_def] at *
          omega
        · exact hq p hp

def record (series : Series) (day : Day) (value : Float) : Series :=
  ⟨place ⟨day, value⟩ series.points, pairwise_place _ series.ascending⟩

/-- The value of one day. -/
def on? (series : Series) (day : Day) : Option Float :=
  (series.points.find? fun point => point.day = day).map Observation.value

/-- Observations of the days from `start` to `finish`. -/
def within (series : Series) (start finish : Day) : List Observation :=
  series.points.filter fun point => start ≤ point.day ∧ point.day ≤ finish

end Series

end MetricAlerts
