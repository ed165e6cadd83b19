import Mathlib.Data.List.Range
import MetricAlerts.Calendar.Day

/-!
# Days of a range

The days from one day to another are steps from the first of them, and no such
step leaves the calendar, also at its ends.  Going through a range a day at a time
gives the same days.  Only the step after the last day of the calendar leads
nowhere.
-/

namespace MetricAlerts.Day

variable {start next finish day : Day}

/-- No step from the start of a range to its end leaves the calendar. -/
theorem exists_add?_of_le {offset : Nat} (hoffset : (offset : Int) ≤ finish.since start) :
    ∃ day, start.add? offset = some day := by
  rw [since] at hoffset
  have hrange : -96465292 ≤ start.number + offset ∧ start.number + offset ≤ 95026236 := by
    have hfirst := start.first_le
    have hlast := finish.le_last
    omega
  exact ⟨_, dif_pos hrange⟩

theorem add?_one_eq_none_iff : day.add? 1 = none ↔ day = last := by
  have hfirst := day.first_le
  have hlast := day.le_last
  rw [add?, ofNumber?, dite_eq_right_iff, Day.ext_number_iff]
  simp only [last, reduceCtorEq, imp_false, not_and, Int.not_le]
  omega

theorem map_number_span (start finish : Day) :
    (start.span finish).map Day.number =
      (List.range (finish.number - start.number + 1).toNat).map
        fun (offset : Nat) => start.number + offset := by
  rw [span, List.map_filterMap, ← List.filterMap_eq_map]
  apply List.filterMap_congr
  intro offset hoffset
  rw [List.mem_range] at hoffset
  obtain ⟨day, hday⟩ : ∃ day, start.add? offset = some day :=
    exists_add?_of_le (Int.lt_add_one_iff.1 (Int.lt_toNat.1 hoffset))
  have hnumber : day.number = start.number + offset := number_of_ofNumber? hday
  rw [hday, Option.map_some, hnumber]
  rfl

theorem injective_number : Function.Injective Day.number :=
  fun _ _ => ext_number

theorem mem_span : day ∈ start.span finish ↔ start ≤ day ∧ day ≤ finish := by
  rw [← List.mem_map_of_injective injective_number, map_number_span, List.mem_map, le_def, le_def]
  constructor
  · rintro ⟨offset, hoffset, hnumber⟩
    rw [List.mem_range] at hoffset
    omega
  · intro hrange
    refine ⟨(day.number - start.number).toNat, ?_, ?_⟩
    · rw [List.mem_range]
      omega
    · omega

theorem pairwise_span (start finish : Day) : (start.span finish).Pairwise (· < ·) := by
  have hnumbers : ((start.span finish).map Day.number).Pairwise (· < ·) := by
    rw [map_number_span, List.pairwise_map]
    apply List.pairwise_lt_range.imp
    intro offset other hlt
    omega
  rw [List.pairwise_map] at hnumbers
  exact hnumbers

theorem nodup_span (start finish : Day) : (start.span finish).Nodup := by
  apply (pairwise_span start finish).imp
  rintro day other hlt rfl
  exact Int.lt_irrefl _ hlt

theorem span_self (day : Day) : day.span day = [day] := by
  apply injective_number.list_map
  rw [map_number_span, Int.sub_self]
  simp

theorem span_cons (hnext : start.add? 1 = some next) (hle : next ≤ finish) :
    start.span finish = start :: next.span finish := by
  have hnumber : next.number = start.number + 1 := number_of_ofNumber? hnext
  rw [le_def] at hle
  have hlength : (finish.number - start.number + 1).toNat =
      (finish.number - next.number + 1).toNat + 1 := by
    omega
  apply injective_number.list_map
  rw [List.map_cons, map_number_span, map_number_span, hlength, List.range_succ_eq_map,
    List.map_cons, List.map_map, hnumber]
  congr 1
  · exact Int.add_zero _
  · apply List.map_congr_left
    intro offset _
    simp only [Function.comp_apply, Nat.succ_eq_add_one, Int.natCast_add, Int.natCast_one]
    omega

/-- There is nothing between a day and the next one. -/
theorem eq_of_not_le (hnext : start.add? 1 = some next) (hle : start ≤ finish)
    (hbeyond : ¬next ≤ finish) : finish = start := by
  have hnumber : next.number = start.number + 1 := number_of_ofNumber? hnext
  rw [le_def] at hle hbeyond
  apply ext_number
  omega

theorem eq_of_add?_one (hnext : start.add? 1 = none) (hle : start ≤ finish) : finish = start := by
  rw [add?_one_eq_none_iff] at hnext
  subst hnext
  exact ext_number (Int.le_antisymm finish.le_last hle)

theorem exists_span_eq_cons (hle : start ≤ finish) :
    ∃ days, start.span finish = start :: days := by
  cases hnext : start.add? 1 with
  | none => exact ⟨[], eq_of_add?_one hnext hle ▸ span_self start⟩
  | some next =>
      by_cases hinside : next ≤ finish
      · exact ⟨_, span_cons hnext hinside⟩
      · exact ⟨[], eq_of_not_le hnext hle hinside ▸ span_self start⟩

end MetricAlerts.Day
