import MetricAlerts.Message.Render
import MetricAlerts.Proofs.Evaluation.Plain

/-!
# Plain rendering

A template is filled in the plain way by asking for every statistic by itself,
when its placeholder comes up.  A statistic that cannot be had leaves nothing
but the warning that it is not available, and that warning comes from nothing
else.
-/

namespace MetricAlerts

namespace Placeholder

/-- The warning about a statistic without a value. -/
def notAvailable (reference : Reference) : String :=
  "placeholder " ++ reference.metric ++ ":" ++ reference.statistic.name ++ " is not available"

/-- Text and warning for a placeholder, with a question of its own if it is one
for a statistic. -/
def plainFill (ruleId : String) (resolve : Reference → Except ResolveError Float)
    (glossary : Glossary) (placeholder : Placeholder) : String × Option String :=
  match placeholder.reference? with
  | some reference =>
      match resolve reference with
      | .ok value =>
          placeholder.showValue reference
            ((glossary.find? reference.metric).bind Metric.decimals) value
      | .error _ => ("", some (notAvailable reference))
  | none =>
      if placeholder.isRuleId then (ruleId, none)
      else ("", some ("placeholder " ++ placeholder.metric ++ ":" ++
        placeholder.statistic.getD "" ++ " uses an unknown aggregator"))

end Placeholder

def Piece.plainFill (ruleId : String) (resolve : Reference → Except ResolveError Float)
    (glossary : Glossary) : Piece → String × Option String
  | char c => (String.singleton c, none)
  | slot placeholder => placeholder.plainFill ruleId resolve glossary

def plainRender (template ruleId : String) (resolve : Reference → Except ResolveError Float)
    (glossary : Glossary) : Rendered :=
  let filled := (Piece.ofChars template.toList).map (Piece.plainFill ruleId resolve glossary)
  ⟨String.join (filled.map Prod.fst), filled.filterMap Prod.snd⟩

variable {ruleId template : String} {snapshot other : Snapshot} {glossary second : Glossary}
  {resolve : Reference → Except ResolveError Float} {placeholder : Placeholder}
  {reference : Reference}

namespace Placeholder

theorem fill_of_reference (hreference : placeholder.reference? = some reference) :
    placeholder.fill ruleId snapshot glossary =
      match snapshot.value? reference with
      | some value =>
          placeholder.showValue reference
            ((glossary.find? reference.metric).bind Metric.decimals) value
      | none => ("", some (notAvailable reference)) := by
  rw [reference?_eq] at hreference
  split at hreference
  · cases hreference
  · next hruleId =>
      obtain ⟨statistic, hstatistic, rfl⟩ := Option.map_eq_some_iff.1 hreference
      rw [fill, if_neg hruleId, hstatistic]
      dsimp only
      cases snapshot.value? ⟨placeholder.metric, statistic⟩ <;> rfl

/-- A placeholder without a statistic is the id of the rule, or it names one that
is not known. -/
theorem fill_of_no_reference (hnone : placeholder.reference? = none) :
    placeholder.fill ruleId snapshot glossary =
      if placeholder.isRuleId then (ruleId, none)
      else ("", some ("placeholder " ++ placeholder.metric ++ ":" ++
        placeholder.statistic.getD "" ++ " uses an unknown aggregator")) := by
  rw [reference?_eq] at hnone
  split at hnone
  · next hruleId => rw [fill, if_pos hruleId, if_pos hruleId]
  · next hruleId =>
      rw [Option.map_eq_none_iff] at hnone
      rw [fill, if_neg hruleId, if_neg hruleId, hnone]

theorem fill_congr
    (hvalue : ∀ reference ∈ placeholder.reference?,
      snapshot.value? reference = other.value? reference)
    (hglossary : ∀ metric, glossary.find? metric = second.find? metric) :
    placeholder.fill ruleId snapshot glossary = placeholder.fill ruleId other second := by
  cases hreference : placeholder.reference? with
  | none => rw [fill_of_no_reference hreference, fill_of_no_reference hreference]
  | some reference =>
      rw [fill_of_reference hreference, fill_of_reference hreference,
        hvalue reference hreference, hglossary]

theorem fill_eq_plainFill
    (hagree : Agree snapshot.get resolve placeholder.reference?.toList) :
    placeholder.fill ruleId snapshot glossary = placeholder.plainFill ruleId resolve glossary := by
  rw [plainFill]
  cases hreference : placeholder.reference? with
  | none => exact fill_of_no_reference hreference
  | some reference =>
      rw [fill_of_reference hreference]
      simp only [hagree reference (Option.mem_toList.2 hreference), Snapshot.value?]
      cases snapshot.get reference <;> rfl

end Placeholder

theorem Piece.fill_eq_plainFill {piece : Piece}
    (hagree : Agree snapshot.get resolve piece.reference?.toList) :
    piece.fill ruleId snapshot glossary = piece.plainFill ruleId resolve glossary := by
  cases piece with
  | char c => rfl
  | slot placeholder => exact Placeholder.fill_eq_plainFill hagree

theorem mem_templateReferences {template : String} {reference : Reference} :
    reference ∈ (templateReferences template).items ↔
      ∃ placeholder, .slot placeholder ∈ Piece.ofChars template.toList ∧
        placeholder.reference? = some reference := by
  rw [templateReferences, Ascending.mem_ofList, List.mem_filterMap]
  constructor
  · rintro ⟨piece, hpiece, hreference⟩
    cases piece with
    | char c => cases hreference
    | slot placeholder => exact ⟨placeholder, hpiece, hreference⟩
  · rintro ⟨placeholder, hpiece, hreference⟩
    exact ⟨.slot placeholder, hpiece, hreference⟩

/-- Values that a template does not announce leave its text as it is. -/
theorem render_congr
    (hvalue : ∀ reference ∈ (templateReferences template).items,
      snapshot.value? reference = other.value? reference)
    (hglossary : ∀ metric, glossary.find? metric = second.find? metric) :
    render template ruleId snapshot glossary = render template ruleId other second := by
  have hfilled : (Piece.ofChars template.toList).map (Piece.fill ruleId snapshot glossary) =
      (Piece.ofChars template.toList).map (Piece.fill ruleId other second) := by
    apply List.map_congr_left
    intro piece hpiece
    cases piece with
    | char c => rfl
    | slot placeholder =>
        refine Placeholder.fill_congr ?_ hglossary
        intro reference hreference
        exact hvalue reference (mem_templateReferences.2 ⟨placeholder, hpiece, hreference⟩)
  rw [render, render, hfilled]

theorem render_eq_plainRender
    (hagree : Agree snapshot.get resolve (templateReferences template).items) :
    render template ruleId snapshot glossary = plainRender template ruleId resolve glossary := by
  have hfilled : (Piece.ofChars template.toList).map (Piece.fill ruleId snapshot glossary) =
      (Piece.ofChars template.toList).map (Piece.plainFill ruleId resolve glossary) := by
    apply List.map_congr_left
    intro piece hpiece
    apply Piece.fill_eq_plainFill
    apply hagree.mono
    intro reference hreference
    rw [templateReferences, Ascending.mem_ofList]
    exact List.mem_filterMap.2 ⟨piece, hpiece, Option.mem_toList.1 hreference⟩
  rw [render, plainRender, hfilled]

namespace Placeholder

theorem head?_toList_append {first second : String} {c : Char}
    (hfirst : first.toList.head? = some c) : (first ++ second).toList.head? = some c := by
  rw [String.toList_append, List.head?_append, hfirst]
  rfl

/-- What is told of a value that is there is never that it is not available. -/
theorem warning_showValue_ne (places : Option Nat) (value : Float) (other : Reference) :
    (placeholder.showValue reference places value).2 ≠ some (notAvailable other) := by
  intro hwarning
  unfold showValue at hwarning
  split at hwarning
  · next format hformat =>
      split at hwarning
      · cases hwarning
      · -- The two warnings differ in their first letter.
        have hinvalid : ("invalid format in placeholder " ++ reference.metric ++ ":" ++
            reference.statistic.name ++ ":" ++ format).toList.head? = some 'i' := by
          iterate 5 apply head?_toList_append
          rfl
        have hmissing : (notAvailable other).toList.head? = some 'p' := by
          iterate 4 apply head?_toList_append
          rfl
        rw [Option.some_inj.1 hwarning, hmissing] at hinvalid
        exact absurd hinvalid (by decide)
  · split at hwarning <;> cases hwarning

theorem showValue_ne_notAvailable (places : Option Nat) (value : Float) (other : Reference) :
    placeholder.showValue reference places value ≠ ("", some (notAvailable other)) :=
  fun hshown => warning_showValue_ne places value other (congrArg Prod.snd hshown)

theorem plainFill_of_ok {value : Float} (hreference : placeholder.reference? = some reference)
    (hanswer : resolve reference = .ok value) :
    placeholder.plainFill ruleId resolve glossary =
      placeholder.showValue reference ((glossary.find? reference.metric).bind Metric.decimals)
        value := by
  simp only [plainFill, hreference, hanswer]

theorem plainFill_of_error {error : ResolveError}
    (hreference : placeholder.reference? = some reference)
    (hanswer : resolve reference = .error error) :
    placeholder.plainFill ruleId resolve glossary = ("", some (notAvailable reference)) := by
  simp only [plainFill, hreference, hanswer]

/-- A placeholder is empty with the warning just if its statistic cannot be
had. -/
theorem plainFill_eq_notAvailable_iff (hreference : placeholder.reference? = some reference) :
    placeholder.plainFill ruleId resolve glossary = ("", some (notAvailable reference)) ↔
      ∃ error, resolve reference = .error error := by
  constructor
  · intro hfill
    cases hanswer : resolve reference with
    | error error => exact ⟨error, rfl⟩
    | ok value =>
        rw [plainFill_of_ok hreference hanswer] at hfill
        exact absurd hfill (showValue_ne_notAvailable _ value reference)
  · rintro ⟨error, hanswer⟩
    exact plainFill_of_error hreference hanswer

end Placeholder

end MetricAlerts
