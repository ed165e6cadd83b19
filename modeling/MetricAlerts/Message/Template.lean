import MetricAlerts.Rule.Statistic
import MetricAlerts.Ascending
import MetricAlerts.Text.Blank
import MetricAlerts.Text.Numeral

/-!
# Templates

A message text with placeholders. A placeholder stands in double braces: the name of a metric, then
optionally the name of a statistic and optionally a number format, each after a colon. Braces that
do not make up a placeholder are ordinary text.
-/

namespace MetricAlerts

open Text

structure Placeholder where
  metric : String
  /-- The statistic as it is spelled. -/
  statistic : Option String
  format : Option String
deriving DecidableEq

namespace Placeholder

def isWordChar (c : Char) : Bool :=
  isDigit c || (97 ≤ c.toNat && c.toNat ≤ 122) || (65 ≤ c.toNat && c.toNat ≤ 90) || c == '_'

/-- Closing braces after blanks; the answer is what follows them. -/
def readClose (cs : List Char) : Option (List Char) :=
  match dropBlanks cs with
  | '}' :: '}' :: rest => some rest
  | _ => none

/-- A colon, a format of at least one character and closing braces. -/
def readFormat (cs : List Char) : Option (String × List Char) :=
  match cs with
  | ':' :: body =>
      match body.takeWhile (· != '}'), body.dropWhile (· != '}') with
      | c :: format, '}' :: '}' :: rest => some (String.ofList (trim (c :: format)), rest)
      | _, _ => none
  | _ => none

/-- What may follow the names: a format or nothing, then closing braces. -/
def readEnd (cs : List Char) : Option (Option String × List Char) :=
  match readFormat cs with
  | some (format, rest) => some (some format, rest)
  | none => (readClose cs).map fun rest => (none, rest)

/-- A statistic in front of the end of a placeholder. -/
def readStatistic (cs : List Char) : Option (String × Option String × List Char) :=
  match cs with
  | ':' :: rest =>
      match rest.takeWhile isWordChar with
      | [] => none
      | c :: name => (readEnd (rest.dropWhile isWordChar)).map fun (format, rest) =>
          (String.ofList (c :: name), format, rest)
  | _ => none

/-- A placeholder at the start of a text, and the text after it. What follows the first colon is
read as a statistic if it can be, else as a format. -/
def read? (cs : List Char) : Option (Placeholder × List Char) :=
  match cs with
  | '{' :: '{' :: rest =>
      let body := dropBlanks rest
      match body.takeWhile isWordChar with
      | [] => none
      | c :: name =>
          let metric := String.ofList (c :: name)
          let rest := body.dropWhile isWordChar
          match readStatistic rest with
          | some (statistic, format, rest) => some (⟨metric, some statistic, format⟩, rest)
          | none => (readEnd rest).map fun (format, rest) => (⟨metric, none, format⟩, rest)
  | _ => none

theorem length_dropWhile_le (p : Char → Bool) (cs : List Char) :
    (cs.dropWhile p).length ≤ cs.length :=
  (List.dropWhile_sublist p).length_le

theorem readClose_length {cs rest : List Char} (h : readClose cs = some rest) :
    rest.length < cs.length := by
  have hle := length_dropWhile_le isBlank cs
  unfold readClose dropBlanks at h
  split at h
  · next heq =>
    rw [heq] at hle
    simp only [Option.some.injEq] at h
    subst h
    simp only [List.length_cons] at hle
    omega
  · simp at h

theorem readFormat_length {cs rest : List Char} {format : String}
    (h : readFormat cs = some (format, rest)) : rest.length < cs.length := by
  unfold readFormat at h
  split at h
  · next body =>
    have hle := length_dropWhile_le (· != '}') body
    split at h
    · next heq =>
      rw [heq] at hle
      simp only [Option.some.injEq, Prod.mk.injEq] at h
      obtain ⟨-, rfl⟩ := h
      simp only [List.length_cons] at *
      omega
    · simp at h
  · simp at h

theorem readEnd_length {cs rest : List Char} {format : Option String}
    (h : readEnd cs = some (format, rest)) : rest.length < cs.length := by
  unfold readEnd at h
  split at h
  · next heq =>
    simp only [Option.some.injEq, Prod.mk.injEq] at h
    obtain ⟨-, rfl⟩ := h
    exact readFormat_length heq
  · obtain ⟨_, hr, heq⟩ := Option.map_eq_some_iff.1 h
    simp only [Prod.mk.injEq] at heq
    obtain ⟨-, rfl⟩ := heq
    exact readClose_length hr

theorem readStatistic_length {cs rest : List Char} {name : String} {format : Option String}
    (h : readStatistic cs = some (name, format, rest)) : rest.length < cs.length := by
  unfold readStatistic at h
  split at h
  · next tail =>
    have hle := length_dropWhile_le isWordChar tail
    split at h
    · simp at h
    · obtain ⟨⟨_, _⟩, hr, heq⟩ := Option.map_eq_some_iff.1 h
      simp only [Prod.mk.injEq] at heq
      obtain ⟨-, -, rfl⟩ := heq
      have := readEnd_length hr
      simp only [List.length_cons]
      omega
  · simp at h

theorem read?_length {cs rest : List Char} {placeholder : Placeholder}
    (h : read? cs = some (placeholder, rest)) : rest.length < cs.length := by
  unfold read? at h
  split at h
  · next tail =>
    have hblank := length_dropWhile_le isBlank tail
    have hword := length_dropWhile_le isWordChar (dropBlanks tail)
    unfold dropBlanks at *
    simp only [] at h
    split at h
    · simp at h
    · split at h
      · next heq =>
        simp only [Option.some.injEq, Prod.mk.injEq] at h
        obtain ⟨-, rfl⟩ := h
        have := readStatistic_length heq
        simp only [List.length_cons]
        omega
      · obtain ⟨⟨_, _⟩, hr, heq⟩ := Option.map_eq_some_iff.1 h
        simp only [Prod.mk.injEq] at heq
        obtain ⟨-, rfl⟩ := heq
        have := readEnd_length hr
        simp only [List.length_cons]
        omega
  · simp at h

end Placeholder

inductive Piece where
  | char (c : Char)
  | slot (placeholder : Placeholder)
deriving DecidableEq

/-- A text cut into placeholders and single characters, from the left. -/
def Piece.ofChars (cs : List Char) : List Piece :=
  match cs with
  | [] => []
  | c :: tail =>
      match _h : Placeholder.read? (c :: tail) with
      | some (placeholder, rest) => .slot placeholder :: ofChars rest
      | none => .char c :: ofChars tail
termination_by cs.length
decreasing_by
  · exact Placeholder.read?_length _h
  · simp

namespace Placeholder

/-- The word that stands for the id of the rule. -/
def ruleIdWord : String := "rule_id"

def isRuleId (placeholder : Placeholder) : Bool :=
  placeholder.metric == ruleIdWord && placeholder.statistic.isNone

/-- The statistic meant, the current value if none is named; nothing if the name is unknown. -/
def statistic? (placeholder : Placeholder) : Option Statistic :=
  match placeholder.statistic with
  | none => some .current
  | some name => Statistic.ofName? name

/-- What has to be looked up to fill the placeholder. -/
def reference? (placeholder : Placeholder) : Option Reference :=
  match placeholder.statistic with
  | none =>
      if placeholder.metric == ruleIdWord then none
      else some ⟨placeholder.metric, .current⟩
  | some name => (Statistic.ofName? name).map (Reference.mk placeholder.metric)

theorem reference?_eq (placeholder : Placeholder) :
    placeholder.reference? =
      if placeholder.isRuleId then none
      else placeholder.statistic?.map (Reference.mk placeholder.metric) := by
  unfold reference? isRuleId statistic?
  cases placeholder.statistic with
  | none => simp
  | some name => simp

end Placeholder

def Piece.reference? : Piece → Option Reference
  | char _ => none
  | slot placeholder => placeholder.reference?

/-- The statistics that a template shows. -/
def templateReferences (template : String) : Ascending Reference :=
  .ofList ((Piece.ofChars template.toList).filterMap Piece.reference?)

end MetricAlerts
