import Mathlib.Data.List.TakeWhile
import MetricAlerts.Message.Template

/-!
# Placeholders as a pattern

A placeholder can be said in one line, as a regular expression whose groups are
the name of the metric, the name of the statistic and the format:

    \{\{\s*([A-Za-z0-9_]+)(?::([A-Za-z0-9_]+))?(?::([^}]+?))?\s*\}\}

The ways in which an expression matches the beginning of a text are listed here
in the order in which a matcher with backtracking tries them, so that the first
one is its answer.  The reader of placeholders never goes back further than to
the first colon, and still it comes to the same answer everywhere.
-/

namespace MetricAlerts

open Text

/-- The parts of a placeholder that are captured. -/
inductive Placeholder.Part where
  | metric
  | statistic
  | format
deriving DecidableEq

/-- A regular expression over characters. -/
inductive Pattern where
  | char (allowed : Char → Bool)
  /-- Any number of characters, as many as possible. -/
  | greedy (allowed : Char → Bool)
  /-- Any number of characters, as few as possible. -/
  | lazy (allowed : Char → Bool)
  /-- Once if possible, else not at all. -/
  | optional (pattern : Pattern)
  | capture (part : Placeholder.Part) (pattern : Pattern)
  | seq (first second : Pattern)

/-- A way to match the beginning of a text. -/
structure Match where
  text : List Char
  captures : List (Placeholder.Part × List Char)
  rest : List Char

namespace Match

def empty (cs : List Char) : Match := ⟨[], [], cs⟩

def followedBy (first second : Match) : Match :=
  ⟨first.text ++ second.text, first.captures ++ second.captures, second.rest⟩

end Match

namespace Pattern

/-- The ways to take characters of a kind, the longest one first, and what each
of them leaves. -/
def runs (allowed : Char → Bool) : List Char → List (List Char × List Char)
  | [] => [([], [])]
  | c :: cs =>
      if allowed c then (runs allowed cs).map (Prod.map (c :: ·) id) ++ [([], c :: cs)]
      else [([], c :: cs)]

/-- All ways to match the beginning of a text, in the order of preference. -/
def ways : Pattern → List Char → List Match
  | char _, [] => []
  | char allowed, c :: cs => if allowed c then [⟨[c], [], cs⟩] else []
  | greedy allowed, cs => (runs allowed cs).map fun (text, rest) => ⟨text, [], rest⟩
  | lazy allowed, cs => (runs allowed cs).reverse.map fun (text, rest) => ⟨text, [], rest⟩
  | optional pattern, cs => pattern.ways cs ++ [.empty cs]
  | capture part pattern, cs =>
      (pattern.ways cs).map fun found =>
        { found with captures := (part, found.text) :: found.captures }
  | seq first second, cs =>
      (first.ways cs).flatMap fun found => (second.ways found.rest).map found.followedBy

section Ways

variable (allowed : Char → Bool) (pattern first second : Pattern) (c : Char) (cs : List Char)

theorem ways_char_nil : (char allowed).ways [] = [] := rfl

theorem ways_char_cons :
    (char allowed).ways (c :: cs) = if allowed c then [⟨[c], [], cs⟩] else [] := rfl

theorem ways_greedy :
    (greedy allowed).ways cs = (runs allowed cs).map fun (text, rest) => ⟨text, [], rest⟩ := rfl

theorem ways_lazy : (lazy allowed).ways cs =
    (runs allowed cs).reverse.map fun (text, rest) => ⟨text, [], rest⟩ := rfl

theorem ways_optional : (optional pattern).ways cs = pattern.ways cs ++ [.empty cs] := rfl

theorem ways_capture (part : Placeholder.Part) : (capture part pattern).ways cs =
    (pattern.ways cs).map fun found =>
      { found with captures := (part, found.text) :: found.captures } := rfl

theorem ways_seq : (seq first second).ways cs =
    (first.ways cs).flatMap fun found => (second.ways found.rest).map found.followedBy := rfl

end Ways

/-- What a matcher answers at the beginning of a text. -/
def first? (pattern : Pattern) (cs : List Char) : Option Match :=
  (pattern.ways cs).head?

def literal (c : Char) : Pattern := char (· == c)

/-! ## The pattern of a placeholder -/

def word : Pattern := seq (char Placeholder.isWordChar) (greedy Placeholder.isWordChar)

/-- Anything up to a closing brace. -/
def untilClose : Pattern := seq (char (· != '}')) (lazy (· != '}'))

def closing : Pattern := seq (greedy isBlank) (seq (literal '}') (literal '}'))

def ending : Pattern :=
  seq (optional (seq (literal ':') (capture .format untilClose))) closing

def namedEnding : Pattern :=
  seq (optional (seq (literal ':') (capture .statistic word))) ending

def placeholder : Pattern :=
  seq (literal '{') (seq (literal '{') (seq (greedy isBlank) (seq (capture .metric word)
    namedEnding)))

end Pattern

namespace Placeholder

/-- A placeholder with what was captured as one of its parts. -/
def withPart (placeholder : Placeholder) (captured : Part × List Char) : Placeholder :=
  match captured.1 with
  | .metric => { placeholder with metric := String.ofList captured.2 }
  | .statistic => { placeholder with statistic := some (String.ofList captured.2) }
  | .format => { placeholder with format := some (String.ofList (trim captured.2)) }

end Placeholder

namespace Match

/-- Adds to what is read later what was captured before. -/
def into (found : Match) (later : Placeholder × List Char) : Placeholder × List Char :=
  let placeholder := found.captures.foldr (fun captured placeholder =>
    placeholder.withPart captured) later.1
  (placeholder, later.2)

/-- The placeholder that a match stands for, and the text after it. -/
def read (found : Match) : Placeholder × List Char :=
  found.into (⟨"", none, none⟩, found.rest)

end Match

namespace Pattern

variable {allowed : Char → Bool} {second : Pattern} {cs rest : List Char} {α : Type}

/-- What is read from the beginning of a text. -/
def read? (pattern : Pattern) (cs : List Char) : Option (Placeholder × List Char) :=
  (pattern.first? cs).map Match.read

theorem read_followedBy (found later : Match) :
    (found.followedBy later).read = found.into later.read := by
  simp [Match.followedBy, Match.read, Match.into, List.foldr_append]

theorem into_of_captures_eq_nil {found : Match} (hnone : found.captures = []) :
    found.into = id := by
  funext later
  rw [Match.into, hnone]
  rfl

theorem read?_seq (first second : Pattern) (cs : List Char) :
    (seq first second).read? cs =
      (first.ways cs).findSome? fun found => (second.read? found.rest).map found.into := by
  rw [read?, first?, ways_seq, List.head?_flatMap, List.map_findSome?]
  congr 1
  funext found
  rw [Function.comp_apply, List.head?_map, Option.map_map, read?, Option.map_map, first?]
  congr 1
  funext later
  exact read_followedBy found later

theorem read?_seq_char_nil : (seq (char allowed) second).read? [] = none := by
  rw [read?_seq, ways_char_nil, List.findSome?_nil]

theorem read?_seq_char_cons (c : Char) (cs : List Char) :
    (seq (char allowed) second).read? (c :: cs) =
      if allowed c then second.read? cs else none := by
  rw [read?_seq, ways_char_cons]
  split
  · rw [List.findSome?_singleton, into_of_captures_eq_nil rfl, Option.map_id, id]
  · rfl

theorem read?_seq_optional (first second : Pattern) (cs : List Char) :
    (seq (optional first) second).read? cs =
      ((seq first second).read? cs).or (second.read? cs) := by
  rw [read?_seq, ways_optional, List.findSome?_append, List.findSome?_singleton, ← read?_seq,
    into_of_captures_eq_nil rfl, Option.map_id, id]
  rfl

theorem followedBy_assoc (first second third : Match) :
    (first.followedBy second).followedBy third = first.followedBy (second.followedBy third) := by
  simp [Match.followedBy]

theorem ways_seq_assoc (first second third : Pattern) (cs : List Char) :
    (seq (seq first second) third).ways cs = (seq first (seq second third)).ways cs := by
  simp only [ways_seq, List.flatMap_assoc, List.map_flatMap, List.flatMap_map, List.map_map]
  congr 1
  funext found
  congr 1
  funext next
  congr 1
  funext last
  exact followedBy_assoc found next last

theorem read?_seq_assoc (first second third : Pattern) (cs : List Char) :
    (seq (seq first second) third).read? cs = (seq first (seq second third)).read? cs := by
  rw [read?, read?, first?, first?, ways_seq_assoc]

/-- What stops before another character of the kind is found after all of them. -/
theorem findSome?_runs {answer : List Char × List Char → Option α}
    (hstop : ∀ text c rest, allowed c = true → answer (text, c :: rest) = none) (cs : List Char) :
    (runs allowed cs).findSome? answer = answer (cs.takeWhile allowed, cs.dropWhile allowed) := by
  induction cs generalizing answer with
  | nil => exact List.findSome?_singleton
  | cons c cs ih =>
      rw [runs]
      split
      · next hc =>
          rw [List.findSome?_append, List.findSome?_map, ih, List.findSome?_singleton,
            hstop [] c cs hc, Option.or_none, Function.comp_apply,
            List.takeWhile_cons_of_pos hc, List.dropWhile_cons_of_pos hc]
          · rfl
          · intro text d rest hd
            exact hstop _ d rest hd
      · next hc =>
          rw [List.findSome?_singleton, List.takeWhile_cons_of_neg hc,
            List.dropWhile_cons_of_neg hc]

theorem read?_seq_greedy
    (hstop : ∀ c rest, allowed c = true → second.read? (c :: rest) = none) (cs : List Char) :
    (seq (greedy allowed) second).read? cs = second.read? (cs.dropWhile allowed) := by
  rw [read?_seq, ways_greedy, List.findSome?_map, findSome?_runs, Function.comp_apply,
    into_of_captures_eq_nil rfl, Option.map_id, id]
  intro text c rest hc
  rw [Function.comp_apply, hstop c rest hc, Option.map_none]

/-- The ways of an expression that is preceded by a character. -/
theorem ways_seq_char_cons (c : Char) (cs : List Char) :
    (seq (char allowed) second).ways (c :: cs) =
      if allowed c then (second.ways cs).map (Match.followedBy ⟨[c], [], cs⟩) else [] := by
  rw [ways_seq, ways_char_cons]
  split
  · exact List.flatMap_singleton ..
  · rfl

theorem read?_seq_capture_word {part : Placeholder.Part}
    (hstop : ∀ c rest, Placeholder.isWordChar c = true → second.read? (c :: rest) = none)
    (cs : List Char) :
    (seq (capture part word) second).read? cs =
      match cs.takeWhile Placeholder.isWordChar with
      | [] => none
      | c :: name => (second.read? (cs.dropWhile Placeholder.isWordChar)).map fun later =>
          (later.1.withPart (part, c :: name), later.2) := by
  rw [read?_seq, ways_capture, word, List.findSome?_map]
  cases cs with
  | nil => rfl
  | cons c cs =>
      rw [ways_seq_char_cons]
      by_cases hc : Placeholder.isWordChar c = true
      · rw [if_pos hc, List.findSome?_map, ways_greedy, List.findSome?_map, findSome?_runs,
          List.takeWhile_cons_of_pos hc, List.dropWhile_cons_of_pos hc]
        · rfl
        · intro text d rest hd
          exact congrArg (Option.map _) (hstop d rest hd)
      · rw [if_neg hc, List.findSome?_nil, List.takeWhile_cons_of_neg hc]

/-! ## The pattern of a placeholder, part by part -/

theorem toNat_of_isWordChar {c : Char} (hc : Placeholder.isWordChar c = true) :
    48 ≤ c.toNat ∧ c.toNat ≤ 57 ∨ 97 ≤ c.toNat ∧ c.toNat ≤ 122 ∨
      65 ≤ c.toNat ∧ c.toNat ≤ 90 ∨ c.toNat = 95 := by
  simp only [Placeholder.isWordChar, isDigit, Bool.or_eq_true, Bool.and_eq_true,
    decide_eq_true_eq, beq_iff_eq] at hc
  obtain ((hdigit | hsmall) | hcapital) | rfl := hc
  · exact .inl hdigit
  · exact .inr (.inl hsmall)
  · exact .inr (.inr (.inl hcapital))
  · exact .inr (.inr (.inr rfl))

theorem isBlank_of_isWordChar {c : Char} (hc : Placeholder.isWordChar c = true) :
    isBlank c = false := by
  have hcode := toNat_of_isWordChar hc
  simp only [isBlank, Bool.or_eq_false_iff, Bool.and_eq_false_iff, beq_eq_false_iff_ne,
    decide_eq_false_iff_not]
  omega

theorem read?_char_cons (c : Char) (cs : List Char) :
    (char allowed).read? (c :: cs) = if allowed c then some (⟨"", none, none⟩, cs) else none := by
  rw [read?, first?, ways_char_cons]
  split <;> rfl

/-- What follows two closing braces. -/
def afterClose? : List Char → Option (List Char)
  | '}' :: '}' :: rest => some rest
  | _ => none

theorem readClose_eq (cs : List Char) :
    Placeholder.readClose cs = afterClose? (cs.dropWhile isBlank) := rfl

theorem afterClose?_eq_some_iff : afterClose? cs = some rest ↔ cs = '}' :: '}' :: rest := by
  unfold afterClose?
  split
  · simp
  · next hother => exact iff_of_false (fun hnever => by cases hnever) (hother rest)

theorem read?_braces (cs : List Char) :
    (seq (literal '}') (literal '}')).read? cs =
      (afterClose? cs).map fun rest => (⟨"", none, none⟩, rest) := by
  unfold afterClose?
  split
  · rfl
  · next hother =>
      rw [literal]
      rcases cs with _ | ⟨c, cs⟩
      · exact read?_seq_char_nil
      rw [read?_seq_char_cons]
      split
      · next hc =>
          rcases cs with _ | ⟨d, cs⟩
          · rfl
          rw [read?_char_cons, if_neg]
          · rfl
          · intro hd
            exact hother cs (by rw [beq_iff_eq.1 hc, beq_iff_eq.1 hd])
      · rfl

theorem read?_closing (cs : List Char) :
    closing.read? cs = (Placeholder.readClose cs).map fun rest => (⟨"", none, none⟩, rest) := by
  rw [closing, read?_seq_greedy, read?_braces, readClose_eq]
  intro c rest hblank
  rw [literal, read?_seq_char_cons, if_neg]
  intro hc
  rw [beq_iff_eq.1 hc] at hblank
  exact absurd hblank (by decide)

theorem trim_append_blanks (text : List Char) {blanks : List Char}
    (hblanks : ∀ c ∈ blanks, isBlank c = true) : trim (text ++ blanks) = trim text := by
  rw [trim, trim, dropBlanks, dropBlanks, List.dropWhile_append]
  split
  · next hempty =>
      rw [List.isEmpty_iff.1 hempty, List.dropWhile_eq_nil_iff.2 hblanks]
  · have hlast : ∀ c ∈ blanks.reverse, isBlank c = true := fun c hc =>
      hblanks c (List.mem_reverse.1 hc)
    rw [dropTrailingBlanks, dropTrailingBlanks, dropBlanks, dropBlanks, List.reverse_append,
      List.dropWhile_append_of_pos hlast]

/-- What is closed is blank up to the closing braces. -/
theorem exists_blanks_of_readClose (hclose : Placeholder.readClose cs = some rest) :
    ∃ blanks, (∀ c ∈ blanks, isBlank c = true) ∧ cs = blanks ++ '}' :: '}' :: rest := by
  rw [readClose_eq, afterClose?_eq_some_iff] at hclose
  refine ⟨cs.takeWhile isBlank, fun c hc => List.mem_takeWhile_imp hc, ?_⟩
  rw [← hclose, List.takeWhile_append_dropWhile]

theorem ne_close_of_isBlank {c : Char} (hblank : isBlank c = true) : (c != '}') = true := by
  apply bne_iff_ne.2
  rintro rfl
  exact absurd hblank (by decide)

/-- What is read as a format if closing braces follow a run. -/
def closedFormat (taken : List Char) (run : List Char × List Char) :
    Option (Placeholder × List Char) :=
  (Placeholder.readClose run.2).map fun rest =>
    (⟨"", none, some (String.ofList (trim (taken ++ run.1)))⟩, rest)

/-- A format ends at the first closing brace, but for blanks that are trimmed
anyway. -/
theorem findSome?_closedFormat (taken cs : List Char) :
    (runs (· != '}') cs).reverse.findSome? (closedFormat taken) =
      (afterClose? (cs.dropWhile (· != '}'))).map fun rest =>
        (⟨"", none, some (String.ofList (trim (taken ++ cs.takeWhile (· != '}'))))⟩, rest) := by
  induction cs generalizing taken with
  | nil => rfl
  | cons c cs ih =>
      rw [runs]
      split
      · next hc =>
          have hlater :
              closedFormat taken ∘ Prod.map (c :: ·) id = closedFormat (taken ++ [c]) := by
            funext run
            simp [closedFormat]
          have htake : (c :: cs).takeWhile (· != '}') = [c] ++ cs.takeWhile (· != '}') :=
            List.takeWhile_cons_of_pos hc
          have hdrop : (c :: cs).dropWhile (· != '}') = cs.dropWhile (· != '}') :=
            List.dropWhile_cons_of_pos hc
          rw [List.reverse_append, List.findSome?_append, ← List.map_reverse, List.findSome?_map,
            List.reverse_singleton, List.findSome?_singleton, hlater, ih]
          cases hclose : Placeholder.readClose (c :: cs) with
          | none =>
              rw [closedFormat, hclose, Option.map_none, Option.none_or, htake, hdrop,
                List.append_assoc]
          | some rest =>
              obtain ⟨blanks, hblanks, hcs⟩ := exists_blanks_of_readClose hclose
              have hopen : ∀ d ∈ blanks, (d != '}') = true := fun d hd =>
                ne_close_of_isBlank (hblanks d hd)
              have htrim : trim (taken ++ []) = trim (taken ++ (blanks ++ [])) := by
                rw [List.append_nil, List.append_nil, trim_append_blanks taken hblanks]
              rw [closedFormat, hclose, Option.map_some, Option.some_or, hcs,
                List.dropWhile_append_of_pos hopen, List.takeWhile_append_of_pos hopen, htrim]
              rfl
      · next hc =>
          obtain rfl : c = '}' := by simpa using hc
          rw [List.reverse_singleton, List.findSome?_singleton]
          rfl

/-- A format as it is read, where its end is looked for at once. -/
theorem readFormat_colon (body : List Char) :
    Placeholder.readFormat (':' :: body) =
      if body.takeWhile (· != '}') = [] then none
      else (afterClose? (body.dropWhile (· != '}'))).map fun rest =>
        (String.ofList (trim (body.takeWhile (· != '}'))), rest) := by
  rw [Placeholder.readFormat]
  generalize body.takeWhile (· != '}') = text, body.dropWhile (· != '}') = after
  split
  · rfl
  · next hother =>
      split
      · rfl
      · next hsome =>
          obtain ⟨c, format, rfl⟩ := List.exists_cons_of_ne_nil hsome
          cases hclose : afterClose? after with
          | none => rfl
          | some rest => exact absurd (afterClose?_eq_some_iff.1 hclose) (hother c format rest rfl)

theorem read?_format (cs : List Char) :
    (seq (capture .format untilClose) closing).read? cs =
      if cs.takeWhile (· != '}') = [] then none
      else (afterClose? (cs.dropWhile (· != '}'))).map fun rest =>
        (⟨"", none, some (String.ofList (trim (cs.takeWhile (· != '}'))))⟩, rest) := by
  rw [read?_seq, ways_capture, untilClose, List.findSome?_map]
  cases cs with
  | nil => rfl
  | cons c cs =>
      rw [ways_seq_char_cons]
      by_cases hc : (c != '}') = true
      · have htake : (c :: cs).takeWhile (· != '}') = c :: cs.takeWhile (· != '}') :=
          List.takeWhile_cons_of_pos hc
        have hdrop : (c :: cs).dropWhile (· != '}') = cs.dropWhile (· != '}') :=
          List.dropWhile_cons_of_pos hc
        rw [if_pos hc, List.findSome?_map, ways_lazy, List.findSome?_map, htake, hdrop,
          if_neg (List.cons_ne_nil _ _)]
        refine Eq.trans ?_ (findSome?_closedFormat [c] cs)
        congr 1
        funext run
        simp only [Function.comp_apply, Match.followedBy, read?_closing, Option.map_map]
        rfl
      · have htake : (c :: cs).takeWhile (· != '}') = [] := List.takeWhile_cons_of_neg hc
        rw [if_neg hc, List.findSome?_nil, if_pos htake]

theorem read?_seq_literal_of_ne {c d : Char} (hne : d ≠ c) (cs : List Char) :
    (seq (literal c) second).read? (d :: cs) = none := by
  rw [literal, read?_seq_char_cons, if_neg]
  exact fun heq => hne (beq_iff_eq.1 heq)

theorem read?_seq_literal (c : Char) (cs : List Char) :
    (seq (literal c) second).read? (c :: cs) = second.read? cs := by
  rw [literal, read?_seq_char_cons, if_pos (beq_self_eq_true c)]

theorem read?_colon_format (cs : List Char) :
    (seq (literal ':') (seq (capture .format untilClose) closing)).read? cs =
      (Placeholder.readFormat cs).map fun (format, rest) => (⟨"", none, some format⟩, rest) := by
  rcases cs with _ | ⟨c, cs⟩
  · exact read?_seq_char_nil
  by_cases hc : c = ':'
  · subst hc
    rw [read?_seq_literal, read?_format, readFormat_colon]
    split
    · rfl
    · rw [Option.map_map]
      rfl
  · rw [read?_seq_literal_of_ne hc]
    unfold Placeholder.readFormat
    split
    · next hcolon => exact absurd (List.cons.inj hcolon).1 hc
    · rfl

theorem read?_ending (cs : List Char) :
    ending.read? cs =
      (Placeholder.readEnd cs).map fun (format, rest) => (⟨"", none, format⟩, rest) := by
  rw [ending, read?_seq_optional, read?_seq_assoc, read?_colon_format, read?_closing,
    Placeholder.readEnd]
  cases Placeholder.readFormat cs with
  | some format => rfl
  | none =>
      rw [Option.map_none, Option.none_or, Option.map_map]
      rfl

theorem read?_seq_colon_of_isWordChar {c : Char} (hc : Placeholder.isWordChar c = true)
    (cs : List Char) : (seq (literal ':') second).read? (c :: cs) = none := by
  refine read?_seq_literal_of_ne ?_ cs
  rintro rfl
  exact absurd hc (by decide)

theorem readClose_of_isWordChar {c : Char} (hc : Placeholder.isWordChar c = true)
    (cs : List Char) : Placeholder.readClose (c :: cs) = none := by
  have hblank := isBlank_of_isWordChar hc
  rw [Placeholder.readClose, dropBlanks, List.dropWhile_cons_of_neg (by simp [hblank])]
  split
  · next hclose =>
      cases hclose
      exact absurd hc (by decide)
  · rfl

/-- A name is never taken back in part, since nothing that may follow it begins
with another character of a name. -/
theorem read?_ending_of_isWordChar {c : Char} (hc : Placeholder.isWordChar c = true)
    (cs : List Char) : ending.read? (c :: cs) = none := by
  rw [ending, read?_seq_optional, read?_seq_assoc, read?_seq_colon_of_isWordChar hc,
    read?_closing, readClose_of_isWordChar hc]
  rfl

theorem read?_namedEnding_of_isWordChar {c : Char} (hc : Placeholder.isWordChar c = true)
    (cs : List Char) : namedEnding.read? (c :: cs) = none := by
  rw [namedEnding, read?_seq_optional, read?_seq_assoc, read?_seq_colon_of_isWordChar hc,
    read?_ending_of_isWordChar hc]
  rfl

theorem read?_colon_statistic (cs : List Char) :
    (seq (literal ':') (seq (capture .statistic word) ending)).read? cs =
      (Placeholder.readStatistic cs).map fun (name, format, rest) =>
        (⟨"", some name, format⟩, rest) := by
  rcases cs with _ | ⟨c, cs⟩
  · exact read?_seq_char_nil
  by_cases hc : c = ':'
  · subst hc
    rw [read?_seq_literal, read?_seq_capture_word fun _ _ hd => read?_ending_of_isWordChar hd _,
      read?_ending, Placeholder.readStatistic]
    cases cs.takeWhile Placeholder.isWordChar with
    | nil => rfl
    | cons d name =>
        simp only [Option.map_map]
        rfl
  · rw [read?_seq_literal_of_ne hc]
    unfold Placeholder.readStatistic
    split
    · next hcolon => exact absurd (List.cons.inj hcolon).1 hc
    · rfl

theorem read?_namedEnding (cs : List Char) :
    namedEnding.read? cs =
      match Placeholder.readStatistic cs with
      | some (name, format, rest) => some (⟨"", some name, format⟩, rest)
      | none => (Placeholder.readEnd cs).map fun (format, rest) => (⟨"", none, format⟩, rest) := by
  rw [namedEnding, read?_seq_optional, read?_seq_assoc, read?_colon_statistic, read?_ending]
  cases Placeholder.readStatistic cs with
  | some statistic => rfl
  | none => rw [Option.map_none, Option.none_or]

/-- Placeholders are read as the pattern says. -/
theorem read?_placeholder (cs : List Char) : placeholder.read? cs = Placeholder.read? cs := by
  unfold Placeholder.read?
  split
  · next rest =>
      rw [placeholder, read?_seq_literal, read?_seq_literal, read?_seq_greedy,
        read?_seq_capture_word fun _ _ hc => read?_namedEnding_of_isWordChar hc _,
        read?_namedEnding]
      · dsimp only [dropBlanks]
        cases (rest.dropWhile isBlank).takeWhile Placeholder.isWordChar with
        | nil => rfl
        | cons c name =>
            dsimp only
            generalize (rest.dropWhile isBlank).dropWhile Placeholder.isWordChar = after
            cases Placeholder.readStatistic after with
            | some statistic => rfl
            | none =>
                simp only [Option.map_map]
                rfl
      · intro c rest hblank
        rw [read?_seq_capture_word fun _ _ hc => read?_namedEnding_of_isWordChar hc _,
          List.takeWhile_cons_of_neg]
        intro hword
        rw [isBlank_of_isWordChar hword] at hblank
        cases hblank
  · next hother =>
      rw [placeholder]
      rcases cs with _ | ⟨c, cs⟩
      · exact read?_seq_char_nil
      by_cases hc : c = '{'
      · subst hc
        rw [read?_seq_literal]
        rcases cs with _ | ⟨d, cs⟩
        · exact read?_seq_char_nil
        · refine read?_seq_literal_of_ne ?_ cs
          rintro rfl
          exact hother cs rfl
      · exact read?_seq_literal_of_ne hc cs

/-- A name that is not followed by an end is taken back, to be a format. -/
example : placeholder.read? "\x7b\x7bsteps:mean_7d:\x7d\x7d".toList =
    some (⟨"steps", none, some "mean_7d:"⟩, []) := by
  decide

end Pattern

end MetricAlerts
