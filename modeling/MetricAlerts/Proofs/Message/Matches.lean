import MetricAlerts.Proofs.Message.Pattern

/-!
# Matches within a text

The matches of a pattern are looked for from the left, each one after the end of
the one before.  This cuts a text into the matches and the stretches between
them, and it cuts it in one way only.  The pieces of a template are what it is
cut into by the pattern of a placeholder.
-/

namespace MetricAlerts

/-- A match, and the text in front of it. -/
structure Stretch where
  before : List Char
  found : Match

variable {pattern : Pattern} {cs tail rest : List Char} {stretches later : List Stretch}
  {found : Match}

namespace Pattern

/-- A text cut at the matches of a pattern, from the left.  Nothing matches
within what is in front of a match, or within what remains behind the last. -/
inductive Cuts (pattern : Pattern) : List Char → List Stretch → List Char → Prop
  | last {tail : List Char} (hnone : ∀ cs, cs <:+ tail → pattern.first? cs = none) :
      Cuts pattern tail [] tail
  | next {whole before cs : List Char} {found : Match} {stretches : List Stretch}
      {tail : List Char} (hwhole : whole = before ++ cs)
      (hbefore : ∀ skipped, skipped ≠ [] → skipped <:+ before →
        pattern.first? (skipped ++ cs) = none)
      (hfound : pattern.first? cs = some found) (hrest : Cuts pattern found.rest stretches tail) :
      Cuts pattern whole (⟨before, found⟩ :: stretches) tail

/-- Of two places where the first match may begin, neither is left of the
other. -/
theorem eq_nil_of_skipped {before skipped : List Char} (hsuffix : skipped <:+ before)
    (hbefore : ∀ skipped, skipped ≠ [] → skipped <:+ before →
      pattern.first? (skipped ++ rest) = none)
    (hfound : pattern.first? (skipped ++ rest) = some found) : skipped = [] := by
  by_contra hne
  rw [hbefore skipped hne hsuffix] at hfound
  cases hfound

/-- The first match begins where it begins. -/
theorem split_unique {before other : List Char} {cs rest : List Char} {second : Match}
    (hwhole : before ++ cs = other ++ rest)
    (hbefore : ∀ skipped, skipped ≠ [] → skipped <:+ before →
      pattern.first? (skipped ++ cs) = none)
    (hother : ∀ skipped, skipped ≠ [] → skipped <:+ other →
      pattern.first? (skipped ++ rest) = none)
    (hfound : pattern.first? cs = some found) (hsecond : pattern.first? rest = some second) :
    before = other ∧ cs = rest := by
  obtain ⟨skipped, rfl, rfl⟩ | ⟨skipped, rfl, rfl⟩ := List.append_eq_append_iff.1 hwhole
  · obtain rfl := eq_nil_of_skipped (List.suffix_append ..) hother hfound
    exact ⟨(List.append_nil _).symm, rfl⟩
  · obtain rfl := eq_nil_of_skipped (List.suffix_append ..) hbefore hsecond
    exact ⟨List.append_nil _, rfl⟩

/-- A text is cut in one way only. -/
theorem Cuts.unique (hcuts : pattern.Cuts cs stretches tail) (hlater : pattern.Cuts cs later rest) :
    stretches = later ∧ tail = rest := by
  induction hcuts generalizing later rest with
  | last hnone =>
      cases hlater with
      | last => exact ⟨rfl, rfl⟩
      | next hwhole hbefore hfound hrest =>
          rw [hnone _ (hwhole ▸ List.suffix_append ..)] at hfound
          cases hfound
  | next hwhole hbefore hfound hrest ih =>
      cases hlater with
      | last hnone =>
          rw [hnone _ (hwhole ▸ List.suffix_append ..)] at hfound
          cases hfound
      | next hagain hother hsecond hlater =>
          obtain ⟨rfl, rfl⟩ := split_unique (hwhole.symm.trans hagain) hbefore hother hfound hsecond
          rw [hfound] at hsecond
          cases hsecond
          obtain ⟨rfl, rfl⟩ := ih hlater
          exact ⟨rfl, rfl⟩

theorem append_of_mem_runs {allowed : Char → Bool} {run : List Char × List Char}
    (hrun : run ∈ runs allowed cs) : run.1 ++ run.2 = cs := by
  induction cs generalizing run with
  | nil =>
      obtain rfl := List.mem_singleton.1 hrun
      rfl
  | cons c cs ih =>
      rw [runs] at hrun
      split at hrun
      · rw [List.mem_append, List.mem_map, List.mem_singleton] at hrun
        obtain ⟨shorter, hshorter, rfl⟩ | rfl := hrun
        · exact congrArg (c :: ·) (ih hshorter)
        · rfl
      · obtain rfl := List.mem_singleton.1 hrun
        rfl

/-- A match is a beginning of the text. -/
theorem append_of_mem_ways (hfound : found ∈ pattern.ways cs) : found.text ++ found.rest = cs := by
  induction pattern generalizing cs found with
  | char allowed =>
      cases cs with
      | nil => cases hfound
      | cons c cs =>
          rw [ways_char_cons] at hfound
          split at hfound
          · obtain rfl := List.mem_singleton.1 hfound
            rfl
          · cases hfound
  | greedy allowed =>
      obtain ⟨run, hrun, rfl⟩ := List.mem_map.1 hfound
      exact append_of_mem_runs hrun
  | lazy allowed =>
      obtain ⟨run, hrun, rfl⟩ := List.mem_map.1 hfound
      exact append_of_mem_runs (List.mem_reverse.1 hrun)
  | optional pattern ih =>
      rw [ways_optional, List.mem_append, List.mem_singleton] at hfound
      obtain hfound | rfl := hfound
      · exact ih hfound
      · rfl
  | capture part pattern ih =>
      obtain ⟨inner, hinner, rfl⟩ := List.mem_map.1 hfound
      exact @ih _ inner hinner
  | seq first second ihFirst ihSecond =>
      obtain ⟨front, hfront, hrest⟩ := List.mem_flatMap.1 hfound
      obtain ⟨back, hback, rfl⟩ := List.mem_map.1 hrest
      calc (front.text ++ back.text) ++ back.rest = front.text ++ (back.text ++ back.rest) :=
            List.append_assoc ..
        _ = front.text ++ front.rest := by rw [ihSecond hback]
        _ = cs := ihFirst hfront

theorem append_of_first? (hfound : pattern.first? cs = some found) :
    found.text ++ found.rest = cs :=
  append_of_mem_ways (List.mem_of_mem_head? hfound)

/-- The stretches make up the text. -/
theorem Cuts.append_eq (hcuts : pattern.Cuts cs stretches tail) :
    cs = (stretches.flatMap fun stretch => stretch.before ++ stretch.found.text) ++ tail := by
  induction hcuts with
  | last hnone => rfl
  | next hwhole hbefore hfound hrest ih =>
      rw [hwhole, ← append_of_first? hfound, List.flatMap_cons, ih]
      simp only [List.append_assoc]

end Pattern

/-- The placeholder that a match stands for. -/
def Match.placeholder (found : Match) : Placeholder := found.read.1

def Stretch.pieces (stretch : Stretch) : List Piece :=
  stretch.before.map .char ++ [.slot stretch.found.placeholder]

namespace Pattern

/-- In front of a text where nothing matches, a character is only more text. -/
theorem Cuts.cons (hcuts : pattern.Cuts cs stretches tail) {c : Char}
    (hnone : pattern.first? (c :: cs) = none) :
    (stretches = [] ∧ pattern.Cuts (c :: cs) [] (c :: tail)) ∨
      ∃ stretch later, stretches = stretch :: later ∧
        pattern.Cuts (c :: cs) (⟨c :: stretch.before, stretch.found⟩ :: later) tail := by
  cases hcuts with
  | last hlast =>
      refine .inl ⟨rfl, .last ?_⟩
      intro rest hrest
      obtain rfl | hrest := List.suffix_cons_iff.1 hrest
      · exact hnone
      · exact hlast rest hrest
  | next hwhole hbefore hfound hrest =>
      refine .inr ⟨_, _, rfl, .next (congrArg (c :: ·) hwhole) ?_ hfound hrest⟩
      intro skipped hne hskipped
      obtain rfl | hskipped := List.suffix_cons_iff.1 hskipped
      · rw [List.cons_append, ← hwhole]
        exact hnone
      · exact hbefore skipped hne hskipped

theorem first?_placeholder_eq_none_iff :
    placeholder.first? cs = none ↔ Placeholder.read? cs = none := by
  rw [← read?_placeholder, Pattern.read?, Option.map_eq_none_iff]

end Pattern

theorem Piece.ofChars_of_read? {placeholder : Placeholder}
    (hread : Placeholder.read? cs = some (placeholder, rest)) :
    ofChars cs = .slot placeholder :: ofChars rest := by
  cases cs with
  | nil => cases hread
  | cons c cs =>
      rw [ofChars]
      split
      · next hagain =>
          rw [hread] at hagain
          cases hagain
          rfl
      · next hagain =>
          rw [hread] at hagain
          cases hagain

theorem Piece.ofChars_cons_of_none {c : Char} (hread : Placeholder.read? (c :: cs) = none) :
    ofChars (c :: cs) = .char c :: ofChars cs := by
  rw [ofChars]
  split
  · next hagain =>
      rw [hread] at hagain
      cases hagain
  · rfl

open Pattern in
/-- Every template is cut, and its pieces are those of the cut. -/
theorem Piece.exists_cuts (cs : List Char) :
    ∃ stretches tail, placeholder.Cuts cs stretches tail ∧
      ofChars cs = stretches.flatMap Stretch.pieces ++ tail.map .char := by
  induction cs using Piece.ofChars.induct with
  | case1 =>
      refine ⟨[], [], .last ?_, by simp [ofChars]⟩
      intro cs hsuffix
      rw [List.suffix_nil.1 hsuffix]
      rfl
  | case2 c cs slot rest hread ih =>
      obtain ⟨stretches, tail, hcuts, hpieces⟩ := ih
      have hpattern := hread
      rw [← read?_placeholder, Pattern.read?, Option.map_eq_some_iff] at hpattern
      obtain ⟨found, hfound, hread⟩ := hpattern
      cases hread
      refine ⟨⟨[], found⟩ :: stretches, tail, .next (List.nil_append _).symm ?_ hfound hcuts, ?_⟩
      · intro skipped hne hskipped
        exact absurd (List.suffix_nil.1 hskipped) hne
      · rw [ofChars_of_read? hread, hpieces]
        rfl
  | case3 c cs hread ih =>
      obtain ⟨stretches, tail, hcuts, hpieces⟩ := ih
      have hnone := first?_placeholder_eq_none_iff.2 hread
      rw [ofChars_cons_of_none hread, hpieces]
      obtain ⟨rfl, hlast⟩ | ⟨stretch, later, rfl, hnext⟩ := hcuts.cons hnone
      · exact ⟨[], c :: tail, hlast, rfl⟩
      · exact ⟨_, tail, hnext, rfl⟩

end MetricAlerts
